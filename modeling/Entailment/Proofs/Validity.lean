import Entailment.Argument
import Entailment.Proofs.Enumeration

/-!
# Validity of arguments

An argument is found valid exactly when its premises entail its inference. The premises are folded
into one conjunction, which is true under a valuation when all of them are and has the leaves of all
of them; the rest is what the tally of the implication reports.
-/

namespace Entailment

namespace Formula
variable {p : Formula} {ps : List Formula} {v : Valuation}

theorem holds_foldl_and : (ps.foldl (binary .and) p).Holds v ↔ ∀ q ∈ p :: ps, q.Holds v := by
  induction ps generalizing p with
  | nil => simp
  | cons q ps ih =>
    rw [List.foldl_cons, ih]
    simp only [List.forall_mem_cons, Holds, and_assoc]

theorem leaves_foldl_and :
    (ps.foldl (binary .and) p).leaves = (p :: ps).flatMap leaves := by
  induction ps generalizing p with
  | nil => simp
  | cons q ps ih => rw [List.foldl_cons, ih, List.flatMap_cons, leaves, List.append_assoc]; rfl

end Formula

namespace Argument
variable {a : Argument} {v : Valuation} {x : Char}

theorem holds_implication :
    a.implication.Holds v ↔ ((∀ p ∈ a.premises, p.Holds v) → a.inference.Holds v) := by
  rw [← show a.premise.Holds v ↔ ∀ p ∈ a.premises, p.Holds v from Formula.holds_foldl_and]
  rfl

theorem tautology_implication :
    a.implication.Tautology ↔ Formula.Entails a.premises a.inference :=
  forall_congr' fun _ => holds_implication

theorem leaves_implication :
    a.implication.leaves = a.premises.flatMap Formula.leaves ++ a.inference.leaves :=
  congrArg (· ++ a.inference.leaves) Formula.leaves_foldl_and

theorem mem_leaves_implication :
    x ∈ a.implication.leaves ↔ ∃ f ∈ a.inference :: a.premises, x ∈ f.leaves := by
  rw [leaves_implication, List.mem_append, List.mem_flatMap, or_comm]
  simp only [List.mem_cons, exists_eq_or_imp]

theorem exists_check_eq (a : Argument) :
    ∃ t, a.check = .ok t ∧ a.isValid = .ok t.holds ∧ a.implication.Reports t := by
  obtain ⟨t, ht, hrep⟩ := a.implication.exists_check_eq
  have hcheck : a.check = .ok t := ht
  refine ⟨t, hcheck, ?_, hrep⟩
  rw [isValid, hcheck]
  rfl

theorem exists_isValid_eq (a : Argument) :
    ∃ b, a.isValid = .ok b ∧ (b = true ↔ Formula.Entails a.premises a.inference) := by
  obtain ⟨t, -, hvalid, hrep⟩ := a.exists_check_eq
  exact ⟨t.holds, hvalid, hrep.holds_iff.trans tautology_implication⟩

/-- Checking an argument never fails. It is valid exactly if its premises entail its inference, and
a counterexample has values for exactly its variables. -/
theorem valid_iff_entails (ps : List Formula) (c : Formula) (hps : ps ≠ []) :
    ∃ a t, ofPremises ps c = .ok a ∧ a.premises = ps ∧ a.inference = c ∧
      a.check = .ok t ∧ a.isValid = .ok t.holds ∧
      (a.isValid = .ok true ↔ ∀ v : Valuation, (∀ p ∈ ps, p.Holds v) → c.Holds v) ∧
      (a.isValid = .ok true → t.counterexample = none) ∧
      (a.isValid = .ok false → ∃ env, t.counterexample = some env ∧
        (∀ x, (env.get? x).isSome ↔ ∃ f ∈ c :: ps, x ∈ f.leaves) ∧
        (∀ p ∈ ps, p.eval env = .ok true) ∧ c.eval env = .ok false) := by
  obtain ⟨p, ps, rfl⟩ := List.exists_cons_of_ne_nil hps
  obtain ⟨t, hcheck, hvalid, hrep⟩ := exists_check_eq ⟨p, ps, c⟩
  refine ⟨⟨p, ps, c⟩, t, rfl, rfl, rfl, hcheck, hvalid, ?_, fun h => ?_, fun h => ?_⟩
  · rw [hvalid, Except.ok.injEq, hrep.holds_iff]
    exact tautology_implication
  · rw [hvalid, Except.ok.injEq] at h
    exact hrep.of_holds h
  · rw [hvalid, Except.ok.injEq] at h
    obtain ⟨env, hcex, hdom, hfalse⟩ := hrep.of_not_holds h
    have hdom' : ∀ x, (env.get? x).isSome ↔ ∃ f ∈ c :: p :: ps, x ∈ f.leaves :=
      fun x => (hdom x).trans mem_leaves_implication
    -- the domain covers every formula of the argument, so each evaluates to its truth value
    have heval : ∀ f ∈ c :: p :: ps, f.eval env = .ok (f.truth env.valuation) :=
      fun f hf => Formula.eval_eq_truth fun x hx => (hdom' x).2 ⟨f, hf, hx⟩
    rw [Formula.truth_eq_false_iff, holds_implication, Classical.not_imp] at hfalse
    obtain ⟨hpremises, hc⟩ := hfalse
    refine ⟨env, hcex, hdom', fun q hq => ?_, ?_⟩
    · rw [heval q (List.mem_cons_of_mem _ hq), Formula.truth_eq_true_iff.2 (hpremises q hq)]
    · rw [heval c (List.mem_cons_self ..), Formula.truth_eq_false_iff.2 hc]

theorem isValid_modus_ponens :
    ∃ a, ofPremises [.binary .implies (.var 'A') (.var 'B'), .var 'A'] (.var 'B') = .ok a ∧
      a.isValid = .ok true := by
  obtain ⟨a, t, ha, -, -, -, -, hvalid, -⟩ :=
    valid_iff_entails [.binary .implies (.var 'A') (.var 'B'), .var 'A'] (.var 'B') (by simp)
  refine ⟨a, ha, hvalid.2 fun v hv => ?_⟩
  have himp := hv (.binary .implies (.var 'A') (.var 'B')) (by simp)
  exact himp (hv (.var 'A') (by simp))

end Argument

end Entailment
