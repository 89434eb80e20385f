import Entailment.Proofs.ArgumentOutcome
import Mathlib.Control.Monad.Basic

/-!
# Structural rules

Order and repetition of premises do not matter to a verdict, and further premises never make a valid
argument invalid. Two lists of premises are examined in enumerations that have nothing in common, so
they are compared through entailment, which sees a list of premises as a set (`Entails.mono`). Both
rules are cases of one: of two arguments in writing, the one with more premises is valid if the
other one is (`exists_validate_of_subset`).
-/

namespace Entailment

theorem Formula.Entails.mono {ps qs : List Formula} {c : Formula} (h : Entails ps c)
    (hsub : ps ⊆ qs) : Entails qs c :=
  fun v hv => h v fun p hp => hv p (hsub hp)

namespace Notation
variable {n : Notation} {premises premises' : List String} {inference : String} {b : Bool}

theorem validate_eq_ok_iff : n.validate premises inference = .ok b ↔
    ∃ a, n.argument premises inference = .ok a ∧
      (b = true ↔ Formula.Entails a.premises a.inference) := by
  rw [validate_eq, bind_eq_ok_iff]
  refine exists_congr fun a => and_congr_right fun _ => ?_
  obtain ⟨b', hb', hvalid⟩ := a.exists_isValid_eq
  rw [hb', Except.ok.injEq, ← hvalid, eq_comm, Bool.eq_iff_iff]

theorem exists_argument_of_subset {a : Argument} (h : n.argument premises inference = .ok a)
    (hsub : premises ⊆ premises')
    (hread : ∀ t ∈ premises', t ∈ premises ∨ ∃ f, n.parseFormula t = .ok f) :
    ∃ a', n.argument premises' inference = .ok a' ∧ a'.inference = a.inference ∧
      a.premises ⊆ a'.premises := by
  obtain ⟨hps, hc⟩ := argument_eq_ok_iff.1 h
  have hread' : ∀ t ∈ premises', ∃ f, n.parseFormula t = .ok f :=
    fun t ht => (hread t ht).elim (exists_ok_of_map_eq hps t) id
  obtain ⟨qs, hqs⟩ := exists_map_eq_of_read hread'
  cases qs with
  | nil =>
    -- the first premise is among the others
    obtain ⟨t, ht, -⟩ := (mem_premises_iff h).1 (List.mem_cons_self : a.first ∈ a.premises)
    have hnil : premises' = [] := List.map_eq_nil_iff.1 hqs
    exact absurd (hsub ht) (by simp [hnil])
  | cons q qs =>
    have h' : n.argument premises' inference = .ok ⟨q, qs, a.inference⟩ :=
      argument_eq_ok_iff.2 ⟨hqs, hc⟩
    refine ⟨_, h', rfl, fun p hp => ?_⟩
    obtain ⟨t, ht, hp⟩ := (mem_premises_iff h).1 hp
    exact (mem_premises_iff h').2 ⟨t, hsub ht, hp⟩

theorem exists_validate_of_subset (h : n.validate premises inference = .ok b)
    (hsub : premises ⊆ premises')
    (hread : ∀ t ∈ premises', t ∈ premises ∨ ∃ f, n.parseFormula t = .ok f) :
    ∃ b', n.validate premises' inference = .ok b' ∧ (b = true → b' = true) := by
  obtain ⟨a, ha, hb⟩ := validate_eq_ok_iff.1 h
  obtain ⟨a', ha', hinference, hpremises⟩ := exists_argument_of_subset ha hsub hread
  obtain ⟨b', -, hb'⟩ := a'.exists_isValid_eq
  refine ⟨b', validate_eq_ok_iff.2 ⟨a', ha', hb'⟩, fun htrue => hb'.2 ?_⟩
  rw [hinference]
  exact (hb.1 htrue).mono hpremises

/-- The verdict on an argument depends on the set of its premises only, in whatever order and
however often they are written; and where the argument is valid it stays so when further premises
that can be read are put in, in any place. -/
theorem validate_structural (n : Notation) (premises : List String) (inference : String) (b : Bool)
    (h : n.validate premises inference = .ok b) :
    (∀ premises', (∀ t, t ∈ premises' ↔ t ∈ premises) → n.validate premises' inference = .ok b) ∧
    (b = true → ∀ premises', premises ⊆ premises' →
      (∀ t ∈ premises', t ∈ premises ∨ ∃ f, n.parseFormula t = .ok f) →
      n.validate premises' inference = .ok true) := by
  refine ⟨fun premises' hsame => ?_, fun htrue premises' hsub hread => ?_⟩
  · obtain ⟨b', h', himp⟩ :=
      exists_validate_of_subset h (fun t => (hsame t).2) fun t ht => .inl ((hsame t).1 ht)
    -- and back again
    obtain ⟨b'', h'', himp'⟩ :=
      exists_validate_of_subset h' (fun t => (hsame t).1) fun t ht => .inl ((hsame t).2 ht)
    rw [h, Except.ok.injEq] at h''
    subst h''
    rw [h', Bool.eq_iff_iff.2 ⟨himp', himp⟩]
  · obtain ⟨b', h', himp⟩ := exists_validate_of_subset h hsub hread
    rw [h', himp htrue]

/-- Modus ponens with a premise that is written twice, and with one in front that says nothing. -/
theorem validate_structural_modus_ponens :
    standard.validate ["A implies B", "A"] "B" = .ok true ∧
    standard.validate ["A", "A implies B", "A"] "B" = .ok true ∧
    standard.validate ["C or D", "A implies B", "A"] "B" = .ok true := by
  have h : standard.validate ["A implies B", "A"] "B" = .ok true := by
    rw [validate_eq, argument_eq, parseFormula_eq_bind, parse_eq_run]
    decide +kernel
  have hextra : standard.parseFormula "C or D" = .ok (.binary .or (.var 'C') (.var 'D')) := by
    rw [parseFormula_eq_bind, parse_eq_run]
    decide +kernel
  obtain ⟨hsame, hmore⟩ := validate_structural standard _ _ _ h
  refine ⟨h, hsame _ fun t => by grind, hmore rfl _ (by simp) fun t ht => ?_⟩
  rcases List.mem_cons.1 ht with rfl | ht
  · exact .inr ⟨_, hextra⟩
  · exact .inl ht

end Notation

end Entailment
