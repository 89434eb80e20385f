import Entailment.Proofs.Validity
import Mathlib.Control.Monad.Basic

/-!
# Premises and implications

Premises at the end of an argument can be made into conditions of its inference. The implication
that is checked becomes another formula by that, but it has the same leaves in the same order and
the same truth values (`leaves_implication`, `holds_implication`), and a check sees no more of a
formula than its variables and its truth values (`Formula.check_congr`).
-/

namespace Entailment

namespace Formula
variable {c : Formula} {ps : List Formula} {v : Valuation}

theorem holds_foldr_implies : (ps.foldr (binary .implies) c).Holds v ↔
    ((∀ p ∈ ps, p.Holds v) → c.Holds v) := by
  induction ps with
  | nil => simp
  | cons p ps ih => rw [List.foldr_cons, Holds, ih, List.forall_mem_cons, and_imp]

theorem leaves_foldr_implies :
    (ps.foldr (binary .implies) c).leaves = ps.flatMap leaves ++ c.leaves := by
  induction ps with
  | nil => rfl
  | cons p ps ih => rw [List.foldr_cons, leaves, ih, List.flatMap_cons, List.append_assoc]

end Formula

namespace Argument
variable {a b : Argument}

theorem check_congr
    (hleaves : a.premises.flatMap Formula.leaves ++ a.inference.leaves =
      b.premises.flatMap Formula.leaves ++ b.inference.leaves)
    (hholds : ∀ v : Valuation, ((∀ p ∈ a.premises, p.Holds v) → a.inference.Holds v) ↔
      ((∀ p ∈ b.premises, p.Holds v) → b.inference.Holds v)) : a.check = b.check := by
  refine Formula.check_congr (Formula.vars_congr ?_) fun v => Bool.eq_iff_iff.2 ?_
  · rw [leaves_implication, leaves_implication, hleaves]
  · rw [Formula.truth_eq_true_iff, Formula.truth_eq_true_iff, holds_implication, holds_implication]
    exact hholds v

/-- The last premises `qs` can be put in front of the inference as nested implications, and the
report of the check stays the same. -/
theorem check_append_premises (ps qs : List Formula) (c : Formula) (hps : ps ≠ []) :
    ∃ a b t, ofPremises (ps ++ qs) c = .ok a ∧
      ofPremises ps (qs.foldr (.binary .implies) c) = .ok b ∧
      a.check = .ok t ∧ b.check = .ok t := by
  obtain ⟨p, ps, rfl⟩ := List.exists_cons_of_ne_nil hps
  obtain ⟨t, ht, -⟩ := exists_check_eq ⟨p, ps ++ qs, c⟩
  refine ⟨_, _, t, rfl, rfl, ht, ?_⟩
  rw [← ht]
  refine (check_congr ?_ fun v => ?_).symm
  · show ((p :: ps) ++ qs).flatMap Formula.leaves ++ c.leaves =
      (p :: ps).flatMap Formula.leaves ++ (qs.foldr (.binary .implies) c).leaves
    rw [List.flatMap_append, Formula.leaves_foldr_implies, List.append_assoc]
  · show ((∀ q ∈ (p :: ps) ++ qs, q.Holds v) → c.Holds v) ↔
      ((∀ q ∈ p :: ps, q.Holds v) → (qs.foldr (.binary .implies) c).Holds v)
    rw [List.forall_mem_append, Formula.holds_foldr_implies, and_imp]

/-- Two of three premises become conditions, and the counterexample is the same one. -/
theorem check_append_premises_refuted :
    ∃ b, ofPremises [.binary .or (.var 'B') (.var 'A')] (.binary .implies (.not (.var 'A'))
        (.binary .implies (.binary .implies (.var 'C') (.var 'A')) (.var 'C'))) = .ok b ∧
      b.check = .ok ⟨8, false, some (.ofList [('A', false), ('B', true), ('C', false)])⟩ := by
  obtain ⟨a, b, t, ha, hb, hat, hbt⟩ := check_append_premises
    [.binary .or (.var 'B') (.var 'A')]
    [.not (.var 'A'), .binary .implies (.var 'C') (.var 'A')] (.var 'C') (by simp)
  cases ha
  refine ⟨b, hb, hbt.trans (hat.symm.trans ?_)⟩
  decide

end Argument

end Entailment
