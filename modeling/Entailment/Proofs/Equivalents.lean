import Entailment.Formula.Substitution
import Entailment.Proofs.Tautologies
import Entailment.Proofs.Validity
import Mathlib.Control.Monad.Basic
import Mathlib.Data.List.Forall2

/-!
# Replacement of equivalents

Formulas that are found to be equivalent can stand for one another: in every context, as premises
and as the inference of an argument. They may have different variables, so the assignments examined
before and after a replacement differ in number and in kind, and the two checks are compared through
valuations. Equivalent formulas have the same truth values (`equivalent_iff`), which a context keeps
(`Equivalent.fill`) and an argument as well (`Argument.equivalent_implication`).
-/

namespace Entailment

namespace Formula
variable {p q : Formula} {ps qs : List Formula} {v : Valuation}

/-- The check finds that each of the formulas is true exactly if the other one is. -/
def Equivalent (p q : Formula) : Prop := (binary .iff p q).isTautology = .ok true

theorem equivalent_iff : p.Equivalent q ↔ ∀ v, p.Holds v ↔ q.Holds v :=
  isTautology_eq_ok_true_iff

namespace Equivalent

theorem refl (p : Formula) : p.Equivalent p := equivalent_iff.2 fun _ => Iff.rfl

theorem truth_eq (h : p.Equivalent q) : p.truth v = q.truth v := by
  rw [Bool.eq_iff_iff, truth_eq_true_iff, truth_eq_true_iff]
  exact equivalent_iff.1 h v

theorem fill (h : p.Equivalent q) (C : Context) : (C.fill p).Equivalent (C.fill q) := by
  refine equivalent_iff.2 fun v => ?_
  rw [← truth_eq_true_iff, ← truth_eq_true_iff, C.truth_fill_congr h.truth_eq]

theorem isTautology_eq (h : p.Equivalent q) : p.isTautology = q.isTautology :=
  isTautology_congr (forall_congr' (equivalent_iff.1 h))

theorem forall_holds_iff (h : List.Forall₂ Equivalent ps qs) :
    (∀ p ∈ ps, p.Holds v) ↔ ∀ q ∈ qs, q.Holds v := by
  induction h with
  | nil => exact Iff.rfl
  | cons hpq _ ih => rw [List.forall_mem_cons, List.forall_mem_cons, equivalent_iff.1 hpq, ih]

end Equivalent

end Formula

open Formula

theorem Argument.equivalent_implication {a b : Argument}
    (hpremises : List.Forall₂ Equivalent a.premises b.premises)
    (hinference : a.inference.Equivalent b.inference) :
    a.implication.Equivalent b.implication := by
  refine equivalent_iff.2 fun v => ?_
  rw [holds_implication, holds_implication, Equivalent.forall_holds_iff hpremises,
    equivalent_iff.1 hinference]

/-- An `Equivalent` formula may be put into the holes of a context or take the place of a premise or
of the inference: the verdict stays the same. -/
theorem replace_equivalents :
    (∀ (p q : Formula) (C : Context), p.Equivalent q →
      (C.fill p).Equivalent (C.fill q) ∧ (C.fill p).isTautology = (C.fill q).isTautology) ∧
    (∀ p : Formula, p.Equivalent p) ∧
    ∀ a b : Argument, List.Forall₂ Equivalent a.premises b.premises →
      a.inference.Equivalent b.inference → a.isValid = b.isValid := by
  refine ⟨fun p q C h => ⟨h.fill C, (h.fill C).isTautology_eq⟩, Equivalent.refl,
    fun a b hpremises hinference => ?_⟩
  -- the verdict on an argument is that on its implication
  exact (Argument.equivalent_implication hpremises hinference).isTautology_eq

/-- `A implies A` and `B implies B` have no variable in common. One replaces the other in both holes
under a negation, and in the first of two premises. -/
theorem replace_equivalents_disjoint :
    (Formula.binary .iff
      (.not (.binary .or (.binary .implies (.var 'A') (.var 'A'))
        (.binary .and (.var 'C') (.binary .implies (.var 'A') (.var 'A')))))
      (.not (.binary .or (.binary .implies (.var 'B') (.var 'B'))
        (.binary .and (.var 'C') (.binary .implies (.var 'B') (.var 'B')))))).isTautology =
      .ok true ∧
    (Argument.mk (.binary .implies (.var 'A') (.var 'A')) [.var 'C'] (.var 'C')).isValid =
      (Argument.mk (.binary .implies (.var 'B') (.var 'B')) [.var 'C'] (.var 'C')).isValid := by
  have h : (Formula.binary .implies (.var 'A') (.var 'A')).Equivalent
      (.binary .implies (.var 'B') (.var 'B')) := by
    rw [Equivalent]; decide
  obtain ⟨hcontext, hrefl, hargument⟩ := replace_equivalents
  refine ⟨(hcontext _ _ (.not (.binary .or .hole (.binary .and (.var 'C') .hole))) h).1, ?_⟩
  exact hargument _ _ (.cons h (.cons (hrefl _) .nil)) (hrefl _)

end Entailment
