import Entailment.Proofs.Tautologies
import Mathlib.Control.Monad.Basic

/-!
# The tautologies as a theory

What is found to be a tautology is closed under deduction. A conjunction is found to be one exactly
with both its sides, an equivalence exactly with both its directions, and modus ponens leads from
tautologies to a tautology. The checks compared go through different assignments: those of one side,
those of both sides together, in one order or the other, and after modus ponens those of fewer
variables. So each verdict is first read as a statement about all valuations.
-/

namespace Entailment.Formula

variable {p q : Formula}

theorem tautology_and : (binary .and p q).Tautology ↔ p.Tautology ∧ q.Tautology := by
  unfold Tautology
  exact forall_and

theorem tautology_iff : (binary .iff p q).Tautology ↔
    (binary .implies p q).Tautology ∧ (binary .implies q p).Tautology := by
  constructor
  · intro h
    exact ⟨fun v => (h v).1, fun v => (h v).2⟩
  · rintro ⟨hpq, hqp⟩ v
    exact ⟨hpq v, hqp v⟩

theorem Tautology.mp (hp : p.Tautology) (hpq : (binary .implies p q).Tautology) : q.Tautology := by
  intro v
  have himp : p.Holds v → q.Holds v := hpq v
  exact himp (hp v)

/-- Every formula gets a verdict. A conjunction is a tautology exactly if both sides are, and an
equivalence exactly if the implications in both directions are. If a formula and an implication from
it to another formula are tautologies then so is the other formula. -/
theorem isTautology_closed (p q : Formula) :
    ∃ a b forth back, p.isTautology = .ok a ∧ q.isTautology = .ok b ∧
      (binary .implies p q).isTautology = .ok forth ∧
      (binary .implies q p).isTautology = .ok back ∧
      (binary .and p q).isTautology = .ok (a && b) ∧
      (binary .iff p q).isTautology = .ok (forth && back) ∧
      (a = true → forth = true → b = true) := by
  obtain ⟨a, ha, hp⟩ := p.exists_isTautology_eq
  obtain ⟨b, hb, hq⟩ := q.exists_isTautology_eq
  obtain ⟨forth, hforth, hpq⟩ := (binary .implies p q).exists_isTautology_eq
  obtain ⟨back, hback, hqp⟩ := (binary .implies q p).exists_isTautology_eq
  refine ⟨a, b, forth, back, ha, hb, hforth, hback, isTautology_eq_ok ?_, isTautology_eq_ok ?_, ?_⟩
  · rw [Bool.and_eq_true, hp, hq, tautology_and]
  · rw [Bool.and_eq_true, hpq, hqp, tautology_iff]
  · rw [hp, hpq, hq]
    exact Tautology.mp

/-- Modus ponens forgets `A`, which occurs in the premise alone. -/
theorem isTautology_closed_forgets :
    (binary .or (var 'A') (not (var 'A'))).isTautology = .ok true ∧
    (binary .implies (var 'B') (var 'B')).isTautology = .ok true := by
  obtain ⟨a, b, forth, back, ha, hb, hforth, -, -, -, hmp⟩ := isTautology_closed
    (binary .or (var 'A') (not (var 'A'))) (binary .implies (var 'B') (var 'B'))
  have ha' : a = true := Except.ok.inj (ha.symm.trans (by decide))
  have hforth' : forth = true := Except.ok.inj (hforth.symm.trans (by decide))
  subst ha'
  rw [hb, hmp rfl hforth']
  exact ⟨ha, rfl⟩

end Entailment.Formula
