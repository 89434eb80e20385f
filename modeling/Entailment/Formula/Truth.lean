import Entailment.Formula.Basic

/-!
# Truth tables and entailment

The meaning of a formula under a valuation of all characters, and what it means for formulas to be
tautologies and to entail one another. `Holds` reads the connectives as the logical ones; the
truth tables agree with it (`truth_eq_true_iff`). Nothing here is computed over finite assignments.
-/

namespace Entailment

/-- The truth table of a connective. -/
def Connective.apply : Connective → Bool → Bool → Bool
  | and, a, b => a && b
  | or, a, b => a || b
  | implies, a, b => !a || b
  | iff, a, b => a == b

/-- A truth value for every variable there is. -/
abbrev Valuation := Char → Bool

namespace Formula

/-- The truth value of the formula under `v`. -/
def truth (v : Valuation) : Formula → Bool
  | var c => v c
  | binary op l r => op.apply (l.truth v) (r.truth v)
  | not f => !f.truth v

/-- The formula is true under `v`, its connectives read as those of logic. -/
def Holds (v : Valuation) : Formula → Prop
  | var c => v c = true
  | binary .and l r => l.Holds v ∧ r.Holds v
  | binary .or l r => l.Holds v ∨ r.Holds v
  | binary .implies l r => l.Holds v → r.Holds v
  | binary .iff l r => l.Holds v ↔ r.Holds v
  | not f => ¬ f.Holds v

/-- True under every valuation. -/
def Tautology (f : Formula) : Prop := ∀ v : Valuation, f.Holds v

/-- Every valuation that makes all of `premises` true makes `conclusion` true. -/
def Entails (premises : List Formula) (conclusion : Formula) : Prop :=
  ∀ v : Valuation, (∀ p ∈ premises, p.Holds v) → conclusion.Holds v

variable {f : Formula} {v w : Valuation}

theorem truth_eq_true_iff : f.truth v = true ↔ f.Holds v := by
  induction f with
  | var c => rfl
  | not f ih => simp [truth, Holds, ← ih]
  | binary op l r ihl ihr =>
    cases op with
    | implies =>
      rw [truth, Holds, ← ihl, ← ihr, Connective.apply]
      cases l.truth v <;> simp
    | _ => simp [truth, Holds, Connective.apply, ← ihl, ← ihr]

theorem truth_eq_false_iff : f.truth v = false ↔ ¬ f.Holds v := by
  rw [← truth_eq_true_iff, Bool.not_eq_true]

theorem truth_congr (h : ∀ c ∈ f.leaves, v c = w c) : f.truth v = f.truth w := by
  induction f with
  | var c => exact h c (by simp [leaves])
  | not f ih => rw [truth, truth, ih h]
  | binary op l r ihl ihr =>
    simp only [leaves, List.mem_append] at h
    rw [truth, truth, ihl fun c hc => h c (.inl hc), ihr fun c hc => h c (.inr hc)]

end Formula

end Entailment
