import Entailment.Assignment
import Entailment.Error
import Entailment.Formula.Truth

/-!
# Evaluation

The value of a formula under a finite assignment. Both sides of a connective are always evaluated,
the left one first, so a variable without a value is an error even where the other side would
decide. A tally sums up the values under several assignments.
-/

namespace Entailment

/-- The value of the formula under `env`, or the first variable that has none. -/
def Formula.eval (env : Assignment) : Formula → Except Error Bool
  | var c =>
    match env.get? c with
    | some b => .ok b
    | none => .error (.unbound c)
  | binary op l r => do
    let a ← l.eval env
    let b ← r.eval env
    return op.apply a b
  | not f => do
    let a ← f.eval env
    return !a

theorem Formula.eval_of_get? {f : Formula} {env : Assignment} {v : Valuation}
    (h : ∀ c ∈ f.leaves, env.get? c = some (v c)) : f.eval env = .ok (f.truth v) := by
  induction f with
  | var c => simp [eval, truth, h c (by simp [leaves])]
  | not f ih => rw [eval, ih h]; rfl
  | binary op l r ihl ihr =>
    simp only [leaves, List.mem_append] at h
    rw [eval, ihl fun c hc => h c (.inl hc), ihr fun c hc => h c (.inr hc)]
    rfl

/-- An assignment and the value of a formula under it: a line of its truth table. -/
structure Row where
  env : Assignment
  value : Bool
deriving DecidableEq

/-- A summary of the rows examined: how many they are, whether the formula is true in all of them,
and the first assignment that makes it false. The rows may be counted in any kind of number; a
machine word wraps around, and a natural number has no bound. -/
structure Tally (ν : Type := Nat) where
  examined : ν
  holds : Bool
  counterexample : Option Assignment
deriving DecidableEq

namespace Tally

/-- Nothing examined yet. -/
def start : Tally := ⟨0, true, none⟩

/-- Counts one more row. -/
def record {ν : Type} [Add ν] [OfNat ν 1] (t : Tally ν) (row : Row) : Tally ν where
  examined := t.examined + 1
  holds := t.holds && row.value
  counterexample := if t.holds && !row.value then some row.env else t.counterexample

end Tally

end Entailment
