import Entailment.Formula.Truth

/-!
# Substitution

Replacing every variable of a formula by a formula. A renaming of variables is the substitution of
variables for variables. The truth value of the result is that of the formula under the truth values
of what has been put in (`truth_subst`). A context has holes in the place of some of its parts, and
a formula put into all of them counts only through its own truth value (`truth_fill_congr`).
-/

namespace Entailment

namespace Formula

/-- Replaces each variable `c` by `σ c`, everywhere at once. -/
def subst (σ : Char → Formula) : Formula → Formula
  | var c => σ c
  | binary op l r => binary op (l.subst σ) (r.subst σ)
  | not f => not (f.subst σ)

/-- Replaces each variable `c` by the variable `r c`. -/
def rename (r : Char → Char) (f : Formula) : Formula := f.subst fun c => var (r c)

variable {f : Formula} {σ : Char → Formula} {r : Char → Char} {v : Valuation} {x : Char}

theorem leaves_subst : (f.subst σ).leaves = f.leaves.flatMap fun c => (σ c).leaves := by
  induction f with
  | var c => simp [subst, leaves]
  | not f ih => exact ih
  | binary op l r ihl ihr => rw [subst, leaves, leaves, ihl, ihr, List.flatMap_append]

theorem mem_leaves_subst : x ∈ (f.subst σ).leaves ↔ ∃ c ∈ f.leaves, x ∈ (σ c).leaves := by
  rw [leaves_subst, List.mem_flatMap]

theorem truth_subst : (f.subst σ).truth v = f.truth fun c => (σ c).truth v := by
  induction f with
  | var c => rfl
  | not f ih => rw [subst, truth, truth, ih]
  | binary op l r ihl ihr => rw [subst, truth, truth, ihl, ihr]

theorem Tautology.subst (h : f.Tautology) (σ : Char → Formula) : (f.subst σ).Tautology := by
  intro v
  rw [← truth_eq_true_iff, truth_subst]
  exact truth_eq_true_iff.2 (h _)

theorem truth_rename : (f.rename r).truth v = f.truth fun c => v (r c) := truth_subst

end Formula

/-- A formula with holes. -/
inductive Context where
  | hole
  | var (name : Char)
  | binary (op : Connective) (left right : Context)
  | not (body : Context)

namespace Context

/-- Puts `p` into every hole. -/
def fill (p : Formula) : Context → Formula
  | hole => p
  | var c => .var c
  | binary op l r => .binary op (l.fill p) (r.fill p)
  | not C => .not (C.fill p)

theorem truth_fill_congr {p q : Formula} {v : Valuation} (h : p.truth v = q.truth v)
    (C : Context) : (C.fill p).truth v = (C.fill q).truth v := by
  induction C with
  | hole => exact h
  | var c => rfl
  | binary op l r ihl ihr => rw [fill, fill, Formula.truth, Formula.truth, ihl, ihr]
  | not C ih => rw [fill, fill, Formula.truth, Formula.truth, ih]

end Context

end Entailment
