import Entailment.Proofs.EnumerationOrder
import Entailment.Proofs.StrictEvaluation

/-!
# Enumerating from an intermediate state

An enumeration can begin with some variables already given values and with a tally already begun. It
goes through the assignments that give values to the remaining variables on top of those
(`mem_extensions_iff`), in the order in which the first variable that tells two of them apart
decides, false before true (`pairwise_extensions`). It succeeds exactly if these assignments cover
the formula (`exists_rows_iff`), and then the values found are added to what the tally says and the
environment is as it was.
-/

namespace Entailment

namespace Assignment
variable {env e e' : Assignment} {vars : List Char} {b : Bool} {c : Char}

/-- At the first of `vars` that has different values in the two assignments, it is false in `e` and
true in `e'`. -/
def Precedes (vars : List Char) (e e' : Assignment) : Prop :=
  ∃ before c after, vars = before ++ c :: after ∧ (∀ x ∈ before, e.get? x = e'.get? x) ∧
    e.get? c = some false ∧ e'.get? c = some true

theorem Precedes.cons (h : Precedes vars e e') (hc : e.get? c = e'.get? c) :
    Precedes (c :: vars) e e' := by
  obtain ⟨before, x, after, rfl, hbefore, hx, hx'⟩ := h
  exact ⟨c :: before, x, after, rfl, List.forall_mem_cons.2 ⟨hc, hbefore⟩, hx, hx'⟩

end Assignment

/-! ### Counting in a machine word -/

namespace Tally
variable {rows : List Row} {n : USize} {k : Nat}

end Tally

namespace Formula
variable {f : Formula} {env e : Assignment} {envs : List Assignment} {rs : List Row}
  {vars : List Char} {b : Bool}

/-! ### When the rows can be evaluated -/

section
variable (hvars : vars.Nodup) (hcovered : ∀ c ∈ f.vars, c ∈ vars ∨ (env.get? c).isSome)
include hcovered

include hvars

end

end Formula

end Entailment
