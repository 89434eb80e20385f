import Entailment.Proofs.Enumeration
import Mathlib.Data.List.Find

/-!
# Evaluation is strict

Both sides of every connective are evaluated, the left one first. What decides the outcome is
therefore the first leaf without a value, in the order of the leaves, which is the order of the
variables as well (`find?_vars`); without such a leaf the outcome is the truth value (`eval_eq`).
-/

namespace Entailment.Formula

variable {f : Formula} {env env' : Assignment} {c : Char} {e : Error}

theorem eval_eq_of_leaves : f.eval env =
    match f.leaves.find? fun c => (env.get? c).isNone with
    | some c => .error (.unbound c)
    | none => .ok (f.truth env.valuation) := by
  induction f with
  | var c =>
    rw [eval, leaves, List.find?_singleton, truth, Assignment.valuation]
    cases env.get? c <;> rfl
  | not f ih =>
    rw [eval, ih, leaves, truth]
    cases f.leaves.find? _ <;> rfl
  | binary op l r ihl ihr =>
    rw [eval, ihl, ihr, leaves, truth, List.find?_append]
    -- the right side counts only where all leaves of the left one have values
    cases l.leaves.find? _ with
    | some c => rfl
    | none => cases r.leaves.find? _ <;> rfl

theorem eval_eq : f.eval env =
    match f.vars.find? fun c => (env.get? c).isNone with
    | some c => .error (.unbound c)
    | none => .ok (f.truth env.valuation) := by
  rw [find?_vars]
  exact eval_eq_of_leaves

theorem eval_eq_error_iff : f.eval env = .error e ↔
    ∃ c, e = .unbound c ∧ (f.vars.find? fun c => (env.get? c).isNone) = some c := by
  rw [eval_eq]
  cases f.vars.find? fun c => (env.get? c).isNone with
  | none => simp
  | some c => simp [eq_comm]

theorem eval_congr (h : ∀ c ∈ f.vars, env.get? c = env'.get? c) : f.eval env = f.eval env' := by
  have hleaves : ∀ c ∈ f.leaves, env.get? c = env'.get? c := fun c hc => h c (mem_vars.2 hc)
  have htruth : f.truth env.valuation = f.truth env'.valuation :=
    truth_congr fun c hc => by rw [Assignment.valuation, Assignment.valuation, hleaves c hc]
  have hfind : (f.leaves.find? fun c => (env.get? c).isNone) =
      f.leaves.find? fun c => (env'.get? c).isNone :=
    List.find?_congr fun c hc => by rw [hleaves c hc]
  rw [eval_eq_of_leaves, eval_eq_of_leaves, htruth, hfind]

/-- `eval` fails exactly where a variable has no value, with the first such one of `vars`.
Otherwise it gives the truth value, and only the values of the variables matter. -/
theorem eval_outcome (f : Formula) (env : Assignment) :
    (∀ c, f.eval env = .error (.unbound c) ↔ ∃ before after, f.vars = before ++ c :: after ∧
      env.get? c = none ∧ ∀ x ∈ before, (env.get? x).isSome) ∧
    ((∀ c ∈ f.vars, (env.get? c).isSome) → ∃ b, f.eval env = .ok b ∧
      ∀ v : Valuation, (∀ c ∈ f.vars, env.get? c = some (v c)) → (b = true ↔ f.Holds v)) ∧
    (∀ e, f.eval env = .error e → ∃ c, e = .unbound c) ∧
    ∀ env' : Assignment, (∀ c ∈ f.vars, env.get? c = env'.get? c) → f.eval env = f.eval env' := by
  refine ⟨fun c => ?_, fun hbound => ?_, fun e he => ?_, fun env' => eval_congr⟩
  · have hunbound : f.eval env = .error (.unbound c) ↔
        (f.vars.find? fun c => (env.get? c).isNone) = some c := by simp [eval_eq_error_iff]
    rw [hunbound, List.find?_eq_some_iff_append]
    constructor
    · rintro ⟨hc, before, after, hvars, hbefore⟩
      refine ⟨before, after, hvars, by simpa using hc, fun x hx => ?_⟩
      simpa [Option.ne_none_iff_isSome] using hbefore x hx
    · rintro ⟨before, after, hvars, hc, hbefore⟩
      refine ⟨by simp [hc], before, after, hvars, fun x hx => ?_⟩
      simpa [Option.ne_none_iff_isSome] using hbefore x hx
  · have hleaves : ∀ c ∈ f.leaves, (env.get? c).isSome := fun c hc => hbound c (mem_vars.2 hc)
    exact ⟨f.truth env.valuation, eval_eq_truth hleaves, fun v => truth_valuation_iff⟩
  · obtain ⟨c, hc, -⟩ := eval_eq_error_iff.1 he
    exact ⟨c, hc⟩

/-- The left side decides the disjunction, and the value of `B` the conjunction, but `C` comes
before `B` and has no value. -/
theorem eval_outcome_undecided :
    (binary .or (.var 'A') (binary .and (.var 'C') (.var 'B'))).eval
        (.ofList [('Z', true), ('B', false), ('A', true)]) = .error (.unbound 'C') := by
  have hbefore : ∀ x ∈ ['A'],
      ((Assignment.ofList [('Z', true), ('B', false), ('A', true)]).get? x).isSome :=
    List.forall_mem_singleton.2 (by decide)
  exact ((eval_outcome _ _).1 'C').2 ⟨['A'], ['B'], by decide, by decide, hbefore⟩

end Entailment.Formula
