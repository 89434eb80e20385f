import Entailment.Formula.Substitution
import Entailment.Proofs.Tautologies

/-!
# Evaluation under substitution

Evaluating a formula with other formulas put in for its variables comes to evaluating the formula
itself under the values that those formulas have (`eval_subst`). The variables of the two formulas
need not have anything in common, neither their number nor their order, so their checks are compared
through valuations: `Tautology.subst` with both directions of `isTautology_eq_ok_true_iff`.
-/

namespace Entailment.Formula

variable {f : Formula} {σ : Char → Formula} {env env' : Assignment}

/-- `env'` gives each variable of the formula the value that the formula put in for it has under
`env`. -/
def Receives (f : Formula) (σ : Char → Formula) (env env' : Assignment) : Prop :=
  ∀ c ∈ f.vars, ∃ b, (σ c).eval env = .ok b ∧ env'.get? c = some b

theorem eval_subst (h : ∀ c ∈ f.leaves, ∃ b, (σ c).eval env = .ok b ∧ env'.get? c = some b) :
    (f.subst σ).eval env = f.eval env' := by
  induction f with
  | var c =>
    obtain ⟨b, hb, hget⟩ := h c (by simp [leaves])
    rw [subst, hb, eval, hget]
  | not f ih => rw [subst, eval, eval, ih h]
  | binary op l r ihl ihr =>
    simp only [leaves, List.mem_append] at h
    rw [subst, eval, eval, ihl fun c hc => h c (.inl hc), ihr fun c hc => h c (.inr hc)]

theorem eval_image (h : ∀ x ∈ (f.subst σ).vars, (env.get? x).isSome) {c : Char}
    (hc : c ∈ f.vars) : (σ c).eval env = .ok ((σ c).truth env.valuation) :=
  eval_eq_truth fun x hx => h x (mem_vars.2 (mem_leaves_subst.2 ⟨c, mem_vars.1 hc, hx⟩))

theorem exists_receives (h : ∀ x ∈ (f.subst σ).vars, (env.get? x).isSome) :
    ∃ env' : Assignment, (∀ c, (env'.get? c).isSome ↔ c ∈ f.vars) ∧ f.Receives σ env env' := by
  obtain ⟨env', -, hget⟩ :=
    Assignment.exists_mem_extensions ∅ f.vars fun c => (σ c).truth env.valuation
  refine ⟨env', fun c => ?_, fun c hc => ⟨_, eval_image h hc, by rw [hget, if_pos hc]⟩⟩
  rw [hget]
  split <;> simp [*]

/-- Under an assignment that `Receives` the values of the formulas put in, a formula has the value
of the result. So a tautology stays one, whatever is put in for its variables. -/
theorem subst_uniform (σ : Char → Formula) (f : Formula) :
    (∀ env : Assignment, (∀ x ∈ (f.subst σ).vars, (env.get? x).isSome) →
      (∃ env' : Assignment, (∀ c, (env'.get? c).isSome ↔ c ∈ f.vars) ∧ f.Receives σ env env') ∧
      ∀ env', f.Receives σ env env' →
        ∃ b, (f.subst σ).eval env = .ok b ∧ f.eval env' = .ok b) ∧
    (f.isTautology = .ok true → (f.subst σ).isTautology = .ok true) := by
  refine ⟨fun env henv => ⟨exists_receives henv, fun env' henv' => ?_⟩, fun h => ?_⟩
  · have hvalue := eval_eq_truth fun x hx => henv x (mem_vars.2 hx)
    have heq : (f.subst σ).eval env = f.eval env' :=
      eval_subst fun c hc => henv' c (mem_vars.2 hc)
    exact ⟨_, hvalue, heq ▸ hvalue⟩
  · rw [isTautology_eq_ok_true_iff] at h ⊢
    exact h.subst σ

/-- `B` occurs in what is put in for each of the two variables, and `C` is new. -/
theorem subst_uniform_shared :
    (∃ b, ((binary .implies (var 'A') (binary .or (var 'B') (var 'A'))).subst fun c =>
        if c = 'A' then binary .or (var 'B') (var 'C') else not (var c)).eval
          (.ofList [('B', false), ('C', true)]) = .ok b ∧
      (binary .implies (var 'A') (binary .or (var 'B') (var 'A'))).eval
        (.ofList [('A', true), ('B', true)]) = .ok b) ∧
    ((binary .implies (var 'A') (binary .or (var 'B') (var 'A'))).subst fun c =>
      if c = 'A' then binary .or (var 'B') (var 'C') else not (var c)).isTautology = .ok true := by
  refine ⟨((subst_uniform _ _).1 (.ofList [('B', false), ('C', true)]) ?_).2 _ ?_,
    (subst_uniform _ _).2 (by decide)⟩
  · exact List.all_eq_true.1 (by decide)
  · intro c hc
    have hvars : c = 'A' ∨ c = 'B' := by simpa [vars, collectVars] using hc
    rcases hvars with rfl | rfl
    · exact ⟨true, by decide, by decide⟩
    · exact ⟨true, by decide, by decide⟩

end Entailment.Formula
