import Entailment.Proofs.Enumeration
import Mathlib.Algebra.Group.Nat.Defs
import Mathlib.Data.Finset.Card

/-!
# Deciding tautologies

The check of a formula never fails. Its verdict speaks of all valuations although only finitely many
assignments are examined: two for one variable and twice as many for each further one
(`length_extensions`). What else the tally says comes from `Formula.Reports`.
-/

namespace Entailment

theorem Assignment.length_extensions (env : Assignment) (vars : List Char) :
    (env.extensions vars).length = 2 ^ vars.length := by
  induction vars generalizing env with
  | nil => rfl
  | cons c vars ih =>
    rw [extensions, List.length_append, ih, ih, List.length_cons, Nat.pow_succ]
    omega

namespace Formula
variable {f : Formula} {t : Tally}

theorem length_vars (f : Formula) : f.vars.length = f.leaves.toFinset.card := by
  have hset : f.vars.toFinset = f.leaves.toFinset := by
    ext c
    rw [List.mem_toFinset, List.mem_toFinset, mem_vars]
  rw [← hset, List.toFinset_card_of_nodup nodup_vars]

theorem examined_of_check (h : f.check = .ok t) : t.examined = 2 ^ f.leaves.toFinset.card := by
  obtain rfl : f.tally = t := Except.ok.inj (check_eq.symm.trans h)
  rw [tally_eq, assignments, Assignment.length_extensions, length_vars]

theorem Reports.counterexample_eq_none_iff (h : f.Reports t) :
    t.counterexample = none ↔ t.holds = true := by
  refine ⟨fun hnone => ?_, h.of_holds⟩
  cases ht : t.holds with
  | true => rfl
  | false =>
    obtain ⟨env, hsome, -⟩ := h.of_not_holds ht
    rw [hnone] at hsome
    cases hsome

theorem Reports.eval_counterexample (h : f.Reports t) {env : Assignment}
    (henv : t.counterexample = some env) :
    (∀ c, (env.get? c).isSome ↔ c ∈ f.leaves) ∧ f.eval env = .ok false := by
  have hfalse : t.holds = false := by
    rw [← Bool.not_eq_true, ← h.counterexample_eq_none_iff, henv]
    rintro ⟨⟩
  obtain ⟨e, he, hdom, htruth⟩ := h.of_not_holds hfalse
  rw [henv, Option.some.injEq] at he
  subst he
  exact ⟨hdom, by rw [eval_eq_truth fun c hc => (hdom c).2 hc, htruth]⟩

theorem exists_isTautology_eq (f : Formula) :
    ∃ b, f.isTautology = .ok b ∧ (b = true ↔ f.Tautology) := by
  obtain ⟨t, ht, hrep⟩ := f.exists_check_eq
  exact ⟨t.holds, by rw [isTautology, ht]; rfl, hrep.holds_iff⟩

theorem isTautology_eq_ok_true_iff : f.isTautology = .ok true ↔ f.Tautology := by
  obtain ⟨b, hb, htautology⟩ := f.exists_isTautology_eq
  rw [hb, Except.ok.injEq, htautology]

theorem isTautology_eq_ok {b : Bool} (h : b = true ↔ f.Tautology) : f.isTautology = .ok b := by
  obtain ⟨b', hb', htautology⟩ := f.exists_isTautology_eq
  rw [hb', Bool.eq_iff_iff.2 (htautology.trans h.symm)]

theorem isTautology_congr {g : Formula} (h : f.Tautology ↔ g.Tautology) :
    f.isTautology = g.isTautology := by
  obtain ⟨b, hb, hg⟩ := g.exists_isTautology_eq
  rw [hb, isTautology_eq_ok (hg.trans h.symm)]

/-- `check` never fails. A formula holds exactly if it is true under every valuation, two to
the number of its variables are `examined`, and a counterexample is there exactly if it does
not hold. -/
theorem check_decides (f : Formula) :
    ∃ t, f.check = .ok t ∧ f.isTautology = .ok t.holds ∧
      (t.holds = true ↔ ∀ v : Valuation, f.Holds v) ∧
      t.examined = 2 ^ f.leaves.toFinset.card ∧
      (t.counterexample = none ↔ t.holds = true) ∧
      ∀ env, t.counterexample = some env →
        (∀ c, (env.get? c).isSome ↔ c ∈ f.leaves) ∧ f.eval env = .ok false := by
  obtain ⟨t, ht, hrep⟩ := f.exists_check_eq
  refine ⟨t, ht, ?_, hrep.holds_iff, examined_of_check ht, hrep.counterexample_eq_none_iff,
    fun env => hrep.eval_counterexample⟩
  rw [isTautology, ht]
  rfl

end Formula

end Entailment
