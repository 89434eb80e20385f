import Entailment.Formula.Basic

/-!
# The variables of a formula

`vars` lists the names at the leaves, each of them once.
-/

namespace Entailment.Formula

variable {f : Formula} {names : List Char} {x : Char}

theorem mem_collectVars : x ∈ f.collectVars names ↔ x ∈ names ∨ x ∈ f.leaves := by
  induction f generalizing names with
  | var c =>
    rw [collectVars]
    split
    · rename_i hc
      simp only [leaves, List.mem_singleton]
      exact ⟨.inl, fun h => h.elim id (· ▸ hc)⟩
    · simp [leaves]
  | not f ih => exact ih
  | binary op l r ihl ihr => rw [collectVars, ihr, ihl, leaves, List.mem_append, or_assoc]

theorem nodup_collectVars (h : names.Nodup) : (f.collectVars names).Nodup := by
  induction f generalizing names with
  | var c =>
    rw [collectVars]
    split
    · exact h
    · rename_i hc
      exact List.nodup_append.2 ⟨h, by simp, fun a ha b hb => by
        rw [List.mem_singleton.1 hb]
        rintro rfl
        exact hc ha⟩
  | not f ih => exact ih h
  | binary op l r ihl ihr => exact ihr (ihl h)

/-- Leaving out repetitions does not change what is found first. -/
theorem find?_collectVars (p : Char → Bool) :
    (f.collectVars names).find? p = (names ++ f.leaves).find? p := by
  induction f generalizing names with
  | var c =>
    rw [collectVars, leaves]
    split
    · rename_i hc
      rw [List.find?_append]
      cases hfind : names.find? p with
      | some x => rfl
      | none =>
        have hpc : ¬ p c = true := List.find?_eq_none.1 hfind c hc
        rw [List.find?_singleton, if_neg hpc, Option.none_or]
    · rfl
  | not f ih => exact ih
  | binary op l r ihl ihr =>
    rw [collectVars, ihr, List.find?_append, ihl, ← List.find?_append, leaves, List.append_assoc]

theorem find?_vars (p : Char → Bool) : f.vars.find? p = f.leaves.find? p := find?_collectVars p

/-- Variables are collected over the leaves from left to right, whatever stands between them. -/
theorem collectVars_eq_foldl : f.collectVars names =
    f.leaves.foldl (fun names c => if c ∈ names then names else names ++ [c]) names := by
  induction f generalizing names with
  | var c => rfl
  | not f ih => exact ih
  | binary op l r ihl ihr => rw [collectVars, leaves, List.foldl_append, ← ihl, ← ihr]

theorem vars_congr {g : Formula} (h : f.leaves = g.leaves) : f.vars = g.vars := by
  rw [vars, vars, collectVars_eq_foldl, collectVars_eq_foldl, h]

theorem mem_vars : x ∈ f.vars ↔ x ∈ f.leaves := by simp [vars, mem_collectVars]

theorem nodup_vars : f.vars.Nodup := nodup_collectVars .nil

end Entailment.Formula
