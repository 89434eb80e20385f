import Entailment.Proofs.Variables
import Mathlib.Data.List.Find

/-!
# The order in which variables are first seen

Collecting variables goes over the leaves from left to right and keeps the first occurrence of each
name. What has been collected before stays in front, and behind it come the variables that are not
there yet (`collectVars_eq_append`), so that the right side of a connective adds to the left side
only what is new (`vars_binary`). The order of the variables is that of their first leaves: leaving
out repetitions does not change which of two names is found first (`find?_vars`), and on that alone
their order depends (`idxOf_lt_idxOf_iff`).
-/

namespace Entailment.Formula

section
variable {l s t : List Char} {x y : Char}

theorem removeAll_removeAll : (l.removeAll s).removeAll t = l.removeAll (s ++ t) := by
  unfold List.removeAll
  rw [List.filter_filter]
  refine List.filter_congr fun c _ => ?_
  by_cases hc : c ∈ s <;> simp [hc]

theorem removeAll_congr (h : ∀ c, c ∈ s ↔ c ∈ t) : l.removeAll s = l.removeAll t := by
  unfold List.removeAll
  refine List.filter_congr fun c _ => ?_
  simp [h c]

theorem idxOf_lt_idxOf_iff : l.idxOf x < l.idxOf y ↔
    x ≠ y ∧ l.find? (fun c => c = x || c = y) = some x := by
  induction l with
  | nil => simp
  | cons c l ih =>
    rw [List.idxOf_cons, List.idxOf_cons, List.find?_cons]
    by_cases hx : c = x
    · subst c
      by_cases hxy : x = y
      · subst y; simp
      · simp [hxy, beq_false_of_ne hxy]
    · by_cases hy : c = y
      · subst c
        simp [hx, Ne.symm hx]
      · simp [hx, hy, ih, beq_false_of_ne hx, beq_false_of_ne hy]

end

variable {f g : Formula} {names : List Char} {x y : Char} {op : Connective}

theorem collectVars_eq_append : f.collectVars names = names ++ f.vars.removeAll names := by
  induction f generalizing names with
  | var c =>
    unfold vars collectVars List.removeAll
    by_cases hc : c ∈ names <;> simp [hc]
  | not f ih => exact ih
  | binary op f g ihf ihg =>
    have hvars : (binary op f g).vars = f.vars ++ g.vars.removeAll f.vars := ihg
    have hright : g.vars.removeAll (names ++ f.vars.removeAll names) =
        (g.vars.removeAll f.vars).removeAll names := by
      rw [removeAll_removeAll]
      refine removeAll_congr fun c => ?_
      by_cases hc : c ∈ names <;> simp [List.removeAll, hc]
    rw [collectVars, ihg, ihf, hvars, List.append_assoc, hright]
    simp [List.removeAll]

theorem vars_binary : (binary op f g).vars = f.vars ++ g.vars.removeAll f.vars := by
  show g.collectVars f.vars = _
  rw [collectVars_eq_append]

theorem collectVars_eq_eraseDups :
    f.collectVars names = names ++ (f.leaves.removeAll names).eraseDups := by
  induction f generalizing names with
  | var c =>
    unfold collectVars leaves List.removeAll
    by_cases hc : c ∈ names <;> simp [hc, List.eraseDups_cons]
  | not f ih => exact ih
  | binary op f g ihf ihg =>
    -- what the left side has added holds the same names as its leaves that are not in `names`
    have hright : g.leaves.removeAll (names ++ (f.leaves.removeAll names).eraseDups) =
        (g.leaves.removeAll names).removeAll (f.leaves.removeAll names) := by
      rw [removeAll_removeAll]
      refine removeAll_congr fun c => ?_
      rw [List.mem_append, List.mem_append, List.mem_eraseDups]
    rw [collectVars, ihg, ihf, hright, List.append_assoc, ← List.eraseDups_append]
    simp [leaves, List.removeAll]

theorem removeAll_vars : f.vars.removeAll names = (f.leaves.removeAll names).eraseDups := by
  have happend :
      names ++ f.vars.removeAll names = names ++ (f.leaves.removeAll names).eraseDups := by
    rw [← collectVars_eq_append, collectVars_eq_eraseDups]
  exact List.append_cancel_left happend

theorem idxOf_removeAll_lt_iff (hx : x ∉ names) (hy : y ∉ names) :
    (f.vars.removeAll names).idxOf x < (f.vars.removeAll names).idxOf y ↔
      f.leaves.idxOf x < f.leaves.idxOf y := by
  have hfind : (f.vars.removeAll names).find? (fun c => c = x || c = y) =
      f.leaves.find? fun c => c = x || c = y := by
    unfold List.removeAll
    rw [List.find?_filter, ← find?_vars]
    refine List.find?_congr fun c _ => ?_
    by_cases hc : c ∈ names
    · have hcx : c ≠ x := fun h => hx (h ▸ hc)
      have hcy : c ≠ y := fun h => hy (h ▸ hc)
      simp [hcx, hcy]
    · simp [hc]
  rw [idxOf_lt_idxOf_iff, idxOf_lt_idxOf_iff, hfind]

/-- The names in `new` are those of `leaves` that are not in `names`, each once, in the order in
which they first occur among the leaves. -/
structure FirstSeen (leaves names new : List Char) : Prop where
  nodup : new.Nodup
  mem_iff : ∀ c, c ∈ new ↔ c ∈ leaves ∧ c ∉ names
  order : ∀ x ∈ new, ∀ y ∈ new, new.idxOf x < new.idxOf y ↔ leaves.idxOf x < leaves.idxOf y

theorem firstSeen_removeAll : FirstSeen f.leaves names (f.vars.removeAll names) := by
  have hmem : ∀ c, c ∈ f.vars.removeAll names ↔ c ∈ f.leaves ∧ c ∉ names := by
    intro c
    rw [← mem_vars]
    simp [List.removeAll]
  refine ⟨nodup_vars.filter _, hmem, fun x hx y hy => ?_⟩
  exact idxOf_removeAll_lt_iff ((hmem x).1 hx).2 ((hmem y).1 hy).2

/-- `collectVars` puts behind `names` the first occurrences of all other leaves, so `vars` has each
leaf once and in the order of the first occurrences. -/
theorem collectVars_first_seen (f : Formula) :
    (∀ names : List Char,
      f.collectVars names = names ++ (f.leaves.removeAll names).eraseDups ∧
      FirstSeen f.leaves names (f.leaves.removeAll names).eraseDups ∧
      ((f.collectVars names).Nodup ↔ names.Nodup)) ∧
    f.vars.Nodup ∧ (∀ c, c ∈ f.vars ↔ c ∈ f.leaves) ∧
    (∀ x y, f.vars.idxOf x < f.vars.idxOf y ↔ f.leaves.idxOf x < f.leaves.idxOf y) ∧
    ∀ op g, (binary op f g).vars = f.vars ++ g.vars.removeAll f.vars := by
  refine ⟨fun names => ⟨collectVars_eq_eraseDups, ?_, fun h => ?_, nodup_collectVars⟩, nodup_vars,
    fun c => mem_vars, fun x y => ?_, fun op g => vars_binary⟩
  · rw [← removeAll_vars]
    exact firstSeen_removeAll
  · rw [collectVars_eq_append] at h
    exact (List.nodup_append.1 h).1
  · have hall : f.vars.removeAll [] = f.vars := List.removeAll_nil
    rw [← hall]
    exact idxOf_removeAll_lt_iff List.not_mem_nil List.not_mem_nil

example : (binary .implies (binary .or (var 'C') (not (var 'B')))
    (binary .and (var 'A') (binary .or (var 'B') (var 'C')))).vars = ['C', 'B', 'A'] := by decide

end Entailment.Formula
