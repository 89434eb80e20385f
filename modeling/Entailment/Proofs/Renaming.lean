import Entailment.Formula.Substitution
import Entailment.Proofs.EnumerationOrder
import Mathlib.Data.Set.Function

/-!
# Renaming variables

A renaming that keeps the variables of a formula apart goes through a check from beginning to end.
The assignments of the two checks may be kept in different orders, since a renaming need not respect
the order of the code points; what one does with them commutes with renaming all the same: giving a
variable a value (`Assignment.rename_insert`), and so the enumeration (`extensions_rename`), the
rows (`row_rename`) and their summary (`Tally.foldl_record_rename`).
-/

namespace Entailment

namespace Assignment
variable {env : Assignment} {vars : List Char} {r : Char → Char} {s : Set Char} {b : Bool}
  {c x : Char}

/-- Puts `r c` in the place of each variable `c` that has a value. -/
def rename (r : Char → Char) (env : Assignment) : Assignment :=
  ofList (env.pairs.map fun p => (r p.1, p.2))

/-- Only variables from `s` have values. -/
def Within (env : Assignment) (s : Set Char) : Prop := ∀ c, (env.get? c).isSome → c ∈ s

theorem Within.insert (h : env.Within s) (hc : c ∈ s) : (env.insert c b).Within s := by
  intro x hx
  rw [get?_insert] at hx
  split at hx
  · subst x; exact hc
  · exact h x hx

section
variable (hr : Set.InjOn r s) (henv : env.Within s)
include hr henv

theorem get?_rename_eq_some_iff :
    (env.rename r).get? x = some b ↔ ∃ c, r c = x ∧ env.get? c = some b := by
  -- no two names become one, so no value takes the place of another
  have hnames : ((env.pairs.map fun p => (r p.1, p.2)).map (·.1)).Nodup := by
    have hmem : ∀ c ∈ env.pairs.map (·.1), c ∈ s := by
      intro c hc
      obtain ⟨p, hp, rfl⟩ := List.mem_map.1 hc
      exact henv _ (Option.isSome_of_eq_some (get?_eq_some_iff.2 hp))
    have hmap := nodup_names.map_on fun c hc d hd => hr (hmem c hc) (hmem d hd)
    rwa [List.map_map] at hmap ⊢
  rw [rename, get?_ofList_eq_some_iff hnames, List.mem_map]
  constructor
  · rintro ⟨p, hp, heq⟩
    obtain ⟨rfl, rfl⟩ := Prod.ext_iff.1 heq
    exact ⟨p.1, rfl, get?_eq_some_iff.2 hp⟩
  · rintro ⟨c, rfl, hget⟩
    exact ⟨(c, b), get?_eq_some_iff.1 hget, rfl⟩

theorem get?_rename (hc : c ∈ s) : (env.rename r).get? (r c) = env.get? c := by
  refine Option.ext fun b => (get?_rename_eq_some_iff hr henv).trans ⟨?_, fun h => ⟨c, rfl, h⟩⟩
  rintro ⟨d, hd, hget⟩
  exact hr (henv d (Option.isSome_of_eq_some hget)) hc hd ▸ hget

theorem get?_rename_eq_none (hx : ∀ c ∈ s, r c ≠ x) : (env.rename r).get? x = none := by
  refine Option.eq_none_iff_forall_ne_some.2 fun b hb => ?_
  obtain ⟨c, hc, hget⟩ := (get?_rename_eq_some_iff hr henv).1 hb
  exact hx c (henv c (Option.isSome_of_eq_some hget)) hc

theorem rename_insert (hc : c ∈ s) :
    (env.insert c b).rename r = (env.rename r).insert (r c) b := by
  have hinsert : (env.insert c b).Within s := henv.insert hc
  refine ext_get? fun x => ?_
  by_cases hx : ∃ d ∈ s, r d = x
  · obtain ⟨d, hd, rfl⟩ := hx
    rw [get?_rename hr hinsert hd, get?_insert, get?_insert, get?_rename hr henv hd]
    simp only [hr.eq_iff hd hc]
  · -- a name that comes from no variable of `s` has no value on either side
    simp only [not_exists, not_and] at hx
    rw [get?_rename_eq_none hr hinsert hx, get?_insert, if_neg (Ne.symm (hx c hc)),
      get?_rename_eq_none hr henv hx]

theorem extensions_rename (hvars : ∀ c ∈ vars, c ∈ s) :
    (env.rename r).extensions (vars.map r) = (env.extensions vars).map (rename r) := by
  induction vars generalizing env with
  | nil => rfl
  | cons c vars ih =>
    obtain ⟨hc, hvars⟩ := List.forall_mem_cons.1 hvars
    rw [List.map_cons, extensions, extensions, List.map_append, ← rename_insert hr henv hc,
      ← rename_insert hr henv hc, ih (henv.insert hc) hvars, ih (henv.insert hc) hvars]

end

end Assignment

/-- The row for the renamed assignment, with the same value. -/
def Row.rename (r : Char → Char) (row : Row) : Row := ⟨row.env.rename r, row.value⟩

namespace Tally
variable {t : Tally} {rows : List Row} {r : Char → Char}

/-- The same summary with the variables of the counterexample renamed. -/
def rename (r : Char → Char) (t : Tally) : Tally :=
  { t with counterexample := t.counterexample.map (Assignment.rename r) }

theorem record_rename {row : Row} :
    (t.rename r).record (row.rename r) = (t.record row).rename r := by
  rw [rename, record, rename, record, apply_ite (Option.map (Assignment.rename r))]
  rfl

theorem foldl_record_rename :
    (rows.map (Row.rename r)).foldl record (t.rename r) = (rows.foldl record t).rename r := by
  induction rows generalizing t with
  | nil => rfl
  | cons row rows ih => rw [List.map_cons, List.foldl_cons, List.foldl_cons, record_rename, ih]

end Tally

namespace Formula
variable {f : Formula} {env : Assignment} {names : List Char} {r : Char → Char} {s : Set Char}

theorem collectVars_rename (hr : Set.InjOn r s) (hnames : ∀ c ∈ names, c ∈ s)
    (hf : ∀ c ∈ f.leaves, c ∈ s) :
    (f.rename r).collectVars (names.map r) = (f.collectVars names).map r := by
  induction f generalizing names with
  | var c =>
    have hc : c ∈ s := hf c (by simp [leaves])
    have hmem : r c ∈ names.map r ↔ c ∈ names := by
      refine List.mem_map.trans ⟨?_, fun h => ⟨c, h, rfl⟩⟩
      rintro ⟨d, hd, heq⟩
      exact hr (hnames d hd) hc heq ▸ hd
    show (var (r c)).collectVars _ = _
    rw [collectVars, collectVars]
    simp only [hmem]
    split <;> simp
  | not f ih => exact ih hnames hf
  | binary op f g ihf ihg =>
    simp only [leaves, List.mem_append] at hf
    have hnames' : ∀ c ∈ f.collectVars names, c ∈ s := fun c hc =>
      (mem_collectVars.1 hc).elim (hnames c) fun h => hf c (.inl h)
    show (g.rename r).collectVars ((f.rename r).collectVars _) = _
    rw [ihf hnames fun c hc => hf c (.inl hc), ihg hnames' fun c hc => hf c (.inr hc)]
    rfl

theorem vars_rename (hr : Set.InjOn r {c | c ∈ f.vars}) : (f.rename r).vars = f.vars.map r := by
  show (f.rename r).collectVars ([].map r) = (f.collectVars []).map r
  exact collectVars_rename hr (by simp) fun _ => mem_vars.2

theorem within_of_mem_assignments (h : env ∈ f.assignments) : env.Within {c | c ∈ f.vars} :=
  fun _ hc => mem_vars.2 ((isSome_get?_of_mem_assignments h).1 hc)

theorem assignments_rename (hr : Set.InjOn r {c | c ∈ f.vars}) :
    (f.rename r).assignments = f.assignments.map (Assignment.rename r) := by
  have hempty : (∅ : Assignment).Within {c | c ∈ f.vars} := fun c hc => by
    rw [Assignment.get?_empty] at hc
    cases hc
  rw [assignments, vars_rename hr]
  exact Assignment.extensions_rename hr hempty fun _ => id

theorem row_rename (hr : Set.InjOn r {c | c ∈ f.vars}) (henv : env.Within {c | c ∈ f.vars}) :
    (f.rename r).row (env.rename r) = (f.row env).rename r := by
  have hvalues : ∀ c ∈ f.leaves, (env.rename r).valuation (r c) = env.valuation c := by
    intro c hc
    rw [Assignment.valuation, Assignment.get?_rename hr henv (mem_vars.2 hc), Assignment.valuation]
  rw [row, truth_rename, truth_congr hvalues]
  rfl

theorem map_row_rename (hr : Set.InjOn r {c | c ∈ f.vars}) :
    (f.rename r).assignments.map (f.rename r).row =
      (f.assignments.map f.row).map (Row.rename r) := by
  rw [assignments_rename hr, List.map_map, List.map_map]
  exact List.map_congr_left fun env henv => row_rename hr (within_of_mem_assignments henv)

theorem tally_rename (hr : Set.InjOn r {c | c ∈ f.vars}) :
    (f.rename r).tally = f.tally.rename r := by
  rw [tally, map_row_rename hr, tally, ← Tally.foldl_record_rename]
  rfl

/-- What a check of the formula does: its enumeration goes through `rows` in this order, its lines
at the level `trace` show them, and its answer is `t`. -/
structure Examines (f : Formula) (rows : List Row) (t : Tally) : Prop where
  enumerate_eq : f.enumerate f.vars ∅ .start = ⟨rows.map .row, .ok (∅, t)⟩
  run_eq : f.checkRun = ⟨rows.map .row ++ [.tally f t], .ok t⟩
  trace_eq : f.checkLog.filter (·.level = .trace) = rows.map .row
  check_eq : f.check = .ok t

theorem examines_assignments (f : Formula) : f.Examines (f.assignments.map f.row) f.tally :=
  ⟨enumerate_vars, checkRun_eq, trace_checkLog, check_eq⟩

/-- A renaming that keeps the variables of a formula apart renames what its check `Examines`, and
nothing else changes. It loses no value of an assignment. -/
theorem check_rename (r : Char → Char) (f : Formula) (hr : Set.InjOn r {c | c ∈ f.vars}) :
    ∃ (rows : List Row) (t : Tally), f.Examines rows t ∧
      (f.rename r).Examines (rows.map (Row.rename r)) (t.rename r) ∧
      ∀ row ∈ rows, ∀ x b, (row.env.rename r).get? x = some b ↔
        ∃ c, r c = x ∧ row.env.get? c = some b := by
  refine ⟨_, _, f.examines_assignments, ?_, fun row hrow x b => ?_⟩
  · rw [← map_row_rename hr, ← tally_rename hr]
    exact (f.rename r).examines_assignments
  · obtain ⟨env, henv, rfl⟩ := List.mem_map.1 hrow
    exact Assignment.get?_rename_eq_some_iff hr (within_of_mem_assignments henv)

/-- The new names are in the opposite order, and the renaming keeps no further variables apart. -/
theorem check_rename_reversed :
    Set.InjOn (fun c => if c = 'A' then 'N' else 'M')
      {c | c ∈ (binary .implies (var 'B') (var 'A')).vars} ∧
    ((binary .implies (var 'B') (var 'A')).rename fun c => if c = 'A' then 'N' else 'M').check =
      .ok ⟨4, false, some (.ofList [('M', true), ('N', false)])⟩ := by
  have hr : Set.InjOn (fun c => if c = 'A' then 'N' else 'M')
      {c | c ∈ (binary .implies (var 'B') (var 'A')).vars} := by
    have hvars : (binary .implies (var 'B') (var 'A')).vars = ['B', 'A'] := by decide
    intro c hc d hd
    simp only [hvars, Set.mem_ofPred_eq, List.mem_cons, List.not_mem_nil, or_false] at hc hd
    rcases hc with rfl | rfl <;> rcases hd with rfl | rfl <;> simp
  obtain ⟨rows, t, hf, hg, -⟩ := check_rename _ _ hr
  have ht : t = ⟨4, false, some (.ofList [('A', false), ('B', true)])⟩ :=
    Except.ok.inj (hf.check_eq.symm.trans (by decide))
  subst ht
  exact ⟨hr, hg.check_eq.trans (by decide)⟩

end Formula

end Entailment
