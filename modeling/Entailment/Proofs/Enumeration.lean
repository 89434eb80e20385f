import Entailment.Proofs.Variables
import Entailment.Check

/-!
# What an enumeration examines

The list of the assignments that are enumerated, `Assignment.extensions`, has an assignment for
every valuation (`exists_mem_extensions`), so for the variables of a formula it stands for all
valuations there are (`forall_row_iff_tautology`). A check never fails, since these assignments
have values for all variables of the formula (`checkRun_eq`).
-/

namespace Entailment

namespace Assignment
variable {env e : Assignment} {vars : List Char} {c : Char}

/-- The assignment as a valuation. Where it has no value the valuation is false. -/
def valuation (env : Assignment) : Valuation := fun c => (env.get? c).getD false

theorem get?_eq_valuation (h : (env.get? c).isSome) : env.get? c = some (env.valuation c) := by
  obtain ⟨b, hb⟩ := Option.isSome_iff_exists.1 h
  rw [valuation, hb]; rfl

theorem mem_extensions_nil : e ∈ env.extensions [] ↔ e = env := List.mem_singleton

theorem mem_extensions_cons {x : Char} : e ∈ env.extensions (x :: vars) ↔
    ∃ b, e ∈ (env.insert x b).extensions vars := by
  rw [extensions, List.mem_append, Bool.exists_bool]

theorem isSome_get?_of_mem_extensions (h : e ∈ env.extensions vars) :
    (e.get? c).isSome ↔ c ∈ vars ∨ (env.get? c).isSome := by
  induction vars generalizing env with
  | nil =>
    rw [mem_extensions_nil.1 h]
    simp
  | cons x vars ih =>
    obtain ⟨b, hb⟩ := mem_extensions_cons.1 h
    rw [ih hb, get?_insert, List.mem_cons]
    split <;> simp [*]

theorem exists_mem_extensions (env : Assignment) (vars : List Char) (v : Valuation) :
    ∃ e ∈ env.extensions vars, ∀ c,
      e.get? c = if c ∈ vars then some (v c) else env.get? c := by
  induction vars generalizing env with
  | nil => exact ⟨env, mem_extensions_nil.2 rfl, by simp⟩
  | cons x vars ih =>
    -- the branch in which `x` has the value that the valuation gives it
    obtain ⟨e, he, hget⟩ := ih (env.insert x (v x))
    refine ⟨e, mem_extensions_cons.2 ⟨v x, he⟩, fun c => ?_⟩
    rw [hget, get?_insert]
    by_cases hc : c = x
    · subst c; simp
    · simp [hc]

end Assignment

namespace Tally
variable {ν : Type} [Add ν] [OfNat ν 1] {t : Tally ν} {rows : List Row}

theorem foldl_record : rows.foldl record t =
    { examined := rows.foldl (fun n _ => n + 1) t.examined
      holds := t.holds && rows.all (·.value)
      counterexample := if t.holds
        then ((rows.find? (!·.value)).map (·.env)).or t.counterexample
        else t.counterexample } := by
  induction rows generalizing t with
  | nil => simp
  | cons row rows ih =>
    rw [List.foldl_cons, ih, record]
    cases t.holds <;> cases hv : row.value <;> simp [hv]

theorem foldl_succ (n : Nat) : rows.foldl (fun n _ => n + 1) n = n + rows.length := by
  induction rows generalizing n with
  | nil => rfl
  | cons row rows ih => rw [List.foldl_cons, ih, List.length_cons, Nat.add_assoc, Nat.add_comm 1]

end Tally

namespace Formula
variable {f : Formula} {env : Assignment} {envs : List Assignment} {v : Valuation}

/-- The row for an assignment that gives every variable a value. -/
def row (f : Formula) (env : Assignment) : Row := ⟨env, f.truth env.valuation⟩

theorem eval_eq_truth (h : ∀ c ∈ f.leaves, (env.get? c).isSome) :
    f.eval env = .ok (f.truth env.valuation) :=
  eval_of_get? fun c hc => Assignment.get?_eq_valuation (h c hc)

theorem truth_valuation_iff (h : ∀ c ∈ f.vars, env.get? c = some (v c)) :
    f.truth env.valuation = true ↔ f.Holds v := by
  have hagree : ∀ c ∈ f.leaves, env.valuation c = v c := by
    intro c hc
    rw [Assignment.valuation, h c (mem_vars.2 hc), Option.getD_some]
  rw [truth_congr hagree, truth_eq_true_iff]

theorem rowRun_eq (h : ∀ c ∈ f.leaves, (env.get? c).isSome) :
    f.rowRun env = ⟨[.row (f.row env)], .ok (f.row env)⟩ := by
  rw [rowRun, eval_eq_truth h]
  rfl

theorem rows_eq (h : ∀ env ∈ envs, ∀ c ∈ f.leaves, (env.get? c).isSome) :
    f.rows envs = ⟨(envs.map f.row).map .row, .ok (envs.map f.row)⟩ := by
  induction envs with
  | nil => rfl
  | cons env envs ih =>
    have henv := rowRun_eq (h env (List.mem_cons_self ..))
    have htail := ih fun e he => h e (List.mem_cons_of_mem _ he)
    rw [rows] at htail ⊢
    rw [List.mapM_cons, henv, Run.mk_ok_bind, htail, Run.mk_ok_bind_pure]
    rfl

/-- The assignments under which a formula is examined. -/
def assignments (f : Formula) : List Assignment := (∅ : Assignment).extensions f.vars

theorem isSome_get?_of_mem_assignments {c : Char} (h : env ∈ f.assignments) :
    (env.get? c).isSome ↔ c ∈ f.leaves := by
  rw [Assignment.isSome_get?_of_mem_extensions h, mem_vars]
  simp

theorem rows_assignments :
    f.rows f.assignments =
      ⟨(f.assignments.map f.row).map .row, .ok (f.assignments.map f.row)⟩ :=
  rows_eq fun _ he _ hc => (isSome_get?_of_mem_assignments he).2 hc

/-- The tally of the whole enumeration. -/
def tally (f : Formula) : Tally := (f.assignments.map f.row).foldl Tally.record .start

theorem tally_eq : f.tally =
    { examined := f.assignments.length
      holds := (f.assignments.map f.row).all (·.value)
      counterexample := ((f.assignments.map f.row).find? (!·.value)).map (·.env) } := by
  rw [tally, Tally.foldl_record, Tally.foldl_succ]
  simp [Tally.start]

theorem enumerate_vars : f.enumerate f.vars ∅ .start =
    ⟨(f.assignments.map f.row).map .row, .ok (∅, f.tally)⟩ := by
  have hrows : f.rows ((∅ : Assignment).extensions f.vars) = _ := rows_assignments
  rw [enumerate_eq nodup_vars fun _ _ => rfl, hrows, Run.mk_ok_bind_pure]
  rfl

theorem checkRun_eq : f.checkRun =
    ⟨(f.assignments.map f.row).map .row ++ [.tally f f.tally], .ok f.tally⟩ := by
  rw [checkRun, enumerate_vars]
  rfl

theorem check_eq : f.check = .ok f.tally := congrArg Run.result checkRun_eq

theorem checkLog_eq : f.checkLog = (f.assignments.map f.row).map .row ++ [.tally f f.tally] :=
  congrArg Run.log checkRun_eq

/-- A check sees the variables, in their order, and the truth values, and nothing else of a
formula. -/
theorem check_congr {g : Formula} (hvars : f.vars = g.vars)
    (htruth : ∀ v, f.truth v = g.truth v) : f.check = g.check := by
  have hrow : f.row = g.row := funext fun env => by rw [row, row, htruth]
  rw [check_eq, check_eq, tally, tally, assignments, assignments, hvars, hrow]

theorem forall_row_iff_tautology :
    (∀ env ∈ f.assignments, f.truth env.valuation = true) ↔ f.Tautology := by
  constructor
  · intro h v
    obtain ⟨e, he, hget⟩ := Assignment.exists_mem_extensions ∅ f.vars v
    have hvalues : ∀ c ∈ f.vars, e.get? c = some (v c) := by
      intro c hc
      rw [hget, if_pos hc]
    exact (truth_valuation_iff hvalues).1 (h e he)
  · intro h env _
    exact truth_eq_true_iff.2 (h env.valuation)

/-- What a tally of the formula has to say: whether the formula is a tautology and, if it is not, an
assignment of exactly its variables that makes it false. -/
structure Reports (f : Formula) (t : Tally) : Prop where
  holds_iff : t.holds = true ↔ f.Tautology
  of_holds : t.holds = true → t.counterexample = none
  of_not_holds : t.holds = false → ∃ env, t.counterexample = some env ∧
    (∀ c, (env.get? c).isSome ↔ c ∈ f.leaves) ∧ f.truth env.valuation = false

theorem exists_check_eq (f : Formula) : ∃ t, f.check = .ok t ∧ f.Reports t := by
  refine ⟨_, check_eq, ?_⟩
  rw [tally_eq]
  have hall : (f.assignments.map f.row).all (·.value) = true ↔ f.Tautology := by
    rw [← forall_row_iff_tautology, List.all_map, List.all_eq_true]
    rfl
  refine ⟨by simpa using hall, fun h => ?_, fun h => ?_⟩
  · have htrue : ∀ row ∈ f.assignments.map f.row, row.value = true := by simpa using h
    have hfind : (f.assignments.map f.row).find? (!·.value) = none :=
      List.find?_eq_none.2 fun row hrow => by simp [htrue row hrow]
    simp [hfind]
  · cases hfind : (f.assignments.map f.row).find? (!·.value) with
    | none =>
      have htrue : (f.assignments.map f.row).all (·.value) = true :=
        List.all_eq_true.2 fun row hrow => by simpa using List.find?_eq_none.1 hfind row hrow
      simp [htrue] at h
    | some row =>
      obtain ⟨env, henv, rfl⟩ := List.mem_map.1 (List.mem_of_find?_eq_some hfind)
      have hfalse : (f.row env).value = false := by simpa using List.find?_some hfind
      exact ⟨env, rfl, fun c => isSome_get?_of_mem_assignments henv, hfalse⟩

end Formula

end Entailment
