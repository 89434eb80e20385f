import Entailment.Log

/-!
# Exhaustive checking

A formula is evaluated under every assignment of its variables: variables in the order in which they
are first met, the earlier one more significant, false before true. `enumerate` carries one
environment along, through two recursive calls for each variable. On variables that the environment
does not bind it gives the environment back as it was; it reports the rows of a list of assignments
and records them in the tally (`enumerate_eq`).
-/

namespace Entailment

namespace Formula

/-- The row of the formula for an assignment, with its event. -/
def rowRun (f : Formula) (env : Assignment) : Run Row := do
  let value ← .quiet (f.eval env)
  .report (.row ⟨env, value⟩)
  return ⟨env, value⟩

/-- Evaluates the formula for all ways to give values to `vars` on top of `env`, false before true,
the earlier variable more significant, and counts the values. A variable is given its values in the
environment one after the other and is then taken out again. -/
def enumerate {ν : Type} [Add ν] [OfNat ν 1] (f : Formula) :
    List Char → Assignment → Tally ν → Run (Assignment × Tally ν)
  | [], env, t => do
    let row ← f.rowRun env
    return (env, t.record row)
  | c :: vars, env, t => do
    let (env, t) ← f.enumerate vars (env.insert c false) t
    let (env, t) ← f.enumerate vars (env.insert c true) t
    return (env.erase c, t)

/-- Examines the formula under every assignment of its variables, with a report. The assignments are
counted without a bound. -/
def checkRun (f : Formula) : Run Tally := do
  let (_, t) ← f.enumerate f.vars ∅ .start
  .report (.tally f t)
  return t

/-- Examines the formula under every assignment of its variables. -/
def check (f : Formula) : Except Error Tally := f.checkRun.result

/-- The events of `check`. -/
def checkLog (f : Formula) : List Event := f.checkRun.log

/-- Whether the formula is true under every assignment of its variables. -/
def isTautology (f : Formula) : Except Error Bool := do
  let t ← f.check
  return t.holds

end Formula

/-! ### The assignments as a list -/

/-- All ways to give values to `vars` on top of `env`, false before true, the earlier variable more
significant. -/
def Assignment.extensions (env : Assignment) : List Char → List Assignment
  | [] => [env]
  | c :: vars => (env.insert c false).extensions vars ++ (env.insert c true).extensions vars

namespace Formula
variable {f : Formula} {env : Assignment} {envs envs' : List Assignment} {vars : List Char}

/-- The rows of the formula for the given assignments. -/
def rows (f : Formula) (envs : List Assignment) : Run (List Row) := envs.mapM f.rowRun

theorem rows_append : f.rows (envs ++ envs') = do
    let rs ← f.rows envs
    let rs' ← f.rows envs'
    return rs ++ rs' := List.mapM_append

/-- Enumerating variables that the environment does not bind goes through the rows of the
extensions, in their order, and leaves the environment as it was. -/
theorem enumerate_eq {ν : Type} [Add ν] [OfNat ν 1] {t : Tally ν} (hvars : vars.Nodup)
    (hfree : ∀ c ∈ vars, env.get? c = none) : f.enumerate vars env t = do
      let rs ← f.rows (env.extensions vars)
      return (env, rs.foldl Tally.record t) := by
  induction vars generalizing env t with
  | nil =>
    rw [enumerate, Assignment.extensions, rows, List.mapM_cons, List.mapM_nil]
    simp only [bind_assoc, pure_bind]
    rfl
  | cons c vars ih =>
    obtain ⟨hc, hvars⟩ := List.nodup_cons.1 hvars
    have hfree' : ∀ b, ∀ x ∈ vars, (env.insert c b).get? x = none := by
      intro b x hx
      have hne : x ≠ c := fun h => hc (h ▸ hx)
      rw [Assignment.get?_insert, if_neg hne]
      exact hfree x (List.mem_cons_of_mem _ hx)
    have herase := Assignment.erase_insert (b := true) (hfree c (List.mem_cons_self ..))
    rw [enumerate, ih hvars (hfree' false), Assignment.extensions, rows_append]
    simp only [bind_assoc, pure_bind]
    refine bind_congr fun rs => ?_
    -- the inner call has given back `env.insert c false`
    show (f.enumerate vars ((env.insert c false).insert c true) _ >>= _) = _
    rw [Assignment.insert_insert, ih hvars (hfree' true)]
    simp only [bind_assoc, pure_bind]
    refine bind_congr fun rs' => ?_
    rw [herase, List.foldl_append]

end Formula

end Entailment
