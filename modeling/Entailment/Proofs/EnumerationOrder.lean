import Entailment.Proofs.Tautologies

/-!
# The order of an enumeration

Counting in binary: the assignment with the number `i` gives the variables the binary digits of `i`,
the most significant one to the variable that is met first. One variable takes one digit off the
number (`exists_digit`), and the digits of all variables follow by induction
(`get?_of_getElem?_extensions`). The order of the code points, in which an assignment keeps its
variables, has no part in it.
-/

namespace Entailment

namespace Assignment
variable {env e : Assignment} {vars : List Char} {c : Char} {i j : Nat}

theorem get?_of_mem_extensions (h : e ∈ env.extensions vars) (hc : c ∉ vars) :
    e.get? c = env.get? c := by
  induction vars generalizing env with
  | nil => rw [mem_extensions_nil.1 h]
  | cons x vars ih =>
    obtain ⟨hx, hvars⟩ := not_or.1 (mt List.mem_cons.2 hc)
    obtain ⟨b, hb⟩ := mem_extensions_cons.1 h
    rw [ih hb hvars, get?_insert, if_neg hx]

/-- The value of the first variable is the leading digit of the number. The other digits are those
of the number among the assignments with that value. -/
theorem exists_digit (h : (env.extensions (c :: vars))[i]? = some e) :
    ∃ k : Nat, ((env.insert c (i.testBit vars.length)).extensions vars)[k]? = some e ∧
      ∀ p < vars.length, i.testBit p = k.testBit p := by
  have hlen := length_extensions (env.insert c false) vars
  have hlt := (List.getElem?_eq_some_iff.1 h).1
  rw [length_extensions, List.length_cons, Nat.pow_succ] at hlt
  rw [extensions] at h
  by_cases hi : i < 2 ^ vars.length
  · rw [List.getElem?_append_left (by omega)] at h
    refine ⟨i, ?_, fun _ _ => rfl⟩
    rwa [Nat.testBit_lt_two_pow hi]
  · rw [List.getElem?_append_right (by omega), hlen] at h
    obtain ⟨k, rfl⟩ := Nat.exists_eq_add_of_le (Nat.not_lt.1 hi)
    rw [Nat.add_sub_cancel_left] at h
    refine ⟨k, ?_, fun p hp => Nat.testBit_two_pow_add_gt hp k⟩
    have hk : k < 2 ^ vars.length := by omega
    rwa [Nat.testBit_two_pow_add_eq, Nat.testBit_lt_two_pow hk]

theorem get?_of_getElem?_extensions (hvars : vars.Nodup) (h : (env.extensions vars)[i]? = some e)
    (hj : vars[j]? = some c) : e.get? c = some (i.testBit (vars.length - 1 - j)) := by
  induction vars generalizing env i j with
  | nil => cases hj
  | cons x vars ih =>
    obtain ⟨hx, hvars⟩ := List.nodup_cons.1 hvars
    obtain ⟨k, hk, hdigits⟩ := exists_digit h
    cases j with
    | zero =>
      obtain rfl : x = c := Option.some.inj hj
      rw [get?_of_mem_extensions (List.mem_of_getElem? hk) hx, get?_insert, if_pos rfl]
      rfl
    | succ j =>
      have hjlt := (List.getElem?_eq_some_iff.1 hj).1
      have hplace : (x :: vars).length - 1 - (j + 1) = vars.length - 1 - j := by
        rw [List.length_cons]; omega
      rw [List.length_cons] at hjlt
      rw [ih hvars hk hj, hplace, hdigits _ (by omega)]

end Assignment

namespace Formula
variable {f : Formula}

/-- The rows of the truth table, numbered in binary: the assignment of each row gives the variables
of the formula the digits of its number, the leading one to the variable that is met first, and
gives no other variable a value. -/
structure Numbered (f : Formula) (rows : List Row) : Prop where
  length : rows.length = 2 ^ f.vars.length
  digit : ∀ (i j : Nat) (row : Row) (c : Char), rows[i]? = some row → f.vars[j]? = some c →
    row.env.get? c = some (i.testBit (f.vars.length - 1 - j))
  bound : ∀ row ∈ rows, ∀ c, (row.env.get? c).isSome → c ∈ f.vars
  value : ∀ row ∈ rows, ∀ v : Valuation, (∀ c ∈ f.vars, row.env.get? c = some (v c)) →
    (row.value = true ↔ f.Holds v)

theorem numbered_assignments (f : Formula) : f.Numbered (f.assignments.map f.row) where
  length := by rw [List.length_map, assignments, Assignment.length_extensions]
  digit i j row c hrow hc := by
    rw [List.getElem?_map, Option.map_eq_some_iff] at hrow
    obtain ⟨env, henv, rfl⟩ := hrow
    exact Assignment.get?_of_getElem?_extensions nodup_vars henv hc
  bound row hrow c hc := by
    obtain ⟨env, henv, rfl⟩ := List.mem_map.1 hrow
    exact mem_vars.2 ((isSome_get?_of_mem_assignments henv).1 hc)
  value row hrow v hv := by
    obtain ⟨env, -, rfl⟩ := List.mem_map.1 hrow
    exact truth_valuation_iff hv

theorem counterexample_tally_iff {env : Assignment} : f.tally.counterexample = some env ↔
    ∃ (i : Nat) (row : Row), (f.assignments.map f.row)[i]? = some row ∧ row.env = env ∧
      row.value = false ∧
      ∀ j < i, ∀ row', (f.assignments.map f.row)[j]? = some row' → row'.value = true := by
  generalize hrows : f.assignments.map f.row = rows
  rw [tally_eq, hrows]
  simp only [Option.map_eq_some_iff, List.find?_eq_some_iff_getElem, Bool.not_eq_true',
    Bool.not_not]
  constructor
  · rintro ⟨_, ⟨hvalue, i, hi, rfl, hbefore⟩, henv⟩
    refine ⟨i, rows[i], List.getElem?_eq_getElem hi, henv, hvalue, fun j hj row' hrow' => ?_⟩
    obtain ⟨_, rfl⟩ := List.getElem?_eq_some_iff.1 hrow'
    exact hbefore j hj
  · rintro ⟨i, _, hrow, henv, hvalue, hbefore⟩
    obtain ⟨hi, rfl⟩ := List.getElem?_eq_some_iff.1 hrow
    refine ⟨rows[i], ⟨hvalue, i, hi, rfl, fun j hj => ?_⟩, henv⟩
    have hjlt : j < rows.length := by omega
    exact hbefore j hj _ (List.getElem?_eq_getElem hjlt)

theorem trace_checkLog : f.checkLog.filter (·.level = .trace) =
    (f.assignments.map f.row).map .row := by
  have hrows : ∀ rows : List Row, (rows.map Event.row).filter (·.level = .trace) = rows.map .row :=
    fun rows => List.filter_eq_self.2 (by simp [Event.level])
  rw [checkLog, checkRun_eq, List.filter_append, hrows,
    List.filter_cons_of_neg (by simp [Event.level]), List.filter_nil, List.append_nil]

/-- A check evaluates the formula under one assignment after the other, in the order of their
numbers, and its lines at the level `trace` show just these evaluations. The counterexample is the
assignment with the least number among those that make the formula false. -/
theorem check_in_order (f : Formula) : ∃ (rows : List Row) (t : Tally), f.Numbered rows ∧
    f.enumerate f.vars ∅ .start = ⟨rows.map .row, .ok (∅, t)⟩ ∧
    f.checkRun = ⟨rows.map .row ++ [.tally f t], .ok t⟩ ∧
    (f.checkLog.filter (·.level = .trace)).map Event.line =
      rows.map (fun row => (.trace, row.env.inspect ++ " => " ++ toString row.value)) ∧
    f.check = .ok t ∧ t.examined = rows.length ∧
    ∀ env, t.counterexample = some env ↔
      ∃ (i : Nat) (row : Row), rows[i]? = some row ∧ row.env = env ∧ row.value = false ∧
        ∀ j < i, ∀ row', rows[j]? = some row' → row'.value = true := by
  refine ⟨f.assignments.map f.row, f.tally, f.numbered_assignments, enumerate_vars, checkRun_eq, ?_,
    check_eq, ?_, fun env => counterexample_tally_iff⟩
  · rw [trace_checkLog, List.map_map]
    rfl
  · rw [tally_eq, List.length_map]

-- `B` is met before `A`, so the row in which only `B` is true has the number 2
example : (binary .implies (.var 'B') (.var 'A')).check.toOption.bind (·.counterexample) =
    some (.ofList [('A', false), ('B', true)]) := by decide

end Formula

end Entailment
