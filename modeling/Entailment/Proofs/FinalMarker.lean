import Entailment.Proofs.CorrectPrefix

/-!
# The end marker behind a token list

Running off the end of the tokens counts as finding an end marker, so one that is written out there
changes nothing (`Reader.run_append_stop`): the two readings stay in the same state at the same
position until they refuse the same token or have both come to the end. It changes nothing about the
second reading either, which drops it before parentheses are put in (`enclose_append_stop`). Of two
end markers the first one is followed by a token, and there nothing may follow.
-/

namespace Entailment

namespace Reader
variable {r : Reader} {p : Nat} {ts : List Token}

theorem run_append_stop (h : ts.getLast? ≠ some .stop) : r.run p (ts ++ [.stop]) = r.run p ts := by
  fun_induction r.run p ts with
  | case1 p g => rfl
  | case2 p g => exact absurd rfl h
  | case3 p r hr =>
    refine run_cons_of_step_eq_none r.step_stop fun g hg => ?_
    exact absurd hg (hr g)
  | case4 p r t ts _ r' hstep ih =>
    have hts : ts.getLast? ≠ some .stop := by
      intro hts
      rw [List.getLast?_cons, hts] at h
      exact h rfl
    rw [List.cons_append, run_cons_of_step hstep, ih hts]
  | case5 p r t ts _ hstep =>
    refine run_cons_of_step_eq_none hstep fun _ _ _ hnil => ?_
    exact absurd hnil (List.append_ne_nil_of_right_ne_nil ts (List.cons_ne_nil _ _))

end Reader

variable {ts : List Token}

theorem enclose_append_stop (h : ts.getLast? ≠ some .stop) :
    enclose (ts ++ [.stop]) = enclose ts := by
  unfold enclose
  rw [List.getLast?_concat, if_pos rfl, if_neg h, List.dropLast_concat]

theorem ne_append_stops (ts : List Token) {w : List Token} (hw : .stop ∉ w) :
    ts ++ [.stop, .stop] ≠ w ∧ ts ++ [.stop, .stop] ≠ w ++ [.stop] := by
  constructor
  · rintro rfl
    simp at hw
  · intro h
    have happend : ts ++ [.stop] ++ [.stop] = w ++ [.stop] := by
      rw [List.append_assoc]
      exact h
    rw [← List.append_cancel_right happend] at hw
    simp at hw

/-- One end marker behind a token list that does not end in one changes nothing, neither a formula
that is read nor an error, whatever the list is and whether it is read exactly as written or with
parentheses filled in. Behind a second end marker nothing can be read. -/
theorem parse_append_stop (ts : List Token) :
    (ts.getLast? ≠ some .stop →
      parseStatement (ts ++ [.stop]) = parseStatement ts ∧ parse (ts ++ [.stop]) = parse ts) ∧
    ∃ e, parse (ts ++ [.stop, .stop]) = .error e := by
  constructor
  · intro h
    have hstatement : parseStatement (ts ++ [.stop]) = parseStatement ts := by
      rw [parseStatement_eq_run, parseStatement_eq_run, Reader.run_append_stop h]
    refine ⟨hstatement, ?_⟩
    rw [parse_eq, parse_eq, hstatement, enclose_append_stop h]
  · cases h : parse (ts ++ [.stop, .stop]) with
    | error e => exact ⟨e, rfl⟩
    | ok f =>
      obtain ⟨w, hts, hw⟩ := parse_eq_ok_iff.1 h
      have hstop : .stop ∉ w := by
        rcases hw with rfl | ⟨op, l, r, -, rfl⟩
        · exact Formula.stop_notMem_spell
        · exact Formula.stop_notMem_bare
      obtain ⟨hne, hne'⟩ := ne_append_stops ts hstop
      rcases hts with hts | hts
      · exact absurd hts hne
      · exact absurd hts hne'

/-- An end marker in the middle is refused at its own position, and a bare operation gets its
parentheses, with and without an end marker behind them. -/
theorem parse_append_stop_inner :
    parse [.var 'A', .stop, .var 'B', .stop] = .error (.unexpected 1 .stop .stop) ∧
    parse [.var 'A', .stop, .var 'B'] = .error (.unexpected 1 .stop .stop) ∧
    parse [.var 'A', .sign (.connective .or), .var 'B', .stop] =
      .ok (.binary .or (.var 'A') (.var 'B')) := by
  have hinner := ((parse_append_stop [.var 'A', .stop, .var 'B']).1 (by decide)).2
  have hbare := ((parse_append_stop [.var 'A', .sign (.connective .or), .var 'B']).1 (by decide)).2
  have herror : parse [.var 'A', .stop, .var 'B'] = .error (.unexpected 1 .stop .stop) := by
    simp only [parse_def, parseStatement_eq_run]
    rfl
  exact ⟨hinner.trans herror, herror, hbare.trans (parse_bare (.inl rfl))⟩

end Entailment
