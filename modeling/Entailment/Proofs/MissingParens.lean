import Entailment.Proofs.PrintedLines
import Entailment.Proofs.StrictReading

/-!
# What the second reading adds

Besides the spellings of formulas, `parse` accepts a binary operation without its outer parentheses,
and nothing else (`parse_eq_ok_iff`). A spelling inside a pair of parentheses that `enclose` has put
there can only be that of a binary operation; its two operands have a variable each, so the count
of variables never stands in the way. The two forms never coincide, since reading one operand of a
bare operation leaves its connective where the input should end.
-/

namespace Entailment

/-- The tokens of a binary operation without the parentheses around it. -/
def Formula.bare (op : Connective) (l r : Formula) : List Token :=
  l.spell ++ .sign (.connective op) :: r.spell

namespace Formula
variable {f l r : Formula} {op : Connective}

theorem stop_notMem_spell : .stop ∉ f.spell := by
  induction f with
  | var c => simp [spell]
  | not f ih => simp [spell, ih]
  | binary op l r ihl ihr => simp [spell, ihl, ihr]

theorem stop_notMem_bare : .stop ∉ bare op l r := by
  simp [bare, stop_notMem_spell]

theorem countP_isVar_spell : f.spell.countP Token.isVar = f.leaves.length := by
  induction f with
  | var c => rfl
  | not f ih => exact (List.countP_cons_of_neg (by simp [Token.isVar])).trans ih
  | binary op l r ihl ihr => simp [spell, leaves, List.countP_append, Token.isVar, ihl, ihr]

theorem leaves_length_pos : 0 < f.leaves.length := by
  induction f with
  | var c => exact Nat.zero_lt_one
  | not f ih => exact ih
  | binary op l r ihl _ => rw [leaves, List.length_append]; omega

theorem two_le_countP_isVar_bare (op : Connective) (l r : Formula) :
    2 ≤ (bare op l r).countP Token.isVar := by
  have hl := leaves_length_pos (f := l)
  have hr := leaves_length_pos (f := r)
  have hop : Token.isVar (.sign (.connective op)) = false := rfl
  rw [bare, List.countP_append, List.countP_cons, countP_isVar_spell, countP_isVar_spell, hop]
  simp only [Bool.false_eq_true, ↓reduceIte]
  omega

theorem spell_binary :
    (binary op l r).spell = .sign .lparen :: (bare op l r ++ [.sign .rparen]) := by
  simp [spell, bare]

/-- A spelling in parentheses is that of a binary operation. -/
theorem eq_bare_of_spell_eq {w : List Token}
    (h : f.spell = .sign .lparen :: (w ++ [.sign .rparen])) :
    ∃ op l r, f = binary op l r ∧ w = bare op l r := by
  cases f with
  | var c => simp [spell] at h
  | not f => simp [spell] at h
  | binary op l r =>
    rw [spell_binary] at h
    have hw : bare op l r = w := List.append_cancel_right (List.cons.inj h).2
    exact ⟨op, l, r, rfl, hw.symm⟩

/-- After the left operand of a bare operation the reader is complete, and the connective does not
fit. -/
theorem parseStatement_bare_append (op : Connective) (l r : Formula) (ts : List Token) :
    parseStatement (bare op l r ++ ts) =
      .error (.unexpected l.spell.length .stop (.sign (.connective op))) := by
  rw [bare, List.append_assoc, parseStatement_spell_append]
  rfl

theorem spell_ne_bare : f.spell ≠ bare op l r := by
  intro h
  have hf := parseStatement_spell f
  have hbare := parseStatement_bare_append op l r []
  rw [List.append_nil, ← h, hf] at hbare
  cases hbare

end Formula

variable {ts w : List Token} {f : Formula} {e : Error}

theorem exists_enclose_eq (ts : List Token) :
    ∃ w, (ts = w ∨ ts = w ++ [.stop]) ∧
      enclose ts = .sign .lparen :: (w ++ [.sign .rparen, .stop]) := by
  by_cases h : ts.getLast? = some .stop
  · obtain ⟨w, rfl⟩ := List.getLast?_eq_some_iff.1 h
    exact ⟨w, .inr rfl, by simp [enclose]⟩
  · exact ⟨ts, .inl rfl, by rw [enclose, if_neg h]⟩

theorem enclose_of_stop_notMem (hw : .stop ∉ w) (hts : ts = w ∨ ts = w ++ [.stop]) :
    enclose ts = .sign .lparen :: (w ++ [.sign .rparen, .stop]) := by
  rcases hts with rfl | rfl
  · rw [enclose, if_neg fun h => hw (List.mem_of_getLast? h)]
  · simp [enclose]

theorem length_lt_length_enclose (ts : List Token) : ts.length < (enclose ts).length := by
  obtain ⟨w, hts, h⟩ := exists_enclose_eq ts
  have hw : ts.length ≤ w.length + 1 := by rcases hts with rfl | rfl <;> simp
  rw [h, List.length_cons, List.length_append]
  simp only [List.length_cons, List.length_nil]
  omega

theorem fillParens_eq_self_iff : fillParens ts = ts ↔ ts.countP Token.isVar ≤ 1 := by
  rw [fillParens]
  split
  · simp [*]
  · refine iff_of_false (fun h => ?_) ‹_›
    have := length_lt_length_enclose ts
    rw [h] at this
    omega

theorem parse_of_parseStatement (h : parseStatement ts = .ok f) : parse ts = .ok f := by
  rw [parse_def, h]

theorem fillParens_eq_enclose (h : 2 ≤ ts.countP Token.isVar) :
    fillParens ts = enclose ts ∧ enclose ts ≠ ts := by
  have hcount : ¬ ts.countP Token.isVar ≤ 1 := by omega
  have hfill : fillParens ts = enclose ts := if_neg hcount
  exact ⟨hfill, fun henclose => hcount (fillParens_eq_self_iff.1 (hfill.trans henclose))⟩

theorem parse_of_parseStatement_enclose (h : parseStatement ts = .error e)
    (hcount : 2 ≤ ts.countP Token.isVar) (hf : parseStatement (enclose ts) = .ok f) :
    parse ts = .ok f := by
  obtain ⟨hfill, hne⟩ := fillParens_eq_enclose hcount
  simp only [parse_def, h, hfill, hne, hf, ↓reduceIte]

/-- After a first error it is that error that counts, unless the second reading succeeds. -/
theorem parse_eq_error_or_enclose (h : parseStatement ts = .error e) :
    parse ts = .error e ∨ ∃ f, parse ts = .ok f ∧ parseStatement (enclose ts) = .ok f := by
  by_cases hcount : 2 ≤ ts.countP Token.isVar
  · obtain ⟨hfill, hne⟩ := fillParens_eq_enclose hcount
    cases hf : parseStatement (enclose ts) with
    | ok f => exact .inr ⟨f, parse_of_parseStatement_enclose h hcount hf, rfl⟩
    | error e' => exact .inl (by simp only [parse_def, h, hfill, hne, hf, ↓reduceIte])
  · have hfill : fillParens ts = ts := fillParens_eq_self_iff.2 (by omega)
    exact .inl (by simp only [parse_def, h, hfill, ↓reduceIte])

theorem parseStatement_of_parse_error (h : parse ts = .error e) : parseStatement ts = .error e := by
  cases hs : parseStatement ts with
  | ok f =>
    rw [parse_of_parseStatement hs] at h
    cases h
  | error e' =>
    rcases parse_eq_error_or_enclose hs with h' | ⟨f, h', -⟩
    · rw [← h', h]
    · rw [h'] at h
      cases h

theorem bare_of_parseStatement_enclose (h : parseStatement (enclose ts) = .ok f) :
    ∃ op l r, f = .binary op l r ∧
      (ts = Formula.bare op l r ∨ ts = Formula.bare op l r ++ [.stop]) := by
  obtain ⟨w, hts, henclose⟩ := exists_enclose_eq ts
  rw [henclose] at h
  rcases spelled_of_parseStatement h with h | h
  -- `enclose` ends in an end marker, which no spelling does
  · have hstop : .stop ∈ f.spell := by simp [← h]
    exact absurd hstop Formula.stop_notMem_spell
  · have happend : f.spell ++ [.stop] = .sign .lparen :: (w ++ [.sign .rparen]) ++ [.stop] := by
      rw [← h]; simp
    have hspell := List.append_cancel_right happend
    obtain ⟨op, l, r, rfl, rfl⟩ := Formula.eq_bare_of_spell_eq hspell
    exact ⟨op, l, r, rfl, hts⟩

variable {op : Connective} {l r : Formula}

theorem parseStatement_enclose_bare
    (hts : ts = Formula.bare op l r ∨ ts = Formula.bare op l r ++ [.stop]) :
    parseStatement (enclose ts) = .ok (.binary op l r) := by
  have hspell : enclose ts = (Formula.binary op l r).spell ++ [.stop] := by
    rw [enclose_of_stop_notMem Formula.stop_notMem_bare hts, Formula.spell_binary]
    simp
  rw [hspell, parseStatement_spell_stop]

theorem parse_bare (hts : ts = Formula.bare op l r ∨ ts = Formula.bare op l r ++ [.stop]) :
    parse ts = .ok (.binary op l r) := by
  have herror : ∃ e, parseStatement ts = .error e := by
    rcases hts with rfl | rfl
    · rw [← List.append_nil (Formula.bare op l r), Formula.parseStatement_bare_append]
      exact ⟨_, rfl⟩
    · exact ⟨_, Formula.parseStatement_bare_append op l r _⟩
  have hcount : 2 ≤ ts.countP Token.isVar := by
    have := Formula.two_le_countP_isVar_bare op l r
    rcases hts with rfl | rfl
    · omega
    · rw [List.countP_append]; omega
  obtain ⟨e, he⟩ := herror
  exact parse_of_parseStatement_enclose he hcount (parseStatement_enclose_bare hts)

/-- The count of variables never decides: what it keeps from a second reading would fail there. -/
theorem parse_eq (ts : List Token) : parse ts =
    match parseStatement ts with
    | .ok f => .ok f
    | .error e =>
      match parseStatement (enclose ts) with
      | .ok f => .ok f
      | .error _ => .error e := by
  cases h : parseStatement ts with
  | ok f => exact parse_of_parseStatement h
  | error e =>
    cases henclose : parseStatement (enclose ts) with
    | ok f =>
      obtain ⟨op, l, r, rfl, hts⟩ := bare_of_parseStatement_enclose henclose
      exact parse_bare hts
    | error e' =>
      rcases parse_eq_error_or_enclose h with herror | ⟨f, -, hf⟩
      · exact herror
      · rw [henclose] at hf
        cases hf

theorem parse_eq_ok_iff : parse ts = .ok f ↔ ∃ w, (ts = w ∨ ts = w ++ [.stop]) ∧
    (w = f.spell ∨ ∃ op l r, f = .binary op l r ∧ w = Formula.bare op l r) := by
  constructor
  · intro h
    cases hs : parseStatement ts with
    | ok g =>
      rw [parse_of_parseStatement hs] at h
      cases h
      exact ⟨f.spell, spelled_of_parseStatement hs, .inl rfl⟩
    | error e =>
      rcases parse_eq_error_or_enclose hs with h' | ⟨g, h', henclose⟩
      · rw [h'] at h
        cases h
      · rw [h', Except.ok.injEq] at h
        subst h
        obtain ⟨op, l, r, hf, hts⟩ := bare_of_parseStatement_enclose henclose
        exact ⟨_, hts, .inr ⟨op, l, r, hf, rfl⟩⟩
  · rintro ⟨w, hts, rfl | ⟨op, l, r, rfl, rfl⟩⟩
    · refine parse_of_parseStatement ?_
      rcases hts with rfl | rfl
      · exact parseStatement_spell f
      · exact parseStatement_spell_stop f
    · exact parse_bare hts

/-- One pair of parentheses does not rescue a chain, and the error is that of the first reading. -/
example : parse [.var 'A', .sign (.connective .and), .var 'B', .sign (.connective .and), .var 'C'] =
    .error (.unexpected 1 .stop (.sign (.connective .and))) := by
  simp only [parse_def, parseStatement_eq_run]
  rfl

/-! ### The lines of a retry -/

theorem Event.mem_upTo {max : Level} {x : Event} {es : List Event} :
    x ∈ upTo max es ↔ x ∈ es ∧ (compare x.level max).isLE := List.mem_filter

theorem level_of_mem_parseStatementLog {x : Event} (h : x ∈ parseStatementLog ts) :
    x.level = .trace := by
  rw [parseStatementLog_eq] at h
  obtain ⟨v, -, hx⟩ := List.mem_flatMap.1 h
  rw [Reader.Visit.log] at hx
  rcases List.mem_cons.1 hx with rfl | hx
  · rfl
  · split at hx
    · rw [List.mem_singleton.1 hx]; rfl
    · cases hx

theorem retry_notMem_parseStatementLog (ts : List Token) (e : Error) :
    .retry e ∉ parseStatementLog ts := by
  intro h
  have hlevel : (Event.retry e).level = .trace := level_of_mem_parseStatementLog h
  cases hlevel

theorem retry_mem_parseLog :
    .retry e ∈ parseLog ts ↔ parseStatement ts = .error e ∧ 2 ≤ ts.countP Token.isVar := by
  rw [parseLog_def, List.mem_append, or_iff_right (retry_notMem_parseStatementLog ts e)]
  cases parseStatement ts with
  | ok f => simp
  | error e' =>
    by_cases hcount : 2 ≤ ts.countP Token.isVar
    · obtain ⟨hfill, hne⟩ := fillParens_eq_enclose hcount
      have hlog := retry_notMem_parseStatementLog (enclose ts) e
      rw [hfill]
      cases parseStatement (enclose ts) <;> simp [hne, hcount, hlog, eq_comm]
    · have hfill : fillParens ts = ts := fillParens_eq_self_iff.2 (by omega)
      simp [hfill, hcount]

theorem Event.opening_eq_retry_iff {x : Event} :
    x.opening = some "Parse failed (" ↔ ∃ e, x = .retry e := by
  cases x <;> simp [Event.opening]

/-- The line about a second reading, and no other line that begins like it. -/
theorem retryLine_iff (line : Level × String) :
    line ∈ (Event.upTo .debug (parseLog ts)).map Event.line ∧ Event.Begins "Parse failed (" line ↔
      ∃ e, parseStatement ts = .error e ∧ 2 ≤ ts.countP Token.isVar ∧
        line = (.debug,
          "Parse failed (" ++ e.message ++ "); retrying with enclosing parentheses") := by
  constructor
  · rintro ⟨hline, hbegins⟩
    obtain ⟨x, hx, rfl⟩ := List.mem_map.1 hline
    rw [Event.begins_iff (by decide), Event.opening_eq_retry_iff] at hbegins
    obtain ⟨e, rfl⟩ := hbegins
    obtain ⟨he, hcount⟩ := retry_mem_parseLog.1 (Event.mem_upTo.1 hx).1
    exact ⟨e, he, hcount, rfl⟩
  · rintro ⟨e, he, hcount, rfl⟩
    have hmem : Event.retry e ∈ Event.upTo .debug (parseLog ts) :=
      Event.mem_upTo.2 ⟨retry_mem_parseLog.2 ⟨he, hcount⟩, rfl⟩
    exact ⟨List.mem_map.2 ⟨_, hmem, rfl⟩,
      (Event.begins_iff (x := .retry e) (by decide)).2 rfl⟩

/-- `parse` reads spellings of formulas and, of binary operations, also those without the outer
parentheses. An error is that of `parseStatement`, and a second reading is reported exactly when
that fails on a list with at least two variables. -/
theorem parse_outcome (ts : List Token) :
    (∀ f, parse ts = .ok f ↔ ∃ w, (ts = w ∨ ts = w ++ [.stop]) ∧
      (w = f.spell ∨ ∃ op l r, f = .binary op l r ∧
        w = l.spell ++ .sign (.connective op) :: r.spell)) ∧
    (∀ (f : Formula) op (l r : Formula),
      f.spell ≠ l.spell ++ .sign (.connective op) :: r.spell) ∧
    (∀ f, parseStatement ts = .ok f → parse ts = .ok f) ∧
    (∀ e, parse ts = .error e → parseStatement ts = .error e) ∧
    (∀ e, .retry e ∈ Event.upTo .debug (parseLog ts) ↔
      parseStatement ts = .error e ∧ 2 ≤ ts.countP Token.isVar) ∧
    (∀ line, line ∈ (Event.upTo .debug (parseLog ts)).map Event.line ∧
        Event.Begins "Parse failed (" line ↔
      ∃ e, parseStatement ts = .error e ∧ 2 ≤ ts.countP Token.isVar ∧
        line = (.debug,
          "Parse failed (" ++ e.message ++ "); retrying with enclosing parentheses")) := by
  refine ⟨fun f => parse_eq_ok_iff, fun f op l r => Formula.spell_ne_bare,
    fun f => parse_of_parseStatement, fun e => parseStatement_of_parse_error, fun e => ?_,
    retryLine_iff⟩
  rw [Event.mem_upTo, retry_mem_parseLog]
  exact and_iff_left rfl

end Entailment
