import Entailment.Proofs.CorrectPrefix

/-!
# The expressions that begin

The functions that read a statement report each expression that begins, and these are the ones at
which a reader waits for an operand (`parseStatementLog_eq`). A reader goes once through the tokens,
so the positions ascend and each comes with its own token (`pairwise_visits`, `head_of_mem_visits`).
While the spelling of a formula is read one expression begins for each part of the formula, the part
itself before the parts of its own (`visits_spell`). A refusal comes behind all that has begun, and
at the beginning of an expression just if an operand was expected (`visits_of_run_error`).
-/

namespace Entailment

/-- A formula that occurs in another one, and the number of tokens before it. -/
structure Part where
  position : Nat
  formula : Formula

/-- The parts of a formula whose spelling has `p` tokens before it: the formula itself, then the
parts of its sides from left to right. -/
def Formula.parts (p : Nat) : Formula → List Part
  | var c => [⟨p, var c⟩]
  | binary op l r => ⟨p, binary op l r⟩ :: (l.parts (p + 1) ++ r.parts (p + l.spell.length + 2))
  | not f => ⟨p, not f⟩ :: f.parts (p + 1)

/-- The expression that begins where the part does. -/
def Part.visit (part : Part) : Reader.Visit where
  position := part.position
  head := part.formula.spell.headD .stop

namespace Reader

variable {f : Formula} {stack : List Frame} {r r' : Reader} {t found : Token} {expected : Expected}
  {before ts : List Token} {v : Visit} {p q : Nat}

theorem Visit.map_line_log (v : Visit) : v.log.map Event.line =
    (.trace, "expression at " ++ toString v.position ++ ": " ++ v.head.inspect) ::
      if v.head = .sign .lparen then [(.trace, "group at " ++ toString v.position)] else [] := by
  rw [Visit.log]
  split <;> rfl

theorem mem_entered : v ∈ r.entered p t ↔ r.expected = .operand ∧ v = ⟨p, t⟩ := by
  cases r <;> simp [entered, Reader.expected]

theorem mem_visits_nil : v ∈ r.visits p [] ↔ r.expected = .operand ∧ v = ⟨p, .stop⟩ := by
  rw [visits, mem_entered]

theorem mem_visits_cons : v ∈ r.visits p (t :: ts) ↔
    (r.expected = .operand ∧ v = ⟨p, t⟩) ∨ ∃ r', r.step t = some r' ∧ v ∈ r'.visits (p + 1) ts := by
  cases hstep : r.step t with
  | none => simp [visits_cons_of_step_eq_none hstep, mem_entered]
  | some r' => simp [visits_cons_of_step hstep, mem_entered]

/-! ### One pass from left to right -/

theorem exists_visits_operand (p : Nat) (stack : List Frame) (ts : List Token) :
    ∃ vs, (operand stack).visits p ts = ⟨p, ts.headD .stop⟩ :: vs := by
  cases ts with
  | nil => exact ⟨[], rfl⟩
  | cons t ts =>
    cases h : (operand stack).step t with
    | none => exact ⟨[], visits_cons_of_step_eq_none h⟩
    | some r' => exact ⟨_, visits_cons_of_step h⟩

theorem le_of_mem_visits (h : v ∈ r.visits p ts) : p ≤ v.position := by
  induction ts generalizing r p with
  | nil =>
    obtain ⟨-, rfl⟩ := mem_visits_nil.1 h
    exact Nat.le_refl p
  | cons t ts ih =>
    rcases mem_visits_cons.1 h with ⟨-, rfl⟩ | ⟨r', -, h⟩
    · exact Nat.le_refl p
    · exact Nat.le_of_succ_le (ih h)

theorem pairwise_entered : (r.entered p t).Pairwise fun v w => v.position < w.position := by
  cases r <;> simp [entered]

theorem pairwise_visits : (r.visits p ts).Pairwise fun v w => v.position < w.position := by
  induction ts generalizing r p with
  | nil => exact pairwise_entered
  | cons t ts ih =>
    cases hstep : r.step t with
    | none => exact visits_cons_of_step_eq_none hstep ▸ pairwise_entered
    | some r' =>
      rw [visits_cons_of_step hstep, List.pairwise_append]
      refine ⟨pairwise_entered, ih, fun v hv w hw => ?_⟩
      obtain ⟨-, rfl⟩ := mem_entered.1 hv
      exact le_of_mem_visits hw

theorem head_of_mem_visits (h : v ∈ r.visits before.length ts) :
    v.head = (before ++ ts).getD v.position .stop := by
  induction ts generalizing r before with
  | nil =>
    obtain ⟨-, rfl⟩ := mem_visits_nil.1 h
    simp
  | cons t ts ih =>
    rcases mem_visits_cons.1 h with ⟨-, rfl⟩ | ⟨r', -, h⟩
    · simp
    · have hlength : before.length + 1 = (before ++ [t]).length := by simp
      rw [hlength] at h
      simpa using ih h

/-! ### The parts of what is read -/

theorem visits_spell : (operand stack).visits p (f.spell ++ ts) =
    (f.parts p).map Part.visit ++ (supply f stack).visits (p + f.spell.length) ts := by
  induction f generalizing stack p ts with
  | var c =>
    rw [Formula.spell, List.singleton_append, visits_cons_of_step rfl]
    rfl
  | not f ih =>
    rw [Formula.spell, List.cons_append, visits_cons_of_step rfl, ih, List.length_cons,
      ← Nat.add_assoc, Nat.add_right_comm]
    rfl
  | binary op l r ihl ihr =>
    have hspell : (Formula.binary op l r).spell ++ ts = .sign .lparen ::
        (l.spell ++ .sign (.connective op) :: (r.spell ++ .sign .rparen :: ts)) := by
      simp [Formula.spell]
    have hlength : p + (Formula.binary op l r).spell.length =
        p + l.spell.length + 2 + r.spell.length + 1 := by
      simp [Formula.spell]
      omega
    rw [hspell, hlength, visits_cons_of_step rfl, ihl, supply, visits_cons_of_step rfl,
      Nat.add_right_comm p 1, ihr, supply, visits_cons_of_step rfl, Formula.parts, List.map_cons,
      List.map_append, List.cons_append, List.append_assoc]
    rfl

theorem position_entered : (∀ v ∈ r.entered p t, v.position ≤ p) ∧
    ((∃ v ∈ r.entered p t, v.position = p) ↔ r.expected = .operand) := by
  cases r <;> simp [entered, Reader.expected]

/-- A refusal comes at or behind the last expression that has begun. It is at the beginning of one
just if an operand was expected. -/
theorem visits_of_run_error (h : r.run p ts = .error (.unexpected q expected found)) :
    (∀ v ∈ r.visits p ts, v.position ≤ q) ∧
      ((∃ v ∈ r.visits p ts, v.position = q) ↔ expected = .operand) := by
  revert h
  fun_induction r.run p ts with
  | case1 => intro h; cases h
  | case2 => intro h; cases h
  | case3 p r hr =>
    rintro ⟨⟩
    rw [visits]
    exact position_entered
  | case4 p r t ts _ r' hstep ih =>
    intro h
    obtain ⟨hle, hiff⟩ := ih h
    obtain ⟨before, after, last, -, -, he, -⟩ := exists_state_of_run_error h
    have hlt : p < q := by cases he; omega
    rw [visits_cons_of_step hstep, ← hiff]
    simp only [List.mem_append, mem_entered]
    refine ⟨?_, ?_, ?_⟩
    · rintro v (⟨-, rfl⟩ | hv)
      · exact Nat.le_of_lt hlt
      · exact hle v hv
    · -- what begins with the token of the step begins too early
      rintro ⟨v, ⟨-, rfl⟩ | hv, hq⟩
      · exact absurd hq (Nat.ne_of_lt hlt)
      · exact ⟨v, hv, hq⟩
    · rintro ⟨v, hv, hq⟩
      exact ⟨v, .inr hv, hq⟩
  | case5 p r t ts hr hstep =>
    rintro ⟨⟩
    rw [visits_cons_of_step_eq_none hstep]
    exact position_entered

end Reader

variable {f : Formula} {part : Part} {ts : List Token} {e : Error} {p : Nat}

theorem exists_spell_eq_of_mem_parts (h : part ∈ f.parts p) :
    ∃ before after, f.spell = before ++ (part.formula.spell ++ after) ∧
      part.position = p + before.length := by
  induction f generalizing p with
  | var c =>
    obtain rfl := List.mem_singleton.1 h
    exact ⟨[], [], by simp, rfl⟩
  | not f ih =>
    rcases List.mem_cons.1 h with rfl | h
    · exact ⟨[], [], by simp, rfl⟩
    · obtain ⟨before, after, hspell, hposition⟩ := ih h
      refine ⟨.sign .not :: before, after, ?_, ?_⟩
      · rw [Formula.spell, hspell, List.cons_append]
      · rw [hposition, List.length_cons]
        omega
  | binary op l r ihl ihr =>
    rcases List.mem_cons.1 h with rfl | h
    · exact ⟨[], [], by simp, rfl⟩
    rcases List.mem_append.1 h with h | h
    · obtain ⟨before, after, hspell, hposition⟩ := ihl h
      refine ⟨.sign .lparen :: before,
        after ++ .sign (.connective op) :: (r.spell ++ [.sign .rparen]), ?_, ?_⟩
      · rw [Formula.spell, hspell]
        simp
      · rw [hposition, List.length_cons]
        omega
    · obtain ⟨before, after, hspell, hposition⟩ := ihr h
      refine ⟨.sign .lparen :: (l.spell ++ .sign (.connective op) :: before),
        after ++ [.sign .rparen], ?_, ?_⟩
      · rw [Formula.spell, hspell]
        simp
      · rw [hposition]
        simp
        omega

theorem headD_spell_eq_lparen_iff :
    f.spell.headD .stop = .sign .lparen ↔ ∃ op l r, f = .binary op l r := by
  cases f <;> simp [Formula.spell]

theorem visits_of_parseStatement (h : parseStatement ts = .ok f) :
    Reader.start.visits 0 ts = (f.parts 0).map Part.visit := by
  rcases spelled_of_parseStatement h with rfl | rfl
  · rw [← List.append_nil f.spell, Reader.start, Reader.visits_spell, Reader.supply,
      Reader.visits]
    exact List.append_nil _
  · rw [Reader.start, Reader.visits_spell, Reader.supply,
      Reader.visits_cons_of_step_eq_none (Reader.step_stop _)]
    exact List.append_nil _

theorem spell_isPrefix_drop (h : parseStatement ts = .ok f) (hpart : part ∈ f.parts 0) :
    part.formula.spell <+: ts.drop part.position := by
  obtain ⟨rest, rfl⟩ : ∃ rest, ts = f.spell ++ rest := by
    rcases spelled_of_parseStatement h with rfl | rfl
    · exact ⟨[], (List.append_nil _).symm⟩
    · exact ⟨_, rfl⟩
  obtain ⟨before, after, hspell, hposition⟩ := exists_spell_eq_of_mem_parts hpart
  rw [hspell, hposition, Nat.zero_add, List.append_assoc, List.drop_left, List.append_assoc]
  exact List.prefix_append ..

theorem exists_cursors (ts : List Token) :
    ∃ cursors : List Nat, Reader.start.visits 0 ts = cursors.map fun p => ⟨p, ts.getD p .stop⟩ := by
  refine ⟨(Reader.start.visits 0 ts).map (·.position), ?_⟩
  have heq : ∀ v ∈ Reader.start.visits 0 ts,
      (⟨v.position, ts.getD v.position .stop⟩ : Reader.Visit) = v := by
    intro v hv
    have hmem : v ∈ Reader.start.visits ([] : List Token).length ts := hv
    rw [← List.nil_append ts, ← Reader.head_of_mem_visits hmem]
  rw [List.map_map]
  exact ((List.map_congr_left heq).trans (List.map_id' _)).symm

/-- Reading a statement reports its expressions at ascending `cursors`, and on success at the
positions of the `parts` of the formula; a refusal is at the last of them or behind it. -/
theorem parseStatement_in_order (ts : List Token) : ∃ cursors : List Nat,
    cursors.head? = some 0 ∧ cursors.Pairwise (· < ·) ∧
    parseStatementLog ts = cursors.flatMap (fun p => .expression p (ts.getD p .stop) ::
      if ts.getD p .stop = .sign .lparen then [.group p] else []) ∧
    (parseStatementLog ts).map Event.line = cursors.flatMap (fun p =>
      (.trace, "expression at " ++ toString p ++ ": " ++ (ts.getD p .stop).inspect) ::
        if ts.getD p .stop = .sign .lparen then [(.trace, "group at " ++ toString p)] else []) ∧
    (∀ f, parseStatement ts = .ok f →
      cursors = (f.parts 0).map (·.position) ∧ ∀ part ∈ f.parts 0,
        part.formula.spell <+: ts.drop part.position ∧
        (ts.getD part.position .stop = .sign .lparen ↔ ∃ op l r, part.formula = .binary op l r)) ∧
    ∀ e, parseStatement ts = .error e → ∃ p expected found, e = .unexpected p expected found ∧
      (∀ cursor ∈ cursors, cursor ≤ p) ∧
      (p ∈ cursors ↔ expected.text = "identifier, negation or '('") := by
  obtain ⟨cursors, hcursors⟩ := exists_cursors ts
  have hposition : (Reader.start.visits 0 ts).map (·.position) = cursors := by
    rw [hcursors, List.map_map]
    exact List.map_id' _
  have hlog : parseStatementLog ts =
      cursors.flatMap fun p => Reader.Visit.log ⟨p, ts.getD p .stop⟩ := by
    rw [parseStatementLog_eq, hcursors, List.flatMap_map]
  refine ⟨cursors, ?_, ?_, hlog, ?_, fun f hf => ⟨?_, fun part hpart => ⟨?_, ?_⟩⟩, fun e he => ?_⟩
  · obtain ⟨vs, hvs⟩ := Reader.exists_visits_operand 0 [] ts
    rw [← hposition, Reader.start, hvs]
    rfl
  · exact hposition ▸ List.pairwise_map.2 Reader.pairwise_visits
  · rw [hlog, List.map_flatMap]
    exact congrArg (cursors.flatMap ·) (funext fun p => Reader.Visit.map_line_log ⟨p, _⟩)
  · rw [← hposition, visits_of_parseStatement hf, List.map_map]
    rfl
  · exact spell_isPrefix_drop hf hpart
  · have hmem : part.visit ∈ Reader.start.visits 0 ts :=
      visits_of_parseStatement hf ▸ List.mem_map_of_mem hpart
    rw [hcursors] at hmem
    obtain ⟨p, -, hp⟩ := List.mem_map.1 hmem
    obtain ⟨rfl, hhead⟩ := Reader.Visit.mk.inj hp
    rw [hhead, headD_spell_eq_lparen_iff]
  · obtain ⟨p, expected, found, rfl⟩ := unexpected_of_parseStatement he
    rw [parseStatement_eq_run] at he
    obtain ⟨hle, hiff⟩ := Reader.visits_of_run_error he
    refine ⟨p, expected, found, rfl, ?_, ?_⟩
    · exact hposition ▸ List.forall_mem_map.2 hle
    · rw [← hposition, List.mem_map, hiff]
      cases expected <;> simp [Expected.text]

/-- Expressions and operations begin in `( not A and B )` in the order of its parts. -/
theorem parseStatement_in_order_group :
    (parseStatementLog [.sign .lparen, .sign .not, .var 'A', .sign (.connective .and), .var 'B',
        .sign .rparen]).map Event.message =
      ["expression at 0: LeftParen", "group at 0", "expression at 1: Not",
        "expression at 2: Identifier('A')", "expression at 4: Identifier('B')"] := by
  obtain ⟨cursors, -, -, hlog, -, hok, -⟩ := parseStatement_in_order [.sign .lparen, .sign .not,
    .var 'A', .sign (.connective .and), .var 'B', .sign .rparen]
  obtain ⟨rfl, -⟩ := hok _ (parseStatement_spell (.binary .and (.not (.var 'A')) (.var 'B')))
  rw [hlog]
  decide +kernel

-- the operand that is missing at the end begins with the end marker
example : parseStatementLog [.sign .lparen, .var 'A', .sign (.connective .or)] =
    [.expression 0 (.sign .lparen), .group 0, .expression 1 (.var 'A'), .expression 3 .stop] := by
  rw [parseStatementLog_eq]
  decide

end Entailment
