import Entailment.Proofs.MissingParens

/-!
# Where reading stops

A token list is viable if it can be completed to the spelling of a formula. What a reader has read
is viable in every state, because all open frames can be closed (`viable_spell`), and the tokens
that fit next are exactly those that keep it viable (`viable_spell_append_iff`). A refusal is
therefore precise: the tokens before its position could still have become a formula, it names
exactly the tokens with which they still could, and the token found there is none of them.
-/

namespace Entailment

/-- Whether the token list begins the spelling of some formula. -/
def Viable (ts : List Token) : Prop := ∃ f : Formula, ts <+: f.spell

/-- The tokens that an expectation admits. -/
def Expected.Admits : Expected → Token → Prop
  | stop, _ => False
  | operand, t => (∃ c, t = .var c) ∨ t = .sign .not ∨ t = .sign .lparen
  | lparen, t => t = .sign .lparen
  | operator, t => ∃ op, t = .sign (.connective op)
  | rparen, t => t = .sign .rparen

/-- The tokens that a description of what was expected names, read as words. -/
def Names (description : String) (t : Token) : Prop :=
  (description = "identifier, negation or '('" ∧
    ((∃ c, t = .var c) ∨ t = .sign .not ∨ t = .sign .lparen)) ∨
  (description = "infix operator" ∧ ∃ op, t = .sign (.connective op)) ∨
  (description = "')'" ∧ t = .sign .rparen) ∨
  (description = "'('" ∧ t = .sign .lparen)

theorem names_text_iff {e : Expected} {t : Token} : Names e.text t ↔ e.Admits t := by
  cases e <;> simp [Names, Expected.text, Expected.Admits]

variable {f : Formula} {ts us : List Token} {t : Token} {e : Error}

theorem Viable.mono (h : Viable us) (hts : ts <+: us) : Viable ts := by
  obtain ⟨f, hf⟩ := h
  exact ⟨f, hts.trans hf⟩

theorem Viable.stop_notMem (h : Viable ts) : .stop ∉ ts := by
  obtain ⟨f, hf⟩ := h
  exact fun hstop => Formula.stop_notMem_spell (hf.subset hstop)

namespace Reader
variable {r r' : Reader} {stack : List Frame} {p : Nat}

theorem eq_operand_or_supply (r : Reader) :
    (∃ stack, r = operand stack) ∨ ∃ f stack, r = supply f stack := by
  cases r with
  | operand stack => exact .inl ⟨stack, rfl⟩
  | operator l stack => exact .inr ⟨l, .left :: stack, rfl⟩
  | close l op r stack => exact .inr ⟨r, .right l op :: stack, rfl⟩
  | complete f => exact .inr ⟨f, [], rfl⟩

/-! ### What leads to a state -/

theorem start_run_spellStack :
    start.run p (Frame.spellStack stack ++ ts) =
      (operand stack).run (p + (Frame.spellStack stack).length) ts := by
  induction stack generalizing ts with
  | nil => rfl
  | cons frame stack ih =>
    rw [Frame.spellStack, List.append_assoc, ih, List.length_append, ← Nat.add_assoc]
    cases frame with
    | negation => simp [Frame.spell, run, step]
    | left => simp [Frame.spell, run, step]
    | right l op =>
      -- the left side is read inside a frame `left`, which its connective turns into this one
      simp only [Frame.spell, run, step, run_spell, supply, List.cons_append, List.append_assoc,
        List.nil_append, List.length_cons, List.length_append, List.length_nil]
      congr 1
      omega

theorem start_run_spell (r : Reader) :
    start.run p (r.spell ++ ts) = r.run (p + r.spell.length) ts := by
  rcases r.eq_operand_or_supply with ⟨stack, rfl⟩ | ⟨f, stack, rfl⟩
  · exact start_run_spellStack
  · rw [spell_supply, List.append_assoc, start_run_spellStack, run_spell, List.length_append,
      Nat.add_assoc]

/-! ### Viability of a state -/

/-- Once an operand is there, the frames around it can be closed one after the other. -/
theorem viable_spell_supply (f : Formula) (stack : List Frame) : Viable (supply f stack).spell := by
  induction stack generalizing f with
  | nil => exact ⟨f, List.prefix_rfl⟩
  | cons frame stack ih =>
    cases frame with
    | negation => exact ih (.not f)
    | left =>
      -- any right side will do
      refine (ih (.binary .and f f)).mono ?_
      show Frame.spellStack stack ++ .sign .lparen :: f.spell <+: _
      rw [spell_supply, List.prefix_append_right_inj]
      simp [Formula.spell]
    | right l op =>
      refine (ih (.binary op l f)).mono ?_
      show Frame.spellStack stack ++
        .sign .lparen :: (l.spell ++ .sign (.connective op) :: f.spell) <+: _
      rw [spell_supply, List.prefix_append_right_inj]
      simp [Formula.spell]

theorem viable_spell (r : Reader) : Viable r.spell := by
  rcases r.eq_operand_or_supply with ⟨stack, rfl⟩ | ⟨f, stack, rfl⟩
  · have hvar := viable_spell_supply (.var 'A') stack
    rw [spell_supply] at hvar
    exact hvar.mono (List.prefix_append ..)
  · exact viable_spell_supply f stack

theorem exists_step_of_run_cons (h : r.run p (t :: ts) = .ok f) (ht : t ≠ .stop) :
    ∃ r', r.step t = some r' := by
  cases hstep : r.step t with
  | some r' => exact ⟨r', rfl⟩
  | none =>
    rw [run_cons_of_step_eq_none hstep fun g _ hstop => absurd hstop ht] at h
    cases h

theorem viable_spell_append_iff : Viable (r.spell ++ [t]) ↔ ∃ r', r.step t = some r' := by
  constructor
  · intro h
    have ht : t ≠ .stop := fun ht => h.stop_notMem (by simp [ht])
    obtain ⟨f, rest, hf⟩ := h
    have hrun : r.run (0 + r.spell.length) (t :: rest) = .ok f := by
      rw [← start_run_spell, ← parseStatement_spell f, ← hf]
      simp [parseStatement_eq_run]
    exact exists_step_of_run_cons hrun ht
  · rintro ⟨r', hstep⟩
    rw [← spell_step hstep]
    exact r'.viable_spell

theorem exists_step_iff_admits : (∃ r', r.step t = some r') ↔ r.expected.Admits t := by
  cases r <;> rcases t with c | (op | _ | _ | _) | _ <;> simp [step, expected, Expected.Admits]

theorem step_eq_none_iff : r.step t = none ↔ ¬ r.expected.Admits t := by
  rw [← exists_step_iff_admits, ← Option.isSome_iff_exists, Bool.not_eq_true,
    Option.isSome_eq_false_iff, Option.isNone_iff_eq_none]

theorem expected_eq_stop_iff : r.expected = .stop ↔ ∃ f, r = complete f := by
  cases r <;> simp [expected]

theorem text_expected_eq_iff : r.expected.text = "end of input" ↔ r.expected = .stop := by
  cases r <;> simp [expected, Expected.text]

/-! ### Refusals -/

/-- A refusing run gets through some tokens to a state in which the next token does not fit, and
blames that token and that state. In the complete state one end marker would have been in order. -/
theorem exists_state_of_run_error (h : r.run p ts = .error e) :
    ∃ (before after : List Token) (r' : Reader), ts = before ++ after ∧
      r'.spell = r.spell ++ before ∧
      e = .unexpected (p + before.length) r'.expected (after.headD .stop) ∧
      r'.step (after.headD .stop) = none ∧
      (r'.expected = .stop → after ≠ [] ∧ after ≠ [.stop]) := by
  revert h
  fun_induction r.run p ts with
  | case1 => intro h; cases h
  | case2 => intro h; cases h
  | case3 p r hr =>
    rintro ⟨⟩
    refine ⟨[], [], r, rfl, (List.append_nil _).symm, rfl, r.step_stop, fun hstop => ?_⟩
    obtain ⟨g, rfl⟩ := expected_eq_stop_iff.1 hstop
    exact (hr g rfl).elim
  | case4 p r t ts _ r' hstep ih =>
    intro h
    obtain ⟨before, after, last, rfl, hspell, rfl, hlast⟩ := ih h
    refine ⟨t :: before, after, last, rfl, ?_, ?_, hlast⟩
    · rw [hspell, spell_step hstep, List.append_assoc]
      rfl
    · rw [List.length_cons, Nat.add_assoc, Nat.add_comm 1]
  | case5 p r t ts hr hstep =>
    rintro ⟨⟩
    refine ⟨[], t :: ts, r, rfl, (List.append_nil _).symm, rfl, hstep, fun hstop => ?_⟩
    obtain ⟨g, rfl⟩ := expected_eq_stop_iff.1 hstop
    refine ⟨List.cons_ne_nil t ts, fun hts => ?_⟩
    obtain ⟨rfl, rfl⟩ := List.cons.inj hts
    exact hr g rfl rfl rfl

end Reader

/-- The tokens before the position of an error are `Viable`, and they stay so with just those tokens
next that the text of the error `Names`. The token found there is not one of them. -/
theorem parseStatement_refusal (ts : List Token) (e : Error) (h : parseStatement ts = .error e) :
    ∃ p expected found, e = .unexpected p expected found ∧
      p ≤ ts.length ∧ found = ts[p]?.getD .stop ∧
      Viable (ts.take p) ∧ .stop ∉ ts.take p ∧
      expected.text ∈
        ["identifier, negation or '('", "infix operator", "')'", "end of input"] ∧
      (∀ t, Viable (ts.take p ++ [t]) ↔ Names expected.text t) ∧ ¬ Names expected.text found ∧
      (expected.text = "end of input" →
        (∃ f : Formula, ts.take p = f.spell) ∧ (found ≠ .stop ∨ p + 1 < ts.length)) := by
  rw [parseStatement_eq_run] at h
  obtain ⟨before, after, r, rfl, hspell, rfl, hstep, hstop⟩ := Reader.exists_state_of_run_error h
  replace hspell : r.spell = before := hspell
  have htake : (before ++ after).take (0 + before.length) = before := by simp
  have hviable : Viable before := hspell ▸ r.viable_spell
  refine ⟨_, _, _, rfl, ?_⟩
  simp only [htake, names_text_iff, Reader.text_expected_eq_iff]
  refine ⟨by simp, ?_, hviable, hviable.stop_notMem, ?_, fun t => ?_, fun hfound => ?_,
    fun hexpected => ⟨?_, ?_⟩⟩
  · cases after <;> simp
  · cases r <;> simp [Reader.expected, Expected.text]
  · rw [← hspell, Reader.viable_spell_append_iff, Reader.exists_step_iff_admits]
  · obtain ⟨r', hr'⟩ := Reader.exists_step_iff_admits.2 hfound
    rw [hstep] at hr'
    cases hr'
  · obtain ⟨f, rfl⟩ := Reader.expected_eq_stop_iff.1 hexpected
    exact ⟨f, hspell.symm⟩
  · obtain ⟨hne, hne_stop⟩ := hstop hexpected
    obtain ⟨t, rest, rfl⟩ := List.exists_cons_of_ne_nil hne
    cases rest with
    | nil => exact .inl fun ht => hne_stop (congrArg (fun t => [t]) ht)
    | cons => exact .inr (by simp)

/-- After `not ( A and` an end marker cuts the input short, although more tokens follow. -/
theorem parseStatement_refusal_inner_stop :
    parseStatement
      [.sign .not, .sign .lparen, .var 'A', .sign (.connective .and), .stop, .var 'B'] =
      .error (.unexpected 4 .operand .stop) ∧
    ∀ t, Viable [.sign .not, .sign .lparen, .var 'A', .sign (.connective .and), t] ↔
      (∃ c, t = .var c) ∨ t = .sign .not ∨ t = .sign .lparen := by
  have h : parseStatement
      [.sign .not, .sign .lparen, .var 'A', .sign (.connective .and), .stop, .var 'B'] =
        .error (.unexpected 4 .operand .stop) := by
    rw [parseStatement_eq_run]
    rfl
  obtain ⟨p, expected, found, he, -, -, -, -, -, hnames, -⟩ := parseStatement_refusal _ _ h
  cases he
  exact ⟨h, fun t => (hnames t).trans names_text_iff⟩

end Entailment
