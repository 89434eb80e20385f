import Entailment.Formula.Substitution
import Entailment.Proofs.CorrectPrefix

/-!
# Formulas put in for variables

Putting the spelling of a formula in for each variable of a token list commutes with reading it. The
two readings go side by side: where one reads a variable, the other one reads the spelling of its
formula and comes to the same state with formulas put in (`Reader.run_subst_of_step`). A token that
does not fit is refused in both (`Reader.exists_error_of_step_eq_none`), since a spelling begins
with a token that fits only where a variable does. Parentheses are put in around the same tokens
(`enclose_flatMap`), and the number of variables, which is another one afterwards, does not matter.
-/

namespace Entailment

/-- The spelling of `σ c` for a variable `c`, and the token itself for any other one. -/
def Token.subst (σ : Char → Formula) : Token → List Token
  | var c => (σ c).spell
  | sign s => [sign s]
  | stop => [stop]

/-- Puts formulas in for the variables of a frame. -/
def Frame.subst (σ : Char → Formula) : Frame → Frame
  | negation => negation
  | left => left
  | right l op => right (l.subst σ) op

/-- Puts formulas in for the variables of all that has been read. -/
def Reader.subst (σ : Char → Formula) : Reader → Reader
  | operand stack => operand (stack.map (Frame.subst σ))
  | operator l stack => operator (l.subst σ) (stack.map (Frame.subst σ))
  | close l op r stack => close (l.subst σ) op (r.subst σ) (stack.map (Frame.subst σ))
  | complete f => complete (f.subst σ)

variable {σ : Char → Formula} {f : Formula} {t : Token} {ts us : List Token} {p q : Nat}

theorem exists_spell_eq_cons (f : Formula) :
    ∃ t ts, f.spell = t :: ts ∧ Expected.operand.Admits t := by
  cases f with
  | var c => exact ⟨_, _, rfl, .inl ⟨c, rfl⟩⟩
  | binary op l r => exact ⟨_, _, rfl, .inr (.inr rfl)⟩
  | not f => exact ⟨_, _, rfl, .inr (.inl rfl)⟩

theorem Token.subst_ne_nil : t.subst σ ≠ [] := by
  cases t with
  | var c =>
    obtain ⟨t, ts, hspell, -⟩ := exists_spell_eq_cons (σ c)
    intro h
    exact absurd (hspell.symm.trans h) (List.cons_ne_nil t ts)
  | sign k => exact List.cons_ne_nil _ _
  | stop => exact List.cons_ne_nil _ _

theorem Token.stop_mem_subst_iff : .stop ∈ t.subst σ ↔ t = .stop := by
  cases t with
  | var c => exact iff_of_false Formula.stop_notMem_spell Token.noConfusion
  | sign k => simp [Token.subst]
  | stop => simp [Token.subst]

namespace Reader
variable {r r' : Reader} {stack : List Frame}

/-- A token that begins a formula fits where a variable does, and nowhere else. -/
theorem admits_var (h : r.expected.Admits t) (ht : Expected.operand.Admits t) (c : Char) :
    r.expected.Admits (.var c) := by
  cases r with
  | operand stack => exact .inl ⟨c, rfl⟩
  | _ =>
    rcases ht with ⟨d, rfl⟩ | rfl | rfl <;> simp [expected, Expected.Admits] at h

theorem subst_supply : (supply f stack).subst σ =
    supply (f.subst σ) (stack.map (Frame.subst σ)) := by
  induction stack generalizing f with
  | nil => rfl
  | cons frame stack ih =>
    cases frame with
    | negation => exact ih
    | left => rfl
    | right l op => rfl

@[simp] theorem expected_subst : (r.subst σ).expected = r.expected := by
  cases r <;> rfl

/-- Where one reader takes a token, the other one takes what has been put in for it. -/
theorem run_subst_of_step (h : r.step t = some r') :
    (r.subst σ).run p (t.subst σ ++ us) = (r'.subst σ).run (p + (t.subst σ).length) us := by
  revert h
  fun_cases r.step t with
  | case1 stack c =>
    rintro ⟨⟩
    rw [subst_supply]
    exact run_spell
  | case2 stack => rintro ⟨⟩; exact run_cons_of_step rfl
  | case3 stack => rintro ⟨⟩; exact run_cons_of_step rfl
  | case4 l stack op => rintro ⟨⟩; exact run_cons_of_step rfl
  | case5 l op r stack =>
    rintro ⟨⟩
    rw [subst_supply]
    exact run_cons_of_step rfl
  | case6 => intro h; cases h

theorem exists_error_of_step_eq_none (h : r.step t = none)
    (hstop : ∀ f, r = complete f → t = .stop → us ≠ []) :
    ∃ e, (r.subst σ).run p (t.subst σ ++ us) = .error e := by
  rw [step_eq_none_iff] at h
  have hcomplete : ∀ g, r.subst σ = complete g → ∃ f, r = complete f := by
    intro g hg
    have hexpected : (r.subst σ).expected = r.expected := expected_subst
    rw [hg] at hexpected
    exact expected_eq_stop_iff.1 hexpected.symm
  cases t with
  | var c =>
    obtain ⟨t, ts, hspell, ht⟩ := exists_spell_eq_cons (σ c)
    have hstep : (r.subst σ).step t = none := by
      rw [step_eq_none_iff, expected_subst]
      exact fun hadmits => h (admits_var hadmits ht c)
    refine ⟨.unexpected p (r.subst σ).expected t, ?_⟩
    show (r.subst σ).run p ((σ c).spell ++ us) = _
    rw [hspell]
    refine run_cons_of_step_eq_none hstep fun g _ ht' => ?_
    rw [ht'] at ht
    simp [Expected.Admits] at ht
  | sign k =>
    have hstep : (r.subst σ).step (.sign k) = none := by
      rw [step_eq_none_iff, expected_subst]
      exact h
    exact ⟨_, run_cons_of_step_eq_none hstep fun g _ hk => by cases hk⟩
  | stop =>
    refine ⟨_, run_cons_of_step_eq_none (r.subst σ).step_stop fun g hg _ => ?_⟩
    obtain ⟨f, hf⟩ := hcomplete g hg
    exact hstop f hf rfl

theorem toOption_run_subst (r : Reader) (ts : List Token) (p q : Nat) :
    ((r.subst σ).run q (ts.flatMap (Token.subst σ))).toOption =
      (r.run p ts).toOption.map (Formula.subst σ) := by
  fun_induction r.run p ts generalizing q with
  | case1 p f => rfl
  | case2 p f => rfl
  | case3 p r hr =>
    cases r with
    | complete f => exact absurd rfl (hr f)
    | _ => rfl
  | case4 p r t ts _ r' hstep ih =>
    rw [List.flatMap_cons, run_subst_of_step hstep]
    exact ih _
  | case5 p r t ts hr hstep =>
    have hstop : ∀ f, r = complete f → t = .stop → ts.flatMap (Token.subst σ) ≠ [] := by
      intro f hf ht hnil
      cases ts with
      | nil => exact hr f hf ht rfl
      | cons u us =>
        rw [List.flatMap_cons, List.append_eq_nil_iff] at hnil
        exact Token.subst_ne_nil hnil.1
    have herror : ∃ e, (r.subst σ).run q (t.subst σ ++ ts.flatMap (Token.subst σ)) = .error e :=
      exists_error_of_step_eq_none hstep hstop
    obtain ⟨e, he⟩ := herror
    rw [List.flatMap_cons, he]
    rfl

end Reader

/-! ### Statements -/

theorem toOption_parseStatement_subst (σ : Char → Formula) (ts : List Token) :
    (parseStatement (ts.flatMap (Token.subst σ))).toOption =
      (parseStatement ts).toOption.map (Formula.subst σ) := by
  rw [parseStatement_eq_run, parseStatement_eq_run]
  exact Reader.start.toOption_run_subst ts 0 0

theorem getLast?_flatMap_ne_stop (h : ts.getLast? ≠ some .stop) :
    (ts.flatMap (Token.subst σ)).getLast? ≠ some .stop := by
  rcases List.eq_nil_or_concat ts with rfl | ⟨w, t, rfl⟩
  · exact h
  · intro hlast
    rw [List.concat_eq_append] at h hlast
    rw [List.flatMap_append, List.flatMap_singleton, List.getLast?_append,
      List.getLast?_eq_some_getLast Token.subst_ne_nil, Option.some_or] at hlast
    have hstop : .stop ∈ t.subst σ := Option.some.inj hlast ▸ List.getLast_mem _
    obtain rfl := Token.stop_mem_subst_iff.1 hstop
    exact h List.getLast?_concat

theorem enclose_flatMap (σ : Char → Formula) (ts : List Token) :
    enclose (ts.flatMap (Token.subst σ)) = (enclose ts).flatMap (Token.subst σ) := by
  by_cases h : ts.getLast? = some .stop
  · obtain ⟨w, rfl⟩ := List.getLast?_eq_some_iff.1 h
    have hw : (w ++ [Token.stop]).flatMap (Token.subst σ) =
        w.flatMap (Token.subst σ) ++ [.stop] := by
      rw [List.flatMap_append]
      rfl
    rw [hw]
    simp [enclose, Token.subst]
  · unfold enclose
    rw [if_neg h, if_neg (getLast?_flatMap_ne_stop h)]
    simp [Token.subst]

theorem toOption_parse (ts : List Token) : (parse ts).toOption =
    (parseStatement ts).toOption.or (parseStatement (enclose ts)).toOption := by
  rw [parse_eq]
  cases parseStatement ts with
  | ok f => rfl
  | error e => cases parseStatement (enclose ts) <;> rfl

theorem toOption_parse_subst (σ : Char → Formula) (ts : List Token) :
    (parse (ts.flatMap (Token.subst σ))).toOption =
      (parse ts).toOption.map (Formula.subst σ) := by
  rw [toOption_parse, toOption_parse, enclose_flatMap, toOption_parseStatement_subst,
    toOption_parseStatement_subst]
  cases (parseStatement ts).toOption <;> rfl

theorem ok_and_error_of_toOption {x y : Except Error Formula} {g : Formula → Formula}
    (h : y.toOption = x.toOption.map g) :
    (∀ f, x = .ok f → y = .ok (g f)) ∧ ((∃ e, x = .error e) ↔ ∃ e, y = .error e) := by
  cases x with
  | ok f =>
    cases y with
    | ok f' =>
      obtain rfl : f' = g f := Option.some.inj h
      simp
    | error e => cases h
  | error e =>
    cases y with
    | ok f' => cases h
    | error e' => simp

/-- Putting formulas in for variables commutes with `parseStatement` and with `parse`, also where
they fail. -/
theorem parse_subst (σ : Char → Formula) (ts : List Token) :
    (∀ f, parseStatement ts = .ok f →
      parseStatement (ts.flatMap (Token.subst σ)) = .ok (f.subst σ)) ∧
    ((∃ e, parseStatement ts = .error e) ↔
      ∃ e, parseStatement (ts.flatMap (Token.subst σ)) = .error e) ∧
    (∀ f, parse ts = .ok f → parse (ts.flatMap (Token.subst σ)) = .ok (f.subst σ)) ∧
    ((∃ e, parse ts = .error e) ↔ ∃ e, parse (ts.flatMap (Token.subst σ)) = .error e) := by
  obtain ⟨hstatement, hstatement'⟩ := ok_and_error_of_toOption (toOption_parseStatement_subst σ ts)
  obtain ⟨hparse, hparse'⟩ := ok_and_error_of_toOption (toOption_parse_subst σ ts)
  exact ⟨hstatement, hstatement', hparse, hparse'⟩

/-- A bare operation stays one when its operands grow. A list with one variable is read only once;
with two of them in its place there is a second reading, and it does not help. -/
theorem parse_subst_bare :
    parse ([.var 'A', .sign (.connective .and), .var 'B'].flatMap (Token.subst fun c =>
        if c = 'A' then .binary .or (.var 'B') (.var 'C') else .not (.var c))) =
      .ok (.binary .and (.binary .or (.var 'B') (.var 'C')) (.not (.var 'B'))) ∧
    ∃ e, parse ([.sign .lparen, .var 'A'].flatMap (Token.subst fun c =>
        .binary .or (.var c) (.var c))) = .error e := by
  have hbare : parse [.var 'A', .sign (.connective .and), .var 'B'] =
      .ok (.binary .and (.var 'A') (.var 'B')) := parse_bare (.inl rfl)
  have hopen : ∃ e, parse [.sign .lparen, .var 'A'] = .error e := by
    simp only [parse_def, parseStatement_eq_run]
    exact ⟨_, rfl⟩
  exact ⟨(parse_subst _ _).2.2.1 _ hbare, (parse_subst _ _).2.2.2.1 hopen⟩

end Entailment
