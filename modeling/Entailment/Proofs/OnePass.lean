import Entailment.Reader.Spelling
import Entailment.Reader.Statement

/-!
# Rules and states

The functions for the rules of the grammar go back to their callers with what they have read, while
a reader keeps what is open on its own stack and takes one token after the other. Both do the same:
they report the same expressions, read the same formulas and refuse the same tokens
(`parseStatementRun_eq`). So there is one pass, although the functions call each other.
-/

namespace Entailment

open Statement

namespace Reader
variable {ts : List Token} {t : Token} {cursor p : Nat} {r r' : Reader} {f l : Formula}
  {op : Connective} {stack : List Frame}

theorem visits_cons_of_step (h : r.step t = some r') :
    r.visits p (t :: ts) = r.entered p t ++ r'.visits (p + 1) ts := by
  rw [visits, h]

theorem visits_cons_of_step_eq_none (h : r.step t = none) :
    r.visits p (t :: ts) = r.entered p t := by
  rw [visits, h]

theorem step_stop (r : Reader) : r.step .stop = none := by
  cases r <;> rfl

/-- What a reader reports and finds from a position on. -/
def runFrom (ts : List Token) (cursor : Nat) (r : Reader) : Run Formula where
  log := (r.visits cursor (ts.drop cursor)).flatMap Visit.log
  result := r.run cursor (ts.drop cursor)

/-- Reports the expression that begins with the next token, if the state waits for one. -/
def announce (ts : List Token) (cursor : Nat) (r : Reader) : Run Unit where
  log := (r.entered cursor (head ts cursor)).flatMap Visit.log
  result := .ok ()

theorem head_eq_headD (ts : List Token) (cursor : Nat) :
    head ts cursor = (ts.drop cursor).headD .stop := by
  rw [head, List.getD_eq_getElem?_getD, List.headD_eq_head?_getD, List.head?_drop]

theorem drop_eq_cons (h : head ts cursor ≠ .stop) :
    ts.drop cursor = head ts cursor :: ts.drop (cursor + 1) := by
  have hlt := lt_length_of_head h
  rw [head_eq_headD, List.drop_eq_getElem_cons hlt, List.headD_cons]

theorem runFrom_of_step (h : r.step (head ts cursor) = some r') :
    r.runFrom ts cursor = r.announce ts cursor >>= fun _ => r'.runFrom ts (cursor + 1) := by
  have hdrop : ts.drop cursor = _ := drop_eq_cons fun hstop => by
    rw [hstop, step_stop] at h
    cases h
  refine Run.ext ?_ ?_
  · rw [runFrom, hdrop, visits_cons_of_step h, List.flatMap_append]
    rfl
  · rw [runFrom, hdrop, run_cons_of_step h]
    rfl

theorem runFrom_of_step_eq_none (h : r.step (head ts cursor) = none)
    (hopen : ∀ f, r ≠ complete f) : r.runFrom ts cursor =
      r.announce ts cursor >>= fun _ => unexpected ts cursor r.expected := by
  have hhead := head_eq_headD ts cursor
  cases hdrop : ts.drop cursor with
  | nil =>
    rw [hdrop, List.headD_nil] at hhead
    refine Run.ext ?_ ?_
    · rw [runFrom, hdrop, visits, announce, hhead, Run.log_bind]
      exact (List.append_nil _).symm
    · rw [runFrom, hdrop, run, unexpected, hhead]
      · rfl
      · exact hopen
  | cons t rest =>
    rw [hdrop, List.headD_cons] at hhead
    rw [hhead] at h
    refine Run.ext ?_ ?_
    · rw [runFrom, hdrop, visits_cons_of_step_eq_none h, announce, hhead, Run.log_bind]
      exact (List.append_nil _).symm
    · rw [runFrom, hdrop, run_cons_of_step_eq_none h fun f hf => absurd hf (hopen f), unexpected,
        hhead]
      rfl

theorem runFrom_complete : (complete f).runFrom ts cursor =
    if head ts cursor = .stop ∧ ts.length ≤ cursor + 1 then return f
    else unexpected ts cursor .stop := by
  have hhead := head_eq_headD ts cursor
  have hlength : ts.length - cursor = (ts.drop cursor).length := List.length_drop.symm
  cases hdrop : ts.drop cursor with
  | nil =>
    rw [hdrop, List.length_nil] at hlength
    rw [hdrop, List.headD_nil] at hhead
    rw [if_pos ⟨hhead, by omega⟩, runFrom, hdrop]
    rfl
  | cons t rest =>
    rw [hdrop, List.length_cons] at hlength
    rw [hdrop, List.headD_cons] at hhead
    rw [runFrom, hdrop, visits_cons_of_step_eq_none rfl, hhead]
    split
    case isTrue hclosed =>
      obtain rfl := hclosed.1
      obtain rfl := List.length_eq_zero_iff.1 (show rest.length = 0 by omega)
      rfl
    case isFalse hopen =>
      rw [run_cons_of_step_eq_none rfl, unexpected, hhead]
      · rfl
      · rintro - - rfl rfl
        exact hopen ⟨rfl, by simp at hlength; omega⟩

theorem runFrom_operator : (operator l stack).runFrom ts cursor =
    infixOperator ts cursor >>= fun x =>
      (operand (.right l x.1 :: stack)).runFrom ts x.2.position := by
  rw [infixOperator]
  split
  case h_1 op h => exact runFrom_of_step (congrArg (step _) h)
  case h_2 h =>
    refine runFrom_of_step_eq_none ?_ fun _ => Reader.noConfusion
    cases hhead : head ts cursor with
    | sign s =>
      cases s with
      | connective op => exact absurd hhead (h op)
      | _ => rfl
    | _ => rfl

theorem runFrom_close : (close l op f stack).runFrom ts cursor =
    expect ts cursor .rparen .rparen >>= fun next =>
      (supply (.binary op l f) stack).runFrom ts next.position := by
  rw [expect]
  split
  case isTrue h => exact runFrom_of_step (h ▸ rfl)
  case isFalse h =>
    refine runFrom_of_step_eq_none ?_ fun _ => Reader.noConfusion
    cases hhead : head ts cursor with
    | sign s =>
      cases s with
      | rparen => exact absurd hhead h
      | _ => rfl
    | _ => rfl

theorem announce_of_ne (h : head ts cursor ≠ .sign .lparen) :
    (operand stack).announce ts cursor = .report (.expression cursor (head ts cursor)) := by
  refine Run.ext ?_ rfl
  rw [announce, entered, List.flatMap_singleton, Visit.log, if_neg h]
  rfl

theorem announce_of_eq (h : head ts cursor = .sign .lparen) :
    (operand stack).announce ts cursor =
      .report (.expression cursor (head ts cursor)) >>= fun _ => .report (.group cursor) := by
  refine Run.ext ?_ rfl
  rw [announce, entered, List.flatMap_singleton, Visit.log, if_pos h]
  rfl

theorem runFrom_operand_of_eq_none (h : (operand stack).step (head ts cursor) = none) :
    (operand stack).runFrom ts cursor =
      .report (.expression cursor (head ts cursor)) >>= fun _ => unexpected ts cursor .operand := by
  have hparen : head ts cursor ≠ .sign .lparen := fun hparen => by
    rw [hparen] at h
    cases h
  rw [runFrom_of_step_eq_none h fun _ => Reader.noConfusion, announce_of_ne hparen]
  rfl

/-- Where an operand is wanted the reader goes through the tokens of an expression and comes back to
what was open before. -/
theorem runFrom_operand : (operand stack).runFrom ts cursor =
    expression ts cursor >>= fun x => (supply x.1 stack).runFrom ts x.2.position := by
  induction hn : ts.length - cursor using Nat.strongRecOn generalizing cursor stack with
  | _ n ih =>
  subst hn
  have ih (next : Next ts cursor) (stack : List Frame) :
      (operand stack).runFrom ts next.position = expression ts next.position >>= fun x =>
        (supply x.1 stack).runFrom ts x.2.position := ih _ next.length_sub_lt rfl
  rw [expression]
  split
  case h_1 c h =>
    have hstep : (operand stack).step (head ts cursor) = some (supply (.var c) stack) :=
      congrArg (step _) h
    rw [runFrom_of_step hstep, announce_of_ne (by simp [h])]
    rfl
  case h_2 h =>
    have hoperand := ih (.advance cursor (by simp [h])) (.negation :: stack)
    have hstep : (operand stack).step (head ts cursor) = some (operand (.negation :: stack)) :=
      congrArg (step _) h
    rw [runFrom_of_step hstep, announce_of_ne (by simp [h]), bind_assoc]
    refine bind_congr fun _ => hoperand.trans ?_
    rw [bind_assoc]
    rfl
  case h_3 h =>
    have hstep : (operand stack).step (head ts cursor) = some (operand (.left :: stack)) :=
      congrArg (step _) h
    rw [runFrom_of_step hstep, announce_of_eq h, bind_assoc, bind_assoc, group, bind_assoc, expect,
      dif_pos h, pure_bind]
    refine bind_congr fun _ => bind_congr fun _ => ?_
    let c₁ : Next ts cursor := .advance cursor (by simp [h])
    refine (ih c₁ _).trans ?_
    rw [bind_assoc]
    refine bind_congr fun x => ?_
    obtain ⟨l, c₂⟩ := x
    rw [supply, runFrom_operator, bind_assoc]
    refine bind_congr fun x => ?_
    obtain ⟨op, c₃⟩ := x
    refine (ih ((c₃.behind c₂.lt).behind c₁.lt) _).trans ?_
    rw [bind_assoc]
    refine bind_congr fun x => ?_
    obtain ⟨r, c₄⟩ := x
    rw [supply, runFrom_close, bind_assoc]
    rfl
  all_goals
    -- no other token begins an expression
    rename_i h
    rw [runFrom_operand_of_eq_none (congrArg (step _) h), bind_assoc]
    rfl

end Reader

theorem parseStatementRun_eq (ts : List Token) :
    parseStatementRun ts = Reader.start.runFrom ts 0 := by
  rw [Reader.start, Reader.runFrom_operand]
  exact bind_congr fun _ => Reader.runFrom_complete.symm

theorem parseStatement_eq_run (ts : List Token) : parseStatement ts = Reader.start.run 0 ts :=
  congrArg Run.result (parseStatementRun_eq ts)

theorem parseStatementLog_eq (ts : List Token) :
    parseStatementLog ts = (Reader.start.visits 0 ts).flatMap Reader.Visit.log :=
  congrArg Run.log (parseStatementRun_eq ts)

/-- Unlike the functions for the rules, a reader can be evaluated by `decide`. -/
theorem parse_eq_run : parse = fun ts =>
    match Reader.start.run 0 ts with
    | .ok f => .ok f
    | .error e =>
      if fillParens ts = ts then .error e
      else match Reader.start.run 0 (fillParens ts) with
        | .ok f => .ok f
        | .error _ => .error e := by
  funext ts
  have h := parse_def ts
  rw [parseStatement_eq_run, parseStatement_eq_run] at h
  exact h

end Entailment
