import Entailment.Log

/-!
# Statements

Reading a token list as a formula, either exactly as written or with one missing outer pair of
parentheses filled in. The grammar has one token of lookahead and no precedences:

    statement  ::= expression stop
    expression ::= variable | 'not' expression | group
    group      ::= '(' expression connective expression ')'

A statement is read from left to right by one function for each rule. Each of them begins at a
position in the tokens and comes to one behind it. Running off the end of the tokens counts as
finding an end marker.
-/

namespace Entailment

namespace Statement

section
variable (ts : List Token)

/-- The token at a position, or the end marker where there is none. -/
def head (cursor : Nat) : Token := ts.getD cursor .stop

/-- A position behind `cursor`, but not past the end of the tokens. -/
structure Next (cursor : Nat) where
  position : Nat
  lt : cursor < position
  le : position ≤ ts.length

variable {ts} {cursor : Nat}

theorem lt_length_of_head (h : head ts cursor ≠ .stop) : cursor < ts.length := by
  refine Nat.not_le.1 fun hle => h ?_
  rw [head, List.getD_eq_getElem?_getD, List.getElem?_eq_none hle, Option.getD_none]

namespace Next

/-- The position of a token that is no end marker, plus one. -/
def advance (cursor : Nat) (h : head ts cursor ≠ .stop) : Next ts cursor :=
  ⟨cursor + 1, Nat.lt_succ_self cursor, lt_length_of_head h⟩

/-- A position behind `c` is behind all positions before `c`. -/
def behind {c : Nat} (next : Next ts c) (h : cursor < c) : Next ts cursor :=
  ⟨next.position, Nat.lt_trans h next.lt, next.le⟩

theorem length_sub_lt (next : Next ts cursor) : ts.length - next.position < ts.length - cursor :=
  Nat.sub_lt_sub_left (Nat.lt_of_lt_of_le next.lt next.le) next.lt

end Next

variable (ts) (cursor)

/-- Refuses the token at a position. -/
def unexpected {α : Type} (expected : Expected) : Run α :=
  .fail (.unexpected cursor expected (head ts cursor))

/-- Takes a sign. -/
def expect (s : Sign) (expected : Expected) : Run (Next ts cursor) :=
  if h : head ts cursor = .sign s then return .advance cursor (by simp [h])
  else unexpected ts cursor expected

/-- Takes a connective. -/
def infixOperator : Run (Connective × Next ts cursor) :=
  match h : head ts cursor with
  | .sign (.connective op) => return (op, .advance cursor (by simp [h]))
  | _ => unexpected ts cursor .operator

mutual

/-- Reads an expression. -/
def expression (cursor : Nat) : Run (Formula × Next ts cursor) := do
  .report (.expression cursor (head ts cursor))
  match h : head ts cursor with
  | .var c => return (.var c, .advance cursor (by simp [h]))
  | .sign .not =>
    let next : Next ts cursor := .advance cursor (by simp [h])
    let (f, last) ← expression next.position
    return (.not f, last.behind next.lt)
  | .sign .lparen => group cursor
  | .sign .rparen | .sign (.connective _) | .stop => unexpected ts cursor .operand
termination_by (ts.length - cursor, 1)
decreasing_by
  · exact .left _ _ next.length_sub_lt
  · exact .right _ Nat.zero_lt_one

/-- Reads an operation in parentheses. -/
def group (cursor : Nat) : Run (Formula × Next ts cursor) := do
  .report (.group cursor)
  let c₁ ← expect ts cursor .lparen .lparen
  let (l, c₂) ← expression c₁.position
  let (op, c₃) ← infixOperator ts c₂.position
  let (r, c₄) ← expression c₃.position
  let c₅ ← expect ts c₄.position .rparen .rparen
  return (.binary op l r, (((c₅.behind c₄.lt).behind c₃.lt).behind c₂.lt).behind c₁.lt)
termination_by (ts.length - cursor, 0)
decreasing_by
  · exact .left _ _ c₁.length_sub_lt
  · exact .left _ _ ((c₃.behind c₂.lt).behind c₁.lt).length_sub_lt

end

end

end Statement

/-- Reads a token list exactly as written, with a report. Behind the expression there may be nothing
but one end marker. -/
def parseStatementRun (ts : List Token) : Run Formula := do
  let (f, next) ← Statement.expression ts 0
  if Statement.head ts next.position = .stop ∧ ts.length ≤ next.position + 1 then return f
  else Statement.unexpected ts next.position .stop

/-- Reads a token list exactly as written. -/
def parseStatement (ts : List Token) : Except Error Formula := (parseStatementRun ts).result

/-- The events of `parseStatement`. -/
def parseStatementLog (ts : List Token) : List Event := (parseStatementRun ts).log

/-- Puts one pair of parentheses around everything before a closing end marker. -/
def enclose (ts : List Token) : List Token :=
  let body := if ts.getLast? = some .stop then ts.dropLast else ts
  .sign .lparen :: (body ++ [.sign .rparen, .stop])

/-- Encloses a token list in parentheses if it has at least two variables. Any other list comes
back unchanged. -/
def fillParens (ts : List Token) : List Token :=
  if ts.countP Token.isVar ≤ 1 then ts else enclose ts

/-- Reads a token list, and once more with parentheses filled in if it cannot be read as written
and they change anything. If both readings fail the first error counts, since it speaks of the
given tokens. -/
def parseRun (ts : List Token) : Run Formula :=
  (parseStatementRun ts).handle fun e =>
    if fillParens ts = ts then .fail e
    else do
      .report (.retry e)
      (parseStatementRun (fillParens ts)).handle fun e' => do
        .report (.retryFailed e')
        .fail e

/-- Reads a token list, and once more with parentheses filled in if that is needed. -/
def parse (ts : List Token) : Except Error Formula := (parseRun ts).result

/-- The events of `parse`. -/
def parseLog (ts : List Token) : List Event := (parseRun ts).log

theorem parse_def (ts : List Token) : parse ts =
    match parseStatement ts with
    | .ok f => .ok f
    | .error e =>
      if fillParens ts = ts then .error e
      else match parseStatement (fillParens ts) with
        | .ok f => .ok f
        | .error _ => .error e := by
  rw [parse, parseRun, Run.result_handle]
  simp only [parseStatement]
  cases (parseStatementRun ts).result with
  | ok f => rfl
  | error e =>
    dsimp only
    split
    · rfl
    · rw [Run.result_bind, Run.result_handle]
      cases (parseStatementRun (fillParens ts)).result <;> rfl

theorem parseLog_def (ts : List Token) : parseLog ts =
    parseStatementLog ts ++
      match parseStatement ts with
      | .ok _ => []
      | .error e =>
        if fillParens ts = ts then []
        else .retry e :: parseStatementLog (fillParens ts) ++
          match parseStatement (fillParens ts) with
          | .ok _ => []
          | .error e' => [.retryFailed e'] := by
  rw [parseLog, parseRun, Run.log_handle]
  simp only [parseStatement, parseStatementLog]
  cases (parseStatementRun ts).result with
  | ok f => rfl
  | error e =>
    dsimp only
    split
    · rfl
    · rw [Run.log_bind, Run.result_report]
      dsimp only
      rw [Run.log_handle]
      cases (parseStatementRun (fillParens ts)).result <;> rfl

end Entailment
