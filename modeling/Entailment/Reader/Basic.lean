import Entailment.Log

/-!
# Reading token by token

A reader takes a statement one token after the other. What has been opened and not yet closed is
kept on a stack of frames, innermost first; the reader's state says which kind of token has to
follow. Running off the end of the tokens counts as finding an end marker.
-/

namespace Entailment

/-- Something opened before an operand that is still to be read. -/
inductive Frame where
  /-- After `not`: the operand will be negated. -/
  | negation
  /-- After `(`: the operand will be the left side. -/
  | left
  /-- After `( left op`: the operand will be the right side. -/
  | right (left : Formula) (op : Connective)
deriving DecidableEq

/-- What the reader waits for, and the frames around it. -/
inductive Reader where
  | operand (stack : List Frame)
  | operator (left : Formula) (stack : List Frame)
  | close (left : Formula) (op : Connective) (right : Formula) (stack : List Frame)
  | complete (f : Formula)
deriving DecidableEq

namespace Reader

/-- Nothing read yet. -/
def start : Reader := operand []

/-- The state after an operand has been read: negations around it are applied, and the frame that
remains says what comes next. -/
def supply (f : Formula) : List Frame → Reader
  | [] => complete f
  | .negation :: stack => supply (.not f) stack
  | .left :: stack => operator f stack
  | .right l op :: stack => close l op f stack

/-- The state after one more token, if the token fits. -/
def step : Reader → Token → Option Reader
  | operand stack, .var c => some (supply (.var c) stack)
  | operand stack, .sign .not => some (operand (.negation :: stack))
  | operand stack, .sign .lparen => some (operand (.left :: stack))
  | operator l stack, .sign (.connective op) => some (operand (.right l op :: stack))
  | close l op r stack, .sign .rparen => some (supply (.binary op l r) stack)
  | _, _ => none

/-- What has to follow. -/
def expected : Reader → Expected
  | operand _ => .operand
  | operator .. => .operator
  | close .. => .rparen
  | complete _ => .stop

/-- Reads on from a state; `position` counts the tokens before. One end marker may close the
tokens. -/
def run (position : Nat) : Reader → List Token → Except Error Formula
  | complete f, [] => .ok f
  | complete f, [.stop] => .ok f
  | r, [] => .error (.unexpected position r.expected .stop)
  | r, t :: ts =>
    match r.step t with
    | some r' => run (position + 1) r' ts
    | none => .error (.unexpected position r.expected t)

/-- An expression that begins at `position` with the token `head`. -/
structure Visit where
  position : Nat
  head : Token
deriving DecidableEq

/-- The events of a visit. -/
def Visit.log (v : Visit) : List Event :=
  .expression v.position v.head :: if v.head = .sign .lparen then [.group v.position] else []

/-- The expression that begins with the next token, if the state waits for one. -/
def entered (position : Nat) (head : Token) : Reader → List Visit
  | operand _ => [⟨position, head⟩]
  | _ => []

/-- The expressions that begin while the reader goes on from a state, in order. -/
def visits (position : Nat) (r : Reader) : List Token → List Visit
  | [] => r.entered position .stop
  | t :: ts =>
    match r.step t with
    | some r' => r.entered position t ++ visits (position + 1) r' ts
    | none => r.entered position t

end Reader

end Entailment
