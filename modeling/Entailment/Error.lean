import Entailment.Token

/-!
# Errors

Why a text, a token list, an evaluation or an argument is refused, and the message for each.
-/

namespace Entailment

/-- What the grammar wanted at the place where a token list was refused. -/
inductive Expected where
  | stop
  | operand
  | lparen
  | operator
  | rparen
deriving DecidableEq

/-- The description of what was expected. -/
def Expected.text : Expected → String
  | stop => "end of input"
  | operand => "identifier, negation or '('"
  | lparen => "'('"
  | operator => "infix operator"
  | rparen => "')'"

/-- The causes of failure. -/
inductive Error where
  /-- No symbol and no letter begins the rest `fragment` of the text, `offset` bytes into it. -/
  | unreadable (fragment : String) (offset : Nat)
  /-- The token at `position` does not fit the grammar. -/
  | unexpected (position : Nat) (expected : Expected) (found : Token)
  /-- The assignment has no value for the variable. -/
  | unbound (name : Char)
  /-- An argument without premises. -/
  | noPremises
deriving DecidableEq

namespace Error

/-- The message for an error. -/
def message : Error → String
  | unreadable fragment offset =>
    "unrecognised input " ++ quoteText fragment ++ " at offset " ++ toString offset
  | unexpected position expected found =>
    "expected " ++ expected.text ++ " at token " ++ toString position ++ ", found " ++ found.inspect
  | unbound name => "no value assigned to variable " ++ String.singleton name
  | noPremises => "an argument needs at least one premise"

instance : ToString Error := ⟨message⟩

/-- What is answered to a result: `answer` to a value and `failure` to an error. -/
def reply {α ρ : Type} (failure : Error → ρ) (answer : α → ρ) : Except Error α → ρ
  | .ok a => answer a
  | .error e => failure e

@[simp] theorem reply_ok {α ρ : Type} {failure : Error → ρ} {answer : α → ρ} {a : α} :
    reply failure answer (.ok a) = answer a := rfl

@[simp] theorem reply_error {α ρ : Type} {failure : Error → ρ} {answer : α → ρ} {e : Error} :
    reply failure answer (.error e) = failure e := rfl

end Error

end Entailment
