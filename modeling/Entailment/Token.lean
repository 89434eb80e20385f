import Entailment.Formula.Basic
import Entailment.Text.Quoted

/-!
# Tokens

What the text of a formula is made of. A `Sign` is what a symbol of a notation may stand for; the
other tokens are variables and the marker that closes a token list. `Formula.spell` is the token
list that a formula stands for. The functions called `inspect` give the constructor forms of tokens
and formulas, which diagnostics show.
-/

namespace Entailment

/-- What a symbol may stand for. -/
inductive Sign where
  | connective (op : Connective)
  | not
  | lparen
  | rparen
deriving DecidableEq, Ord

/-- A token. `stop` marks the end of the input. -/
inductive Token where
  | var (name : Char)
  | sign (s : Sign)
  | stop
deriving DecidableEq, Ord

/-- The canonical spelling of a sign. -/
def Sign.text : Sign → String
  | connective op => op.word
  | not => "not"
  | lparen => "("
  | rparen => ")"

namespace Token

/-- The canonical spelling of a token. The end marker has none. -/
def text : Token → String
  | var c => String.singleton c
  | sign s => s.text
  | stop => ""

instance : ToString Token := ⟨text⟩

/-- Whether the token is a variable. -/
def isVar : Token → Bool
  | var _ => true
  | _ => false

/-- The canonical text of a token list: the spellings with single spaces between them, end markers
left out. -/
def render (ts : List Token) : String :=
  " ".intercalate ((ts.filter (· != stop)).map text)

end Token

/-- The tokens of a formula, with every binary operation in its own parentheses. -/
def Formula.spell : Formula → List Token
  | var c => [.var c]
  | binary op l r =>
    .sign .lparen :: (l.spell ++ .sign (.connective op) :: (r.spell ++ [.sign .rparen]))
  | not f => .sign .not :: f.spell

/-! ### Constructor forms -/

/-- The name under which a connective is shown. -/
def Connective.inspect : Connective → String
  | and => "And"
  | or => "Or"
  | implies => "Implication"
  | iff => "Iff"

/-- The name under which a sign is shown. -/
def Sign.inspect : Sign → String
  | connective op => op.inspect
  | not => "Not"
  | lparen => "LeftParen"
  | rparen => "RightParen"

/-- The constructor form of a variable. -/
def inspectVar (c : Char) : String := "Identifier(" ++ quoteChar c ++ ")"

/-- The constructor form of a token. -/
def Token.inspect : Token → String
  | var c => inspectVar c
  | sign s => s.inspect
  | stop => "EndOfInput"

/-- The constructor form of a formula. -/
def Formula.inspect : Formula → String
  | var c => inspectVar c
  | binary op l r => op.inspect ++ "(" ++ l.inspect ++ ", " ++ r.inspect ++ ")"
  | not f => "Not(" ++ f.inspect ++ ")"

end Entailment
