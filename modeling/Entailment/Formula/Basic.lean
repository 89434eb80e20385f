/-!
# Formulas

Formulas of classical propositional logic over one-character variables, the variables of a formula
in the order in which they are first met, and the canonical text of a formula. The derived orders
compare constructors first and then fields from left to right; the binary operations order by
their connective.
-/

namespace Entailment

/-- A binary connective. -/
inductive Connective where
  | and | or | implies | iff
deriving DecidableEq, Ord

/-- A propositional formula. -/
inductive Formula where
  | var (name : Char)
  | binary (op : Connective) (left right : Formula)
  | not (body : Formula)
deriving DecidableEq, Ord

/-- The canonical word for a connective. -/
def Connective.word : Connective → String
  | and => "and"
  | or => "or"
  | implies => "implies"
  | iff => "iff"

namespace Formula

/-- The names at the leaves, from left to right, each as often as it occurs. -/
def leaves : Formula → List Char
  | var c => [c]
  | binary _ l r => l.leaves ++ r.leaves
  | not f => f.leaves

/-- Puts the variables of the formula that `names` does not hold yet behind `names`, each once, in
the order in which they are met from left to right. -/
def collectVars (names : List Char) : Formula → List Char
  | var c => if c ∈ names then names else names ++ [c]
  | binary _ l r => r.collectVars (l.collectVars names)
  | not f => f.collectVars names

/-- The distinct variables, in the order in which they are first met from left to right. -/
def vars (f : Formula) : List Char := f.collectVars []

/-- The canonical text. Every binary operation stands in its own parentheses. -/
def text : Formula → String
  | var c => String.singleton c
  | binary op l r => "(" ++ l.text ++ " " ++ op.word ++ " " ++ r.text ++ ")"
  | not f => "not " ++ f.text

instance : ToString Formula := ⟨text⟩

end Formula

end Entailment
