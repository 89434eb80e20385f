import Entailment.Check
import Entailment.Notation.Scan
import Entailment.Reader.Statement

/-!
# Arguments

Premises and an inference. The argument is valid when the implication from all its premises together
to its inference is a tautology. Given as texts in a notation, premises are read in order before
anything else is looked at; then there has to be one; the inference is read last. A text that cannot
be read is an error and never an invalid argument.
-/

namespace Entailment

/-- Premises, of which there is at least one, and an inference. -/
structure Argument where
  first : Formula
  rest : List Formula
  inference : Formula
deriving DecidableEq

namespace Argument

/-- The argument from `premises` to `inference`. -/
def ofPremises : List Formula → Formula → Except Error Argument
  | [], _ => .error .noPremises
  | p :: ps, inference => .ok ⟨p, ps, inference⟩

/-- All premises, in order. -/
def premises (a : Argument) : List Formula := a.first :: a.rest

/-- The conjunction of all premises, grouped to the left. -/
def premise (a : Argument) : Formula := a.rest.foldl (.binary .and) a.first

/-- The implication that has to hold. -/
def implication (a : Argument) : Formula := .binary .implies a.premise a.inference

/-- Examines the argument under every assignment of its variables. -/
def check (a : Argument) : Except Error Tally := a.implication.check

/-- Whether the argument is valid. -/
def isValid (a : Argument) : Except Error Bool := do
  let t ← a.check
  return t.holds

end Argument

/-! ### Arguments in writing -/

namespace Notation

/-- Reads a text as a formula, with a report. -/
def formulaRun (n : Notation) (text : String) : Run Formula := do
  let ts ← n.tokenizeRun text
  parseRun ts

/-- The formula that a text stands for. -/
def parseFormula (n : Notation) (text : String) : Except Error Formula := (n.formulaRun text).result

/-- Reads premises, the first of which has the number `number`. Premises behind one that cannot be
read are not looked at. -/
def premisesRun (n : Notation) (number : Nat) : List String → Run (List Formula)
  | [] => return []
  | text :: texts => do
    let f ← (n.formulaRun text).reportError (.premise number text)
    let fs ← n.premisesRun (number + 1) texts
    return f :: fs

/-- Reads an argument, with a report. -/
def argumentRun (n : Notation) (premises : List String) (inference : String) : Run Argument := do
  match ← n.premisesRun 1 premises with
  | [] => .fail .noPremises
  | p :: ps =>
    let c ← (n.formulaRun inference).reportError (.inference inference)
    return ⟨p, ps, c⟩

/-- The argument that texts stand for. -/
def argument (n : Notation) (premises : List String) (inference : String) :
    Except Error Argument := (n.argumentRun premises inference).result

/-- The events of `argument`. -/
def argumentLog (n : Notation) (premises : List String) (inference : String) : List Event :=
  (n.argumentRun premises inference).log

/-- Reads an argument and checks it, with a report. -/
def validateRun (n : Notation) (premises : List String) (inference : String) : Run Bool := do
  let a ← n.argumentRun premises inference
  let t ← a.implication.checkRun
  .report (.verdict a.implication t.holds)
  return t.holds

/-- Whether the argument that texts stand for is valid. -/
def validate (n : Notation) (premises : List String) (inference : String) : Except Error Bool :=
  (n.validateRun premises inference).result

/-- The events of `validate`. -/
def validateLog (n : Notation) (premises : List String) (inference : String) : List Event :=
  (n.validateRun premises inference).log

variable {n : Notation} {text : String} {texts : List String} {inference : String} {k : Nat}

theorem parseFormula_eq : n.parseFormula text = n.tokenize text >>= parse := Run.result_bind

theorem parseFormula_eq_bind : n.parseFormula = fun text => n.tokenize text >>= parse :=
  funext fun _ => parseFormula_eq

theorem result_premisesRun : (n.premisesRun k texts).result = texts.mapM n.parseFormula := by
  induction texts generalizing k with
  | nil => rfl
  | cons text texts ih =>
    simp only [premisesRun, List.mapM_cons, Run.result_bind, Run.result_reportError, ih]
    rfl

theorem argument_eq : n.argument texts inference =
    texts.mapM n.parseFormula >>= fun
      | [] => .error .noPremises
      | p :: ps => n.parseFormula inference >>= fun c => .ok ⟨p, ps, c⟩ := by
  rw [argument, argumentRun, Run.result_bind, result_premisesRun]
  refine bind_congr fun ps => ?_
  cases ps with
  | nil => rfl
  | cons p ps =>
    rw [Run.result_bind, Run.result_reportError]
    rfl

theorem validate_eq :
    n.validate texts inference = n.argument texts inference >>= Argument.isValid := by
  rw [validate, validateRun, Run.result_bind]
  refine bind_congr fun a => ?_
  rw [Run.result_bind]
  rfl

end Notation

end Entailment
