import Entailment.Argument
import Entailment.Session

/-!
# A workbench for formulas

A session in which formulas are put together on a stack, evaluated under an assignment that can be
changed, and joined into arguments.
-/

namespace Entailment

/-- Formulas under construction, the top of the stack first, and the assignment in use. -/
structure Workbench where
  stack : List Formula := []
  env : Assignment := ∅

namespace Workbench

/-- One step of a session. -/
inductive Command where
  | var (name : Char)
  | not
  | binary (op : Connective)
  | parse (text : String)
  | dup
  | swap
  | assign (name : Char) (value : Bool)
  | unassign (name : Char)
  | eval
  | check
  | vars
  | inspect
  | conclude

/-- What a step answers. -/
inductive Reply where
  /-- The formula now on top of the stack. -/
  | top (f : Formula)
  /-- The number of formulas on the stack. -/
  | size (n : Nat)
  | env (a : Assignment)
  | value (b : Bool)
  | tally (t : Tally)
  | vars (names : List Char)
  | inspection (f : Formula)
  | argument (a : Argument)
  | failure (e : Error)
  /-- The stack holds too few formulas for the command. -/
  | tooFew

/-- Puts a formula on top of `stack`. -/
def push (w : Workbench) (f : Formula) (stack : List Formula) : Reply × Workbench :=
  (.top f, { w with stack := f :: stack })

/-- Answers a question about the top of the stack. -/
def ask (w : Workbench) (question : Formula → Reply) : Reply × Workbench :=
  match w.stack with
  | [] => (.tooFew, w)
  | f :: _ => (question f, w)

/-- Carries out a command. The upper of two formulas is the right side of a connective, and the top
of the stack is the inference of an argument whose premises lie below it. -/
def run (w : Workbench) : Command → Reply × Workbench
  | .var c => w.push (.var c) w.stack
  | .not =>
    match w.stack with
    | f :: stack => w.push (.not f) stack
    | [] => (.tooFew, w)
  | .binary op =>
    match w.stack with
    | r :: l :: stack => w.push (.binary op l r) stack
    | _ => (.tooFew, w)
  | .parse text =>
    match Notation.standard.parseFormula text with
    | .ok f => w.push f w.stack
    | .error e => (.failure e, w)
  | .dup =>
    match w.stack with
    | f :: stack => (.size (stack.length + 2), { w with stack := f :: f :: stack })
    | [] => (.tooFew, w)
  | .swap =>
    match w.stack with
    | f :: g :: stack => w.push g (f :: stack)
    | _ => (.tooFew, w)
  | .assign c b =>
    let env := w.env.insert c b
    (.env env, { w with env })
  | .unassign c =>
    let env := w.env.erase c
    (.env env, { w with env })
  | .eval => w.ask fun f => Error.reply .failure .value (f.eval w.env)
  | .check => w.ask fun f => Error.reply .failure .tally f.check
  | .vars => w.ask fun f => .vars f.vars
  | .inspect => w.ask .inspection
  | .conclude =>
    w.ask fun f =>
      Error.reply .failure .argument (Argument.ofPremises w.stack.tail.reverse f)

/-- Carries out commands in order and collects the replies. -/
def runAll (w : Workbench) : List Command → List Reply := Session.replies run w

end Workbench

end Entailment
