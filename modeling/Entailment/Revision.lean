import Entailment.Argument
import Entailment.Session

/-!
# Revising a notation

A session in which a notation is changed step by step and tried out on texts. Copies can be put
aside and taken up again.
-/

namespace Entailment

/-- The notation in use, and the copies put aside, the latest first. -/
structure Revision where
  current : Notation
  saved : List Notation := []

namespace Revision

/-- One step of a session. -/
inductive Command where
  | insert (symbol : String) (sign : Sign)
  | save
  | restore
  | tokenize (text : String)
  | parse (text : String)
  | validate (premises : List String) (inference : String)

/-- What a step answers. -/
inductive Reply where
  | table (n : Notation)
  | count (n : Nat)
  | tokens (ts : List Token)
  | formula (f : Formula)
  | verdict (valid : Bool)
  | failure (e : Error)
  /-- There is no copy to take up. -/
  | nothingSaved

/-- Carries out a command. Only `insert` and `restore` change the notation in use. -/
def run (r : Revision) : Command → Reply × Revision
  | .insert symbol sign =>
    let n := r.current.insert symbol sign
    (.table n, { r with current := n })
  | .save => (.count (r.saved.length + 1), { r with saved := r.current :: r.saved })
  | .restore =>
    match r.saved with
    | [] => (.nothingSaved, r)
    | n :: saved => (.table n, ⟨n, saved⟩)
  | .tokenize text => (Error.reply .failure .tokens (r.current.tokenize text), r)
  | .parse text => (Error.reply .failure .formula (r.current.parseFormula text), r)
  | .validate premises inference =>
    (Error.reply .failure .verdict (r.current.validate premises inference), r)

/-- Carries out commands in order and collects the replies. -/
def runAll (r : Revision) : List Command → List Reply := Session.replies run r

end Revision

end Entailment
