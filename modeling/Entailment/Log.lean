import Entailment.Evaluation

/-!
# Log lines

What reading and checking report along the way. A `Run` is an operation with its report: it goes on
from a value to the next operation, it ends with an error where one fails, and the events reported
up to there are kept. `result` forgets the report (`Run.result_bind`).
-/

namespace Entailment

/-- How much detail a line is. -/
inductive Level where
  | info | debug | trace
deriving DecidableEq, Ord

/-- Something worth a line. -/
inductive Event where
  /-- A token was read `offset` bytes into a text. -/
  | token (offset : Nat) (t : Token)
  /-- Nothing can be read `offset` bytes into a text. -/
  | unreadable (rest : String) (offset : Nat)
  /-- An expression begins. -/
  | expression (position : Nat) (head : Token)
  /-- A parenthesised operation begins. -/
  | group (position : Nat)
  /-- A statement is read once more with parentheses filled in. -/
  | retry (e : Error)
  /-- That did not help. -/
  | retryFailed (e : Error)
  /-- A formula was evaluated. -/
  | row (r : Row)
  /-- A formula was examined exhaustively. -/
  | tally (f : Formula) (t : Tally)
  /-- The premise with this number, counted from one, cannot be read. -/
  | premise (number : Nat) (text : String) (e : Error)
  /-- The inference cannot be read. -/
  | inference (text : String) (e : Error)
  /-- An argument was found valid or invalid. -/
  | verdict (implication : Formula) (valid : Bool)
deriving DecidableEq

namespace Event

/-- The level of an event. -/
def level : Event → Level
  | token .. | expression .. | group .. | row .. => .trace
  | verdict .. => .info
  | _ => .debug

/-- The text of the line for an event. -/
def message : Event → String
  | token offset t => "token at " ++ toString offset ++ ": " ++ t.inspect
  | unreadable rest offset =>
    "No token matches " ++ quoteText rest ++ " at offset " ++ toString offset
  | expression position head => "expression at " ++ toString position ++ ": " ++ head.inspect
  | group position => "group at " ++ toString position
  | retry e => "Parse failed (" ++ e.message ++ "); retrying with enclosing parentheses"
  | retryFailed e => "Retry failed as well: " ++ e.message
  | row r => r.env.inspect ++ " => " ++ toString r.value
  | tally f t =>
    f.text ++ ": " ++ toString f.vars.length ++ " variable(s), " ++ toString t.examined ++
      " assignment(s) examined, holds: " ++ toString t.holds
  | premise number text e =>
    "Premise " ++ toString number ++ " (" ++ quoteText text ++ "): " ++ e.message
  | inference text e => "Inference (" ++ quoteText text ++ "): " ++ e.message
  | verdict f valid => f.text ++ " => " ++ if valid then "valid" else "invalid"

/-- The line for an event, with its level. -/
def line (e : Event) : Level × String := (e.level, e.message)

/-- Whether a line begins with the text `w`. -/
def Begins (w : String) (line : Level × String) : Prop := w.toList <+: line.2.toList

instance (w : String) (line : Level × String) : Decidable (Begins w line) :=
  inferInstanceAs (Decidable (_ <+: _))

/-- The events that are shown when lines up to `max` are wanted. -/
def upTo (max : Level) (l : List Event) : List Event :=
  l.filter fun e => (compare e.level max).isLE

end Event

/-- An operation that reports events and may fail. -/
@[ext] structure Run (α : Type) where
  log : List Event
  result : Except Error α

namespace Run

instance : Monad Run where
  pure a := ⟨[], .ok a⟩
  bind x f :=
    match x.result with
    | .ok a =>
      let y := f a
      ⟨x.log ++ y.log, y.result⟩
    | .error e => ⟨x.log, .error e⟩

/-- Reports one event. -/
def report (e : Event) : Run Unit := ⟨[e], .ok ()⟩

/-- Has a result without any report. -/
def quiet {α : Type} (result : Except Error α) : Run α := ⟨[], result⟩

/-- Fails without any report. -/
def fail {α : Type} (e : Error) : Run α := quiet (.error e)

/-- Goes on with `handler` where `x` fails. -/
def handle {α : Type} (x : Run α) (handler : Error → Run α) : Run α :=
  match x.result with
  | .ok _ => x
  | .error e =>
    let y := handler e
    ⟨x.log ++ y.log, y.result⟩

/-- Reports the error where `x` fails. -/
def reportError {α : Type} (x : Run α) (event : Error → Event) : Run α :=
  x.handle fun e => do
    report (event e)
    fail e

variable {α β : Type} {x : Run α} {f : α → Run β} {g : α → β} {handler : Error → Run α}
  {event : Error → Event} {l : List Event} {a : α} {e : Error}

@[simp] theorem result_pure : (pure a : Run α).result = .ok a := rfl

@[simp] theorem log_pure : (pure a : Run α).log = [] := rfl

@[simp] theorem result_report {event : Event} : (report event).result = .ok () := rfl

@[simp] theorem log_report {event : Event} : (report event).log = [event] := rfl

@[simp] theorem log_quiet {r : Except Error α} : (quiet r).log = [] := rfl

@[simp] theorem result_fail : (fail e : Run α).result = .error e := rfl

@[simp] theorem log_fail : (fail e : Run α).log = [] := rfl

@[simp] theorem result_bind : (x >>= f).result = x.result >>= fun a => (f a).result := by
  show (match x.result with | .ok a => _ | .error e => _ : Run β).result = _
  cases x.result <;> rfl

theorem log_bind : (x >>= f).log =
    x.log ++ match x.result with | .ok a => (f a).log | .error _ => [] := by
  show (match x.result with | .ok a => _ | .error e => _ : Run β).log = _
  cases x.result with
  | ok a => rfl
  | error e => exact (List.append_nil _).symm

@[simp] theorem log_bind_pure : (x >>= fun a => pure (g a)).log = x.log := by
  rw [log_bind]
  cases x.result <;> exact List.append_nil _

theorem mk_ok_bind : ((⟨l, .ok a⟩ : Run α) >>= f) = ⟨l ++ (f a).log, (f a).result⟩ := rfl

theorem mk_ok_bind_pure : ((⟨l, .ok a⟩ : Run α) >>= fun a => pure (g a)) = ⟨l, .ok (g a)⟩ :=
  congrArg (Run.mk · _) (List.append_nil l)

instance : LawfulMonad Run := LawfulMonad.mk' Run
  (fun x => by
    show (x >>= pure) = x
    refine Run.ext ?_ ?_
    · rw [log_bind]
      cases x.result <;> exact List.append_nil _
    · rw [result_bind]
      cases x.result <;> rfl)
  (fun a f => rfl)
  (fun x f g => by
    refine Run.ext ?_ ?_
    · rw [log_bind, log_bind, log_bind, result_bind]
      cases x.result with
      | error e => simp [bind, Except.bind]
      | ok a =>
        show _ ++ (f a).log ++ _ = _ ++ (f a >>= g).log
        rw [log_bind, List.append_assoc]
        rfl
    · simp only [result_bind]
      cases x.result <;> rfl)

theorem result_handle : (x.handle handler).result =
    match x.result with | .ok a => .ok a | .error e => (handler e).result := by
  rw [handle]
  cases h : x.result with
  | ok a => exact h
  | error e => rfl

theorem log_handle : (x.handle handler).log =
    x.log ++ match x.result with | .ok _ => [] | .error e => (handler e).log := by
  rw [handle]
  cases x.result with
  | ok a => exact (List.append_nil _).symm
  | error e => rfl

@[simp] theorem result_reportError : (x.reportError event).result = x.result := by
  rw [reportError, result_handle]
  cases x.result <;> rfl

theorem log_reportError : (x.reportError event).log =
    x.log ++ match x.result with | .ok _ => [] | .error e => [event e] := by
  rw [reportError, log_handle]
  cases x.result <;> rfl

end Run

end Entailment
