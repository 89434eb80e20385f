import Entailment.Proofs.Enumeration
import Entailment.Revision
import Entailment.Workbench

/-!
# What sessions preserve

A command that is refused changes nothing, and a question changes nothing. On a workbench the
commands for a formula leave it on top of the stack (`after_commands`), so that every argument can
be put together and is answered by `conclude` (`getLast?_runAll_conclude`). In a revision the
notation changes by registrations, and between `save` and `restore` it does not matter which
(`after_save_restore`).
-/

namespace Entailment

namespace Workbench

/-- Whether a reply says that the command has not been carried out. -/
def Reply.refuses : Reply → Bool
  | failure _ | tooFew => true
  | _ => false

/-- Whether a command only asks about what there is. -/
def Command.asks : Command → Bool
  | eval | check | vars | inspect | conclude => true
  | _ => false

variable {w : Workbench} {c : Command} {cs : List Command} {f : Formula} {fs : List Formula}
  {a : Argument}

theorem run_of_asks (h : c.asks = true) : (w.run c).2 = w := by
  have hask : ∀ question : Formula → Reply, (w.ask question).2 = w := by
    intro question
    unfold ask
    split <;> rfl
  cases c with
  | eval | check | vars | inspect | conclude => exact hask _
  | _ => cases h

theorem run_of_refuses (h : (w.run c).1.refuses = true) : (w.run c).2 = w := by
  cases c with
  | eval | check | vars | inspect | conclude => exact run_of_asks rfl
  | var | assign | unassign => cases h
  | not | binary | parse | dup | swap =>
    revert h
    unfold run
    dsimp only
    split <;> intro h <;> first | rfl | cases h

/-- Questions are answered one by one, in whatever order they come. -/
theorem runAll_of_asks (h : ∀ c ∈ cs, c.asks = true) :
    w.runAll cs = cs.map fun c => (w.run c).1 :=
  Session.replies_of_idle fun c hc => run_of_asks (h c hc)

/-! ### Putting formulas and arguments together -/

/-- The commands that put a formula together, its parts first. -/
def commands : Formula → List Command
  | .var c => [.var c]
  | .binary op l r => commands l ++ (commands r ++ [.binary op])
  | .not f => commands f ++ [.not]

theorem after_commands :
    Session.after run w (commands f) = { w with stack := f :: w.stack } := by
  induction f generalizing w with
  | var c => rfl
  | binary op l r ihl ihr =>
    rw [commands, Session.after_append, ihl, Session.after_append, ihr]
    rfl
  | not f ih =>
    rw [commands, Session.after_append, ih]
    rfl

theorem after_flatMap_commands :
    Session.after run w (fs.flatMap commands) = { w with stack := fs.reverse ++ w.stack } := by
  induction fs generalizing w with
  | nil => rfl
  | cons f fs ih =>
    rw [List.flatMap_cons, Session.after_append, after_commands, ih, List.reverse_cons,
      List.append_assoc]
    rfl

/-- The inference is on top of the stack and the premises lie below it, the first one lowest. -/
theorem run_conclude_iff :
    (w.run .conclude).1 = .argument a ↔ w.stack = a.inference :: a.premises.reverse := by
  unfold run ask
  cases hstack : w.stack with
  | nil => simp
  | cons f stack =>
    dsimp only [List.tail_cons]
    obtain ⟨ps, rfl⟩ : ∃ ps, stack = List.reverse ps := ⟨_, stack.reverse_reverse.symm⟩
    rw [List.reverse_reverse, List.cons.injEq, List.reverse_inj]
    obtain ⟨first, rest, inference⟩ := a
    cases ps with
    | nil => simp [Argument.ofPremises, Argument.premises]
    | cons p ps =>
      simp only [Argument.ofPremises, Argument.premises, Error.reply_ok, Reply.argument.injEq,
        Argument.mk.injEq, List.cons.injEq]
      rw [← and_assoc, and_comm]

/-- Every argument can be put together. -/
theorem getLast?_runAll_conclude (w : Workbench) (hw : w.stack = []) (a : Argument) :
    (w.runAll ((a.premises ++ [a.inference]).flatMap commands ++ [.conclude])).getLast? =
      some (.argument a) := by
  have hconclude : ((Session.after run w ((a.premises ++ [a.inference]).flatMap commands)).run
      .conclude).1 = .argument a := by
    rw [run_conclude_iff, after_flatMap_commands]
    simp [hw]
  rw [runAll, Session.replies_append, Session.replies, Session.replies, hconclude,
    List.getLast?_concat]

theorem run_check {stack : List Formula} (h : w.stack = f :: stack) :
    ∃ t, (w.run .check).1 = .tally t ∧ f.Reports t := by
  obtain ⟨t, ht, hreports⟩ := f.exists_check_eq
  refine ⟨t, ?_, hreports⟩
  unfold run ask
  simp only [h, ht, Error.reply_ok]

end Workbench

namespace Revision

/-- Whether a reply says that the command has not been carried out. -/
def Reply.refuses : Reply → Bool
  | failure _ | nothingSaved => true
  | _ => false

variable {r : Revision} {c : Command} {cs : List Command} {l : List (String × Sign)}

theorem run_of_refuses (h : (r.run c).1.refuses = true) : (r.run c).2 = r := by
  cases c with
  | insert | save => cases h
  | restore =>
    revert h
    unfold run
    dsimp only
    split <;> intro h
    · rfl
    · cases h
  | tokenize | parse | validate => rfl

theorem current_run (hinsert : ∀ s k, c ≠ .insert s k) (hrestore : c ≠ .restore) :
    (r.run c).2.current = r.current := by
  cases c with
  | insert s k => exact absurd rfl (hinsert s k)
  | restore => exact absurd rfl hrestore
  | _ => rfl

theorem saved_run (hsave : c ≠ .save) (hrestore : c ≠ .restore) :
    (r.run c).2.saved = r.saved := by
  cases c with
  | save => exact absurd rfl hsave
  | restore => exact absurd rfl hrestore
  | _ => rfl

theorem run_restore {n : Notation} {saved : List Notation} (h : r.saved = n :: saved) :
    (r.run .restore).2 = ⟨n, saved⟩ := by
  unfold run
  dsimp only
  rw [h]

/-- What is tried out between `save` and `restore` leaves no trace. -/
theorem after_save_restore (h : ∀ c ∈ cs, c ≠ .save ∧ c ≠ .restore) :
    Session.after run r (.save :: (cs ++ [.restore])) = r := by
  have hsaved : (Session.after run (r.run .save).2 cs).saved = r.current :: r.saved := by
    refine Session.after_of_preserves (P := fun q : Revision => q.saved = r.current :: r.saved)
      (fun c hc q hq => ?_) rfl
    rw [saved_run (h c hc).1 (h c hc).2, hq]
  rw [Session.after_cons, Session.after_append, Session.after_cons, Session.after_nil,
    run_restore hsaved]

theorem current_after_inserts :
    (Session.after run r (l.map fun p => .insert p.1 p.2)).current = r.current.insertMany l := by
  induction l generalizing r with
  | nil => rfl
  | cons p l ih => exact ih

end Revision

end Entailment
