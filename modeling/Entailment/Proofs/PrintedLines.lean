import Entailment.Log

/-!
# Telling lines apart

A line is a text with a level and no longer an event. The events that speak of a place or of an
error still can be told from their lines, since each kind has an opening of its own, with which no
other line begins (`begins_iff`). A line about a formula or an assignment begins with that.
-/

namespace Entailment.Event

/-- The text with which the line for an event begins, if that depends on the kind of the event
only. -/
def opening : Event → Option String
  | token .. => some "token at "
  | unreadable .. => some "No token matches "
  | expression .. => some "expression at "
  | group .. => some "group at "
  | retry .. => some "Parse failed ("
  | retryFailed .. => some "Retry failed as well: "
  | premise .. => some "Premise "
  | inference .. => some "Inference ("
  | row .. | tally .. | verdict .. => none

/-- All openings. -/
def openings : List String :=
  ["token at ", "No token matches ", "expression at ", "group at ", "Parse failed (",
    "Retry failed as well: ", "Premise ", "Inference ("]

variable {w w' : String} {x : Event}

theorem mem_openings (h : x.opening = some w) : w ∈ openings := by
  cases x <;> cases h <;> decide

theorem eq_of_isPrefixOf :
    ∀ w ∈ openings, ∀ w' ∈ openings, w.toList.isPrefixOf w'.toList → w = w' := by
  decide +kernel

theorem eq_of_begins (hw : w ∈ openings) (hw' : w' ∈ openings) (h : w.toList <+: w'.toList) :
    w = w' :=
  eq_of_isPrefixOf w hw w' hw' (List.isPrefixOf_iff_prefix.2 h)

theorem exists_message_eq (h : x.opening = some w) : ∃ rest, x.message = w ++ rest := by
  unfold message
  cases x <;> cases h <;> simp only [String.append_assoc] <;> exact ⟨_, rfl⟩

/-! ### Lines without an opening -/

/-- The text of a formula is a variable, or it begins with a parenthesis or a small letter. -/
theorem text_cases (f : Formula) :
    (∃ c, f.text.toList = [c]) ∨ ∃ c rest, f.text.toList = c :: rest ∧ c ∈ ['(', 'n'] := by
  cases f with
  | var c => exact .inl ⟨c, String.toList_singleton c⟩
  | binary op l r =>
    refine .inr ⟨'(', (l.text ++ " " ++ op.word ++ " " ++ r.text ++ ")").toList, ?_, by decide⟩
    simp only [Formula.text, String.append_assoc, String.toList_append]
    rfl
  | not f =>
    refine .inr ⟨'n', ("ot " ++ f.text).toList, ?_, by decide⟩
    simp only [Formula.text, String.toList_append]
    rfl

theorem opening_cases (hw : w ∈ openings) :
    ∃ c d rest, w.toList = c :: d :: rest ∧ c ∉ ['\x7b', '(', 'n'] ∧ d ∉ [' ', ':'] := by
  simp only [openings, List.mem_cons, List.not_mem_nil, or_false] at hw
  rcases hw with rfl | rfl | rfl | rfl | rfl | rfl | rfl | rfl <;>
    exact ⟨_, _, _, rfl, by decide, by decide⟩

theorem not_prefix_text_append {f : Formula} {d : Char} {cs : List Char} (hw : w ∈ openings)
    (hd : d ∈ [' ', ':']) : ¬ w.toList <+: f.text.toList ++ d :: cs := by
  obtain ⟨c', d', rest, heq, hc', hd'⟩ := opening_cases hw
  rw [heq]
  rcases text_cases f with ⟨c, hf⟩ | ⟨c, more, hf, hc⟩
  · rw [hf, List.singleton_append, List.cons_prefix_cons, List.cons_prefix_cons]
    rintro ⟨-, rfl, -⟩
    exact hd' hd
  · rw [hf, List.cons_append, List.cons_prefix_cons]
    rintro ⟨rfl, -⟩
    exact hc' (List.mem_cons_of_mem _ hc)

theorem not_begins_of_opening_eq_none (hw : w ∈ openings) (h : x.opening = none) :
    ¬ Begins w x.line := by
  unfold Begins line message
  cases x with
  | row r =>
    obtain ⟨c, d, rest, heq, hc, -⟩ := opening_cases hw
    simp only [Assignment.inspect, String.append_assoc, heq,
      String.toList_append, String.reduceToList, List.cons_append, List.cons_prefix_cons]
    rintro ⟨rfl, -⟩
    exact hc (by decide)
  | tally f t =>
    simp only [String.append_assoc, String.toList_append,
      String.reduceToList, List.cons_append]
    exact not_prefix_text_append hw (by decide)
  | verdict f valid =>
    simp only [String.append_assoc, String.toList_append,
      String.reduceToList, List.cons_append]
    exact not_prefix_text_append hw (by decide)
  | _ => cases h

theorem begins_iff (hw : w ∈ openings) : Begins w x.line ↔ x.opening = some w := by
  cases h : x.opening with
  | none => exact iff_of_false (not_begins_of_opening_eq_none hw h) nofun
  | some w' =>
    obtain ⟨rest, hrest⟩ := exists_message_eq h
    have hprefix : w'.toList <+: x.message.toList := by
      rw [hrest, String.toList_append]
      exact List.prefix_append ..
    constructor
    · intro hbegins
      rcases List.prefix_or_prefix_of_prefix hbegins hprefix with hle | hle
      · rw [eq_of_begins hw (mem_openings h) hle]
      · rw [eq_of_begins (mem_openings h) hw hle]
    · rintro ⟨⟩
      exact hprefix

end Entailment.Event
