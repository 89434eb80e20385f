import Entailment.Proofs.Lexemes
import Mathlib.Control.Monad.Basic

/-!
# What comes before an unreadable character

A segment does not depend on what follows it, apart from reaching as far as it can: in a text that
is cut off behind the segment the same one is taken (`next?_of_cut`). What has been read of a text
is therefore read in the same way on its own (`scan_read`).
-/

namespace Entailment

namespace Notation
variable {n : Notation} {cs ds : List Char} {s : Segment} {e : Entry}

theorem lookup_of_cut (h : n.lookup cs = some e) (he : e.symbol <+: ds) (hds : ds <+: cs) :
    n.lookup ds = some e := by
  obtain ⟨hmem, -, hmax⟩ := lookup_eq_some_iff.1 h
  exact lookup_eq_some_iff.2 ⟨hmem, he, fun x hx hxds => hmax x hx (hxds.trans hds)⟩

theorem lookup_eq_none_of_cut (h : n.lookup cs = none) (hds : ds <+: cs) : n.lookup ds = none :=
  lookup_eq_none_iff.2 fun e he heds => lookup_eq_none_iff.1 h e he (heds.trans hds)

theorem takeWhile_of_cut {p : Char → Bool} (h : cs.takeWhile p <+: ds) (hds : ds <+: cs) :
    ds.takeWhile p = cs.takeWhile p := by
  induction cs generalizing ds with
  | nil => rw [List.prefix_nil.1 hds]
  | cons c cs ih =>
    cases ds with
    | nil => exact (List.prefix_nil.1 h).symm
    | cons d ds =>
      obtain ⟨rfl, hds'⟩ := List.cons_prefix_cons.1 hds
      by_cases hd : p d = true
      · rw [List.takeWhile_cons_of_pos hd] at h ⊢
        rw [List.takeWhile_cons_of_pos hd, ih (List.cons_prefix_cons.1 h).2 hds']
      · rw [List.takeWhile_cons_of_neg hd, List.takeWhile_cons_of_neg hd]

theorem next?_of_cut (h : n.next? cs = some s) (hs : s.text <+: ds) (hds : ds <+: cs) :
    n.next? ds = some s := by
  cases ds with
  | nil => exact absurd (List.prefix_nil.1 hs) s.text_ne
  | cons d ds =>
    cases cs with
    | nil => cases h
    | cons c cs =>
      obtain ⟨rfl, -⟩ := List.cons_prefix_cons.1 hds
      rw [next?] at h ⊢
      split at h
      · rename_i hblank
        cases h
        simp only [hblank, dif_pos, takeWhile_of_cut hs hds]
      · rename_i hblank
        rw [dif_neg hblank]
        split at h
        · rename_i e he
          cases h
          rw [lookup_of_cut he hs hds]
        · rename_i he
          rw [lookup_eq_none_of_cut he hds]
          exact h

/-- What has been read of a text is cut into the same segments on its own, and nothing is left. -/
theorem scan_read (n : Notation) (cs : List Char) :
    n.scan (n.scan cs).read = ⟨(n.scan cs).segments, []⟩ := by
  fun_induction n.scan cs with
  | case1 cs h => exact scan_of_next?_eq_none rfl
  | case2 cs s h _ r ih =>
    have hprefix : s.text ++ r.read <+: cs :=
      ⟨r.unread, by rw [List.append_assoc, read_append_unread, append_drop_of_next? h]⟩
    have hnext := next?_of_cut h (List.prefix_append s.text r.read) hprefix
    show n.scan (s.text ++ r.read) = ⟨s :: r.segments, []⟩
    rw [scan_of_next? hnext, List.drop_left, ih]

/-- A text that cannot be read splits at the first character with which nothing can be done. The
text before it can be read on its own, as the `lexemes` that are reported before the failure. -/
theorem tokenize_unreadable (n : Notation) (text : String) (e : Error)
    (h : n.tokenize text = .error e) :
    ∃ (before fragment : String) (lexemes : List (Nat × Token)),
      e = .unreadable fragment before.utf8ByteSize ∧ text = before ++ fragment ∧
      (∃ c cs, fragment.toList = c :: cs ∧ ¬ Blank c ∧ ¬ ('A' ≤ c ∧ c ≤ 'Z')) ∧
      (∀ s, s.toList <+: fragment.toList → n.get? s = none) ∧
      n.tokenizeLog text = lexemes.map (fun l => .token l.1 l.2) ++
        [.unreadable fragment before.utf8ByteSize] ∧
      n.tokenizeLog before = lexemes.map (fun l => .token l.1 l.2) ∧
      n.tokenize before = .ok (lexemes.map (·.2) ++ [.stop]) ∧
      (n.tokenizeLog text).map Event.line =
        lexemes.map (fun l =>
          (.trace, "token at " ++ toString l.1 ++ ": " ++ l.2.inspect)) ++
        [(.debug, "No token matches " ++ quoteText fragment ++ " at offset " ++
          toString before.utf8ByteSize)] ∧
      (n.tokenizeLog before).map Event.line = lexemes.map fun l =>
        (.trace, "token at " ++ toString l.1 ++ ": " ++ l.2.inspect) := by
  obtain ⟨before, hbefore⟩ : ∃ before : String, before.toList = (n.scan text.toList).read :=
    ⟨_, String.toList_ofList⟩
  have hsplit := n.read_append_unread text.toList
  have hstuck := n.next?_unread text.toList
  cases hunread : (n.scan text.toList).unread with
  | nil =>
    rw [tokenize_eq, (Scan.result_of_unread_nil hunread).1] at h
    cases h
  | cons c cs =>
    obtain ⟨hresult, hlog⟩ := Scan.result_of_unread_cons hunread
    rw [← hbefore, utf8Length_toList] at hresult hlog
    rw [tokenize_eq, hresult] at h
    cases h
    rw [hunread] at hsplit hstuck
    obtain ⟨hblank, hcapital, hno⟩ := next?_eq_none hstuck
    -- the scan of the text before the failure is that of the whole text with nothing left over
    have hscan : n.scan before.toList = ⟨(n.scan text.toList).segments, []⟩ := by
      rw [hbefore, scan_read]
    have hlexemes : (n.scan before.toList).lexemes = (n.scan text.toList).lexemes := by
      rw [hscan]; rfl
    have hnil : (n.scan before.toList).unread = [] := by rw [hscan]
    obtain ⟨hresult', hlog'⟩ := Scan.result_of_unread_nil hnil
    rw [hlexemes] at hresult' hlog'
    have hlines := Scan.map_line_of_unread_cons hunread
    have hlines' := Scan.map_line_of_unread_nil hnil
    rw [← hbefore, utf8Length_toList] at hlines
    rw [hlexemes] at hlines'
    refine ⟨before, String.ofList (c :: cs), (n.scan text.toList).lexemes, rfl, ?_,
      ⟨c, cs, String.toList_ofList, hblank, hcapital⟩, ?_, hlog, hlog', hresult', hlines, hlines'⟩
    · rw [← String.toList_inj, String.toList_append, String.toList_ofList, hbefore, hsplit]
    · rwa [String.toList_ofList]

/-- Behind an arrow of three bytes there is a letter that cannot be read. -/
theorem tokenize_unreadable_lowercase :
    standard.tokenize " A → b∧" = .error (.unreadable "b∧" 7) ∧
      ∃ lexemes : List (Nat × Token),
        standard.tokenizeLog " A → " = lexemes.map (fun l => .token l.1 l.2) ∧
        standard.tokenize " A → " = .ok (lexemes.map (·.2) ++ [.stop]) := by
  have h : standard.tokenize " A → b∧" = .error (.unreadable "b∧" 7) := by decide +kernel
  obtain ⟨before, fragment, lexemes, he, htext, -, -, -, hlog, hread, -⟩ :=
    tokenize_unreadable _ _ _ h
  obtain ⟨rfl, -⟩ := Error.unreadable.inj he
  have hbefore : before = " A → " := by
    have hchars : before.toList ++ "b∧".toList = " A → ".toList ++ "b∧".toList := by
      rw [← String.toList_append, ← htext]
      decide
    exact String.toList_inj.1 (List.append_cancel_right hchars)
  subst hbefore
  exact ⟨h, lexemes, hlog, hread⟩

end Notation

end Entailment
