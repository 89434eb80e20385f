import Entailment.Proofs.CanonicalText
import Entailment.Proofs.Lexemes
import Mathlib.Control.Monad.Basic

/-!
# Texts with blanks between them

A symbol without blanks that begins in a text ends there, whatever follows behind a blank: so the
same symbol is the longest one (`lookup_append`), and the same lexeme is next (`next?_append`). The
tokens of two texts with blanks between them are therefore those of the first and those of the
second. Blanks at the end of the first text run on into those behind it, so that the segments at the
seam differ; the comparison is one of readings, which take blanks one at a time (`reads_append`).
-/

namespace Entailment

namespace Scan
variable {s : Scan} {ts : List Token} {e : Error} {o p : Nat} {fragment : String}

theorem result_eq_ok_iff : s.result = .ok (ts ++ [.stop]) ↔ s.unread = [] ∧ s.tokens = ts := by
  unfold result
  cases s.unread with
  | nil => simp
  | cons c cs => simp

theorem result_eq_error_iff : s.result = .error e ↔ ∃ c cs, s.unread = c :: cs ∧
    e = .unreadable (String.ofList (c :: cs)) (utf8Length s.read) := by
  unfold result
  cases s.unread with
  | nil => simp
  | cons c cs =>
    constructor
    · intro h
      exact ⟨c, cs, rfl, (Except.error.inj h).symm⟩
    · rintro ⟨_, _, ⟨⟩, rfl⟩
      rfl

theorem resultFrom_of_ok (h : s.result = .ok ts) : s.resultFrom o = .ok ts := by
  unfold result at h
  unfold resultFrom
  cases hunread : s.unread with
  | nil => rwa [hunread] at h
  | cons c cs => rw [hunread] at h; cases h

theorem resultFrom_of_error (h : s.result = .error (.unreadable fragment p)) :
    s.resultFrom o = .error (.unreadable fragment (o + p)) := by
  obtain ⟨c, cs, hunread, he⟩ := result_eq_error_iff.1 h
  cases he
  unfold resultFrom
  rw [hunread]

end Scan

namespace Notation
variable {n : Notation} {as cs : List Char} {c : Char} {e : Entry} {s : Segment} {t : Token}
  {o : Nat} {r : Except Error (List Token)}

/-! ### What follows behind a blank -/

theorem prefix_append_iff (hn : n.BlankFree) (he : e ∈ n.entries)
    (hcs : ∀ c ∈ cs.head?, isBlank c = true) : e.symbol <+: as ++ cs ↔ e.symbol <+: as := by
  constructor
  · intro h
    have hlen := length_le_of_mem_entries hn he h hcs
    exact List.prefix_of_prefix_length_le h (List.prefix_append as cs) hlen
  · intro h
    exact h.trans (List.prefix_append as cs)

theorem lookup_append (hn : n.BlankFree) (hcs : ∀ c ∈ cs.head?, isBlank c = true) :
    n.lookup (as ++ cs) = n.lookup as := by
  cases h : n.lookup as with
  | none =>
    refine lookup_eq_none_iff.2 fun e he hpre => ?_
    exact lookup_eq_none_iff.1 h e he ((prefix_append_iff hn he hcs).1 hpre)
  | some e =>
    obtain ⟨he, hpre, hmax⟩ := lookup_eq_some_iff.1 h
    refine lookup_eq_some_iff.2 ⟨he, (prefix_append_iff hn he hcs).2 hpre, fun x hx hxpre => ?_⟩
    exact hmax x hx ((prefix_append_iff hn hx hcs).1 hxpre)

theorem next?_append (hn : n.BlankFree) (hcs : ∀ c ∈ cs.head?, isBlank c = true)
    (hc : isBlank c = false) : n.next? (c :: (as ++ cs)) = n.next? (c :: as) := by
  have hlookup : n.lookup (c :: as ++ cs) = n.lookup (c :: as) := lookup_append hn hcs
  rw [List.cons_append] at hlookup
  simp [next?, hc, hlookup]

theorem token?_eq_none_of_blank (hc : isBlank c = true) (h : n.next? (c :: as) = some s) :
    s.token? = none := by
  rw [next?, dif_pos hc] at h
  cases h
  rfl

/-! ### Reading on -/

theorem map_append_append (ts us : List Token) (r : Except Error (List Token)) :
    r.map (ts ++ us ++ ·) = (r.map (us ++ ·)).map (ts ++ ·) := by
  cases r with
  | error e => rfl
  | ok vs => exact congrArg Except.ok (List.append_assoc ts us vs)

theorem reads_append_of_next? (hn : n.BlankFree) (hcs : ∀ c ∈ cs.head?, isBlank c = true)
    (h : n.next? as = some s)
    (hr : Reads n.get? (o + utf8Length s.text) (as.drop s.text.length ++ cs) r) :
    Reads n.get? o (as ++ cs) (r.map (s.token?.toList ++ ·)) := by
  have hsplit := append_drop_of_next? h
  rcases next?_eq_some h with ⟨htoken, hblank⟩ | ⟨t, htoken, -⟩
  · rw [← hsplit, List.append_assoc, htoken, Option.toList_none, map_nil_append]
    exact .blanks hblank hr
  · cases as with
    | nil => cases h
    | cons c as =>
      have hc : isBlank c = false := by
        rw [← Bool.not_eq_true]
        intro hc
        rw [token?_eq_none_of_blank hc h] at htoken
        cases htoken
      have hnext : n.next? (c :: as ++ cs) = some s := (next?_append hn hcs hc).trans h
      have hdrop : (c :: as ++ cs).drop s.text.length = (c :: as).drop s.text.length ++ cs :=
        List.drop_append_of_le_length (prefix_of_next? h).length_le
      exact reads_of_next? hnext (hdrop ▸ hr)

/-- What has been read of a text is read in the same way when more follows behind a blank. -/
theorem reads_append (hn : n.BlankFree) (hcs : ∀ c ∈ cs.head?, isBlank c = true)
    (hr : Reads n.get? (o + utf8Length (n.scan as).read) ((n.scan as).unread ++ cs) r) :
    Reads n.get? o (as ++ cs) (r.map ((n.scan as).tokens ++ ·)) := by
  induction as using Notation.scan.induct n generalizing o with
  | case1 as h =>
    rw [scan_of_next?_eq_none h] at hr ⊢
    show Reads n.get? o (as ++ cs) (r.map ([] ++ ·))
    rw [map_nil_append]
    exact hr
  | case2 as s h _ ih =>
    rw [scan_of_next? h, Scan.read_cons, utf8Length_append, ← Nat.add_assoc] at hr
    have hstep := reads_append_of_next? hn hcs h (ih hr)
    rw [scan_of_next? h, Scan.tokens_cons, map_append_append]
    exact hstep

variable {a w b fragment : String} {ts : List Token} {p : Nat}

theorem head?_blank (hw : w ≠ "") (hblank : ∀ c ∈ w.toList, Blank c) :
    ∀ c ∈ (w.toList ++ cs).head?, isBlank c = true := by
  obtain ⟨x, xs, hx⟩ := exists_toList_eq_cons hw
  intro c hc
  rw [hx] at hc hblank
  obtain rfl : x = c := Option.some.inj hc
  exact isBlank_iff.2 (hblank x List.mem_cons_self)

theorem tokenize_append_of_ok (hn : n.BlankFree) (hw : w ≠ "") (hblank : ∀ c ∈ w.toList, Blank c)
    (h : n.tokenize a = .ok (ts ++ [.stop])) :
    n.tokenize (a ++ w ++ b) =
      ((n.scan b.toList).resultFrom (a ++ w).utf8ByteSize).map (ts ++ ·) := by
  obtain ⟨hunread, rfl⟩ := Scan.result_eq_ok_iff.1 h
  have hread : (n.scan a.toList).read = a.toList := by
    have hsplit := n.read_append_unread a.toList
    rwa [hunread, List.append_nil] at hsplit
  have hb := n.reads_scan b.toList (a ++ w).utf8ByteSize
  rw [tokenize_eq_iff, String.toList_append, String.toList_append, List.append_assoc]
  refine reads_append hn (head?_blank hw hblank) ?_
  rw [hunread, hread, List.nil_append]
  refine .blanks (fun c hc => isBlank_iff.2 (hblank c hc)) ?_
  rwa [utf8Length_toList, utf8Length_toList, Nat.zero_add, ← String.utf8ByteSize_append]

theorem tokenize_append_of_error (hn : n.BlankFree) (hw : w ≠ "")
    (hblank : ∀ c ∈ w.toList, Blank c) (h : n.tokenize a = .error (.unreadable fragment p)) :
    n.tokenize (a ++ w ++ b) = .error (.unreadable (fragment ++ w ++ b) p) := by
  obtain ⟨c, cs, hunread, he⟩ := Scan.result_eq_error_iff.1 h
  obtain ⟨rfl, rfl⟩ := Error.unreadable.inj he
  have hhead : ∀ x ∈ (w.toList ++ b.toList).head?, isBlank x = true := head?_blank hw hblank
  have hstuck := n.next?_unread a.toList
  rw [hunread] at hstuck
  have hc : isBlank c = false := by
    rw [← Bool.not_eq_true, isBlank_iff]
    exact (next?_eq_none hstuck).1
  -- what could not be read stays unreadable with blanks behind it
  rw [← next?_append hn hhead hc] at hstuck
  have hfragment : String.ofList (c :: (cs ++ (w.toList ++ b.toList))) =
      String.ofList (c :: cs) ++ w ++ b := by
    rw [← String.toList_inj]
    simp
  have hrest : Reads n.get? (0 + utf8Length (n.scan a.toList).read)
      ((n.scan a.toList).unread ++ (w.toList ++ b.toList))
      (.error (.unreadable (String.ofList (c :: cs) ++ w ++ b)
        (utf8Length (n.scan a.toList).read))) := by
    rw [hunread, Nat.zero_add, ← hfragment]
    exact reads_of_next?_eq_none hstuck
  rw [tokenize_eq_iff, String.toList_append, String.toList_append, List.append_assoc]
  exact reads_append hn hhead hrest

theorem tokenize_cases (n : Notation) (text : String) :
    (∃ ts, n.tokenize text = .ok (ts ++ [.stop])) ∨
      ∃ fragment p, n.tokenize text = .error (.unreadable fragment p) := by
  cases h : (n.scan text.toList).unread with
  | nil => exact .inl ⟨_, Scan.result_eq_ok_iff.2 ⟨h, rfl⟩⟩
  | cons c cs => exact .inr ⟨_, _, Scan.result_eq_error_iff.2 ⟨c, cs, h, rfl⟩⟩

/-- Where no symbol holds a blank, blanks between two texts keep them apart: the tokens of both come
one behind the other, and an error of either one is that of the whole, with its `offset` and
`fragment` as they are there. -/
theorem tokenize_append_blanks :
    standard.BlankFree ∧
    ∀ (n : Notation) (a w b : String), n.BlankFree → w ≠ "" → (∀ c ∈ w.toList, Blank c) →
      ((∃ ts, n.tokenize a = .ok (ts ++ [.stop])) ∨
        ∃ fragment offset, n.tokenize a = .error (.unreadable fragment offset)) ∧
      (∀ ts, n.tokenize a = .ok (ts ++ [.stop]) →
        (∀ us, n.tokenize b = .ok us → n.tokenize (a ++ w ++ b) = .ok (ts ++ us)) ∧
        ∀ fragment offset, n.tokenize b = .error (.unreadable fragment offset) →
          n.tokenize (a ++ w ++ b) =
            .error (.unreadable fragment (offset + (a ++ w).utf8ByteSize))) ∧
      ∀ fragment offset, n.tokenize a = .error (.unreadable fragment offset) →
        n.tokenize (a ++ w ++ b) = .error (.unreadable (fragment ++ w ++ b) offset) := by
  refine ⟨compatible_standard.blankFree, fun n a w b hn hw hblank => ⟨n.tokenize_cases a,
    fun ts ha => ⟨fun us hb => ?_, fun fragment offset hb => ?_⟩, fun fragment offset ha => ?_⟩⟩
  · rw [tokenize_append_of_ok hn hw hblank ha, Scan.resultFrom_of_ok hb]
    rfl
  · rw [tokenize_append_of_ok hn hw hblank ha, Scan.resultFrom_of_error hb, Nat.add_comm]
    rfl
  · exact tokenize_append_of_error hn hw hblank ha

/-- The beginnings `<` and `-` of an arrow do not meet across a blank. A tab and a line feed
keep two texts apart as well, and a letter that cannot be read is found behind an arrow of
three bytes. -/
theorem tokenize_append_blanks_arrows :
    standard.tokenize "A <\t-> B" = .error (.unreadable "<\t-> B" 2) ∧
    standard.tokenize "(A→\t\nnot B)" = .ok [.sign .lparen, .var 'A',
      .sign (.connective .implies), .sign .not, .var 'B', .sign .rparen, .stop] ∧
    standard.tokenize "(A→\t\n→ b" = .error (.unreadable "b" 11) := by
  have hapart := fun (a w b : String) (hw : w ≠ "") (hall : w.toList.all isBlank = true) =>
    tokenize_append_blanks.2 standard a w b tokenize_append_blanks.1 hw fun c hc =>
      isBlank_iff.1 (List.all_eq_true.1 hall c hc)
  have hopen : standard.tokenize "(A→" =
      .ok ([.sign .lparen, .var 'A', .sign (.connective .implies)] ++ [.stop]) := by decide +kernel
  have hrest : standard.tokenize "not B)" = .ok [.sign .not, .var 'B', .sign .rparen, .stop] := by
    decide +kernel
  have hbad : standard.tokenize "→ b" = .error (.unreadable "b" 4) := by decide +kernel
  have hstuck : standard.tokenize "A <" = .error (.unreadable "<" 2) := by decide +kernel
  refine ⟨(hapart "A <" "\t" "-> B" (by decide) (by decide)).2.2 _ _ hstuck, ?_, ?_⟩
  · exact ((hapart "(A→" "\t\n" "not B)" (by decide) (by decide)).2.1 _ hopen).1 _ hrest
  · exact ((hapart "(A→" "\t\n" "→ b" (by decide) (by decide)).2.1 _ hopen).2 _ _ hbad

end Notation

end Entailment
