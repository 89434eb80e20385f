import Entailment.Notation.Rounds
import Entailment.Proofs.Lexemes
import Mathlib.Data.List.Induction

/-!
# A scan by byte offsets goes forward

Each round of a scan by byte offsets does what the scan of the rest of the text does: it takes the
next segment (`round_eq_ofSegment`). The offsets that such a scan comes to are therefore the places
between segments (`reaches_iff`), where characters begin, and as no segment is empty each round
moves the offset forward. At the end it has found the lexemes of the scan, and nothing but blanks
stands between one lexeme and the next (`laidOut_lexemes`).
-/

namespace Entailment

/-! ### Rounds -/

/-- The round that takes a segment. -/
def Round.ofSegment (offset : Nat) (s : Segment) : Round :=
  match s.token? with
  | none => .blanks (offset + utf8Length s.text)
  | some t => .lexeme t (offset + utf8Length s.text)

namespace Round
variable {s : Segment} {t : Token} {offset next : Nat}

@[simp] theorem next?_ofSegment :
    (ofSegment offset s).next? = some (offset + utf8Length s.text) := by
  unfold ofSegment
  cases s.token? <;> rfl

theorem token?_eq_none (h : ofSegment offset s = .blanks next) : s.token? = none := by
  unfold ofSegment at h
  split at h
  · assumption
  · cases h

theorem token?_eq_some (h : ofSegment offset s = .lexeme t next) : s.token? = some t := by
  unfold ofSegment at h
  split at h
  · cases h
  · cases h
    assumption

end Round

namespace Notation
variable {n : Notation} {text : String} {s : Segment} {done rest more : List Segment}

theorem round_of_toList_eq {as cs : List Char} {c : Char} (h : text.toList = as ++ c :: cs) :
    n.round text (utf8Length as) =
      match n.next? (c :: cs) with
      | some s => Round.ofSegment (utf8Length as) s
      | none => .unreadable (String.ofList (c :: cs)) := by
  have htext : text = String.ofList as ++ String.ofList (c :: cs) := by
    rw [← String.ofList_append, ← h, String.ofList_toList]
  have hlt : utf8Length as < text.utf8ByteSize := by
    have hpos := c.utf8Size_pos
    rw [← utf8Length_toList, h, utf8Length_append, utf8Length_cons]
    omega
  have hat : restAt? text (utf8Length as) = some (String.ofList (c :: cs)) := by
    rw [htext, ← utf8ByteSize_ofList]
    exact restAt?_append _ _
  rw [round, if_pos hlt, hat]
  simp only [utf8ByteSize_ofList, String.toList_ofList, utf8Length_sub_dropWhile, next?]
  -- bytes are skipped where the rest begins with a blank, and nowhere else
  by_cases hc : isBlank c = true
  · have hpos : 0 < utf8Length ((c :: cs).takeWhile isBlank) := by
      have := c.utf8Size_pos
      rw [List.takeWhile_cons_of_pos hc, utf8Length_cons]
      omega
    rw [if_pos hpos, dif_pos hc]
    rfl
  · have hzero : ¬ 0 < utf8Length ((c :: cs).takeWhile isBlank) := by
      rw [List.takeWhile_cons_of_neg hc, utf8Length_nil]
      omega
    rw [if_neg hzero, dif_neg hc]
    cases n.lookup (c :: cs) with
    | some e => rfl
    | none => by_cases hupper : c.isUpper = true <;> simp [hupper, Round.ofSegment]

theorem utf8Length_read (n : Notation) (text : String) :
    utf8Length (n.scan text.toList).read + utf8Length (n.scan text.toList).unread =
      text.utf8ByteSize := by
  rw [← utf8Length_append, read_append_unread, utf8Length_toList]

theorem round_eq_ofSegment (h : (n.scan text.toList).segments = done ++ s :: more) :
    n.round text (utf8Length (Segment.join done)) =
      Round.ofSegment (utf8Length (Segment.join done)) s := by
  have hsplit := toList_eq_of_split h
  have hnext := next?_of_split h
  obtain ⟨c, cs, hcs⟩ : ∃ c cs,
      Segment.join (s :: more) ++ (n.scan text.toList).unread = c :: cs := by
    refine List.exists_cons_of_ne_nil fun hnil => s.text_ne ?_
    exact (List.append_eq_nil_iff.1 (List.append_eq_nil_iff.1 hnil).1).1
  rw [round_of_toList_eq (hsplit.trans (congrArg (Segment.join done ++ ·) hcs)), ← hcs, hnext]

theorem round_read (n : Notation) (text : String) :
    n.round text (utf8Length (n.scan text.toList).read) =
      match (n.scan text.toList).unread with
      | [] => .finished
      | c :: cs => .unreadable (String.ofList (c :: cs)) := by
  have hsize := n.utf8Length_read text
  have hstuck := n.next?_unread text.toList
  have hsplit := n.read_append_unread text.toList
  cases hunread : (n.scan text.toList).unread with
  | nil =>
    rw [hunread, utf8Length_nil, Nat.add_zero] at hsize
    rw [hsize, round, if_neg (Nat.lt_irrefl _)]
  | cons c cs =>
    rw [hunread] at hstuck hsplit
    rw [round_of_toList_eq hsplit.symm, hstuck]

theorem exists_cons_of_next? {next : Nat} (h : (n.scan text.toList).segments = done ++ rest)
    (hnext : (n.round text (utf8Length (Segment.join done))).next? = some next) :
    ∃ s more, rest = s :: more ∧ next = utf8Length (Segment.join (done ++ [s])) ∧
      n.round text (utf8Length (Segment.join done)) =
        Round.ofSegment (utf8Length (Segment.join done)) s := by
  cases rest with
  | nil =>
    rw [List.append_nil] at h
    rw [← h, Segment.join_segments, round_read] at hnext
    cases hunread : (n.scan text.toList).unread with
    | nil => rw [hunread] at hnext; cases hnext
    | cons c cs => rw [hunread] at hnext; cases hnext
  | cons s more =>
    have hround := round_eq_ofSegment h
    refine ⟨s, more, rfl, ?_, hround⟩
    rw [hround, Round.next?_ofSegment] at hnext
    rw [← Option.some.inj hnext, Segment.join_append, Segment.join_singleton, utf8Length_append]

/-- The scan by offsets comes to the places between the segments, and there it has found the lexemes
before them. -/
theorem reaches_iff {rounds offset : Nat} {lexemes : List (Nat × Token)} :
    n.Reaches text rounds offset lexemes ↔ ∃ done rest,
      (n.scan text.toList).segments = done ++ rest ∧ rounds = done.length ∧
      offset = utf8Length (Segment.join done) ∧ lexemes = Scan.lexemesFrom 0 done := by
  constructor
  · intro h
    induction h with
    | start => exact ⟨[], _, rfl, rfl, rfl, rfl⟩
    | blanks _ hround ih =>
      obtain ⟨done, rest, hsegments, rfl, rfl, rfl⟩ := ih
      obtain ⟨s, more, rfl, rfl, hs⟩ := exists_cons_of_next? hsegments (by rw [hround]; rfl)
      have htoken := Round.token?_eq_none (hs.symm.trans hround)
      refine ⟨done ++ [s], more, by simp [hsegments], by simp, rfl, ?_⟩
      simp [Scan.lexemesFrom_append, Scan.lexemesFrom, htoken]
    | lexeme _ hround ih =>
      obtain ⟨done, rest, hsegments, rfl, rfl, rfl⟩ := ih
      obtain ⟨s, more, rfl, rfl, hs⟩ := exists_cons_of_next? hsegments (by rw [hround]; rfl)
      have htoken := Round.token?_eq_some (hs.symm.trans hround)
      refine ⟨done ++ [s], more, by simp [hsegments], by simp, rfl, ?_⟩
      simp [Scan.lexemesFrom_append, Scan.lexemesFrom, htoken]
  · rintro ⟨done, rest, h, rfl, rfl, rfl⟩
    -- the last segment so far is the one that the last round has taken
    induction done using List.reverseRecOn generalizing rest with
    | nil => exact .start
    | append_singleton done s ih =>
      rw [List.append_assoc, List.singleton_append] at h
      have hreaches := ih _ h
      have hround := round_eq_ofSegment h
      rw [Round.ofSegment] at hround
      rw [Scan.lexemesFrom_append, Nat.zero_add, Segment.join_append, Segment.join_singleton,
        utf8Length_append, List.length_append, Scan.lexemesFrom]
      cases htoken : s.token? with
      | none =>
        rw [htoken] at hround
        rw [Scan.lexemesFrom, List.append_nil]
        exact hreaches.blanks hround
      | some t =>
        rw [htoken] at hround
        exact hreaches.lexeme hround

/-! ### What the rounds find -/

/-- The lexemes of a text up to the offset `stop`: they come one behind the other, and between one
of them and the next, or `stop`, there are only blanks. -/
structure LaidOut (n : Notation) (text : String) (lexemes : List (Nat × Token)) (stop : Nat) :
    Prop where
  ascending : (lexemes.map (·.1) ++ [stop]).Pairwise (· < ·)
  between : ∀ (before after : List (Nat × Token)) (p : Nat) (t : Token),
    lexemes = before ++ (p, t) :: after →
    ∃ a w blanks b : String, text = a ++ w ++ blanks ++ b ∧ a.utf8ByteSize = p ∧
      (a ++ w ++ blanks).utf8ByteSize = (after.map (·.1)).headD stop ∧
      (∀ c ∈ blanks.toList, Blank c) ∧ n.Spells w.toList (blanks ++ b).toList t

theorem spells_of_split (h : (n.scan text.toList).segments = done ++ s :: more) {t : Token}
    (ht : s.token? = some t) :
    n.Spells s.text (Segment.join more ++ (n.scan text.toList).unread) t := by
  rcases next?_eq_some (next?_of_split h) with ⟨hnone, -⟩ | ⟨t', ht', hspells⟩
  · rw [hnone] at ht
    cases ht
  · obtain rfl : t' = t := Option.some.inj (ht'.symm.trans ht)
    rwa [Segment.join_cons, List.append_assoc, List.drop_left] at hspells

theorem blank_of_mem_segments (hs : s ∈ (n.scan text.toList).segments) (ht : s.token? = none) :
    ∀ c ∈ s.text, Blank c := by
  obtain ⟨done, more, h⟩ := List.append_of_mem hs
  rcases next?_eq_some (next?_of_split h) with ⟨-, hblank⟩ | ⟨t', ht', -⟩
  · exact fun c hc => isBlank_iff.1 (hblank c hc)
  · rw [ht] at ht'
    cases ht'

theorem laidOut_lexemes (n : Notation) (text : String) :
    n.LaidOut text (n.scan text.toList).lexemes (utf8Length (n.scan text.toList).read) where
  ascending := by
    refine List.pairwise_append.2 ⟨List.pairwise_map.2 (Scan.pairwise_lexemesFrom 0 _),
      List.pairwise_singleton _ _, fun p hp stop hstop => ?_⟩
    obtain ⟨l, hl, rfl⟩ := List.mem_map.1 hp
    obtain rfl := List.mem_singleton.1 hstop
    have hlt := (Scan.le_of_mem_lexemesFrom hl).2
    rwa [Nat.zero_add] at hlt
  between before after p t h := by
    obtain ⟨done, s, more, hsegments, htoken, hp, hafter⟩ := Scan.exists_split_of_lexemesFrom h
    obtain ⟨gap, more', rfl, hgap, hhead⟩ := Scan.exists_leading (p + utf8Length s.text) more
    have hspells := spells_of_split hsegments htoken
    have hsplit := toList_eq_of_split hsegments
    have hstop : utf8Length (n.scan text.toList).read =
        p + utf8Length s.text + utf8Length (Segment.join (gap ++ more')) := by
      rw [← Segment.join_segments, hsegments, hp]
      simp [Nat.add_assoc]
    refine ⟨String.ofList (Segment.join done), String.ofList s.text,
      String.ofList (Segment.join gap),
      String.ofList (Segment.join more' ++ (n.scan text.toList).unread), ?_, ?_, ?_, ?_, ?_⟩
    · refine String.toList_inj.1 (hsplit.trans ?_)
      simp
    · rw [utf8ByteSize_ofList, hp, Nat.zero_add]
    · rw [hafter, hstop, hhead, hp]
      simp [String.utf8ByteSize_append, utf8ByteSize_ofList]
    · intro c hc
      rw [String.toList_ofList, Segment.join, List.mem_flatMap] at hc
      obtain ⟨x, hx, hcx⟩ := hc
      have hmem : x ∈ (n.scan text.toList).segments := by simp [hsegments, hx]
      exact blank_of_mem_segments hmem (hgap x hx) c hcx
    · rw [String.toList_ofList, ← String.ofList_append, String.toList_ofList]
      rwa [Segment.join_append, List.append_assoc] at hspells

theorem round_ne_misplaced (h : (n.scan text.toList).segments = done ++ rest) :
    n.round text (utf8Length (Segment.join done)) ≠ .misplaced := by
  cases rest with
  | nil =>
    rw [List.append_nil] at h
    rw [← h, Segment.join_segments, round_read]
    cases (n.scan text.toList).unread <;> exact Round.noConfusion
  | cons s more =>
    rw [round_eq_ofSegment h, Round.ofSegment]
    cases s.token? <;> exact Round.noConfusion

/-- Each offset that a scan by byte offsets `Reaches` is at a character or at the end of the text
and behind the one before. The scan ends with what `tokenize` finds, the lexemes `LaidOut` in the
text. -/
theorem rounds_outcome (n : Notation) (text : String) :
    (∀ rounds offset lexemes, n.Reaches text rounds offset lexemes →
      offset ≤ text.utf8ByteSize ∧
      (∃ before rest : String, text = before ++ rest ∧ before.utf8ByteSize = offset) ∧
      n.round text offset ≠ .misplaced ∧
      (∀ next, (n.round text offset).next? = some next → offset < next) ∧
      rounds ≤ text.utf8ByteSize ∧
      (n.round text offset ≠ .finished → rounds < text.utf8ByteSize)) ∧
    ∃ rounds offset lexemes, n.Reaches text rounds offset lexemes ∧ n.LaidOut text lexemes offset ∧
      (n.round text offset = .finished ∧ offset = text.utf8ByteSize ∧
          n.tokenize text = .ok (lexemes.map (·.2) ++ [.stop]) ∧
          n.tokenizeLog text = lexemes.map (fun l => .token l.1 l.2) ∧
          (n.tokenizeLog text).map Event.line = lexemes.map (fun l =>
            (.trace, "token at " ++ toString l.1 ++ ": " ++ l.2.inspect)) ∨
        ∃ fragment, n.round text offset = .unreadable fragment ∧
          n.tokenize text = .error (.unreadable fragment offset) ∧
          n.tokenizeLog text = lexemes.map (fun l => .token l.1 l.2) ++
            [.unreadable fragment offset] ∧
          (n.tokenizeLog text).map Event.line = lexemes.map (fun l =>
            (.trace, "token at " ++ toString l.1 ++ ": " ++ l.2.inspect)) ++
            [(.debug, "No token matches " ++ quoteText fragment ++ " at offset " ++
              toString offset)]) := by
  constructor
  · intro rounds offset lexemes h
    obtain ⟨done, rest, hsegments, rfl, rfl, -⟩ := reaches_iff.1 h
    have hsplit := toList_eq_of_split hsegments
    have hsize := congrArg utf8Length hsplit
    rw [utf8Length_toList, utf8Length_append] at hsize
    have hrounds := Segment.length_le_utf8Length_join done
    refine ⟨by omega, ?_, round_ne_misplaced hsegments, fun next hnext => ?_, by omega,
      fun hfinished => ?_⟩
    · refine ⟨String.ofList (Segment.join done),
        String.ofList (Segment.join rest ++ (n.scan text.toList).unread), ?_, utf8ByteSize_ofList _⟩
      rw [← String.ofList_append, ← hsplit, String.ofList_toList]
    · obtain ⟨s, more, -, rfl, -⟩ := exists_cons_of_next? hsegments hnext
      have hpos := s.utf8Length_text_pos
      rw [Segment.join_append, Segment.join_singleton, utf8Length_append]
      omega
    · have hlt : utf8Length (Segment.join done) < text.utf8ByteSize :=
        Decidable.of_not_not fun hge => hfinished (by rw [round, if_neg hge])
      omega
  · refine ⟨_, _, _, reaches_iff.2 ⟨_, [], (List.append_nil _).symm, rfl, rfl, rfl⟩,
      n.laidOut_lexemes text, ?_⟩
    have hround := n.round_read text
    rw [Segment.join_segments]
    cases hunread : (n.scan text.toList).unread with
    | nil =>
      have hsize := n.utf8Length_read text
      rw [hunread, utf8Length_nil, Nat.add_zero] at hsize
      rw [hunread] at hround
      obtain ⟨hresult, hlog⟩ := Scan.result_of_unread_nil hunread
      exact .inl ⟨hround, hsize, hresult, hlog, Scan.map_line_of_unread_nil hunread⟩
    | cons c cs =>
      rw [hunread] at hround
      obtain ⟨hresult, hlog⟩ := Scan.result_of_unread_cons hunread
      exact .inr ⟨_, hround, hresult, hlog, Scan.map_line_of_unread_cons hunread⟩

end Notation

end Entailment
