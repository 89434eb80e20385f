import Entailment.Log
import Entailment.Proofs.LongestMatch

/-!
# The segments of a scan

A scan takes one segment after the other (`scan_of_next?`) until there is none at the head of the
rest (`next?_unread`). Each segment is a run of blanks or a lexeme: `Notation.Spells` says which
token a lexeme stands for in front of a given text (`next?_eq_some`). Between two segments the scan
is that of the rest of the text (`scan_of_split`), and the lexemes are the segments with tokens,
each at its offset.
-/

namespace Entailment

namespace Notation
variable {n : Notation} {cs : List Char} {s : Segment} {t : Token}

/-- In front of `rest` the lexeme `w` stands for the token: it is the longest symbol there, or a
capital letter where no symbol begins. -/
inductive Spells (n : Notation) (w rest : List Char) : Token → Prop
  | symbol {k : Sign} (longest : Longest n.get? (w ++ rest) (String.ofList w) k) :
      Spells n w rest (.sign k)
  | letter {c : Char} (eq_letter : w = [c]) (capital : 'A' ≤ c ∧ c ≤ 'Z')
      (no_symbol : ∀ s, s.toList <+: w ++ rest → n.get? s = none) : Spells n w rest (.var c)

theorem next?_eq_some (h : n.next? cs = some s) :
    s.token? = none ∧ (∀ c ∈ s.text, isBlank c = true) ∨
      ∃ t, s.token? = some t ∧ n.Spells s.text (cs.drop s.text.length) t := by
  have hsplit := append_drop_of_next? h
  revert h
  fun_cases n.next? cs with
  | case1 => intro h; cases h
  | case2 c cs hc =>
    rintro ⟨⟩
    exact .inl ⟨rfl, List.all_eq_true.1 List.all_takeWhile⟩
  | case3 c cs hc e he =>
    rintro ⟨⟩
    have hlongest := longest_of_lookup he
    rw [← hsplit] at hlongest
    exact .inr ⟨_, rfl, .symbol hlongest⟩
  | case4 c cs hc he hupper =>
    rintro ⟨⟩
    refine .inr ⟨_, rfl, .letter rfl (isUpper_iff.1 hupper) fun s hs => ?_⟩
    rw [hsplit] at hs
    exact get?_eq_none_of_lookup he hs
  | case5 => intro h; cases h

theorem next?_eq_none {c : Char} (h : n.next? (c :: cs) = none) :
    ¬ Blank c ∧ ¬ ('A' ≤ c ∧ c ≤ 'Z') ∧ ∀ s, s.toList <+: c :: cs → n.get? s = none := by
  rw [next?] at h
  split at h
  · cases h
  · rename_i hblank
    split at h
    · cases h
    · rename_i hlookup
      split at h
      · cases h
      · rename_i hupper
        exact ⟨fun hb => hblank (isBlank_iff.2 hb), fun hc => hupper (isUpper_iff.2 hc),
          fun s => get?_eq_none_of_lookup hlookup⟩

theorem scan_of_next? (h : n.next? cs = some s) : n.scan cs =
    ⟨s :: (n.scan (cs.drop s.text.length)).segments, (n.scan (cs.drop s.text.length)).unread⟩ := by
  rw [scan]
  split
  · rename_i hnone
    rw [h] at hnone
    cases hnone
  · rename_i s' hsome
    rw [h] at hsome
    cases hsome
    rfl

theorem scan_of_next?_eq_none (h : n.next? cs = none) : n.scan cs = ⟨[], cs⟩ := by
  rw [scan]
  split
  · rfl
  · rename_i s' hsome
    rw [h] at hsome
    cases hsome

theorem next?_unread (n : Notation) (cs : List Char) : n.next? (n.scan cs).unread = none := by
  fun_induction n.scan cs with
  | case1 cs h => exact h
  | case2 cs s h _ r ih => exact ih

end Notation

namespace Scan

theorem map_snd_lexemesFrom (o : Nat) (ss : List Segment) :
    (lexemesFrom o ss).map (·.2) = ss.filterMap (·.token?) := by
  induction ss generalizing o with
  | nil => rfl
  | cons s ss ih =>
    rw [lexemesFrom, List.filterMap_cons]
    cases s.token? with
    | none => exact ih _
    | some t => exact congrArg (t :: ·) (ih _)

theorem map_snd_lexemes (s : Scan) : s.lexemes.map (·.2) = s.tokens :=
  map_snd_lexemesFrom 0 s.segments

variable {s : Scan}

theorem result_of_unread_nil (h : s.unread = []) :
    s.result = .ok (s.lexemes.map (·.2) ++ [.stop]) ∧
      s.log = s.lexemes.map fun l => .token l.1 l.2 := by
  rw [map_snd_lexemes, result, log, h]
  exact ⟨rfl, List.append_nil _⟩

theorem result_of_unread_cons {c : Char} {cs : List Char} (h : s.unread = c :: cs) :
    s.result = .error (.unreadable (String.ofList (c :: cs)) (utf8Length s.read)) ∧
      s.log = s.lexemes.map (fun l => .token l.1 l.2) ++
        [.unreadable (String.ofList (c :: cs)) (utf8Length s.read)] := by
  rw [result, log, h]
  exact ⟨rfl, rfl⟩

theorem map_line_of_unread_nil (h : s.unread = []) :
    s.log.map Event.line = s.lexemes.map fun l =>
      (.trace, "token at " ++ toString l.1 ++ ": " ++ l.2.inspect) := by
  rw [(result_of_unread_nil h).2, List.map_map]
  rfl

theorem map_line_of_unread_cons {c : Char} {cs : List Char} (h : s.unread = c :: cs) :
    s.log.map Event.line = s.lexemes.map (fun l =>
        (.trace, "token at " ++ toString l.1 ++ ": " ++ l.2.inspect)) ++
      [(.debug, "No token matches " ++ quoteText (String.ofList (c :: cs)) ++ " at offset " ++
        toString (utf8Length s.read))] := by
  rw [(result_of_unread_cons h).2, List.map_append, List.map_map]
  rfl

end Scan

/-! ### Places between segments -/

/-- The text of some segments in a row. -/
def Segment.join (ss : List Segment) : List Char := ss.flatMap (·.text)

namespace Segment
variable {s : Segment} {ss : List Segment}

theorem utf8Length_text_pos (s : Segment) : 0 < utf8Length s.text :=
  Nat.pos_of_ne_zero fun h => s.text_ne (utf8Length_eq_zero.1 h)

@[simp] theorem join_cons : join (s :: ss) = s.text ++ join ss := rfl

@[simp] theorem join_append {ss' : List Segment} : join (ss ++ ss') = join ss ++ join ss' :=
  List.flatMap_append

@[simp] theorem join_singleton : join [s] = s.text := List.append_nil s.text

theorem join_segments (s : Scan) : join s.segments = s.read := rfl

theorem length_le_utf8Length_join (ss : List Segment) : ss.length ≤ utf8Length (join ss) := by
  induction ss with
  | nil => exact Nat.le_refl 0
  | cons s ss ih =>
    have hpos := s.utf8Length_text_pos
    rw [List.length_cons, join_cons, utf8Length_append]
    omega

end Segment

namespace Notation
variable {n : Notation} {cs : List Char} {s : Segment} {done rest : List Segment}

theorem next?_eq_head? (n : Notation) (cs : List Char) :
    n.next? cs = (n.scan cs).segments.head? := by
  cases h : n.next? cs with
  | none => rw [scan_of_next?_eq_none h]; rfl
  | some s => rw [scan_of_next? h]; rfl

/-- Behind some of its segments, the scan of a text is the scan of the rest. -/
theorem scan_of_split (h : (n.scan cs).segments = done ++ rest) :
    n.scan (Segment.join rest ++ (n.scan cs).unread) = ⟨rest, (n.scan cs).unread⟩ := by
  induction done generalizing cs with
  | nil =>
    have hrest : (n.scan cs).segments = rest := h
    have hcs : Segment.join rest ++ (n.scan cs).unread = cs := hrest ▸ n.read_append_unread cs
    rw [hcs, ← hrest]
  | cons s done ih =>
    cases hnext : n.next? cs with
    | none =>
      rw [scan_of_next?_eq_none hnext] at h
      cases h
    | some s' =>
      rw [scan_of_next? hnext] at h ⊢
      exact ih (List.cons.inj h).2

theorem next?_of_split {more : List Segment} (h : (n.scan cs).segments = done ++ s :: more) :
    n.next? (Segment.join (s :: more) ++ (n.scan cs).unread) = some s := by
  rw [next?_eq_head?, scan_of_split h]
  rfl

theorem toList_eq_of_split {text : String} (h : (n.scan text.toList).segments = done ++ rest) :
    text.toList = Segment.join done ++ (Segment.join rest ++ (n.scan text.toList).unread) := by
  have hsplit := n.read_append_unread text.toList
  rw [← Segment.join_segments, h, Segment.join_append, List.append_assoc] at hsplit
  exact hsplit.symm

end Notation

/-! ### Offsets of lexemes -/

namespace Scan
variable {ss ss' : List Segment} {o : Nat}

theorem lexemesFrom_append : lexemesFrom o (ss ++ ss') =
    lexemesFrom o ss ++ lexemesFrom (o + utf8Length (Segment.join ss)) ss' := by
  induction ss generalizing o with
  | nil => rfl
  | cons s ss ih =>
    rw [List.cons_append, lexemesFrom, lexemesFrom, ih, Segment.join_cons, utf8Length_append,
      Nat.add_assoc]
    cases s.token? <;> rfl

theorem le_of_mem_lexemesFrom {l : Nat × Token} (h : l ∈ lexemesFrom o ss) :
    o ≤ l.1 ∧ l.1 < o + utf8Length (Segment.join ss) := by
  induction ss generalizing o with
  | nil => cases h
  | cons s ss ih =>
    have hpos := s.utf8Length_text_pos
    rw [Segment.join_cons, utf8Length_append]
    rw [lexemesFrom] at h
    have hrest : l ∈ lexemesFrom (o + utf8Length s.text) ss →
        o ≤ l.1 ∧ l.1 < o + (utf8Length s.text + utf8Length (Segment.join ss)) := by
      intro hl
      have := ih hl
      omega
    cases htoken : s.token? with
    | none =>
      rw [htoken] at h
      exact hrest h
    | some t =>
      rw [htoken] at h
      rcases List.mem_cons.1 h with rfl | hl
      · show o ≤ o ∧ o < _
        omega
      · exact hrest hl

theorem pairwise_lexemesFrom (o : Nat) (ss : List Segment) :
    (lexemesFrom o ss).Pairwise (·.1 < ·.1) := by
  induction ss generalizing o with
  | nil => exact .nil
  | cons s ss ih =>
    have hpos := s.utf8Length_text_pos
    rw [lexemesFrom]
    cases s.token? with
    | none => exact ih _
    | some t =>
      refine List.pairwise_cons.2 ⟨fun l hl => ?_, ih _⟩
      have := (le_of_mem_lexemesFrom hl).1
      show o < l.1
      omega

theorem exists_split_of_lexemesFrom {before after : List (Nat × Token)} {p : Nat} {t : Token}
    (h : lexemesFrom o ss = before ++ (p, t) :: after) :
    ∃ done s more, ss = done ++ s :: more ∧ s.token? = some t ∧
      p = o + utf8Length (Segment.join done) ∧
      after = lexemesFrom (p + utf8Length s.text) more := by
  induction ss generalizing o before with
  | nil => simp [lexemesFrom] at h
  | cons s ss ih =>
    have hrest : ∀ before', lexemesFrom (o + utf8Length s.text) ss = before' ++ (p, t) :: after →
        ∃ done s' more, s :: ss = done ++ s' :: more ∧ s'.token? = some t ∧
          p = o + utf8Length (Segment.join done) ∧
          after = lexemesFrom (p + utf8Length s'.text) more := by
      intro before' h'
      obtain ⟨done, s', more, rfl, htoken, hp, hafter⟩ := ih h'
      refine ⟨s :: done, s', more, rfl, htoken, ?_, hafter⟩
      rw [hp, Segment.join_cons, utf8Length_append, Nat.add_assoc]
    rw [lexemesFrom] at h
    cases htoken : s.token? with
    | none =>
      rw [htoken] at h
      exact hrest before h
    | some t' =>
      rw [htoken] at h
      cases before with
      | nil =>
        obtain ⟨hl, rfl⟩ := List.cons.inj h
        obtain ⟨rfl, rfl⟩ := Prod.mk.inj hl
        exact ⟨[], s, ss, rfl, htoken, rfl, rfl⟩
      | cons l before =>
        exact hrest before (List.cons.inj h).2

/-- What comes before the first lexeme are segments without tokens. -/
theorem exists_leading (o : Nat) (ss : List Segment) :
    ∃ gap more, ss = gap ++ more ∧ (∀ s ∈ gap, s.token? = none) ∧
      ((lexemesFrom o ss).map (·.1)).headD (o + utf8Length (Segment.join ss)) =
        o + utf8Length (Segment.join gap) := by
  induction ss generalizing o with
  | nil => exact ⟨[], [], rfl, by simp, rfl⟩
  | cons s ss ih =>
    rw [lexemesFrom]
    cases htoken : s.token? with
    | none =>
      obtain ⟨gap, more, rfl, hgap, hhead⟩ := ih (o + utf8Length s.text)
      refine ⟨s :: gap, more, rfl, List.forall_mem_cons.2 ⟨htoken, hgap⟩, ?_⟩
      simp only [Segment.join_cons, utf8Length_append, ← Nat.add_assoc]
      exact hhead
    | some t => exact ⟨[], s :: ss, rfl, by simp, rfl⟩

end Scan

end Entailment
