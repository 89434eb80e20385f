import Entailment.Log
import Entailment.Notation.Lemmas

/-!
# Scanning

A text is cut from left to right into segments: runs of blanks, and lexemes with the tokens that
they stand for. Where neither a symbol nor a letter begins the rest, scanning stops and the rest
stays unread. Segments are never empty, so each one brings the scan forward; together with the
unread rest they make up the text.
-/

namespace Entailment

/-- Blanks separate lexemes and stand for nothing. -/
def isBlank (c : Char) : Bool :=
  c = ' ' || c = '\t' || c = '\n' || c = '\x0c' || c = '\r'

/-- A stretch of a text: a lexeme with its token, or a run of blanks. -/
structure Segment where
  text : List Char
  token? : Option Token
  text_ne : text ≠ []

/-- What a scan makes of a text. -/
structure Scan where
  segments : List Segment
  unread : List Char

namespace Notation

/-- The segment at the head of a text: all leading blanks, else the longest symbol, else a capital
letter. -/
def next? (n : Notation) : List Char → Option Segment
  | [] => none
  | c :: cs =>
    if h : isBlank c then
      some ⟨(c :: cs).takeWhile isBlank, none, by simp [List.takeWhile, h]⟩
    else match n.lookup (c :: cs) with
      | some e => some ⟨e.symbol, some (.sign e.sign), e.symbol_ne⟩
      | none => if c.isUpper then some ⟨[c], some (.var c), by simp⟩ else none

@[simp] theorem next?_nil (n : Notation) : n.next? [] = none := rfl

theorem prefix_of_next? {n : Notation} {cs : List Char} {s : Segment}
    (h : n.next? cs = some s) : s.text <+: cs := by
  cases cs with
  | nil => simp at h
  | cons c cs =>
    simp only [next?] at h
    split at h
    · cases h
      exact List.takeWhile_prefix _
    · split at h
      · cases h
        exact prefix_of_lookup ‹_›
      · split at h
        · cases h
          exact ⟨cs, rfl⟩
        · cases h

theorem append_drop_of_next? {n : Notation} {cs : List Char} {s : Segment}
    (h : n.next? cs = some s) : s.text ++ cs.drop s.text.length = cs := by
  obtain ⟨r, rfl⟩ := prefix_of_next? h
  simp

theorem length_drop_lt_of_next? {n : Notation} {cs : List Char} {s : Segment}
    (h : n.next? cs = some s) : (cs.drop s.text.length).length < cs.length := by
  have hs := List.length_pos_iff.2 s.text_ne
  cases cs with
  | nil => simp at h
  | cons c cs => simp only [List.length_drop, List.length_cons]; omega

/-- Cuts a text into segments. -/
def scan (n : Notation) (cs : List Char) : Scan :=
  match h : n.next? cs with
  | none => ⟨[], cs⟩
  | some s =>
    have := length_drop_lt_of_next? h
    let r := n.scan (cs.drop s.text.length)
    ⟨s :: r.segments, r.unread⟩
termination_by cs.length
decreasing_by exact this

end Notation

namespace Scan

/-- The tokens read, without an end marker. -/
def tokens (s : Scan) : List Token := s.segments.filterMap (·.token?)

/-- The text of the segments: what has been read. -/
def read (s : Scan) : List Char := s.segments.flatMap (·.text)

/-- The tokens with an end marker behind them, if the whole text could be read. -/
def result (s : Scan) : Except Error (List Token) :=
  match s.unread with
  | [] => .ok (s.tokens ++ [.stop])
  | c :: cs => .error (.unreadable (String.ofList (c :: cs)) (utf8Length s.read))

@[simp] theorem read_nil {cs : List Char} : Scan.read ⟨[], cs⟩ = [] := rfl

@[simp] theorem read_cons {s : Segment} {ss : List Segment} {cs : List Char} :
    Scan.read ⟨s :: ss, cs⟩ = s.text ++ Scan.read ⟨ss, cs⟩ := rfl

/-- The lexemes of the segments, each as its byte offset and its token, when the first segment
begins at `offset`. -/
def lexemesFrom (offset : Nat) : List Segment → List (Nat × Token)
  | [] => []
  | s :: ss =>
    let rest := lexemesFrom (offset + utf8Length s.text) ss
    match s.token? with
    | some t => (offset, t) :: rest
    | none => rest

/-- The lexemes of the text, each as its byte offset and its token. -/
def lexemes (s : Scan) : List (Nat × Token) := lexemesFrom 0 s.segments

end Scan

@[simp] theorem Notation.read_append_unread (n : Notation) (cs : List Char) :
    (n.scan cs).read ++ (n.scan cs).unread = cs := by
  fun_induction n.scan cs with
  | case1 => simp
  | case2 cs s h _ r ih =>
    rw [Scan.read_cons, List.append_assoc]
    exact ih ▸ append_drop_of_next? h

/-- The events of a scan. -/
def Scan.log (s : Scan) : List Event :=
  s.lexemes.map (fun l => .token l.1 l.2) ++
    match s.unread with
    | [] => []
    | c :: cs => [.unreadable (String.ofList (c :: cs)) (utf8Length s.read)]

namespace Notation

/-- Cuts a text into tokens, with a report. -/
def tokenizeRun (n : Notation) (text : String) : Run (List Token) :=
  let s := n.scan text.toList
  ⟨s.log, s.result⟩

/-- The tokens of a text, closed by an end marker. -/
def tokenize (n : Notation) (text : String) : Except Error (List Token) :=
  (n.tokenizeRun text).result

/-- The events of `tokenize`. -/
def tokenizeLog (n : Notation) (text : String) : List Event := (n.tokenizeRun text).log

theorem tokenize_eq (n : Notation) (text : String) :
    n.tokenize text = (n.scan text.toList).result := rfl

end Notation

end Entailment
