import Entailment.Notation.Scan

/-!
# Scanning by byte offsets

A scan need not keep the rest of a text. Here it keeps the text and an offset into its bytes, and
goes round by round: each round takes the rest of the text behind the offset, which there is only
where the bytes before it are whole characters, and moves the offset forward.
-/

namespace Entailment

/-- The text behind the first `offset` bytes, if these are whole characters. -/
def restAt? (text : String) (offset : Nat) : Option String :=
  (text.pos? ⟨offset⟩).map fun p => (text.sliceFrom p).copy

/-- What one round comes to. -/
inductive Round where
  /-- The offset is at the end of the text. -/
  | finished
  /-- The offset is inside a character. -/
  | misplaced
  /-- Blanks have been skipped up to `next`. -/
  | blanks (next : Nat)
  /-- A lexeme has been read up to `next`. -/
  | lexeme (t : Token) (next : Nat)
  /-- Nothing can be read here. -/
  | unreadable (rest : String)

/-- The offset at which the next round begins, if there is one. -/
def Round.next? : Round → Option Nat
  | blanks next => some next
  | lexeme _ next => some next
  | _ => none

namespace Notation

/-- One round at an offset. -/
def round (n : Notation) (text : String) (offset : Nat) : Round :=
  if offset < text.utf8ByteSize then
    match restAt? text offset with
    | none => .misplaced
    | some rest =>
      let skipped := rest.utf8ByteSize - utf8Length (rest.toList.dropWhile isBlank)
      if 0 < skipped then .blanks (offset + skipped)
      else match n.lookup rest.toList with
        | some e => .lexeme (.sign e.sign) (offset + utf8Length e.symbol)
        | none =>
          match rest.toList with
          | [] => .unreadable rest
          | c :: _ =>
            if c.isUpper then .lexeme (.var c) (offset + c.utf8Size) else .unreadable rest
  else .finished

/-- After so many rounds from the beginning of the text, the scan is at an offset and has found
lexemes, each at its own offset. -/
inductive Reaches (n : Notation) (text : String) : Nat → Nat → List (Nat × Token) → Prop
  | start : Reaches n text 0 0 []
  | blanks {rounds offset next : Nat} {lexemes : List (Nat × Token)}
      (reaches : Reaches n text rounds offset lexemes)
      (round_eq : n.round text offset = .blanks next) : Reaches n text (rounds + 1) next lexemes
  | lexeme {rounds offset next : Nat} {lexemes : List (Nat × Token)} {t : Token}
      (reaches : Reaches n text rounds offset lexemes)
      (round_eq : n.round text offset = .lexeme t next) :
      Reaches n text (rounds + 1) next (lexemes ++ [(offset, t)])

end Notation

theorem restAt?_append (s t : String) : restAt? (s ++ t) s.utf8ByteSize = some t := by
  have hvalid : (⟨s.utf8ByteSize⟩ : String.Pos.Raw).IsValid (s ++ t) :=
    String.Pos.Raw.isValid_iff_exists_append.2 ⟨s, t, rfl, rfl⟩
  have hslice : (⟨s.utf8ByteSize⟩ : String.Pos.Raw).isValidForSlice (s ++ t).toSlice = true :=
    String.Pos.Raw.isValidForSlice_eq_true_iff.2 hvalid.toSlice
  have hsplits : ((s ++ t).pos ⟨s.utf8ByteSize⟩ hvalid).Splits s t := ⟨rfl, rfl⟩
  rw [restAt?, String.pos?, String.Slice.pos?, dif_pos hslice]
  exact congrArg some hsplits.copy_sliceFrom_eq

example : restAt? "→A" 1 = none ∧ restAt? "→A" 3 = some "A" := by decide

end Entailment
