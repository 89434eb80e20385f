/-!
# Byte lengths

Offsets into a text count the bytes of its UTF-8 encoding.
-/

namespace Entailment

/-- The number of bytes that a text takes in UTF-8. -/
def utf8Length : List Char → Nat
  | [] => 0
  | c :: cs => c.utf8Size + utf8Length cs

@[simp] theorem utf8Length_nil : utf8Length [] = 0 := rfl

@[simp] theorem utf8Length_cons (c : Char) (cs : List Char) :
    utf8Length (c :: cs) = c.utf8Size + utf8Length cs := rfl

@[simp] theorem utf8Length_append (cs ds : List Char) :
    utf8Length (cs ++ ds) = utf8Length cs + utf8Length ds := by
  induction cs with
  | nil => simp
  | cons c cs ih => simp [ih, Nat.add_assoc]

@[simp] theorem utf8Length_eq_zero {cs : List Char} : utf8Length cs = 0 ↔ cs = [] := by
  cases cs with
  | nil => simp
  | cons c cs => simp [Nat.ne_of_gt c.utf8Size_pos]

theorem utf8ByteSize_ofList (cs : List Char) : (String.ofList cs).utf8ByteSize = utf8Length cs := by
  induction cs with
  | nil => rfl
  | cons c cs ih =>
    have hsplit : String.ofList (c :: cs) = String.singleton c ++ String.ofList cs := by
      rw [← String.toList_inj]; simp
    rw [hsplit, String.utf8ByteSize_append, String.utf8ByteSize_singleton, ih, utf8Length_cons]

theorem utf8Length_toList (s : String) : utf8Length s.toList = s.utf8ByteSize := by
  rw [← utf8ByteSize_ofList, String.ofList_toList]

theorem utf8Length_sub_dropWhile (p : Char → Bool) (cs : List Char) :
    utf8Length cs - utf8Length (cs.dropWhile p) = utf8Length (cs.takeWhile p) := by
  have hsplit := congrArg utf8Length (List.takeWhile_append_dropWhile (p := p) (l := cs))
  rw [utf8Length_append] at hsplit
  omega

/-- Of two beginnings of a text, the longer one in bytes is the longer one in characters. -/
theorem utf8Length_le_iff {as bs cs : List Char} (ha : as <+: cs) (hb : bs <+: cs) :
    utf8Length as ≤ utf8Length bs ↔ as.length ≤ bs.length := by
  rcases List.prefix_or_prefix_of_prefix ha hb with ⟨r, rfl⟩ | ⟨r, rfl⟩
  · simp
  · have : utf8Length r = 0 ↔ r.length = 0 := by simp
    simp only [utf8Length_append, List.length_append]
    omega

end Entailment
