import Entailment.Notation.Lemmas
import Mathlib.Data.List.Basic

/-!
# The order of the symbols

Of all registrations that have built a table, the last one of every symbol is left
(`Notation.latest`). Longer symbols stand in front, and symbols of one length stand in the order in
which they were registered last. One registration sorts the table with its symbol at the end
(`toList_insert`), which moves the symbol behind all others of its length and leaves the other
lengths alone (`filter_toList_insert`); `latest` changes in the same way when a history grows at its
end (`latest_concat`), so that the two agree at every length after every history
(`InOrder.insertMany`).
-/

namespace Entailment

namespace Entry

theorem filter_place {e : Entry} {xs : List Entry} (h : xs.Pairwise Precedes) (w : Nat) :
    (e.place xs).filter (utf8Length ·.symbol = w) =
      xs.filter (utf8Length ·.symbol = w) ++ [e].filter (utf8Length ·.symbol = w) := by
  induction xs with
  | nil => rfl
  | cons x xs ih =>
    obtain ⟨hx, hxs⟩ := List.pairwise_cons.1 h
    rw [place]
    split
    · rename_i hlt
      by_cases hw : utf8Length e.symbol = w
      · -- all entries behind `e` are shorter than it
        have hshort : (x :: xs).filter (utf8Length ·.symbol = w) = [] := by
          refine List.filter_eq_nil_iff.2 fun y hy => ?_
          have hle : utf8Length y.symbol ≤ utf8Length x.symbol := by
            rcases List.mem_cons.1 hy with rfl | hy
            · exact Nat.le_refl _
            · exact (hx y hy).2
          have hne : utf8Length y.symbol ≠ w := by omega
          simpa using hne
        rw [hshort, List.filter_cons_of_pos (by simpa using hw), hshort]
        simp [hw]
      · simp [hw]
    · rw [List.filter_cons, List.filter_cons, ih hxs]
      split <;> rfl

/-- Whether sorting may leave `x` before `y`. -/
def longer (x y : Entry) : Bool := utf8Length y.symbol ≤ utf8Length x.symbol

theorem longer_trans (x y z : Entry) : longer x y → longer y z → longer x z := by
  simp only [longer, decide_eq_true_eq]
  omega

theorem longer_total (x y : Entry) : longer x y || longer y x := by
  simp only [longer, Bool.or_eq_true, decide_eq_true_eq]
  omega

variable {e x : Entry} {xs l : List Entry}

theorem place_of_lt (h : ∀ x ∈ xs, utf8Length x.symbol < utf8Length e.symbol) :
    e.place xs = e :: xs := by
  cases xs with
  | nil => rfl
  | cons x xs => rw [place, if_pos (h x (List.mem_cons_self ..))]

theorem mergeSort_cons_of_longer (h : ∀ y ∈ l, longer x y) :
    (x :: l).mergeSort longer = x :: l.mergeSort longer := by
  obtain ⟨l₁, l₂, hsort, hrest, hl₁⟩ := List.mergeSort_cons longer_trans longer_total x l
  have hnil : l₁ = [] := List.eq_nil_iff_forall_not_mem.2 fun b hb => by
    have hmem : b ∈ l := List.mem_mergeSort.1 (hrest ▸ List.mem_append_left l₂ hb)
    simpa [h b hmem] using hl₁ b hb
  rw [hsort, hrest, hnil]
  rfl

theorem mergeSort_cons_of_lt (hlt : utf8Length x.symbol < utf8Length e.symbol)
    (hx : ∀ y ∈ xs, longer x y) (h : l.mergeSort longer = e :: xs) :
    (x :: l).mergeSort longer = e :: x :: xs := by
  obtain ⟨l₁, l₂, hsort, hrest, hl₁⟩ := List.mergeSort_cons longer_trans longer_total x l
  have hsorted := List.pairwise_mergeSort longer_trans longer_total (x :: l)
  rw [hsort] at hsorted ⊢
  rw [h] at hrest
  cases l₁ with
  | nil =>
    -- then the shorter `x` would stand before `e`
    obtain rfl : e :: xs = l₂ := hrest
    have hle : longer x e := (List.pairwise_cons.1 hsorted).1 e (List.mem_cons_self ..)
    exact absurd (of_decide_eq_true hle) (Nat.not_le.2 hlt)
  | cons a l₁ =>
    obtain ⟨rfl, rfl⟩ := List.cons.inj hrest
    have hnil : l₁ = [] := List.eq_nil_iff_forall_not_mem.2 fun b hb => by
      simpa [hx b (List.mem_append_left l₂ hb)] using hl₁ b (List.mem_cons_of_mem _ hb)
    rw [hnil]
    rfl

/-- Placing an entry is the same as putting it last and sorting by length, which keeps the order of
entries of one length. -/
theorem place_eq_mergeSort (h : xs.Pairwise Precedes) :
    e.place xs = (xs ++ [e]).mergeSort longer := by
  induction xs with
  | nil => exact (List.mergeSort_singleton e).symm
  | cons x xs ih =>
    obtain ⟨hx, hxs⟩ := List.pairwise_cons.1 h
    have hlonger : ∀ y ∈ xs, longer x y := fun y hy => decide_eq_true (hx y hy).2
    specialize ih hxs
    rw [List.cons_append, place]
    split
    case isTrue hlt =>
      rw [place_of_lt fun y hy => Nat.lt_of_le_of_lt (hx y hy).2 hlt] at ih
      exact (mergeSort_cons_of_lt hlt hlonger ih.symm).symm
    case isFalse hge =>
      have he : longer x e := decide_eq_true (Nat.not_lt.1 hge)
      rw [mergeSort_cons_of_longer (List.forall_mem_append.2
        ⟨hlonger, List.forall_mem_singleton.2 he⟩), ih]

end Entry

namespace Notation

/-- The symbols with their signs, in the order of the table. -/
def toList (n : Notation) : List (String × Sign) :=
  n.entries.map fun e => (String.ofList e.symbol, e.sign)

/-- The registrations that count in a history: those of a symbol that is not empty and is not
registered again later. -/
def latest : List (String × Sign) → List (String × Sign)
  | [] => []
  | p :: l => if p.1 ≠ "" ∧ ∀ q ∈ l, q.1 ≠ p.1 then p :: latest l else latest l

variable {n : Notation} {s : String} {k : Sign} {p q : String × Sign} {l l' : List (String × Sign)}

/-! ### Histories -/

theorem exists_split_cons {P : List (String × Sign) → Prop} :
    (∃ before after, q :: l = before ++ p :: after ∧ P after) ↔
      (q = p ∧ P l) ∨ ∃ before after, l = before ++ p :: after ∧ P after := by
  constructor
  · rintro ⟨before, after, hl, hafter⟩
    rcases List.cons_eq_append_iff.1 hl with ⟨-, hl⟩ | ⟨before', -, hl⟩
    · obtain ⟨rfl, rfl⟩ := List.cons.inj hl
      exact .inl ⟨rfl, hafter⟩
    · exact .inr ⟨before', after, hl, hafter⟩
  · rintro (⟨rfl, hafter⟩ | ⟨before, after, rfl, hafter⟩)
    · exact ⟨[], l, rfl, hafter⟩
    · exact ⟨q :: before, after, rfl, hafter⟩

theorem mem_latest_iff : p ∈ latest l ↔
    p.1 ≠ "" ∧ ∃ before after, l = before ++ p :: after ∧ ∀ q ∈ after, q.1 ≠ p.1 := by
  induction l with
  | nil => simp [latest]
  | cons q l ih =>
    rw [exists_split_cons, latest, and_or_left, ← ih]
    split
    · rename_i hq
      rw [List.mem_cons]
      refine or_congr_left ⟨?_, fun h => h.2.1.symm⟩
      rintro rfl
      exact ⟨hq.1, rfl, hq.2⟩
    · -- `q` does not count, so it is not what has been found at the head
      rename_i hq
      refine (or_iff_right ?_).symm
      rintro ⟨hne, rfl, hafter⟩
      exact hq ⟨hne, hafter⟩

theorem latest_concat (hp : p.1 ≠ "") :
    latest (l ++ [p]) = (latest l).filter (·.1 ≠ p.1) ++ [p] := by
  induction l with
  | nil => simp [latest, hp]
  | cons q l ih =>
    simp only [List.cons_append, latest, ih, List.forall_mem_append, List.forall_mem_singleton]
    by_cases hq : p.1 = q.1
    · -- `p` registers the symbol of `q` again
      rw [if_neg fun h => h.2.2 hq]
      split
      · rw [List.filter_cons_of_neg (by simp [hq])]
      · rfl
    · simp only [hq, ne_eq, not_false_eq_true, and_true]
      split
      · rw [List.filter_cons_of_pos (by simpa using Ne.symm hq)]
        rfl
      · rfl

theorem latest_concat_empty : latest (l ++ [("", k)]) = latest l := by
  induction l with
  | nil => rfl
  | cons q l ih =>
    simp only [List.cons_append, latest, ih, List.forall_mem_append, List.forall_mem_singleton]
    by_cases hq : q.1 = ""
    · rw [if_neg fun h => h.1 hq, if_neg fun h => h.1 hq]
    · have hne : "" ≠ q.1 := Ne.symm hq
      simp only [ne_eq, hne, not_false_eq_true, and_true]

theorem latest_eq_self (hne : ∀ p ∈ l, p.1 ≠ "") (hl : l.Pairwise fun p q => p.1 ≠ q.1) :
    latest l = l := by
  induction l with
  | nil => rfl
  | cons p l ih =>
    obtain ⟨hp, hl⟩ := List.pairwise_cons.1 hl
    have hcounts : p.1 ≠ "" ∧ ∀ q ∈ l, q.1 ≠ p.1 :=
      ⟨hne p (List.mem_cons_self ..), fun q hq => (hp q hq).symm⟩
    rw [latest, if_pos hcounts, ih (fun q hq => hne q (List.mem_cons_of_mem _ hq)) hl]

/-! ### Tables -/

theorem pair_mem_toList_iff {e : Entry} :
    (String.ofList e.symbol, e.sign) ∈ n.toList ↔ e ∈ n.entries := by
  refine ⟨fun h => ?_, fun he => List.mem_map_of_mem he⟩
  obtain ⟨x, hx, hpair⟩ := List.mem_map.1 h
  obtain ⟨hs, hk⟩ := Prod.mk.inj hpair
  have hsymbol : x.symbol = e.symbol := by simpa using congrArg String.toList hs
  obtain ⟨symbol, sign, _⟩ := x
  obtain ⟨symbol', sign', _⟩ := e
  subst hsymbol hk
  exact hx

theorem symbol_ne_of_mem_toList (h : p ∈ n.toList) : p.1 ≠ "" := by
  obtain ⟨e, -, rfl⟩ := List.mem_map.1 h
  have hne := e.symbol_ne
  intro hs
  rw [← String.toList_inj, String.toList_ofList] at hs
  exact hne hs

theorem pairwise_toList (n : Notation) : n.toList.Pairwise fun p q =>
    p.1 ≠ q.1 ∧ utf8Length q.1.toList ≤ utf8Length p.1.toList := by
  refine List.pairwise_map.2 (n.sorted.imp fun {x y} hxy => ?_)
  simp only [String.toList_ofList]
  refine ⟨fun hs => hxy.1 ?_, hxy.2⟩
  simpa using congrArg String.toList hs

theorem map_filter_entries : (n.entries.filter (·.symbol ≠ s.toList)).map
    (fun e => (String.ofList e.symbol, e.sign)) = n.toList.filter (·.1 ≠ s) := by
  have hne : ∀ e : Entry, decide (String.ofList e.symbol ≠ s) = decide (e.symbol ≠ s.toList) := by
    intro e
    rw [decide_eq_decide, ne_eq, ← String.toList_inj, String.toList_ofList]
  simp only [toList, List.filter_map, Function.comp_def, hne]

/-- A registration removes the symbol where it is there already, puts it last and sorts the table by
length. -/
theorem toList_insert (hs : s ≠ "") : (n.insert s k).toList =
    (n.toList.filter (·.1 ≠ s) ++ [(s, k)]).mergeSort fun p q =>
      utf8Length q.1.toList ≤ utf8Length p.1.toList := by
  rw [toList, entries_insert hs, Entry.place_eq_mergeSort (n.sorted.filter _), List.map_mergeSort,
    List.map_append, map_filter_entries, List.map_singleton, String.ofList_toList]
  simp [Entry.longer]

theorem filter_toList_insert (hs : s ≠ "") (w : Nat) :
    (n.insert s k).toList.filter (utf8Length ·.1.toList = w) =
      (n.toList.filter (·.1 ≠ s) ++ [(s, k)]).filter (utf8Length ·.1.toList = w) := by
  rw [← map_filter_entries, toList, entries_insert hs]
  simp only [List.filter_map, List.filter_append, Function.comp_def, String.toList_ofList]
  rw [Entry.filter_place (n.sorted.filter _), List.map_append]
  congr 1
  simp only [List.filter_cons, List.filter_nil]
  split <;> simp

/-! ### Tables and histories -/

/-- At every length the table has the symbols of the history that count, in the same order. -/
def InOrder (n : Notation) (l : List (String × Sign)) : Prop :=
  ∀ w, n.toList.filter (utf8Length ·.1.toList = w) = (latest l).filter (utf8Length ·.1.toList = w)

namespace InOrder

theorem insert (h : n.InOrder l) (p : String × Sign) : (n.insert p.1 p.2).InOrder (l ++ [p]) := by
  obtain ⟨s, k⟩ := p
  intro w
  by_cases hs : s = ""
  · subst hs
    rw [insert_empty, latest_concat_empty]
    exact h w
  · rw [filter_toList_insert hs, latest_concat hs, List.filter_append, List.filter_append,
      List.filter_comm, h w, List.filter_comm]

theorem insertMany (h : n.InOrder l) (l' : List (String × Sign)) :
    (n.insertMany l').InOrder (l ++ l') := by
  induction l' generalizing n l with
  | nil => rwa [List.append_nil]
  | cons p l' ih =>
    rw [List.append_cons]
    exact ih (h.insert p)

theorem mem_iff (h : n.InOrder l) : p ∈ n.toList ↔ p ∈ latest l := by
  have hmem := congrArg (p ∈ ·) (h (utf8Length p.1.toList))
  simpa using hmem

end InOrder

theorem inOrder_toList (n : Notation) : n.InOrder n.toList := by
  have hlatest : latest n.toList = n.toList :=
    latest_eq_self (fun _ => symbol_ne_of_mem_toList) (n.pairwise_toList.imp And.left)
  intro w
  rw [hlatest]

/-- What a table has to show for the history `l`: of each symbol the last registration and no other,
longer symbols first, symbols of one length in the order of their last registrations; and for every
text the longest symbol that begins it, if there is one. -/
structure Remembers (n : Notation) (l : List (String × Sign)) : Prop where
  symbol_ne : ∀ p ∈ n.toList, p.1 ≠ ""
  nodup : (n.toList.map (·.1)).Nodup
  last : ∀ s k, (s, k) ∈ n.toList ↔
    s ≠ "" ∧ ∃ before after, l = before ++ (s, k) :: after ∧ ∀ q ∈ after, q.1 ≠ s
  longer_first : n.toList.Pairwise fun p q => utf8Length q.1.toList ≤ utf8Length p.1.toList
  ties : ∀ w, n.toList.filter (utf8Length ·.1.toList = w) =
    (latest l).filter (utf8Length ·.1.toList = w)
  lookup_some : ∀ cs e, n.lookup cs = some e ↔
    (String.ofList e.symbol, e.sign) ∈ latest l ∧ e.symbol <+: cs ∧
      ∀ p ∈ latest l, p.1.toList <+: cs →
        p.1.toList = e.symbol ∨ p.1.toList.length < e.symbol.length
  lookup_none : ∀ cs, n.lookup cs = none ↔ ∀ p ∈ latest l, ¬ p.1.toList <+: cs

theorem InOrder.lookup_eq_none_iff (h : n.InOrder l) {cs : List Char} :
    n.lookup cs = none ↔ ∀ p ∈ latest l, ¬ p.1.toList <+: cs := by
  rw [Notation.lookup_eq_none_iff]
  simp only [← h.mem_iff, toList, List.forall_mem_map, String.toList_ofList]

theorem InOrder.lookup_eq_some_iff (h : n.InOrder l) {cs : List Char} {e : Entry} :
    n.lookup cs = some e ↔ (String.ofList e.symbol, e.sign) ∈ latest l ∧ e.symbol <+: cs ∧
      ∀ p ∈ latest l, p.1.toList <+: cs →
        p.1.toList = e.symbol ∨ p.1.toList.length < e.symbol.length := by
  rw [Notation.lookup_eq_some_iff, ← h.mem_iff, pair_mem_toList_iff]
  simp only [← h.mem_iff, toList, List.forall_mem_map, String.toList_ofList]
  refine and_congr_right fun he => and_congr_right fun hcs => ?_
  refine forall₂_congr fun x hx => forall_congr' fun hxcs => ⟨fun hle => ?_, fun hcases => ?_⟩
  · rcases Nat.lt_or_eq_of_le hle with hlt | heq
    · exact .inr hlt
    · -- two beginnings of one text that have the same length are the same
      have hpre := List.prefix_of_prefix_length_le hxcs hcs (Nat.le_of_eq heq)
      exact .inl (hpre.eq_of_length heq)
  · rcases hcases with heq | hlt
    · exact Nat.le_of_eq (congrArg List.length heq)
    · exact Nat.le_of_lt hlt

theorem InOrder.remembers (h : n.InOrder l) : n.Remembers l where
  symbol_ne _ := symbol_ne_of_mem_toList
  nodup := List.pairwise_map.2 (n.pairwise_toList.imp And.left)
  last _ _ := h.mem_iff.trans mem_latest_iff
  longer_first := n.pairwise_toList.imp And.right
  ties := h
  lookup_some _ _ := h.lookup_eq_some_iff
  lookup_none _ := h.lookup_eq_none_iff

/-- Whatever table it starts from, `insertMany` makes one that `Remembers` the whole history. One
registration removes its symbol, puts it last and sorts the table by length; the empty symbol
changes nothing. -/
theorem remembers_insertMany :
    (∀ l, (empty.insertMany l).Remembers l) ∧
    (∀ (n : Notation) l, (n.insertMany l).Remembers (n.toList ++ l)) ∧
    (∀ (n : Notation) l l', n.Remembers l → (n.insertMany l').Remembers (l ++ l')) ∧
    (∀ (n : Notation) s k, s ≠ "" → ∀ w,
      (n.insert s k).toList.filter (utf8Length ·.1.toList = w) =
        (n.toList.filter (·.1 ≠ s) ++ [(s, k)]).filter (utf8Length ·.1.toList = w)) ∧
    (∀ (n : Notation) s k, s ≠ "" → (n.insert s k).toList =
      (n.toList.filter (·.1 ≠ s) ++ [(s, k)]).mergeSort fun p q =>
        utf8Length q.1.toList ≤ utf8Length p.1.toList) ∧
    ∀ (n : Notation) k, n.insert "" k = n := by
  have hinsertMany : ∀ (n : Notation) l l', n.InOrder l → (n.insertMany l').Remembers (l ++ l') :=
    fun _ _ l' h => (h.insertMany l').remembers
  refine ⟨fun l => hinsertMany empty [] l fun _ => rfl,
    fun n l => hinsertMany n n.toList l n.inOrder_toList,
    fun n l l' h => hinsertMany n l l' h.ties, fun n s k hs w => filter_toList_insert hs w,
    fun n s k => toList_insert, fun n k => insert_empty⟩

/-- A symbol that is registered again has its last sign, and stands behind one of the same length
that was registered in between. -/
theorem remembers_insertMany_again :
    (empty.insertMany [("or", .connective .or), ("->", .connective .implies)]).Remembers
        [("or", .connective .or), ("->", .connective .implies)] ∧
    ((empty.insertMany [("or", .connective .or), ("->", .connective .implies)]).insertMany
        [("or", .connective .and)]).Remembers
      [("or", .connective .or), ("->", .connective .implies), ("or", .connective .and)] ∧
    "or" ≠ "" ∧
    ((empty.insertMany [("or", .connective .or), ("->", .connective .implies)]).insert "or"
        (.connective .and)).toList.filter (utf8Length ·.1.toList = 2) =
      [("->", .connective .implies), ("or", .connective .and)] := by
  obtain ⟨hempty, -, hmore, hinsert, -⟩ := remembers_insertMany
  have h := hempty [("or", .connective .or), ("->", .connective .implies)]
  have hne : "or" ≠ "" := by decide
  refine ⟨h, hmore _ _ [("or", .connective .and)] h, hne, ?_⟩
  rw [hinsert _ "or" (.connective .and) hne 2]
  decide

/-- Lengths are counted in bytes, so that a symbol of two characters can stand before words of
three. -/
example : standard.entries.map (String.ofList ·.symbol) = ["implies", "←→", "and", "not", "iff",
    "<->", "∧", "∨", "￢", "→", "↔", "or", "->", "¬", "(", ")", "&", "|", "!", "~"] := by decide

end Notation

end Entailment
