import Entailment.Notation.Basic

/-!
# The symbols of a notation

A notation seen as a map from symbols to signs: `get?_insert` says what a registration changes, and
`lookup_eq_some_iff` that looking up a text finds the longest symbol that begins it.
-/

namespace Entailment.Notation

variable {n : Notation} {s t : String} {k : Sign} {e : Entry} {cs : List Char}

theorem entries_insert (hs : s ≠ "") :
    (n.insert s k).entries =
      Entry.place ⟨s.toList, k, by simpa using hs⟩ (n.entries.filter (·.symbol ≠ s.toList)) := by
  have : s.toList ≠ [] := by simpa using hs
  simp [insert, this]

@[simp] theorem insert_empty : n.insert "" k = n := by simp [insert]

theorem mem_entries_insert (hs : s ≠ "") :
    e ∈ (n.insert s k).entries ↔
      e.symbol = s.toList ∧ e.sign = k ∨ e ∈ n.entries ∧ e.symbol ≠ s.toList := by
  obtain ⟨symbol, sign, h⟩ := e
  rw [entries_insert hs, Entry.mem_place]
  simp

theorem eq_of_symbol_eq {x : Entry} (he : e ∈ n.entries) (hx : x ∈ n.entries)
    (h : e.symbol = x.symbol) : e = x := by
  obtain ⟨entries, sorted⟩ := n
  simp only at he hx
  induction sorted with
  | nil => simp at he
  | cons hp _ ih =>
    rcases List.mem_cons.1 he with rfl | he' <;> rcases List.mem_cons.1 hx with rfl | hx'
    · rfl
    · exact absurd h (hp _ hx').1
    · exact absurd h.symm (hp _ he').1
    · exact ih he' hx'

theorem get?_eq_some_iff :
    n.get? s = some k ↔ ∃ e ∈ n.entries, e.symbol = s.toList ∧ e.sign = k := by
  simp only [get?, Option.map_eq_some_iff]
  constructor
  · rintro ⟨e, he, rfl⟩
    exact ⟨e, List.mem_of_find?_eq_some he, by simpa using List.find?_some he, rfl⟩
  · rintro ⟨e, he, hs, rfl⟩
    cases hf : n.entries.find? (·.symbol = s.toList) with
    | none => simpa [hs] using List.find?_eq_none.1 hf e he
    | some x =>
      have hx : x.symbol = s.toList := by simpa using List.find?_some hf
      exact ⟨x, rfl, by rw [eq_of_symbol_eq (List.mem_of_find?_eq_some hf) he (hx.trans hs.symm)]⟩

@[simp] theorem get?_empty : empty.get? s = none := rfl

theorem get?_insert (hs : s ≠ "") :
    (n.insert s k).get? t = if t = s then some k else n.get? t := by
  refine Option.ext fun k' => ?_
  rw [get?_eq_some_iff]
  simp only [mem_entries_insert hs]
  split
  · subst t
    constructor
    · rintro ⟨e, ⟨-, hk⟩ | ⟨-, hne⟩, hs, rfl⟩
      · rw [hk]
      · exact absurd hs hne
    · intro h
      cases h
      exact ⟨⟨s.toList, k, by simpa using hs⟩, .inl ⟨rfl, rfl⟩, rfl, rfl⟩
  · rename_i hne
    have hne : t.toList ≠ s.toList := fun h => hne (String.toList_inj.1 h)
    rw [get?_eq_some_iff]
    constructor
    · rintro ⟨e, ⟨hs, -⟩ | ⟨he, -⟩, ht, hk⟩
      · exact absurd (ht.symm.trans hs) hne
      · exact ⟨e, he, ht, hk⟩
    · rintro ⟨e, he, ht, hk⟩
      exact ⟨e, .inr ⟨he, ht ▸ hne⟩, ht, hk⟩

theorem mem_of_lookup (h : n.lookup cs = some e) : e ∈ n.entries := List.mem_of_find?_eq_some h

theorem prefix_of_lookup (h : n.lookup cs = some e) : e.symbol <+: cs := by
  have := List.find?_some h
  exact List.isPrefixOf_iff_prefix.1 this

theorem length_le_of_lookup (h : n.lookup cs = some e) {x : Entry} (hx : x ∈ n.entries)
    (hxcs : x.symbol <+: cs) : x.symbol.length ≤ e.symbol.length := by
  refine (utf8Length_le_iff hxcs (prefix_of_lookup h)).1 ?_
  obtain ⟨entries, sorted⟩ := n
  obtain ⟨-, as, bs, rfl, has⟩ := List.find?_eq_some_iff_append.1 h
  rcases List.mem_append.1 hx with hx | hx
  · simpa [List.isPrefixOf_iff_prefix.2 hxcs] using has x hx
  · rcases List.mem_cons.1 hx with rfl | hx
    · exact Nat.le_refl _
    · exact ((List.pairwise_cons.1 (List.pairwise_append.1 sorted).2.1).1 x hx).2

theorem lookup_eq_none_iff : n.lookup cs = none ↔ ∀ e ∈ n.entries, ¬ e.symbol <+: cs := by
  simp [lookup]

theorem lookup_eq_some_iff :
    n.lookup cs = some e ↔ e ∈ n.entries ∧ e.symbol <+: cs ∧
      ∀ x ∈ n.entries, x.symbol <+: cs → x.symbol.length ≤ e.symbol.length := by
  refine ⟨fun h => ⟨mem_of_lookup h, prefix_of_lookup h, fun x => length_le_of_lookup h⟩,
    fun ⟨he, hcs, hmax⟩ => ?_⟩
  cases h : n.lookup cs with
  | none => exact absurd hcs (lookup_eq_none_iff.1 h e he)
  | some x =>
    have hlen := Nat.le_antisymm (hmax x (mem_of_lookup h) (prefix_of_lookup h))
      (length_le_of_lookup h he hcs)
    have hpre := List.prefix_of_prefix_length_le (prefix_of_lookup h) hcs (Nat.le_of_eq hlen)
    rw [eq_of_symbol_eq (mem_of_lookup h) he (hpre.eq_of_length hlen)]

end Entailment.Notation
