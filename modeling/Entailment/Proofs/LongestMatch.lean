import Entailment.Notation.Scan

/-!
# Longest match

What a text means depends on a notation only through the sign that each symbol stands for.
`Notation.Reads` says how a text is read when all that is known is a map from symbols to signs; it
has at most one result for each text (`Reads.unique`), and a scan follows it (`reads_scan`). The map
of a notation that has been built by registrations is the one in which the last registration of each
symbol counts (`get?_insertMany`), in whatever order the table keeps them.
-/

namespace Entailment

/-- The character separates lexemes: a space, tab, line feed, form feed or carriage return. -/
def Blank (c : Char) : Prop := c ∈ [' ', '\t', '\n', '\x0c', '\r']

theorem isBlank_iff {c : Char} : isBlank c = true ↔ Blank c := by
  simp [isBlank, Blank, or_assoc]

instance (c : Char) : Decidable (Blank c) := decidable_of_iff _ isBlank_iff

theorem isUpper_iff {c : Char} : c.isUpper = true ↔ 'A' ≤ c ∧ c ≤ 'Z' :=
  decide_eq_true_iff

namespace Notation

/-! ### Reading with a map of symbols -/

/-- The symbol `s` stands for `k`, it begins the text `cs`, and no longer symbol does. -/
structure Longest (m : String → Option Sign) (cs : List Char) (s : String) (k : Sign) : Prop where
  sign : m s = some k
  begins : s.toList <+: cs
  longest : ∀ t, t.toList <+: cs → (m t).isSome → t.toList.length ≤ s.toList.length

/-- What is read in the text `cs`, of which the first character is `o` bytes into the whole text,
when symbols stand for the signs that `m` gives them. Blanks are dropped; elsewhere the longest
symbol is taken, or else a capital letter; where there is neither, the rest cannot be read. -/
inductive Reads (m : String → Option Sign) : Nat → List Char → Except Error (List Token) → Prop
  | nil {o : Nat} : Reads m o [] (.ok [.stop])
  | blank {o : Nat} {c : Char} {cs : List Char} {r : Except Error (List Token)}
      (blank : Blank c) (rest : Reads m (o + c.utf8Size) cs r) : Reads m o (c :: cs) r
  | symbol {o : Nat} {c : Char} {cs : List Char} {s : String} {k : Sign}
      {r : Except Error (List Token)} (not_blank : ¬ Blank c) (longest : Longest m (c :: cs) s k)
      (rest : Reads m (o + utf8Length s.toList) ((c :: cs).drop s.toList.length) r) :
      Reads m o (c :: cs) (r.map (.sign k :: ·))
  | letter {o : Nat} {c : Char} {cs : List Char} {r : Except Error (List Token)}
      (not_blank : ¬ Blank c) (no_symbol : ∀ s, s.toList <+: c :: cs → m s = none)
      (capital : 'A' ≤ c ∧ c ≤ 'Z') (rest : Reads m (o + c.utf8Size) cs r) :
      Reads m o (c :: cs) (r.map (.var c :: ·))
  | unreadable {o : Nat} {c : Char} {cs : List Char}
      (not_blank : ¬ Blank c) (no_symbol : ∀ s, s.toList <+: c :: cs → m s = none)
      (not_capital : ¬ ('A' ≤ c ∧ c ≤ 'Z')) :
      Reads m o (c :: cs) (.error (.unreadable (String.ofList (c :: cs)) o))

variable {m : String → Option Sign} {n : Notation} {cs : List Char} {s t : String} {k k' : Sign}
  {o : Nat} {r r' : Except Error (List Token)}

theorem Longest.unique (h : Longest m cs s k) (h' : Longest m cs t k') : s = t ∧ k = k' := by
  have hlen := Nat.le_antisymm (h'.longest s h.begins (by simp [h.sign]))
    (h.longest t h'.begins (by simp [h'.sign]))
  have hst : s = t := String.toList_inj.1
    ((List.prefix_of_prefix_length_le h.begins h'.begins (Nat.le_of_eq hlen)).eq_of_length hlen)
  subst hst
  exact ⟨rfl, Option.some.inj (h.sign.symm.trans h'.sign)⟩

theorem Longest.not_forall_eq_none (h : Longest m cs s k) :
    ¬ ∀ s, s.toList <+: cs → m s = none := by
  intro hnone
  have hs := hnone s h.begins
  rw [h.sign] at hs
  cases hs

theorem Reads.unique (h : Reads m o cs r) (h' : Reads m o cs r') : r = r' := by
  induction h generalizing r' with
  | nil => cases h'; rfl
  | blank hb _ ih =>
    cases h' with
    | blank _ hrest => exact ih hrest
    | symbol hnb => exact absurd hb hnb
    | letter hnb => exact absurd hb hnb
    | unreadable hnb => exact absurd hb hnb
  | symbol hnb hs _ ih =>
    cases h' with
    | blank hb => exact absurd hb hnb
    | symbol _ hs' hrest =>
      obtain ⟨rfl, rfl⟩ := hs.unique hs'
      rw [ih hrest]
    | letter _ hno => exact absurd hno hs.not_forall_eq_none
    | unreadable _ hno => exact absurd hno hs.not_forall_eq_none
  | letter hnb hno hc _ ih =>
    cases h' with
    | blank hb => exact absurd hb hnb
    | symbol _ hs' => exact absurd hno hs'.not_forall_eq_none
    | letter _ _ _ hrest => rw [ih hrest]
    | unreadable _ _ hnc => exact absurd hc hnc
  | unreadable hnb hno hnc =>
    cases h' with
    | blank hb => exact absurd hb hnb
    | symbol _ hs' => exact absurd hno hs'.not_forall_eq_none
    | letter _ _ hc => exact absurd hc hnc
    | unreadable => rfl

theorem Reads.blanks {bs : List Char} (hbs : ∀ c ∈ bs, isBlank c = true)
    (h : Reads m (o + utf8Length bs) cs r) : Reads m o (bs ++ cs) r := by
  induction bs generalizing o with
  | nil => exact h
  | cons c bs ih =>
    obtain ⟨hc, hbs⟩ := List.forall_mem_cons.1 hbs
    rw [utf8Length_cons, ← Nat.add_assoc] at h
    exact .blank (isBlank_iff.1 hc) (ih hbs h)

/-! ### A scan reads with the signs of its notation -/

theorem longest_of_lookup {e : Entry} (h : n.lookup cs = some e) :
    Longest n.get? cs (String.ofList e.symbol) e.sign := by
  obtain ⟨he, hcs, hmax⟩ := lookup_eq_some_iff.1 h
  refine ⟨get?_eq_some_iff.2 ⟨e, he, String.toList_ofList.symm, rfl⟩,
    by rwa [String.toList_ofList], fun t ht hk => ?_⟩
  obtain ⟨k, hk⟩ := Option.isSome_iff_exists.1 hk
  obtain ⟨x, hx, hxt, -⟩ := get?_eq_some_iff.1 hk
  rw [String.toList_ofList, ← hxt]
  exact hmax x hx (hxt ▸ ht)

theorem get?_eq_none_of_lookup (h : n.lookup cs = none) (hs : s.toList <+: cs) :
    n.get? s = none := by
  cases hk : n.get? s with
  | none => rfl
  | some k =>
    obtain ⟨e, he, hes, -⟩ := get?_eq_some_iff.1 hk
    exact absurd (hes ▸ hs) (lookup_eq_none_iff.1 h e he)

end Notation

theorem exists_toList_eq_cons {s : String} (h : s ≠ "") : ∃ c cs, s.toList = c :: cs :=
  List.exists_cons_of_ne_nil fun hnil => h (String.toList_eq_nil_iff.1 hnil)

theorem map_nil_append (r : Except Error (List Token)) : r.map ([] ++ ·) = r := by
  cases r <;> rfl

namespace Scan
variable {o : Nat} {ss : List Segment} {s : Segment} {cs : List Char}

theorem tokens_cons : tokens ⟨s :: ss, cs⟩ = s.token?.toList ++ tokens ⟨ss, cs⟩ := by
  unfold tokens
  rw [List.filterMap_cons]
  cases s.token? <;> rfl

/-- The result of a scan that begins `o` bytes into a text. -/
def resultFrom (o : Nat) (s : Scan) : Except Error (List Token) :=
  match s.unread with
  | [] => .ok (s.tokens ++ [.stop])
  | c :: cs => .error (.unreadable (String.ofList (c :: cs)) (o + utf8Length s.read))

theorem resultFrom_zero (s : Scan) : s.resultFrom 0 = s.result := by
  obtain ⟨ss, cs⟩ := s
  cases cs with
  | nil => rfl
  | cons c cs => simp [resultFrom, result]

theorem resultFrom_cons : resultFrom o ⟨s :: ss, cs⟩ =
    (resultFrom (o + utf8Length s.text) ⟨ss, cs⟩).map (s.token?.toList ++ ·) := by
  cases cs with
  | nil =>
    unfold resultFrom
    rw [tokens_cons, List.append_assoc]
    rfl
  | cons c cs => simp [resultFrom, Except.map, Nat.add_assoc]

end Scan

namespace Notation
variable {n : Notation} {cs : List Char} {o : Nat} {r : Except Error (List Token)} {s : Segment}

theorem reads_of_next? (h : n.next? cs = some s)
    (hr : Reads n.get? (o + utf8Length s.text) (cs.drop s.text.length) r) :
    Reads n.get? o cs (r.map (s.token?.toList ++ ·)) := by
  have hsplit := append_drop_of_next? h
  revert h
  fun_cases n.next? cs with
  | case1 => rintro ⟨⟩
  | case2 c cs hc =>
    rintro ⟨⟩
    have hblanks : ∀ b ∈ (c :: cs).takeWhile isBlank, isBlank b = true :=
      List.all_eq_true.1 List.all_takeWhile
    have hread := Reads.blanks hblanks hr
    rw [hsplit] at hread
    show Reads n.get? o (c :: cs) (r.map ([] ++ ·))
    rw [map_nil_append]
    exact hread
  | case3 c cs hc e he =>
    rintro ⟨⟩
    have hr' : Reads n.get? (o + utf8Length (String.ofList e.symbol).toList)
        ((c :: cs).drop (String.ofList e.symbol).toList.length) r := by
      rw [String.toList_ofList]
      exact hr
    exact .symbol (fun hb => hc (isBlank_iff.2 hb)) (longest_of_lookup he) hr'
  | case4 c cs hc he hupper =>
    rintro ⟨⟩
    exact .letter (fun hb => hc (isBlank_iff.2 hb)) (fun s => get?_eq_none_of_lookup he)
      (isUpper_iff.1 hupper) hr
  | case5 => rintro ⟨⟩

theorem reads_of_next?_eq_none (h : n.next? cs = none) :
    Reads n.get? o cs (Scan.resultFrom o ⟨[], cs⟩) := by
  revert h
  fun_cases n.next? cs with
  | case1 => exact fun _ => .nil
  | case2 => rintro ⟨⟩
  | case3 => rintro ⟨⟩
  | case4 => rintro ⟨⟩
  | case5 c cs hc he hupper =>
    exact fun _ => .unreadable (fun hb => hc (isBlank_iff.2 hb))
      (fun s => get?_eq_none_of_lookup he) fun h => hupper (isUpper_iff.2 h)

theorem reads_scan (n : Notation) (cs : List Char) (o : Nat) :
    Reads n.get? o cs ((n.scan cs).resultFrom o) := by
  fun_induction n.scan cs generalizing o with
  | case1 cs h => exact reads_of_next?_eq_none h
  | case2 cs s h _ rest ih =>
    rw [Scan.resultFrom_cons]
    exact reads_of_next? h (ih _)

theorem tokenize_eq_iff {text : String} : n.tokenize text = r ↔ Reads n.get? 0 text.toList r := by
  have hscan := n.reads_scan text.toList 0
  rw [Scan.resultFrom_zero] at hscan
  exact ⟨fun h => h ▸ hscan, hscan.unique⟩

/-! ### The signs after registrations -/

/-- What symbols stand for when those of `m` come first and then the registrations of a list: the
last registration of a symbol counts, and the empty symbol cannot be registered. -/
def registered (m : String → Option Sign) (l : List (String × Sign)) (s : String) : Option Sign :=
  if s = "" then m s else ((l.reverse.find? fun p => p.1 = s).map (·.2)).or (m s)

variable {t u : String} {k : Sign} {l : List (String × Sign)}

theorem get?_empty_symbol : n.get? "" = none := by
  cases hk : n.get? "" with
  | none => rfl
  | some k =>
    obtain ⟨e, -, he, -⟩ := get?_eq_some_iff.1 hk
    exact absurd he e.symbol_ne

theorem get?_insert_of_ne_empty (ht : t ≠ "") :
    (n.insert u k).get? t = if u = t then some k else n.get? t := by
  by_cases hu : u = ""
  · rw [hu, insert_empty, if_neg (Ne.symm ht)]
  · rw [get?_insert hu]
    simp only [eq_comm]

theorem get?_insertMany : (n.insertMany l).get? t = registered n.get? l t := by
  by_cases ht : t = ""
  · rw [ht, registered, if_pos rfl, get?_empty_symbol, get?_empty_symbol]
  · rw [registered, if_neg ht]
    induction l generalizing n with
    | nil => rfl
    | cons p l ih =>
      rw [insertMany, List.foldl_cons, ← insertMany, ih, List.reverse_cons, List.find?_append]
      -- a registration that comes later takes precedence over the first one
      cases (l.reverse.find? fun p => p.1 = t) with
      | some q => rfl
      | none =>
        rw [get?_insert_of_ne_empty ht]
        by_cases hp : p.1 = t <;> simp [hp]

/-- Building a notation by registrations gives a longest-match reader for the signs that the last
registration of each symbol gives it, and nothing else about them matters: two notations in which
all symbols end up with the same signs read every text alike. -/
theorem tokenize_insertMany (n : Notation) (l : List (String × Sign)) :
    (∀ (text : String) (r : Except Error (List Token)),
      (n.insertMany l).tokenize text = r ↔ Reads (registered n.get? l) 0 text.toList r) ∧
    ∀ (n' : Notation) (l' : List (String × Sign)),
      (∀ s, registered n.get? l s = registered n'.get? l' s) →
        ∀ text, (n.insertMany l).tokenize text = (n'.insertMany l').tokenize text := by
  have hmap : ∀ (n : Notation) l, (n.insertMany l).get? = registered n.get? l :=
    fun n l => funext fun s => get?_insertMany
  refine ⟨fun text r => by rw [tokenize_eq_iff, hmap], fun n' l' h text => ?_⟩
  rw [tokenize_eq_iff, hmap, funext h, ← hmap, ← tokenize_eq_iff]

/-- The order of registrations, a registration that is replaced later, and one of the empty symbol
leave no trace. -/
theorem tokenize_insertMany_reordered (text : String) :
    (empty.insertMany [(">", .connective .implies), (">>", .connective .iff)]).tokenize text =
      (empty.insertMany [(">>", .not), ("", .lparen), (">", .connective .implies),
        (">>", .connective .iff)]).tokenize text := by
  refine (tokenize_insertMany _ _).2 _ _ (fun s => ?_) text
  by_cases hshort : s = ">"
  · subst hshort; rfl
  by_cases hlong : s = ">>"
  · subst hlong; rfl
  by_cases hempty : s = ""
  · subst hempty; rfl
  simp [registered, Ne.symm hshort, Ne.symm hlong, Ne.symm hempty]

end Notation

end Entailment
