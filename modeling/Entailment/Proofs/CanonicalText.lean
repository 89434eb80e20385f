import Entailment.Proofs.LongestMatch
import Entailment.Proofs.MissingParens

/-!
# Canonical texts are read back

In a notation that keeps the canonical spellings, and whose other symbols cannot reach across the
places where a canonical text is cut, the text of a formula is read as its own spelling
(`reads_text`), whatever follows it. That needs the variables to be capital letters: no text is ever
read as another variable (`Reads.eq_append_stop`).
-/

namespace Entailment

/-- Every variable of the formula is a capital letter. -/
def Formula.Capital (f : Formula) : Prop := ∀ c ∈ f.leaves, 'A' ≤ c ∧ c ≤ 'Z'

instance (f : Formula) : Decidable f.Capital :=
  decidable_of_iff (f.leaves.all fun c => 'A' ≤ c ∧ c ≤ 'Z') (by simp [Formula.Capital])

theorem Sign.forall_iff {P : Sign → Prop} : (∀ k, P k) ↔ ∀ k ∈ [connective .and, connective .or,
    connective .implies, connective .iff, not, lparen, rparen], P k := by
  refine ⟨fun h k _ => h k, fun h k => h k ?_⟩
  rcases k with (_ | _ | _ | _) | _ | _ | _ <;> decide

instance {P : Sign → Prop} [DecidablePred P] : Decidable (∀ k, P k) :=
  decidable_of_iff _ Sign.forall_iff.symm

/-- No symbol of the notation has a blank in it. -/
def Notation.BlankFree (n : Notation) : Prop := ∀ e ∈ n.entries, ∀ c ∈ e.symbol, isBlank c = false

/-- The notation leaves canonical texts alone: the canonical spelling of every sign stands for that
sign, no symbol has a blank in it, and apart from the two parentheses none begins with a parenthesis
or a capital letter. -/
structure Notation.Compatible (n : Notation) : Prop where
  sign : ∀ k : Sign, n.get? k.text = some k
  blankFree : n.BlankFree
  alone : ∀ e ∈ n.entries, ∀ c ∈ e.symbol.head?,
    c = '(' ∨ c = ')' ∨ 'A' ≤ c ∧ c ≤ 'Z' → e.symbol = ['('] ∨ e.symbol = [')']

instance (n : Notation) : Decidable n.BlankFree :=
  decidable_of_iff (∀ e ∈ n.entries, e.symbol.all (!isBlank ·)) (by simp [Notation.BlankFree])

instance (n : Notation) : Decidable n.Compatible :=
  decidable_of_iff (n.BlankFree ∧
      (∀ k ∈ [.connective .and, .connective .or, .connective .implies, .connective .iff, .not,
        .lparen, .rparen], n.get? (Sign.text k) = some k) ∧
      ∀ e ∈ n.entries, e.symbol.head?.all fun c =>
        c = '(' ∨ c = ')' ∨ 'A' ≤ c ∧ c ≤ 'Z' → e.symbol = ['('] ∨ e.symbol = [')'])
    ⟨fun ⟨hblank, hsign, halone⟩ => ⟨Sign.forall_iff.2 hsign, hblank, fun e he c hc =>
        of_decide_eq_true ((Option.all_eq_true _ _).1 (halone e he) c hc)⟩,
      fun h => ⟨h.blankFree, Sign.forall_iff.1 h.sign, fun e he =>
        (Option.all_eq_true _ _).2 fun c hc => decide_eq_true (h.alone e he c hc)⟩⟩

namespace Formula
variable {f l r : Formula} {op : Connective} {c : Char}

theorem toList_text_not : (not f).text.toList = "not".toList ++ ' ' :: f.text.toList := by
  rw [text, String.toList_append]
  rfl

theorem toList_text_binary : (binary op l r).text.toList =
    "(".toList ++ (l.text.toList ++ ' ' :: (op.word.toList ++ ' ' ::
      (r.text.toList ++ ")".toList))) := by
  have hblank : " ".toList = [' '] := rfl
  simp only [text, String.toList_append, hblank, List.append_assoc, List.cons_append,
    List.nil_append]

theorem var_mem_spell_iff : .var c ∈ f.spell ↔ c ∈ f.leaves := by
  induction f with
  | var x => simp [leaves, spell]
  | not f ih => simp [leaves, spell, ih]
  | binary op l r ihl ihr => simp [leaves, spell, ihl, ihr]

end Formula

namespace Notation
variable {n : Notation} {cs : List Char} {k : Sign} {o : Nat} {r : Except Error (List Token)}
  {s : String} {c : Char}

/-! ### Where the spelling of a sign ends -/

theorem exists_toList_text (k : Sign) : ∃ c w, k.text.toList = c :: w ∧ ¬ Blank c := by
  rcases k with (_ | _ | _ | _) | _ | _ | _ <;> exact ⟨_, _, rfl, by decide⟩

/-- A beginning of a text that lacks the character behind `w` ends in `w`. -/
theorem length_le_of_notMem {t w : List Char} (h : t <+: w ++ c :: cs) (hc : c ∉ t) :
    t.length ≤ w.length := by
  refine Nat.not_lt.1 fun hlt => ?_
  have hw : w ++ [c] <+: t :=
    List.prefix_of_prefix_length_le ⟨cs, by simp⟩ h (by rw [List.length_append]; exact hlt)
  exact hc (hw.subset (by simp))

/-- A symbol without blanks ends where a blank, or nothing, follows. -/
theorem length_le_of_mem_entries {e : Entry} {w : List Char} (hn : n.BlankFree)
    (he : e ∈ n.entries) (hs : e.symbol <+: w ++ cs) (hcs : ∀ c ∈ cs.head?, isBlank c = true) :
    e.symbol.length ≤ w.length := by
  cases cs with
  | nil => simpa using hs.length_le
  | cons c cs =>
    refine length_le_of_notMem hs fun hc => ?_
    have hblank := hn e he c hc
    rw [hcs c rfl] at hblank
    cases hblank

theorem length_le_of_blankFree {w : List Char} (hn : n.BlankFree) (hk : (n.get? s).isSome)
    (hs : s.toList <+: w ++ cs) (hcs : ∀ c ∈ cs.head?, isBlank c = true) :
    s.toList.length ≤ w.length := by
  obtain ⟨k, hk⟩ := Option.isSome_iff_exists.1 hk
  obtain ⟨e, he, hes, -⟩ := get?_eq_some_iff.1 hk
  rw [← hes] at hs ⊢
  exact length_le_of_mem_entries hn he hs hcs

theorem longest_word (hk : n.get? k.text = some k) (hn : n.BlankFree)
    (hcs : ∀ c ∈ cs.head?, isBlank c = true) : Longest n.get? (k.text.toList ++ cs) k.text k where
  sign := hk
  begins := List.prefix_append ..
  longest _ ht ht' := length_le_of_blankFree hn ht' ht hcs

/-- A symbol that begins where a parenthesis or a capital letter stands is a parenthesis. -/
theorem eq_paren_of_get? (hn : n.Compatible) (hs : s.toList <+: c :: cs)
    (hk : (n.get? s).isSome) (hc : c = '(' ∨ c = ')' ∨ 'A' ≤ c ∧ c ≤ 'Z') :
    s.toList = [c] ∧ (c = '(' ∨ c = ')') := by
  obtain ⟨k, hk⟩ := Option.isSome_iff_exists.1 hk
  obtain ⟨e, he, hes, -⟩ := get?_eq_some_iff.1 hk
  rw [← hes] at hs ⊢
  have hhead : c ∈ e.symbol.head? := by
    obtain ⟨x, w, hw⟩ := List.exists_cons_of_ne_nil e.symbol_ne
    rw [hw, List.cons_prefix_cons] at hs
    rw [hw, hs.1]
    rfl
  rcases hn.alone e he c hhead hc with h | h
  · rw [h] at hhead
    cases hhead
    exact ⟨h, .inl rfl⟩
  · rw [h] at hhead
    cases hhead
    exact ⟨h, .inr rfl⟩

theorem longest_paren (hn : n.Compatible) (hk : k.text.toList = [c]) (hc : c = '(' ∨ c = ')') :
    Longest n.get? (k.text.toList ++ cs) k.text k where
  sign := hn.sign k
  begins := List.prefix_append ..
  longest t ht ht' := by
    rw [hk] at ht ⊢
    exact Nat.le_of_eq (congrArg _ (eq_paren_of_get? hn ht ht' (hc.imp_right .inl)).1)

/-! ### Reading a canonical text -/

theorem Reads.sign (hk : Longest n.get? (k.text.toList ++ cs) k.text k)
    (h : Reads n.get? (o + utf8Length k.text.toList) cs r) :
    Reads n.get? o (k.text.toList ++ cs) (r.map (.sign k :: ·)) := by
  obtain ⟨c, w, hw, hc⟩ := exists_toList_text k
  have hdrop : (k.text.toList ++ cs).drop k.text.toList.length = cs := List.drop_left
  rw [← hdrop] at h
  rw [hw, List.cons_append] at hk h ⊢
  refine .symbol hc hk ?_
  rwa [hw]

theorem Reads.space (h : Reads n.get? (o + 1) cs r) : Reads n.get? o (' ' :: cs) r :=
  .blank (by decide) h

theorem not_blank_of_capital (hc : 'A' ≤ c ∧ c ≤ 'Z') : ¬ Blank c := by
  intro hb
  simp only [Blank, List.mem_cons, List.not_mem_nil, or_false] at hb
  rcases hb with rfl | rfl | rfl | rfl | rfl <;> exact absurd hc.1 (by decide)

theorem Reads.capitalLetter (hn : n.Compatible) (hc : 'A' ≤ c ∧ c ≤ 'Z')
    (h : Reads n.get? (o + c.utf8Size) cs r) : Reads n.get? o (c :: cs) (r.map (.var c :: ·)) := by
  refine .letter (not_blank_of_capital hc) (fun s hs => ?_) hc h
  cases hk : n.get? s with
  | none => rfl
  | some k =>
    rcases (eq_paren_of_get? hn hs (by simp [hk]) (.inr (.inr hc))).2 with rfl | rfl
    · exact absurd hc.1 (by decide)
    · exact absurd hc.1 (by decide)

variable {f : Formula}

/-- The text of a formula is read as its spelling, and what follows it is read as it would be by
itself. -/
theorem reads_text (hn : n.Compatible) (hf : f.Capital)
    (h : Reads n.get? (o + utf8Length f.text.toList) cs r) :
    Reads n.get? o (f.text.toList ++ cs) (r.map (f.spell ++ ·)) := by
  have hspace : ∀ {cs : List Char}, ∀ c ∈ (' ' :: cs).head?, isBlank c = true := by simp [isBlank]
  -- what follows the text is arbitrary, so that the induction reaches an operand inside a formula
  induction f generalizing o cs r with
  | var c =>
    have htext : (Formula.var c).text.toList = [c] := String.toList_singleton c
    rw [htext] at h ⊢
    exact .capitalLetter hn (hf c (by simp [Formula.leaves])) h
  | not f ih =>
    have hmap : r.map ((Formula.not f).spell ++ ·) =
        (r.map (f.spell ++ ·)).map (.sign .not :: ·) := by cases r <;> rfl
    rw [hmap]
    rw [Formula.toList_text_not] at h ⊢
    rw [List.append_assoc]
    refine Reads.sign (k := .not) (longest_word (hn.sign _) hn.blankFree hspace) (.space (ih hf ?_))
    simp only [utf8Length_append, utf8Length_cons, ← Nat.add_assoc] at h
    exact h
  | binary op left right ihl ihr =>
    have hl : left.Capital := fun c hc => hf c (by simp [Formula.leaves, hc])
    have hr : right.Capital := fun c hc => hf c (by simp [Formula.leaves, hc])
    have hmap : r.map ((Formula.binary op left right).spell ++ ·) =
        ((((r.map (.sign .rparen :: ·)).map (right.spell ++ ·)).map
          (.sign (.connective op) :: ·)).map (left.spell ++ ·)).map (.sign .lparen :: ·) := by
      cases r with
      | ok ts => simp [Except.map, Formula.spell]
      | error e => rfl
    rw [hmap]
    rw [Formula.toList_text_binary] at h ⊢
    simp only [List.append_assoc, List.cons_append]
    refine Reads.sign (k := .lparen) (longest_paren hn rfl (.inl rfl)) (ihl hl (.space ?_))
    refine Reads.sign (k := .connective op) (longest_word (hn.sign _) hn.blankFree hspace)
      (.space (ihr hr ?_))
    refine Reads.sign (k := .rparen) (longest_paren hn rfl (.inr rfl)) ?_
    simp only [utf8Length_append, utf8Length_cons, ← Nat.add_assoc] at h
    exact h

theorem tokenize_text (hn : n.Compatible) (hf : f.Capital) :
    n.tokenize f.text = .ok (f.spell ++ [.stop]) := by
  have hread : Reads n.get? 0 (f.text.toList ++ []) ((Except.ok [.stop]).map (f.spell ++ ·)) :=
    reads_text hn hf .nil
  rw [List.append_nil] at hread
  exact tokenize_eq_iff.2 hread

/-! ### Other variables -/

/-- What is read ends in the only end marker, and the variables before it are capital letters. -/
theorem Reads.eq_append_stop {m : String → Option Sign} {ts : List Token}
    (h : Reads m o cs (.ok ts)) : ∃ us, ts = us ++ [.stop] ∧ .stop ∉ us ∧
      ∀ c, .var c ∈ us → 'A' ≤ c ∧ c ≤ 'Z' := by
  generalize hr : Except.ok ts = r at h
  induction h generalizing ts with
  | nil => cases hr; exact ⟨[], rfl, by simp⟩
  | blank _ _ ih => exact ih hr
  | @symbol _ _ _ _ k r _ _ _ ih =>
    cases r with
    | error e => cases hr
    | ok vs =>
      cases hr
      obtain ⟨us, rfl, hstop, hcap⟩ := ih rfl
      exact ⟨.sign k :: us, rfl, by simpa using hstop, by simpa using hcap⟩
  | @letter _ c _ r _ _ hc _ ih =>
    cases r with
    | error e => cases hr
    | ok vs =>
      cases hr
      obtain ⟨us, rfl, hstop, hcap⟩ := ih rfl
      refine ⟨.var c :: us, rfl, by simpa using hstop, fun x hx => ?_⟩
      rcases List.mem_cons.1 hx with hx | hx
      · cases hx
        exact hc
      · exact hcap x hx
  | unreadable => cases hr

theorem capital_of_tokenize {text : String} {ts : List Token} (h : n.tokenize text = .ok ts)
    (hc : .var c ∈ ts) : 'A' ≤ c ∧ c ≤ 'Z' := by
  obtain ⟨us, rfl, -, hcap⟩ := (tokenize_eq_iff.1 h).eq_append_stop
  exact hcap c (by simpa using hc)

/-! ### The standard notation -/

theorem compatible_standard : standard.Compatible := by decide

end Notation

variable {f : Formula} {ts : List Token}

theorem var_mem_of_parse {c : Char} (h : parse ts = .ok f) (hc : c ∈ f.leaves) : .var c ∈ ts := by
  obtain ⟨w, hts, hw⟩ := parse_eq_ok_iff.1 h
  have hmem : .var c ∈ w := by
    rw [← Formula.var_mem_spell_iff] at hc
    rcases hw with rfl | ⟨op, l, r, rfl, rfl⟩
    · exact hc
    · simpa [Formula.spell, Formula.bare] using hc
  rcases hts with rfl | rfl
  · exact hmem
  · exact List.mem_append_left _ hmem

theorem capital_of_parse {n : Notation} {text : String} (hts : n.tokenize text = .ok ts)
    (h : parse ts = .ok f) : f.Capital :=
  fun _ hc => n.capital_of_tokenize hts (var_mem_of_parse h hc)

/-- In a `Compatible` notation the text of a formula over capital letters is read as its `spell` and
that exactly as written as the formula. The text of another formula is never read as it. -/
theorem text_reads_back :
    Notation.standard.Compatible ∧
    (∀ n : Notation, n.Compatible → ∀ f : Formula,
      (f.Capital →
        n.tokenize f.text = .ok (f.spell ++ [.stop]) ∧
          parseStatement (f.spell ++ [.stop]) = .ok f) ∧
      (¬ f.Capital → ∀ ts, n.tokenize f.text = .ok ts →
        parseStatement ts ≠ .ok f ∧ parse ts ≠ .ok f)) ∧
    ∀ f g : Formula, f.Capital → g.Capital → f.text = g.text → f = g := by
  refine ⟨Notation.compatible_standard, fun n hn f => ⟨fun hf => ?_, fun hf ts hts => ?_⟩,
    fun f g hf hg htext => ?_⟩
  · exact ⟨n.tokenize_text hn hf, parseStatement_spell_stop f⟩
  · have hparse : parse ts ≠ .ok f := fun h => hf (capital_of_parse hts h)
    exact ⟨fun h => hparse (parse_of_parseStatement h), hparse⟩
  · have hspell : f.spell ++ [.stop] = g.spell ++ [.stop] := by
      have htokens := Notation.standard.tokenize_text Notation.compatible_standard hf
      rw [htext, Notation.standard.tokenize_text Notation.compatible_standard hg] at htokens
      exact (Except.ok.inj htokens).symm
    have hparse := parseStatement_spell_stop f
    rw [hspell, parseStatement_spell_stop g] at hparse
    exact (Except.ok.inj hparse).symm

/-- Symbols that begin like a canonical word, or that go on behind one with a parenthesis, do not
get in the way. A variable that is spelled like a symbol is read as that symbol. -/
theorem text_reads_back_crowded :
    ((Notation.standard.insert "an" .not).insert "and(" .rparen).tokenize "(not A and (B iff A))" =
      .ok [.sign .lparen, .sign .not, .var 'A', .sign (.connective .and), .sign .lparen, .var 'B',
        .sign (.connective .iff), .var 'A', .sign .rparen, .sign .rparen, .stop] ∧
    ∀ ts, Notation.standard.tokenize "~" = .ok ts → parse ts ≠ .ok (.var '~') := by
  have hn : ((Notation.standard.insert "an" .not).insert "and(" .rparen).Compatible := by decide
  have hread := text_reads_back.2.1 _ hn
    (.binary .and (.not (.var 'A')) (.binary .iff (.var 'B') (.var 'A')))
  have htilde := text_reads_back.2.1 _ text_reads_back.1 (.var '~')
  exact ⟨(hread.1 (by decide)).1, fun ts hts => (htilde.2 (by decide) ts hts).2⟩

end Entailment
