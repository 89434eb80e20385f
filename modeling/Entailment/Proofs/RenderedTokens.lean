import Entailment.Proofs.CanonicalText

/-!
# Rendered tokens are read back

A rendered token list is a row of canonical spellings with single spaces between them. No symbol
without blanks reaches beyond the spelling at which it begins, so a notation that keeps those
spellings (`Notation.KeepsWords`) reads the tokens back one by one, whether or not they make up a
formula (`reads_words`). Every text that can be read in some notation has tokens of that kind.
-/

namespace Entailment

/-- The notation leaves canonical spellings alone that stand between blanks: each of them stands for
its own sign, no symbol has a blank in it, and none is a single capital letter. -/
structure Notation.KeepsWords (n : Notation) : Prop where
  sign : ∀ k : Sign, n.get? k.text = some k
  blankFree : n.BlankFree
  no_letter : ∀ e ∈ n.entries, ∀ c, 'A' ≤ c ∧ c ≤ 'Z' → e.symbol ≠ [c]

instance (n : Notation) : Decidable n.KeepsWords :=
  decidable_of_iff ((∀ k : Sign, n.get? k.text = some k) ∧ n.BlankFree ∧
      ∀ e ∈ n.entries, ¬ (e.symbol.length = 1 ∧ e.symbol.all fun c => 'A' ≤ c ∧ c ≤ 'Z'))
    ⟨fun ⟨hsign, hblank, hletter⟩ => ⟨hsign, hblank, fun e he c hc hs =>
        hletter e he (by simp [hs, hc])⟩,
      fun h => ⟨h.sign, h.blankFree, fun e he ⟨hlen, hall⟩ => by
        obtain ⟨c, hs⟩ := List.length_eq_one_iff.1 hlen
        exact h.no_letter e he c (by simpa [hs] using hall) hs⟩⟩

namespace Notation
variable {n : Notation} {cs : List Char} {c : Char} {s : String} {o : Nat}
  {r : Except Error (List Token)} {t : Token} {ts : List Token}

theorem Compatible.keepsWords (hn : n.Compatible) : n.KeepsWords where
  sign := hn.sign
  blankFree := hn.blankFree
  no_letter e he c hc hs := by
    have hhead : c ∈ e.symbol.head? := by rw [hs]; rfl
    rcases hn.alone e he c hhead (.inr (.inr hc)) with hparen | hparen
    · obtain rfl : c = '(' := List.singleton_inj.1 (hs.symm.trans hparen)
      exact absurd hc.1 (by decide)
    · obtain rfl : c = ')' := List.singleton_inj.1 (hs.symm.trans hparen)
      exact absurd hc.1 (by decide)

/-! ### Reading tokens in a row -/

theorem get?_eq_none_of_capital (hn : n.KeepsWords) (hc : 'A' ≤ c ∧ c ≤ 'Z')
    (hcs : ∀ c ∈ cs.head?, isBlank c = true) (hs : s.toList <+: c :: cs) : n.get? s = none := by
  cases hk : n.get? s with
  | none => rfl
  | some k =>
    have hlen : s.toList.length ≤ 1 :=
      length_le_of_blankFree (w := [c]) hn.blankFree (by simp [hk]) hs hcs
    have hpre : s.toList <+: [c] :=
      List.prefix_of_prefix_length_le hs (List.prefix_append [c] cs) hlen
    obtain ⟨e, he, hes, -⟩ := get?_eq_some_iff.1 hk
    rw [← hes] at hlen hpre
    have hpos := List.length_pos_iff.2 e.symbol_ne
    have hone : e.symbol.length = 1 := by omega
    exact absurd (hpre.eq_of_length hone) (hn.no_letter e he c hc)

theorem Reads.token (hn : n.KeepsWords) (ht : t ≠ .stop)
    (hcap : ∀ c, t = .var c → 'A' ≤ c ∧ c ≤ 'Z')
    (hcs : ∀ c ∈ cs.head?, isBlank c = true)
    (h : Reads n.get? (o + utf8Length t.text.toList) cs r) :
    Reads n.get? o (t.text.toList ++ cs) (r.map (t :: ·)) := by
  cases t with
  | stop => exact absurd rfl ht
  | sign k => exact .sign (longest_word (hn.sign k) hn.blankFree hcs) h
  | var c =>
    have hc := hcap c rfl
    have htext : (Token.var c).text.toList = [c] := String.toList_singleton c
    rw [htext] at h ⊢
    exact .letter (not_blank_of_capital hc) (fun s => get?_eq_none_of_capital hn hc hcs) hc h

theorem reads_words (hn : n.KeepsWords) (hstop : .stop ∉ ts)
    (hcap : ∀ c, .var c ∈ ts → 'A' ≤ c ∧ c ≤ 'Z') :
    Reads n.get? o (" ".intercalate (ts.map Token.text)).toList (.ok (ts ++ [.stop])) := by
  induction ts generalizing o with
  | nil => exact .nil
  | cons t ts ih =>
    have ht : t ≠ .stop := fun ht => hstop (by simp [ht])
    have hcap' : ∀ c, t = .var c → 'A' ≤ c ∧ c ≤ 'Z' := fun c hc => hcap c (by simp [hc])
    have hrest : ∀ {o}, Reads n.get? o (" ".intercalate (ts.map Token.text)).toList
        (.ok (ts ++ [.stop])) :=
      ih (fun h => hstop (List.mem_cons_of_mem _ h)) fun c hc => hcap c (List.mem_cons_of_mem _ hc)
    cases ts with
    | nil =>
      have hread : Reads n.get? o (t.text.toList ++ []) (.ok [t, .stop]) :=
        .token hn ht hcap' (by simp) .nil
      rwa [List.append_nil] at hread
    | cons u ts =>
      rw [List.map_cons, List.map_cons, String.intercalate_cons_cons, String.toList_append,
        String.toList_append, List.append_assoc]
      exact .token hn ht hcap' (by simp [isBlank]) (.space hrest)

/-- A notation that `KeepsWords` reads a rendered list over capital letters as the list with one end
marker. The standard notation reads so whatever any notation has read. -/
theorem tokenize_render :
    standard.KeepsWords ∧
    (∀ n : Notation, n.KeepsWords → ∀ ts, (∀ c, .var c ∈ ts → 'A' ≤ c ∧ c ≤ 'Z') →
      n.tokenize (Token.render ts) = .ok (ts.filter (· != .stop) ++ [.stop])) ∧
    ∀ (n : Notation) text ts, n.tokenize text = .ok ts →
      standard.tokenize (Token.render ts) = .ok ts := by
  have hrender : ∀ n : Notation, n.KeepsWords → ∀ ts, (∀ c, .var c ∈ ts → 'A' ≤ c ∧ c ≤ 'Z') →
      n.tokenize (Token.render ts) = .ok (ts.filter (· != .stop) ++ [.stop]) := by
    intro n hn ts hcap
    refine tokenize_eq_iff.2 (reads_words hn (by simp) fun c hc => hcap c ?_)
    exact (List.mem_filter.1 hc).1
  have hstandard : standard.KeepsWords := compatible_standard.keepsWords
  refine ⟨hstandard, hrender, fun n text ts h => ?_⟩
  rw [hrender standard hstandard ts fun c hc => capital_of_tokenize h hc]
  -- the one end marker of a text that has been read is the one that is put back
  obtain ⟨us, rfl, hstop, -⟩ := (tokenize_eq_iff.1 h).eq_append_stop
  have hfilter : us.filter (· != .stop) = us :=
    List.filter_eq_self.2 fun t ht => bne_iff_ne.2 fun htstop => hstop (htstop ▸ ht)
  rw [List.filter_append, hfilter]
  simp

/-- Symbols that begin like a spelling or a letter, or that go on behind one, do not get in the
way. -/
theorem tokenize_render_crowded :
    (standard.insertMany [("(A", .not), ("AB", .lparen), ("not(", .rparen)]).tokenize
        ") A not ( A B" =
      .ok [.sign .rparen, .var 'A', .sign .not, .sign .lparen, .var 'A', .var 'B', .stop] ∧
    standard.tokenize ") A not ( A B" =
      .ok [.sign .rparen, .var 'A', .sign .not, .sign .lparen, .var 'A', .var 'B', .stop] := by
  have hn :
      (standard.insertMany [("(A", .not), ("AB", .lparen), ("not(", .rparen)]).KeepsWords := by
    decide
  have hread := tokenize_render.2.1 _ hn
    [.sign .rparen, .stop, .var 'A', .sign .not, .sign .lparen, .stop, .stop, .var 'A', .var 'B']
    (by simp)
  have hrender : Token.render [.sign .rparen, .stop, .var 'A', .sign .not, .sign .lparen, .stop,
      .stop, .var 'A', .var 'B'] = ") A not ( A B" := by decide +kernel
  rw [hrender] at hread
  have hstandard := tokenize_render.2.2 _ _ _ hread
  have hrender' : Token.render [.sign .rparen, .var 'A', .sign .not, .sign .lparen, .var 'A',
      .var 'B', .stop] = ") A not ( A B" := by decide +kernel
  exact ⟨hread, hrender' ▸ hstandard⟩

end Notation

end Entailment
