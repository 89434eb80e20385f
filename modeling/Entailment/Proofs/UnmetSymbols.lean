import Entailment.Proofs.ArgumentOutcome
import Entailment.Proofs.LongestMatch
import Mathlib.Control.Monad.Basic

/-!
# Symbols that a text does not meet

A reading asks for symbols at the places of a text where something other than a blank stands, and
there only for those that begin the rest of the text (`Reads.agree`). A symbol that does not occur
in a text, or that begins with a blank, is never asked for. So registering it, for the first time
or for another sign, leaves the reading as it is, although it may change the order of the whole
table.
-/

namespace Entailment

namespace Notation

/-- No reading of the text asks for the symbol: it does not occur there, or it begins with a
blank. -/
def Unmet (s text : String) : Prop := ¬ s.toList <:+: text.toList ∨ ∃ c ∈ s.toList.head?, Blank c

/-- Two maps give the same signs to the symbols that begin the text. -/
def Agree (m m' : String → Option Sign) (cs : List Char) : Prop := ∀ s, s.toList <+: cs → m s = m' s

variable {m m' : String → Option Sign} {n : Notation} {cs : List Char} {c : Char} {k : Sign}
  {s t text : String} {o : Nat} {r : Except Error (List Token)}

/-! ### Where symbols are asked for -/

theorem Longest.agree (h : Longest m cs s k) (hm : Agree m m' cs) : Longest m' cs s k where
  sign := (hm s h.begins).symm.trans h.sign
  begins := h.begins
  longest t ht hk := by
    rw [← hm t ht] at hk
    exact h.longest t ht hk

theorem Reads.agree (h : Reads m o cs r)
    (hm : ∀ c ds, c :: ds <:+ cs → ¬ Blank c → Agree m m' (c :: ds)) : Reads m' o cs r := by
  induction h with
  | nil => exact .nil
  | blank hb _ ih =>
    refine .blank hb (ih fun d ds hds => ?_)
    exact hm d ds (hds.trans (List.suffix_cons _ _))
  | symbol hnb hs _ ih =>
    refine .symbol hnb (hs.agree (hm _ _ List.suffix_rfl hnb)) (ih fun d ds hds => ?_)
    exact hm d ds (hds.trans (List.drop_suffix _ _))
  | letter hnb hno hc _ ih =>
    have hhere := hm _ _ List.suffix_rfl hnb
    refine .letter hnb (fun s hs => ?_) hc (ih fun d ds hds => ?_)
    · rw [← hhere s hs, hno s hs]
    · exact hm d ds (hds.trans (List.suffix_cons _ _))
  | unreadable hnb hno hnc =>
    have hhere := hm _ _ List.suffix_rfl hnb
    refine .unreadable hnb (fun s hs => ?_) hnc
    rw [← hhere s hs, hno s hs]

/-! ### Registrations -/

theorem agree_insert (h : Unmet s text) (hcs : c :: cs <:+ text.toList) (hc : ¬ Blank c) :
    Agree n.get? (n.insert s k).get? (c :: cs) := by
  intro t ht
  by_cases hempty : t = ""
  · rw [hempty, get?_empty_symbol, get?_empty_symbol]
  rw [get?_insert_of_ne_empty hempty, if_neg]
  rintro rfl
  rcases h with hinfix | ⟨b, hb, hblank⟩
  · exact hinfix (ht.isInfix.trans hcs.isInfix)
  · obtain ⟨x, xs, hx⟩ := exists_toList_eq_cons hempty
    rw [hx] at ht hb
    obtain rfl : x = b := Option.some.inj hb
    obtain ⟨rfl, -⟩ := List.cons_prefix_cons.1 ht
    exact hc hblank

theorem tokenize_insert (h : Unmet s text) : (n.insert s k).tokenize text = n.tokenize text := by
  have hreads : Reads n.get? 0 text.toList (n.tokenize text) := tokenize_eq_iff.1 rfl
  exact tokenize_eq_iff.2 (hreads.agree fun c cs => agree_insert h)

theorem parseFormula_insert (h : Unmet s text) :
    (n.insert s k).parseFormula text = n.parseFormula text := by
  simp only [parseFormula_eq, tokenize_insert h]

theorem argument_insert {premises : List String} {inference : String}
    (h : ∀ text ∈ inference :: premises, Unmet s text) :
    (n.insert s k).argument premises inference = n.argument premises inference := by
  obtain ⟨hinference, hpremises⟩ := List.forall_mem_cons.1 h
  rw [argument_eq, argument_eq, parseFormula_insert hinference,
    mapM_congr fun t ht => parseFormula_insert (hpremises t ht)]

/-- Registering a symbol that is `Unmet` in a text changes nothing about reading the text, and
nothing about reading and checking an argument of such texts. -/
theorem insert_of_unmet (n : Notation) (s : String) (k : Sign) :
    (∀ text, Unmet s text →
      (n.insert s k).tokenize text = n.tokenize text ∧
      (n.insert s k).parseFormula text = n.parseFormula text) ∧
    ∀ premises inference, (∀ text ∈ inference :: premises, Unmet s text) →
      (n.insert s k).argument premises inference = n.argument premises inference ∧
      (n.insert s k).validate premises inference = n.validate premises inference := by
  refine ⟨fun text h => ⟨tokenize_insert h, parseFormula_insert h⟩, fun premises inference h => ?_⟩
  have hargument : (n.insert s k).argument premises inference = n.argument premises inference :=
    argument_insert h
  refine ⟨hargument, ?_⟩
  rw [validate_eq, validate_eq, hargument]

/-- A symbol that begins with a blank is not met although it occurs, nor is a word that has got
another sign. -/
theorem insert_of_unmet_words :
    (standard.insert " and" (.connective .or)).tokenize "A and b" = .error (.unreadable "b" 6) ∧
    (standard.insert "or" .not).validate ["A and B", "A -> C"] "C" = .ok true := by
  have hread : standard.tokenize "A and b" = .error (.unreadable "b" 6) := by decide +kernel
  have hvalid : standard.validate ["A and B", "A -> C"] "C" = .ok true := by
    rw [validate_eq, argument_eq, parseFormula_eq_bind, parse_eq_run]
    decide +kernel
  have hblank := (insert_of_unmet standard " and" (.connective .or)).1 "A and b"
    (.inr ⟨' ', rfl, by decide⟩)
  have hno : ∀ text : String, 'o' ∉ text.toList → Unmet "or" text :=
    fun text ho => .inl fun h => ho (h.subset (by decide))
  have hword := (insert_of_unmet standard "or" .not).2 ["A and B", "A -> C"] "C" fun text ht => by
    simp only [List.mem_cons, List.not_mem_nil, or_false] at ht
    rcases ht with rfl | rfl | rfl <;> exact hno _ (by decide)
  exact ⟨hblank.1.trans hread, hword.2.trans hvalid⟩

end Notation

end Entailment
