import Entailment.Proofs.ArgumentOutcome
import Entailment.Proofs.CanonicalText
import Mathlib.Control.Monad.Basic

/-!
# Canonical arguments

An argument can be carried over from any notation to the standard one: its formulas, written out as
canonical texts, are read as the same argument. Whatever the symbols of the first notation are, the
variables that come out of it are capital letters (`capital_of_argument`), and that is all a
canonical text needs to be read exactly as written (`argument_text`).
-/

namespace Entailment.Notation

variable {n : Notation} {text inference : String} {premises : List String} {f : Formula}
  {a : Argument}

theorem capital_of_parseFormula (h : n.parseFormula text = .ok f) : f.Capital := by
  rw [parseFormula_eq] at h
  obtain ⟨ts, hts, hf⟩ := bind_eq_ok_iff.1 h
  exact capital_of_parse hts hf

theorem capital_of_argument (h : n.argument premises inference = .ok a) :
    ∀ f ∈ a.inference :: a.premises, f.Capital := by
  refine List.forall_mem_cons.2 ⟨?_, fun p hp => ?_⟩
  · exact capital_of_parseFormula (argument_eq_ok_iff.1 h).2
  · obtain ⟨t, -, ht⟩ := (mem_premises_iff h).1 hp
    exact capital_of_parseFormula ht

theorem parseFormula_text (hn : n.Compatible) (hf : f.Capital) : n.parseFormula f.text = .ok f := by
  simp only [parseFormula_eq, tokenize_text hn hf]
  exact parse_of_parseStatement (parseStatement_spell_stop f)

theorem argument_text (hn : n.Compatible) (ha : ∀ f ∈ a.inference :: a.premises, f.Capital) :
    n.argument (a.premises.map Formula.text) a.inference.text = .ok a := by
  obtain ⟨hc, hps⟩ := List.forall_mem_cons.1 ha
  refine argument_eq_ok_iff.2 ⟨?_, parseFormula_text hn hc⟩
  rw [List.map_map]
  exact List.map_congr_left fun p hp => parseFormula_text hn (hps p hp)

theorem validate_of_argument {b : Bool} (h : n.argument premises inference = .ok a)
    (hb : a.isValid = .ok b) : n.validate premises inference = .ok b :=
  validate_eq.trans (bind_eq_ok_iff.2 ⟨a, h, hb⟩)

/-- An argument that has been read in any notation is read again, in the standard notation, from the
canonical texts of its premises and its inference. Each of those is read exactly as written and
never a second time. So there is one tally for both arguments, and one verdict. -/
theorem argument_reads_back (n : Notation) (premises : List String) (inference : String)
    (a : Argument) (h : n.argument premises inference = .ok a) :
    standard.argument (a.premises.map Formula.text) a.inference.text = .ok a ∧
    (∀ f ∈ a.inference :: a.premises, ∃ ts, standard.tokenize f.text = .ok ts ∧
      parseStatement ts = .ok f ∧ ∀ e, .retry e ∉ parseLog ts) ∧
    ∃ t, a.check = .ok t ∧ n.validate premises inference = .ok t.holds ∧
      standard.validate (a.premises.map Formula.text) a.inference.text = .ok t.holds := by
  have hcap := capital_of_argument h
  have hback := argument_text compatible_standard hcap
  obtain ⟨t, hcheck, hvalid, -⟩ := a.exists_check_eq
  refine ⟨hback, fun f hf => ?_, t, hcheck, validate_of_argument h hvalid,
    validate_of_argument hback hvalid⟩
  have hstatement := parseStatement_spell_stop f
  refine ⟨_, tokenize_text compatible_standard (hcap f hf), hstatement, fun e he => ?_⟩
  -- only after a first reading that fails is there a second one
  rw [retry_mem_parseLog, hstatement] at he
  cases he.1

/-- The letter `A` may be a negation and the word `not` a disjunction: the canonical texts are those
of the standard notation. -/
theorem argument_reads_back_shadowed :
    (standard.insertMany [("A", .not), ("not", .connective .or)]).argument
        ["AB -> C", "B not C"] "AAC" =
      .ok ⟨.binary .implies (.not (.var 'B')) (.var 'C'), [.binary .or (.var 'B') (.var 'C')],
        .not (.not (.var 'C'))⟩ ∧
    standard.argument ["(not B implies C)", "(B or C)"] "not not C" =
      .ok ⟨.binary .implies (.not (.var 'B')) (.var 'C'), [.binary .or (.var 'B') (.var 'C')],
        .not (.not (.var 'C'))⟩ := by
  have h : (standard.insertMany [("A", .not), ("not", .connective .or)]).argument
      ["AB -> C", "B not C"] "AAC" = .ok ⟨.binary .implies (.not (.var 'B')) (.var 'C'),
        [.binary .or (.var 'B') (.var 'C')], .not (.not (.var 'C'))⟩ := by
    rw [argument_eq, parseFormula_eq_bind, parse_eq_run]
    decide +kernel
  exact ⟨h, (argument_reads_back _ _ _ _ h).1⟩

end Entailment.Notation
