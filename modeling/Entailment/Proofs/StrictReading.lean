import Entailment.Proofs.OnePass

/-!
# What is read exactly as written

A token list is read as a formula exactly when it is the spelling of that formula, with or without
an end marker behind it. Acceptance is `Reader.run_spell`; for the converse every state of a run
keeps the tokens read so far as its own spelling, whatever follows (`spell_append_of_run`).
-/

namespace Entailment

namespace Reader
variable {r : Reader} {p : Nat} {ts : List Token} {f : Formula}

/-- Only spellings are accepted: what leads to the state, followed by what is still to be read. -/
theorem spell_append_of_run (h : r.run p ts = .ok f) :
    r.spell ++ ts = f.spell ∨ r.spell ++ ts = f.spell ++ [.stop] := by
  revert h
  fun_induction r.run p ts with
  | case1 p g =>
    intro h
    cases h
    exact .inl (List.append_nil _)
  | case2 p g =>
    intro h
    cases h
    exact .inr rfl
  | case3 => intro h; cases h
  | case4 p r t ts _ r' hstep ih =>
    intro h
    have hspell : r'.spell ++ ts = r.spell ++ t :: ts := by
      rw [spell_step hstep, List.append_assoc]; rfl
    exact hspell ▸ ih h
  | case5 => intro h; cases h

theorem unexpected_of_run {e : Error} (h : r.run p ts = .error e) :
    ∃ position expected found, e = .unexpected position expected found := by
  revert h
  fun_induction r.run p ts with
  | case1 => intro h; cases h
  | case2 => intro h; cases h
  | case3 => intro h; cases h; exact ⟨_, _, _, rfl⟩
  | case4 _ _ _ _ _ _ _ ih => exact ih
  | case5 => intro h; cases h; exact ⟨_, _, _, rfl⟩

end Reader

variable {ts : List Token} {f : Formula} {e : Error}

theorem parseStatement_spell_append (f : Formula) (ts : List Token) :
    parseStatement (f.spell ++ ts) = (Reader.complete f).run f.spell.length ts := by
  rw [parseStatement_eq_run, Reader.start, Reader.run_spell, Nat.zero_add]
  rfl

theorem parseStatement_spell (f : Formula) : parseStatement f.spell = .ok f := by
  rw [← List.append_nil f.spell, parseStatement_spell_append]
  rfl

theorem parseStatement_spell_stop (f : Formula) : parseStatement (f.spell ++ [.stop]) = .ok f := by
  rw [parseStatement_spell_append]
  rfl

theorem spelled_of_parseStatement (h : parseStatement ts = .ok f) :
    ts = f.spell ∨ ts = f.spell ++ [.stop] :=
  Reader.spell_append_of_run ((parseStatement_eq_run ts).symm.trans h)

theorem unexpected_of_parseStatement (h : parseStatement ts = .error e) :
    ∃ position expected found, e = .unexpected position expected found :=
  Reader.unexpected_of_run ((parseStatement_eq_run ts).symm.trans h)

/-- Reading exactly as written accepts the spellings of formulas, with at most one end marker behind
them, and nothing else, each as the one formula that it spells. -/
theorem parseStatement_eq_ok_iff (ts : List Token) (f : Formula) :
    parseStatement ts = .ok f ↔ ts = f.spell ∨ ts = f.spell ++ [.stop] := by
  constructor
  · exact spelled_of_parseStatement
  · rintro (rfl | rfl)
    · exact parseStatement_spell f
    · exact parseStatement_spell_stop f

end Entailment
