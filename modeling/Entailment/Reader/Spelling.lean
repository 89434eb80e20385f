import Entailment.Reader.Basic

/-!
# What a reader has read

Each state of a reader stands for the tokens that lead to it: a step appends its token
(`spell_step`), and from a state that waits for an operand the spelling of a formula leads to the
state in which that operand is supplied (`run_spell`).
-/

namespace Entailment

/-- The tokens that open a frame. -/
def Frame.spell : Frame → List Token
  | negation => [.sign .not]
  | left => [.sign .lparen]
  | right l op => .sign .lparen :: (l.spell ++ [.sign (.connective op)])

/-- The tokens that open the frames of a stack, the innermost frame last. -/
def Frame.spellStack : List Frame → List Token
  | [] => []
  | f :: stack => spellStack stack ++ f.spell

namespace Reader

/-- The tokens that lead to a state. -/
def spell : Reader → List Token
  | operand stack => Frame.spellStack stack
  | operator l stack => Frame.spellStack stack ++ .sign .lparen :: l.spell
  | close l op r stack =>
    Frame.spellStack stack ++ .sign .lparen :: (l.spell ++ .sign (.connective op) :: r.spell)
  | complete f => f.spell

variable {f : Formula} {stack : List Frame} {r r' : Reader} {t : Token} {ts : List Token} {p : Nat}

theorem run_cons_of_step (h : r.step t = some r') : r.run p (t :: ts) = r'.run (p + 1) ts := by
  rw [run, h]
  rintro f rfl rfl -
  cases h

theorem run_cons_of_step_eq_none (h : r.step t = none)
    (hstop : ∀ f, r = complete f → t = .stop → ts ≠ []) :
    r.run p (t :: ts) = .error (.unexpected p r.expected t) := by
  rw [run, h]
  exact hstop

theorem spell_supply : (supply f stack).spell = Frame.spellStack stack ++ f.spell := by
  induction stack generalizing f with
  | nil => rfl
  | cons frame stack ih =>
    cases frame with
    | negation => simp [supply, ih, Frame.spellStack, Frame.spell, Formula.spell]
    | left => simp [supply, spell, Frame.spellStack, Frame.spell]
    | right l op => simp [supply, spell, Frame.spellStack, Frame.spell]

theorem spell_step (h : r.step t = some r') : r'.spell = r.spell ++ [t] := by
  revert h
  fun_cases r.step t with
  | case1 stack c => rintro ⟨⟩; exact spell_supply
  | case2 stack => rintro ⟨⟩; rfl
  | case3 stack => rintro ⟨⟩; rfl
  | case4 l stack op => rintro ⟨⟩; simp [spell, Frame.spellStack, Frame.spell]
  | case5 l op r stack => rintro ⟨⟩; rw [spell_supply]; simp [spell, Formula.spell]
  | case6 => intro h; cases h

theorem run_spell :
    (operand stack).run p (f.spell ++ ts) = (supply f stack).run (p + f.spell.length) ts := by
  induction f generalizing stack p ts with
  | var c => simp [Formula.spell, run, step]
  | not f ih => simp [Formula.spell, run, step, ih, supply, Nat.add_assoc, Nat.add_comm 1]
  | binary op l r ihl ihr =>
    simp only [Formula.spell, run, step, ihl, ihr, supply, List.cons_append, List.append_assoc,
      List.nil_append, List.length_cons, List.length_append, List.length_nil]
    congr 1
    omega

end Reader

end Entailment
