import Entailment.Proofs.MissingParens
import Entailment.Proofs.Validity

/-!
# What becomes of an argument in writing

`Notation.Outcome` says which of several faults counts: the first premise that cannot be read, then
an argument without premises, then an inference that cannot be read. Without a fault there is a
verdict, since the check of an argument never fails. `validate` follows it, and so do the lines that
are logged about texts that cannot be read (`Outcome.eq`, `exists_outcome`).
-/

namespace Entailment

namespace Event
variable {l l' : List Event} {x : Event}

/-- Whether the line for an event is about a text of an argument that cannot be read. -/
def isRefusal : Event → Bool
  | premise .. | inference .. => true
  | _ => false

theorem begins_refusal_iff :
    (Begins "Premise " x.line ∨ Begins "Inference (" x.line) ↔ x.isRefusal = true := by
  rw [begins_iff (by decide), begins_iff (by decide)]
  cases x <;> simp [opening, isRefusal]

/-- The lines at the level `debug` that begin like one about a text that cannot be read. -/
def refusals (l : List Event) : List (Level × String) :=
  ((upTo .debug l).map line).filter fun line =>
    Begins "Premise " line ∨ Begins "Inference (" line

theorem refusals_append : refusals (l ++ l') = refusals l ++ refusals l' := by
  rw [refusals, upTo, List.filter_append, List.map_append, List.filter_append]
  rfl

theorem refusals_eq_nil (h : ∀ x ∈ l, x.isRefusal = false) : refusals l = [] := by
  refine List.filter_eq_nil_iff.2 fun line hline => ?_
  obtain ⟨x, hx, rfl⟩ := List.mem_map.1 hline
  rw [decide_eq_true_eq, begins_refusal_iff, h x (List.mem_filter.1 hx).1]
  exact Bool.false_ne_true

theorem refusals_singleton (h : x.isRefusal = true) : refusals [x] = [x.line] := by
  have hlevel : (compare x.level .debug).isLE = true := by
    cases x <;> first | rfl | cases h
  have hupTo : upTo .debug [x] = [x] := List.filter_cons_of_pos hlevel
  rw [refusals, hupTo, List.map_singleton]
  exact List.filter_cons_of_pos (decide_eq_true (begins_refusal_iff.2 h))

end Event

theorem Run.refusals_log_bind {α β : Type} {x : Run α} {f : α → Run β} :
    Event.refusals (x >>= f).log = Event.refusals x.log ++
      match x.result with | .ok a => Event.refusals (f a).log | .error _ => [] := by
  rw [log_bind, Event.refusals_append]
  cases x.result <;> rfl

theorem Run.refusals_log_reportError {α : Type} {x : Run α} {event : Error → Event}
    (h : ∀ e, (event e).isRefusal = true) :
    Event.refusals (x.reportError event).log = Event.refusals x.log ++
      match x.result with | .ok _ => [] | .error e => [(event e).line] := by
  rw [log_reportError, Event.refusals_append]
  cases x.result with
  | ok a => rfl
  | error e => exact congrArg _ (Event.refusals_singleton (h e))

/-! ### Reading one formula logs no refusal -/

variable {ts : List Token} {x : Event}

theorem isRefusal_of_level_eq_trace (h : x.level = .trace) : x.isRefusal = false := by
  cases x with
  | premise | inference => cases h
  | _ => rfl

theorem isRefusal_of_mem_parseLog (h : x ∈ parseLog ts) : x.isRefusal = false := by
  rw [parseLog_def] at h
  rcases List.mem_append.1 h with h | h
  · exact isRefusal_of_level_eq_trace (level_of_mem_parseStatementLog h)
  split at h
  · cases h
  split at h
  · cases h
  rcases List.mem_cons.1 h with rfl | h
  · rfl
  rcases List.mem_append.1 h with h | h
  · exact isRefusal_of_level_eq_trace (level_of_mem_parseStatementLog h)
  split at h
  · cases h
  · rw [List.mem_singleton.1 h]; rfl

theorem isRefusal_of_mem_scanLog {s : Scan} (h : x ∈ s.log) : x.isRefusal = false := by
  rw [Scan.log] at h
  rcases List.mem_append.1 h with h | h
  · obtain ⟨_, -, rfl⟩ := List.mem_map.1 h
    rfl
  · split at h
    · cases h
    · rw [List.mem_singleton.1 h]; rfl

theorem isRefusal_of_mem_checkLog {f : Formula} (h : x ∈ f.checkLog) : x.isRefusal = false := by
  rw [Formula.checkLog_eq] at h
  rcases List.mem_append.1 h with h | h
  · obtain ⟨_, -, rfl⟩ := List.mem_map.1 h
    rfl
  · rw [List.mem_singleton.1 h]; rfl

/-! ### Computations with errors -/

section
variable {α β : Type} {f : α → Except Error β} {l : List α} {bs : List β} {e : Error}

theorem bind_eq_ok_iff {x : Except Error α} {b : β} :
    (x >>= f) = .ok b ↔ ∃ a, x = .ok a ∧ f a = .ok b := by
  cases x with
  | error e => exact iff_of_false (fun h => by cases h) (fun ⟨_, h, _⟩ => by cases h)
  | ok a =>
    refine ⟨fun h => ⟨a, rfl, h⟩, ?_⟩
    rintro ⟨_, ⟨⟩, h⟩
    exact h

theorem mapM_cons_of_ok {a : α} {b : β} (ha : f a = .ok b) :
    (a :: l).mapM f = (l.mapM f).map (b :: ·) := by
  rw [List.mapM_cons, ha]
  cases l.mapM f <;> rfl

theorem mapM_cons_of_error {a : α} (ha : f a = .error e) : (a :: l).mapM f = .error e := by
  rw [List.mapM_cons, ha]
  rfl

theorem mapM_congr {g : α → Except Error β} (h : ∀ a ∈ l, f a = g a) : l.mapM f = l.mapM g := by
  induction l with
  | nil => rfl
  | cons a l ih =>
    obtain ⟨ha, hl⟩ := List.forall_mem_cons.1 h
    rw [List.mapM_cons, List.mapM_cons, ha, ih hl]

theorem mapM_eq_ok_of_map (h : l.map f = bs.map .ok) : l.mapM f = .ok bs := by
  induction l generalizing bs with
  | nil =>
    rw [List.map_eq_nil_iff.1 h.symm]
    rfl
  | cons a l ih =>
    obtain ⟨b, bs, rfl, hb, hbs⟩ := List.map_eq_cons_iff.1 h.symm
    rw [mapM_cons_of_ok hb.symm, ih hbs.symm]
    rfl

theorem mapM_eq_error_of_split {before after : List α} {a : α}
    (hbefore : ∀ x ∈ before, ∃ b, f x = .ok b) (ha : f a = .error e) :
    (before ++ a :: after).mapM f = .error e := by
  induction before with
  | nil => exact mapM_cons_of_error ha
  | cons x before ih =>
    obtain ⟨b, hb⟩ := hbefore x (List.mem_cons_self ..)
    rw [List.cons_append, mapM_cons_of_ok hb, ih fun y hy => hbefore y (List.mem_cons_of_mem _ hy)]
    rfl

/-- A traversal either gives all results or stops at the first error. -/
theorem map_eq_or_split (f : α → Except Error β) (l : List α) :
    (∃ bs : List β, l.map f = bs.map .ok) ∨
      ∃ before a after e, l = before ++ a :: after ∧ (∀ x ∈ before, ∃ b, f x = .ok b) ∧
        f a = .error e := by
  induction l with
  | nil => exact .inl ⟨[], rfl⟩
  | cons a l ih =>
    cases ha : f a with
    | error e => exact .inr ⟨[], a, l, e, rfl, fun x hx => (by cases hx), ha⟩
    | ok b =>
      rcases ih with ⟨bs, hbs⟩ | ⟨before, x, after, e, rfl, hbefore, hx⟩
      · exact .inl ⟨b :: bs, by rw [List.map_cons, ha, hbs, List.map_cons]⟩
      · refine .inr ⟨a :: before, x, after, e, rfl, fun y hy => ?_, hx⟩
        rcases List.mem_cons.1 hy with rfl | hy
        · exact ⟨b, ha⟩
        · exact hbefore y hy

theorem mapM_eq_ok_iff : l.mapM f = .ok bs ↔ l.map f = bs.map .ok := by
  refine ⟨fun h => ?_, mapM_eq_ok_of_map⟩
  rcases map_eq_or_split f l with ⟨bs', hbs'⟩ | ⟨before, a, after, e, rfl, hbefore, ha⟩
  · rw [mapM_eq_ok_of_map hbs', Except.ok.injEq] at h
    rwa [← h]
  · rw [mapM_eq_error_of_split hbefore ha] at h
    cases h

theorem exists_ok_of_map_eq (h : l.map f = bs.map .ok) : ∀ x ∈ l, ∃ b, f x = .ok b := by
  intro x hx
  have hfx : f x ∈ bs.map Except.ok := h ▸ List.mem_map_of_mem hx
  obtain ⟨b, -, hb⟩ := List.mem_map.1 hfx
  exact ⟨b, hb.symm⟩

end

namespace Notation
variable {n : Notation} {premises : List String} {inference text : String} {e : Error}

/-- What becomes of an argument in writing: a result, and the lines about texts that cannot be
read. -/
inductive Outcome (n : Notation) (premises : List String) (inference : String) :
    Except Error Bool → List (Level × String) → Prop
  /-- A premise cannot be read, and all before it can. What follows does not matter. -/
  | premise {before after : List String} {text : String} {e : Error}
      (split : premises = before ++ text :: after)
      (readable : ∀ t ∈ before, ∃ f, n.parseFormula t = .ok f)
      (unreadable : n.parseFormula text = .error e) :
      Outcome n premises inference (.error e)
        [(.debug, "Premise " ++ toString (before.length + 1) ++ " (" ++ quoteText text ++ "): " ++
          e.message)]
  /-- There are no premises. The inference does not matter. -/
  | noPremises (nil : premises = []) : Outcome n premises inference (.error .noPremises) []
  /-- All premises can be read, but the inference cannot. -/
  | inference {e : Error} (ne_nil : premises ≠ [])
      (readable : ∀ t ∈ premises, ∃ f, n.parseFormula t = .ok f)
      (unreadable : n.parseFormula inference = .error e) :
      Outcome n premises inference (.error e)
        [(.debug, "Inference (" ++ quoteText inference ++ "): " ++ e.message)]
  /-- All texts can be read. The verdict says whether the premises entail the inference. -/
  | verdict {ps : List Formula} {c : Formula} {b : Bool} (ne_nil : premises ≠ [])
      (premises_eq : premises.map n.parseFormula = ps.map .ok)
      (inference_eq : n.parseFormula inference = .ok c)
      (valid : b = true ↔ ∀ v : Valuation, (∀ p ∈ ps, p.Holds v) → c.Holds v) :
      Outcome n premises inference (.ok b) []

/-! ### Errors of one text -/

theorem ne_unbound_of_tokenize (h : n.tokenize text = .error e) (name : Char) :
    e ≠ .unbound name := by
  rw [tokenize_eq, Scan.result] at h
  split at h
  · cases h
  · cases h
    rintro ⟨⟩

theorem ne_unbound_of_parse (h : parse ts = .error e) (name : Char) : e ≠ .unbound name := by
  obtain ⟨position, expected, found, rfl⟩ :=
    unexpected_of_parseStatement (parseStatement_of_parse_error h)
  rintro ⟨⟩

theorem ne_unbound_of_parseFormula (h : n.parseFormula text = .error e) (name : Char) :
    e ≠ .unbound name := by
  rw [parseFormula_eq] at h
  cases htokenize : n.tokenize text with
  | error e' =>
    rw [htokenize] at h
    cases h
    exact ne_unbound_of_tokenize htokenize name
  | ok ts =>
    rw [htokenize] at h
    exact ne_unbound_of_parse h name

/-! ### Results of `argument` and `validate` -/

theorem argument_eq_ok_iff {a : Argument} : n.argument premises inference = .ok a ↔
    premises.map n.parseFormula = a.premises.map .ok ∧
      n.parseFormula inference = .ok a.inference := by
  constructor
  · intro h
    rw [argument_eq] at h
    obtain ⟨ps, hps, h⟩ := bind_eq_ok_iff.1 h
    cases ps with
    | nil => cases h
    | cons p ps =>
      obtain ⟨c, hc, h⟩ := bind_eq_ok_iff.1 h
      cases h
      exact ⟨mapM_eq_ok_iff.1 hps, hc⟩
  · rintro ⟨hps, hc⟩
    rw [argument_eq, mapM_eq_ok_of_map hps, hc]
    rfl

theorem mem_premises_iff {a : Argument} {p : Formula} (h : n.argument premises inference = .ok a) :
    p ∈ a.premises ↔ ∃ t ∈ premises, n.parseFormula t = .ok p :=
  calc p ∈ a.premises ↔ (.ok p : Except Error Formula) ∈ a.premises.map .ok := by simp
    _ ↔ .ok p ∈ premises.map n.parseFormula := by rw [(argument_eq_ok_iff.1 h).1]
    _ ↔ ∃ t ∈ premises, n.parseFormula t = .ok p := List.mem_map

theorem validate_of_premise_error (h : premises.mapM n.parseFormula = .error e) :
    n.validate premises inference = .error e := by
  rw [validate_eq, argument_eq, h]
  rfl

theorem validate_of_inference_error {ps : List Formula} (hne : premises ≠ [])
    (h : premises.map n.parseFormula = ps.map .ok) (hc : n.parseFormula inference = .error e) :
    n.validate premises inference = .error e := by
  cases ps with
  | nil => exact absurd (List.map_eq_nil_iff.1 h) hne
  | cons p ps =>
    rw [validate_eq, argument_eq, mapM_eq_ok_of_map h, hc]
    rfl

theorem exists_validate_of_read {ps : List Formula} {c : Formula} (hne : premises ≠ [])
    (h : premises.map n.parseFormula = ps.map .ok) (hc : n.parseFormula inference = .ok c) :
    ∃ b, n.validate premises inference = .ok b ∧ (b = true ↔ Formula.Entails ps c) := by
  cases ps with
  | nil => exact absurd (List.map_eq_nil_iff.1 h) hne
  | cons p ps =>
    obtain ⟨b, hvalid, hb⟩ := Argument.exists_isValid_eq ⟨p, ps, c⟩
    refine ⟨b, ?_, hb⟩
    rw [validate_eq, argument_eq, mapM_eq_ok_of_map h, hc]
    exact hvalid

/-! ### Refusals in the log of `validate` -/

theorem refusals_formulaRun : Event.refusals (n.formulaRun text).log = [] := by
  refine Event.refusals_eq_nil fun x hx => ?_
  rw [formulaRun, Run.log_bind] at hx
  rcases List.mem_append.1 hx with hx | hx
  · exact isRefusal_of_mem_scanLog hx
  · split at hx
    · exact isRefusal_of_mem_parseLog hx
    · cases hx

theorem refusals_reportError_of_read {event : Error → Event} {f : Formula}
    (hevent : ∀ e, (event e).isRefusal = true) (h : n.parseFormula text = .ok f) :
    Event.refusals ((n.formulaRun text).reportError event).log = [] := by
  have hresult : (n.formulaRun text).result = .ok f := h
  rw [Run.refusals_log_reportError hevent, refusals_formulaRun, hresult]
  rfl

theorem refusals_reportError_of_error {event : Error → Event}
    (hevent : ∀ e, (event e).isRefusal = true) (h : n.parseFormula text = .error e) :
    Event.refusals ((n.formulaRun text).reportError event).log = [(event e).line] := by
  have hresult : (n.formulaRun text).result = .error e := h
  rw [Run.refusals_log_reportError hevent, refusals_formulaRun, hresult]
  rfl

theorem refusals_premisesRun_cons_of_read {k : Nat} {f : Formula}
    (h : n.parseFormula text = .ok f) :
    Event.refusals (n.premisesRun k (text :: premises)).log =
      Event.refusals (n.premisesRun (k + 1) premises).log := by
  have hresult : (n.formulaRun text).result = .ok f := h
  rw [premisesRun, Run.refusals_log_bind, refusals_reportError_of_read (fun _ => rfl) h,
    Run.result_reportError, hresult, List.nil_append]
  exact congrArg Event.refusals Run.log_bind_pure

theorem refusals_premisesRun_cons_of_error {k : Nat} (h : n.parseFormula text = .error e) :
    Event.refusals (n.premisesRun k (text :: premises)).log = [(Event.premise k text e).line] := by
  have hresult : (n.formulaRun text).result = .error e := h
  rw [premisesRun, Run.refusals_log_bind, refusals_reportError_of_error (fun _ => rfl) h,
    Run.result_reportError, hresult, List.append_nil]

theorem refusals_premisesRun_append {before after : List String} {k : Nat}
    (h : ∀ t ∈ before, ∃ f, n.parseFormula t = .ok f) :
    Event.refusals (n.premisesRun k (before ++ after)).log =
      Event.refusals (n.premisesRun (k + before.length) after).log := by
  induction before generalizing k with
  | nil => rfl
  | cons t before ih =>
    obtain ⟨⟨f, hf⟩, hbefore⟩ := List.forall_mem_cons.1 h
    rw [List.cons_append, refusals_premisesRun_cons_of_read hf, ih hbefore, List.length_cons,
      Nat.add_assoc, Nat.add_comm 1]

theorem refusals_premisesRun_of_read {k : Nat} (h : ∀ t ∈ premises, ∃ f, n.parseFormula t = .ok f) :
    Event.refusals (n.premisesRun k premises).log = [] := by
  rw [← List.append_nil premises, refusals_premisesRun_append h]
  rfl

theorem refusals_validateLog : Event.refusals (n.validateLog premises inference) =
    Event.refusals (n.argumentLog premises inference) := by
  rw [validateLog, validateRun, Run.refusals_log_bind]
  refine (congrArg _ ?_).trans (List.append_nil _)
  cases (n.argumentRun premises inference).result with
  | error e => rfl
  | ok a =>
    refine Event.refusals_eq_nil fun x hx => ?_
    rw [Formula.checkRun_eq, Run.mk_ok_bind] at hx
    rcases List.mem_append.1 hx with hx | hx
    · exact isRefusal_of_mem_checkLog (Formula.checkLog_eq ▸ hx)
    · rw [List.mem_singleton.1 hx]; rfl

theorem refusals_argumentLog_of_split {before after : List String}
    (hbefore : ∀ t ∈ before, ∃ f, n.parseFormula t = .ok f) (h : n.parseFormula text = .error e) :
    Event.refusals (n.argumentLog (before ++ text :: after) inference) =
      [(Event.premise (before.length + 1) text e).line] := by
  rw [argumentLog, argumentRun, Run.refusals_log_bind, result_premisesRun,
    mapM_eq_error_of_split hbefore h, refusals_premisesRun_append hbefore,
    refusals_premisesRun_cons_of_error h, List.append_nil, Nat.add_comm 1]

theorem refusals_argumentLog_of_read {ps : List Formula} (hne : premises ≠ [])
    (h : premises.map n.parseFormula = ps.map .ok) :
    Event.refusals (n.argumentLog premises inference) =
      Event.refusals ((n.formulaRun inference).reportError (.inference inference)).log := by
  cases ps with
  | nil => exact absurd (List.map_eq_nil_iff.1 h) hne
  | cons p ps =>
    rw [argumentLog, argumentRun, Run.refusals_log_bind, result_premisesRun, mapM_eq_ok_of_map h,
      refusals_premisesRun_of_read (exists_ok_of_map_eq h), List.nil_append]
    exact congrArg Event.refusals Run.log_bind_pure

/-! ### The outcome -/

variable {r : Except Error Bool} {lines : List (Level × String)}

theorem exists_map_eq_of_read (h : ∀ t ∈ premises, ∃ f, n.parseFormula t = .ok f) :
    ∃ ps : List Formula, premises.map n.parseFormula = ps.map .ok := by
  rcases map_eq_or_split n.parseFormula premises with hps | ⟨before, t, after, e, rfl, -, ht⟩
  · exact hps
  · obtain ⟨f, hf⟩ := h t (by simp)
    rw [hf] at ht
    cases ht

theorem Outcome.eq (h : n.Outcome premises inference r lines) :
    n.validate premises inference = r ∧
      Event.refusals (n.validateLog premises inference) = lines := by
  rw [refusals_validateLog]
  cases h with
  | premise hsplit hbefore htext =>
    subst hsplit
    exact ⟨validate_of_premise_error (mapM_eq_error_of_split hbefore htext),
      refusals_argumentLog_of_split hbefore htext⟩
  | noPremises hnil =>
    subst hnil
    exact ⟨rfl, rfl⟩
  | inference hne hread hinference =>
    obtain ⟨ps, hps⟩ := exists_map_eq_of_read hread
    refine ⟨validate_of_inference_error hne hps hinference, ?_⟩
    rw [refusals_argumentLog_of_read hne hps,
      refusals_reportError_of_error (fun _ => rfl) hinference]
    rfl
  | verdict hne hps hc hb =>
    constructor
    · obtain ⟨b', hvalid, hb'⟩ := exists_validate_of_read hne hps hc
      rw [hvalid, Bool.eq_iff_iff.2 (hb'.trans hb.symm)]
    · rw [refusals_argumentLog_of_read hne hps, refusals_reportError_of_read (fun _ => rfl) hc]

theorem exists_outcome (n : Notation) (premises : List String) (inference : String) :
    ∃ r lines, n.Outcome premises inference r lines := by
  rcases map_eq_or_split n.parseFormula premises with ⟨ps, hps⟩ | ⟨_, _, _, _, hsplit, hbefore, ht⟩
  · by_cases hne : premises = []
    · exact ⟨_, _, .noPremises hne⟩
    cases hc : n.parseFormula inference with
    | error e => exact ⟨_, _, .inference hne (exists_ok_of_map_eq hps) hc⟩
    | ok c =>
      obtain ⟨b, -, hb⟩ := exists_validate_of_read hne hps hc
      exact ⟨_, _, .verdict hne hps hc hb⟩
  · exact ⟨_, _, .premise hsplit hbefore ht⟩

/-- The outcome is the result of `validate` together with the lines about texts that cannot be
read, and there is no other. A variable without a value is never the cause of an error, and where
there is a verdict every text can be read. -/
theorem validate_outcome (n : Notation) (premises : List String) (inference : String) :
    (∀ r lines, n.Outcome premises inference r lines ↔
      n.validate premises inference = r ∧
        Event.refusals (n.validateLog premises inference) = lines) ∧
    (∀ name, n.validate premises inference ≠ .error (.unbound name)) ∧
    (∀ b, n.validate premises inference = .ok b →
      premises ≠ [] ∧ ∀ text ∈ inference :: premises, ∃ f, n.parseFormula text = .ok f) := by
  obtain ⟨r₀, lines₀, h₀⟩ := n.exists_outcome premises inference
  obtain ⟨hr, hlines⟩ := h₀.eq
  refine ⟨fun r lines => ⟨Outcome.eq, ?_⟩, fun name h => ?_, fun b h => ?_⟩
  · rintro ⟨rfl, rfl⟩
    rw [hr, hlines]
    exact h₀
  · rw [hr] at h
    subst h
    cases h₀ with
    | premise _ _ htext => exact ne_unbound_of_parseFormula htext name rfl
    | inference _ _ hinference => exact ne_unbound_of_parseFormula hinference name rfl
  · rw [hr] at h
    subst h
    cases h₀ with
    | @verdict ps c b hne hps hc _ =>
      refine ⟨hne, fun text htext => ?_⟩
      rcases List.mem_cons.1 htext with rfl | htext
      · exact ⟨c, hc⟩
      · exact exists_ok_of_map_eq hps text htext

end Notation

end Entailment
