import Entailment.Text.Quoted

/-!
# Assignments

Truth values for finitely many variables, kept in ascending order of their code points. An
assignment is therefore determined by the values that it gives.
-/

namespace Entailment

/-- A finite assignment of truth values. -/
@[ext] structure Assignment where
  pairs : List (Char × Bool)
  ascending : pairs.Pairwise fun p q => p.1 < q.1
deriving DecidableEq

namespace Assignment

/-- No variable has a value. -/
def empty : Assignment := ⟨[], .nil⟩

instance : EmptyCollection Assignment := ⟨empty⟩

/-- The value of a variable, if it has one. -/
def get? (env : Assignment) (c : Char) : Option Bool := env.pairs.lookup c

/-- Puts a value at its place among ascending pairs. -/
def insertPair (c : Char) (b : Bool) : List (Char × Bool) → List (Char × Bool)
  | [] => [(c, b)]
  | p :: ps =>
    if c < p.1 then (c, b) :: p :: ps
    else if c = p.1 then (c, b) :: ps
    else p :: insertPair c b ps

theorem mem_insertPair {c : Char} {b : Bool} {p : Char × Bool} {ps : List (Char × Bool)}
    (h : p ∈ insertPair c b ps) : p = (c, b) ∨ p ∈ ps := by
  induction ps with
  | nil => simpa [insertPair] using h
  | cons q qs ih =>
    simp only [insertPair] at h
    split at h
    · simpa using h
    · split at h
      · rcases List.mem_cons.1 h with rfl | h <;> simp [*]
      · rcases List.mem_cons.1 h with rfl | h
        · simp
        · rcases ih h with h | h <;> simp [h]

theorem ascending_insertPair {c : Char} {b : Bool} {ps : List (Char × Bool)}
    (h : ps.Pairwise fun p q => p.1 < q.1) :
    (insertPair c b ps).Pairwise fun p q => p.1 < q.1 := by
  induction ps with
  | nil => simp [insertPair]
  | cons q qs ih =>
    obtain ⟨hq, hqs⟩ := List.pairwise_cons.1 h
    simp only [insertPair]
    split
    · rename_i hlt
      refine List.pairwise_cons.2 ⟨fun p hp => ?_, h⟩
      rcases List.mem_cons.1 hp with rfl | hp
      · exact hlt
      · exact Char.lt_trans hlt (hq p hp)
    · rename_i hlt
      split
      · rename_i heq
        exact List.pairwise_cons.2 ⟨fun p hp => heq ▸ hq p hp, hqs⟩
      · rename_i hne
        refine List.pairwise_cons.2 ⟨fun p hp => ?_, ih hqs⟩
        rcases mem_insertPair hp with rfl | hp
        · exact Std.lt_of_le_of_ne (Char.not_lt.1 hlt) (Ne.symm hne)
        · exact hq p hp

/-- Gives a variable a value, in place of any earlier one. -/
def insert (env : Assignment) (c : Char) (b : Bool) : Assignment :=
  ⟨insertPair c b env.pairs, ascending_insertPair env.ascending⟩

/-- Takes the value of a variable away. -/
def erase (env : Assignment) (c : Char) : Assignment :=
  ⟨env.pairs.filter (·.1 ≠ c), env.ascending.filter _⟩

/-- The assignment of a list of values. Later values take the place of earlier ones. -/
def ofList (l : List (Char × Bool)) : Assignment :=
  l.foldl (fun env p => env.insert p.1 p.2) ∅

/-- The pairs in ascending order, variables quoted. -/
def inspect (env : Assignment) : String :=
  let pairs := env.pairs.map fun p => quoteChar p.1 ++ ": " ++ toString p.2
  "\x7b" ++ ", ".intercalate pairs ++ "\x7d"

/-! ### The values of an assignment -/

variable {env env' : Assignment} {l : List (Char × Bool)} {b b' : Bool} {c x : Char}

theorem lookup_cons {p : Char × Bool} {ps : List (Char × Bool)} :
    (p :: ps).lookup x = if x = p.1 then some p.2 else ps.lookup x := by
  rw [List.lookup_cons]
  by_cases h : x = p.1 <;> simp [h, beq_false_of_ne]

theorem get?_eq_some_iff : env.get? c = some b ↔ (c, b) ∈ env.pairs := by
  obtain ⟨ps, h⟩ := env
  simp only [get?]
  induction ps with
  | nil => simp
  | cons p ps ih =>
    obtain ⟨hp, hps⟩ := List.pairwise_cons.1 h
    rw [lookup_cons]
    split
    · subst c
      have hne : (p.1, b) ∉ ps := fun hm => Char.lt_irrefl _ (hp (p.1, b) hm)
      simp [hne, Prod.ext_iff, eq_comm]
    · rename_i hc
      simp [ih hps, hc, Prod.ext_iff]

theorem nodup_pairs : env.pairs.Nodup :=
  env.ascending.imp fun {p q} (hlt : p.1 < q.1) (heq : p = q) => Char.lt_irrefl _ (heq ▸ hlt)

theorem nodup_names : (env.pairs.map (·.1)).Nodup :=
  List.pairwise_map.2 (env.ascending.imp fun {p q} (hlt : p.1 < q.1) (heq : p.1 = q.1) =>
    Char.lt_irrefl _ (heq ▸ hlt))

theorem ext_get? (h : ∀ c, env.get? c = env'.get? c) : env = env' := by
  refine Assignment.ext (List.Perm.eq_of_pairwise (fun p q _ _ hpq hqp => ?_) env.ascending
    env'.ascending ((List.perm_ext_iff_of_nodup nodup_pairs nodup_pairs).2 fun p => ?_))
  · exact absurd (Char.lt_trans hpq hqp) (Char.lt_irrefl _)
  · rw [← get?_eq_some_iff, ← get?_eq_some_iff, h]

@[simp] theorem get?_empty : (∅ : Assignment).get? c = none := rfl

@[simp] theorem get?_insert :
    (env.insert c b).get? x = if x = c then some b else env.get? x := by
  simp only [get?, insert]
  induction env.pairs with
  | nil => simp [insertPair, lookup_cons]
  | cons p ps ih =>
    simp only [insertPair]
    split
    · rw [lookup_cons]
    · split
      · simp only [lookup_cons, ← ‹c = p.1›]
        split <;> rfl
      · simp only [lookup_cons, ih]
        grind

@[simp] theorem get?_erase : (env.erase c).get? x = if x = c then none else env.get? x := by
  refine Option.ext fun b => ?_
  rw [get?_eq_some_iff]
  by_cases hx : x = c <;> simp [erase, hx, get?_eq_some_iff]

theorem insert_insert : (env.insert c b).insert c b' = env.insert c b' := by
  refine ext_get? fun x => ?_
  simp only [get?_insert]
  split <;> rfl

theorem erase_insert (h : env.get? c = none) : (env.insert c b).erase c = env := by
  refine ext_get? fun x => ?_
  simp only [get?_erase, get?_insert]
  split
  · subst x; exact h.symm
  · rfl

theorem get?_foldl_insert_eq_some_iff (h : (l.map (·.1)).Nodup) :
    (l.foldl (fun env p => env.insert p.1 p.2) env).get? x = some b ↔
      (x, b) ∈ l ∨ x ∉ l.map (·.1) ∧ env.get? x = some b := by
  induction l generalizing env with
  | nil => simp
  | cons p l ih =>
    rw [List.map_cons, List.nodup_cons] at h
    have hnot : ∀ b, (p.1, b) ∉ l := fun b hb => h.1 (List.mem_map.2 ⟨_, hb, rfl⟩)
    rw [List.foldl_cons, ih h.2, get?_insert, List.map_cons, List.mem_cons, List.mem_cons]
    by_cases hx : x = p.1
    · subst x
      simp [hnot, h.1, Prod.ext_iff, eq_comm]
    · simp [hx, Prod.ext_iff]

theorem get?_ofList_eq_some_iff (h : (l.map (·.1)).Nodup) :
    (ofList l).get? x = some b ↔ (x, b) ∈ l := by
  rw [ofList, get?_foldl_insert_eq_some_iff h]
  simp

end Assignment

end Entailment
