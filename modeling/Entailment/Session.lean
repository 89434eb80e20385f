/-!
# Sessions

A session carries out commands in order. Each of them gives a reply and leaves a state for the next
one.
-/

namespace Entailment.Session
variable {σ γ ρ : Type} (step : σ → γ → ρ × σ)

/-- The replies to commands that are carried out in order. -/
def replies (s : σ) : List γ → List ρ
  | [] => []
  | c :: cs => (step s c).1 :: replies (step s c).2 cs

/-- The state after commands. -/
def after (s : σ) : List γ → σ
  | [] => s
  | c :: cs => after (step s c).2 cs

variable {step} {s : σ} {c : γ} {cs cs' : List γ} {P : σ → Prop}

@[simp] theorem after_nil : after step s [] = s := rfl

@[simp] theorem after_cons : after step s (c :: cs) = after step (step s c).2 cs := rfl

theorem after_append : after step s (cs ++ cs') = after step (after step s cs) cs' := by
  induction cs generalizing s with
  | nil => rfl
  | cons c cs ih => exact ih

theorem replies_append :
    replies step s (cs ++ cs') = replies step s cs ++ replies step (after step s cs) cs' := by
  induction cs generalizing s with
  | nil => rfl
  | cons c cs ih => exact congrArg (_ :: ·) ih

theorem after_of_preserves (h : ∀ c ∈ cs, ∀ s, P s → P (step s c).2) (hs : P s) :
    P (after step s cs) := by
  induction cs generalizing s with
  | nil => exact hs
  | cons c cs ih =>
    obtain ⟨hc, hcs⟩ := List.forall_mem_cons.1 h
    exact ih hcs (hc s hs)

/-- Commands that leave a state as it is are answered one by one. -/
theorem replies_of_idle (h : ∀ c ∈ cs, (step s c).2 = s) :
    replies step s cs = cs.map fun c => (step s c).1 := by
  induction cs with
  | nil => rfl
  | cons c cs ih =>
    obtain ⟨hc, hcs⟩ := List.forall_mem_cons.1 h
    rw [replies, hc, ih hcs, List.map_cons]

end Entailment.Session
