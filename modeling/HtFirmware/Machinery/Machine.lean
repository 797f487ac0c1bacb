import HtFirmware.Machinery.Fallible

/-!
# Machinery/Machine — machines that answer, and when two cannot be told apart

A machine has a state, and answers each input, unless it fails.  Two machines in related states that
answer alike and stay related give the same answers for ever (`serve_agrees`); so an optimised machine is
compared with the plain one, and one that keeps more than it needs with one that keeps what it is for.
-/

namespace Machinery

variable {ε σ τ ι υ : Type}

theorem map_map_except {α β γ : Type} (x : Except ε α) (f : α → β) (g : β → γ) :
    (x.map f).map g = x.map fun a => g (f a) := by
  cases x with
  | error e => rfl
  | ok a => rfl

/-! ## Computations that agree -/

/-- Both fail alike, or come to something related. -/
inductive Agrees {α β : Type} (R : α → β → Prop) : Except ε α → Except ε β → Prop where
  | error (e : ε) : Agrees R (.error e) (.error e)
  | ok {a : α} {b : β} (h : R a b) : Agrees R (.ok a) (.ok b)

namespace Agrees

variable {α β γ δ : Type} {R : α → β → Prop} {S : γ → δ → Prop} {x : Except ε α} {y : Except ε β}

theorem mono {Q : α → β → Prop} (h : Agrees R x y) (hRQ : ∀ a b, R a b → Q a b) : Agrees Q x y := by
  cases h with
  | error e => exact .error e
  | ok h => exact .ok (hRQ _ _ h)

theorem bind {f : α → Except ε γ} {g : β → Except ε δ} (h : Agrees R x y)
    (hf : ∀ a b, R a b → Agrees S (f a) (g b)) : Agrees S (x >>= f) (y >>= g) := by
  cases h with
  | error e => exact .error e
  | ok h => exact hf _ _ h

theorem map {f : α → γ} {g : β → δ} (h : Agrees R x y) (hf : ∀ a b, R a b → S (f a) (g b)) :
    Agrees S (x.map f) (y.map g) := by
  cases h with
  | error e => exact .error e
  | ok h => exact .ok (hf _ _ h)

/-- The second one's results are mapped. -/
theorem map_right {S : α → γ → Prop} {g : β → γ} (h : Agrees R x y) (hg : ∀ a b, R a b → S a (g b)) :
    Agrees S x (y.map g) := by
  cases h with
  | error e => exact .error e
  | ok h => exact .ok (hg _ _ h)

/-- What is known of the first one's results. -/
theorem and_left {P : α → Prop} (h : Agrees R x y) (hx : ∀ a, x = .ok a → P a) :
    Agrees (fun a b => P a ∧ R a b) x y := by
  cases h with
  | error e => exact .error e
  | ok h => exact .ok ⟨hx _ rfl, h⟩

/-- What is equal agrees with itself, where the relation is kept there. -/
theorem of_eq {R : α → α → Prop} {x : Except ε α} (h : ∀ a, x = .ok a → R a a) : Agrees R x x := by
  cases x with
  | error e => exact .error e
  | ok a => exact .ok (h a rfl)

end Agrees

/-! ## Runs -/

/-- The answers to some inputs, and the state after them. -/
def serve (step : σ → ι → Except ε (σ × υ)) (s : σ) : List ι → Except ε (σ × List υ)
  | [] => .ok (s, [])
  | i :: is => do
    let (s, o) ← step s i
    let (s, os) ← serve step s is
    .ok (s, o :: os)

/-- **Machines that answer alike, and stay related, give the same answers.** -/
theorem serve_agrees {step : σ → ι → Except ε (σ × υ)} {step' : τ → ι → Except ε (τ × υ)}
    {R : σ → τ → Prop}
    (hstep : ∀ s t i, R s t → Agrees (fun a b => R a.1 b.1 ∧ a.2 = b.2) (step s i) (step' t i)) :
    ∀ (is : List ι) {s : σ} {t : τ}, R s t →
      Agrees (fun a b => R a.1 b.1 ∧ a.2 = b.2) (serve step s is) (serve step' t is) := by
  intro is
  induction is with
  | nil => exact fun h => .ok ⟨h, rfl⟩
  | cons i is ih =>
    intro s t h
    refine (hstep s t i h).bind fun a b hab => (ih hab.1).bind fun c d hcd => .ok ⟨hcd.1, ?_⟩
    rw [hab.2, hcd.2]

end Machinery
