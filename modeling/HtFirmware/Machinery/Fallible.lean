import Mathlib.Tactic.Common

/-!
# Machinery/Fallible — computations that may go wrong

What is known of the parts of a computation in `Except` that ended well; how a computation ends, told of
its parts (`Ends`); and one that ends as another does, which says less of its faults (`Simulates`).
-/

namespace Machinery

variable {ε α β : Type} {x : Except ε α}

/-- A computation that ended well did so part by part. -/
theorem bind_ok {f : α → Except ε β} {b : β} (h : x >>= f = .ok b) :
    ∃ a, x = .ok a ∧ f a = .ok b := by
  cases x with
  | error fault => cases h
  | ok a => exact ⟨a, rfl, h⟩

theorem map_ok {f : α → β} {b : β} (h : x.map f = .ok b) : ∃ a, x = .ok a ∧ f a = b := by
  cases x with
  | error fault => cases h
  | ok a => exact ⟨a, rfl, Except.ok.inj h⟩

/-! ## How a computation ends -/

/-- **A computation ends with a result that has the one property, or with a fault that has the other.** -/
inductive Ends (F : ε → Prop) (P : α → Prop) : Except ε α → Prop where
  | ok {a : α} : P a → Ends F P (.ok a)
  | error {fault : ε} : F fault → Ends F P (.error fault)

section Ends

variable {F : ε → Prop} {P Q : α → Prop} {R : β → Prop} {a : α} {f : α → Except ε β}

theorem Ends.mono (h : Ends F P x) (hPQ : ∀ a, P a → Q a) : Ends F Q x := by
  cases h with
  | ok h => exact .ok (hPQ _ h)
  | error h => exact .error h

/-- One part after another. -/
theorem Ends.bind (h : Ends F P x) (hf : ∀ a, P a → Ends F R (f a)) : Ends F R (x >>= f) := by
  cases h with
  | ok h => exact hf _ h
  | error h => exact .error h

/-- One part, whose result is known, after another. -/
theorem Ends.bind_of_eq (h : x = .ok a) (hf : Ends F R (f a)) : Ends F R (x >>= f) := by
  rw [h]
  exact hf

end Ends

/-! ## A computation whose faults are not told apart -/

/-- **The one computation ends as the other does**, with results that belong together. -/
inductive Simulates {γ : Type} (R : α → γ → Prop) : Except ε α → Option γ → Prop where
  | ok {a : α} {c : γ} : R a c → Simulates R (.ok a) (some c)
  | error {fault : ε} : Simulates R (.error fault) none

section Simulates

variable {γ δ : Type} {R : α → γ → Prop} {S : β → δ → Prop} {y : Option γ} {a : α}
  {f : α → Except ε β} {g : γ → Option δ} {z : Option δ}

/-- One part after another. -/
theorem Simulates.bind (h : Simulates R x y) (hf : ∀ a c, R a c → Simulates S (f a) (g c)) :
    Simulates S (x >>= f) (y.bind g) := by
  cases h with
  | ok h => exact hf _ _ h
  | error => exact .error

/-- A part that the other computation does not have. -/
theorem Simulates.bind_of_eq (h : x = .ok a) (hf : Simulates S (f a) z) : Simulates S (x >>= f) z := by
  rw [h]
  exact hf

end Simulates

end Machinery
