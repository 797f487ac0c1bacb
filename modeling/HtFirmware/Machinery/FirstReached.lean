import Mathlib.Logic.Relation

/-!
# Machinery/FirstReached — the first that is reached

    a ──▸ ⋯ ──▸ b ──▸ ⋯ ──▸ c

Where nothing is related to two, all that is reached from `a` lies on one way.  `FirstReached` says that
`b` is where a predicate first holds on it: every `c` it holds of is reached from `b`.
-/

namespace Machinery

open Relation

variable {α : Type*}

/-- **The first of those reached for which the predicate holds.** -/
structure FirstReached (r : α → α → Prop) (p : α → Prop) (a b : α) : Prop where
  reached : ReflTransGen r a b
  holds : p b
  first : ∀ c, ReflTransGen r a c → p c → ReflTransGen r b c

section FirstReached

variable {r : α → α → Prop} {p : α → Prop} {a b c : α}

/-- It holds of what one starts from. -/
theorem FirstReached.self (h : p a) : FirstReached r p a a := ⟨.refl, h, fun _ hc _ => hc⟩

/-- It does not, and one goes on. -/
theorem FirstReached.head (hunique : Relator.RightUnique r) (ha : ¬ p a) (hab : r a b)
    (h : FirstReached r p b c) : FirstReached r p a c where
  reached := .head hab h.reached
  holds := h.holds
  first d hd hpd := by
    obtain rfl | ⟨b', hb', hd⟩ := ReflTransGen.cases_head hd
    · exact absurd hpd ha
    · obtain rfl := hunique hab hb'
      exact h.first d hd hpd

end FirstReached

end Machinery
