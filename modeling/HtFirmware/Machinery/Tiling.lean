import Mathlib.Order.Nat

/-!
# Machinery/Tiling — records one after another

A format of records that each tell their own size is walked from one record's start to the next one's.
`Tiles width stop a as` says that the records which start at `as` cover the bytes from `a` to `stop`, the
last one ending there.  Where no record is empty, bytes are covered in one way at most.
-/

namespace Machinery

/-- **The records that start at `as`, each `width` long, cover the bytes from `a` to `stop`.** -/
inductive Tiles (width : ℕ → ℕ) (stop : ℕ) : ℕ → List ℕ → Prop where
  | nil : Tiles width stop stop []
  | cons {a : ℕ} {as : List ℕ} (h : Tiles width stop (a + width a) as) :
      Tiles width stop a (a :: as)

variable {width : ℕ → ℕ} {a stop : ℕ} {as bs : List ℕ}

theorem Tiles.le (h : Tiles width stop a as) : a ≤ stop := by
  induction h with
  | nil => exact le_rfl
  | cons h ih => omega

/-- Bytes are covered by a first record and those after it. -/
theorem tiles_iff (h : a < stop) :
    Tiles width stop a as ↔ ∃ rest, as = a :: rest ∧ Tiles width stop (a + width a) rest := by
  constructor
  · rintro (_ | hrest)
    · exact absurd h (lt_irrefl _)
    · exact ⟨_, rfl, hrest⟩
  · rintro ⟨rest, rfl, hrest⟩
    exact .cons hrest

/-- No record covers no bytes. -/
theorem tiles_self_iff (hwidth : ∀ a, 0 < width a) : Tiles width a a as ↔ as = [] := by
  constructor
  · rintro (_ | h)
    · rfl
    · have := h.le
      have := hwidth a
      omega
  · rintro rfl
    exact .nil

/-- Bytes are covered in one way at most. -/
theorem Tiles.unique (hwidth : ∀ a, 0 < width a) (ha : Tiles width stop a as)
    (hb : Tiles width stop a bs) : as = bs := by
  induction ha generalizing bs with
  | nil => exact ((tiles_self_iff hwidth).mp hb).symm
  | @cons a as ha ih =>
    have := ha.le
    have := hwidth a
    obtain ⟨rest, rfl, hrest⟩ := (tiles_iff (by omega)).mp hb
    rw [ih hrest]

end Machinery
