import Mathlib.Data.Fin.VecNotation
import Mathlib.Data.Fintype.Pi
import Mathlib.Data.UInt
import Mathlib.Tactic.IntervalCases

/-!
# Machinery/ByteOrder — a little-endian CPU talking network byte order

A multi-byte field of a packet is the integer a little-endian CPU loads from it, so reading it in
network order is a byte swap.  `swap16` and `swap32` are those swaps; both are involutions, which is
all a caller needs to know about byte order.
-/

namespace Machinery

/-- A fixed number of bytes, in address order. -/
abbrev Bytes (n : ℕ) := Fin n → UInt8

/-! ## Swaps -/

/-- The two bytes of a 16-bit word, exchanged. -/
def swap16 (x : UInt16) : UInt16 := (x <<< 8) ||| (x >>> 8)

/-- The four bytes of a 32-bit word, reversed. -/
def swap32 (x : UInt32) : UInt32 :=
  (x <<< 24) ||| ((x <<< 8) &&& (0xff0000 : UInt32)) ||| ((x >>> 8) &&& (0xff00 : UInt32))
    ||| (x >>> 24)

@[simp] theorem swap16_swap16 (x : UInt16) : swap16 (swap16 x) = x := by
  refine UInt16.toBitVec_inj.mp (BitVec.eq_of_getLsbD_eq fun i hi => ?_)
  simp only [swap16, UInt16.toBitVec_or, UInt16.toBitVec_shiftLeft, UInt16.toBitVec_shiftRight]
  interval_cases i <;> simp

@[simp] theorem swap32_swap32 (x : UInt32) : swap32 (swap32 x) = x := by
  refine UInt32.toBitVec_inj.mp (BitVec.eq_of_getLsbD_eq fun i hi => ?_)
  simp only [swap32, UInt32.toBitVec_or, UInt32.toBitVec_and, UInt32.toBitVec_shiftLeft,
    UInt32.toBitVec_shiftRight]
  interval_cases i <;> simp

/-! ## Words in memory -/

/-- The bytes of a 16-bit word as a little-endian CPU stores it. -/
def bytes16 (x : UInt16) : List UInt8 := [x.toUInt8, (x >>> 8).toUInt8]

/-- The bytes of a 32-bit word as a little-endian CPU stores it. -/
def bytes32 (x : UInt32) : List UInt8 :=
  [x.toUInt8, (x >>> 8).toUInt8, (x >>> 16).toUInt8, (x >>> 24).toUInt8]

/-- The 16-bit word a little-endian CPU loads from two bytes. -/
def load16 (a b : UInt8) : UInt16 := a.toUInt16 ||| (b.toUInt16 <<< 8)

/-- The 32-bit word a little-endian CPU loads from four bytes. -/
def load32 (a b c d : UInt8) : UInt32 :=
  a.toUInt32 ||| (b.toUInt32 <<< 8) ||| (c.toUInt32 <<< 16) ||| (d.toUInt32 <<< 24)

/-- A word is loaded as it was stored. -/
@[simp] theorem load32_bytes (x : UInt32) :
    load32 x.toUInt8 (x >>> 8).toUInt8 (x >>> 16).toUInt8 (x >>> 24).toUInt8 = x := by
  refine UInt32.toBitVec_inj.mp (BitVec.eq_of_getLsbD_eq fun i hi => ?_)
  simp only [load32, UInt32.toBitVec_or, UInt32.toBitVec_shiftLeft, UInt32.toBitVec_shiftRight,
    UInt8.toBitVec_toUInt32, UInt32.toBitVec_toUInt8]
  interval_cases i <;> simp

theorem toUInt8_load16 (a b : UInt8) : (load16 a b).toUInt8 = a := by
  refine UInt8.toBitVec_inj.mp (BitVec.eq_of_getLsbD_eq fun i hi => ?_)
  simp only [load16, UInt16.toBitVec_or, UInt16.toBitVec_shiftLeft, UInt8.toBitVec_toUInt16,
    UInt16.toBitVec_toUInt8]
  interval_cases i <;> simp

/-- Loaded in the other order, the bytes are swapped. -/
theorem swap16_load16 (a b : UInt8) : swap16 (load16 a b) = load16 b a := by
  refine UInt16.toBitVec_inj.mp (BitVec.eq_of_getLsbD_eq fun i hi => ?_)
  simp only [swap16, load16, UInt16.toBitVec_or, UInt16.toBitVec_shiftLeft,
    UInt16.toBitVec_shiftRight, UInt8.toBitVec_toUInt16]
  interval_cases i <;> simp

/-- Two bytes make up a word in one way. -/
theorem load16_inj {a b c d : UInt8} : load16 a b = load16 c d ↔ a = c ∧ b = d := by
  constructor
  · intro h
    have hfirst := congrArg UInt16.toUInt8 h
    have hsecond := congrArg (fun x => (swap16 x).toUInt8) h
    simp only [swap16_load16, toUInt8_load16] at hfirst hsecond
    exact ⟨hfirst, hsecond⟩
  · rintro ⟨rfl, rfl⟩
    rfl

/-- The lowest byte of a word comes first. -/
theorem toUInt8_load32 (a b c d : UInt8) : (load32 a b c d).toUInt8 = a := by
  refine UInt8.toBitVec_inj.mp (BitVec.eq_of_getLsbD_eq fun i hi => ?_)
  simp only [load32, UInt32.toBitVec_or, UInt32.toBitVec_shiftLeft, UInt8.toBitVec_toUInt32,
    UInt32.toBitVec_toUInt8]
  interval_cases i <;> simp

end Machinery
