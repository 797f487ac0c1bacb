import HtFirmware.Machinery.ByteOrder
import Mathlib.Tactic.FinCases

/-!
# Support/AllZeroes — the word-at-a-time zero test

`gm_all_zeroes` compares words where it can, and leading bytes up to the first word boundary.  Its
argument here is the memory from the address on, with the alignment of the address: the function
may read past the object it is given, because the word loop only stops at a size of exactly zero,
and because stepping over a leading halfword advances the address by one byte.
-/

open Machinery

namespace Support

/-! ## The loops -/

/-- `while ( size != 0 )` over words: a size that is no multiple of four wraps past zero, and only a
non-zero word stops the loop.  `none` is a read past the memory. -/
def wordLoop (size : UInt32) (memory : List UInt8) : Option Bool :=
  if size = 0 then some true
  else
    match memory with
    | a :: b :: c :: d :: memory =>
      if a = 0 ∧ b = 0 ∧ c = 0 ∧ d = 0 then wordLoop (size - 4) memory else some false
    | _ => none

/-- The same loop over bytes. -/
def byteLoop (size : UInt32) (memory : List UInt8) : Option Bool :=
  if size = 0 then some true
  else
    match memory with
    | a :: memory => if a = 0 then byteLoop (size - 1) memory else some false
    | [] => none

/-- What follows the leading bytes.  The word loop leaves a size of zero, so no byte follows it. -/
def alignedLoops (size : UInt32) (memory : List UInt8) : Option Bool :=
  if 4 ≤ size then wordLoop size memory else byteLoop size memory

/-- A leading byte. -/
def leadingByte (size : UInt32) (memory : List UInt8)
    (next : UInt32 → List UInt8 → Option Bool) : Option Bool :=
  match memory with
  | a :: memory => if a = 0 then next (size - 1) memory else some false
  | [] => none

/-- A leading halfword: two bytes are compared, and the address advances by one. -/
def leadingHalfword (size : UInt32) (memory : List UInt8)
    (next : UInt32 → List UInt8 → Option Bool) : Option Bool :=
  match memory with
  | a :: b :: memory => if a = 0 ∧ b = 0 then next (size - 2) (b :: memory) else some false
  | _ => none

/-- `gm_all_zeroes`, over the memory from the address on. -/
def gmAllZeroes (alignment : Fin 4) (memory : List UInt8) (size : UInt32) : Option Bool :=
  if 4 < size then
    match alignment with
    | 0 => alignedLoops size memory
    | 1 => leadingByte size memory fun size memory => leadingHalfword size memory alignedLoops
    | 2 => leadingHalfword size memory alignedLoops
    | 3 => leadingByte size memory alignedLoops
  else alignedLoops size memory

/-! ## What it decides -/

/-- A non-zero first byte is always seen. -/
theorem gmAllZeroes_of_ne_zero {a : UInt8} (ha : a ≠ 0) (alignment : Fin 4) (b c d : UInt8)
    (memory : List UInt8) (size : UInt32) (hsize : 4 ≤ size) :
    gmAllZeroes alignment (a :: b :: c :: d :: memory) size = some false := by
  have hwords : alignedLoops size (a :: b :: c :: d :: memory) = some false := by
    rw [alignedLoops, if_pos hsize, wordLoop, if_neg (by rintro rfl; exact absurd hsize (by decide))]
    simp [ha]
  unfold gmAllZeroes
  split_ifs
  · fin_cases alignment
    · exact hwords
    · exact if_neg ha
    · exact if_neg fun h => ha h.1
    · exact if_neg ha
  · exact hwords

/-- Four bytes are read at a time. -/
theorem wordLoop_cons {size : UInt32} (hsize : size ≠ 0) (a b c d : UInt8) (memory : List UInt8) :
    wordLoop size (a :: b :: c :: d :: memory)
      = if a = 0 ∧ b = 0 ∧ c = 0 ∧ d = 0 then wordLoop (size - 4) memory else some false := by
  rw [wordLoop, if_neg hsize]

/-- It is right about sixteen bytes at a word boundary. -/
theorem gmAllZeroes_sixteen (bytes : Bytes 16) :
    gmAllZeroes ⟨0, by decide⟩ (List.ofFn bytes) 16 = some (decide (∀ i, bytes i = 0)) := by
  have hbytes : List.ofFn bytes = [bytes 0, bytes 1, bytes 2, bytes 3, bytes 4, bytes 5, bytes 6,
    bytes 7, bytes 8, bytes 9, bytes 10, bytes 11, bytes 12, bytes 13, bytes 14, bytes 15] := rfl
  have hwords : gmAllZeroes ⟨0, by decide⟩ (List.ofFn bytes) 16 = wordLoop 16 (List.ofFn bytes) := rfl
  have hend : wordLoop (16 - 4 - 4 - 4 - 4) [] = some true := by
    unfold wordLoop
    exact if_pos (by decide)
  rw [hwords, hbytes, wordLoop_cons (by decide), wordLoop_cons (by decide), wordLoop_cons (by decide),
    wordLoop_cons (by decide), hend]
  simp only [Fin.forall_fin_succ]
  split_ifs <;> simp_all

end Support
