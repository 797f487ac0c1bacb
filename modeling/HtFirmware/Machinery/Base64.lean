import Mathlib.Data.List.Basic
import Mathlib.Tactic.Common

/-!
# Machinery/Base64 — base64, and text in lines

`base64` is the text of some bytes: four characters for three bytes, padded at the end.  An encoder may
break it into lines, each with a line feed after it (`breakLines`): a text of one line only gets that
one (`breakLines_of_le`), a longer one has others inside (`mem_dropLast_breakLines`).
-/

namespace Machinery

/-! ## The text -/

/-- The alphabet, without the padding. -/
def base64Alphabet : List UInt8 :=
  "ABCDEFGHIJKLMNOPQRSTUVWXYZabcdefghijklmnopqrstuvwxyz0123456789+/".toList.map
    fun c => c.toNat.toUInt8

/-- The padding, `=`. -/
def base64Pad : UInt8 := 61

/-- The character for six bits. -/
def base64Char (n : ℕ) : UInt8 := base64Alphabet.getD n base64Pad

/-- The text of some bytes. -/
def base64 : List UInt8 → List UInt8
  | [] => []
  | [a] => [base64Char (a.toNat / 4), base64Char (a.toNat % 4 * 16), base64Pad, base64Pad]
  | [a, b] => [base64Char (a.toNat / 4), base64Char (a.toNat % 4 * 16 + b.toNat / 16),
      base64Char (b.toNat % 16 * 4), base64Pad]
  | a :: b :: c :: s => base64Char (a.toNat / 4) :: base64Char (a.toNat % 4 * 16 + b.toNat / 16) ::
      base64Char (b.toNat % 16 * 4 + c.toNat / 64) :: base64Char (c.toNat % 64) :: base64 s

theorem length_base64 (s : List UInt8) : (base64 s).length = 4 * ((s.length + 2) / 3) := by
  induction s using base64.induct with
  | case1 => rfl
  | case2 | case3 => simp only [base64, List.length_cons, List.length_nil]
  | case4 a b c s ih =>
    simp only [base64, List.length_cons, ih]
    omega

theorem mem_base64Char (n : ℕ) : base64Char n ∈ base64Pad :: base64Alphabet := by
  unfold base64Char
  rw [List.getD_eq_getElem?_getD]
  cases h : base64Alphabet[n]? with
  | none => exact List.mem_cons_self
  | some c => exact List.mem_cons_of_mem _ (List.mem_of_getElem? h)

/-- The text is made of the alphabet and the padding. -/
theorem mem_base64 (s : List UInt8) : ∀ c ∈ base64 s, c ∈ base64Pad :: base64Alphabet := by
  induction s using base64.induct with
  | case1 => exact List.forall_mem_nil _
  | case2 | case3 =>
    simp only [base64, List.forall_mem_cons, mem_base64Char, List.mem_cons_self, true_and]
    exact List.forall_mem_nil _
  | case4 a b c s ih =>
    simp only [base64, List.forall_mem_cons, mem_base64Char, true_and]
    exact ih

/-! ## Lines -/

/-- The line feed. -/
def lineFeed : UInt8 := 10

/-- The text in lines of some width, each with a line feed after it. -/
def breakLines (width : ℕ) (s : List UInt8) : List UInt8 :=
  if s = [] then []
  else if s.length ≤ width ∨ width = 0 then s ++ [lineFeed]
  else s.take width ++ lineFeed :: breakLines width (s.drop width)
termination_by s.length
decreasing_by
  rw [List.length_drop]
  omega

theorem breakLines_of_le {width : ℕ} {s : List UInt8} (hs : s ≠ []) (hwidth : s.length ≤ width) :
    breakLines width s = s ++ [lineFeed] := by
  rw [breakLines, if_neg hs, if_pos (Or.inl hwidth)]

/-- A text of more than one line has a line feed before the last character. -/
theorem mem_dropLast_breakLines {width : ℕ} {s : List UInt8} (hpos : 0 < width)
    (hlong : width < s.length) : lineFeed ∈ (breakLines width s).dropLast := by
  have hs : s ≠ [] := List.ne_nil_of_length_pos (by omega)
  have hrest : s.drop width ≠ [] := List.ne_nil_of_length_pos (by rw [List.length_drop]; omega)
  have hmore : breakLines width (s.drop width) ≠ [] := by
    rw [breakLines, if_neg hrest]
    split_ifs
    · exact List.append_ne_nil_of_right_ne_nil _ (List.cons_ne_nil _ _)
    · exact List.append_ne_nil_of_right_ne_nil _ (List.cons_ne_nil _ _)
  rw [breakLines, if_neg hs, if_neg (by omega), List.dropLast_append_cons,
    List.dropLast_cons_of_ne_nil hmore]
  exact List.mem_append_right _ List.mem_cons_self

end Machinery
