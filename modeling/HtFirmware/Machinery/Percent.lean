import HtFirmware.Machinery.Text
import Mathlib.Data.Fin.Basic

/-!
# Machinery/Percent — percent-encoded text

A percent-encoded text is a list of pieces: a character that stands for itself, or an escape of two
hexadecimal digits.  A piece cannot be built that stands for a null, and a percent sign is always an
escape; `bytes` is what some pieces stand for and `encoding` how they are written.
-/

namespace Machinery

/-- A hexadecimal digit, in either case. -/
structure HexDigit where
  value : Fin 16
  upper : Bool

namespace HexDigit

/-- The digits, in one case. -/
def alphabet (upper : Bool) : CString :=
  (if upper then "0123456789ABCDEF" else "0123456789abcdef").toList

/-- How it is written. -/
def char (d : HexDigit) : Char := (alphabet d.upper).getD d.value '0'

/-- What is found of each digit, in both cases, holds of them all. -/
theorem forall_char {P : ℕ → Char → Prop}
    (h : ∀ (value : Fin 16) (upper : Bool), P value ((alphabet upper).getD value '0')) (d : HexDigit) :
    P d.value d.char := h d.value d.upper

end HexDigit

/-- The byte an escape stands for. -/
def escapedByte (high low : HexDigit) : Char := Char.ofNat (high.value * 16 + low.value)

/-- A piece of a percent-encoded text. -/
inductive Piece where
  | literal (c : Char) (plain : c ≠ '%' ∧ c ≠ '\x00')
  | escape (high low : HexDigit) (notNull : escapedByte high low ≠ '\x00')

namespace Piece

/-- What it stands for. -/
def byte : Piece → Char
  | .literal c _ => c
  | .escape high low _ => escapedByte high low

/-- How it is written. -/
def text : Piece → CString
  | .literal c _ => [c]
  | .escape high low _ => ['%', high.char, low.char]

/-- An escape has a zero for its first digit. -/
def Small : Piece → Prop
  | .literal _ _ => True
  | .escape high _ _ => high.value.val = 0

instance : ∀ p : Piece, Decidable p.Small
  | .literal _ _ => isTrue trivial
  | .escape high _ _ => inferInstanceAs (Decidable (high.value.val = 0))

/-- A piece that stands for itself does so for a character with a property. -/
def Literally (P : Char → Prop) : Piece → Prop
  | .literal c _ => P c
  | .escape _ _ _ => True

/-- What holds of the percent sign, of the digits and of the characters that stand for themselves
holds of all that is written. -/
theorem forall_mem_text {P : Char → Prop} (hpercent : P '%') (hdigit : ∀ d : HexDigit, P d.char)
    {p : Piece} (h : p.Literally P) : ∀ c ∈ p.text, P c := by
  cases p with
  | literal c plain => exact List.forall_mem_singleton.mpr h
  | escape high low notNull =>
    exact List.forall_mem_cons.mpr ⟨hpercent, List.forall_mem_cons.mpr
      ⟨hdigit high, List.forall_mem_singleton.mpr (hdigit low)⟩⟩

end Piece

/-- What some pieces stand for. -/
def bytes (ps : List Piece) : CString := ps.map Piece.byte

/-- How some pieces are written. -/
def encoding (ps : List Piece) : CString := ps.flatMap Piece.text

@[simp] theorem length_bytes (ps : List Piece) : (bytes ps).length = ps.length := List.length_map _

theorem encoding_cons (p : Piece) (ps : List Piece) : encoding (p :: ps) = p.text ++ encoding ps :=
  List.flatMap_cons

/-- A character that is no digit and no percent sign is written only where it stands for itself. -/
theorem notMem_encoding {c : Char} (hpercent : '%' ≠ c) (hdigit : ∀ d : HexDigit, d.char ≠ c)
    {ps : List Piece} (h : ∀ p ∈ ps, p.Literally (· ≠ c)) : c ∉ encoding ps := by
  intro hmem
  obtain ⟨p, hp, hc⟩ := List.mem_flatMap.mp hmem
  exact Piece.forall_mem_text hpercent hdigit (h p hp) c hc rfl

end Machinery
