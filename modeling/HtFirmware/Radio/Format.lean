import Mathlib.Data.Rat.Floor

/-!
# Radio/Format — the C library texts the radio driver exchanges with the module

Serial traffic is text.  A `CString` is the characters before the terminating null; `float` fields
are exact rationals, so `%3.4f` prints the nearest multiple of `10⁻⁴` and `roundf` rounds halves
away from zero.
-/

namespace Radio

/-- A C string, without its terminating null. -/
abbrev CString := List Char

/-- `snprintf` into a buffer of `size` bytes keeps one byte for the null. -/
def snprintf (size : ℕ) (text : CString) : CString := text.take (size - 1)

/-- The nearest multiple of `10⁻⁴`, in units of `10⁻⁴`, ties to even: what `%3.4f` prints. -/
def tenThousandths (x : ℚ) : ℤ :=
  let y := x * 10000
  let low := y.floor
  if y - low < 1 / 2 then low
  else if 1 / 2 < y - low then low + 1
  else if low % 2 = 0 then low else low + 1

/-- `%3.4f`: four decimals always reach the minimum width. -/
def fixed4 (x : ℚ) : CString :=
  let n := (tenThousandths x).natAbs
  (if x < 0 then ['-'] else []) ++ (toString (n / 10000)).toList ++ ['.']
    ++ ((toString (10000 + n % 10000)).toList.drop 1)

/-- `%d`. -/
def decimal (n : ℤ) : CString := (toString n).toList

/-- `(int)roundf(x)`: halves round away from zero. -/
def roundf (x : ℚ) : ℤ := if 0 ≤ x then (x + 1 / 2).floor else -(-x + 1 / 2).floor

/-- The value of a run of decimal digits read after `n`; the first other character ends it. -/
def digits (n : ℤ) : CString → ℤ
  | [] => n
  | c :: cs => if c.isDigit then digits (10 * n + (c.toNat - '0'.toNat)) cs else n

/-- `isspace`. -/
def isspace (c : Char) : Bool := c = ' ' || ('\t'.toNat ≤ c.toNat && c.toNat ≤ '\r'.toNat)

/-- `atoi`: white space, an optional sign, then digits. -/
def atoi (s : CString) : ℤ :=
  match s.dropWhile isspace with
  | '-' :: cs => -digits 0 cs
  | '+' :: cs => digits 0 cs
  | cs => digits 0 cs

example : fixed4 (14652 / 100) = "146.5200".toList := by decide +kernel

example : fixed4 (-1 / 100000) = "-0.0000".toList := by decide +kernel

end Radio
