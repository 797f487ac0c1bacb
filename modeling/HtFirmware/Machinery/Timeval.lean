import Mathlib.Tactic.Common
import Mathlib.Data.Nat.Notation

/-!
# Machinery/Timeval — `struct timeval`, and the macros that compute with it

A `Timeval` is seconds and microseconds, the latter below a million: what `gettimeofday` stores, and
what the macros keep.  `micros` reads it as one number, and every macro is what it should be there:
`lt_iff`, `isSet_iff`, `micros_add` and `micros_sub`.
-/

namespace Machinery

/-- A time, or an interval. -/
structure Timeval where
  sec : ℕ
  usec : ℕ
  usec_lt : usec < 1000000
  deriving DecidableEq

namespace Timeval

/-- The time in microseconds. -/
def micros (t : Timeval) : ℕ := t.sec * 1000000 + t.usec

/-- `timerclear`. -/
def clear : Timeval := ⟨0, 0, by decide⟩

/-- A whole number of seconds. -/
def ofSec (seconds : ℕ) : Timeval := ⟨seconds, 0, by decide⟩

/-- `timerisset`. -/
def isSet (t : Timeval) : Bool := t.sec != 0 || t.usec != 0

/-- `timercmp(a, b, <)`. -/
def lt (a b : Timeval) : Bool := if a.sec = b.sec then a.usec < b.usec else a.sec < b.sec

/-- `timeradd`. -/
def add (a b : Timeval) : Timeval :=
  if h : 1000000 ≤ a.usec + b.usec then
    ⟨a.sec + b.sec + 1, a.usec + b.usec - 1000000, by have := a.usec_lt; have := b.usec_lt; omega⟩
  else ⟨a.sec + b.sec, a.usec + b.usec, by omega⟩

/-- `timersub`, for a subtrahend that is not later. -/
def sub (a b : Timeval) : Timeval :=
  if h : a.usec < b.usec then
    ⟨a.sec - b.sec - 1, a.usec + 1000000 - b.usec, by omega⟩
  else ⟨a.sec - b.sec, a.usec - b.usec, by have := a.usec_lt; omega⟩

variable {a b t : Timeval}

@[simp] theorem micros_clear : clear.micros = 0 := by simp [micros, clear]

@[simp] theorem micros_ofSec (seconds : ℕ) : (ofSec seconds).micros = seconds * 1000000 := by
  rw [micros, ofSec, Nat.add_zero]

theorem isSet_iff : t.isSet = true ↔ 0 < t.micros := by
  simp only [isSet, micros, Bool.or_eq_true, bne_iff_ne]
  omega

/-- Times are compared as microseconds are. -/
theorem lt_iff : a.lt b = true ↔ a.micros < b.micros := by
  have := a.usec_lt
  have := b.usec_lt
  unfold lt micros
  split_ifs with h
  · rw [h, decide_eq_true_eq]
    omega
  · rw [decide_eq_true_eq]
    omega

theorem micros_add (a b : Timeval) : (a.add b).micros = a.micros + b.micros := by
  unfold add micros
  split_ifs <;> dsimp only <;> omega

theorem micros_sub (h : b.micros ≤ a.micros) : (a.sub b).micros = a.micros - b.micros := by
  have := a.usec_lt
  have := b.usec_lt
  unfold sub
  unfold micros at *
  split_ifs <;> dsimp only <;> omega

/-- A remainder without seconds is less than a second, to the microsecond. -/
theorem sec_eq_zero_and_usec_lt {n : ℕ} (hn : n ≤ 1000000) :
    t.sec = 0 ∧ t.usec < n ↔ t.micros < n := by
  unfold micros
  omega

end Timeval

end Machinery
