import HtFirmware.Machinery.Cells
import HtFirmware.Machinery.Text

/-!
# Support/TimerToHuman — how long the device has been up

    D days, HH:MM:SS

`gm_timer_to_human` writes the days, when there are any, and the time behind them.  What is left of the
buffer for the time is `size - size`, so it is written only where there are no days: a text is right in
the first day, and later is the same from one midnight to the next (`humane_iff`).
-/

open Machinery

namespace Support

/-! ## The function -/

def second : Int64 := 1000000

def minute : Int64 := second * 60

def hour : Int64 := minute * 60

def day : Int64 := hour * 24

/-- `%d`. -/
def decimal (n : Int32) : CString := (toString n.toInt).toList

/-- `%02d`. -/
def decimal02 (n : Int32) : CString := if 0 ≤ n ∧ n < 10 then '0' :: decimal n else decimal n

/-- `snprintf`, for a text that is made: nothing is written to no bytes. -/
def snprintf (m : Tracked Char) (buffer : ℕ) (size : UInt32) (text : CString) : Tracked Char :=
  if size = 0 then m else m.write buffer (text.take (size.toNat - 1) ++ ['\x00'])

/-- `gm_timer_to_human`, `none` where `strlen` reads past the buffer. -/
def gmTimerToHuman (t : Int64) (m : Tracked Char) (buffer : ℕ) (size : UInt32) :
    Option (Tracked Char) :=
  let days := (t / day).toInt32
  let hours := (t % day / hour).toInt32
  let minutes := (t % hour / minute).toInt32
  let seconds := (t % minute / second).toInt32
  let time := decimal02 hours ++ ':' :: (decimal02 minutes ++ ':' :: decimal02 seconds)
  if 0 < days then
    let m := snprintf m buffer size (decimal days ++ " days, ".toList)
    (distanceTo '\x00' m.cells buffer size.toNat).map fun length =>
      snprintf m (buffer + length) (size - size) time
  else some (snprintf m buffer size time)

/-! ## What it is for -/

/-- A number of two digits. -/
def twoDigits (n : ℕ) : CString := if n < 10 then '0' :: Nat.toDigits 10 n else Nat.toDigits 10 n

/-- The days, unless there are none. -/
def daysText (days : ℕ) : CString := if days = 0 then [] else Nat.toDigits 10 days ++ " days, ".toList

/-- The time of a day. -/
def clockText (hours minutes seconds : ℕ) : CString :=
  twoDigits hours ++ ':' :: (twoDigits minutes ++ ':' :: twoDigits seconds)

/-- The text stands for so many seconds. -/
def Reads (text : CString) (n : ℕ) : Prop :=
  ∃ days hours minutes seconds, hours < 24 ∧ minutes < 60 ∧ seconds < 60 ∧
    ((days * 24 + hours) * 60 + minutes) * 60 + seconds = n ∧
    text = daysText days ++ clockText hours minutes seconds

/-- The whole seconds of a time. -/
def wholeSeconds (t : Int64) : ℕ := t.toInt.toNat / 1000000

/-- The buffer is large enough for the text. -/
def Enough (t : Int64) (size : UInt32) : Prop :=
  ∀ text, Reads text (wholeSeconds t) → text.length < size.toNat

/-- The string in the buffer after the call. -/
def humanText (t : Int64) (m : Tracked Char) (buffer : ℕ) (size : UInt32) : Option CString :=
  (gmTimerToHuman t m buffer size).bind fun m =>
    (distanceTo '\x00' m.cells buffer size.toNat).map (cellsFrom m.cells buffer)

/-- **The text stands for the time**, in every buffer that is large enough, and no other time has the
same. -/
structure Humane (t : Int64) : Prop where
  reads : ∀ m buffer size, Enough t size →
    ∃ text, humanText t m buffer size = some text ∧ Reads text (wholeSeconds t)
  distinct : ∀ u, 0 ≤ u → wholeSeconds u ≠ wholeSeconds t → ∀ m buffer size, Enough t size →
    Enough u size → humanText u m buffer size ≠ humanText t m buffer size

/-! ## Texts -/

section Texts

variable {n m days hours minutes seconds : ℕ} {c : Char} {text : CString}

theorem isDigit_of_mem_twoDigits (h : c ∈ twoDigits n) : c.isDigit = true := by
  have hdigits : ∀ d ∈ Nat.toDigits 10 n, d.isDigit = true := fun d hd =>
    Nat.isDigit_of_mem_toDigits (by decide) (by decide) hd
  unfold twoDigits at h
  split_ifs at h
  · obtain rfl | h := List.mem_cons.mp h
    · rfl
    · exact hdigits c h
  · exact hdigits c h

theorem twoDigits_injective (h : twoDigits n = twoDigits m) : n = m := by
  have hvalue : ∀ k, Nat.ofDigitChars 10 (twoDigits k) 0 = k := fun k => by
    unfold twoDigits
    split_ifs
    · exact Nat.ofDigitChars_ten_toDigits
    · exact Nat.ofDigitChars_ten_toDigits
  rw [← hvalue n, h, hvalue]

theorem colon_notMem_twoDigits (n : ℕ) : ':' ∉ twoDigits n := fun h =>
  absurd (isDigit_of_mem_twoDigits h) (by decide)

/-- A time has no space in it, and no null. -/
theorem mem_clockText (h : c ∈ clockText hours minutes seconds) : c.isDigit = true ∨ c = ':' := by
  simp only [clockText, List.mem_append, List.mem_cons] at h
  obtain h | h | h | h | h := h
  exacts [.inl (isDigit_of_mem_twoDigits h), .inr h, .inl (isDigit_of_mem_twoDigits h), .inr h,
    .inl (isDigit_of_mem_twoDigits h)]

theorem colon_mem_clockText : ':' ∈ clockText hours minutes seconds :=
  List.mem_append_right _ List.mem_cons_self

/-- The days have no colon, and no null. -/
theorem mem_daysText (h : c ∈ daysText days) : c.isDigit = true ∨ c ∈ " days, ".toList := by
  unfold daysText at h
  split_ifs at h
  · exact absurd h List.not_mem_nil
  · exact (List.mem_append.mp h).imp_left (Nat.isDigit_of_mem_toDigits (by decide) (by decide))

theorem colon_notMem_daysText (days : ℕ) : ':' ∉ daysText days := fun h =>
  (mem_daysText h).elim (by decide) (by decide)

theorem null_notMem_daysText (days : ℕ) : '\x00' ∉ daysText days := fun h =>
  (mem_daysText h).elim (by decide) (by decide)

theorem null_notMem_clockText : '\x00' ∉ clockText hours minutes seconds := fun h =>
  (mem_clockText h).elim (by decide) (by decide)

/-- Times are told apart. -/
theorem clockText_injective {hours' minutes' seconds' : ℕ}
    (h : clockText hours minutes seconds = clockText hours' minutes' seconds') :
    hours = hours' ∧ minutes = minutes' ∧ seconds = seconds' := by
  have hcut : ∀ (n : ℕ) (rest : CString),
      (twoDigits n ++ ':' :: rest).takeWhile (· ≠ ':') = twoDigits n :=
    fun n rest => takeWhile_ne_cons (colon_notMem_twoDigits n) rest
  have hhours := congrArg (List.takeWhile (· ≠ ':')) h
  rw [clockText, clockText, hcut, hcut] at hhours
  obtain rfl := twoDigits_injective hhours
  have hrest := (List.cons.inj (List.append_cancel_left h)).2
  have hminutes := congrArg (List.takeWhile (· ≠ ':')) hrest
  rw [hcut, hcut] at hminutes
  obtain rfl := twoDigits_injective hminutes
  exact ⟨rfl, rfl, twoDigits_injective (List.cons.inj (List.append_cancel_left hrest)).2⟩

/-- The text of a number of seconds. -/
theorem reads_text (n : ℕ) :
    Reads (daysText (n / 86400) ++ clockText (n / 3600 % 24) (n / 60 % 60) (n % 60)) n :=
  ⟨n / 86400, n / 3600 % 24, n / 60 % 60, n % 60, Nat.mod_lt _ (by decide), Nat.mod_lt _ (by decide),
    Nat.mod_lt _ (by decide), by omega, rfl⟩

theorem colon_mem_of_reads (h : Reads text n) : ':' ∈ text := by
  obtain ⟨days, hours, minutes, seconds, -, -, -, -, rfl⟩ := h
  exact List.mem_append_right _ colon_mem_clockText

end Texts

/-! ## Numbers -/

section Numbers

variable {a b t : Int64} {n : Int32} {k : ℕ}

theorem decimal_eq (h : n.toInt = k) : decimal n = Nat.toDigits 10 k := by
  rw [decimal, h]
  exact Nat.toList_repr

theorem decimal02_eq (h : n.toInt = k) : decimal02 n = twoDigits k := by
  have hten : (0 ≤ n ∧ n < 10) ↔ k < 10 := by
    rw [Int32.le_iff_toInt_le, Int32.lt_iff_toInt_lt, h]
    have hzero : (0 : Int32).toInt = 0 := rfl
    have hten : (10 : Int32).toInt = 10 := rfl
    omega
  rw [decimal02, twoDigits, decimal_eq h]
  by_cases hk : k < 10
  · rw [if_pos (hten.mpr hk), if_pos hk]
  · rw [if_neg (hten.not.mpr hk), if_neg hk]

/-- A quotient that an `int` can hold. -/
theorem toInt_quotient (ha : 0 ≤ a.toInt) (hb : 1 < b.toInt) (hsmall : a.toInt / b.toInt < 2147483648) :
    (a / b).toInt32.toInt = a.toInt / b.toInt := by
  have hne : b ≠ -1 := by
    rintro rfl
    exact absurd hb (by decide)
  have hnonneg : 0 ≤ a.toInt / b.toInt := Int.ediv_nonneg ha (by omega)
  rw [Int64.toInt_toInt32, Int64.toInt_div_of_ne_right a b hne, Int.tdiv_eq_ediv_of_nonneg ha]
  exact Int.bmod_eq_of_le (by omega) (by omega)

theorem toInt_remainder (ha : 0 ≤ a.toInt) : (a % b).toInt = a.toInt % b.toInt := by
  rw [Int64.toInt_mod, Int.tmod_eq_emod_of_nonneg ha]

/-- The numbers that are printed. -/
theorem toInt_parts (ht : 0 ≤ t) :
    (t / day).toInt32.toInt = (wholeSeconds t / 86400 : ℕ) ∧
    (t % day / hour).toInt32.toInt = (wholeSeconds t / 3600 % 24 : ℕ) ∧
    (t % hour / minute).toInt32.toInt = (wholeSeconds t / 60 % 60 : ℕ) ∧
    (t % minute / second).toInt32.toInt = (wholeSeconds t % 60 : ℕ) := by
  have hsecond : second.toInt = 1000000 := rfl
  have hminute : minute.toInt = 60000000 := rfl
  have hhour : hour.toInt = 3600000000 := rfl
  have hday : day.toInt = 86400000000 := rfl
  have hnonneg : 0 ≤ t.toInt := Int64.le_iff_toInt_le.mp ht
  have hbound := Int64.toInt_lt t
  have hrest : ∀ b : Int64, 0 < b.toInt → 0 ≤ (t % b).toInt := fun b hb => by
    rw [toInt_remainder hnonneg]
    exact Int.emod_nonneg _ (Int.ne_of_gt hb)
  have hseconds : (wholeSeconds t : ℤ) = t.toInt / 1000000 := by
    rw [wholeSeconds]
    omega
  refine ⟨?_, ?_, ?_, ?_⟩
  · rw [toInt_quotient hnonneg (by decide) (by rw [hday]; omega), hday]
    omega
  · rw [toInt_quotient (hrest day (by decide)) (by decide)
        (by rw [toInt_remainder hnonneg, hday, hhour]; omega),
      toInt_remainder hnonneg, hday, hhour]
    omega
  · rw [toInt_quotient (hrest hour (by decide)) (by decide)
        (by rw [toInt_remainder hnonneg, hhour, hminute]; omega),
      toInt_remainder hnonneg, hhour, hminute]
    omega
  · rw [toInt_quotient (hrest minute (by decide)) (by decide)
        (by rw [toInt_remainder hnonneg, hminute, hsecond]; omega),
      toInt_remainder hnonneg, hminute, hsecond]
    omega

end Numbers

/-! ## What is written -/

section Written

variable {t : Int64} {m : Tracked Char} {buffer : ℕ} {size : UInt32} {text : CString}

/-- A text that fits is written whole, with its null. -/
theorem holdsAt_snprintf (m : Tracked Char) (buffer : ℕ) (h : text.length < size.toNat) :
    HoldsAt (snprintf m buffer size text).cells buffer (text ++ ['\x00']) := by
  have hsize : size ≠ 0 := by
    rintro rfl
    exact Nat.not_lt_zero _ h
  rw [snprintf, if_neg hsize, List.take_of_length_le (by omega)]
  exact m.holdsAt_write buffer _

/-- **What is in a buffer that is large enough**: the time in the first day, and then the days. -/
theorem humanText_eq (ht : 0 ≤ t) (hsize : Enough t size) (m : Tracked Char) (buffer : ℕ) :
    humanText t m buffer size = some (if wholeSeconds t / 86400 = 0 then
      clockText (wholeSeconds t / 3600 % 24) (wholeSeconds t / 60 % 60) (wholeSeconds t % 60)
      else daysText (wholeSeconds t / 86400)) := by
  obtain ⟨hdays, hhours, hminutes, hseconds⟩ := toInt_parts ht
  have hlength := hsize _ (reads_text (wholeSeconds t))
  rw [List.length_append] at hlength
  have hdaysFit := Nat.lt_of_le_of_lt (Nat.le_add_right _ _) hlength
  have hclockFits := Nat.lt_of_le_of_lt (Nat.le_add_left _ _) hlength
  have hread : ∀ (m : Tracked Char) (text : CString), '\x00' ∉ text → text.length < size.toNat →
      HoldsAt m.cells buffer (text ++ ['\x00']) →
      distanceTo '\x00' m.cells buffer size.toNat = some text.length ∧
        cellsFrom m.cells buffer text.length = text := fun m text hplain hfits hholds =>
    ⟨hholds.distanceTo_eq hplain hfits, (holdsAt_append.mp hholds).1.cellsFrom_eq⟩
  have hpositive : 0 < (t / day).toInt32 ↔ wholeSeconds t / 86400 ≠ 0 := by
    rw [Int32.lt_iff_toInt_lt, hdays]
    have hzero : (0 : Int32).toInt = 0 := rfl
    omega
  unfold humanText gmTimerToHuman
  dsimp only
  rw [decimal_eq hdays, decimal02_eq hhours, decimal02_eq hminutes, decimal02_eq hseconds]
  by_cases hzero : wholeSeconds t / 86400 = 0
  · rw [if_neg (hpositive.not.mpr (not_not.mpr hzero)), if_pos hzero, Option.bind_some]
    obtain ⟨hend, htext⟩ := hread _ _ null_notMem_clockText hclockFits
      (holdsAt_snprintf m buffer hclockFits)
    rw [← clockText, hend, Option.map_some, htext]
  · rw [if_pos (hpositive.mpr hzero), if_neg hzero]
    have hdaysText : Nat.toDigits 10 (wholeSeconds t / 86400) ++ " days, ".toList
        = daysText (wholeSeconds t / 86400) := (if_neg hzero).symm
    obtain ⟨hend, htext⟩ := hread _ _ (null_notMem_daysText _) hdaysFit
      (holdsAt_snprintf m buffer hdaysFit)
    rw [hdaysText, hend, Option.map_some, Option.bind_some, UInt32.sub_self, snprintf, if_pos rfl, hend,
      Option.map_some, htext]

/-- Sixty-four bytes, as the callers have, are enough. -/
theorem enough_sixtyFour (t : Int64) : Enough t 64 := by
  rintro text ⟨days, hours, minutes, seconds, hhours, hminutes, hseconds, hsum, rfl⟩
  have htwo : ∀ n < 100, (twoDigits n).length ≤ 2 := fun n hn => by
    unfold twoDigits
    split_ifs with hten
    · rw [Nat.toDigits_of_lt_base hten]
      rfl
    · exact (Nat.length_toDigits_le_iff (by decide) (by decide)).mpr hn
  have hbound := Int64.toInt_lt t
  have hdays : days < 10 ^ 9 := by
    rw [wholeSeconds] at hsum
    omega
  have hdaysText : (daysText days).length ≤ 9 + 7 := by
    unfold daysText
    split_ifs
    · exact Nat.zero_le _
    · rw [List.length_append]
      exact Nat.add_le_add ((Nat.length_toDigits_le_iff (by decide) (by decide)).mpr hdays) (by decide)
  have hsixtyFour : (64 : UInt32).toNat = 64 := rfl
  have hhoursText := htwo hours (by omega)
  have hminutesText := htwo minutes (by omega)
  have hsecondsText := htwo seconds (by omega)
  simp only [clockText, List.length_append, List.length_cons, hsixtyFour]
  omega

/-- Later there is no time in the text. -/
theorem not_humane (ht : 0 ≤ t) (hdays : wholeSeconds t / 86400 ≠ 0) : ¬ Humane t := by
  intro h
  obtain ⟨text, htext, hreads⟩ := h.reads (.untouched fun _ => ' ') 0 64 (enough_sixtyFour t)
  rw [humanText_eq ht (enough_sixtyFour t), if_neg hdays] at htext
  exact colon_notMem_daysText _ (Option.some.inj htext ▸ colon_mem_of_reads hreads)

theorem lt_day_iff (ht : 0 ≤ t) : t < day ↔ wholeSeconds t / 86400 = 0 := by
  have hday : day.toInt = 86400000000 := rfl
  have hnonneg : 0 ≤ t.toInt := Int64.le_iff_toInt_le.mp ht
  rw [Int64.lt_iff_toInt_lt, hday, wholeSeconds]
  omega

end Written

/-- **A time is told exactly in the first day.** -/
theorem humane_iff (t : Int64) (ht : 0 ≤ t) : Humane t ↔ t < day := by
  rw [lt_day_iff ht]
  constructor
  · exact fun h => not_not.mp fun hdays => not_humane ht hdays h
  · intro hdays
    refine ⟨fun m buffer size hsize => ?_, fun u hu hne m buffer size hsize husize hsame => ?_⟩
    · refine ⟨_, (humanText_eq ht hsize m buffer).trans (congrArg some (if_pos hdays)), ?_⟩
      have hreads := reads_text (wholeSeconds t)
      rw [hdays] at hreads
      exact hreads
    · rw [humanText_eq hu husize, humanText_eq ht hsize, if_pos hdays] at hsame
      split_ifs at hsame with hfirst
      · obtain ⟨hhours, hminutes, hseconds⟩ := clockText_injective (Option.some.inj hsame)
        omega
      · exact colon_notMem_daysText _ (Option.some.inj hsame ▸ colon_mem_clockText)

/-- After an hour, a minute and a second. -/
theorem humane_hour : Humane 3661000000 := (humane_iff 3661000000 (by decide)).mpr (by decide)

/-- **After a day and a second the text is that of a day.** -/
theorem not_humane_day : humanText 86401000000 (.untouched fun _ => ' ') 0 64 = some "1 days, ".toList ∧
    ¬ Humane 86401000000 := by
  have hday : (0 : Int64) ≤ 86401000000 := by decide
  refine ⟨?_, not_humane hday (by decide)⟩
  rw [humanText_eq hday (enough_sixtyFour _)]
  decide

end Support
