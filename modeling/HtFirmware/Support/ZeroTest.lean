import HtFirmware.Support.AllZeroes

/-!
# Support/ZeroTest — where the zero test is right

`gm_all_zeroes` hands an address and a size from its leading bytes to its loops, and neither always fits
the bytes that are left: after a leading halfword the loops start a byte early, and the word loop never
ends at a size that is no multiple of four.  So the bytes it examines (`seen`) may leave out the last one
of the object, and it answers that they are zero only if the size it gives its loops ends them (`Ends`).

The object is all of the memory here: `none` is a read outside it.
-/

open Machinery

namespace Support

/-! ## The loops -/

/-- The loops end at their size. -/
def Ends (size : ℕ) : Prop := size < 4 ∨ 4 ∣ size

instance (size : ℕ) : Decidable (Ends size) := inferInstanceAs (Decidable (_ ∨ _))

/-- How many bytes the loops examine, of so many, unless one of them is non-zero. -/
def covered (size length : ℕ) : ℕ := if Ends size then size else 4 * (length / 4)

/-- What comes of bytes that are zero or not. -/
def verdict (ends : Prop) [Decidable ends] (bytes : List UInt8) : Option Bool :=
  if bytes.all (· == 0) then (if ends then some true else none) else some false

section Loops

variable {size : UInt32} {memory : List UInt8} {a b : UInt8}

theorem verdict_cons (ends : Prop) [Decidable ends] (a : UInt8) (bytes : List UInt8) :
    verdict ends (a :: bytes) = if a = 0 then verdict ends bytes else some false := by
  by_cases ha : a = 0
  · have hzero : (a == 0) = true := beq_iff_eq.mpr ha
    rw [if_pos ha]
    simp only [verdict, List.all_cons, hzero, Bool.true_and]
  · have hne : (a == 0) = false := beq_false_of_ne ha
    rw [if_neg ha]
    simp only [verdict, List.all_cons, hne, Bool.false_and, Bool.false_eq_true, if_false]

theorem verdict_of_zero {ends : Prop} [Decidable ends] {bytes : List UInt8}
    (h : ∀ b ∈ bytes, b = 0) : verdict ends bytes = if ends then some true else none :=
  if_pos (List.all_eq_true.mpr fun b hb => beq_iff_eq.mpr (h b hb))

theorem verdict_of_ne {ends : Prop} [Decidable ends] {bytes : List UInt8}
    (h : ¬ ∀ b ∈ bytes, b = 0) : verdict ends bytes = some false :=
  if_neg fun hall => h fun b hb => beq_iff_eq.mp (List.all_eq_true.mp hall b hb)

theorem toNat_pos (hsize : size ≠ 0) : 0 < size.toNat :=
  Nat.pos_of_ne_zero fun h => hsize (UInt32.toNat_inj.mp h)

theorem length_lt_four (hshort : ∀ (a b c d : UInt8) (rest : List UInt8),
    memory = a :: b :: c :: d :: rest → False) : memory.length < 4 := by
  by_contra hlong
  obtain ⟨a, rest, rfl⟩ := List.exists_cons_of_length_pos (l := memory) (by omega)
  obtain ⟨b, rest, rfl⟩ := List.exists_cons_of_length_pos (l := rest) (by simp at hlong; omega)
  obtain ⟨c, rest, rfl⟩ := List.exists_cons_of_length_pos (l := rest) (by simp at hlong; omega)
  obtain ⟨d, rest, rfl⟩ := List.exists_cons_of_length_pos (l := rest) (by simp at hlong; omega)
  exact hshort a b c d rest rfl

theorem byteLoop_eq (hfit : size.toNat ≤ memory.length) :
    byteLoop size memory = verdict True (memory.take size.toNat) := by
  induction memory generalizing size with
  | nil =>
    have hzero : size = 0 := UInt32.toNat_inj.mp (Nat.le_zero.mp hfit)
    rw [byteLoop, if_pos hzero, hzero]
    rfl
  | cons a memory ih =>
    rw [byteLoop]
    by_cases hzero : size = 0
    · rw [if_pos hzero, hzero]
      rfl
    · have hpos := toNat_pos hzero
      have hnext : (size - 1).toNat = size.toNat - 1 :=
        UInt32.toNat_sub_of_le _ _ (UInt32.le_iff_toNat_le.mpr hpos)
      have htake : (a :: memory).take size.toNat = a :: memory.take (size - 1).toNat := by
        rw [hnext, ← List.take_succ_cons, Nat.sub_add_cancel hpos]
      rw [if_neg hzero, htake, verdict_cons,
        ih (by rw [hnext]; exact Nat.sub_le_of_le_add hfit)]

/-- The word loop ends at a multiple of four. -/
theorem wordLoop_of_dvd (hsize : 4 ∣ size.toNat) (hfit : size.toNat ≤ memory.length) :
    wordLoop size memory = verdict True (memory.take size.toNat) := by
  fun_induction wordLoop size memory with
  | case1 => rfl
  | case2 size hzero a b c d memory hzeroes ih =>
    have hfour := Nat.le_of_dvd (toNat_pos hzero) hsize
    have hnext : (size - 4).toNat = size.toNat - 4 :=
      UInt32.toNat_sub_of_le _ _ (UInt32.le_iff_toNat_le.mpr hfour)
    obtain ⟨rfl, rfl, rfl, rfl⟩ := hzeroes
    obtain ⟨n, hn⟩ := Nat.exists_eq_add_of_le' hfour
    rw [ih (by omega) (by simp at hfit; omega), hnext, hn, Nat.add_sub_cancel]
    simp only [List.take_succ_cons, verdict_cons, if_true]
  | case3 size hzero a b c d memory hzeroes =>
    have hfour := Nat.le_of_dvd (toNat_pos hzero) hsize
    obtain ⟨n, hn⟩ := Nat.exists_eq_add_of_le' hfour
    rw [hn]
    simp only [List.take_succ_cons, verdict_cons]
    split_ifs <;> simp_all
  | case4 memory size hzero hshort =>
    have hfour := Nat.le_of_dvd (toNat_pos hzero) hsize
    have hlength := length_lt_four hshort
    omega

/-- Elsewhere it goes on to the end of the memory, where it reads past it. -/
theorem wordLoop_of_not_dvd (hsize : ¬ 4 ∣ size.toNat) :
    wordLoop size memory = verdict False (memory.take (4 * (memory.length / 4))) := by
  fun_induction wordLoop size memory with
  | case1 => exact absurd (dvd_zero 4) hsize
  | case2 size hzero a b c d memory hzeroes ih =>
    have hnext : ¬ 4 ∣ (size - 4).toNat := by
      rw [UInt32.toNat_sub]
      have hfour : (4 : UInt32).toNat = 4 := rfl
      omega
    obtain ⟨rfl, rfl, rfl, rfl⟩ := hzeroes
    have hlength : 4 * (((0 : UInt8) :: 0 :: 0 :: 0 :: memory).length / 4)
        = 4 * (memory.length / 4) + 4 := by simp only [List.length_cons]; omega
    rw [ih hnext, hlength]
    simp only [List.take_succ_cons, verdict_cons, if_true]
  | case3 size hzero a b c d memory hzeroes =>
    have hlength : 4 * ((a :: b :: c :: d :: memory).length / 4)
        = 4 * (memory.length / 4) + 4 := by simp only [List.length_cons]; omega
    rw [hlength]
    simp only [List.take_succ_cons, verdict_cons]
    split_ifs <;> simp_all
  | case4 memory size hzero hshort =>
    have hlength : 4 * (memory.length / 4) = 0 := by
      have hlength := length_lt_four hshort
      omega
    rw [hlength]
    rfl

/-- The loops, over so many bytes or more. -/
theorem alignedLoops_eq (hfit : size.toNat ≤ memory.length) :
    alignedLoops size memory
      = verdict (Ends size.toNat) (memory.take (covered size.toNat memory.length)) := by
  have hfour : (4 ≤ size) ↔ 4 ≤ size.toNat := UInt32.le_iff_toNat_le
  unfold alignedLoops covered
  by_cases hends : Ends size.toNat
  · have htrue : verdict (Ends size.toNat) (memory.take size.toNat)
        = verdict True (memory.take size.toNat) := by simp only [verdict, hends, if_true]
    rw [if_pos hends, htrue]
    split_ifs with hsize
    · exact wordLoop_of_dvd (hends.resolve_left (Nat.not_lt.mpr (hfour.mp hsize))) hfit
    · exact byteLoop_eq hfit
  · obtain ⟨hlong, hdvd⟩ := not_or.mp hends
    rw [if_neg hends, if_pos (hfour.mpr (Nat.not_lt.mp hlong)), wordLoop_of_not_dvd hdvd]
    simp only [verdict, hends, if_false]

/-- The first byte is examined. -/
theorem covered_pos {size length : ℕ} (hsize : 0 < size) (hfit : size ≤ length) :
    0 < covered size length := by
  unfold covered
  split_ifs with hends
  · exact hsize
  · have hlong := Nat.not_lt.mp (not_or.mp hends).1
    omega

/-- The second byte of a leading halfword is examined again. -/
theorem leadingHalfword_cons (hsize : 0 < (size - 2).toNat)
    (hfit : (size - 2).toNat ≤ memory.length + 1) :
    leadingHalfword size (a :: b :: memory) alignedLoops
      = verdict (Ends (size - 2).toNat)
          (a :: (b :: memory).take (covered (size - 2).toNat (memory.length + 1))) := by
  have hloops : alignedLoops (size - 2) (b :: memory)
      = verdict (Ends (size - 2).toNat)
          ((b :: memory).take (covered (size - 2).toNat (b :: memory).length)) :=
    alignedLoops_eq hfit
  obtain ⟨n, hn⟩ := Nat.exists_eq_add_of_lt (covered_pos hsize hfit)
  rw [List.length_cons, hn, List.take_succ_cons] at hloops
  rw [hn, List.take_succ_cons]
  rw [verdict_cons] at hloops ⊢
  rw [verdict_cons]
  show (if a = 0 ∧ b = 0 then alignedLoops (size - 2) (b :: memory) else some false) = _
  rw [hloops]
  by_cases ha : a = 0
  · by_cases hb : b = 0
    · rw [if_pos ⟨ha, hb⟩, if_pos ha]
    · rw [if_neg fun h => hb h.2, if_pos ha, if_neg hb]
  · rw [if_neg fun h => ha h.1, if_neg ha]

end Loops

/-! ## The whole test -/

/-- How far the leading bytes take the address, and the size they leave. -/
def start (alignment : Fin 4) (size : ℕ) : ℕ × ℕ :=
  if 4 < size then
    match alignment with
    | 0 => (0, size)
    | 1 => (2, size - 3)
    | 2 => (1, size - 2)
    | 3 => (1, size - 1)
  else (0, size)

/-- How many of so many bytes are examined, unless one of them is non-zero. -/
def seen (alignment : Fin 4) (size length : ℕ) : ℕ :=
  (start alignment size).1 + covered (start alignment size).2 (length - (start alignment size).1)

section Test

variable {alignment : Fin 4} {size : UInt32} {memory : List UInt8}

/-- **What the test makes of an object**, with the memory after it. -/
theorem gmAllZeroes_eq (alignment : Fin 4) (hfit : size.toNat ≤ memory.length) :
    gmAllZeroes alignment memory size = verdict (Ends (start alignment size.toNat).2)
      (memory.take (seen alignment size.toNat memory.length)) := by
  have hfour : (4 < size) ↔ 4 < size.toNat := UInt32.lt_iff_toNat_lt
  have hloops : alignedLoops size memory = verdict (Ends size.toNat)
      (memory.take (0 + covered size.toNat (memory.length - 0))) := by
    rw [alignedLoops_eq hfit, Nat.zero_add, Nat.sub_zero]
  unfold gmAllZeroes seen start
  by_cases hsize : 4 < size.toNat
  · obtain ⟨a, memory, rfl⟩ := List.exists_cons_of_length_pos (l := memory) (by omega)
    obtain ⟨b, memory, rfl⟩ := List.exists_cons_of_length_pos (l := memory) (by simp at hfit; omega)
    obtain ⟨c, memory, rfl⟩ := List.exists_cons_of_length_pos (l := memory) (by simp at hfit; omega)
    have hsub : ∀ {m n : UInt32}, n.toNat ≤ m.toNat → (m - n).toNat = m.toNat - n.toNat :=
      fun hle => UInt32.toNat_sub_of_le _ _ (UInt32.le_iff_toNat_le.mpr hle)
    have hone : (size - 1).toNat = size.toNat - 1 := hsub (Nat.one_le_of_lt hsize)
    have htwo : (size - 2).toNat = size.toNat - 2 := hsub (show 2 ≤ size.toNat by omega)
    have hthree : (size - 1 - 2).toNat = size.toNat - 1 - 2 := by
      rw [hsub (hone ▸ (by omega : 2 ≤ size.toNat - 1)), hone]
      rfl
    rw [if_pos (hfour.mpr hsize)]
    simp only [if_pos hsize]
    simp only [List.length_cons] at hfit ⊢
    fin_cases alignment
    · exact hloops
    · show (if a = 0 then leadingHalfword (size - 1) (b :: c :: memory) alignedLoops else some false)
        = _
      rw [leadingHalfword_cons (by omega) (by omega), ← verdict_cons, hthree]
      dsimp only
      rw [Nat.add_comm 2, List.take_succ_cons, List.take_succ_cons]
      rfl
    · show leadingHalfword size (a :: b :: c :: memory) alignedLoops = _
      rw [leadingHalfword_cons (by omega) (by simp only [List.length_cons]; omega), htwo]
      dsimp only
      rw [Nat.add_comm 1, List.take_succ_cons]
      rfl
    · show (if a = 0 then alignedLoops (size - 1) (b :: c :: memory) else some false) = _
      rw [alignedLoops_eq (by simp only [List.length_cons]; omega), ← verdict_cons, hone]
      dsimp only
      rw [Nat.add_comm 1, List.take_succ_cons]
      rfl
  · rw [if_neg (hfour.not.mpr hsize)]
    simp only [if_neg hsize]
    exact hloops

theorem start_fits (alignment : Fin 4) (size : ℕ) :
    (start alignment size).1 + (start alignment size).2 ≤ size := by
  unfold start
  split_ifs with hsize
  · fin_cases alignment <;> dsimp only <;> omega
  · exact (Nat.zero_add _).le

theorem seen_mono (alignment : Fin 4) {size length length' : ℕ} (hfit : size ≤ length)
    (hle : length ≤ length') :
    seen alignment size length ≤ seen alignment size length' ∧
      seen alignment size length ≤ length := by
  have hstart := start_fits alignment size
  unfold seen covered
  split_ifs <;> omega

/-- The test reads the object only, and tells whether it is zero. -/
def Tells (alignment : Fin 4) (size : UInt32) (object : Bytes size.toNat) : Prop :=
  gmAllZeroes alignment (List.ofFn object) size = some (decide (∀ i, object i = 0))

/-- What follows the object makes no difference then. -/
theorem Tells.append {object : Bytes size.toNat} (h : Tells alignment size object)
    (after : List UInt8) :
    gmAllZeroes alignment (List.ofFn object ++ after) size = some (decide (∀ i, object i = 0)) := by
  have hlength : (List.ofFn object).length = size.toNat := List.length_ofFn
  have hlonger : (List.ofFn object).length ≤ (List.ofFn object ++ after).length := by
    rw [List.length_append]
    exact Nat.le_add_right _ _
  obtain ⟨hmono, hwithin⟩ := seen_mono alignment hlength.ge hlonger
  rw [Tells, gmAllZeroes_eq alignment hlength.ge] at h
  rw [gmAllZeroes_eq alignment (hlength.ge.trans hlonger), ← h]
  have htake : (List.ofFn object ++ after).take (seen alignment size.toNat (List.ofFn object).length)
      = _ := List.take_append_of_le_length hwithin
  by_cases hends : Ends (start alignment size.toNat).2
  · have hsame : seen alignment size.toNat (List.ofFn object ++ after).length
        = seen alignment size.toNat (List.ofFn object).length := by
      simp only [seen, covered, hends, if_true]
    rw [hsame, htake]
  · have hne : ¬ ∀ b ∈ (List.ofFn object).take (seen alignment size.toNat (List.ofFn object).length),
        b = 0 := fun hzero => by
      rw [verdict_of_zero hzero, if_neg hends] at h
      cases h
    have hne' : ¬ ∀ b ∈ (List.ofFn object ++ after).take
        (seen alignment size.toNat (List.ofFn object ++ after).length), b = 0 := fun hzero =>
      hne fun b hb => hzero b ((List.take_subset_take_left _ hmono) (htake ▸ hb))
    rw [verdict_of_ne hne, verdict_of_ne hne']

/-- **The test reads the object only, and tells whether it is zero, exactly when a byte it examines is
non-zero, or its loops end and the object is zero.** -/
theorem tells_iff (alignment : Fin 4) (size : UInt32) (object : Bytes size.toNat) :
    Tells alignment size object ↔
      (∃ i : Fin size.toNat, i < seen alignment size.toNat size.toNat ∧ object i ≠ 0) ∨
      Ends (start alignment size.toNat).2 ∧ ∀ i, object i = 0 := by
  have hlength : (List.ofFn object).length = size.toNat := List.length_ofFn
  have hzero : (∀ b ∈ (List.ofFn object).take (seen alignment size.toNat size.toNat), b = 0) ↔
      ∀ i : Fin size.toNat, i < seen alignment size.toNat size.toNat → object i = 0 := by
    simp only [List.mem_take_iff_getElem, List.getElem_ofFn, hlength, lt_min_iff]
    constructor
    · exact fun h i hi => h _ ⟨i, ⟨hi, i.isLt⟩, rfl⟩
    · rintro h b ⟨i, ⟨hi, hsize⟩, rfl⟩
      exact h ⟨i, hsize⟩ hi
  rw [Tells, gmAllZeroes_eq alignment hlength.ge, hlength]
  by_cases hseen : ∀ i : Fin size.toNat, i < seen alignment size.toNat size.toNat → object i = 0
  · have hnone : ¬ ∃ i : Fin size.toNat, i < seen alignment size.toNat size.toNat ∧ object i ≠ 0 :=
      fun ⟨i, hi, hne⟩ => hne (hseen i hi)
    rw [verdict_of_zero (hzero.mpr hseen), or_iff_right hnone]
    by_cases hends : Ends (start alignment size.toNat).2
    · simp [hends]
    · simp [hends]
  · have hsome : ∃ i : Fin size.toNat, i < seen alignment size.toNat size.toNat ∧ object i ≠ 0 := by
      simpa only [not_forall, exists_prop] using hseen
    have hall : ¬ ∀ i, object i = 0 := fun h => hseen fun i _ => h i
    rw [verdict_of_ne (hzero.not.mpr hseen), decide_eq_false hall]
    exact iff_of_true rfl (.inl hsome)

/-- Five zero bytes at a word boundary: the word loop goes past them.  Of six bytes two before one, the
last is left out. -/
theorem not_tells_five : ¬ Tells 0 5 (fun _ => 0) ∧
    ¬ Tells 2 6 (fun i => if (i : ℕ) = 5 then 1 else 0) := by
  unfold Tells
  decide

end Test

end Support
