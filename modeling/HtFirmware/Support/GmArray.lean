import Mathlib.Data.List.Induction

/-!
# Support/GmArray — an array that grows by twenty

    | x₀ x₁ ⋯ xₙ₋₁ | not written |
                   used          size

A block of pointers has room for `size` of them, and the first `used` have been written.  The bound that
`gm_array_get` compares an index with is `used - 1`, which is the largest `size_t` in an empty array: no
index is out of its bounds.  And what a block takes is counted in a `size_t` of 32 bits, which is too
few for more than 1073741820 pointers of four bytes.  In between the array is the list of what was added
(`lists_iff`).
-/

namespace Support

variable {α : Type*}

/-! ## The functions -/

/-- `increment_size`. -/
def incrementSize : UInt32 := 20

/-- The size of a pointer. -/
def pointerSize : UInt32 := 4

/-- `struct _GM_Array`; a pointer of the block is `none` until it is written. -/
structure GmArray (α : Type*) where
  data : List (Option α)
  used : UInt32
  size : UInt32

/-- `malloc`, for so many bytes. -/
def malloc (bytes : UInt32) : List (Option α) := List.replicate (bytes.toNat / pointerSize.toNat) none

/-- `realloc`: what is in the block stays, as far as there is room for it. -/
def realloc (data : List (Option α)) (bytes : UInt32) : List (Option α) :=
  data.take (bytes.toNat / pointerSize.toNat) ++
    List.replicate (bytes.toNat / pointerSize.toNat - data.length) none

/-- `gm_array_create`. -/
def gmArrayCreate : GmArray α := ⟨malloc (pointerSize * incrementSize), 0, incrementSize⟩

/-- The block, with room for one more. -/
def GmArray.grown (a : GmArray α) : GmArray α :=
  if a.used = a.size then
    { a with
      data := realloc a.data (pointerSize * (a.size + incrementSize))
      size := a.size + incrementSize }
  else a

/-- `gm_array_add`, `none` for a write outside the block. -/
def gmArrayAdd (a : GmArray α) (x : α) : Option (GmArray α) :=
  if a.grown.used.toNat < a.grown.data.length then
    some { a.grown with
      data := a.grown.data.set a.grown.used.toNat (some x)
      used := a.grown.used + 1 }
  else none

/-- `gm_array_data`. -/
def gmArrayData (a : GmArray α) : List (Option α) := a.data

/-- `gm_array_size`. -/
def gmArraySize (a : GmArray α) : UInt32 := a.used

/-- What becomes of a call without a result: `abort`, a pointer that was not written, or a read outside
the block. -/
inductive GetFault where
  | aborts
  | indeterminate
  | outside

/-- `gm_array_get`. -/
def gmArrayGet (a : GmArray α) (index : UInt32) : Except GetFault α :=
  if a.used - 1 < index then .error .aborts
  else
    match a.data[index.toNat]? with
    | none => .error .outside
    | some none => .error .indeterminate
    | some (some x) => .ok x

/-! ## Lists -/

/-- **The array is the list of what was added to it.** -/
structure Lists (xs : List α) (a : GmArray α) : Prop where
  size : (gmArraySize a).toNat = xs.length
  get : ∀ i (hi : i < xs.length), gmArrayGet a (.ofNat i) = .ok xs[i]
  aborts : ∀ index, xs.length ≤ index.toNat → gmArrayGet a index = .error .aborts
  data : ∀ i (hi : i < xs.length), (gmArrayData a)[i]? = some (some xs[i])

/-- The most pointers that a block can have, counted in bytes by a `size_t`. -/
def maximumUsed : ℕ := 1073741820

/-- **What an array has in every run**: room for a multiple of twenty, and what was added in the first of
it. -/
structure Holding (xs : List α) (a : GmArray α) : Prop where
  used : a.used.toNat = xs.length
  fits : xs.length ≤ a.size.toNat
  steps : 20 ∣ a.size.toNat
  small : a.size.toNat ≤ maximumUsed
  block : a.data.length = a.size.toNat
  data : ∀ i (hi : i < xs.length), a.data[i]? = some (some xs[i])

section Holding

variable {xs : List α} {a b : GmArray α} {x : α}

theorem holding_create : Holding ([] : List α) gmArrayCreate where
  used := rfl
  fits := Nat.zero_le _
  steps := ⟨1, rfl⟩
  small := show 20 ≤ 1073741820 by decide
  block := List.length_replicate
  data _ hi := absurd hi (Nat.not_lt_zero _)

/-- A block that is counted right. -/
theorem toNat_bytes {size : UInt32} (h : size.toNat + 20 ≤ maximumUsed) :
    (size + incrementSize).toNat = size.toNat + 20 ∧
      (pointerSize * (size + incrementSize)).toNat / pointerSize.toNat = size.toNat + 20 := by
  have htwenty : incrementSize.toNat = 20 := rfl
  have hfour : pointerSize.toNat = 4 := rfl
  have hmaximum : maximumUsed = 1073741820 := rfl
  have hsum : (size + incrementSize).toNat = size.toNat + 20 := by
    rw [UInt32.toNat_add, htwenty]
    omega
  refine ⟨hsum, ?_⟩
  rw [UInt32.toNat_mul, hsum, hfour]
  omega

/-- There is room in a block that is grown. -/
theorem Holding.grown (h : Holding xs a) (hfew : xs.length < maximumUsed) :
    Holding xs a.grown ∧ xs.length < a.grown.size.toNat := by
  obtain ⟨hused, hfits, hsteps, hsmall, hblock, hdata⟩ := h
  have hmaximum : maximumUsed = 1073741820 := rfl
  by_cases hfull : a.used = a.size
  · have hsize : a.size.toNat = xs.length := hfull ▸ hused
    obtain ⟨hsum, hbytes⟩ := toNat_bytes (show a.size.toNat + 20 ≤ maximumUsed by omega)
    have hgrown : a.grown = ⟨realloc a.data (pointerSize * (a.size + incrementSize)), a.used,
        a.size + incrementSize⟩ := if_pos hfull
    rw [hgrown]
    refine ⟨⟨hused, ?_, ?_, ?_, ?_, fun i hi => ?_⟩, ?_⟩
    · rw [hsum]
      omega
    · rw [hsum]
      omega
    · rw [hsum]
      omega
    · rw [realloc, hbytes, List.length_append, List.length_take, List.length_replicate, hsum, hblock]
      omega
    · rw [realloc, hbytes, List.getElem?_append_left (by rw [List.length_take]; omega),
        List.getElem?_take_of_lt (by omega), hdata i hi]
    · rw [hsum]
      omega
  · have hgrown : a.grown = a := if_neg hfull
    rw [hgrown]
    have hne : a.used.toNat ≠ a.size.toNat := fun heq => hfull (UInt32.toNat_inj.mp heq)
    exact ⟨⟨hused, hfits, hsteps, hsmall, hblock, hdata⟩, by omega⟩

/-- **One more is added.** -/
theorem Holding.add (h : Holding xs a) (hfew : xs.length < maximumUsed) (x : α) :
    ∃ b, gmArrayAdd a x = some b ∧ Holding (xs ++ [x]) b := by
  obtain ⟨⟨hused, hfits, hsteps, hsmall, hblock, hdata⟩, hroom⟩ := h.grown hfew
  have hmaximum : maximumUsed = 1073741820 := rfl
  have hone : (1 : UInt32).toNat = 1 := rfl
  have hnext : (a.grown.used + 1).toNat = xs.length + 1 := by
    rw [UInt32.toNat_add, hused, hone]
    omega
  refine ⟨_, if_pos (by rw [hused, hblock]; exact hroom), ⟨?_, ?_, hsteps, hsmall, ?_, fun i hi => ?_⟩⟩
  · rw [hnext, List.length_append, List.length_singleton]
  · rw [List.length_append, List.length_singleton]
    exact hroom
  · exact List.length_set.trans hblock
  · rw [List.length_append, List.length_singleton] at hi
    dsimp only
    rw [hused]
    by_cases hlast : i = xs.length
    · subst hlast
      rw [List.getElem?_set_self (by rw [hblock]; exact hroom), List.getElem_concat_length rfl]
    · have hlt : i < xs.length := by omega
      rw [List.getElem?_set_ne (Ne.symm hlast), hdata i hlt, List.getElem_append_left hlt]

/-- Where the bytes of a larger block cannot be counted, it is written outside. -/
theorem Holding.add_eq_none (h : Holding xs a) (hfull : xs.length = maximumUsed) (x : α) :
    gmArrayAdd a x = none := by
  obtain ⟨hused, hfits, hsteps, hsmall, hblock, hdata⟩ := h
  have hmaximum : maximumUsed = 1073741820 := rfl
  have hsize : a.size.toNat = maximumUsed := by omega
  have hsame : a.used = a.size := UInt32.toNat_inj.mp (by omega)
  have hgrown : a.grown = ⟨realloc a.data (pointerSize * (a.size + incrementSize)), a.used,
      a.size + incrementSize⟩ := if_pos hsame
  have hbytes : (pointerSize * (a.size + incrementSize)).toNat / pointerSize.toNat = 16 := by
    have htwenty : incrementSize.toNat = 20 := rfl
    have hfour : pointerSize.toNat = 4 := rfl
    rw [UInt32.toNat_mul, UInt32.toNat_add, hsize, htwenty, hfour, hmaximum]
  rw [gmArrayAdd, hgrown]
  refine if_neg ?_
  dsimp only
  rw [realloc, hbytes, List.length_append, List.length_take, List.length_replicate]
  omega

/-- **The run that adds them holds them**, as far as they can be counted. -/
theorem holding_foldlM (xs : List α) (hfew : xs.length ≤ maximumUsed) :
    ∃ a, xs.foldlM gmArrayAdd gmArrayCreate = some a ∧ Holding xs a := by
  induction xs using List.reverseRecOn with
  | nil => exact ⟨_, rfl, holding_create⟩
  | append_singleton xs x ih =>
    rw [List.length_append, List.length_singleton] at hfew
    obtain ⟨a, ha, hholding⟩ := ih (by omega)
    obtain ⟨b, hb, hnext⟩ := hholding.add hfew x
    refine ⟨b, ?_, hnext⟩
    rw [List.foldlM_append, ha]
    change (gmArrayAdd a x).bind _ = _
    rw [hb]
    rfl

/-- Past that it is written outside the block. -/
theorem foldlM_eq_none (xs : List α) (hmany : maximumUsed < xs.length) :
    xs.foldlM gmArrayAdd gmArrayCreate = none := by
  have hlength : (xs.take maximumUsed).length = maximumUsed :=
    List.length_take_of_le (Nat.le_of_lt hmany)
  obtain ⟨a, ha, hholding⟩ := holding_foldlM (xs.take maximumUsed) (Nat.le_of_eq hlength)
  rw [← List.take_append_drop maximumUsed xs, List.drop_eq_getElem_cons hmany, List.foldlM_append, ha]
  change (gmArrayAdd a xs[maximumUsed]).bind _ = none
  rw [hholding.add_eq_none hlength]
  rfl

/-- Where anything was added, the last of it bounds an index. -/
theorem Holding.lists (h : Holding xs a) (hsome : 0 < xs.length) : Lists xs a := by
  obtain ⟨hused, hfits, hsteps, hsmall, hblock, hdata⟩ := h
  have hmaximum : maximumUsed = 1073741820 := rfl
  have hlast : (a.used - 1).toNat = xs.length - 1 := by
    have hone : (1 : UInt32) ≤ a.used := UInt32.le_iff_toNat_le.mpr (by rw [hused]; exact hsome)
    rw [UInt32.toNat_sub_of_le _ _ hone, hused]
    rfl
  refine ⟨hused, fun i hi => ?_, fun index hindex => ?_, hdata⟩
  · have hindex : (UInt32.ofNat i).toNat = i := UInt32.toNat_ofNat_of_lt' (by
      have hsize : UInt32.size = 2 ^ 32 := rfl
      omega)
    have hbound : ¬ a.used - 1 < UInt32.ofNat i := by
      rw [UInt32.lt_iff_toNat_lt, hlast, hindex]
      omega
    rw [gmArrayGet, if_neg hbound, hindex, hdata i hi]
  · refine if_pos ?_
    rw [UInt32.lt_iff_toNat_lt, hlast]
    omega

/-- In an empty array no index is out of bounds. -/
theorem Holding.not_lists (h : Holding ([] : List α) a) : ¬ Lists [] a := by
  intro hlists
  have hzero : a.used = 0 := UInt32.toNat_inj.mp h.used
  have hget := hlists.aborts 0 (Nat.zero_le _)
  have hbound : ¬ a.used - 1 < 0 := by
    rw [hzero]
    decide
  rw [gmArrayGet, if_neg hbound] at hget
  split at hget <;> cases hget

end Holding

/-- **The array is the list of what was added exactly when that is one at least, and 1073741820 at
most.** -/
theorem lists_iff (xs : List α) : (∃ a, xs.foldlM gmArrayAdd gmArrayCreate = some a ∧ Lists xs a) ↔
    0 < xs.length ∧ xs.length ≤ maximumUsed := by
  constructor
  · rintro ⟨a, ha, hlists⟩
    have hfew : xs.length ≤ maximumUsed := by
      by_contra hmany
      rw [foldlM_eq_none xs (Nat.not_le.mp hmany)] at ha
      cases ha
    refine ⟨List.length_pos_iff.mpr fun hnil => ?_, hfew⟩
    subst hnil
    obtain rfl := Option.some.inj ha
    exact holding_create.not_lists hlists
  · rintro ⟨hsome, hfew⟩
    obtain ⟨a, ha, hholding⟩ := holding_foldlM xs hfew
    exact ⟨a, ha, hholding.lists hsome⟩

/-- In an array that was just created, the first of no elements is read. -/
theorem not_lists_empty : ¬ Lists ([] : List ℕ) gmArrayCreate := holding_create.not_lists

end Support
