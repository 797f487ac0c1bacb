import HtFirmware.Machinery.ByteOrder

/-!
# Support/MatchBits — how many leading bits agree

`gm_match_bits` counts the bits two objects agree in, from the most significant of the first byte,
up to the first difference: the length of the longest prefix of bits they have in common.
-/

namespace Support

/-- The inner loop: the bits of one byte from `j` down, with what is counted so far; the flag says
that no difference has been met. -/
def matchByte (difference : UInt8) : ℕ → ℕ → ℕ × Bool
  | 0, count => (count, true)
  | j + 1, count =>
    if difference.toNat.testBit j then (count, false) else matchByte difference j (count + 1)

/-- `gm_match_bits`, over the bytes of the two objects. -/
def matchBytes : List (UInt8 × UInt8) → ℕ → ℕ
  | [], count => count
  | (a, b) :: rest, count =>
    match matchByte (a ^^^ b) 8 count with
    | (count, true) => matchBytes rest count
    | (count, false) => count

/-- `gm_match_bits`. -/
def gmMatchBits {n : ℕ} (a b : Machinery.Bytes n) : ℕ :=
  matchBytes ((List.finRange n).map fun i => (a i, b i)) 0

/-! ## Common bits -/

/-- How many elements two lists begin with in common. -/
def commonPrefix {α : Type*} [DecidableEq α] : List α → List α → ℕ
  | x :: xs, y :: ys => if x = y then commonPrefix xs ys + 1 else 0
  | _, _ => 0

/-- The lowest bits of a byte, from the highest of them down. -/
def lowBits (a : UInt8) : ℕ → List Bool
  | 0 => []
  | j + 1 => a.toNat.testBit j :: lowBits a j

/-- The bits of an object, from the most significant of the first byte. -/
def bitsOf {n : ℕ} (a : Machinery.Bytes n) : List Bool := (List.ofFn a).flatMap (lowBits · 8)

/-- How many leading bits two objects have in common. -/
def commonBits {n : ℕ} (a b : Machinery.Bytes n) : ℕ := commonPrefix (bitsOf a) (bitsOf b)

theorem length_lowBits (a : UInt8) (j : ℕ) : (lowBits a j).length = j := by
  induction j with
  | zero => rfl
  | succ j ih => rw [lowBits, List.length_cons, ih]

theorem commonPrefix_append {α : Type*} [DecidableEq α] {xs ys : List α} (xs' ys' : List α)
    (h : xs.length = ys.length) : commonPrefix (xs ++ xs') (ys ++ ys')
      = if commonPrefix xs ys = xs.length then xs.length + commonPrefix xs' ys'
        else commonPrefix xs ys := by
  induction xs generalizing ys with
  | nil =>
    obtain rfl := List.eq_nil_of_length_eq_zero h.symm
    simp [commonPrefix]
  | cons x xs ih =>
    obtain ⟨y, ys, rfl⟩ := List.exists_cons_of_length_eq_add_one h.symm
    by_cases hxy : x = y
    · have hlong : commonPrefix (x :: (xs ++ xs')) (y :: (ys ++ ys'))
          = commonPrefix (xs ++ xs') (ys ++ ys') + 1 := if_pos hxy
      have hshort : commonPrefix (x :: xs) (y :: ys) = commonPrefix xs ys + 1 := if_pos hxy
      rw [List.cons_append, List.cons_append, hlong, hshort, ih (Nat.succ.inj h), List.length_cons]
      split_ifs <;> omega
    · have hlong : commonPrefix (x :: (xs ++ xs')) (y :: (ys ++ ys')) = 0 := if_neg hxy
      have hshort : commonPrefix (x :: xs) (y :: ys) = 0 := if_neg hxy
      rw [List.cons_append, List.cons_append, hlong, hshort, List.length_cons,
        if_neg (Nat.succ_ne_zero _).symm]

/-- One byte. -/
theorem matchByte_eq (a b : UInt8) (j count : ℕ) : matchByte (a ^^^ b) j count
    = (count + commonPrefix (lowBits a j) (lowBits b j),
        decide (commonPrefix (lowBits a j) (lowBits b j) = j)) := by
  induction j generalizing count with
  | zero => rfl
  | succ j ih =>
    have hbit : (a ^^^ b).toNat.testBit j = (a.toNat.testBit j ^^ b.toNat.testBit j) := by
      rw [UInt8.toNat_xor, Nat.testBit_xor]
    rw [matchByte, lowBits, lowBits, commonPrefix, hbit]
    by_cases hsame : a.toNat.testBit j = b.toNat.testBit j
    · rw [hsame, Bool.xor_self, if_neg Bool.false_ne_true, if_pos rfl, ih]
      simp only [Nat.add_right_cancel_iff, Nat.add_assoc, Nat.add_comm 1]
    · rw [if_neg hsame, if_pos (by simpa using hsame)]
      simp

/-- All bytes. -/
theorem matchBytes_eq (pairs : List (UInt8 × UInt8)) (count : ℕ) : matchBytes pairs count
    = count + commonPrefix ((pairs.map Prod.fst).flatMap (lowBits · 8))
        ((pairs.map Prod.snd).flatMap (lowBits · 8)) := by
  induction pairs generalizing count with
  | nil => rfl
  | cons pair pairs ih =>
    obtain ⟨x, y⟩ := pair
    rw [matchBytes, matchByte_eq]
    simp only [List.map_cons, List.flatMap_cons]
    rw [commonPrefix_append _ _ (by rw [length_lowBits, length_lowBits]), length_lowBits]
    by_cases hbyte : commonPrefix (lowBits x 8) (lowBits y 8) = 8
    · rw [if_pos hbyte, decide_eq_true hbyte, hbyte]
      dsimp only
      rw [ih, Nat.add_assoc]
    · rw [if_neg hbyte, decide_eq_false hbyte]

/-- **The bits that are counted are those the objects have in common.** -/
theorem gmMatchBits_eq {n : ℕ} (a b : Machinery.Bytes n) : gmMatchBits a b = commonBits a b := by
  rw [gmMatchBits, matchBytes_eq, Nat.zero_add, List.map_map, List.map_map, commonBits, bitsOf, bitsOf,
    List.ofFn_eq_map, List.ofFn_eq_map]
  rfl

/-! ## In memory -/

section Memory

/-- The lengths of the prefixes that two lists have in common. -/
def commonLengths {α : Type*} (xs ys : List α) : Set ℕ :=
  {k | k ≤ xs.length ∧ k ≤ ys.length ∧ xs.take k = ys.take k}

theorem isGreatest_commonPrefix {α : Type*} [DecidableEq α] (xs ys : List α) :
    IsGreatest (commonLengths xs ys) (commonPrefix xs ys) := by
  induction xs generalizing ys with
  | nil => exact ⟨⟨Nat.zero_le _, Nat.zero_le _, rfl⟩, fun k hk => hk.1⟩
  | cons x xs ih =>
    cases ys with
    | nil => exact ⟨⟨Nat.zero_le _, Nat.zero_le _, rfl⟩, fun k hk => hk.2.1⟩
    | cons y ys =>
      by_cases hxy : x = y
      · subst hxy
        have hcons : commonPrefix (x :: xs) (x :: ys) = commonPrefix xs ys + 1 := if_pos rfl
        obtain ⟨⟨hxs, hys, hsame⟩, hgreatest⟩ := ih ys
        rw [hcons]
        refine ⟨⟨Nat.succ_le_succ hxs, Nat.succ_le_succ hys, ?_⟩, fun k hk => ?_⟩
        · rw [List.take_succ_cons, List.take_succ_cons, hsame]
        · obtain ⟨hkx, hky, hk⟩ := hk
          cases k with
          | zero => exact Nat.zero_le _
          | succ k =>
            rw [List.take_succ_cons, List.take_succ_cons] at hk
            exact Nat.succ_le_succ (hgreatest
              ⟨Nat.le_of_succ_le_succ hkx, Nat.le_of_succ_le_succ hky, (List.cons.inj hk).2⟩)
      · have hcons : commonPrefix (x :: xs) (y :: ys) = 0 := if_neg hxy
        rw [hcons]
        refine ⟨⟨Nat.zero_le _, Nat.zero_le _, rfl⟩, fun k hk => ?_⟩
        obtain ⟨-, -, hk⟩ := hk
        cases k with
        | zero => exact Nat.le_refl _
        | succ k =>
          rw [List.take_succ_cons, List.take_succ_cons] at hk
          exact absurd (List.cons.inj hk).1 hxy

/-- Lists that are the same have everything in common. -/
theorem commonPrefix_self {α : Type*} [DecidableEq α] (xs : List α) :
    commonPrefix xs xs = xs.length := by
  induction xs with
  | nil => rfl
  | cons x xs ih => exact (if_pos rfl).trans (congrArg (· + 1) ih)

/-- The bits of some bytes, from the most significant of the first. -/
def bits (bytes : List UInt8) : List Bool := bytes.flatMap (lowBits · 8)

theorem length_bits (bytes : List UInt8) : (bits bytes).length = 8 * bytes.length := by
  rw [bits, List.length_flatMap, List.map_congr_left (fun a _ => length_lowBits a 8), List.map_const',
    List.sum_replicate_nat, Nat.mul_comm]

/-- The `do` loop, from the bit `j` down: what is counted is a `size_t`, and the flag says that the
loop was left at its end. -/
def countByte (xorResult : UInt8) : ℕ → UInt32 → UInt32 × Bool
  | 0, count => if xorResult.toNat.testBit 0 then (count, false) else (count + 1, true)
  | j + 1, count =>
    if xorResult.toNat.testBit (j + 1) then (count, false) else countByte xorResult j (count + 1)

/-- The `for` loop, from the byte `i`, `none` for a read outside an object. -/
def countFrom (a b : List UInt8) (size i : ℕ) (count : UInt32) : Option UInt32 :=
  if i < size then
    a[i]?.bind fun x => b[i]?.bind fun y =>
      let counted := countByte (x ^^^ y) 7 count
      if counted.2 then countFrom a b size (i + 1) counted.1 else some counted.1
  else some count
termination_by size - i

/-- `gm_match_bits`, of objects that are longer than `size`, or shorter. -/
def gmMatchBitsIn (a b : List UInt8) (size : UInt32) : Option UInt32 := countFrom a b size.toNat 0 0

/-- One byte is counted as before, in a `size_t`. -/
theorem countByte_eq (xorResult : UInt8) (j : ℕ) (count : ℕ) :
    countByte xorResult j (.ofNat count)
      = (UInt32.ofNat (matchByte xorResult (j + 1) count).1,
          (matchByte xorResult (j + 1) count).2) := by
  induction j generalizing count with
  | zero =>
    rw [countByte, matchByte, matchByte]
    split_ifs
    · rfl
    · rw [UInt32.ofNat_add]
      rfl
  | succ j ih =>
    have hnext : UInt32.ofNat count + 1 = UInt32.ofNat (count + 1) := (UInt32.ofNat_add _ _).symm
    rw [countByte, matchByte, hnext, ih]
    split_ifs <;> rfl

/-- **The bytes within `size` are read**, and the bits they have in common are counted. -/
theorem countFrom_eq {a b : List UInt8} {size : ℕ} (ha : size ≤ a.length) (hb : size ≤ b.length)
    (i count : ℕ) : countFrom a b size i (.ofNat count)
      = some (.ofNat (matchBytes (((a.take size).drop i).zip ((b.take size).drop i)) count)) := by
  have hla : (a.take size).length = size := List.length_take_of_le ha
  have hlb : (b.take size).length = size := List.length_take_of_le hb
  induction hleft : size - i generalizing i count with
  | zero =>
    have hge : size ≤ i := Nat.sub_eq_zero_iff_le.mp hleft
    rw [countFrom, if_neg (Nat.not_lt.mpr hge), List.drop_of_length_le (by rwa [hla]),
      List.zip_nil_left, matchBytes]
  | succ left ih =>
    have hi : i < size := by omega
    rw [countFrom, if_pos hi, List.getElem?_eq_getElem (Nat.lt_of_lt_of_le hi ha), Option.bind_some,
      List.getElem?_eq_getElem (Nat.lt_of_lt_of_le hi hb), Option.bind_some, countByte_eq,
      List.drop_eq_getElem_cons (hi.trans_eq hla.symm),
      List.drop_eq_getElem_cons (hi.trans_eq hlb.symm),
      List.zip_cons_cons, matchBytes, List.getElem_take, List.getElem_take]
    dsimp only
    cases hbyte : matchByte (a[i] ^^^ b[i]) 8 count with
    | mk counted agrees =>
      cases agrees with
      | true => exact ih (i + 1) counted (by omega)
      | false => rfl

/-- The bits in common, of the first bytes. -/
theorem matchBytes_zip {xs ys : List UInt8} (h : xs.length = ys.length) (count : ℕ) :
    matchBytes (xs.zip ys) count = count + commonPrefix (bits xs) (bits ys) := by
  rw [matchBytes_eq, List.map_fst_zip (Nat.le_of_eq h), List.map_snd_zip (Nat.le_of_eq h.symm), bits,
    bits]

variable (a b : List UInt8) (size : UInt32)

theorem gmMatchBitsIn_eq_ofNat (ha : size.toNat ≤ a.length) (hb : size.toNat ≤ b.length) :
    gmMatchBitsIn a b size = some (.ofNat
      (commonPrefix (bits (a.take size.toNat)) (bits (b.take size.toNat)))) := by
  have hsame : (a.take size.toNat).length = (b.take size.toNat).length := by
    rw [List.length_take_of_le ha, List.length_take_of_le hb]
  have hcount := countFrom_eq ha hb 0 0
  rw [List.drop_zero, List.drop_zero, matchBytes_zip hsame, Nat.zero_add] at hcount
  exact hcount

/-- **What is counted is the greatest length, in bits, that the first `size` bytes have in common**, as
a `size_t`; and nothing but these bytes is read. -/
theorem matching_bits (ha : size.toNat ≤ a.length) (hb : size.toNat ≤ b.length) :
    ∃ n, IsGreatest (commonLengths (bits (a.take size.toNat)) (bits (b.take size.toNat))) n ∧
      gmMatchBitsIn a b size = some (.ofNat n) ∧
      (size.toNat < 2 ^ 29 → (UInt32.ofNat n).toNat = n) ∧
      (a.take size.toNat = b.take size.toNat → n = 8 * size.toNat) ∧
      ∀ a' b', a'.take size.toNat = a.take size.toNat → b'.take size.toNat = b.take size.toNat →
        gmMatchBitsIn a' b' size = some (.ofNat n) := by
  have hgreatest := isGreatest_commonPrefix (bits (a.take size.toNat)) (bits (b.take size.toNat))
  have hbits : (bits (a.take size.toNat)).length = 8 * size.toNat := by
    rw [length_bits, List.length_take_of_le ha]
  refine ⟨_, hgreatest, gmMatchBitsIn_eq_ofNat a b size ha hb, fun hsmall => ?_, fun hequal => ?_,
    fun a' b' hsamea hsameb => ?_⟩
  · have hle := hgreatest.1.1
    exact UInt32.toNat_ofNat_of_lt' (show _ < 2 ^ 32 by omega)
  · rw [← hequal, commonPrefix_self, hbits]
  · have hlong : ∀ {c c' : List UInt8}, size.toNat ≤ c.length →
        c'.take size.toNat = c.take size.toNat → size.toNat ≤ c'.length := by
      intro c c' hc hsame
      have hlength := congrArg List.length hsame
      rw [List.length_take, List.length_take] at hlength
      omega
    rw [gmMatchBitsIn_eq_ofNat a' b' size (hlong ha hsamea) (hlong hb hsameb), hsamea, hsameb]

theorem matching_bits_four :
    ∃ n, IsGreatest (commonLengths (bits [192, 168, 1, 5]) (bits [192, 168, 1, 1])) n ∧
      gmMatchBitsIn [192, 168, 1, 5] [192, 168, 1, 1, 0] 4 = some (.ofNat n) := by
  obtain ⟨n, hgreatest, hcount, -⟩ :=
    matching_bits [192, 168, 1, 5] [192, 168, 1, 1, 0] 4 (by decide) (by decide)
  exact ⟨n, hgreatest, hcount⟩

/-- Where 2²⁹ bytes agree, the count of their bits is past the last `size_t`. -/
theorem matching_bits_wraps :
    gmMatchBitsIn (.replicate (2 ^ 29) 0) (.replicate (2 ^ 29) 0) 536870912 = some 0 ∧
      ¬ IsGreatest (commonLengths (bits (.replicate (2 ^ 29) 0)) (bits (.replicate (2 ^ 29) 0))) 0 := by
  have hsize : (536870912 : UInt32).toNat = 2 ^ 29 := rfl
  have hlength : (List.replicate (2 ^ 29) (0 : UInt8)).length = 2 ^ 29 := List.length_replicate
  have htake : (List.replicate (2 ^ 29) (0 : UInt8)).take (536870912 : UInt32).toNat
      = List.replicate (2 ^ 29) 0 := List.take_of_length_le (Nat.le_of_eq (hlength.trans hsize.symm))
  have hcommon : commonPrefix (bits (.replicate (2 ^ 29) 0)) (bits (.replicate (2 ^ 29) 0))
      = 2 ^ 32 := by
    rw [commonPrefix_self, length_bits, hlength]
    rfl
  have hcount := gmMatchBitsIn_eq_ofNat (.replicate (2 ^ 29) 0) (.replicate (2 ^ 29) 0) 536870912
    (by rw [hlength, hsize]) (by rw [hlength, hsize])
  rw [htake, hcommon] at hcount
  refine ⟨hcount, fun hgreatest => ?_⟩
  have hsame := hgreatest.unique (isGreatest_commonPrefix _ _)
  rw [hcommon] at hsame
  cases hsame

end Memory

/-- Objects that agree in nothing differ in their first bit. -/
example : gmMatchBits ![10, 0, 0, 5] ![192, 168, 1, 1] = 0 := by decide +kernel

example : gmMatchBits ![192, 168, 1, 5] ![192, 168, 1, 1] = 29 := by decide +kernel

end Support
