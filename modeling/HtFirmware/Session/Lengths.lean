import HtFirmware.Session.Cookie

/-!
# Session/Lengths — the lengths `gm_read_cookie` passes on

What a client sends as its cookie decides how many bytes are decoded from base64, and that number,
less the size of a header, is what the checksum and the JSON parser are given as a length.  `Safe`
asks that no such difference wraps round, that none is more than was decoded, and that the read
comes to its end.

The only test on the decoded length is that it is a multiple of sixteen, and zero is one: a cookie
that decodes to nothing has a checksum of nearly 2³² bytes taken.  Any other is safe (`safe_iff`).
-/

open Machinery

namespace Session

variable {J : Type*}

/-- A decoder that can refuse: `base64_decode` returns null, and leaves the length it was given. -/
abbrev Base64Decoder := List UInt8 → Option (List UInt8)

/-- The library with such a decoder: what is not decoded has no bytes. -/
def Library.decoding (lib : Library J) (decode : Base64Decoder) : Library J :=
  { lib with base64Decode := fun value => (decode value).getD [] }

/-! ## Lengths -/

/-- What is given a length. -/
inductive Callee where
  | memcpy
  | esp_aes_crypt_cbc
  | esp_rom_crc32_le
  | cJSON_ParseWithLength
  deriving DecidableEq

/-- An argument of type `size_t`: a length, less the size of what was skipped. -/
structure SizeArgument where
  callee : Callee
  length : UInt32
  less : UInt32
  deriving DecidableEq

/-- The argument, as the callee sees it. -/
def SizeArgument.value (s : SizeArgument) : UInt32 := s.length - s.less

/-- **The difference is not below zero, and at most what was decoded.** -/
structure SizeArgument.Within (s : SizeArgument) (decoded : ℕ) : Prop where
  nonneg : s.less ≤ s.length
  le : s.value.toNat ≤ decoded

/-- `length`, once `base64_decode` has returned. -/
def decodedLength (unbased : Option (List UInt8)) : UInt32 :=
  match unbased with
  | none => 0
  | some b => b.length.toUInt32

/-- `sizeof(b.payload.header.crc32)`. -/
def crcSize : UInt32 := 4

/-- The checksum in the payload is that of the rest. -/
def ChecksumMatches (lib : Library J) : List UInt8 → Prop
  | c₀ :: c₁ :: c₂ :: c₃ :: rest => load32 c₀ c₁ c₂ c₃ = lib.crc32 rest
  | _ => False

instance (lib : Library J) (payload : List UInt8) : Decidable (ChecksumMatches lib payload) := by
  unfold ChecksumMatches
  split <;> infer_instance

/-- **The lengths `gm_read_cookie` passes on**, for the value of a cookie. -/
def cookieLengths (lib : Library J) (decode : Base64Decoder) (key : Bytes 32) (iv : Bytes 16)
    (value : List UInt8) : List SizeArgument :=
  if charactersSize ≤ value.length then []
  else
    let unbased := decode value
    let length := decodedLength unbased
    if 0 < length % 16 then [⟨.memcpy, length, 0⟩]
    else
      [⟨.memcpy, length, 0⟩, ⟨.esp_aes_crypt_cbc, length, 0⟩, ⟨.esp_rom_crc32_le, length, crcSize⟩]
        ++ if ChecksumMatches lib (lib.decrypt key iv (unbased.getD [])) then
          [⟨.cJSON_ParseWithLength, length, headerSize.toUInt32⟩] else []

/-- **The read returns null or the parsed JSON**, and every length on the way is within what was
decoded. -/
structure Safe (lib : Library J) (decode : Base64Decoder) (key : Bytes 32) (iv : Bytes 16)
    (value : List UInt8) : Prop where
  returns : ∃ json, gmReadCookie (lib.decoding decode) key iv (some value) = .ok json
  lengths : ∀ s ∈ cookieLengths lib decode key iv value, s.Within ((decode value).getD []).length

/-! ## When it is safe -/

section Safe

variable {lib : Library J} {decode : Base64Decoder} {key : Bytes 32} {iv : Bytes 16}
  {value : List UInt8}

theorem charactersSize_lt : charactersSize < 2 ^ 32 := by
  simp only [charactersSize, cookieDataSize, payloadDataSize, payloadSize, roundup, headerSize,
    length_cookieEnd]
  decide

/-- A value that fits the buffer decodes to a length that fits a word. -/
theorem toNat_decodedLength (hdecode : ∀ v b, decode v = some b → b.length ≤ v.length)
    (hvalue : value.length < charactersSize) :
    (decodedLength (decode value)).toNat = ((decode value).getD []).length := by
  cases hb : decode value with
  | none => rfl
  | some b =>
    have hlength := hdecode value b hb
    have := charactersSize_lt
    exact UInt32.toNat_ofNat_of_lt' (by rw [UInt32.size]; omega)

/-- A length less no more than itself is within. -/
theorem within_of_le {callee : Callee} {length less : UInt32} {decoded : ℕ} (h : less ≤ length)
    (hlength : length.toNat = decoded) : (SizeArgument.mk callee length less).Within decoded := by
  refine ⟨h, ?_⟩
  rw [SizeArgument.value, UInt32.toNat_sub_of_le _ _ h, hlength]
  exact Nat.sub_le ..

/-- A multiple of sixteen that is not zero is at least sixteen. -/
theorem sixteen_le {length : UInt32} (hblocks : ¬ 0 < length % 16) (hne : length.toNat ≠ 0) :
    16 ≤ length.toNat ∧ 16 ∣ length.toNat := by
  have hmod : length.toNat % 16 = 0 := by
    have hle := UInt32.not_lt.mp hblocks
    rw [UInt32.le_iff_toNat_le, UInt32.toNat_mod] at hle
    exact Nat.le_zero.mp hle
  omega

/-- A value that does not fit the buffer is refused, before it is decoded. -/
theorem safe_of_long (hvalue : charactersSize ≤ value.length) : Safe lib decode key iv value := by
  have hlengths : cookieLengths lib decode key iv value = [] := if_pos hvalue
  refine ⟨⟨none, if_pos hvalue⟩, ?_⟩
  rw [hlengths]
  exact fun s hs => absurd hs List.not_mem_nil

/-- What does not decode, or decodes to nothing, has the checksum of four bytes less than nothing
taken. -/
theorem not_safe_of_nil (hvalue : value.length < charactersSize)
    (hnil : (decode value).getD [] = []) : ¬ Safe lib decode key iv value := by
  intro hsafe
  have hzero : decodedLength (decode value) = 0 := by
    cases hb : decode value with
    | none => rfl
    | some b =>
      rw [hb, Option.getD_some] at hnil
      rw [hnil]
      rfl
  have hmem : ⟨.esp_rom_crc32_le, 0, crcSize⟩ ∈ cookieLengths lib decode key iv value := by
    rw [cookieLengths, if_neg (Nat.not_le.mpr hvalue)]
    dsimp only
    rw [hzero, if_neg (by decide)]
    exact List.mem_append_left _ (List.mem_cons_of_mem _ (List.mem_cons_of_mem _
      (List.mem_singleton_self _)))
  exact absurd (hsafe.lengths _ hmem).nonneg (by decide)

/-- What decodes to something has every length within it. -/
theorem within_of_ne_nil (hdecode : ∀ v b, decode v = some b → b.length ≤ v.length)
    (hvalue : value.length < charactersSize) (hne : (decode value).getD [] ≠ []) :
    ∀ s ∈ cookieLengths lib decode key iv value, s.Within ((decode value).getD []).length := by
  have hlength := toNat_decodedLength hdecode hvalue
  have hpos := List.length_pos_iff.mpr hne
  intro s hs
  rw [cookieLengths, if_neg (Nat.not_le.mpr hvalue)] at hs
  dsimp only at hs
  split_ifs at hs with hblocks hmatches
  · obtain rfl := List.mem_singleton.mp hs
    exact within_of_le (UInt32.zero_le) hlength
  all_goals
    have hsixteen := (sixteen_le hblocks (by omega)).1
    have hcrc : crcSize ≤ decodedLength (decode value) :=
      UInt32.le_iff_toNat_le.mpr (Nat.le_trans (by decide) hsixteen)
    have hheader : headerSize.toUInt32 ≤ decodedLength (decode value) :=
      UInt32.le_iff_toNat_le.mpr (Nat.le_trans (by decide) hsixteen)
    simp only [List.mem_append, List.mem_cons, List.not_mem_nil, or_false] at hs
  · obtain (rfl | rfl | rfl) | rfl := hs
    exacts [within_of_le UInt32.zero_le hlength, within_of_le UInt32.zero_le hlength,
      within_of_le hcrc hlength, within_of_le hheader hlength]
  · obtain rfl | rfl | rfl := hs
    exacts [within_of_le UInt32.zero_le hlength, within_of_le UInt32.zero_le hlength,
      within_of_le hcrc hlength]

/-- What decodes to something is read, or refused. -/
theorem gmReadCookie_of_ne_nil
    (hdecrypt : ∀ key iv b, 16 ∣ b.length → (lib.decrypt key iv b).length = b.length)
    (hne : (decode value).getD [] ≠ []) :
    ∃ json, gmReadCookie (lib.decoding decode) key iv (some value) = .ok json := by
  rw [gmReadCookie]
  split_ifs with hvalue
  · exact ⟨none, rfl⟩
  dsimp only [Library.decoding]
  split_ifs with hblocks
  · exact ⟨none, rfl⟩
  have hpos := List.length_pos_iff.mpr hne
  have hplain := hdecrypt key iv _ (Nat.dvd_of_mod_eq_zero (Nat.le_zero.mp (Nat.not_lt.mp hblocks)))
  obtain ⟨c₀, c₁, c₂, c₃, rest, hcons⟩ : ∃ c₀ c₁ c₂ c₃ rest,
      lib.decrypt key iv ((decode value).getD []) = c₀ :: c₁ :: c₂ :: c₃ :: rest := by
    generalize lib.decrypt key iv ((decode value).getD []) = plain at hplain
    obtain _ | ⟨c₀, _ | ⟨c₁, _ | ⟨c₂, _ | ⟨c₃, rest⟩⟩⟩⟩ := plain
    case cons.cons.cons.cons => exact ⟨c₀, c₁, c₂, c₃, rest, rfl⟩
    all_goals
      simp only [List.length_cons, List.length_nil] at hplain
      omega
  rw [hcons]
  by_cases hcrc : load32 c₀ c₁ c₂ c₃ = lib.crc32 rest
  · exact ⟨_, if_neg (not_not.mpr hcrc)⟩
  · exact ⟨none, if_pos hcrc⟩

/-- **A cookie is safe exactly when it does not fit the buffer, or decodes to at least a byte.** -/
theorem safe_iff (hdecode : ∀ v b, decode v = some b → b.length ≤ v.length)
    (hdecrypt : ∀ key iv b, 16 ∣ b.length → (lib.decrypt key iv b).length = b.length) :
    Safe lib decode key iv value ↔
      charactersSize ≤ value.length ∨ ∃ b, decode value = some b ∧ b ≠ [] := by
  constructor
  · intro hsafe
    by_contra! hnot
    obtain ⟨hvalue, hdecoded⟩ := hnot
    refine not_safe_of_nil hvalue ?_ hsafe
    cases hb : decode value with
    | none => rfl
    | some b => exact hdecoded b hb
  · rintro (hvalue | ⟨b, hb, hne⟩)
    · exact safe_of_long hvalue
    · have hdecoded : (decode value).getD [] ≠ [] := by rwa [hb]
      by_cases hvalue : charactersSize ≤ value.length
      · exact safe_of_long hvalue
      · exact ⟨gmReadCookie_of_ne_nil hdecrypt hdecoded,
          within_of_ne_nil hdecode (Nat.lt_of_not_le hvalue) hdecoded⟩

end Safe

/-! ## The empty cookie -/

/-- A decoder that does on one text what the real one does. -/
def someDecoder : Base64Decoder := fun value =>
  if value = someBase64 then some someCiphertext else none

theorem safe_someBase64 :
    Safe someLibrary someDecoder (fun i => i.val.toUInt8) (fun i => i.val.toUInt8) someBase64 ↔
      charactersSize ≤ someBase64.length ∨ ∃ b, someDecoder someBase64 = some b ∧ b ≠ [] := by
  refine safe_iff (fun v b hb => ?_) (fun _ _ b _ => ?_)
  · rw [someDecoder] at hb
    split_ifs at hb with hv
    rw [← Option.some.inj hb, hv]
    decide
  · simp only [someLibrary, Equiv.symm_swap, Equiv.swap_apply_def]
    split_ifs with h h
    exacts [h ▸ rfl, h ▸ rfl, rfl]

/-- **`c=` is a cookie that is not safe**: nothing is decoded, and 2³² − 4 bytes are checksummed. -/
theorem not_safe_empty :
    ¬ Safe someLibrary someDecoder (fun i => i.val.toUInt8) (fun i => i.val.toUInt8) [] ∧
      (SizeArgument.mk .esp_rom_crc32_le 0 crcSize).value = 0xfffffffc :=
  ⟨not_safe_of_nil (by decide) (by decide), by decide⟩

end Session
