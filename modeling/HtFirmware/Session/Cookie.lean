import HtFirmware.Machinery.ByteOrder
import HtFirmware.Machinery.Text
import Mathlib.Logic.Equiv.Basic

/-!
# Session/Cookie — the session's JSON, in a cookie and back

`gmWriteCookie` puts a checksum and a random word before the JSON text, pads it to a multiple of
sixteen bytes, encrypts it, and sends it in base64; `gmReadCookie` undoes each of these.  What they
call is a `Library`, and `Library.Faithful` is what they rely on.

The encryption output has room for 1032 bytes, which is no multiple of sixteen: a text of more than
1016 bytes is padded to 1040, and runs over it.  Any shorter one makes the round trip
(`roundTrips_iff`).
-/

open Machinery

namespace Session

/-! ## What the cookie code calls -/

/-- AES-CBC, base64, the CRC, and the JSON printer and parser. -/
structure Library (J : Type*) where
  encrypt : Bytes 32 → Bytes 16 → List UInt8 → List UInt8
  decrypt : Bytes 32 → Bytes 16 → List UInt8 → List UInt8
  base64Encode : List UInt8 → List UInt8
  base64Decode : List UInt8 → List UInt8
  crc32 : List UInt8 → UInt32
  print : J → List UInt8
  parse : List UInt8 → Option J

/-- Decryption undoes encryption, of whole blocks; base64 decoding undoes encoding, which makes four
characters of three bytes and adds a newline to every 72 and at the end; and parsing undoes printing,
whatever padding follows. -/
structure Library.Faithful {J : Type*} (lib : Library J) : Prop where
  decrypt_encrypt : ∀ key iv b, 16 ∣ b.length → lib.decrypt key iv (lib.encrypt key iv b) = b
  length_encrypt : ∀ key iv b, 16 ∣ b.length → (lib.encrypt key iv b).length = b.length
  decode_encode : ∀ b, b ≠ [] → lib.base64Decode (lib.base64Encode b).dropLast = b
  length_encode : ∀ b, b ≠ [] →
    (lib.base64Encode b).length ≤ 4 * ((b.length + 2) / 3) + (4 * ((b.length + 2) / 3) + 71) / 72
  parse_print : ∀ j n, lib.parse (lib.print j ++ List.replicate n 0) = some j

/-! ## Sizes -/

def roundup (x y : ℕ) : ℕ := (x + (y - 1)) / y * y

def payloadSize : ℕ := 1024

/-- `sizeof(struct Header)`. -/
def headerSize : ℕ := 8

/-- `sizeof(b.payload.data)`. -/
def payloadDataSize : ℕ := roundup (payloadSize + headerSize) 16

def cookieStart : List UInt8 := [99, 61]

/-- `cookie_end`, without its terminator. -/
def cookieEnd : List UInt8 :=
  "; Secure; SameSite=Strict; Max-Age=2592000; Partitioned;".toList.map fun c => c.toNat.toUInt8

theorem length_cookieEnd : cookieEnd.length = 56 := by decide

/-- `sizeof(b.cookie.data)`. -/
def cookieDataSize : ℕ :=
  headerSize + payloadDataSize + (headerSize + payloadDataSize) / 3 + 3 + (cookieEnd.length + 1)

/-- `sizeof(b.characters)`. -/
def charactersSize : ℕ := cookieStart.length + cookieDataSize

/-- The size of the encryption output, `a` in `gm_write_cookie`. -/
def encryptedSize : ℕ := payloadSize + headerSize

/-! ## Writing and reading -/

/-- Why the cookie code may not come to its end: it aborts, or it leaves its buffers. -/
inductive Fault where
  | abort
  | overrun
  deriving DecidableEq

variable {J : Type*}

/-- The padding of a text. -/
def padding (length : ℕ) : ℕ := roundup (length + headerSize) 16 - (length + headerSize)

/-- What is encrypted: the checksum of the rest, the random word, the text, and the padding. -/
def Library.payload (lib : Library J) (random : UInt32) (json : J) : List UInt8 :=
  let text := lib.print json
  let body := bytes32 random ++ (text ++ List.replicate (padding text.length) 0)
  bytes32 (lib.crc32 body) ++ body

/-- `gm_write_cookie`: the value of the Set-Cookie header. -/
def gmWriteCookie (lib : Library J) (key : Bytes 32) (iv : Bytes 16) (random : UInt32) (json : J) :
    Except Fault (List UInt8) :=
  let length := (lib.print json).length
  -- `cJSON_PrintPreallocated` does not fit the text into the payload.
  if payloadDataSize < length + 1 then .error .abort
  else if payloadDataSize < length + padding length then .error .overrun
  else if encryptedSize < (lib.payload random json).length then .error .overrun
  else
    let value := (lib.base64Encode (lib.encrypt key iv (lib.payload random json))).dropLast
    if cookieDataSize < value.length + (cookieEnd.length + 1) then .error .overrun
    else .ok (cookieStart ++ (value ++ cookieEnd))

/-- `gm_read_cookie`, for a request's cookie, if it has one.  One that does not fit the buffer is an
error of `httpd_req_get_cookie_val`. -/
def gmReadCookie (lib : Library J) (key : Bytes 32) (iv : Bytes 16) :
    Option (List UInt8) → Except Fault (Option J)
  | none => .ok none
  | some value =>
    if charactersSize ≤ value.length then .ok none
    else
      let unbased := lib.base64Decode value
      if 0 < unbased.length % 16 then .ok none
      else
        match lib.decrypt key iv unbased with
        | c₀ :: c₁ :: c₂ :: c₃ :: rest =>
          if load32 c₀ c₁ c₂ c₃ ≠ lib.crc32 rest then .ok none
          else .ok (lib.parse (rest.drop 4))
        -- The length of what is checksummed is below zero, and wraps round.
        | _ => .error .overrun

/-- What a browser sends back of a Set-Cookie header. -/
def valuePart (header : List UInt8) : List UInt8 :=
  (header.drop cookieStart.length).take (header.length - cookieStart.length - cookieEnd.length)

/-- A cookie is written within its buffers, and read as it was written. -/
def RoundTrips (lib : Library J) (key : Bytes 32) (iv : Bytes 16) (random : UInt32) (json : J) :
    Prop :=
  ∃ header, gmWriteCookie lib key iv random json = .ok header ∧
    gmReadCookie lib key iv (some (valuePart header)) = .ok (some json)

/-! ## The round trip -/

theorem valuePart_header (value : List UInt8) :
    valuePart (cookieStart ++ (value ++ cookieEnd)) = value := by
  rw [valuePart, List.drop_left, List.length_append, List.length_append, Nat.add_sub_cancel_left,
    Nat.add_sub_cancel, List.take_left]

theorem length_bytes32 (x : UInt32) : (bytes32 x).length = 4 := rfl

/-- The payload has whole blocks. -/
theorem length_payload (lib : Library J) (random : UInt32) (json : J) :
    (lib.payload random json).length = roundup ((lib.print json).length + headerSize) 16 := by
  simp only [Library.payload, List.length_append, length_bytes32, List.length_replicate, padding,
    roundup, headerSize]
  omega

section Faithful

variable {lib : Library J} {key : Bytes 32} {iv : Bytes 16} {random : UInt32} {json : J}

/-- A payload is read as it was made. -/
theorem gmReadCookie_payload (h : lib.Faithful) {value : List UInt8}
    (hlength : value.length < charactersSize)
    (hvalue : lib.base64Decode value = lib.encrypt key iv (lib.payload random json)) :
    gmReadCookie lib key iv (some value) = .ok (some json) := by
  have hblocks : 16 ∣ (lib.payload random json).length := by
    rw [length_payload, roundup]
    exact Nat.dvd_mul_left _ _
  rw [gmReadCookie, if_neg (Nat.not_le.mpr hlength), hvalue]
  dsimp only
  rw [h.length_encrypt _ _ _ hblocks, Nat.mod_eq_zero_of_dvd hblocks, if_neg (Nat.lt_irrefl 0),
    h.decrypt_encrypt _ _ _ hblocks, Library.payload]
  simp only [bytes32, List.cons_append, List.nil_append, load32_bytes, ne_eq, not_true_eq_false,
    if_false, List.drop_succ_cons, List.drop_zero, h.parse_print]

/-- A text that is too long runs over the encryption output. -/
theorem gmWriteCookie_long (hlong : 1016 < (lib.print json).length)
    (hjson : (lib.print json).length ≤ payloadSize) :
    gmWriteCookie lib key iv random json = .error .overrun := by
  have hpayload := length_payload lib random json
  simp only [payloadSize, roundup, headerSize] at hjson hpayload
  have hprinted : ¬ payloadDataSize < (lib.print json).length + 1 := by
    simp only [payloadDataSize, payloadSize, roundup, headerSize]
    omega
  have hover : encryptedSize < (lib.payload random json).length := by
    rw [hpayload, encryptedSize, payloadSize, headerSize]
    omega
  simp only [gmWriteCookie, if_neg hprinted, if_pos hover, ite_self]

/-- Any other fits every buffer, and so does what becomes of it. -/
theorem gmWriteCookie_short (h : lib.Faithful) (hshort : (lib.print json).length ≤ 1016) :
    ∃ value, gmWriteCookie lib key iv random json = .ok (cookieStart ++ (value ++ cookieEnd)) ∧
      value = (lib.base64Encode (lib.encrypt key iv (lib.payload random json))).dropLast ∧
      value.length < charactersSize := by
  have hpayload := length_payload lib random json
  have hblocks : 16 ∣ (lib.payload random json).length := by
    rw [hpayload, roundup]
    exact Nat.dvd_mul_left _ _
  simp only [roundup, headerSize] at hpayload
  have hencrypted := h.length_encrypt key iv _ hblocks
  have hencoded := h.length_encode (lib.encrypt key iv (lib.payload random json)) (by
    rw [← List.length_pos_iff]
    omega)
  refine ⟨_, ?_, rfl, ?_⟩
  · rw [gmWriteCookie, if_neg, if_neg, if_neg]
    · dsimp only
      rw [if_neg]
      rw [List.length_dropLast, length_cookieEnd]
      simp only [cookieDataSize, payloadDataSize, payloadSize, roundup, headerSize, length_cookieEnd]
      omega
    · rw [hpayload, encryptedSize, payloadSize, headerSize]
      omega
    · simp only [payloadDataSize, payloadSize, padding, roundup, headerSize]
      omega
    · simp only [payloadDataSize, payloadSize, roundup, headerSize]
      omega
  · rw [List.length_dropLast]
    simp only [charactersSize, cookieDataSize, payloadDataSize, payloadSize, roundup, headerSize,
      length_cookieEnd]
    omega

/-- **A cookie makes the round trip exactly when its text, with its header, fits the encryption
output in whole blocks.** -/
theorem roundTrips_iff (h : lib.Faithful) (hjson : (lib.print json).length ≤ payloadSize) :
    RoundTrips lib key iv random json ↔ (lib.print json).length ≤ 1016 := by
  constructor
  · rintro ⟨header, hwrite, -⟩
    by_contra hlong
    rw [gmWriteCookie_long (Nat.lt_of_not_le hlong) hjson] at hwrite
    cases hwrite
  · intro hshort
    obtain ⟨value, hwrite, hvalue, hlength⟩ := gmWriteCookie_short h hshort
    refine ⟨_, hwrite, ?_⟩
    rw [valuePart_header]
    have hblocks : 16 ∣ (lib.payload random json).length := by
      rw [length_payload, roundup]
      exact Nat.dvd_mul_left _ _
    have hdecode : lib.base64Decode value = lib.encrypt key iv (lib.payload random json) := by
      rw [hvalue, h.decode_encode]
      rw [← List.length_pos_iff, h.length_encrypt _ _ _ hblocks]
      simp only [length_payload, roundup, headerSize]
      omega
    exact gmReadCookie_payload h hlength hdecode

end Faithful

/-! ## Two cookies -/

/-- The text of an empty object, and one of 1017 bytes. -/
def someText : Bool → List UInt8
  | false => [123, 125]
  | true => 34 :: (List.replicate 1015 97 ++ [34])

/-- The payload of the empty object under the random word 0x01020304. -/
def somePayload : List UInt8 := [66, 99, 58, 142, 4, 3, 2, 1, 123, 125, 0, 0, 0, 0, 0, 0]

/-- What AES-256-CBC makes of it, under the key 0, 1, 2, … and the vector 0, 1, 2, …. -/
def someCiphertext : List UInt8 :=
  [13, 46, 213, 166, 116, 189, 121, 157, 94, 20, 214, 208, 9, 48, 137, 190]

/-- Its base64: DS7VpnS9eZ1eFNbQCTCJvg==. -/
def someBase64 : List UInt8 :=
  [68, 83, 55, 86, 112, 110, 83, 57, 101, 90, 49, 101, 70, 78, 98, 81, 67, 84, 67, 74, 118, 103, 61,
    61]

/-- A library that does on these what the real ones do, under that key and vector. -/
def someLibrary : Library Bool where
  encrypt _ _ := Equiv.swap somePayload someCiphertext
  decrypt _ _ := (Equiv.swap somePayload someCiphertext).symm
  base64Encode b := Equiv.swap someCiphertext someBase64 b ++ [10]
  base64Decode := (Equiv.swap someCiphertext someBase64).symm
  crc32 _ := 0x8e3a6342
  print := someText
  parse b := [false, true].find? fun j => b.takeWhile (· ≠ 0) = someText j

theorem takeWhile_someText (j : Bool) (n : ℕ) :
    (someText j ++ List.replicate n 0).takeWhile (· ≠ 0) = someText j := by
  have hne : 0 ∉ someText j := by
    cases j with
    | false => decide +kernel
    | true =>
      intro hb
      obtain hb | hb := List.mem_cons.mp hb
      · exact absurd hb (by decide)
      · obtain hb | hb := List.mem_append.mp hb
        · exact absurd (List.eq_of_mem_replicate hb) (by decide)
        · exact absurd (List.mem_singleton.mp hb) (by decide)
  rw [takeWhile_ne_append hne]
  cases n with
  | zero => exact List.append_nil _
  | succ n => exact List.append_nil _

theorem faithful_someLibrary : someLibrary.Faithful where
  decrypt_encrypt _ _ b _ := Equiv.symm_apply_apply _ b
  length_encrypt _ _ b _ := by
    simp only [someLibrary, Equiv.swap_apply_def]
    split_ifs with h h
    exacts [h ▸ rfl, h ▸ rfl, rfl]
  decode_encode b _ := by
    simp only [someLibrary, List.dropLast_concat]
    exact Equiv.symm_apply_apply _ b
  length_encode b hb := by
    have := List.length_pos_iff.mpr hb
    simp only [someLibrary, List.length_append, List.length_singleton, Equiv.swap_apply_def]
    split_ifs with h h
    · rw [h]
      decide
    · rw [h]
      decide
    · omega
  parse_print j n := by
    simp only [someLibrary, takeWhile_someText]
    cases j with
    | false => exact List.find?_cons_of_pos (by decide)
    | true =>
      have hne : someText true ≠ someText false := fun h =>
        absurd (List.cons.inj h).1 (by decide)
      rw [List.find?_cons_of_neg (by rwa [decide_eq_true_eq])]
      exact List.find?_cons_of_pos (by rw [decide_eq_true_eq])

theorem roundTrips_empty :
    RoundTrips someLibrary (fun i => i.val.toUInt8) (fun i => i.val.toUInt8) 0x01020304 false ↔
      (someLibrary.print false).length ≤ 1016 :=
  roundTrips_iff faithful_someLibrary (by decide)

/-- **A text of 1017 bytes does not survive**, though 1024 are allowed. -/
theorem not_roundTrips_long : (someLibrary.print true).length ≤ payloadSize ∧
    ¬ RoundTrips someLibrary (fun i => i.val.toUInt8) (fun i => i.val.toUInt8) 0x01020304 true := by
  have hlength : (someLibrary.print true).length = 1017 := by
    simp only [someLibrary, someText, List.length_cons, List.length_append, List.length_replicate,
      List.length_nil]
  refine ⟨by rw [hlength]; decide, ?_⟩
  rintro ⟨header, hwrite, -⟩
  rw [gmWriteCookie_long (by rw [hlength]; decide) (by rw [hlength]; decide)] at hwrite
  cases hwrite

end Session
