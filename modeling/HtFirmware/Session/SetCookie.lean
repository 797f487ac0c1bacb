import HtFirmware.Machinery.Base64
import HtFirmware.Session.Cookie

/-!
# Session/SetCookie — the header a session is sent in

The encoder `gm_write_cookie` calls breaks base64 into lines of 72 characters and ends each of them,
the last one too, with a line feed.  Only the last character of what it returns is left out of the
header, so a session whose text takes more than one line sends the header with line feeds in it: it is
right for a JSON text of up to 40 bytes, and for no other (`setsCookie_iff`).
-/

open Machinery

namespace Session

variable {J : Type*}

/-! ## The header -/

/-- The width of the encoder's lines. -/
def lineWidth : ℕ := 72

/-- Encryption keeps the length of whole blocks, and base64 comes in lines. -/
structure Library.InLines (lib : Library J) : Prop where
  length_encrypt : ∀ key iv b, 16 ∣ b.length → (lib.encrypt key iv b).length = b.length
  base64Encode : ∀ b, lib.base64Encode b = breakLines lineWidth (base64 b)

/-- What the value of a cookie may not have: a line feed, a carriage return, a semicolon, a space. -/
def separators : List UInt8 := [lineFeed, 13, 59, 32]

/-- The base64 of what is encrypted. -/
def Library.cookieText (lib : Library J) (key : Bytes 32) (iv : Bytes 16) (random : UInt32)
    (json : J) : List UInt8 := base64 (lib.encrypt key iv (lib.payload random json))

/-- **The header is the cookie's name, the base64 text and the attributes**, with its null inside the
buffer. -/
def SetsCookie (lib : Library J) (key : Bytes 32) (iv : Bytes 16) (random : UInt32) (json : J) :
    Prop :=
  ∃ header, gmWriteCookie lib key iv random json = .ok header ∧
    header = cookieStart ++ (lib.cookieText key iv random json ++ cookieEnd) ∧
    (∀ c ∈ lib.cookieText key iv random json, c ∉ separators) ∧ header.length + 1 ≤ charactersSize

/-! ## When it is -/

section InLines

variable {lib : Library J} {key : Bytes 32} {iv : Bytes 16} {random : UInt32} {json : J}

/-- Base64 has no separator in it. -/
theorem notMem_separators (s : List UInt8) : ∀ c ∈ base64 s, c ∉ separators := by
  have hplain : (base64Pad :: base64Alphabet).all fun c => c ∉ separators := by decide
  exact fun c hc => of_decide_eq_true (List.all_eq_true.mp hplain c (mem_base64 s c hc))

/-- The length of the text, from that of the JSON. -/
theorem length_cookieText (h : lib.InLines) : (lib.cookieText key iv random json).length
    = 4 * ((roundup ((lib.print json).length + headerSize) 16 + 2) / 3) := by
  have hblocks : 16 ∣ (lib.payload random json).length := by
    rw [length_payload, roundup]
    exact Nat.dvd_mul_left _ _
  rw [Library.cookieText, length_base64, h.length_encrypt _ _ _ hblocks, length_payload]

/-- What is written, when it is: the encoder's text, without its last character. -/
theorem header_of_gmWriteCookie (h : lib.InLines) {header : List UInt8}
    (hwrite : gmWriteCookie lib key iv random json = .ok header) : header = cookieStart ++
      ((breakLines lineWidth (lib.cookieText key iv random json)).dropLast ++ cookieEnd) := by
  simp only [gmWriteCookie, h.base64Encode] at hwrite
  split_ifs at hwrite
  exact (Except.ok.inj hwrite).symm

/-- A text of one line is written as it is. -/
theorem gmWriteCookie_of_le (h : lib.InLines) (hshort : (lib.print json).length ≤ 40) :
    gmWriteCookie lib key iv random json
        = .ok (cookieStart ++ (lib.cookieText key iv random json ++ cookieEnd)) ∧
      (lib.cookieText key iv random json).length ≤ lineWidth := by
  have htext : (lib.cookieText key iv random json).length = _ := length_cookieText h
  have hpayload := length_payload lib random json
  simp only [roundup, headerSize] at htext hpayload
  have hwidth : (lib.cookieText key iv random json).length ≤ lineWidth := by
    rw [lineWidth]
    omega
  have hne : lib.cookieText key iv random json ≠ [] := List.ne_nil_of_length_pos (by omega)
  have hvalue : (lib.base64Encode (lib.encrypt key iv (lib.payload random json))).dropLast
      = lib.cookieText key iv random json := by
    rw [h.base64Encode]
    exact (congrArg List.dropLast (breakLines_of_le hne hwidth)).trans List.dropLast_concat
  refine ⟨?_, hwidth⟩
  rw [gmWriteCookie, if_neg, if_neg, if_neg]
  · dsimp only
    rw [hvalue, if_neg]
    simp only [cookieDataSize, payloadDataSize, payloadSize, roundup, headerSize, length_cookieEnd]
    omega
  · rw [hpayload, encryptedSize, payloadSize, headerSize]
    omega
  · simp only [payloadDataSize, payloadSize, padding, roundup, headerSize]
    omega
  · simp only [payloadDataSize, payloadSize, roundup, headerSize]
    omega

/-- A text of more lines is not. -/
theorem not_setsCookie_of_lt (h : lib.InLines) (hlong : 40 < (lib.print json).length) :
    ¬ SetsCookie lib key iv random json := by
  rintro ⟨header, hwrite, hheader, hplain, -⟩
  have htext : (lib.cookieText key iv random json).length = _ := length_cookieText h
  simp only [roundup, headerSize] at htext
  have hfeed : lineFeed ∈ (breakLines lineWidth (lib.cookieText key iv random json)).dropLast :=
    mem_dropLast_breakLines (by decide) (by rw [lineWidth]; omega)
  rw [header_of_gmWriteCookie h hwrite] at hheader
  have hvalue := List.append_cancel_right (List.append_cancel_left hheader)
  rw [hvalue] at hfeed
  exact hplain lineFeed hfeed List.mem_cons_self

/-- **The header is right exactly when the JSON has at most 40 bytes.** -/
theorem setsCookie_iff (h : lib.InLines) :
    SetsCookie lib key iv random json ↔ (lib.print json).length ≤ 40 := by
  constructor
  · intro hsets
    by_contra hlong
    exact not_setsCookie_of_lt h (Nat.lt_of_not_le hlong) hsets
  · intro hshort
    obtain ⟨hwrite, hwidth⟩ := @gmWriteCookie_of_le J lib key iv random json h hshort
    refine ⟨_, hwrite, rfl, notMem_separators _, ?_⟩
    rw [lineWidth] at hwidth
    simp only [List.length_append, charactersSize, cookieDataSize, payloadDataSize, payloadSize,
      roundup, headerSize, length_cookieEnd]
    omega

end InLines

/-! ## A short session and a longer one -/

/-- The text of an empty object, and of one with a name of thirty letters. -/
def sessionText : Bool → List UInt8
  | false => [123, 125]
  | true => [123, 34, 110, 97, 109, 101, 34, 58, 34] ++ List.replicate 30 97 ++ [34, 125]

/-- The longer one's payload under the random word 0x01020304. -/
def longerPayload : List UInt8 :=
  [187, 33, 243, 10, 4, 3, 2, 1] ++ sessionText true ++ List.replicate 15 0

/-- What AES-256-CBC makes of it, under the key 0, 1, 2, … and the vector 0, 1, 2, …. -/
def longerCiphertext : List UInt8 :=
  [223, 105, 102, 193, 18, 184, 79, 34, 242, 75, 194, 113, 252, 230, 167, 210, 68, 72, 81, 189, 101,
    106, 20, 135, 163, 233, 245, 201, 84, 77, 119, 190, 14, 10, 49, 216, 34, 82, 214, 177, 66, 180,
    196, 182, 183, 88, 154, 184, 151, 12, 237, 107, 248, 130, 245, 111, 227, 231, 47, 161, 163, 152,
    137, 232]

/-- A library that does on these what the real ones do, under that key and vector. -/
def sessionLibrary : Library Bool where
  encrypt _ _ b := Equiv.swap longerPayload longerCiphertext (Equiv.swap somePayload someCiphertext b)
  decrypt _ _ b :=
    Equiv.swap somePayload someCiphertext (Equiv.swap longerPayload longerCiphertext b)
  base64Encode b := breakLines lineWidth (base64 b)
  base64Decode := someLibrary.base64Decode
  crc32 b := if b = longerPayload.drop 4 then 0x0af321bb else 0x8e3a6342
  print := sessionText
  parse b := [false, true].find? fun j => b.takeWhile (· ≠ 0) = sessionText j

theorem inLines_sessionLibrary : sessionLibrary.InLines where
  length_encrypt _ _ b _ := by
    have hswap : ∀ {p q : List UInt8}, p.length = q.length → ∀ b,
        (Equiv.swap p q b).length = b.length := by
      intro p q hlength b
      rw [Equiv.swap_apply_def]
      split_ifs with hp hq
      exacts [hp ▸ hlength.symm, hq ▸ hlength, rfl]
    have hsome : somePayload.length = someCiphertext.length := rfl
    have hlonger : longerPayload.length = longerCiphertext.length := rfl
    exact (hswap hlonger _).trans (hswap hsome b)
  base64Encode _ := rfl

theorem setsCookie_empty :
    SetsCookie sessionLibrary (fun i => i.val.toUInt8) (fun i => i.val.toUInt8) 0x01020304 false ↔
      (sessionLibrary.print false).length ≤ 40 :=
  setsCookie_iff inLines_sessionLibrary

/-- **A session of 41 bytes, which the buffer holds, has a line feed in its header.** -/
theorem not_setsCookie_longer : (sessionLibrary.print true).length + 1 ≤ payloadDataSize ∧
    ¬ SetsCookie sessionLibrary (fun i => i.val.toUInt8) (fun i => i.val.toUInt8) 0x01020304 true :=
  ⟨by decide, not_setsCookie_of_lt inLines_sessionLibrary (by decide)⟩

end Session
