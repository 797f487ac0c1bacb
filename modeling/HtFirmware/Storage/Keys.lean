import HtFirmware.Storage.Nvs

/-!
# Storage/Keys — the cookie keys, from one boot to the next

At each boot `initialize` reads the AES key, the cookie's initialization vector and the HMAC key from
the store, and makes new ones, and stores them, if any of them is not there or not valid.

Two slips make it do so at every boot: the HMAC key is never stored, as the third call stores the
initialization vector again, and its size is compared with that of the vector.  So the keys persist
only where the store already held an `hmac_key` of sixteen bytes (`persists_iff`).
-/

open Machinery

namespace Nvs

/-! ## A boot -/

/-- The keys of the global `GM`, and the one the AES context is set to. -/
structure CryptoKeys where
  aesKey : Bytes 32
  aesCookieIv : Bytes 16
  hmacKey : Bytes 64

/-- What a boot is given: what is in the memory of `aes_key`, the random bytes, and how the calls
that store them come out. -/
structure BootInput where
  stack : Bytes 32 := fun _ => 0
  random : CryptoKeys
  setKeyErr : EspErr := .ok
  setIvErr : EspErr := .ok
  setHmacKeyErr : EspErr := .ok
  commitErr : EspErr := .ok

/-- What a boot leaves: the keys in use, the store, and what it was told to store. -/
structure Boot where
  keys : CryptoKeys
  blobs : Blobs
  writes : List (String × List UInt8)

/-- The first word of a key, as the validity check reads it. -/
def firstWord {n : ℕ} (b : Bytes n) : UInt32 :=
  let byte (i : ℕ) := if h : i < n then b ⟨i, h⟩ else 0
  load32 (byte 0) (byte 1) (byte 2) (byte 3)

/-- The part of `initialize` that sets up the keys. -/
def initializeKeys (blobs : Blobs) (input : BootInput) : Boot :=
  let blob1 := getBlob blobs "aes_key" input.stack
  let blob2 := getBlob (n := 16) blobs "cookie_iv" fun _ => 0
  let blob3 := getBlob (n := 64) blobs "hmac_key" fun _ => 0
  if blob1.err ≠ .ok ∨ blob2.err ≠ .ok ∨ blob3.err ≠ .ok ∨ blob1.size ≠ 32 ∨ blob2.size ≠ 16 ∨
      blob3.size ≠ 16 ∨ firstWord blob1.buffer = 0 ∨ firstWord blob2.buffer = 0 ∨
      firstWord blob3.buffer = 0 then
    let key := ("aes_key", List.ofFn input.random.aesKey)
    let iv := ("cookie_iv", List.ofFn input.random.aesCookieIv)
    -- The third call stores the vector again, where the HMAC key is meant.
    { keys := input.random
      blobs := setBlob (setBlob (setBlob blobs key.1 key.2 input.setKeyErr)
        iv.1 iv.2 input.setIvErr) iv.1 iv.2 input.setHmacKeyErr
      writes := [key, iv, iv] }
  else
    { keys := ⟨blob1.buffer, blob2.buffer, blob3.buffer⟩, blobs := blobs, writes := [] }

/-- The boots that follow one another, nothing else touching the store. -/
def boots : Blobs → List BootInput → List Boot
  | _, [] => []
  | blobs, input :: inputs =>
    initializeKeys blobs input :: boots (initializeKeys blobs input).blobs inputs

/-! ## What is promised, and when it is kept -/

/-- Every later boot has the keys of the first one, and stores nothing. -/
def Persists (blobs : Blobs) (first : BootInput) : Prop :=
  ∀ later : List BootInput, ∀ b ∈ boots (initializeKeys blobs first).blobs later,
    b.keys = (initializeKeys blobs first).keys ∧ b.writes = []

/-- All the writes of a boot succeed. -/
structure BootInput.Stores (input : BootInput) : Prop where
  key : input.setKeyErr = .ok
  iv : input.setIvErr = .ok
  hmacKey : input.setHmacKeyErr = .ok
  commit : input.commitErr = .ok

/-- No key begins with a zero word. -/
structure CryptoKeys.Nonzero (keys : CryptoKeys) : Prop where
  aesKey : firstWord keys.aesKey ≠ 0
  aesCookieIv : firstWord keys.aesCookieIv ≠ 0
  hmacKey : firstWord keys.hmacKey ≠ 0

/-- The store holds a blob of `size` bytes that does not begin, in a buffer of `n`, with a zero
word. -/
structure Holds (blobs : Blobs) (name : String) (n size : ℕ) (blob : List UInt8) : Prop where
  stored : blobs name = some blob
  length : blob.length = size
  nonzero : firstWord (overlay (n := n) (fun _ => 0) blob) ≠ 0

/-- The store already holds an `hmac_key` of sixteen bytes; and either the other two keys are there,
or the key made up is those sixteen bytes and zeros. -/
def PersistsByChance (blobs : Blobs) (first : BootInput) : Prop :=
  ∃ hmacKey, Holds blobs "hmac_key" 64 16 hmacKey ∧
    (((∃ key, Holds blobs "aes_key" 32 32 key) ∧ ∃ iv, Holds blobs "cookie_iv" 16 16 iv) ∨
      first.random.hmacKey = overlay (fun _ => 0) hmacKey)

/-! ## One boot -/

/-- A blob passes the checks on it. -/
structure Got.Passes {n : ℕ} (g : Got n) (size : ℕ) : Prop where
  err : g.err = .ok
  size : g.size = size
  nonzero : firstWord g.buffer ≠ 0

section Passes

variable {blobs : Blobs} {name : String} {n size : ℕ} {buffer : Bytes n}

/-- A buffer that is filled, or was zero, is what the blob makes of zeros. -/
theorem overlay_zeros (hbuffer : size = n ∨ buffer = fun _ => 0) {blob : List UInt8}
    (h : blob.length = size) : overlay buffer blob = overlay (fun _ => 0) blob := by
  obtain hn | rfl := hbuffer
  · exact overlay_of_length (h.trans hn) _ _
  · rfl

/-- A blob that passes is in the store. -/
theorem Got.Passes.holds (hbuffer : size = n ∨ buffer = fun _ => 0)
    (h : (getBlob blobs name buffer).Passes size) : ∃ blob, Holds blobs name n size blob ∧
      (getBlob blobs name buffer).buffer = overlay (fun _ => 0) blob := by
  obtain ⟨herr, hlen, hne⟩ := h
  obtain ⟨blob, hblob, -, hgot⟩ := getBlob_ok_iff.mp herr
  rw [hgot] at hlen hne ⊢
  rw [overlay_zeros hbuffer hlen] at hne ⊢
  exact ⟨blob, ⟨hblob, hlen, hne⟩, rfl⟩

/-- A blob in the store passes. -/
theorem Holds.passes (hsize : size ≤ n) (hbuffer : size = n ∨ buffer = fun _ => 0)
    {blob : List UInt8} (h : Holds blobs name n size blob) :
    (getBlob blobs name buffer).Passes size := by
  have hgot : getBlob blobs name buffer = ⟨.ok, overlay buffer blob, blob.length⟩ := by
    have := h.length
    rw [getBlob, h.stored]
    exact if_neg (by omega)
  rw [hgot, overlay_zeros hbuffer h.length]
  exact ⟨rfl, h.length, h.nonzero⟩

theorem Holds.unique {blob blob' : List UInt8} (h : Holds blobs name n size blob)
    (h' : Holds blobs name n size blob') : blob = blob' :=
  Option.some.inj (h.stored.symm.trans h'.stored)

/-- A key just stored is in the store. -/
theorem holds_ofFn {k : Bytes n} (hstored : blobs name = some (List.ofFn k))
    (hk : firstWord k ≠ 0) : Holds blobs name n n (List.ofFn k) :=
  ⟨hstored, List.length_ofFn, by rwa [overlay_ofFn]⟩

end Passes

/-- The store has three blobs that pass, and they make these keys. -/
structure Valid (blobs : Blobs) (keys : CryptoKeys) : Prop where
  aesKey : ∃ blob, Holds blobs "aes_key" 32 32 blob ∧ keys.aesKey = overlay (fun _ => 0) blob
  aesCookieIv : ∃ blob, Holds blobs "cookie_iv" 16 16 blob ∧
    keys.aesCookieIv = overlay (fun _ => 0) blob
  hmacKey : ∃ blob, Holds blobs "hmac_key" 64 16 blob ∧ keys.hmacKey = overlay (fun _ => 0) blob

variable {blobs : Blobs} {keys keys' : CryptoKeys} {first : BootInput}

theorem Valid.unique (h : Valid blobs keys) (h' : Valid blobs keys') : keys = keys' := by
  obtain ⟨⟨a, ha, hka⟩, ⟨b, hb, hkb⟩, ⟨c, hc, hkc⟩⟩ := h
  obtain ⟨⟨a', ha', hka'⟩, ⟨b', hb', hkb'⟩, ⟨c', hc', hkc'⟩⟩ := h'
  obtain ⟨aesKey, aesCookieIv, hmacKey⟩ := keys
  obtain ⟨aesKey', aesCookieIv', hmacKey'⟩ := keys'
  obtain rfl := ha.unique ha'
  obtain rfl := hb.unique hb'
  obtain rfl := hc.unique hc'
  exact CryptoKeys.mk.injEq .. ▸ ⟨hka.trans hka'.symm, hkb.trans hkb'.symm, hkc.trans hkc'.symm⟩

/-- **A boot, either way**: a store with three blobs that pass gives it its keys, and is left alone;
any other makes it store its own, though not the HMAC key. -/
theorem initializeKeys_cases (blobs : Blobs) (input : BootInput) :
    (Valid blobs (initializeKeys blobs input).keys ∧ (initializeKeys blobs input).blobs = blobs ∧
        (initializeKeys blobs input).writes = []) ∨
      ((∀ keys, ¬ Valid blobs keys) ∧ (initializeKeys blobs input).keys = input.random ∧
        (initializeKeys blobs input).writes ≠ [] ∧
        (initializeKeys blobs input).blobs "hmac_key" = blobs "hmac_key" ∧
        (input.Stores →
          (initializeKeys blobs input).blobs "aes_key" = some (List.ofFn input.random.aesKey) ∧
          (initializeKeys blobs input).blobs "cookie_iv"
            = some (List.ofFn input.random.aesCookieIv))) := by
  by_cases h : (getBlob blobs "aes_key" input.stack).Passes 32 ∧
      (getBlob (n := 16) blobs "cookie_iv" fun _ => 0).Passes 16 ∧
      (getBlob (n := 64) blobs "hmac_key" fun _ => 0).Passes 16
  · obtain ⟨h1, h2, h3⟩ := h
    have hboot : initializeKeys blobs input = ⟨⟨(getBlob blobs "aes_key" input.stack).buffer,
        (getBlob (n := 16) blobs "cookie_iv" fun _ => 0).buffer,
        (getBlob (n := 64) blobs "hmac_key" fun _ => 0).buffer⟩, blobs, []⟩ := by
      rw [initializeKeys, if_neg]
      simp [h1.err, h1.size, h1.nonzero, h2.err, h2.size, h2.nonzero, h3.err, h3.size, h3.nonzero]
    rw [hboot]
    exact Or.inl ⟨⟨h1.holds (Or.inl rfl), h2.holds (Or.inl rfl), h3.holds (Or.inr rfl)⟩, rfl, rfl⟩
  · refine Or.inr ?_
    rw [initializeKeys, if_pos]
    · refine ⟨fun keys hvalid => h ?_, rfl, List.cons_ne_nil _ _, ?_, fun hstores => ?_⟩
      · obtain ⟨⟨a, ha, -⟩, ⟨b, hb, -⟩, ⟨c, hc, -⟩⟩ := hvalid
        exact ⟨ha.passes (Nat.le_refl _) (Or.inl rfl), hb.passes (Nat.le_refl _) (Or.inl rfl),
          hc.passes (by decide) (Or.inr rfl)⟩
      · simp only [setBlob_of_ne _ _ _ (show "hmac_key" ≠ "cookie_iv" by decide),
          setBlob_of_ne _ _ _ (show "hmac_key" ≠ "aes_key" by decide)]
      · simp only [hstores.key, hstores.hmacKey, setBlob_ok, and_true,
          setBlob_of_ne _ _ _ (show "aes_key" ≠ "cookie_iv" by decide)]
    · by_contra hall
      simp only [not_or, not_not, ne_eq] at hall
      obtain ⟨he1, he2, he3, hs1, hs2, hs3, hw1, hw2, hw3⟩ := hall
      exact h ⟨⟨he1, hs1, hw1⟩, ⟨he2, hs2, hw2⟩, ⟨he3, hs3, hw3⟩⟩

/-- **With three blobs that pass, every boot has their keys and stores nothing.** -/
theorem boots_of_valid (h : Valid blobs keys) : ∀ inputs : List BootInput, ∀ b ∈ boots blobs inputs,
    b.keys = keys ∧ b.writes = [] := by
  intro inputs
  induction inputs with
  | nil => exact fun b hb => absurd hb List.not_mem_nil
  | cons input inputs ih =>
    obtain ⟨hvalid, hblobs, hwrites⟩ | ⟨hnone, -⟩ := initializeKeys_cases blobs input
    · refine List.forall_mem_cons.mpr ⟨⟨hvalid.unique h, hwrites⟩, ?_⟩
      rw [hblobs]
      exact ih
    · exact absurd h (hnone keys)

/-! ## Later boots -/

/-- **The keys persist only by chance.** -/
theorem persists_iff (blobs : Blobs) (first : BootInput) (hstores : first.Stores)
    (hrandom : first.random.Nonzero) : Persists blobs first ↔ PersistsByChance blobs first := by
  obtain ⟨hvalid, hblobs, hwrites⟩ | ⟨hnone, hkeys, hwrites, hhmac, hstored⟩ :=
    initializeKeys_cases blobs first
  · obtain ⟨⟨a, ha, -⟩, ⟨b, hb, -⟩, ⟨c, hc, -⟩⟩ := id hvalid
    refine iff_of_true (fun later => ?_) ⟨c, hc, Or.inl ⟨⟨a, ha⟩, b, hb⟩⟩
    rw [hblobs]
    exact boots_of_valid hvalid later
  · constructor
    · intro hpersists
      obtain ⟨hkeys', hwrites'⟩ := hpersists [first] _ List.mem_cons_self
      obtain ⟨hvalid, -⟩ | ⟨-, -, hne, -⟩ :=
        initializeKeys_cases (initializeKeys blobs first).blobs first
      · rw [hkeys', hkeys] at hvalid
        obtain ⟨c, hc, hck⟩ := hvalid.hmacKey
        exact ⟨c, ⟨hhmac.symm.trans hc.stored, hc.length, hc.nonzero⟩, Or.inr hck⟩
      · exact absurd hwrites' hne
    · rintro ⟨c, hc, ⟨⟨a, ha⟩, b, hb⟩ | heq⟩
      · exact absurd ⟨⟨a, ha, rfl⟩, ⟨b, hb, rfl⟩, ⟨c, hc, rfl⟩⟩
          (hnone ⟨overlay (fun _ => 0) a, overlay (fun _ => 0) b, overlay (fun _ => 0) c⟩)
      · obtain ⟨hkey, hiv⟩ := hstored hstores
        intro later
        rw [hkeys]
        exact boots_of_valid ⟨⟨_, holds_ofFn hkey hrandom.aesKey, (overlay_ofFn _ _).symm⟩,
          ⟨_, holds_ofFn hiv hrandom.aesCookieIv, (overlay_ofFn _ _).symm⟩,
          ⟨c, ⟨hhmac.trans hc.stored, hc.length, hc.nonzero⟩, heq⟩⟩ later

/-! ## A new device -/

/-- Every random byte is one. -/
def ones : BootInput where
  random := ⟨fun _ => 1, fun _ => 1, fun _ => 1⟩

theorem persists_ones : Persists (fun _ => none) ones ↔ PersistsByChance (fun _ => none) ones :=
  persists_iff _ ones ⟨rfl, rfl, rfl, rfl⟩ ⟨by decide, by decide, by decide⟩

/-- **A device that starts with an empty store makes new keys at its second boot.** -/
theorem not_persists_ones : ones.Stores ∧ ones.random.Nonzero ∧ ¬ Persists (fun _ => none) ones := by
  refine ⟨⟨rfl, rfl, rfl, rfl⟩, ⟨by decide, by decide, by decide⟩, fun h => ?_⟩
  obtain ⟨-, hwrites⟩ := h [ones] _ List.mem_cons_self
  cases hwrites

end Nvs
