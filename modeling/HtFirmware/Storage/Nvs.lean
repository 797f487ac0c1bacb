import HtFirmware.Machinery.ByteOrder

/-!
# Storage/Nvs — the non-volatile store

A namespace of the store is a map from names to values.  `getBlob` is what the firmware relies on of
`nvs_get_blob`: a blob longer than the buffer is refused, a shorter one leaves the rest of the buffer
as it was, and the size stored is reported.
-/

open Machinery

namespace Nvs

/-- What a call to the store comes back with. -/
inductive EspErr where
  | ok
  | notFound
  | invalidLength
  | other
  deriving DecidableEq

abbrev Blobs := String → Option (List UInt8)

/-- A buffer that a blob has been read into. -/
def overlay {n : ℕ} (buffer : Bytes n) (blob : List UInt8) : Bytes n := fun i =>
  (blob[i.val]?).getD (buffer i)

/-- The result of `nvs_get_blob`: its error, the buffer, and the size. -/
structure Got (n : ℕ) where
  err : EspErr
  buffer : Bytes n
  size : ℕ

/-- `nvs_get_blob`, into a buffer of `n` bytes. -/
def getBlob {n : ℕ} (blobs : Blobs) (name : String) (buffer : Bytes n) : Got n :=
  match blobs name with
  | none => ⟨.notFound, buffer, n⟩
  | some blob =>
    if n < blob.length then ⟨.invalidLength, buffer, blob.length⟩
    else ⟨.ok, overlay buffer blob, blob.length⟩

/-- `nvs_set_blob`, which may fail. -/
def setBlob (blobs : Blobs) (name : String) (blob : List UInt8) (err : EspErr) : Blobs :=
  if err = .ok then Function.update blobs name (some blob) else blobs

theorem setBlob_ok (blobs : Blobs) (name : String) (blob : List UInt8) :
    setBlob blobs name blob .ok name = some blob := Function.update_self _ _ _

theorem setBlob_of_ne (blobs : Blobs) {name other : String} (blob : List UInt8) (err : EspErr)
    (h : other ≠ name) : setBlob blobs name blob err other = blobs other := by
  unfold setBlob
  split_ifs
  exacts [Function.update_of_ne h _ _, rfl]

section Overlay

variable {n : ℕ}

/-- A blob that fills the buffer leaves nothing of it. -/
theorem overlay_of_length {blob : List UInt8} (h : blob.length = n) (b b' : Bytes n) :
    overlay b blob = overlay b' blob := by
  funext i
  have hi : i.val < blob.length := h ▸ i.isLt
  simp only [overlay, List.getElem?_eq_getElem hi, Option.getD_some]

/-- A buffer is read back as it was stored. -/
theorem overlay_ofFn (b k : Bytes n) : overlay b (List.ofFn k) = k := by
  funext i
  simp [overlay]

/-- A blob is read whole when it fits. -/
theorem getBlob_ok_iff {blobs : Blobs} {name : String} {buffer : Bytes n} :
    (getBlob blobs name buffer).err = .ok ↔ ∃ blob, blobs name = some blob ∧ blob.length ≤ n ∧
      getBlob blobs name buffer = ⟨.ok, overlay buffer blob, blob.length⟩ := by
  unfold getBlob
  cases blobs name with
  | none => simp
  | some blob =>
    by_cases h : n < blob.length
    · simp [h]
    · simp [h, Nat.le_of_not_lt h]

end Overlay

end Nvs
