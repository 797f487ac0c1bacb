import HtFirmware.Machinery.ByteOrder

/-!
# Machinery/Memory — bytes at addresses

A memory gives every address a byte.  `load` reads a fixed number of bytes and `store` writes them:
`store_of_lt` says what an address within reach of a store holds, `store_of_outside` what any other
does.  `foldl_apply` is the rule for a sequence of writers: an address keeps what the last of them to
touch it left there.

`offsets` lays out the members of a C structure.
-/

namespace Machinery

/-- A byte at every address. -/
abbrev Memory := ℕ → UInt8

/-! ## Loads and stores -/

/-- The bytes from an address on. -/
def load (n : ℕ) (m : Memory) (a : ℕ) : Bytes n := fun i => m (a + i)

/-- Write bytes from an address on. -/
def store {n : ℕ} (m : Memory) (a : ℕ) (b : Bytes n) : Memory := fun j =>
  if h : a ≤ j ∧ j < a + n then b ⟨j - a, by omega⟩ else m j

/-- The word at an address. -/
def loadWord (m : Memory) (a : ℕ) : UInt32 := load32 (m a) (m (a + 1)) (m (a + 2)) (m (a + 3))

section Store

variable {n : ℕ} {m : Memory} {a c j : ℕ}

@[simp] theorem load_apply (m : Memory) (a : ℕ) (i : Fin n) : load n m a i = m (a + i) := rfl

/-- A store does not reach past its bytes. -/
theorem store_of_outside (b : Bytes n) (h : j < a ∨ a + n ≤ j) : store m a b j = m j := by
  rw [store, dif_neg (by omega)]

/-- A store writes its bytes. -/
@[simp] theorem store_add (b : Bytes n) (i : Fin n) : store m a b (a + i) = b i := by
  rw [store, dif_pos (by omega)]
  congr
  omega

/-- A store, read at an offset from its address. -/
theorem store_of_lt (b : Bytes n) {i : ℕ} (hi : i < n) : store m a b (a + i) = b ⟨i, hi⟩ :=
  store_add b ⟨i, hi⟩

/-- What was stored is loaded. -/
@[simp] theorem load_store (b : Bytes n) : load n (store m a b) a = b := funext (store_add b)

/-- A load beside a store finds what was there. -/
theorem load_of_outside {k : ℕ} (b : Bytes k) (h : c + n ≤ a ∨ a + k ≤ c) :
    load n (store m a b) c = load n m c :=
  funext fun i => store_of_outside b (by omega)

/-- A word outside a store is what it was. -/
theorem loadWord_of_outside (b : Bytes n) (h : j + 3 < a ∨ a + n ≤ j) :
    loadWord (store m a b) j = loadWord m j := by
  unfold loadWord
  rw [store_of_outside b (by omega), store_of_outside b (by omega), store_of_outside b (by omega),
    store_of_outside b (by omega)]

/-- A word within a store is the one its bytes make. -/
theorem loadWord_of_lt (b : Bytes n) {i : ℕ} (hi : i + 3 < n) :
    loadWord (store m a b) (a + i) = load32 (b ⟨i, by omega⟩) (b ⟨i + 1, by omega⟩)
      (b ⟨i + 2, by omega⟩) (b ⟨i + 3, hi⟩) := by
  unfold loadWord
  rw [Nat.add_assoc, Nat.add_assoc, Nat.add_assoc, store_of_lt b (by omega), store_of_lt b (by omega),
    store_of_lt b (by omega), store_of_lt b hi]

/-- Stores at the same distance from two addresses read the same from there. -/
theorem store_shift {m' : Memory} {b : Bytes n} {a' i : ℕ} (h : m (a + i) = m' (a' + i)) :
    store m (a + c) b (a + i) = store m' (a' + c) b (a' + i) := by
  by_cases hi : c ≤ i ∧ i < c + n
  · obtain ⟨i, rfl⟩ := Nat.exists_eq_add_of_le hi.1
    rw [← Nat.add_assoc, ← Nat.add_assoc, store_of_lt b (by omega), store_of_lt b (by omega)]
  · rw [store_of_outside b (by omega), store_of_outside b (by omega), h]

/-- Two memories agree on some bytes when they agree on each. -/
theorem load_eq_iff {m' : Memory} : load n m' a = load n m a ↔ ∀ i < n, m' (a + i) = m (a + i) := by
  rw [funext_iff, Fin.forall_iff]
  rfl

end Store

/-! ## Sequences of writers -/

section Writers

variable {δ : Type*} {write : Memory → δ → Memory} {p : δ → Bool} {byte : δ → UInt8} {j : ℕ}

/-- **The last writer wins**: where the writers that meet `p` write an address, and the others leave
it alone, the address keeps what the last of the former wrote. -/
theorem foldl_apply (hw : ∀ m d, write m d j = if p d then byte d else m j) (m : Memory)
    (ds : List δ) : ds.foldl write m j = ((ds.filter p).getLast?.map byte).getD (m j) := by
  induction ds using List.reverseRecOn with
  | nil => rfl
  | append_singleton ds d ih =>
    rw [List.foldl_append, List.foldl_cons, List.foldl_nil, hw, List.filter_append]
    split_ifs with hd
    · rw [List.filter_cons_of_pos hd, List.getLast?_append_cons]
      simp
    · rw [List.filter_cons_of_neg hd, List.filter_nil, List.append_nil, ih]

/-- A sequence of writers leaves an address as it was when the last one to write it wrote what was
there. -/
theorem foldl_apply_eq_iff (hw : ∀ m d, write m d j = if p d then byte d else m j) (m : Memory)
    (ds : List δ) :
    ds.foldl write m j = m j ↔ ∀ d ∈ (ds.filter p).getLast?, byte d = m j := by
  rw [foldl_apply hw]
  cases (ds.filter p).getLast? <;> simp

end Writers

/-! ## Structures -/

/-- The offsets of a structure's members, given their sizes and alignments, from an offset on. -/
def offsets : ℕ → List (ℕ × ℕ) → List ℕ
  | _, [] => []
  | o, (size, align) :: ms =>
    (o + align - 1) / align * align :: offsets ((o + align - 1) / align * align + size) ms

end Machinery
