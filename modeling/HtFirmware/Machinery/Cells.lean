import Mathlib.Data.List.TakeWhile
import Mathlib.Order.Nat

/-!
# Machinery/Cells — buffers, and which of their cells have been written

`HoldsAt` says what lies in a row of cells.  A `Tracked` memory remembers which of its cells were
written: `patch` writes any of the cells within an area, `write` a list of elements.

`WrittenText` is a text, with the element that ends it, that was written throughout.  What is not
written is what the cells held before, so a buffer with such a text shows nothing of that.  Where texts
are written over each other, each with its end, `WrittenBelow` is how far they have come.
-/

namespace Machinery

variable {α : Type*}

/-! ## Rows of cells -/

/-- **The cells from `a` on hold some elements.** -/
def HoldsAt (cells : ℕ → α) (a : ℕ) (s : List α) : Prop :=
  ∀ i (hi : i < s.length), cells (a + i) = s[i]

/-- What the cells from `a` on hold. -/
def cellsFrom (cells : ℕ → α) (a n : ℕ) : List α := (List.range n).map fun i => cells (a + i)

section HoldsAt

variable {cells cells' : ℕ → α} {a n : ℕ} {s t : List α}

theorem holdsAt_append :
    HoldsAt cells a (s ++ t) ↔ HoldsAt cells a s ∧ HoldsAt cells (a + s.length) t := by
  constructor
  · intro h
    refine ⟨fun i hi => ?_, fun i hi => ?_⟩
    · rw [h i (by rw [List.length_append]; omega), List.getElem_append_left hi]
    · rw [Nat.add_assoc, h (s.length + i) (by rw [List.length_append]; omega),
        List.getElem_append_right (Nat.le_add_right _ _)]
      congr 1
      omega
  · rintro ⟨hs, ht⟩ i hi
    by_cases hlt : i < s.length
    · rw [hs i hlt, List.getElem_append_left hlt]
    · rw [List.length_append] at hi
      have hrest := ht (i - s.length) (by omega)
      rw [List.getElem_append_right (Nat.not_lt.mp hlt), ← hrest]
      congr 1
      omega

theorem holdsAt_nil : HoldsAt cells a [] := fun _ hi => absurd hi (Nat.not_lt_zero _)

theorem holdsAt_singleton {x : α} : HoldsAt cells a [x] ↔ cells a = x := by
  constructor
  · exact fun h => h 0 Nat.one_pos
  · intro h i hi
    obtain rfl := Nat.lt_one_iff.mp hi
    exact h

/-- Cells that are as they were hold what they held. -/
theorem HoldsAt.congr (h : HoldsAt cells a s)
    (hcells : ∀ i, a ≤ i → i < a + s.length → cells' i = cells i) : HoldsAt cells' a s :=
  fun i hi => (hcells _ (by omega) (by omega)).trans (h i hi)

theorem length_cellsFrom (cells : ℕ → α) (a n : ℕ) : (cellsFrom cells a n).length = n := by
  simp [cellsFrom]

theorem holdsAt_cellsFrom (cells : ℕ → α) (a n : ℕ) : HoldsAt cells a (cellsFrom cells a n) :=
  fun i hi => by simp [cellsFrom]

/-- What the cells hold is what they are found to hold. -/
theorem HoldsAt.cellsFrom_eq (h : HoldsAt cells a s) : cellsFrom cells a s.length = s :=
  List.ext_getElem (length_cellsFrom _ _ _) fun i hi hs => by
    rw [← h i hs]
    simp [cellsFrom]

/-- Cells one after the other. -/
theorem cellsFrom_add (cells : ℕ → α) (a n m : ℕ) :
    cellsFrom cells a (n + m) = cellsFrom cells a n ++ cellsFrom cells (a + n) m := by
  simp [cellsFrom, List.range_add, Nat.add_assoc, Function.comp_def]

theorem cellsFrom_congr (h : ∀ i, a ≤ i → i < a + n → cells' i = cells i) :
    cellsFrom cells' a n = cellsFrom cells a n :=
  List.map_congr_left fun i hi => h _ (Nat.le_add_right a i) (by rw [List.mem_range] at hi; omega)

theorem drop_cellsFrom {k : ℕ} (hk : k ≤ n) :
    (cellsFrom cells a n).drop k = cellsFrom cells (a + k) (n - k) := by
  obtain ⟨m, rfl⟩ := Nat.exists_eq_add_of_le hk
  rw [cellsFrom_add, List.drop_left' (length_cellsFrom cells a k), Nat.add_sub_cancel_left]

theorem HoldsAt.mem (h : HoldsAt cells a s) {i : ℕ} (hlow : a ≤ i) (hhigh : i < a + s.length) :
    cells i ∈ s := by
  have hi := h (i - a) (by omega)
  rw [Nat.add_sub_cancel' hlow] at hi
  exact hi ▸ List.getElem_mem _

end HoldsAt

/-! ## The first of a kind -/

/-- `strlen`, where the text ends within `n` cells: the distance to the first `z`. -/
def distanceTo [DecidableEq α] (z : α) (cells : ℕ → α) (a n : ℕ) : Option ℕ :=
  (List.range n).find? fun i => cells (a + i) = z

theorem distanceTo_eq_some [DecidableEq α] {z : α} {cells : ℕ → α} {a n k : ℕ} :
    distanceTo z cells a n = some k ↔
      k < n ∧ cells (a + k) = z ∧ ∀ i < k, cells (a + i) ≠ z := by
  rw [distanceTo, List.find?_range_eq_some]
  simp only [decide_eq_true_eq, List.mem_range, Bool.not_eq_true', decide_eq_false_iff_not]
  exact and_left_comm

theorem distanceTo_eq_none [DecidableEq α] {z : α} {cells : ℕ → α} {a n : ℕ} :
    distanceTo z cells a n = none ↔ z ∉ cellsFrom cells a n := by
  simp [distanceTo, cellsFrom]

/-- The cells up to it, it, and those behind it. -/
theorem cellsFrom_of_distanceTo [DecidableEq α] {z : α} {cells : ℕ → α} {a n k : ℕ}
    (h : distanceTo z cells a n = some k) : z ∉ cellsFrom cells a k ∧
      cellsFrom cells a n = cellsFrom cells a k ++ z :: (cellsFrom cells a n).drop (k + 1) := by
  obtain ⟨hk, hend, hbefore⟩ := distanceTo_eq_some.mp h
  refine ⟨by simpa [cellsFrom] using hbefore, ?_⟩
  obtain ⟨m, rfl⟩ := Nat.exists_eq_add_of_le (Nat.succ_le_of_lt hk)
  have hone : cellsFrom cells (a + k) 1 = [z] := congrArg (fun x => [x]) hend
  rw [drop_cellsFrom hk, Nat.add_sub_cancel_left, cellsFrom_add, ← Nat.add_one, cellsFrom_add, hone,
    List.append_assoc]
  rfl

/-- A text ends where it is found to. -/
theorem HoldsAt.distanceTo_eq [DecidableEq α] {z : α} {cells : ℕ → α} {a n : ℕ} {s : List α}
    (h : HoldsAt cells a (s ++ [z])) (hs : z ∉ s) (hn : s.length < n) :
    distanceTo z cells a n = some s.length := by
  obtain ⟨htext, hend⟩ := holdsAt_append.mp h
  exact distanceTo_eq_some.mpr ⟨hn, holdsAt_singleton.mp hend, fun i hi heq =>
    hs (heq ▸ htext.mem (Nat.le_add_right a i) (by omega))⟩

/-! ## Cells that remember -/

/-- Cells, and which of them have been written. -/
structure Tracked (α : Type*) where
  cells : ℕ → α
  written : ℕ → Bool

namespace Tracked

/-- Nothing has been written. -/
def untouched (cells : ℕ → α) : Tracked α where
  cells := cells
  written := fun _ => false

/-- Write some of the `n` cells from `a` on. -/
def patch (m : Tracked α) (a n : ℕ) (w : ℕ → Option α) : Tracked α where
  cells i := if a ≤ i ∧ i < a + n then (w (i - a)).getD (m.cells i) else m.cells i
  written i := if a ≤ i ∧ i < a + n then (w (i - a)).isSome || m.written i else m.written i

/-- `memcpy`. -/
def write (m : Tracked α) (a : ℕ) (s : List α) : Tracked α := m.patch a s.length fun i => s[i]?

section Patch

variable {m : Tracked α} {a n i : ℕ} {w : ℕ → Option α} {s : List α}

theorem cells_patch_of_outside (h : i < a ∨ a + n ≤ i) : (m.patch a n w).cells i = m.cells i :=
  if_neg (by omega)

theorem written_patch_of_outside (h : i < a ∨ a + n ≤ i) :
    (m.patch a n w).written i = m.written i :=
  if_neg (by omega)

theorem cells_patch (hi : i < n) :
    (m.patch a n w).cells (a + i) = (w i).getD (m.cells (a + i)) := by
  unfold patch
  dsimp only
  rw [if_pos (by omega), Nat.add_sub_cancel_left]

/-- What was written stays so. -/
theorem written_patch (h : m.written i = true) : (m.patch a n w).written i = true := by
  unfold patch
  dsimp only
  split_ifs
  · rw [h, Bool.or_true]
  · exact h

/-- Nothing beyond a bound is written, when nothing was and the area ends before it. -/
theorem lt_of_written_patch {bound : ℕ} (h : ∀ i, m.written i = true → i < bound)
    (hbound : a + n ≤ bound) : ∀ i, (m.patch a n w).written i = true → i < bound := by
  intro i hi
  by_cases hin : a ≤ i ∧ i < a + n
  · omega
  · rw [written_patch_of_outside (by omega)] at hi
    exact h i hi

theorem cells_write_of_outside (h : i < a ∨ a + s.length ≤ i) :
    (m.write a s).cells i = m.cells i := cells_patch_of_outside h

theorem written_write_of_outside (h : i < a ∨ a + s.length ≤ i) :
    (m.write a s).written i = m.written i := written_patch_of_outside h

/-- The elements are in the cells, which are written. -/
theorem holdsAt_write (m : Tracked α) (a : ℕ) (s : List α) : HoldsAt (m.write a s).cells a s := by
  intro i hi
  change (if a ≤ a + i ∧ a + i < a + s.length then _ else _) = _
  rw [if_pos (by omega), Nat.add_sub_cancel_left]
  exact congrArg (Option.getD · _) (List.getElem?_eq_getElem hi)

/-- The cells that a list is written to hold it, and behind it what they held. -/
theorem cellsFrom_write (m : Tracked α) (a : ℕ) {s : List α} (hs : s.length ≤ n) :
    cellsFrom (m.write a s).cells a n = s ++ (cellsFrom m.cells a n).drop s.length := by
  obtain ⟨k, rfl⟩ := Nat.exists_eq_add_of_le hs
  rw [cellsFrom_add, (m.holdsAt_write a s).cellsFrom_eq, drop_cellsFrom hs, Nat.add_sub_cancel_left]
  exact congrArg (s ++ ·) (cellsFrom_congr fun i hi _ => cells_write_of_outside (.inr hi))

theorem written_write (hlow : a ≤ i) (hhigh : i < a + s.length) :
    (m.write a s).written i = true := by
  change (if a ≤ i ∧ i < a + s.length then _ else _) = _
  have helement : s[i - a]? = some s[i - a] := List.getElem?_eq_getElem (by omega)
  rw [if_pos ⟨hlow, hhigh⟩]
  exact congrArg (fun o => Option.isSome o || m.written i) helement

theorem patch_none (m : Tracked α) (a n : ℕ) : (m.patch a n fun _ => none) = m := by
  simp [patch]

/-- A list within an area. -/
theorem patch_eq_write (m : Tracked α) (a : ℕ) (hs : s.length ≤ n) :
    (m.patch a n fun i => s[i]?) = m.write a s := by
  unfold write patch
  rw [Tracked.mk.injEq]
  constructor <;> funext i
  all_goals
    dsimp only
    by_cases hin : a ≤ i ∧ i < a + s.length
    · rw [if_pos hin, if_pos (by omega)]
    · rw [if_neg hin]
      split_ifs with harea
      · rw [List.getElem?_eq_none (by omega)]
        rfl
      · rfl

end Patch

/-- **Between `a` and `stop` there is a text, ended by `z`, that was written throughout.** -/
def WrittenText (z : α) (m : Tracked α) (a stop : ℕ) : Prop :=
  ∃ n, (a ≤ n ∧ n < stop) ∧ m.cells n = z ∧ (∀ i, a ≤ i → i < n → m.cells i ≠ z) ∧
    ∀ i, a ≤ i → i ≤ n → m.written i = true

section WrittenText

variable {z : α} {m m' : Tracked α} {a b stop : ℕ}

/-- **Cells without an end of their own are written, and a text behind them.** -/
theorem writtenText_iff (hab : a ≤ b) (h : ∀ i, a ≤ i → i < b → m.cells i ≠ z) :
    WrittenText z m a stop ↔
      (∀ i, a ≤ i → i < b → m.written i = true) ∧ WrittenText z m b stop := by
  constructor
  · rintro ⟨n, hn, hend, htext, hwritten⟩
    have hbn : b ≤ n := by
      by_contra hlt
      exact h n hn.1 (by omega) hend
    exact ⟨fun i hlow hhigh => hwritten i hlow (by omega), n, ⟨hbn, hn.2⟩, hend,
      fun i hlow => htext i (by omega), fun i hlow => hwritten i (by omega)⟩
  · rintro ⟨hbefore, n, hn, hend, htext, hwritten⟩
    refine ⟨n, ⟨by omega, hn.2⟩, hend, fun i hlow hhigh => ?_, fun i hlow hhigh => ?_⟩
    · by_cases hi : i < b
      · exact h i hlow hi
      · exact htext i (by omega) hhigh
    · by_cases hi : i < b
      · exact hbefore i hlow hi
      · exact hwritten i (by omega) hhigh

/-- A text that ends at once. -/
theorem writtenText_self (hend : m.cells a = z) (ha : a < stop) :
    WrittenText z m a stop ↔ m.written a = true := by
  constructor
  · rintro ⟨n, hn, -, -, hwritten⟩
    exact hwritten a le_rfl hn.1
  · intro hwritten
    refine ⟨a, ⟨le_rfl, ha⟩, hend, fun i hlow hhigh => absurd hhigh (by omega), ?_⟩
    intro i hlow hhigh
    obtain rfl : i = a := by omega
    exact hwritten

/-- A text that ends where it is found to. -/
theorem writtenText_of_distanceTo [DecidableEq α] {k n : ℕ}
    (h : distanceTo z m.cells a k = some n) (hstop : a + k ≤ stop) :
    WrittenText z m a stop ↔ ∀ i ≤ n, m.written (a + i) = true := by
  obtain ⟨hn, hend, htext⟩ := distanceTo_eq_some.mp h
  have hbefore : ∀ i, a ≤ i → i < a + n → m.cells i ≠ z := fun i hlow hhigh => by
    have hi := htext (i - a) (by omega)
    rwa [Nat.add_sub_cancel' hlow] at hi
  rw [writtenText_iff (Nat.le_add_right a n) hbefore, writtenText_self hend (by omega)]
  constructor
  · rintro ⟨hwritten, hlast⟩ i hi
    rcases hi.lt_or_eq with hlt | rfl
    · exact hwritten _ (by omega) (by omega)
    · exact hlast
  · intro hwritten
    refine ⟨fun i hlow hhigh => ?_, hwritten n le_rfl⟩
    have hi := hwritten (i - a) (by omega)
    rwa [Nat.add_sub_cancel' hlow] at hi

/-- Cells that are as they were, and no less written, hold the text they held. -/
theorem writtenText_congr
    (h : ∀ i, a ≤ i → m'.cells i = m.cells i ∧ m'.written i = m.written i) :
    WrittenText z m' a stop ↔ WrittenText z m a stop := by
  have hcells : ∀ n, a ≤ n → m'.cells n = m.cells n := fun n hn => (h n hn).1
  have hwritten : ∀ n, a ≤ n → m'.written n = m.written n := fun n hn => (h n hn).2
  refine exists_congr fun n => and_congr_right fun hn => ?_
  rw [hcells n hn.1]
  refine and_congr_right fun _ => and_congr ?_ ?_
  · exact forall₂_congr fun i hi => by rw [hcells i hi]
  · exact forall₂_congr fun i hi => by rw [hwritten i hi]

end WrittenText

/-- **The cells before `k` have been written, and no others.** -/
def WrittenBelow (m : Tracked α) (k : ℕ) : Prop := ∀ i, m.written i = true ↔ i < k

section WrittenBelow

variable {z : α} {m : Tracked α} {a k stop : ℕ} {s : List α}

/-- What is written there goes on from them, or further. -/
theorem WrittenBelow.write (h : m.WrittenBelow k) (ha : a ≤ k) (s : List α) :
    (m.write a s).WrittenBelow (max k (a + s.length)) := by
  intro i
  by_cases hin : a ≤ i ∧ i < a + s.length
  · exact iff_of_true (written_write hin.1 hin.2) (by omega)
  · rw [written_write_of_outside (by omega), h i]
    omega

/-- The last of them, after an end is written before it or as the last. -/
theorem cells_last_write (hlast : a + s.length + 1 < k → m.cells (k - 1) = z) :
    (m.write a (s ++ [z])).cells (max k (a + s.length + 1) - 1) = z := by
  obtain hk | hk := Nat.lt_or_ge (a + s.length + 1) k
  · rw [max_eq_left hk.le, cells_write_of_outside (.inr (by simp; omega))]
    exact hlast hk
  · rw [max_eq_right hk]
    exact holdsAt_singleton.mp (holdsAt_append.mp (m.holdsAt_write a (s ++ [z]))).2

/-- **A text that was written begins at each of them**, if the last ends one. -/
theorem WrittenBelow.writtenText_iff (h : m.WrittenBelow k) (hlast : m.cells (k - 1) = z)
    (hstop : k ≤ stop) : WrittenText z m a stop ↔ a < k := by
  constructor
  · rintro ⟨n, hn, -, -, hwritten⟩
    exact (h a).mp (hwritten a le_rfl hn.1)
  · intro ha
    classical
    have hends : ∃ n, a ≤ n ∧ m.cells n = z := ⟨k - 1, by omega, hlast⟩
    obtain ⟨hlow, hend⟩ := Nat.find_spec hends
    have hhigh : Nat.find hends ≤ k - 1 := Nat.find_min' hends ⟨by omega, hlast⟩
    exact ⟨Nat.find hends, ⟨hlow, by omega⟩, hend,
      fun i hi hbefore heq => Nat.find_min hends hbefore ⟨hi, heq⟩, fun i _ hi => (h i).mpr (by omega)⟩

end WrittenBelow

end Tracked

end Machinery
