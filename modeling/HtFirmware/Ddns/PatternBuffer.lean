import HtFirmware.Ddns.PatternString
import HtFirmware.Machinery.Cells

/-!
# Ddns/PatternBuffer — the pattern, the buffer and the pointer into it

    0              out               out + |leading|            size
    | text so far  | leading          | name ∅ ⋯                |

`gm_pattern_string` keeps a pointer to the end of the text and the number of bytes left from there on.
A literal is copied to the pointer, and a name after it; the coroutine reads the name and writes its
replacement there.  The loop here has both, and the buffer remembers which of its bytes this call has
written.

The pointer and the number stay in step (`Loop.Sound`), so that the text so far and the bytes left, which
is what `patternLoop` has instead of them, are the buffer (`gmPatternString_lift`).
-/

open Machinery
open Web (Fault index length_of_index index_append index_of_notMem eq_of_index)

namespace Ddns.InPlace

/-! ## The function -/

/-- `gm_pattern_coroutine_t`: from the number of calls before, the memory from the name on, where its
output goes as well, and the size it is given, what it writes there and its status. -/
abbrev GmPatternCoroutine := ℕ → (ℕ → Char) → UInt32 → (ℕ → Option Char) × ℤ

/-- The variables of the loop; `replies` is what each call of the coroutine left, the string or all of its
area, with its status. -/
structure Loop where
  start : CString
  output : Tracked Char
  out : ℕ
  bufferSize : UInt32
  replies : List (CString × ℤ)

/-- What a call leaves: its result, the buffer, and the argument of `GM_FAIL`. -/
structure Returned where
  result : Except Fault ℤ
  output : Tracked Char
  replies : List (CString × ℤ)
  failure : Option CString

/-- What a turn of the loop comes to. -/
inductive Turn where
  | next (s : Loop)
  | returned (p : Returned)

/-- `GM_FAIL`, and `return -1`. -/
def Loop.fail (s : Loop) (failure : CString) : Turn :=
  .returned ⟨.ok (-1), s.output, s.replies, some failure⟩

/-- Copy what precedes a placeholder. -/
def Loop.copy (s : Loop) (leading : CString) : Loop :=
  { s with
    output := s.output.write s.out leading
    out := s.out + leading.length
    bufferSize := s.bufferSize - UInt32.ofNat leading.length }

/-- Copy a name, and end it. -/
def Loop.copyName (s : Loop) (name : CString) : Loop :=
  { s with output := s.output.write s.out (name ++ ['\x00']) }

/-- What the coroutine says to a name that has been copied. -/
def Loop.reply (coroutine : GmPatternCoroutine) (s : Loop) : (ℕ → Option Char) × ℤ :=
  coroutine s.replies.length (fun i => s.output.cells (s.out + i)) s.bufferSize

/-- The buffer after that. -/
def Loop.replaced (coroutine : GmPatternCoroutine) (s : Loop) : Tracked Char :=
  s.output.patch s.out s.bufferSize.toNat (s.reply coroutine).1

/-- Call the coroutine. -/
def Loop.call (coroutine : GmPatternCoroutine) (s : Loop) (after : CString) : Turn :=
  match distanceTo '\x00' (s.replaced coroutine).cells s.out s.bufferSize.toNat with
  | none =>
    let area := cellsFrom (s.replaced coroutine).cells s.out s.bufferSize.toNat
    .returned ⟨.error .overread, s.replaced coroutine,
      s.replies ++ [(area, (s.reply coroutine).2)], none⟩
  | some resultSize =>
    let out := cellsFrom (s.replaced coroutine).cells s.out resultSize
    let status := (s.reply coroutine).2
    let s :=
      { s with output := s.replaced coroutine, replies := s.replies ++ [(out, status)] }
    if status = 0 then
      .next { s with
        start := after
        out := s.out + resultSize
        bufferSize := s.bufferSize - UInt32.ofNat resultSize }
    else s.fail ("No replacement for: ".toList ++ out ++ ", ".toList ++ (toString status).toList)

/-- One turn of the loop. -/
def turn (coroutine : GmPatternCoroutine) (s : Loop) : Turn :=
  if s.start = [] then .returned ⟨.ok 0, s.output, s.replies, none⟩
  else
    match index '{' s.start with
    | none =>
      if (s.bufferSize - 1).toNat < s.start.length then
        { s with output := s.output.write 0 ['\x00'] }.fail
          "Out of space for replacement string.".toList
      else .returned ⟨.ok 0, s.output.write s.out (s.start ++ ['\x00']), s.replies, none⟩
    | some (leading, var) =>
      match index '}' var with
      | none => s.fail ("Missing '\x7d' character in replacement string: ".toList ++ '{' :: var)
      | some (name, after) =>
        if name = [] then s.fail "Replacement string name missing.".toList
        else if '{' ∈ name then
          s.fail ("Missing '\x7d' character in replacement string: ".toList ++ '{' :: var)
        else if (s.bufferSize - 1).toNat < leading.length then
          s.fail "Out of space for replacement string.".toList
        else if ((s.copy leading).bufferSize - 1).toNat < name.length then
          (s.copy leading).fail
            (("Replacement name too large, out of space in output string, " ++
              "or missing '\x7d': ").toList ++ '{' :: var)
        else ((s.copy leading).copyName name).call coroutine after

/-! ## Turns -/

/-- The next placeholder, with the text before and after it. -/
def nextField (start : CString) : Option (CString × CString × CString) :=
  (index '{' start).bind fun opened => (index '}' opened.2).bind fun closed =>
    if closed.1 ≠ [] ∧ '{' ∉ closed.1 then some (opened.1, closed.1, closed.2) else none

section Turn

variable {coroutine : GmPatternCoroutine} {s t : Loop} {leading name after : CString}

/-- A turn that comes to a placeholder. -/
theorem turn_of_nextField (h : nextField s.start = some (leading, name, after)) :
    turn coroutine s =
      if (s.bufferSize - 1).toNat < leading.length then
        s.fail "Out of space for replacement string.".toList
      else if ((s.copy leading).bufferSize - 1).toNat < name.length then
        (s.copy leading).fail
          (("Replacement name too large, out of space in output string, " ++
            "or missing '\x7d': ").toList ++ '{' :: (name ++ '}' :: after))
      else ((s.copy leading).copyName name).call coroutine after := by
  obtain ⟨⟨before, var⟩, hopen, h⟩ := Option.bind_eq_some_iff.mp h
  obtain ⟨⟨within, rest⟩, hclose, h⟩ := Option.bind_eq_some_iff.mp h
  dsimp only at hclose h
  split_ifs at h with hname
  obtain ⟨rfl, hnames⟩ := Prod.mk.inj (Option.some.inj h)
  obtain ⟨rfl, rfl⟩ := Prod.mk.inj hnames
  have hstart : s.start ≠ [] := by
    rw [(eq_of_index hopen).1]
    simp
  unfold turn
  rw [if_neg hstart, hopen]
  dsimp only
  rw [hclose]
  dsimp only
  rw [if_neg hname.1, if_neg hname.2, (eq_of_index hclose).1]

/-- A turn that comes to something else in braces, or to a brace left open. -/
theorem turn_of_malformed (coroutine : GmPatternCoroutine) (hopen : '{' ∈ s.start)
    (h : nextField s.start = none) :
    ∃ failure, turn coroutine s = s.fail failure := by
  unfold turn
  unfold nextField at h
  rw [if_neg (List.ne_nil_of_mem hopen)]
  cases hindex : index '{' s.start with
  | none => exact absurd hopen (Web.notMem_of_index hindex)
  | some opened =>
    rw [hindex, Option.bind_some] at h
    dsimp only
    cases hclose : index '}' opened.2 with
    | none => exact ⟨_, rfl⟩
    | some closed =>
      rw [hclose, Option.bind_some] at h
      dsimp only at h ⊢
      split_ifs at h with hname
      by_cases hempty : closed.1 = []
      · exact ⟨_, if_pos hempty⟩
      · rw [if_neg hempty, if_pos (by_contra fun hbrace => hname ⟨hempty, hbrace⟩)]
        exact ⟨_, rfl⟩

/-- A turn that comes to the last literal. -/
theorem turn_of_notMem (hne : s.start ≠ []) (h : '{' ∉ s.start) :
    turn coroutine s =
      if (s.bufferSize - 1).toNat < s.start.length then
        { s with output := s.output.write 0 ['\x00'] }.fail
          "Out of space for replacement string.".toList
      else .returned ⟨.ok 0, s.output.write s.out (s.start ++ ['\x00']), s.replies, none⟩ := by
  unfold turn
  rw [if_neg hne, index_of_notMem h]

end Turn

/-! ## The loop -/

section Room

variable {coroutine : GmPatternCoroutine} {size : UInt32} {s t : Loop} {leading name after : CString}

/-- **The pointer and the number of bytes left are in step**; what has been written is inside the
buffer, and the text so far is a text. -/
structure Loop.Sound (size : UInt32) (s : Loop) : Prop where
  room : s.out + s.bufferSize.toNat = size.toNat
  pos : 0 < s.bufferSize.toNat
  inside : ∀ i, s.output.written i = true → i < size.toNat
  text : ∀ i < s.out, s.output.cells i ≠ '\x00'

/-- The last byte is kept for a null. -/
theorem toNat_sub_one (hpos : 0 < s.bufferSize.toNat) :
    (s.bufferSize - 1).toNat = s.bufferSize.toNat - 1 := by
  have hone : (1 : UInt32).toNat = 1 := rfl
  rw [UInt32.toNat_sub_of_le _ _ (UInt32.le_iff_toNat_le.mpr (hone ▸ hpos)), hone]

theorem room_lt_iff (hpos : 0 < s.bufferSize.toNat) (n : ℕ) :
    (s.bufferSize - 1).toNat < n ↔ s.bufferSize.toNat ≤ n := by
  rw [toNat_sub_one hpos]
  omega

/-- Fewer bytes are left by as many as were used. -/
theorem toNat_sub_ofNat {n : ℕ} (hn : n < s.bufferSize.toNat) :
    (s.bufferSize - UInt32.ofNat n).toNat = s.bufferSize.toNat - n := by
  have htoNat : (UInt32.ofNat n).toNat = n :=
    UInt32.toNat_ofNat_of_lt' (hn.trans s.bufferSize.toNat_lt)
  rw [UInt32.toNat_sub_of_le _ _ (UInt32.le_iff_toNat_le.mpr (by omega)), htoNat]

/-- A literal that fits is copied inside the buffer, and the text goes on. -/
theorem Loop.Sound.copy (h : s.Sound size) (hfits : leading.length < s.bufferSize.toNat)
    (hplain : '\x00' ∉ leading) : (s.copy leading).Sound size := by
  have hroom := h.room
  have hleft := toNat_sub_ofNat hfits
  refine ⟨?_, ?_, Tracked.lt_of_written_patch h.inside (by omega), fun i hi => ?_⟩
  · change s.out + leading.length + (s.bufferSize - _).toNat = _
    omega
  · change 0 < (s.bufferSize - _).toNat
    omega
  · by_cases hout : i < s.out
    · exact fun hnull => h.text i hout ((Tracked.cells_write_of_outside (.inl hout)).symm.trans hnull)
    · have hmem := (s.output.holdsAt_write s.out leading).mem (Nat.not_lt.mp hout) hi
      exact fun hnull => hplain (hnull ▸ hmem)

/-- A name that fits is copied inside the buffer. -/
theorem Loop.Sound.copyName (h : s.Sound size) (name : CString)
    (hfits : name.length < s.bufferSize.toNat) :
    (s.copyName name).Sound size := by
  have hroom := h.room
  refine ⟨hroom, h.pos, Tracked.lt_of_written_patch h.inside ?_, fun i hi => ?_⟩
  · rw [List.length_append, List.length_singleton]
    omega
  · exact fun hnull => h.text i hi ((Tracked.cells_write_of_outside (.inl hi)).symm.trans hnull)

/-- What the coroutine writes in its area is inside the buffer. -/
theorem Loop.Sound.replaced (h : s.Sound size) :
    (∀ i, (s.replaced coroutine).written i = true → i < size.toNat) ∧
      ∀ i < s.out, (s.replaced coroutine).cells i ≠ '\x00' := by
  have hroom := h.room
  refine ⟨Tracked.lt_of_written_patch h.inside (by omega), fun i hi => ?_⟩
  rw [Loop.replaced, Tracked.cells_patch_of_outside (.inl hi)]
  exact h.text i hi

/-- **What a call of the coroutine comes to**: an area without an end, another turn, or a failure. -/
theorem call_cases (coroutine : GmPatternCoroutine) (s : Loop) (after : CString) :
    (distanceTo '\x00' (s.replaced coroutine).cells s.out s.bufferSize.toNat = none ∧
      ∃ area, s.call coroutine after = .returned ⟨.error .overread, s.replaced coroutine,
        s.replies ++ [(area, (s.reply coroutine).2)], none⟩) ∨
    ∃ n, distanceTo '\x00' (s.replaced coroutine).cells s.out s.bufferSize.toNat = some n ∧
      (((s.reply coroutine).2 = 0 ∧ s.call coroutine after = .next
        ⟨after, s.replaced coroutine, s.out + n, s.bufferSize - UInt32.ofNat n,
          s.replies ++ [(cellsFrom (s.replaced coroutine).cells s.out n, 0)]⟩) ∨
      ((s.reply coroutine).2 ≠ 0 ∧ ∃ failure, s.call coroutine after = .returned
        ⟨.ok (-1), s.replaced coroutine, s.replies ++
          [(cellsFrom (s.replaced coroutine).cells s.out n, (s.reply coroutine).2)], failure⟩)) := by
  unfold Loop.call
  cases hend : distanceTo '\x00' (s.replaced coroutine).cells s.out s.bufferSize.toNat with
  | none => exact .inl ⟨rfl, _, rfl⟩
  | some n =>
    refine .inr ⟨n, rfl, ?_⟩
    dsimp only
    by_cases hstatus : (s.reply coroutine).2 = 0
    · rw [if_pos hstatus, hstatus]
      exact .inl ⟨rfl, rfl⟩
    · rw [if_neg hstatus]
      exact .inr ⟨hstatus, _, rfl⟩

/-- **After a replacement the pointer is at the null that ends it.** -/
theorem Loop.Sound.next (h : s.Sound size) (after : CString) (replies : List (CString × ℤ)) {n : ℕ}
    (hend : distanceTo '\x00' (s.replaced coroutine).cells s.out s.bufferSize.toNat = some n) :
    Loop.Sound size ⟨after, s.replaced coroutine, s.out + n, s.bufferSize - UInt32.ofNat n, replies⟩ ∧
      (s.replaced coroutine).cells (s.out + n) = '\x00' := by
  obtain ⟨hn, hnull, htext⟩ := distanceTo_eq_some.mp hend
  have hroom := h.room
  have hleft := toNat_sub_ofNat hn
  refine ⟨⟨?_, ?_, h.replaced.1, fun i hi => ?_⟩, hnull⟩
  · change s.out + n + (s.bufferSize - _).toNat = _
    omega
  · change 0 < (s.bufferSize - _).toNat
    omega
  · by_cases hout : i < s.out
    · exact h.replaced.2 i hout
    · have hi' := htext (i - s.out) (by change i < s.out + n at hi; omega)
      rwa [Nat.add_sub_cancel' (Nat.not_lt.mp hout)] at hi'

end Room

theorem nextField_of_notMem {start : CString} (h : '{' ∉ start) : nextField start = none := by
  rw [nextField, index_of_notMem h]
  rfl

theorem eq_of_nextField {start leading name after : CString}
    (h : nextField start = some (leading, name, after)) :
    start = leading ++ '{' :: (name ++ '}' :: after) := by
  obtain ⟨⟨before, var⟩, hopen, h⟩ := Option.bind_eq_some_iff.mp h
  obtain ⟨⟨within, rest⟩, hclose, h⟩ := Option.bind_eq_some_iff.mp h
  dsimp only at hclose h
  split_ifs at h
  obtain ⟨rfl, hnames⟩ := Prod.mk.inj (Option.some.inj h)
  obtain ⟨rfl, rfl⟩ := Prod.mk.inj hnames
  rw [(eq_of_index hopen).1, (eq_of_index hclose).1]

/-- **Another turn follows only a replacement.** -/
theorem turn_eq_next {coroutine : GmPatternCoroutine} {s t : Loop} (h : turn coroutine s = .next t) :
    ∃ leading name after, nextField s.start = some (leading, name, after) ∧
      ¬ (s.bufferSize - 1).toNat < leading.length ∧
      ¬ ((s.copy leading).bufferSize - 1).toNat < name.length ∧
      ((s.copy leading).copyName name).call coroutine after = .next t := by
  by_cases hne : s.start = []
  · rw [turn, if_pos hne] at h
    cases h
  by_cases hopen : '{' ∈ s.start
  · cases hfield : nextField s.start with
    | none =>
      obtain ⟨failure, hfail⟩ := turn_of_malformed coroutine hopen hfield
      rw [hfail] at h
      cases h
    | some field =>
      obtain ⟨leading, name, after⟩ := field
      rw [turn_of_nextField hfield] at h
      split_ifs at h with hleading hname
      · cases h
      · cases h
      · exact ⟨leading, name, after, rfl, hleading, hname, h⟩
  · rw [turn_of_notMem hne hopen] at h
    split_ifs at h
    cases h

theorem length_turn {coroutine : GmPatternCoroutine} {s t : Loop}
    (h : turn coroutine s = .next t) : t.start.length < s.start.length := by
  obtain ⟨leading, name, after, hfield, -, -, hcall⟩ := turn_eq_next h
  obtain ⟨-, area, hover⟩ | ⟨n, -, ⟨-, hnext⟩ | ⟨-, failure, hfail⟩⟩ :=
    call_cases coroutine ((s.copy leading).copyName name) after
  · rw [hover] at hcall
    cases hcall
  · rw [hnext] at hcall
    obtain rfl := Turn.next.inj hcall
    rw [eq_of_nextField hfield]
    simp only [List.length_append, List.length_cons]
    omega
  · rw [hfail] at hcall
    cases hcall

/-- **A turn that goes on leaves a sound state**, the pointer at a null, and less of the pattern. -/
theorem Loop.Sound.turn {coroutine : GmPatternCoroutine} {size : UInt32} {s t : Loop}
    (h : s.Sound size) (hplain : '\x00' ∉ s.start)
    (hturn : turn coroutine s = .next t) :
    t.Sound size ∧ t.output.cells t.out = '\x00' ∧ '\x00' ∉ t.start := by
  obtain ⟨leading, name, after, hfield, hleading, hname, hcall⟩ := turn_eq_next hturn
  have hstart := eq_of_nextField hfield
  rw [hstart] at hplain
  simp only [List.mem_append, List.mem_cons, not_or] at hplain
  have hcopied := h.copy (by have := (not_congr (room_lt_iff h.pos _)).mp hleading; omega) hplain.1
  have hnamed := hcopied.copyName name
    (by have := (not_congr (room_lt_iff hcopied.pos _)).mp hname; omega)
  obtain ⟨-, area, hover⟩ | ⟨n, hend, ⟨-, hnext⟩ | ⟨-, failure, hfail⟩⟩ :=
    call_cases coroutine ((s.copy leading).copyName name) after
  · rw [hover] at hcall
    cases hcall
  · obtain rfl := Turn.next.inj (hnext.symm.trans hcall)
    obtain ⟨hsound, hnull⟩ := hnamed.next after _ hend
    exact ⟨hsound, hnull, hplain.2.2.2.2⟩
  · rw [hfail] at hcall
    cases hcall

/-- The loop. -/
def run (coroutine : GmPatternCoroutine) (s : Loop) : Returned :=
  match _h : turn coroutine s with
  | .next t => run coroutine t
  | .returned p => p
termination_by s.start.length
decreasing_by exact length_turn _h

/-- Where the loop starts: the buffer is ended at once. -/
def first (string : CString) (cells : ℕ → Char) (bufferSize : UInt32) : Loop where
  start := string
  output := (Tracked.untouched cells).write 0 ['\x00']
  out := 0
  bufferSize := bufferSize
  replies := []

/-- `gm_pattern_string`, with what the buffer and the memory after it held before. -/
def gmPatternString (string : CString) (coroutine : GmPatternCoroutine) (cells : ℕ → Char)
    (bufferSize : UInt32) : Returned :=
  run coroutine (first string cells bufferSize)

/-- The loop starts from a sound state, with an empty text. -/
theorem sound_first (string : CString) (cells : ℕ → Char) {size : UInt32} (hsize : 1 ≤ size) :
    (first string cells size).Sound size ∧ (first string cells size).output.cells 0 = '\x00' := by
  have hpos : 1 ≤ size.toNat := UInt32.le_iff_toNat_le.mp hsize
  refine ⟨⟨Nat.zero_add _, hpos, ?_, nofun⟩, Tracked.holdsAt_write _ 0 ['\x00'] 0 Nat.one_pos⟩
  have hnone : ∀ i, (Tracked.untouched cells).written i = true → i < size.toNat :=
    fun i hi => nomatch hi
  exact Tracked.lt_of_written_patch hnone hpos

/-! ## The text and the bytes left -/

/-- A coroutine that has the bytes of its area, as one that has the memory from its name on. -/
def lift (coroutine : Coroutine) : GmPatternCoroutine := fun _ cells size =>
  let area := cellsFrom cells 0 size.toNat
  let reply := coroutine (area.takeWhile (· ≠ '\x00')) area
  (fun i => reply.1[i]?, reply.2)

/-- The text up to the pointer. -/
def Loop.written (s : Loop) : CString := cellsFrom s.output.cells 0 s.out

/-- The bytes left, from the pointer on. -/
def Loop.rest (s : Loop) : List Char := cellsFrom s.output.cells s.out s.bufferSize.toNat

/-- What a run leaves is what the text and the bytes left come to. -/
def Returned.Leaves (size : UInt32) (p : Returned) : Except Fault Patterned → Prop
  | .error fault => p.result = .error fault
  | .ok q => p.result = .ok q.result ∧ p.failure = q.failure ∧
      cellsFrom p.output.cells 0 size.toNat = q.written ++ q.rest

section Lift

variable {coroutine : Coroutine} {size : UInt32} {s : Loop} {leading name after : CString}

theorem length_rest (s : Loop) : s.rest.length = s.bufferSize.toNat := length_cellsFrom _ _ _

/-- The text and the bytes left are the buffer. -/
theorem Loop.Sound.cellsFrom_eq (h : s.Sound size) :
    cellsFrom s.output.cells 0 size.toNat = s.written ++ s.rest := by
  rw [← h.room, cellsFrom_add, Nat.zero_add, Loop.written, Loop.rest]

/-- `strlen` goes as far as the bytes do. -/
theorem stringAt_cellsFrom (cells : ℕ → Char) (a n : ℕ) : stringAt (cellsFrom cells a n) =
    match distanceTo '\x00' cells a n with
    | none => .error .overread
    | some k => .ok (cellsFrom cells a k) := by
  cases hend : distanceTo '\x00' cells a n with
  | none => exact if_neg (distanceTo_eq_none.mp hend)
  | some k =>
    obtain ⟨hplain, hsplit⟩ := cellsFrom_of_distanceTo hend
    rw [hsplit, stringAt_append hplain]

theorem written_copy (leading : CString) : (s.copy leading).written = s.written ++ leading := by
  change cellsFrom (s.output.write s.out leading).cells 0 (s.out + leading.length) = _
  rw [cellsFrom_add, Nat.zero_add, (s.output.holdsAt_write s.out leading).cellsFrom_eq]
  exact congrArg (· ++ leading) (cellsFrom_congr fun i _ hi =>
    Tracked.cells_write_of_outside (.inl (by omega)))

theorem rest_copy (hfits : leading.length < s.bufferSize.toNat) :
    (s.copy leading).rest = s.rest.drop leading.length := by
  change cellsFrom (s.output.write s.out leading).cells (s.out + leading.length)
    (s.bufferSize - UInt32.ofNat leading.length).toNat = _
  rw [Loop.rest, drop_cellsFrom hfits.le, toNat_sub_ofNat hfits]
  exact cellsFrom_congr fun i hi _ => Tracked.cells_write_of_outside (.inr hi)

theorem rest_copyName (hfits : name.length < s.bufferSize.toNat) :
    (s.copyName name).rest = overwrite s.rest (name ++ ['\x00']) :=
  Tracked.cellsFrom_write _ _ (by rw [List.length_append, List.length_singleton]; exact hfits)

/-- What is before the pointer is not touched. -/
theorem written_replaced (coroutine : GmPatternCoroutine) (s : Loop) :
    cellsFrom (s.replaced coroutine).cells 0 s.out = s.written :=
  cellsFrom_congr fun i _ hi => Tracked.cells_patch_of_outside (.inl (by omega))

theorem written_copyName (s : Loop) (name : CString) : (s.copyName name).written = s.written :=
  cellsFrom_congr fun i _ (hi : i < 0 + s.out) => Tracked.cells_write_of_outside (.inl (by omega))

theorem reply_lift (coroutine : Coroutine) (s : Loop) : s.reply (lift coroutine) =
    (fun i => (coroutine (s.rest.takeWhile (· ≠ '\x00')) s.rest).1[i]?,
      (coroutine (s.rest.takeWhile (· ≠ '\x00')) s.rest).2) := by
  have harea : cellsFrom (fun i => s.output.cells (s.out + i)) 0 s.bufferSize.toNat = s.rest := by
    simp [cellsFrom, Loop.rest]
  rw [Loop.reply, lift, harea]

/-- What is after it is what the coroutine made of it. -/
theorem rest_replaced (hkeeps : (coroutine (s.rest.takeWhile (· ≠ '\x00')) s.rest).1.length
      = s.rest.length) :
    cellsFrom (s.replaced (lift coroutine)).cells s.out s.bufferSize.toNat =
      (coroutine (s.rest.takeWhile (· ≠ '\x00')) s.rest).1 := by
  rw [length_rest] at hkeeps
  refine List.ext_getElem ((length_cellsFrom _ _ _).trans hkeeps.symm) fun i hi hi' => ?_
  rw [← holdsAt_cellsFrom _ _ _ i hi, Loop.replaced, Tracked.cells_patch (hkeeps ▸ hi'), reply_lift]
  dsimp only
  rw [List.getElem?_eq_getElem hi']
  rfl

/-- The text so far, after a reply. -/
theorem written_next (coroutine : GmPatternCoroutine) (s : Loop) (n : ℕ) :
    cellsFrom (s.replaced coroutine).cells 0 (s.out + n) =
      s.written ++ cellsFrom (s.replaced coroutine).cells s.out n := by
  rw [cellsFrom_add, Nat.zero_add, written_replaced]

/-- And the bytes left. -/
theorem rest_next (coroutine : GmPatternCoroutine) {n : ℕ} (hn : n < s.bufferSize.toNat) :
    cellsFrom (s.replaced coroutine).cells (s.out + n) (s.bufferSize - UInt32.ofNat n).toNat =
      (cellsFrom (s.replaced coroutine).cells s.out s.bufferSize.toNat).drop n := by
  rw [toNat_sub_ofNat hn, drop_cellsFrom hn.le]

/-- The buffer after a reply. -/
theorem cellsFrom_replaced (h : s.Sound size) (coroutine : GmPatternCoroutine) :
    cellsFrom (s.replaced coroutine).cells 0 size.toNat =
      s.written ++ cellsFrom (s.replaced coroutine).cells s.out s.bufferSize.toNat :=
  h.room ▸ written_next coroutine s _

/-- The buffer without its text, where what is left of the pattern does not fit. -/
theorem cellsFrom_crowded (h : s.Sound size) :
    cellsFrom (s.output.write 0 ['\x00']).cells 0 size.toNat = '\x00' :: (s.written ++ s.rest).tail := by
  have hpos := h.pos
  have hsize := h.room
  rw [Tracked.cellsFrom_write _ _ (by rw [List.length_singleton]; omega), h.cellsFrom_eq,
    List.length_singleton, List.drop_one]
  rfl

/-- The buffer with it. -/
theorem cellsFrom_final (h : s.Sound size) (hfits : s.start.length < s.bufferSize.toNat) :
    cellsFrom (s.output.write s.out (s.start ++ ['\x00'])).cells 0 size.toNat =
      s.written ++ overwrite s.rest (s.start ++ ['\x00']) := by
  rw [← h.room, cellsFrom_add, Nat.zero_add, Tracked.cellsFrom_write _ _
    (by rw [List.length_append, List.length_singleton]; exact hfits)]
  exact congrArg (· ++ _) (cellsFrom_congr fun i _ hi =>
    Tracked.cells_write_of_outside (.inl (by omega)))

/-- **One turn of either loop comes to the same.** -/
theorem turn_lift (hkeeps : ∀ name bytes, (coroutine name bytes).1.length = bytes.length)
    (h : s.Sound size) (hplain : '\x00' ∉ s.start) :
    (∃ p, turn (lift coroutine) s = .returned p ∧
      p.Leaves size (patternLoop coroutine s.start s.written s.rest)) ∨
    ∃ t, turn (lift coroutine) s = .next t ∧
      patternLoop coroutine s.start s.written s.rest =
        patternLoop coroutine t.start t.written t.rest := by
  have hroom : (s.bufferSize - 1).toNat = s.rest.length - 1 := by
    rw [toNat_sub_one h.pos, length_rest]
  rw [patternLoop]
  unfold turn
  by_cases hne : s.start = []
  · rw [if_pos hne, if_pos hne]
    exact .inl ⟨_, rfl, rfl, rfl, h.cellsFrom_eq⟩
  rw [if_neg hne, if_neg hne, hroom]
  cases hopen : index '{' s.start with
  | none =>
    dsimp only
    by_cases hcrowded : s.rest.length - 1 < s.start.length
    · rw [if_pos hcrowded, if_pos hcrowded]
      exact .inl ⟨_, rfl, rfl, rfl, cellsFrom_crowded h⟩
    · rw [if_neg hcrowded, if_neg hcrowded]
      rw [length_rest] at hcrowded
      have hpos := h.pos
      exact .inl ⟨_, rfl, rfl, rfl, cellsFrom_final h (by omega)⟩
  | some opened =>
    obtain ⟨leading, var⟩ := opened
    obtain ⟨hstart, -⟩ := eq_of_index hopen
    dsimp only
    cases hclose : index '}' var with
    | none => exact .inl ⟨_, rfl, rfl, rfl, h.cellsFrom_eq⟩
    | some closed =>
      obtain ⟨name, after⟩ := closed
      obtain ⟨hvar, -⟩ := eq_of_index hclose
      rw [hstart, hvar] at hplain
      simp only [List.mem_append, List.mem_cons, not_or] at hplain
      dsimp only
      by_cases hempty : name = []
      · rw [if_pos hempty, if_pos hempty]
        exact .inl ⟨_, rfl, rfl, rfl, h.cellsFrom_eq⟩
      rw [if_neg hempty, if_neg hempty]
      by_cases hbrace : '{' ∈ name
      · rw [if_pos hbrace, if_pos hbrace]
        exact .inl ⟨_, rfl, rfl, rfl, h.cellsFrom_eq⟩
      rw [if_neg hbrace, if_neg hbrace]
      by_cases hleading : s.rest.length - 1 < leading.length
      · rw [if_pos hleading, if_pos hleading]
        exact .inl ⟨_, rfl, rfl, rfl, h.cellsFrom_eq⟩
      rw [if_neg hleading, if_neg hleading]
      rw [length_rest] at hleading
      have hpos := h.pos
      have hcopied := h.copy (by omega) hplain.1
      have hleft : ((s.copy leading).bufferSize - 1).toNat
          = (s.rest.drop leading.length).length - 1 := by
        rw [toNat_sub_one hcopied.pos, ← rest_copy (by omega), length_rest]
      rw [hleft, ← rest_copy (by omega), ← written_copy]
      by_cases hname : (s.copy leading).rest.length - 1 < name.length
      · rw [if_pos hname, if_pos hname]
        exact .inl ⟨_, rfl, rfl, rfl, hcopied.cellsFrom_eq⟩
      rw [if_neg hname, if_neg hname]
      rw [length_rest] at hname
      have hpos := hcopied.pos
      have hcalled := hcopied.copyName name (by omega)
      have harea : ((s.copy leading).copyName name).rest =
          overwrite (s.copy leading).rest (name ++ ['\x00']) := rest_copyName (by omega)
      have htake : ((s.copy leading).copyName name).rest.takeWhile (· ≠ '\x00') = name := by
        rw [harea, overwrite, List.append_assoc]
        exact takeWhile_ne_cons hplain.2.2.1 _
      rw [← harea, ← written_copyName (s.copy leading) name]
      generalize (s.copy leading).copyName name = called at *
      have hreply := reply_lift coroutine called
      have hrest := rest_replaced (hkeeps _ called.rest)
      rw [htake] at hreply hrest
      rw [← hrest, stringAt_cellsFrom]
      unfold Loop.call
      rw [hreply]
      cases hend : distanceTo '\x00' (called.replaced (lift coroutine)).cells called.out
          called.bufferSize.toNat with
      | none => exact .inl ⟨_, rfl, rfl⟩
      | some n =>
        dsimp only
        by_cases hzero : (coroutine name called.rest).2 = 0
        · rw [if_pos hzero, if_pos hzero]
          have hn := (distanceTo_eq_some.mp hend).1
          refine .inr ⟨_, rfl, ?_⟩
          rw [length_cellsFrom]
          exact (congrArg₂ (patternLoop coroutine after) (written_next _ called n)
            (rest_next _ hn)).symm
        · rw [if_neg hzero, if_neg hzero]
          exact .inl ⟨_, rfl, rfl, rfl, cellsFrom_replaced hcalled _⟩

/-- **Either loop leaves the same.** -/
theorem run_lift (hkeeps : ∀ name bytes, (coroutine name bytes).1.length = bytes.length)
    (h : s.Sound size) (hplain : '\x00' ∉ s.start) :
    (run (lift coroutine) s).Leaves size (patternLoop coroutine s.start s.written s.rest) := by
  fun_induction run (lift coroutine) s with
  | case1 s t hturn ih =>
    obtain ⟨hsound, -, hplain'⟩ := h.turn hplain hturn
    obtain ⟨p, hp, -⟩ | ⟨u, hu, hsame⟩ := turn_lift hkeeps h hplain
    · exact absurd (hturn.symm.trans hp) nofun
    · obtain rfl := Turn.next.inj (hturn.symm.trans hu)
      rw [hsame]
      exact ih hsound hplain'
  | case2 s p hturn =>
    obtain ⟨q, hq, hleaves⟩ | ⟨u, hu, -⟩ := turn_lift hkeeps h hplain
    · obtain rfl := Turn.returned.inj (hturn.symm.trans hq)
      exact hleaves
    · exact absurd (hturn.symm.trans hu) nofun

/-- **The pointers come to what the text and the bytes left do.** -/
theorem gmPatternString_lift (hkeeps : ∀ name bytes, (coroutine name bytes).1.length = bytes.length)
    {string : CString} (hstring : '\x00' ∉ string) (cells : ℕ → Char) (hsize : 1 ≤ size) :
    (gmPatternString string (lift coroutine) cells size).Leaves size
      (Ddns.gmPatternString string coroutine (cellsFrom cells 0 size.toNat)) := by
  obtain ⟨hsound, -⟩ := sound_first string cells hsize
  have hrest : (first string cells size).rest = overwrite (cellsFrom cells 0 size.toNat) ['\x00'] :=
    Tracked.cellsFrom_write _ 0 (UInt32.le_iff_toNat_le.mp hsize)
  rw [Ddns.gmPatternString, ← hrest]
  exact run_lift hkeeps hsound hstring

end Lift

end Ddns.InPlace
