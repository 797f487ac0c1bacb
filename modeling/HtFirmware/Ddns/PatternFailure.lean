import HtFirmware.Ddns.PatternBuffer
import Mathlib.Logic.Relation

/-!
# Ddns/PatternFailure — what the buffer holds when a pattern fails

`gm_pattern_string` fails in seven ways, and resets the buffer in one.  The others leave the text so far,
with the null that was written after it, if nothing was copied over that: a literal is copied without
one, so a name that does not fit behind it leaves the text open to whatever the buffer held.

`leavesWritten_iff` says when what is left is a string of which every byte was written: where the
coroutine writes strings, whenever a name that does not fit has something behind its literal that an
earlier name or reply left there.  `send_ddns` takes what is left for the address of a request, whatever
the result.
-/

open Machinery

namespace Ddns.InPlace

/-! ## What a failure leaves -/

/-- **After a failure the buffer holds a string that this call has written**, its null as well. -/
def LeavesWritten (size : UInt32) (p : Returned) : Prop :=
  p.result = .ok (-1) → Tracked.WrittenText '\x00' p.output 0 size.toNat

/-- The text so far has been written. -/
def Loop.TextWritten (s : Loop) : Prop := ∀ i < s.out, s.output.written i = true

/-- **What it takes of a state**, if the loop fails there: that the text so far has been written, with
the null after it where nothing is copied; that a written text is behind the literal where the name does
not fit; that what the coroutine leaves where it fails has been written. -/
structure Loop.Covers (coroutine : GmPatternCoroutine) (size : UInt32) (s : Loop) : Prop where
  refused : ('{' ∈ s.start ∧ nextField s.start = none) ∨
      (∃ f, nextField s.start = some f ∧ (s.bufferSize - 1).toNat < f.1.length) →
    s.TextWritten ∧ s.output.written s.out = true
  unnamed : ∀ leading name after, nextField s.start = some (leading, name, after) →
    ¬ (s.bufferSize - 1).toNat < leading.length →
    ((s.copy leading).bufferSize - 1).toNat < name.length →
    s.TextWritten ∧ s.output.WrittenText '\x00' (s.out + leading.length) size.toNat
  unanswered : ∀ leading name after, nextField s.start = some (leading, name, after) →
    ¬ (s.bufferSize - 1).toNat < leading.length →
    ¬ ((s.copy leading).bufferSize - 1).toNat < name.length →
    let called := (s.copy leading).copyName name
    (called.reply coroutine).2 ≠ 0 →
    ∀ n, distanceTo '\x00' (called.replaced coroutine).cells called.out called.bufferSize.toNat = some n →
      s.TextWritten ∧ ∀ i ≤ n, (called.replaced coroutine).written (called.out + i) = true

section Covers

variable {coroutine : GmPatternCoroutine} {size : UInt32} {s t : Loop} {leading name after : CString}

theorem textWritten_copy (leading : CString) : (s.copy leading).TextWritten ↔ s.TextWritten := by
  constructor
  · intro h i hi
    rw [← h i (Nat.lt_add_right _ hi)]
    exact (Tracked.written_write_of_outside (.inl hi)).symm
  · intro h i hi
    by_cases hout : i < s.out
    · exact Tracked.written_patch (h i hout)
    · exact Tracked.written_write (Nat.not_lt.mp hout) hi

theorem textWritten_copyName : (s.copyName name).TextWritten ↔ s.TextWritten :=
  forall₂_congr fun i (hi : i < s.out) => by
    rw [Loop.copyName, Tracked.written_write_of_outside (.inl hi)]

theorem textWritten_replaced (coroutine : GmPatternCoroutine) :
    (∀ i < s.out, (s.replaced coroutine).written i = true) ↔ s.TextWritten :=
  forall₂_congr fun i hi => by
    rw [Loop.replaced, Tracked.written_patch_of_outside (.inl hi)]

/-- The text so far, ended. -/
theorem writtenText_head (h : s.Sound size) (hend : s.output.cells s.out = '\x00') :
    Tracked.WrittenText '\x00' s.output 0 size.toNat ↔
      s.TextWritten ∧ s.output.written s.out = true := by
  have hroom := h.room
  have hpos := h.pos
  rw [Tracked.writtenText_iff (Nat.zero_le s.out) fun i _ => h.text i,
    Tracked.writtenText_self hend (by omega)]
  exact and_congr_left fun _ => forall_congr' fun i => forall_prop_of_true (Nat.zero_le i)

/-- The text so far and a literal, and what was behind it. -/
theorem writtenText_copy (h : (s.copy leading).Sound size) :
    Tracked.WrittenText '\x00' (s.copy leading).output 0 size.toNat ↔
      s.TextWritten ∧ s.output.WrittenText '\x00' (s.out + leading.length) size.toNat := by
  rw [Tracked.writtenText_iff (Nat.zero_le (s.copy leading).out) fun i _ => h.text i]
  refine and_congr ?_ (Tracked.writtenText_congr fun i hi => ?_)
  · rw [← textWritten_copy leading]
    exact forall_congr' fun i => forall_prop_of_true (Nat.zero_le i)
  · exact ⟨Tracked.cells_write_of_outside (.inr hi), Tracked.written_write_of_outside (.inr hi)⟩

/-- The text so far, and what the coroutine leaves. -/
theorem writtenText_replaced (h : s.Sound size) {n : ℕ}
    (hend : distanceTo '\x00' (s.replaced coroutine).cells s.out s.bufferSize.toNat = some n) :
    Tracked.WrittenText '\x00' (s.replaced coroutine) 0 size.toNat ↔
      s.TextWritten ∧ ∀ i ≤ n, (s.replaced coroutine).written (s.out + i) = true := by
  rw [Tracked.writtenText_iff (Nat.zero_le s.out) fun i _ => h.replaced.2 i,
    Tracked.writtenText_of_distanceTo hend h.room.le, ← textWritten_replaced coroutine]
  exact and_congr_left fun _ => forall_congr' fun i => forall_prop_of_true (Nat.zero_le i)

/-- Without a placeholder nothing is asked. -/
theorem covers_of_notMem (h : '{' ∉ s.start) : s.Covers coroutine size := by
  have hnone := nextField_of_notMem h
  refine ⟨?_, ?_, ?_⟩
  · rintro (⟨hopen, -⟩ | ⟨f, hf, -⟩)
    · exact absurd hopen h
    · rw [hnone] at hf
      cases hf
  · intro leading name after hf
    rw [hnone] at hf
    cases hf
  · intro leading name after hf
    rw [hnone] at hf
    cases hf

theorem covers_of_malformed (hopen : '{' ∈ s.start) (h : nextField s.start = none) :
    s.Covers coroutine size ↔ s.TextWritten ∧ s.output.written s.out = true := by
  constructor
  · exact fun hcovers => hcovers.refused (.inl ⟨hopen, h⟩)
  · intro hwritten
    refine ⟨fun _ => hwritten, ?_, ?_⟩
    · intro leading name after hf
      rw [h] at hf
      cases hf
    · intro leading name after hf
      rw [h] at hf
      cases hf

/-- What is asked of a state at a placeholder. -/
theorem covers_of_nextField (h : nextField s.start = some (leading, name, after)) :
    s.Covers coroutine size ↔
      ((s.bufferSize - 1).toNat < leading.length →
        s.TextWritten ∧ s.output.written s.out = true) ∧
      (¬ (s.bufferSize - 1).toNat < leading.length →
        (((s.copy leading).bufferSize - 1).toNat < name.length →
          s.TextWritten ∧ s.output.WrittenText '\x00' (s.out + leading.length) size.toNat) ∧
        (¬ ((s.copy leading).bufferSize - 1).toNat < name.length →
          let called := (s.copy leading).copyName name
          (called.reply coroutine).2 ≠ 0 →
          ∀ n, distanceTo '\x00' (called.replaced coroutine).cells called.out
            called.bufferSize.toNat = some n →
            s.TextWritten ∧ ∀ i ≤ n, (called.replaced coroutine).written (called.out + i) = true)) := by
  constructor
  · intro hcovers
    exact ⟨fun hroom => hcovers.refused (.inr ⟨_, h, hroom⟩), fun hleading =>
      ⟨hcovers.unnamed _ _ _ h hleading, hcovers.unanswered _ _ _ h hleading⟩⟩
  · rintro ⟨hrefused, hfits⟩
    refine ⟨?_, ?_, ?_⟩
    · rintro (⟨-, hnone⟩ | ⟨f, hf, hroom⟩)
      · rw [h] at hnone
        cases hnone
      · obtain rfl := Option.some.inj (h.symm.trans hf)
        exact hrefused hroom
    · intro leading' name' after' hf hleading
      obtain ⟨rfl, hnames⟩ := Prod.mk.inj (Option.some.inj (h.symm.trans hf))
      obtain ⟨rfl, rfl⟩ := Prod.mk.inj hnames
      exact (hfits hleading).1
    · intro leading' name' after' hf hleading
      obtain ⟨rfl, hnames⟩ := Prod.mk.inj (Option.some.inj (h.symm.trans hf))
      obtain ⟨rfl, rfl⟩ := Prod.mk.inj hnames
      exact (hfits hleading).2

/-- **A state where the loop goes on is asked for nothing.** -/
theorem covers_of_next (h : turn coroutine s = .next t) : s.Covers coroutine size := by
  obtain ⟨leading, name, after, hfield, hleading, hname, hcall⟩ := turn_eq_next h
  refine (covers_of_nextField hfield).mpr ⟨fun hroom => absurd hroom hleading, fun _ =>
    ⟨fun hroom => absurd hroom hname, fun _ hstatus n hend => ?_⟩⟩
  obtain ⟨hnone, -⟩ | ⟨m, -, ⟨hzero, -⟩ | ⟨-, failure, hfail⟩⟩ :=
    call_cases coroutine ((s.copy leading).copyName name) after
  · rw [hend] at hnone
    cases hnone
  · exact absurd hzero hstatus
  · rw [hfail] at hcall
    cases hcall

/-- A result that is not a failure is asked for nothing. -/
theorem leavesWritten_of_ne {p : Returned} (h : p.result ≠ .ok (-1)) : LeavesWritten size p :=
  fun hresult => absurd hresult h

theorem leavesWritten_fail {output : Tracked Char} {replies : List (CString × ℤ)}
    {failure : Option CString} : LeavesWritten size ⟨.ok (-1), output, replies, failure⟩ ↔
      Tracked.WrittenText '\x00' output 0 size.toNat :=
  forall_prop_of_true rfl

/-- **A call of the coroutine that ends the loop leaves a written string exactly when** what it left
was. -/
theorem leavesWritten_call (h : ((s.copy leading).copyName name).Sound size) {p : Returned}
    (hcall : ((s.copy leading).copyName name).call coroutine after = .returned p) :
    LeavesWritten size p ↔
      let called := (s.copy leading).copyName name
      (called.reply coroutine).2 ≠ 0 →
      ∀ n, distanceTo '\x00' (called.replaced coroutine).cells called.out
        called.bufferSize.toNat = some n →
        s.TextWritten ∧ ∀ i ≤ n, (called.replaced coroutine).written (called.out + i) = true := by
  dsimp only
  obtain ⟨hnone, area, hover⟩ | ⟨n, hend, ⟨-, hnext⟩ | ⟨hstatus, failure, hfail⟩⟩ :=
    call_cases coroutine ((s.copy leading).copyName name) after
  · obtain rfl := Turn.returned.inj (hover.symm.trans hcall)
    refine iff_of_true (leavesWritten_of_ne nofun) fun _ n hend => ?_
    rw [hnone] at hend
    cases hend
  · rw [hnext] at hcall
    cases hcall
  · obtain rfl := Turn.returned.inj (hfail.symm.trans hcall)
    rw [leavesWritten_fail, writtenText_replaced h hend, textWritten_copyName, textWritten_copy,
      forall_prop_of_true hstatus]
    constructor
    · intro hwritten n' hend'
      obtain rfl := Option.some.inj (hend.symm.trans hend')
      exact hwritten
    · exact fun hall => hall n hend

/-- A turn that ends the loop at a placeholder. -/
theorem leavesWritten_of_nextField (h : s.Sound size) (hend : s.output.cells s.out = '\x00')
    (hplain : '\x00' ∉ s.start) (hfield : nextField s.start = some (leading, name, after))
    {p : Returned} (hturn : turn coroutine s = .returned p) :
    LeavesWritten size p ↔ s.Covers coroutine size := by
  have hstart := eq_of_nextField hfield
  rw [hstart] at hplain
  simp only [List.mem_append, List.mem_cons, not_or] at hplain
  rw [turn_of_nextField hfield] at hturn
  rw [covers_of_nextField hfield]
  split_ifs at hturn with hleading hname
  · obtain rfl := Turn.returned.inj hturn
    rw [leavesWritten_fail, writtenText_head h hend, forall_prop_of_true hleading,
      forall_prop_of_false (not_not.mpr hleading), and_iff_left trivial]
  · obtain rfl := Turn.returned.inj hturn
    have hfits := (not_congr (room_lt_iff h.pos _)).mp hleading
    rw [leavesWritten_fail, writtenText_copy (h.copy (by omega) hplain.1),
      forall_prop_of_false hleading, forall_prop_of_true hleading, forall_prop_of_true hname,
      forall_prop_of_false (not_not.mpr hname), and_iff_left trivial, and_iff_right trivial]
  · have hfits := (not_congr (room_lt_iff h.pos _)).mp hleading
    have hcopied := h.copy (by omega) hplain.1
    have hnamed := (not_congr (room_lt_iff hcopied.pos _)).mp hname
    rw [leavesWritten_call (hcopied.copyName name (by omega)) hturn, forall_prop_of_false hleading,
      forall_prop_of_true hleading, forall_prop_of_false hname, forall_prop_of_true hname,
      and_iff_right trivial, and_iff_right trivial]

/-- What is left without a placeholder is copied whole, or the buffer is reset. -/
theorem leavesWritten_of_notMem (h : s.Sound size) (hopen : '{' ∉ s.start) {p : Returned}
    (hturn : turn coroutine s = .returned p) : LeavesWritten size p := by
  by_cases hne : s.start = []
  · rw [turn, if_pos hne] at hturn
    obtain rfl := Turn.returned.inj hturn
    exact leavesWritten_of_ne (by simp)
  rw [turn_of_notMem hne hopen] at hturn
  split_ifs at hturn
  · obtain rfl := Turn.returned.inj hturn
    have hroom := h.room
    have hpos := h.pos
    have hnull : (s.output.write 0 ['\x00']).cells 0 = '\x00' :=
      s.output.holdsAt_write 0 ['\x00'] 0 Nat.one_pos
    exact leavesWritten_fail.mpr ((Tracked.writtenText_self hnull (by omega)).mpr
      (Tracked.written_write le_rfl Nat.one_pos))
  · obtain rfl := Turn.returned.inj hturn
    exact leavesWritten_of_ne (by simp)

/-- **The turn that ends the loop leaves a written string exactly when its state covers it.** -/
theorem leavesWritten_iff_covers (h : s.Sound size) (hend : s.output.cells s.out = '\x00')
    (hplain : '\x00' ∉ s.start) {p : Returned} (hturn : turn coroutine s = .returned p) :
    LeavesWritten size p ↔ s.Covers coroutine size := by
  by_cases hopen : '{' ∈ s.start
  · cases hfield : nextField s.start with
    | none =>
      obtain ⟨failure, hfail⟩ := turn_of_malformed coroutine hopen hfield
      obtain rfl := Turn.returned.inj (hfail.symm.trans hturn)
      rw [leavesWritten_fail, covers_of_malformed hopen hfield, writtenText_head h hend]
    | some field => exact leavesWritten_of_nextField h hend hplain hfield hturn
  · exact iff_of_true (leavesWritten_of_notMem h hopen hturn) (covers_of_notMem hopen)

/-- A state of the loop comes after another. -/
def Follows (coroutine : GmPatternCoroutine) (s t : Loop) : Prop := turn coroutine s = .next t

/-- **A run leaves a written string exactly when every state it comes to covers it.** -/
theorem leavesWritten_run (h : s.Sound size) (hend : s.output.cells s.out = '\x00')
    (hplain : '\x00' ∉ s.start) : LeavesWritten size (run coroutine s) ↔
      ∀ t, Relation.ReflTransGen (Follows coroutine) s t → t.Covers coroutine size := by
  fun_induction run coroutine s with
  | case1 s t hturn ih =>
    obtain ⟨hsound, hnull, hplain'⟩ := h.turn hplain hturn
    rw [ih hsound hnull hplain']
    constructor
    · intro hcovers u hu
      obtain rfl | ⟨v, hv, hu⟩ := Relation.ReflTransGen.cases_head hu
      · exact covers_of_next hturn
      · obtain rfl := Turn.next.inj (hturn.symm.trans hv)
        exact hcovers u hu
    · exact fun hcovers u hu => hcovers u (.head hturn hu)
  | case2 s p hturn =>
    rw [leavesWritten_iff_covers h hend hplain hturn]
    constructor
    · intro hcovers u hu
      obtain rfl | ⟨v, hv, -⟩ := Relation.ReflTransGen.cases_head hu
      · exact hcovers
      · rw [Follows, hturn] at hv
        cases hv
    · exact fun hcovers => hcovers s .refl

end Covers

/-! ## Coroutines that write strings -/

/-- What is left of a pattern, how long the text so far is, and how far anything was ever written. -/
structure Extent where
  start : CString
  out : ℕ
  furthest : ℕ

/-- A placeholder's name is copied behind its literal, with a null, and the reply over it. -/
def Extent.replace (e : Extent) (reply : CString) : Extent :=
  match nextField e.start with
  | none => e
  | some (leading, name, after) =>
    ⟨after, e.out + leading.length + reply.length,
      max e.furthest (e.out + leading.length + max name.length reply.length + 1)⟩

/-- **A pattern after some replies.** -/
def extent (string : CString) (replies : List CString) : Extent :=
  replies.foldl Extent.replace ⟨string, 0, 1⟩

/-- **A name that does not fit is behind a literal that something longer was written over.** -/
def Extent.Ended (size : ℕ) (e : Extent) : Prop :=
  ∀ leading name after, nextField e.start = some (leading, name, after) →
    e.out + leading.length < size → size ≤ e.out + leading.length + name.length →
    e.out + leading.length < e.furthest

/-- The coroutine writes a string with its null, which fits, or nothing. -/
def WritesStrings (coroutine : GmPatternCoroutine) : Prop :=
  ∀ calls cells size, (coroutine calls cells size).1 = (fun _ => none) ∨
    ∃ text : CString, ('\x00' ∉ text ∧ text.length < size.toNat) ∧
      (coroutine calls cells size).1 = fun i => (text ++ ['\x00'])[i]?

/-- The buffer is written as far as the template and the replies say. -/
structure Loop.Told (e : Extent) (s : Loop) : Prop where
  start : e.start = s.start
  out : e.out = s.out
  furthest : s.out < e.furthest
  written : s.output.WrittenBelow e.furthest
  last : s.output.cells (e.furthest - 1) = '\x00'

section Told

variable {coroutine : GmPatternCoroutine} {size : UInt32} {e : Extent} {s t : Loop}
  {leading name after : CString}

theorem told_first (string : CString) (cells : ℕ → Char) (size : UInt32) :
    (first string cells size).Told (extent string []) := by
  refine ⟨rfl, rfl, Nat.one_pos, fun i => ?_, rfl⟩
  by_cases hi : i < 1
  · exact iff_of_true (Tracked.written_write i.zero_le hi) hi
  · refine iff_of_false ?_ hi
    rw [first, Tracked.written_write_of_outside (.inr (by simp; omega))]
    nofun

/-- After a name that is copied. -/
theorem Loop.Told.copyName (h : s.Told e) (leading name : CString) :
    let called := (s.copy leading).copyName name
    called.output.WrittenBelow (max e.furthest (called.out + name.length + 1)) ∧
      called.output.cells (max e.furthest (called.out + name.length + 1) - 1) = '\x00' := by
  have hlow := h.furthest
  have hout : (s.copy leading).out = s.out + leading.length := rfl
  have hnamed := (h.written.write hlow.le leading).write (a := (s.copy leading).out) (by omega)
    (name ++ ['\x00'])
  have hk : max (max e.furthest (s.out + leading.length)) ((s.copy leading).out + (name ++ ['\x00']).length)
      = max e.furthest ((s.copy leading).out + name.length + 1) := by
    rw [List.length_append, List.length_singleton, hout]
    omega
  refine ⟨hk ▸ hnamed, Tracked.cells_last_write fun hbefore => ?_⟩
  · rw [Loop.copy, Tracked.cells_write_of_outside (.inr (by omega))]
    exact h.last

/-- **What a call of the coroutine leaves**: a string, the name or its own, and how far was written. -/
theorem Loop.Told.replaced (h : s.Told e) (hwrites : WritesStrings coroutine) (leading : CString)
    (hname : '\x00' ∉ name) (hfits : name.length < (s.copy leading).bufferSize.toNat) :
    let called := (s.copy leading).copyName name
    ∃ reply : CString, ('\x00' ∉ reply ∧ reply.length < called.bufferSize.toNat) ∧
      HoldsAt (called.replaced coroutine).cells called.out (reply ++ ['\x00']) ∧
      let k := max e.furthest (called.out + max name.length reply.length + 1)
      (called.replaced coroutine).WrittenBelow k ∧ (called.replaced coroutine).cells (k - 1) = '\x00' := by
  intro called
  obtain ⟨hwritten, hlast⟩ :
      called.output.WrittenBelow (max e.furthest (called.out + name.length + 1)) ∧
        called.output.cells (max e.furthest (called.out + name.length + 1) - 1) = '\x00' :=
    h.copyName leading name
  obtain hnone | ⟨text, ⟨htext, hroom⟩, hsome⟩ :=
    hwrites called.replies.length (fun i => called.output.cells (called.out + i)) called.bufferSize
  · have hsame : called.replaced coroutine = called.output := by
      rw [Loop.replaced, Loop.reply, hnone, Tracked.patch_none]
    refine ⟨name, ⟨hname, hfits⟩, ?_, ?_⟩
    · rw [hsame]
      exact Tracked.holdsAt_write _ _ _
    · rw [hsame, max_self]
      exact ⟨hwritten, hlast⟩
  · have hlength : (text ++ ['\x00']).length = text.length + 1 := List.length_append
    have hsame : called.replaced coroutine = called.output.write called.out (text ++ ['\x00']) := by
      rw [Loop.replaced, Loop.reply, hsome, Tracked.patch_eq_write _ _ (by omega)]
    have hk : max e.furthest (called.out + max name.length text.length + 1)
        = max (max e.furthest (called.out + name.length + 1)) (called.out + text.length + 1) := by omega
    refine ⟨text, ⟨htext, hroom⟩, ?_, ?_⟩
    · rw [hsame]
      exact Tracked.holdsAt_write _ _ _
    · rw [hsame, hk]
      refine ⟨?_, Tracked.cells_last_write fun _ => hlast⟩
      have hmore := hwritten.write (a := called.out) (by omega) (text ++ ['\x00'])
      rwa [hlength] at hmore

/-- **A turn that goes on takes a reply.** -/
theorem Loop.Told.turn (h : s.Told e) (hsound : s.Sound size) (hwrites : WritesStrings coroutine)
    (hplain : '\x00' ∉ s.start) (hturn : turn coroutine s = .next t) :
    ∃ reply, t.replies = s.replies ++ [(reply, 0)] ∧ t.Told (e.replace reply) := by
  obtain ⟨leading, name, after, hfield, hleading, hname, hcall⟩ := turn_eq_next hturn
  rw [eq_of_nextField hfield] at hplain
  simp only [List.mem_append, List.mem_cons, not_or] at hplain
  rw [room_lt_iff hsound.pos] at hleading
  have hcopied := hsound.copy (by omega) hplain.1
  rw [room_lt_iff hcopied.pos] at hname
  obtain ⟨reply, ⟨hreply, hroom⟩, hholds, hwritten, hlast⟩ :=
    h.replaced hwrites leading hplain.2.2.1 (by omega)
  have hend := hholds.distanceTo_eq hreply hroom
  have hreplied : cellsFrom (((s.copy leading).copyName name).replaced coroutine).cells
      ((s.copy leading).copyName name).out reply.length = reply :=
    (holdsAt_append.mp hholds).1.cellsFrom_eq
  obtain ⟨hnone, -⟩ | ⟨n, hn, ⟨-, hnext⟩ | ⟨-, failure, hfail⟩⟩ :=
    call_cases coroutine ((s.copy leading).copyName name) after
  · rw [hend] at hnone
    cases hnone
  · obtain rfl := Option.some.inj (hend.symm.trans hn)
    obtain rfl := Turn.next.inj (hnext.symm.trans hcall)
    have hfield' : nextField e.start = some (leading, name, after) := h.start ▸ hfield
    have hreplace : e.replace reply = ⟨after, e.out + leading.length + reply.length,
        max e.furthest (e.out + leading.length + max name.length reply.length + 1)⟩ := by
      rw [Extent.replace, hfield']
    refine ⟨reply, by rw [hreplied]; rfl, ?_⟩
    rw [hreplace, h.out]
    refine ⟨rfl, rfl, ?_, hwritten, hlast⟩
    exact lt_max_of_lt_right (Nat.lt_succ_of_le (Nat.add_le_add_left (le_max_right _ _) _))
  · rw [hfail] at hcall
    cases hcall

/-- A name that does not fit. -/
theorem room_copy_lt_iff (hsound : s.Sound size) (hfits : s.out + leading.length < size.toNat) :
    ((s.copy leading).bufferSize - 1).toNat < name.length ↔
      size.toNat ≤ s.out + leading.length + name.length := by
  have hroom := hsound.room
  have hleft : (s.copy leading).bufferSize.toNat = s.bufferSize.toNat - leading.length :=
    toNat_sub_ofNat (by omega)
  rw [room_lt_iff (by omega)]
  omega

/-- **A state covers a failure exactly if a name that does not fit is behind something that was
written.** -/
theorem covers_iff_ended (h : s.Told e) (hsound : s.Sound size) (hwrites : WritesStrings coroutine)
    (hplain : '\x00' ∉ s.start) : s.Covers coroutine size ↔ e.Ended size.toNat := by
  have hlow := h.furthest
  have hroom := hsound.room
  have hstop : e.furthest ≤ size.toNat := by
    have hlast := hsound.inside (e.furthest - 1) ((h.written _).mpr (by omega))
    omega
  have htext : s.TextWritten := fun i hi => (h.written i).mpr (hi.trans hlow)
  constructor
  · intro hcovers leading name after hfield hfits hname
    rw [h.out] at hfits hname ⊢
    have hleading : ¬ (s.bufferSize - 1).toNat < leading.length := by
      rw [room_lt_iff hsound.pos]
      omega
    exact (h.written.writtenText_iff h.last hstop).mp
      (hcovers.unnamed leading name after (h.start ▸ hfield) hleading ((room_copy_lt_iff hsound hfits).mpr hname)).2
  · intro hended
    refine ⟨fun _ => ⟨htext, (h.written _).mpr hlow⟩, ?_, ?_⟩
    · intro leading name after hfield hleading hname
      rw [room_lt_iff hsound.pos] at hleading
      have hfits : s.out + leading.length < size.toNat := by omega
      refine ⟨htext, (h.written.writtenText_iff h.last hstop).mpr ?_⟩
      have hbehind := hended leading name after (h.start ▸ hfield)
      rw [h.out] at hbehind
      exact hbehind hfits ((room_copy_lt_iff hsound hfits).mp hname)
    · intro leading name after hfield hleading hname called _ n hn
      rw [eq_of_nextField hfield] at hplain
      simp only [List.mem_append, List.mem_cons, not_or] at hplain
      rw [room_lt_iff hsound.pos] at hleading
      have hcopied := hsound.copy (by omega) hplain.1
      rw [room_lt_iff hcopied.pos] at hname
      obtain ⟨reply, ⟨hreply, hreplied⟩, hholds, hwritten, -⟩ :=
        h.replaced hwrites leading hplain.2.2.1 (by omega)
      obtain rfl := Option.some.inj ((hholds.distanceTo_eq hreply hreplied).symm.trans hn)
      refine ⟨htext, fun i hi => (hwritten _).mpr (lt_max_of_lt_right (Nat.lt_succ_of_le ?_))⟩
      exact Nat.add_le_add_left (hi.trans (le_max_right _ _)) _

/-- **Every state of a run is told by the template and the replies.** -/
theorem Loop.Told.follows {string : CString} (hwrites : WritesStrings coroutine)
    (h : s.Told (extent string (s.replies.map Prod.fst))) (hsound : s.Sound size)
    (hplain : '\x00' ∉ s.start) (hrun : Relation.ReflTransGen (Follows coroutine) s t) :
    t.Told (extent string (t.replies.map Prod.fst)) ∧ t.Sound size ∧ '\x00' ∉ t.start := by
  induction hrun with
  | refl => exact ⟨h, hsound, hplain⟩
  | tail _ hturn ih =>
    obtain ⟨htold, hsound, hplain⟩ := ih
    obtain ⟨reply, hreplies, hnext⟩ := htold.turn hsound hwrites hplain hturn
    obtain ⟨hsound', -, hplain'⟩ := hsound.turn hplain hturn
    refine ⟨?_, hsound', hplain'⟩
    rw [hreplies, List.map_append, extent, List.foldl_append]
    exact hnext

end Told

/-! ## When a failure leaves a written string -/

/-- **A failure leaves a string that this call has written exactly when each state the loop comes to
covers it.**  Where the coroutine writes strings, that is said by the template and the replies: at each
state, a name that does not fit is behind a literal that something longer was written over. -/
theorem leavesWritten_iff (string : CString) (coroutine : GmPatternCoroutine) (cells : ℕ → Char)
    (size : UInt32) (hstring : '\x00' ∉ string) (hsize : 1 ≤ size) :
    (LeavesWritten size (gmPatternString string coroutine cells size) ↔
      ∀ s, Relation.ReflTransGen (Follows coroutine) (first string cells size) s →
        s.Covers coroutine size) ∧
    (WritesStrings coroutine →
      (LeavesWritten size (gmPatternString string coroutine cells size) ↔
        ∀ s, Relation.ReflTransGen (Follows coroutine) (first string cells size) s →
          (extent string (s.replies.map Prod.fst)).Ended size.toNat)) := by
  obtain ⟨hsound, hend⟩ := sound_first string cells hsize
  have hrun : LeavesWritten size (gmPatternString string coroutine cells size) ↔ _ :=
    leavesWritten_run hsound hend hstring
  refine ⟨hrun, fun hwrites => hrun.trans (forall₂_congr fun s hs => ?_)⟩
  obtain ⟨htold, hsound, hplain⟩ := (told_first string cells size).follows hwrites hsound hstring hs
  exact covers_iff_ended htold hsound hwrites hplain

/-- Two letters and a brace left open are refused with nothing copied. -/
theorem leavesWritten_open : LeavesWritten 4
      (gmPatternString ['a', '{'] (fun _ _ _ => (fun _ => none, 0)) (fun _ => 'z') 4) ∧
    ∀ s, Relation.ReflTransGen (Follows fun _ _ _ => (fun _ => none, 0))
        (first ['a', '{'] (fun _ => 'z') 4) s →
      (extent ['a', '{'] (s.replies.map Prod.fst)).Ended 4 := by
  obtain ⟨hcovers, hended⟩ := leavesWritten_iff ['a', '{'] (fun _ _ _ => (fun _ => none, 0))
    (fun _ => 'z') 4 (by decide) (by decide)
  have hleaves := hcovers.mpr fun s hs => by
    obtain rfl | ⟨t, ht, -⟩ := Relation.ReflTransGen.cases_head hs
    · exact (covers_of_malformed (by decide) rfl).mpr ⟨nofun, rfl⟩
    · cases ht
  exact ⟨hleaves, (hended fun _ _ _ => .inl rfl).mp hleaves⟩

/-- **A name that does not fit in four bytes, after two letters that do**: the letters are copied over the
null, and nothing ends what the buffer held behind them. -/
theorem not_leavesWritten_crowded : ¬ LeavesWritten 4
    (gmPatternString ['a', 'b', '{', 'n', 'a', 'm', 'e', '}'] (fun _ _ _ => (fun _ => none, 0))
      (fun _ => 'z') 4) := by
  intro h
  obtain ⟨hsound, hend⟩ := sound_first ['a', 'b', '{', 'n', 'a', 'm', 'e', '}'] (fun _ => 'z')
    (show (1 : UInt32) ≤ 4 by decide)
  have hcovers := (leavesWritten_run hsound hend (by decide)).mp h _ .refl
  obtain ⟨-, n, ⟨hlow, -⟩, hnull, -⟩ :=
    hcovers.unnamed ['a', 'b'] ['n', 'a', 'm', 'e'] [] rfl (by decide) (by decide)
  have hbehind : 0 + ['\x00'].length ≤ n := Nat.le_of_succ_le hlow
  have hprior : 'z' = '\x00' :=
    (Tracked.cells_write_of_outside (.inr hbehind)).symm.trans hnull
  exact absurd hprior (by decide)

end Ddns.InPlace
