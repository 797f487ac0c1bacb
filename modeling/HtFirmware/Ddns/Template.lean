import HtFirmware.Ddns.PatternBuffer

/-!
# Ddns/Template — what a template expands to

A `Template` is literals and placeholders.  Its `expansion` is the literals and what the coroutine left
for the names, one after the other.

Expanding it goes from one state that holds the text of the first fields to the next
(`expanding_turn`), or says why not: something does not fit, or the coroutine failed.
-/

open Machinery
open Web (index_append)

namespace Ddns.InPlace

/-! ## What a template expands to -/

/-- Literals and placeholders, the last literal apart. -/
structure Template where
  fields : List Field
  final : CString
  plain : '{' ∉ final ∧ '\x00' ∉ final
  named : ∀ f ∈ fields, '\x00' ∉ f.name

namespace Template

/-- How a template is written. -/
def source (t : Template) : CString := t.fields.flatMap Field.source ++ t.final

/-- The first literals, each with the replacement that follows it. -/
def filled (t : Template) (values : List CString) : CString :=
  (t.fields.zip values).flatMap fun fv => fv.1.leading ++ fv.2

/-- **The literals and replacements**, one after the other. -/
def expansion (t : Template) (values : List CString) : CString := t.filled values ++ t.final

/-- After some replacements, the next name fits where its replacement goes; or the last literal
fits. -/
def Fits (t : Template) (size : ℕ) (values : List CString) : Prop :=
  match t.fields[values.length]? with
  | some f => (t.filled values ++ f.leading ++ f.name).length < size
  | none => (t.expansion values).length < size

end Template

/-- **A coroutine that succeeds replaces the name** by a text that fits the size it is given, and ends
it. -/
def Replaces (coroutine : GmPatternCoroutine) : Prop :=
  ∀ (calls : ℕ) (cells : ℕ → Char) (size : UInt32) (name : CString), '\x00' ∉ name →
    name.length < size.toNat → HoldsAt cells 0 (name ++ ['\x00']) →
    (coroutine calls cells size).2 = 0 → ∃ value : CString, '\x00' ∉ value ∧
      value.length < size.toNat ∧
      HoldsAt (fun i => ((coroutine calls cells size).1 i).getD (cells i)) 0 (value ++ ['\x00'])

/-- What the calls of the coroutine left. -/
def values (replies : List (CString × ℤ)) : List CString := replies.map Prod.fst

/-- **A template is expanded as it should be**: nothing is written outside the buffer; when the
coroutine succeeds on every name and everything fits, the result is zero; and then the buffer holds the
text. -/
structure Expands (t : Template) (size : UInt32) (p : Returned) : Prop where
  inside : ∀ i, p.output.written i = true → i < size.toNat
  succeeds : (∀ r ∈ p.replies, r.2 = 0) → (∀ vs, vs <+: values p.replies → t.Fits size.toNat vs) →
    p.result = .ok 0
  text : p.result = .ok 0 → p.replies.length = t.fields.length ∧
    HoldsAt p.output.cells 0 (t.expansion (values p.replies) ++ ['\x00'])

section Expands

variable {coroutine : GmPatternCoroutine} {t : Template} {size : UInt32} {s u : Loop} {f : Field}
  {vs : List CString} {value : CString}

theorem nextField_source (f : Field) (tail : CString) :
    nextField (f.source ++ tail) = some (f.leading, f.name, tail) := by
  have hsource : f.source ++ tail = f.leading ++ '{' :: (f.name ++ '}' :: tail) := by
    simp [Field.source]
  rw [nextField, hsource, index_append _ f.plain.1, Option.bind_some, index_append _ f.named.2.2,
    Option.bind_some]
  exact if_pos ⟨f.named.1, f.named.2.1⟩

/-- One more replacement. -/
theorem Template.filled_append (h : t.fields[vs.length]? = some f) (value : CString) :
    t.filled (vs ++ [value]) = t.filled vs ++ f.leading ++ value := by
  obtain ⟨hlt, hf⟩ := List.getElem?_eq_some_iff.mp h
  have hsplit : t.fields = t.fields.take vs.length ++ f :: t.fields.drop (vs.length + 1) := by
    rw [← hf, ← List.drop_eq_getElem_cons hlt, List.take_append_drop]
  have htake : (t.fields.take vs.length).length = vs.length := List.length_take_of_le hlt.le
  have hzip : ∀ ws : List CString, t.fields.zip (vs ++ ws) =
      (t.fields.take vs.length).zip vs ++ (f :: t.fields.drop (vs.length + 1)).zip ws := fun ws => by
    conv_lhs => rw [hsplit]
    exact List.zip_append htake
  have hdone := hzip []
  rw [List.append_nil] at hdone
  rw [Template.filled, Template.filled, hdone, hzip]
  simp

/-- **The buffer holds the text of the fields that are done**, and the pattern is what is left. -/
structure Loop.Expanding (t : Template) (size : UInt32) (s : Loop) : Prop where
  sound : s.Sound size
  ended : s.output.cells s.out = '\x00'
  done : s.replies.length ≤ t.fields.length
  start : s.start = (t.fields.drop s.replies.length).flatMap Field.source ++ t.final
  holds : HoldsAt s.output.cells 0 (t.filled (values s.replies))
  out : (t.filled (values s.replies)).length = s.out

/-- What is left after all the fields. -/
theorem Loop.Expanding.start_eq (h : s.Expanding t size)
    (hdone : s.replies.length = t.fields.length) : s.start = t.final := by
  rw [h.start, hdone, List.drop_length]
  rfl

theorem length_values (replies : List (CString × ℤ)) : (values replies).length = replies.length :=
  List.length_map _

/-- A failure is as it should be, where something does not fit or the coroutine failed. -/
theorem expands_fail {p : Returned} (hresult : p.result ≠ .ok 0)
    (hinside : ∀ i, p.output.written i = true → i < size.toNat)
    (hwhy : (∃ r ∈ p.replies, r.2 ≠ 0) ∨ ¬ t.Fits size.toNat (values p.replies)) :
    Expands t size p where
  inside := hinside
  succeeds hzero hfits := by
    obtain ⟨r, hr, hne⟩ | hroom := hwhy
    · exact absurd (hzero r hr) hne
    · exact absurd (hfits _ List.prefix_rfl) hroom
  text hzero := absurd hzero hresult

/-- **The last literal.** -/
theorem expands_final (h : s.Expanding t size) (hdone : s.replies.length = t.fields.length)
    {p : Returned} (hturn : turn coroutine s = .returned p) : Expands t size p := by
  have hstart := h.start_eq hdone
  have hroom := h.sound.room
  have hpos := h.sound.pos
  have hfits : t.Fits size.toNat (values s.replies) ↔ s.out + t.final.length < size.toNat := by
    rw [Template.Fits, length_values, hdone, List.getElem?_eq_none le_rfl]
    dsimp only
    rw [Template.expansion, List.length_append, h.out]
  by_cases hne : s.start = []
  · rw [turn, if_pos hne] at hturn
    obtain rfl := Turn.returned.inj hturn
    refine ⟨h.sound.inside, fun _ _ => rfl, fun _ => ⟨hdone, ?_⟩⟩
    rw [Template.expansion, ← hstart, hne, List.append_nil]
    refine holdsAt_append.mpr ⟨h.holds, holdsAt_singleton.mpr ?_⟩
    rw [Nat.zero_add, h.out]
    exact h.ended
  · rw [turn_of_notMem hne (hstart ▸ t.plain.1)] at hturn
    split_ifs at hturn with hcrowded
    · obtain rfl := Turn.returned.inj hturn
      rw [room_lt_iff hpos, hstart] at hcrowded
      refine expands_fail (by simp) (Tracked.lt_of_written_patch h.sound.inside ?_) (.inr ?_)
      · rw [List.length_singleton]
        omega
      · rw [hfits]
        omega
    · obtain rfl := Turn.returned.inj hturn
      rw [room_lt_iff hpos] at hcrowded
      refine ⟨Tracked.lt_of_written_patch h.sound.inside ?_, fun _ _ => rfl, fun _ => ⟨hdone, ?_⟩⟩
      · rw [List.length_append, List.length_singleton]
        omega
      · rw [Template.expansion, List.append_assoc, ← hstart]
        refine holdsAt_append.mpr ⟨h.holds.congr fun i _ hi => ?_, ?_⟩
        · rw [Nat.zero_add, h.out] at hi
          exact Tracked.cells_write_of_outside (.inl hi)
        · rw [Nat.zero_add, h.out]
          exact s.output.holdsAt_write s.out _

/-- A coroutine that succeeds leaves a string, and the pointer goes to its end. -/
theorem replaced_of_replaces (h : Replaces coroutine) {name : CString} (hname : '\x00' ∉ name)
    (hfits : name.length < s.bufferSize.toNat)
    (hzero : ((s.copyName name).reply coroutine).2 = 0) : ∃ value : CString,
    distanceTo '\x00' ((s.copyName name).replaced coroutine).cells s.out s.bufferSize.toNat
      = some value.length ∧
    HoldsAt ((s.copyName name).replaced coroutine).cells s.out value := by
  have hgiven : HoldsAt (fun i => (s.copyName name).output.cells (s.out + i)) 0 (name ++ ['\x00']) :=
    fun i hi => by
      rw [Nat.zero_add]
      exact s.output.holdsAt_write s.out _ i hi
  obtain ⟨value, hvalue, hlength, hholds⟩ := h _ _ s.bufferSize name hname hfits hgiven hzero
  have hreplaced : HoldsAt ((s.copyName name).replaced coroutine).cells s.out (value ++ ['\x00']) := by
    intro i hi
    have hlt : i < s.bufferSize.toNat := by
      rw [List.length_append, List.length_singleton] at hi
      omega
    rw [← hholds i hi, Nat.zero_add]
    exact Tracked.cells_patch hlt
  exact ⟨value, hreplaced.distanceTo_eq hvalue hlength, (holdsAt_append.mp hreplaced).1⟩

/-- **After a replacement the buffer holds the text with it.** -/
theorem Loop.Expanding.next (h : s.Expanding t size)
    (hfield : t.fields[s.replies.length]? = some f)
    (hcalled : ((s.copy f.leading).copyName f.name).Sound size) {tail : CString}
    (htail : tail = (t.fields.drop (s.replies.length + 1)).flatMap Field.source ++ t.final)
    (hend : distanceTo '\x00' (((s.copy f.leading).copyName f.name).replaced coroutine).cells
      (s.out + f.leading.length) (s.copy f.leading).bufferSize.toNat = some value.length)
    (hvalue : HoldsAt (((s.copy f.leading).copyName f.name).replaced coroutine).cells
      (s.out + f.leading.length) value) :
    Loop.Expanding t size ⟨tail, ((s.copy f.leading).copyName f.name).replaced coroutine,
      s.out + f.leading.length + value.length,
      (s.copy f.leading).bufferSize - UInt32.ofNat value.length, s.replies ++ [(value, 0)]⟩ := by
  obtain ⟨hlt, -⟩ := List.getElem?_eq_some_iff.mp hfield
  obtain ⟨hsound, hnull⟩ := hcalled.next tail (s.replies ++ [(value, 0)]) hend
  have hvalues : values (s.replies ++ [(value, 0)]) = values s.replies ++ [value] := List.map_append
  have hfilled : t.filled (values s.replies ++ [value])
      = t.filled (values s.replies) ++ f.leading ++ value :=
    t.filled_append (by rw [length_values, hfield]) value
  -- The text is before the area that the name and its replacement share.
  have hbefore : ∀ i < s.out + f.leading.length,
      (((s.copy f.leading).copyName f.name).replaced coroutine).cells i =
        (s.output.write s.out f.leading).cells i := fun i hi =>
    (Tracked.cells_patch_of_outside (.inl hi)).trans (Tracked.cells_write_of_outside (.inl hi))
  refine ⟨hsound, hnull, ?_, ?_, ?_, ?_⟩
  · rw [List.length_append, List.length_singleton]
    exact hlt
  · rw [List.length_append, List.length_singleton]
    exact htail
  · change HoldsAt _ 0 (t.filled (values (s.replies ++ [(value, 0)])))
    rw [hvalues, hfilled]
    refine holdsAt_append.mpr ⟨holdsAt_append.mpr ⟨?_, ?_⟩, ?_⟩
    · refine h.holds.congr fun i _ hi => ?_
      rw [Nat.zero_add, h.out] at hi
      exact (hbefore i (by omega)).trans (Tracked.cells_write_of_outside (.inl hi))
    · rw [Nat.zero_add, h.out]
      exact (s.output.holdsAt_write s.out f.leading).congr fun i _ hi => hbefore i hi
    · rw [Nat.zero_add, List.length_append, h.out]
      exact hvalue
  · change (t.filled (values (s.replies ++ [(value, 0)]))).length = _
    rw [hvalues, hfilled, List.length_append, List.length_append, h.out]

/-- **A name that is copied is replaced, or it is said why it is not.** -/
theorem expanding_call (hcoroutine : Replaces coroutine) (h : s.Expanding t size)
    (hfield : t.fields[s.replies.length]? = some f)
    (hcalled : ((s.copy f.leading).copyName f.name).Sound size)
    (hname : f.name.length < (s.copy f.leading).bufferSize.toNat) :
    let rest := (t.fields.drop (s.replies.length + 1)).flatMap Field.source ++ t.final
    (∃ u, ((s.copy f.leading).copyName f.name).call coroutine rest = .next u ∧ u.Expanding t size) ∨
      ∃ p, ((s.copy f.leading).copyName f.name).call coroutine rest = .returned p ∧
        Expands t size p := by
  obtain ⟨hlt, hf⟩ := List.getElem?_eq_some_iff.mp hfield
  have hstring := replaced_of_replaces hcoroutine (t.named f (hf ▸ List.getElem_mem hlt)) hname
  obtain ⟨hnone, area, hover⟩ | ⟨n, hend, ⟨hzero, hnext⟩ | ⟨hne, failure, hfail⟩⟩ :=
    call_cases coroutine ((s.copy f.leading).copyName f.name)
      ((t.fields.drop (s.replies.length + 1)).flatMap Field.source ++ t.final)
  · refine .inr ⟨_, hover, expands_fail (by simp) hcalled.replaced.1 (.inl ⟨_,
      List.mem_append_right _ List.mem_cons_self, fun hzero => ?_⟩)⟩
    obtain ⟨value, hvalue, -⟩ := hstring hzero
    exact absurd (hnone.symm.trans hvalue) nofun
  · obtain ⟨value, hvalue, hholds⟩ := hstring hzero
    obtain rfl := Option.some.inj (hvalue.symm.trans hend)
    refine .inl ⟨_, hnext, ?_⟩
    have htext : cellsFrom (((s.copy f.leading).copyName f.name).replaced coroutine).cells
        ((s.copy f.leading).copyName f.name).out value.length = value := hholds.cellsFrom_eq
    rw [htext]
    exact h.next hfield hcalled rfl hend hholds
  · exact .inr ⟨_, hfail, expands_fail (by simp) hcalled.replaced.1
      (.inl ⟨_, List.mem_append_right _ List.mem_cons_self, hne⟩)⟩

/-- **A placeholder is replaced, or it is said why it is not.** -/
theorem expanding_turn (hcoroutine : Replaces coroutine) (h : s.Expanding t size)
    (hfield : t.fields[s.replies.length]? = some f) :
    (∃ u, turn coroutine s = .next u ∧ u.Expanding t size) ∨
      ∃ p, turn coroutine s = .returned p ∧ Expands t size p := by
  obtain ⟨hlt, hf⟩ := List.getElem?_eq_some_iff.mp hfield
  have hroom := h.sound.room
  have hstart : s.start =
      f.source ++ ((t.fields.drop (s.replies.length + 1)).flatMap Field.source ++ t.final) := by
    rw [h.start, List.drop_eq_getElem_cons hlt, hf, List.flatMap_cons, List.append_assoc]
  have hfits : t.Fits size.toNat (values s.replies) ↔
      s.out + f.leading.length + f.name.length < size.toNat := by
    rw [Template.Fits, length_values, hfield]
    dsimp only
    rw [List.length_append, List.length_append, h.out]
  rw [turn_of_nextField (hstart ▸ nextField_source f _)]
  split_ifs with hleading hname
  · rw [room_lt_iff h.sound.pos] at hleading
    refine .inr ⟨_, rfl, expands_fail (by simp) h.sound.inside (.inr ?_)⟩
    rw [hfits]
    omega
  · rw [room_lt_iff h.sound.pos] at hleading
    have hcopied := h.sound.copy (by omega) f.plain.2
    have hleft : s.out + f.leading.length + (s.copy f.leading).bufferSize.toNat = size.toNat :=
      hcopied.room
    rw [room_lt_iff hcopied.pos] at hname
    refine .inr ⟨_, rfl, expands_fail (by simp) hcopied.inside (.inr ?_)⟩
    change ¬ t.Fits size.toNat (values s.replies)
    rw [hfits]
    omega
  · rw [room_lt_iff h.sound.pos] at hleading
    have hcopied := h.sound.copy (by omega) f.plain.2
    rw [room_lt_iff hcopied.pos] at hname
    exact expanding_call hcoroutine h hfield (hcopied.copyName f.name (by omega))
      (Nat.not_le.mp hname)

/-- **A run expands what is left of the template.** -/
theorem expands_run (hcoroutine : Replaces coroutine) (h : s.Expanding t size) :
    Expands t size (run coroutine s) := by
  fun_induction run coroutine s with
  | case1 s u hturn ih =>
    by_cases hdone : s.replies.length = t.fields.length
    · obtain ⟨leading, name, after, hfield, -⟩ := turn_eq_next hturn
      rw [h.start_eq hdone, nextField_of_notMem t.plain.1] at hfield
      cases hfield
    · have hfield := List.getElem?_eq_getElem (lt_of_le_of_ne h.done hdone)
      obtain ⟨v, hv, hexpanding⟩ | ⟨p, hp, -⟩ := expanding_turn hcoroutine h hfield
      · obtain rfl := Turn.next.inj (hturn.symm.trans hv)
        exact ih hexpanding
      · cases hturn.symm.trans hp
  | case2 s p hturn =>
    by_cases hdone : s.replies.length = t.fields.length
    · exact expands_final h hdone hturn
    · have hfield := List.getElem?_eq_getElem (lt_of_le_of_ne h.done hdone)
      obtain ⟨v, hv, -⟩ | ⟨q, hq, hexpands⟩ := expanding_turn hcoroutine h hfield
      · cases hturn.symm.trans hv
      · obtain rfl := Turn.returned.inj (hturn.symm.trans hq)
        exact hexpands

end Expands

/-- Two letters for every name, where they fit. -/
def twoLetters : GmPatternCoroutine := fun _ _ size =>
  if 2 < size.toNat then (fun i => ['x', 'y', '\x00'][i]?, 0) else (fun _ => none, -1)

theorem replaces_twoLetters : Replaces twoLetters := by
  intro calls cells size name _ _ _ hzero
  unfold twoLetters at hzero ⊢
  split_ifs at hzero ⊢ with hsize
  · refine ⟨['x', 'y'], by decide, hsize, fun i hi => ?_⟩
    rw [Nat.zero_add]
    exact congrArg (Option.getD · (cells i)) (List.getElem?_eq_getElem hi)
  · cases hzero

/-- `a{n}b`. -/
def letters : Template where
  fields := [⟨['a'], ['n'], by decide, by decide⟩]
  final := ['b']
  plain := by decide
  named := by decide

end Ddns.InPlace
