import HtFirmware.Machinery.Run
import HtFirmware.Web.Steps

/-!
# Web/Chunks — the chunks a response is sent in

Here the buffer is its 2048 bytes, and a chunk what `httpd_resp_send_chunk` is given of them: a byte
behind the buffer is none of them.  `represents_writeAll` says that this is the page of `Web/Template`,
as long as that is defined.

A chunk of no bytes ends the response.  Closing the outermost element flushes what is pending, be it
nothing, and then ends the response: it is ended twice exactly when the last end tag fills the buffer
past its half (`endsOnce_iff`).

`vsnprintf` returns what it would have written, which counts before the comparison with the buffer's
size, and that one only prints: bytes behind the buffer are sent exactly when a piece does not fit
(`forall_sound_iff`).
-/

open Machinery
open scoped List

namespace Web

/-! ## The buffer and the chunks -/

/-- `buffer` and `buf_index`; the chunks that `httpd_resp_send_chunk` was given; and what was printed
on `stderr`. -/
structure Response where
  buffer : Vector Char 2048
  bufIndex : ℕ := 0
  chunks : List (List (Option Char)) := []
  stderr : List CString := []

/-- The message of `emit_va`. -/
def bufferMessage : CString := "output (probably text) too large for buffer.\n".toList

namespace Response

/-- `fail`. -/
def fail (r : Response) (message : CString) : Response := { r with stderr := r.stderr ++ [message] }

/-- The bytes from `buffer` on, as far as `buf_index`. -/
def pending (r : Response) : List (Option Char) := (List.range r.bufIndex).map fun i => r.buffer[i]?

/-- `httpd_resp_send_chunk`. -/
def send (r : Response) (chunk : List (Option Char)) : Response :=
  { r with chunks := r.chunks ++ [chunk] }

/-- `flush`. -/
def flush (r : Response) : Response := { r.send r.pending with bufIndex := 0 }

/-- `vsnprintf` of a text into the rest of the buffer, as far as there is room before a null, and what
it returns added to the index: the length of the text. -/
def print (r : Response) (output : CString) : Response :=
  let kept := output.take (2048 - r.bufIndex - 1) ++ ['\x00']
  { r with
    buffer := Vector.ofFn fun i =>
      if r.bufIndex ≤ i then kept.getD (i - r.bufIndex) r.buffer[i] else r.buffer[i]
    bufIndex := r.bufIndex + output.length }

/-- `emit_va`, once the text is formatted. -/
def emit (r : Response) (output : CString) : Response :=
  let r := r.print output
  let r := if 2048 ≤ r.bufIndex then r.fail bufferMessage else r
  if 1024 < r.bufIndex then r.flush else r

/-- A step; `finish` is the flush, and then `gm_web_finish`. -/
def step (r : Response) : Step → Option Response
  | .emit pattern args => (format pattern args).map r.emit
  | .fail message => some (r.fail message)
  | .finish => some (r.flush.send [])

/-- Some steps, one after the other. -/
def stepAll (r : Response) (ss : List Step) : Option Response := ss.foldlM step r

/-- What was sent, and what is pending. -/
def content (r : Response) : List (Option Char) := r.chunks.flatten ++ r.pending

/-! ## What a step does -/

variable {r : Response} {output : CString}

theorem getElem?_print {i : ℕ} (hi : i < 2048) : (r.print output).buffer[i]? = some
    (if r.bufIndex ≤ i then (output.take (2048 - r.bufIndex - 1) ++ ['\x00']).getD (i - r.bufIndex)
      r.buffer[i] else r.buffer[i]) := by
  rw [Vector.getElem?_eq_getElem hi]
  simp [print]

/-- Every pending byte is in the buffer when there are no more than it has. -/
theorem forall_pending_iff : (∀ cell ∈ r.pending, cell.isSome) ↔ r.bufIndex ≤ 2048 := by
  simp only [pending, List.forall_mem_map, List.mem_range, isSome_getElem?]
  refine ⟨fun h => Nat.le_of_not_lt fun hlt => ?_, fun h i hi => Nat.lt_of_lt_of_le hi h⟩
  exact Nat.lt_irrefl 2048 (h 2048 hlt)

/-- **What is pending after a piece that does not run over the buffer**: as much as was kept of it, and
the null when that was less. -/
theorem pending_print_of_le (hfits : r.bufIndex + output.length ≤ 2048) : (r.print output).pending
    = r.pending ++
      ((output.take (2048 - r.bufIndex - 1) ++ ['\x00']).take output.length).map some := by
  have hindex : (r.print output).bufIndex = r.bufIndex + output.length := rfl
  rw [pending, hindex, List.range_add, List.map_append, List.map_map]
  refine congrArg₂ (· ++ ·) (List.map_congr_left fun i hi => ?_) (List.ext_getElem? fun k => ?_)
  · have hlt := List.mem_range.mp hi
    rw [getElem?_print (by omega), if_neg (by omega), Vector.getElem?_eq_getElem (by omega)]
  · by_cases hk : k < output.length
    · have hkept : k < (output.take (2048 - r.bufIndex - 1) ++ ['\x00']).length := by
        rw [List.length_append, List.length_take, List.length_singleton]
        omega
      rw [List.getElem?_map, List.getElem?_map, List.getElem?_range hk, List.getElem?_take_of_lt hk,
        List.getElem?_eq_getElem hkept, Option.map_some, Option.map_some, Function.comp_apply,
        getElem?_print (by omega), if_pos (by omega), Nat.add_sub_cancel_left,
        List.getD_eq_getElem?_getD, List.getElem?_eq_getElem hkept, Option.getD_some]
    · rw [List.getElem?_eq_none (by simp; omega), List.getElem?_eq_none (by simp; omega)]

/-- **What fits the buffer is pending, whole.** -/
theorem pending_print (hfits : r.bufIndex + output.length < 2048) :
    (r.print output).pending = r.pending ++ output.map some := by
  rw [pending_print_of_le (Nat.le_of_lt hfits), List.take_of_length_le (l := output) (by omega),
    List.take_left]

/-- With a piece that ends where the buffer does, the null is pending for its last byte. -/
theorem pending_print_full (hroom : r.bufIndex < 2048) (hfull : r.bufIndex + output.length = 2048) :
    (r.print output).pending
      = r.pending ++ (output.take (2047 - r.bufIndex) ++ ['\x00']).map some := by
  have hlength : (output.take (2048 - r.bufIndex - 1) ++ ['\x00']).length ≤ output.length := by
    rw [List.length_append, List.length_take, List.length_singleton]
    omega
  have hsame : 2048 - r.bufIndex - 1 = 2047 - r.bufIndex := by omega
  rw [pending_print_of_le (by omega), List.take_of_length_le hlength, hsame]

@[simp] theorem content_flush (r : Response) : r.flush.content = r.content := by
  simp [content, flush, send, pending]

theorem bufIndex_print : (r.print output).bufIndex = r.bufIndex + output.length := rfl

theorem chunks_print : (r.print output).chunks = r.chunks := by
  unfold print
  rfl

theorem stderr_print : (r.print output).stderr = r.stderr := by
  unfold print
  rfl

theorem stderr_fail (r : Response) (message : CString) :
    (r.fail message).stderr = r.stderr ++ [message] := rfl

theorem stderr_flush (r : Response) : r.flush.stderr = r.stderr := rfl

theorem bufIndex_flush (r : Response) : r.flush.bufIndex = 0 := rfl

theorem chunks_fail (r : Response) (message : CString) : (r.fail message).chunks = r.chunks := rfl

theorem pending_fail (r : Response) (message : CString) : (r.fail message).pending = r.pending := rfl

/-- **What `emit_va` does**: it keeps the text, flushes it, or complains of it and flushes. -/
theorem emit_cases (r : Response) (output : CString) :
    (r.bufIndex + output.length ≤ 1024 ∧ r.emit output = r.print output) ∨
      (1024 < r.bufIndex + output.length ∧ r.bufIndex + output.length < 2048 ∧
        r.emit output = (r.print output).flush) ∨
      (2048 ≤ r.bufIndex + output.length ∧
        r.emit output = ((r.print output).fail bufferMessage).flush) := by
  unfold emit
  dsimp only
  rw [bufIndex_print]
  by_cases hfull : 2048 ≤ r.bufIndex + output.length
  · have hindex : ((r.print output).fail bufferMessage).bufIndex = r.bufIndex + output.length := rfl
    rw [if_pos hfull, hindex, if_pos (by omega)]
    exact Or.inr (Or.inr ⟨hfull, rfl⟩)
  · rw [if_neg hfull, bufIndex_print]
    by_cases hhalf : 1024 < r.bufIndex + output.length
    · rw [if_pos hhalf]
      exact Or.inr (Or.inl ⟨hhalf, Nat.lt_of_not_le hfull, rfl⟩)
    · rw [if_neg hhalf]
      exact Or.inl ⟨Nat.le_of_not_lt hhalf, rfl⟩

/-- What a flush sends. -/
theorem chunks_flush (r : Response) : r.flush.chunks = r.chunks ++ [r.pending] := rfl

theorem length_pending (r : Response) : r.pending.length = r.bufIndex := by
  rw [pending, List.length_map, List.length_range]

theorem pending_eq_nil_iff : r.pending = [] ↔ r.bufIndex = 0 := by
  rw [← List.length_eq_zero_iff, length_pending]

theorem stepAll_cons (r : Response) (s : Step) (ss : List Step) :
    r.stepAll (s :: ss) = (r.step s).bind (·.stepAll ss) := rfl

theorem stepAll_append (r : Response) (ss more : List Step) :
    r.stepAll (ss ++ more) = (r.stepAll ss).bind (·.stepAll more) := List.foldlM_append

/-- Between two steps no more than half the buffer is pending. -/
theorem bufIndex_step {t : Response} {s : Step} (hr : r.bufIndex ≤ 1024) (h : r.step s = some t) :
    t.bufIndex ≤ 1024 := by
  cases s with
  | emit pattern args =>
    obtain ⟨output, -, rfl⟩ := Option.map_eq_some_iff.mp h
    obtain ⟨hle, hemit⟩ | ⟨-, -, hemit⟩ | ⟨-, hemit⟩ := emit_cases r output
    · rw [hemit, bufIndex_print]
      exact hle
    all_goals
      rw [hemit, bufIndex_flush]
      exact Nat.zero_le _
  | fail message =>
    obtain rfl := Option.some.inj h
    exact hr
  | finish =>
    obtain rfl := Option.some.inj h
    exact Nat.zero_le _

end Response

/-! ## The page -/

/-- A page's buffer is what is pending, and what it sent is in the chunks. -/
structure Represents (p : Page) (r : Response) : Prop where
  sent : r.chunks.flatten = p.sent.flatten.map some
  pending : r.pending = p.buffer.map some
  stderr : r.stderr = p.stderr

theorem Represents.bufIndex {p : Page} {r : Response} (h : Represents p r) :
    r.bufIndex = p.buffer.length := by
  rw [← r.length_pending, h.pending, List.length_map]

theorem Represents.flush {p : Page} {r : Response} (h : Represents p r) :
    Represents p.flush r.flush := by
  refine ⟨?_, rfl, h.stderr⟩
  rw [Response.chunks_flush, List.flatten_append, h.sent, List.flatten_singleton, h.pending]
  simp [Page.flush]

theorem Represents.fail {p : Page} {r : Response} (h : Represents p r) (message : CString) :
    Represents (p.fail message) (r.fail message) :=
  ⟨h.sent, h.pending, congrArg (· ++ [message]) h.stderr⟩

/-- A text that the page has, once it is pending. -/
theorem Represents.print {p : Page} {r : Response} {output buffer : CString} (h : Represents p r)
    (hbuffer : (r.print output).pending = buffer.map some) :
    Represents { p with buffer := buffer } (r.print output) := by
  refine ⟨?_, hbuffer, ?_⟩
  · rw [Response.chunks_print]
    exact h.sent
  · rw [Response.stderr_print]
    exact h.stderr

theorem Represents.emit {p q : Page} {r : Response} {pattern output : CString} {args : List CString}
    (h : Represents p r) (hr : r.bufIndex ≤ 1024) (hformat : format pattern args = some output)
    (hemit : p.emit pattern args = .ok q) : Represents q (r.emit output) := by
  have hindex : (p.buffer ++ output).length = r.bufIndex + output.length := by
    rw [h.bufIndex, List.length_append]
  have hwhole : r.bufIndex + output.length < 2048 →
      (r.print output).pending = (p.buffer ++ output).map some := fun hfits => by
    rw [Response.pending_print hfits, h.pending, List.map_append]
  simp only [Page.emit, hformat, hindex] at hemit
  obtain ⟨hle, hr'⟩ | ⟨hlt, hfits, hr'⟩ | ⟨hge, hr'⟩ := Response.emit_cases r output
  · rw [if_neg (by omega), if_neg (by omega), if_neg (by omega)] at hemit
    rw [hr', ← Except.ok.inj hemit]
    exact h.print (hwhole (by omega))
  · rw [if_neg (by omega), if_neg (by omega), if_pos hlt] at hemit
    rw [hr', ← Except.ok.inj hemit]
    exact (h.print (hwhole hfits)).flush
  · have hnot : ¬ 2048 < r.bufIndex + output.length := fun hover => by
      rw [if_pos hover] at hemit
      cases hemit
    rw [if_neg hnot, if_pos (by omega)] at hemit
    -- It fills the buffer to the last byte, which the null takes.
    have hcut : (r.print output).pending = ((p.buffer ++ output).take 2047 ++ ['\x00']).map some := by
      rw [Response.pending_print_full (by omega) (by omega), h.pending, List.take_append,
        List.take_of_length_le (l := p.buffer) (by rw [← h.bufIndex]; omega), h.bufIndex,
        List.append_assoc, ← List.map_append]
    rw [hr', ← Except.ok.inj hemit]
    exact ((h.print hcut).fail bufferMessage).flush

/-- **As long as a page is defined, its response does what it does.** -/
theorem represents_step {p q : Page} {r : Response} {s : Step} (h : Represents p r)
    (hr : r.bufIndex ≤ 1024) (hstep : p.step s = .ok q) : ∃ t, r.step s = some t ∧ Represents q t := by
  cases s with
  | emit pattern args =>
    cases hformat : format pattern args with
    | none =>
      simp only [Page.step, Page.emit, hformat] at hstep
      cases hstep
    | some output => exact ⟨r.emit output, by rw [Response.step, hformat]; rfl, h.emit hr hformat hstep⟩
  | fail message =>
    obtain rfl := Except.ok.inj hstep
    exact ⟨_, rfl, h.fail message⟩
  | finish =>
    obtain rfl := Except.ok.inj hstep
    refine ⟨_, rfl, ?_, rfl, h.stderr⟩
    rw [Response.send, List.flatten_append, h.flush.sent]
    exact List.append_nil _

theorem represents_stepAll : ∀ {ss : List Step} {p q : Page} {r : Response}, Represents p r →
    r.bufIndex ≤ 1024 → p.stepAll ss = .ok q → ∃ t, r.stepAll ss = some t ∧ Represents q t := by
  intro ss
  induction ss with
  | nil =>
    intro p q r h _ hsteps
    exact ⟨r, rfl, Except.ok.inj hsteps ▸ h⟩
  | cons s ss ih =>
    intro p q r h hr hsteps
    obtain ⟨p', hstep, hrest⟩ := bind_ok hsteps
    obtain ⟨r', hstep', h'⟩ := represents_step h hr hstep
    obtain ⟨t, ht, hq⟩ := ih h' (Response.bufIndex_step hr hstep') hrest
    exact ⟨t, by rw [Response.stepAll_cons, hstep']; exact ht, hq⟩

/-- **So does the response of whole calls.** -/
theorem represents_writeAll {p q : Page} {r : Response} {ms : List Markup} (h : Represents p r)
    (hr : r.bufIndex ≤ 1024) (hwrite : p.writeAll ms = .ok q) :
    ∃ t, r.stepAll (steps p.current ms) = some t ∧ Represents q t := by
  rw [Page.writeAll_eq] at hwrite
  obtain ⟨q', hsteps, rfl⟩ := map_ok hwrite
  obtain ⟨t, ht, hq⟩ := represents_stepAll h hr hsteps
  exact ⟨t, ht, hq.sent, hq.pending, hq.stderr⟩

/-! ## The end of the response -/

/-- What a step prints. -/
def Step.output? : Step → Option CString
  | .emit pattern args => format pattern args
  | .fail _ => none
  | .finish => none

/-- How much that is. -/
def Step.length? (s : Step) : Option ℕ := s.output?.map List.length

/-- What is pending after another piece: nothing, when it fills the buffer past its half. -/
def pendingWith (n length : ℕ) : ℕ := if 1024 < n + length then 0 else n + length

/-- A call whose arguments fit, and that does not end the outermost element. -/
def Markup.Inner (tags : List Tag) : Markup → Prop
  | .tag _ _ => True
  | .attr _ pattern args => (format pattern args).isSome
  | .text pattern args => (format pattern args).isSome
  | .close => ∀ tag, finishTags tags = [tag] → tag.nesting = false

/-- Such calls, one after the other. -/
def AllInner : List Tag → List Markup → Prop
  | _, [] => True
  | tags, m :: ms => m.Inner tags ∧ AllInner (m.tags tags) ms

/-- A document, without the call that ends its outermost element. -/
structure Document where
  calls : List Markup
  inner : AllInner [] calls
  outermost : ∃ tag, finishTags (calls.foldl Markup.tags []) = [tag] ∧ tag.nesting = true

/-- All the calls of a document. -/
def Document.markup (d : Document) : List Markup := d.calls ++ [.close]

/-- The lengths of the pieces that a document is printed in. -/
def Document.lengths (d : Document) : List ℕ := (steps [] d.markup).filterMap Step.length?

/-- A response that nothing was written to; what the buffer holds is left from another. -/
def Response.start (buffer : Vector Char 2048) : Response := { buffer }

/-- **A document's response is ended once**: chunks of some bytes, and then one of none, which comes
with the last call. -/
def EndsOnce (buffer : Vector Char 2048) (d : Document) : Prop :=
  ∃ before after sent, (Response.start buffer).stepAll (steps [] d.calls) = some before ∧
    (Response.start buffer).stepAll (steps [] d.markup) = some after ∧
    before.chunks <+: sent ∧ (∀ chunk ∈ sent, chunk ≠ []) ∧ after.chunks = sent ++ [[]]

/-- A step that prints something, or complains. -/
def Step.Prints : Step → Prop
  | .emit pattern args => (format pattern args).isSome
  | .fail _ => True
  | .finish => False

theorem prints_finishSteps (tags : List Tag) : ∀ s ∈ finishSteps tags, s.Prints := by
  cases tags with
  | nil => exact List.forall_mem_nil _
  | cons tag parents =>
    dsimp only [finishSteps]
    split_ifs
    · exact List.forall_mem_singleton.mpr rfl
    · exact List.forall_mem_nil _

/-- **Calls inside a document print their steps.** -/
theorem Markup.Inner.prints {tags : List Tag} {m : Markup} (h : m.Inner tags) :
    ∀ s ∈ m.steps tags, s.Prints := by
  cases m with
  | tag name nesting =>
    exact List.forall_mem_append.mpr ⟨prints_finishSteps tags, List.forall_mem_singleton.mpr rfl⟩
  | attr name pattern args =>
    refine List.forall_mem_append.mpr ⟨?_, ?_⟩
    · split_ifs
      · exact List.forall_mem_nil _
      · exact List.forall_mem_singleton.mpr trivial
    · exact List.forall_mem_cons.mpr ⟨rfl, List.forall_mem_cons.mpr
        ⟨h, List.forall_mem_singleton.mpr rfl⟩⟩
  | text pattern args =>
    exact List.forall_mem_append.mpr ⟨prints_finishSteps tags, List.forall_mem_singleton.mpr h⟩
  | close =>
    refine List.forall_mem_append.mpr ⟨prints_finishSteps tags, ?_⟩
    have hinner : ∀ tag, finishTags tags = [tag] → tag.nesting = false := h
    cases htags : finishTags tags with
    | nil => exact List.forall_mem_singleton.mpr trivial
    | cons tag parents =>
      dsimp only [endSteps]
      split_ifs with hnesting hroot
      · rw [List.isEmpty_iff.mp hroot] at htags
        rw [hinner tag htags] at hnesting
        cases hnesting
      · exact List.forall_mem_singleton.mpr rfl
      · exact List.forall_mem_singleton.mpr trivial

theorem prints_steps : ∀ {ms : List Markup} {tags : List Tag}, AllInner tags ms →
    ∀ s ∈ steps tags ms, s.Prints := by
  intro ms
  induction ms with
  | nil => exact fun _ => List.forall_mem_nil _
  | cons m ms ih =>
    rintro tags ⟨hm, hms⟩
    exact List.forall_mem_append.mpr ⟨hm.prints, ih hms⟩

namespace Response

/-- **A step that prints sends at most a chunk of some bytes.** -/
theorem step_of_prints {s : Step} (h : s.Prints) (r : Response) : ∃ t sent, r.step s = some t ∧
    t.chunks = r.chunks ++ sent ∧ (∀ chunk ∈ sent, chunk ≠ []) ∧
    t.bufIndex = s.length?.elim r.bufIndex (pendingWith r.bufIndex) := by
  cases s with
  | emit pattern args =>
    obtain ⟨output, hformat⟩ := Option.isSome_iff_exists.mp (show (format pattern args).isSome from h)
    have hstep : r.step (.emit pattern args) = some (r.emit output) := by rw [step, hformat]; rfl
    have hlength : (Step.emit pattern args).length? = some output.length := by
      rw [Step.length?, Step.output?, hformat]
      rfl
    have hne : 1024 < r.bufIndex + output.length → (r.print output).pending ≠ [] := fun hlt heq => by
      rw [pending_eq_nil_iff, bufIndex_print] at heq
      omega
    rw [hlength, Option.elim_some, pendingWith]
    obtain ⟨hle, hemit⟩ | ⟨hlt, -, hemit⟩ | ⟨hge, hemit⟩ := emit_cases r output
    · refine ⟨_, [], hstep, ?_, List.forall_mem_nil _, ?_⟩
      · rw [hemit, List.append_nil, chunks_print]
      · rw [hemit, if_neg (by omega), bufIndex_print]
    · refine ⟨_, [_], hstep, ?_, List.forall_mem_singleton.mpr (hne hlt), ?_⟩
      · rw [hemit, chunks_flush, chunks_print]
      · rw [hemit, if_pos hlt, bufIndex_flush]
    · refine ⟨_, [_], hstep, ?_, List.forall_mem_singleton.mpr (hne (by omega)), ?_⟩
      · rw [hemit, chunks_flush, chunks_fail, pending_fail, chunks_print]
      · rw [hemit, if_pos (by omega), bufIndex_flush]
  | fail message => exact ⟨_, [], rfl, (List.append_nil _).symm, List.forall_mem_nil _, rfl⟩
  | finish => exact h.elim

/-- **So do some steps**, and what is pending comes of the lengths of the pieces. -/
theorem stepAll_of_prints : ∀ {ss : List Step}, (∀ s ∈ ss, s.Prints) → ∀ r : Response,
    ∃ t sent, r.stepAll ss = some t ∧ t.chunks = r.chunks ++ sent ∧ (∀ chunk ∈ sent, chunk ≠ []) ∧
      t.bufIndex = (ss.filterMap Step.length?).foldl pendingWith r.bufIndex := by
  intro ss
  induction ss with
  | nil => exact fun _ r => ⟨r, [], rfl, (List.append_nil _).symm, List.forall_mem_nil _, rfl⟩
  | cons s ss ih =>
    intro h r
    obtain ⟨hs, hss⟩ := List.forall_mem_cons.mp h
    obtain ⟨t, sent, hstep, hchunks, hne, hindex⟩ := step_of_prints hs r
    obtain ⟨u, more, hrest, hchunks', hne', hindex'⟩ := ih hss t
    refine ⟨u, sent ++ more, ?_, ?_, List.forall_mem_append.mpr ⟨hne, hne'⟩, ?_⟩
    · rw [stepAll_cons, hstep]
      exact hrest
    · rw [hchunks', hchunks, List.append_assoc]
    · rw [hindex', hindex, List.filterMap_cons]
      cases s.length? <;> rfl

end Response

/-- The steps of a document: those that print, and the end. -/
theorem Document.exists_steps (d : Document) : ∃ ss : List Step, (∀ s ∈ ss, s.Prints) ∧
    steps [] d.markup = steps [] d.calls ++ (ss ++ [.finish]) := by
  obtain ⟨tag, htags, hnesting⟩ := d.outermost
  refine ⟨finishSteps (d.calls.foldl Markup.tags []) ++ [.emit "</%s>".toList [tag.name]], ?_, ?_⟩
  · exact List.forall_mem_append.mpr ⟨prints_finishSteps _, List.forall_mem_singleton.mpr rfl⟩
  · rw [Document.markup, steps_append]
    simp only [steps, Markup.steps, htags, endSteps, if_pos hnesting, List.append_nil,
      List.append_assoc]
    rfl

/-- **What is sent of a document**: chunks with something in them, what is pending at the end, and the
end of the response. -/
theorem Document.chunks_markup (buffer : Vector Char 2048) (d : Document) :
    ∃ before t sent pending, (Response.start buffer).stepAll (steps [] d.calls) = some before ∧
      (Response.start buffer).stepAll (steps [] d.markup) = some t ∧
      before.chunks <+: sent ∧ (∀ chunk ∈ sent, chunk ≠ []) ∧
      t.chunks = sent ++ [pending] ++ [[]] ∧
      (pending = [] ↔ d.lengths.foldl pendingWith 0 = 0) := by
  obtain ⟨ss, hprints, hsteps⟩ := d.exists_steps
  obtain ⟨before, early, hbefore, hearly, hne, hindex⟩ :=
    Response.stepAll_of_prints (prints_steps d.inner) (Response.start buffer)
  obtain ⟨last, late, hlast, hlate, hne', hindex'⟩ := Response.stepAll_of_prints hprints before
  have hafter : (Response.start buffer).stepAll (steps [] d.markup) = some (last.flush.send []) := by
    rw [hsteps, Response.stepAll_append, hbefore, Option.bind_some, Response.stepAll_append, hlast]
    rfl
  have hchunks : (last.flush.send []).chunks = early ++ late ++ [last.pending] ++ [[]] := by
    have hstart : (Response.start buffer).chunks = [] := rfl
    rw [Response.send, Response.chunks_flush, hlate, hearly, hstart, List.nil_append]
  have hpending : d.lengths.foldl pendingWith 0 = last.bufIndex := by
    rw [hindex', hindex, Document.lengths, hsteps, List.filterMap_append, List.foldl_append,
      List.filterMap_append]
    exact congrArg _ (List.append_nil _)
  refine ⟨before, _, early ++ late, last.pending, hbefore, hafter, ?_,
    List.forall_mem_append.mpr ⟨hne, hne'⟩, hchunks, ?_⟩
  · rw [hearly]
    exact List.prefix_append _ _
  · rw [hpending]
    exact Response.pending_eq_nil_iff

/-- A document whose response is ended once leaves something pending at its end. -/
theorem pendingWith_ne_zero_of_endsOnce {buffer : Vector Char 2048} {d : Document}
    (h : EndsOnce buffer d) : d.lengths.foldl pendingWith 0 ≠ 0 := by
  obtain ⟨-, t, sent, pending, -, hafter, -, -, hchunks, hpending⟩ := d.chunks_markup buffer
  obtain ⟨_, after, sent', -, hafter', -, hsent, hends⟩ := h
  obtain rfl := Option.some.inj (hafter.symm.trans hafter')
  rw [hchunks] at hends
  obtain rfl := List.append_cancel_right hends
  exact mt hpending.mpr (hsent _ (List.mem_append_right _ List.mem_cons_self))

/-- **A document's response is ended once exactly when its last piece leaves something pending.** -/
theorem endsOnce_iff (buffer : Vector Char 2048) (d : Document) :
    EndsOnce buffer d ↔ d.lengths.foldl pendingWith 0 ≠ 0 := by
  refine ⟨pendingWith_ne_zero_of_endsOnce, fun h => ?_⟩
  obtain ⟨before, t, sent, pending, hbefore, hafter, hprefix, hsent, hchunks, hpending⟩ :=
    d.chunks_markup buffer
  refine ⟨before, t, sent ++ [pending], hbefore, hafter, ?_, ?_, hchunks⟩
  · exact hprefix.trans (List.prefix_append _ _)
  · exact List.forall_mem_append.mpr ⟨hsent, List.forall_mem_singleton.mpr (mt hpending.mp h)⟩

/-- A document of which the end tag is the piece that fills the buffer past its half. -/
def brimful : Document where
  calls := [.tag "a".toList true, .text "%s".toList [List.replicate 1020 'x']]
  inner := ⟨trivial, rfl, trivial⟩
  outermost := ⟨_, rfl, rfl⟩

/-- **Its response is ended twice.** -/
theorem not_endsOnce_brimful : ¬ EndsOnce (Vector.replicate 2048 '\x00') brimful := by
  have hlengths : ∀ text : CString, (steps [] [.tag "a".toList true, .text "%s".toList [text],
      .close]).filterMap Step.length? = [2, 1, (text ++ []).length, 4] := fun _ => rfl
  have hbrimful : brimful.lengths = [2, 1, 1020, 4] := by
    refine (hlengths _).trans ?_
    rw [List.append_nil, List.length_replicate]
  have hzero : brimful.lengths.foldl pendingWith 0 = 0 := by
    rw [hbrimful]
    decide
  exact fun h => pendingWith_ne_zero_of_endsOnce h hzero

/-! ## The bytes that are sent -/

/-- **A step sends bytes of the buffer only**, and what it prints is sent or pending whole, or complained
of. -/
structure Sound (r : Response) (s : Step) : Prop where
  sent : ∀ t, r.step s = some t → ∃ sent, t.chunks = r.chunks ++ sent ∧
    ∀ chunk ∈ sent, ∀ cell ∈ chunk, cell.isSome
  whole : ∀ t, r.step s = some t → ∀ output ∈ s.output?,
    t.content = r.content ++ output.map some ∨ t.stderr = r.stderr ++ [bufferMessage]

/-- **The buffer has room for what a step prints**, less a null. -/
def Fits (r : Response) (s : Step) : Prop := ∀ n ∈ s.length?, r.bufIndex + n ≤ 2048

namespace Response

variable {r t : Response} {s : Step}

theorem content_print (hfits : r.bufIndex + output.length < 2048) :
    (r.print output).content = r.content ++ output.map some := by
  rw [content, content, chunks_print, pending_print hfits, List.append_assoc]

/-- **A piece is printed soundly exactly when it fits.** -/
theorem sound_emit_iff {pattern output : CString} {args : List CString}
    (hformat : format pattern args = some output) :
    Sound r (.emit pattern args) ↔ r.bufIndex + output.length ≤ 2048 := by
  have hstep : r.step (.emit pattern args) = some (r.emit output) := by rw [step, hformat]; rfl
  have houtput : (Step.emit pattern args).output? = some output := hformat
  have hsound : Sound r (.emit pattern args) ↔ (∃ sent, (r.emit output).chunks = r.chunks ++ sent ∧
      ∀ chunk ∈ sent, ∀ cell ∈ chunk, cell.isSome) ∧
      ((r.emit output).content = r.content ++ output.map some ∨
        (r.emit output).stderr = r.stderr ++ [bufferMessage]) := by
    constructor
    · exact fun h => ⟨h.sent _ hstep, h.whole _ hstep output houtput⟩
    · rintro ⟨hsent, hwhole⟩
      refine ⟨fun t ht => ?_, fun t ht o ho => ?_⟩
      · exact Option.some.inj (hstep.symm.trans ht) ▸ hsent
      · rw [houtput] at ho
        exact Option.some.inj ho ▸ Option.some.inj (hstep.symm.trans ht) ▸ hwhole
  have hpending : (∀ chunk ∈ [(r.print output).pending], ∀ cell ∈ chunk, cell.isSome) ↔
      r.bufIndex + output.length ≤ 2048 := by
    rw [List.forall_mem_singleton, forall_pending_iff, bufIndex_print]
  rw [hsound]
  obtain ⟨hle, hemit⟩ | ⟨hlt, hfits, hemit⟩ | ⟨hge, hemit⟩ := emit_cases r output
  · refine iff_of_true ⟨⟨[], ?_, List.forall_mem_nil _⟩, Or.inl ?_⟩ (by omega)
    · rw [hemit, chunks_print, List.append_nil]
    · rw [hemit, content_print (by omega)]
  · refine iff_of_true ⟨⟨_, ?_, hpending.mpr (Nat.le_of_lt hfits)⟩, Or.inl ?_⟩ (by omega)
    · rw [hemit, chunks_flush, chunks_print]
    · rw [hemit, content_flush, content_print hfits]
  · have hchunks : (r.emit output).chunks = r.chunks ++ [(r.print output).pending] := by
      rw [hemit, chunks_flush, chunks_fail, pending_fail, chunks_print]
    constructor
    · rintro ⟨⟨sent, hsent, hcells⟩, -⟩
      obtain rfl := List.append_cancel_left (hsent.symm.trans hchunks)
      exact hpending.mp hcells
    · intro hle
      refine ⟨⟨_, hchunks, hpending.mpr hle⟩, Or.inr ?_⟩
      rw [hemit, stderr_flush, stderr_fail, stderr_print]

/-- **A step is sound exactly when what it prints fits.** -/
theorem sound_iff_fits (hr : r.bufIndex ≤ 1024) : Sound r s ↔ Fits r s := by
  cases s with
  | emit pattern args =>
    cases hformat : format pattern args with
    | none =>
      have hstep : r.step (.emit pattern args) = none := by rw [step, hformat]; rfl
      refine iff_of_true ⟨fun t ht => ?_, fun t ht => ?_⟩ fun n hn => ?_
      · rw [hstep] at ht
        cases ht
      · rw [hstep] at ht
        cases ht
      · rw [Step.length?, Step.output?, hformat] at hn
        cases hn
    | some output =>
      rw [sound_emit_iff hformat, Fits, Step.length?, Step.output?, hformat]
      refine ⟨fun h n hn => ?_, fun h => h _ rfl⟩
      exact Option.some.inj hn ▸ h
  | fail message =>
    refine iff_of_true ⟨fun t ht => ⟨[], ?_, List.forall_mem_nil _⟩, fun _ _ => nofun⟩ nofun
    obtain rfl := Option.some.inj ht
    exact (List.append_nil _).symm
  | finish =>
    refine iff_of_true ⟨fun t ht => ⟨[r.pending, []], ?_, ?_⟩, fun _ _ => nofun⟩ nofun
    · obtain rfl := Option.some.inj ht
      exact List.append_assoc _ [_] [_]
    · refine List.forall_mem_cons.mpr ⟨forall_pending_iff.mpr (by omega), ?_⟩
      exact List.forall_mem_singleton.mpr (List.forall_mem_nil _)

end Response

/-- **In every run of the template, every step is sound exactly when every piece fits.** -/
theorem forall_sound_iff (buffer : Vector Char 2048) (ms : List Markup) :
    (∀ v ∈ visits Response.step (Response.start buffer) (steps [] ms), Sound v.1 v.2) ↔
      ∀ v ∈ visits Response.step (Response.start buffer) (steps [] ms), Fits v.1 v.2 :=
  forall_visits_iff (I := fun r => r.bufIndex ≤ 1024) (P := Sound) (C := Fits)
    (fun _ _ hr => Response.sound_iff_fits hr) (fun _ _ _ hr _ h => Response.bufIndex_step hr h) _ _
    (Nat.zero_le _)

/-- **A text of 3000 characters has bytes behind the buffer sent.** -/
theorem not_forall_sound_long :
    ¬ ∀ v ∈ visits Response.step (Response.start (Vector.replicate 2048 '\x00'))
      (steps [] [.text "%s".toList [List.replicate 3000 'x']]), Sound v.1 v.2 := by
  have hlong : ∀ (r : Response) (text : CString), text.length = 3000 →
      ¬ Sound r (.emit "%s".toList [text]) := by
    intro r text htext hsound
    have hformat : format "%s".toList [text] = some (text ++ []) := rfl
    have hlength := (Response.sound_emit_iff hformat).mp hsound
    rw [List.append_nil, htext] at hlength
    exact absurd (Nat.le_of_add_left_le hlength) (by decide)
  exact fun h => hlong _ _ List.length_replicate (h (Response.start (Vector.replicate 2048 '\x00'),
    .emit "%s".toList [List.replicate 3000 'x']) List.mem_cons_self)

end Web
