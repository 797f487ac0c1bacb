import HtFirmware.Machinery.Fallible
import HtFirmware.Machinery.Text

/-!
# Web/Template — the HTML templates, and the text they come to

The template functions keep a stack of open tags and write through one buffer, which they flush to
the client when it is more than half full.  `render` is what a list of template calls is for: the
text of the document they describe, given the tags that are open.

A page whose text fits the buffer is that text (`Page.page_of_fits`), whatever was flushed when.
-/

open Machinery

namespace Web

/-- What leaves a handler undefined: a pattern the arguments do not fit, and memory read or written
beyond a buffer. -/
inductive Fault where
  | pattern
  | overread
  | overrun
  deriving DecidableEq

/-! ## The functions -/

/-- `tag_t`, but for its parent. -/
structure Tag where
  name : CString
  isOpen : Bool
  nesting : Bool

/-- `buffer`, as far as `buf_index`; the tags from `current` up to the root, without it; what was
sent to the client, and whether the response was finished; and what was printed on `stderr`. -/
structure Page where
  buffer : CString := []
  current : List Tag := []
  sent : List CString := []
  finished : Bool := false
  stderr : List CString := []

namespace Page

/-- `fail`. -/
def fail (p : Page) (message : CString) : Page := { p with stderr := p.stderr ++ [message] }

/-- `flush`. -/
def flush (p : Page) : Page := { p with sent := p.sent ++ [p.buffer], buffer := [] }

/-- `emit`.  What is flushed is as long as the output would have been, not as what was kept. -/
def emit (p : Page) (pattern : CString) (args : List CString) : Except Fault Page :=
  match format pattern args with
  | none => .error .pattern
  | some output =>
    let buffer := p.buffer ++ output
    if 2048 < buffer.length then .error .overread
    else if buffer.length = 2048 then
      .ok (({ p with buffer := buffer.take 2047 ++ ['\x00'] }).fail
        "output (probably text) too large for buffer.\n".toList).flush
    else if 1024 < buffer.length then .ok ({ p with buffer := buffer }).flush
    else .ok { p with buffer := buffer }

/-- `finish_current_tag`; the root is not open. -/
def finishCurrentTag (p : Page) : Except Fault Page :=
  match p.current with
  | [] => .ok p
  | tag :: parents =>
    if tag.isOpen then do
      let p ← p.emit ">".toList []
      if tag.nesting then .ok { p with current := { tag with isOpen := false } :: parents }
      else .ok { p with current := parents }
    else .ok p

/-- `html_tag`. -/
def htmlTag (p : Page) (name : CString) (nesting : Bool) : Except Fault Page := do
  let p ← p.finishCurrentTag
  let p ← p.emit "<%s".toList [name]
  .ok { p with current := ⟨name, true, nesting⟩ :: p.current }

/-- `html_attr`. -/
def htmlAttr (p : Page) (name pattern : CString) (args : List CString) : Except Fault Page := do
  let p := if p.current.head?.any Tag.isOpen then p
    else p.fail ("attr() must be under the tag it applies to, before anything but " ++
      "another param().\n").toList
  let p ← p.emit " %s=\"".toList [name]
  let p ← p.emit pattern args
  p.emit "\"".toList []

/-- `html_text`. -/
def htmlText (p : Page) (pattern : CString) (args : List CString) : Except Fault Page := do
  let p ← p.finishCurrentTag
  p.emit pattern args

/-- `html_end`; the root is not a nesting tag. -/
def htmlEnd (p : Page) : Except Fault Page := do
  let p ← p.finishCurrentTag
  match p.current with
  | tag :: parents =>
    if tag.nesting then do
      let p ← p.emit "</%s>".toList [tag.name]
      let p := { p with current := parents }
      if parents.isEmpty then .ok { p.flush with finished := true } else .ok p
    else .ok (p.fail "end() called too many times (check for non-nesting tags).\n".toList)
  | [] => .ok (p.fail "end() called too many times (check for non-nesting tags).\n".toList)

end Page

/-- A call of the template. -/
inductive Markup where
  | tag (name : CString) (nesting : Bool)
  | attr (name pattern : CString) (args : List CString)
  | text (pattern : CString) (args : List CString)
  | close

def Page.write (p : Page) : Markup → Except Fault Page
  | .tag name nesting => p.htmlTag name nesting
  | .attr name pattern args => p.htmlAttr name pattern args
  | .text pattern args => p.htmlText pattern args
  | .close => p.htmlEnd

/-- A handler's calls, one after the other. -/
def Page.writeAll (p : Page) (ms : List Markup) : Except Fault Page := ms.foldlM Page.write p

/-! ## The fragments that handlers share -/

/-- The calls of `html_boilerplate`; the title is their pattern. -/
def boilerplateCalls (titl : CString) : List Markup :=
  [.text "<!DOCTYPE HTML>\n".toList [],
    .tag "html".toList true,
    .tag "head".toList true,
    .tag "link".toList false, .attr "rel".toList "stylesheet".toList [],
    .attr "href".toList "/style.css".toList [],
    .tag "title".toList true, .text titl [], .close,
    .close,
    .tag "body".toList true,
    .tag "h1".toList true, .text titl [], .close]

/-- `html_boilerplate`. -/
def htmlBoilerplate (pattern : CString) (args : List CString) : Option (List Markup) :=
  (vsnprintf 128 pattern args).map boilerplateCalls

/-- `html_end_boilerplate`. -/
def htmlEndBoilerplate : List Markup := [.close, .close]

/-- `get_button`. -/
def getButton (t pattern : CString) (args : List CString) : Option (List Markup) :=
  (vsnprintf 128 pattern args).map fun buffer =>
    [.tag "button".toList true,
      .attr "onclick".toList "window.location.href='%s';".toList [buffer],
      .text t [], .close]

/-! ## The text of a document -/

/-- The text that finishes the current tag. -/
def finishText : List Tag → CString
  | [] => []
  | tag :: _ => if tag.isOpen then ['>'] else []

/-- The tags with the current one finished. -/
def finishTags : List Tag → List Tag
  | [] => []
  | tag :: parents =>
    if tag.isOpen then if tag.nesting then { tag with isOpen := false } :: parents else parents
    else tag :: parents

/-- The text that ends the current tag, once finished. -/
def endText : List Tag → CString
  | [] => []
  | tag :: _ => if tag.nesting then "</".toList ++ tag.name ++ ['>'] else []

/-- The tags with the current one ended, once finished. -/
def endTags : List Tag → List Tag
  | [] => []
  | tag :: parents => if tag.nesting then parents else tag :: parents

/-- What a call adds to the document. -/
def Markup.text? (tags : List Tag) : Markup → Option CString
  | .tag name _ => some (finishText tags ++ '<' :: name)
  | .attr name pattern args =>
    (format pattern args).map fun value => ' ' :: name ++ "=\"".toList ++ value ++ ['"']
  | .text pattern args => (format pattern args).map (finishText tags ++ ·)
  | .close => some (finishText tags ++ endText (finishTags tags))

/-- The tags open after a call. -/
def Markup.tags (tags : List Tag) : Markup → List Tag
  | .tag name nesting => ⟨name, true, nesting⟩ :: finishTags tags
  | .attr _ _ _ => tags
  | .text _ _ => finishTags tags
  | .close => endTags (finishTags tags)

/-- The text a list of calls describes. -/
def render : List Tag → List Markup → Option CString
  | _, [] => some []
  | tags, m :: ms => (m.text? tags).bind fun text => (render (m.tags tags) ms).map (text ++ ·)

/-! ## Writing what fits the buffer -/

/-- What was written so far: sent, or still in the buffer. -/
def Page.content (p : Page) : CString := p.sent.flatten ++ p.buffer

/-- From `p` to `q` a text was written, and no more than that was added to the buffer. -/
structure Wrote (p q : Page) (text : CString) : Prop where
  content : q.content = p.content ++ text
  fits : q.buffer.length ≤ p.buffer.length + text.length

theorem Wrote.refl (p : Page) : Wrote p p [] := ⟨(List.append_nil _).symm, Nat.le_refl _⟩

theorem Wrote.trans {p q r : Page} {text more : CString} (hpq : Wrote p q text)
    (hqr : Wrote q r more) : Wrote p r (text ++ more) := by
  refine ⟨?_, ?_⟩
  · rw [hqr.content, hpq.content, List.append_assoc]
  · have hp := hpq.fits
    have hq := hqr.fits
    rw [List.length_append]
    omega

/-- Tags do not count. -/
theorem Wrote.current {p q : Page} {text : CString} (h : Wrote p q text) (tags : List Tag) :
    Wrote p { q with current := tags } text := ⟨h.content, h.fits⟩

/-- Nor does what is printed on `stderr`. -/
theorem Wrote.fail {p q : Page} {text : CString} (h : Wrote p q text) (message : CString) :
    Wrote p (q.fail message) text := ⟨h.content, h.fits⟩

namespace Page

/-- **What fits the buffer is written.** -/
theorem emit_of_fits {p : Page} {pattern output : CString} {args : List CString}
    (hformat : format pattern args = some output)
    (hfits : p.buffer.length + output.length < 2048) :
    ∃ q, p.emit pattern args = .ok q ∧ Wrote p q output ∧ q.current = p.current := by
  have hlength : (p.buffer ++ output).length < 2048 := by
    rw [List.length_append]
    exact hfits
  unfold emit
  rw [hformat]
  dsimp only
  rw [if_neg (by omega), if_neg (by omega)]
  split_ifs
  · refine ⟨_, rfl, ⟨?_, Nat.zero_le _⟩, rfl⟩
    simp only [content, flush, List.flatten_append, List.flatten_singleton, List.append_nil,
      List.append_assoc]
  · refine ⟨_, rfl, ⟨?_, Nat.le_of_eq List.length_append⟩, rfl⟩
    simp only [content, List.append_assoc]

theorem finishCurrentTag_of_fits {p : Page}
    (hfits : p.buffer.length + (finishText p.current).length < 2048) :
    ∃ q, p.finishCurrentTag = .ok q ∧ Wrote p q (finishText p.current) ∧
      q.current = finishTags p.current := by
  unfold finishCurrentTag
  cases hp : p.current with
  | nil => exact ⟨p, rfl, Wrote.refl p, hp⟩
  | cons tag parents =>
    rw [hp] at hfits
    dsimp only [finishText, finishTags] at hfits ⊢
    by_cases hopen : tag.isOpen
    · rw [if_pos hopen] at hfits
      have hformat : format ">".toList [] = some ['>'] := rfl
      obtain ⟨q, hemit, hwrote, -⟩ := emit_of_fits hformat hfits
      simp only [if_pos hopen, hemit]
      by_cases hnesting : tag.nesting
      · exact ⟨_, if_pos hnesting, hwrote.current _, (if_pos hnesting).symm⟩
      · exact ⟨_, if_neg hnesting, hwrote.current _, (if_neg hnesting).symm⟩
    · simp only [if_neg hopen]
      exact ⟨p, rfl, Wrote.refl p, hp⟩

theorem htmlTag_of_fits {p : Page} {name : CString} (nesting : Bool)
    (hfits : p.buffer.length + (finishText p.current ++ '<' :: name).length < 2048) :
    ∃ q, p.htmlTag name nesting = .ok q ∧ Wrote p q (finishText p.current ++ '<' :: name) ∧
      q.current = ⟨name, true, nesting⟩ :: finishTags p.current := by
  rw [List.length_append] at hfits
  obtain ⟨q, hfinish, hwrote, hcurrent⟩ := finishCurrentTag_of_fits (p := p) (by omega)
  have hformat : format "<%s".toList [name] = some ('<' :: name) := by simp [format]
  have hq := hwrote.fits
  obtain ⟨r, hemit, hname, htags⟩ := emit_of_fits (p := q) hformat (by omega)
  refine ⟨{ r with current := ⟨name, true, nesting⟩ :: r.current }, ?_,
    (hwrote.trans hname).current _, ?_⟩
  · simp only [htmlTag, hfinish, hemit, bind, Except.bind]
  · rw [htags, hcurrent]

theorem htmlAttr_of_fits {p : Page} {name pattern value : CString} {args : List CString}
    (hformat : format pattern args = some value)
    (hfits : p.buffer.length + (' ' :: name ++ "=\"".toList ++ value ++ ['"']).length < 2048) :
    ∃ q, p.htmlAttr name pattern args = .ok q ∧
      Wrote p q (' ' :: name ++ "=\"".toList ++ value ++ ['"']) ∧ q.current = p.current := by
  simp only [List.length_append] at hfits
  have hopen : ∃ p', (if p.current.head?.any Tag.isOpen then p
      else p.fail ("attr() must be under the tag it applies to, before anything but " ++
        "another param().\n").toList) = p' ∧ Wrote p p' [] ∧ p'.current = p.current := by
    split_ifs
    · exact ⟨p, rfl, Wrote.refl p, rfl⟩
    · exact ⟨_, rfl, (Wrote.refl p).fail _, rfl⟩
  obtain ⟨p', hopen, hfail, hp'⟩ := hopen
  have hname : format " %s=\"".toList [name] = some (' ' :: name ++ "=\"".toList) := by
    simp [format]
  have hquote : format "\"".toList [] = some ['"'] := rfl
  have hfits' := hfail.fits
  obtain ⟨q, hemitName, hwroteName, hq⟩ := emit_of_fits (p := p') hname
    (by simp only [List.length_append, List.length_nil] at hfits' ⊢; omega)
  have hfitsName := hwroteName.fits
  obtain ⟨r, hemitValue, hwroteValue, hr⟩ := emit_of_fits (p := q) hformat
    (by simp only [List.length_append, List.length_nil] at hfits' hfitsName; omega)
  have hfitsValue := hwroteValue.fits
  obtain ⟨t, hemitQuote, hwroteQuote, ht⟩ := emit_of_fits (p := r) hquote
    (by simp only [List.length_append, List.length_nil] at hfits' hfitsName; omega)
  refine ⟨t, ?_, ((hfail.trans hwroteName).trans hwroteValue).trans hwroteQuote, ?_⟩
  · simp only [htmlAttr, hopen, hemitName, hemitValue, hemitQuote, bind, Except.bind]
  · rw [ht, hr, hq, hp']

theorem htmlText_of_fits {p : Page} {pattern value : CString} {args : List CString}
    (hformat : format pattern args = some value)
    (hfits : p.buffer.length + (finishText p.current ++ value).length < 2048) :
    ∃ q, p.htmlText pattern args = .ok q ∧ Wrote p q (finishText p.current ++ value) ∧
      q.current = finishTags p.current := by
  rw [List.length_append] at hfits
  obtain ⟨q, hfinish, hwrote, hcurrent⟩ := finishCurrentTag_of_fits (p := p) (by omega)
  have hq := hwrote.fits
  obtain ⟨r, hemit, hvalue, htags⟩ := emit_of_fits (p := q) hformat (by omega)
  refine ⟨r, ?_, hwrote.trans hvalue, htags.trans hcurrent⟩
  simp only [htmlText, hfinish, hemit, bind, Except.bind]

/-- Ending the outermost tag flushes the buffer, too. -/
theorem htmlEnd_of_fits {p : Page}
    (hfits : p.buffer.length + (finishText p.current ++ endText (finishTags p.current)).length
      < 2048) :
    ∃ q, p.htmlEnd = .ok q ∧ Wrote p q (finishText p.current ++ endText (finishTags p.current)) ∧
      q.current = endTags (finishTags p.current) ∧
      (q.current = [] → finishTags p.current ≠ [] → q.buffer = []) := by
  rw [List.length_append] at hfits
  obtain ⟨q, hfinish, hwrote, hcurrent⟩ := finishCurrentTag_of_fits (p := p) (by omega)
  have hq := hwrote.fits
  have hfail : Wrote p (q.fail "end() called too many times (check for non-nesting tags).\n".toList)
      (finishText p.current ++ []) := hwrote.trans ((Wrote.refl q).fail _)
  simp only [htmlEnd, hfinish, bind, Except.bind, hcurrent]
  cases htags : finishTags p.current with
  | nil => exact ⟨_, rfl, hfail, hcurrent.trans htags, fun _ h => absurd rfl h⟩
  | cons tag parents =>
    rw [htags] at hfits
    dsimp only [endText, endTags] at hfits ⊢
    by_cases hnesting : tag.nesting
    · have hformat : format "</%s>".toList [tag.name] = some ("</".toList ++ tag.name ++ ['>']) := by
        simp [format]
      simp only [if_pos hnesting] at hfits ⊢
      obtain ⟨r, hemit, hname, -⟩ := emit_of_fits (p := q) hformat (by omega)
      simp only [hemit]
      cases parents with
      | nil =>
        refine ⟨_, if_pos rfl, ⟨?_, Nat.zero_le _⟩, rfl, fun _ _ => rfl⟩
        rw [← (hwrote.trans hname).content]
        simp only [content, flush, List.flatten_append, List.flatten_singleton, List.append_nil]
      | cons parent grandparents =>
        exact ⟨_, if_neg Bool.false_ne_true, (hwrote.trans hname).current _, rfl,
          fun h => absurd h (List.cons_ne_nil _ _)⟩
    · simp only [if_neg hnesting]
      exact ⟨_, rfl, hfail, hcurrent.trans htags, fun h => absurd ((hcurrent.trans htags).symm.trans h)
        (List.cons_ne_nil _ _)⟩

/-- **A call writes what it describes.** -/
theorem write_of_fits {p : Page} {m : Markup} {text : CString}
    (htext : m.text? p.current = some text) (hfits : p.buffer.length + text.length < 2048) :
    ∃ q, p.write m = .ok q ∧ Wrote p q text ∧ q.current = m.tags p.current := by
  cases m with
  | tag name nesting =>
    obtain rfl := Option.some.inj htext
    exact htmlTag_of_fits nesting hfits
  | attr name pattern args =>
    obtain ⟨value, hformat, rfl⟩ := Option.map_eq_some_iff.mp htext
    exact htmlAttr_of_fits hformat hfits
  | text pattern args =>
    obtain ⟨value, hformat, rfl⟩ := Option.map_eq_some_iff.mp htext
    exact htmlText_of_fits hformat hfits
  | close =>
    obtain rfl := Option.some.inj htext
    obtain ⟨q, hq, hwrote, htags, -⟩ := htmlEnd_of_fits hfits
    exact ⟨q, hq, hwrote, htags⟩

/-- **A list of calls writes the text it describes.** -/
theorem writeAll_of_fits : ∀ (ms : List Markup) {p : Page} {text : CString},
    render p.current ms = some text → p.buffer.length + text.length < 2048 →
    ∃ q, p.writeAll ms = .ok q ∧ Wrote p q text ∧ q.current = ms.foldl Markup.tags p.current := by
  intro ms
  induction ms with
  | nil =>
    intro p text hrender _
    obtain rfl := Option.some.inj hrender
    exact ⟨p, rfl, Wrote.refl p, rfl⟩
  | cons m ms ih =>
    intro p text hrender hfits
    obtain ⟨first, hfirst, hmap⟩ := Option.bind_eq_some_iff.mp hrender
    obtain ⟨rest, hrest, rfl⟩ := Option.map_eq_some_iff.mp hmap
    rw [List.length_append] at hfits
    obtain ⟨q, hq, hwrote, hcurrent⟩ := write_of_fits hfirst (by omega)
    have hbuffer := hwrote.fits
    rw [← hcurrent] at hrest
    obtain ⟨r, hr, hmore, htags⟩ := ih hrest (by omega)
    refine ⟨r, ?_, hwrote.trans hmore, ?_⟩
    · rw [writeAll, List.foldlM_cons, hq]
      exact hr
    · rw [htags, hcurrent, List.foldl_cons]

/-- A piece that was printed had a pattern its arguments fit. -/
theorem format_of_emit {p q : Page} {pattern : CString} {args : List CString}
    (h : p.emit pattern args = .ok q) : (format pattern args).isSome := by
  cases hformat : format pattern args with
  | some text => rfl
  | none =>
    rw [emit, hformat] at h
    cases h

/-- So had a call that was made. -/
theorem text?_of_write {p q : Page} {m : Markup} (h : p.write m = .ok q) (tags : List Tag) :
    (m.text? tags).isSome := by
  cases m with
  | tag name nesting => rfl
  | attr name pattern args =>
    obtain ⟨p', -, h⟩ := bind_ok h
    obtain ⟨q', hemit, -⟩ := bind_ok h
    exact Option.isSome_map.trans (format_of_emit hemit)
  | text pattern args =>
    obtain ⟨p', -, hemit⟩ := bind_ok h
    exact Option.isSome_map.trans (format_of_emit hemit)
  | close => rfl

/-- So had all calls that were made. -/
theorem text?_of_writeAll (tags : List Tag) : ∀ {ms : List Markup} {p q : Page},
    p.writeAll ms = .ok q → ∀ m ∈ ms, (m.text? tags).isSome := by
  intro ms
  induction ms with
  | nil => exact fun _ => List.forall_mem_nil _
  | cons m ms ih =>
    intro p q h
    obtain ⟨p', hwrite, hrest⟩ := bind_ok h
    exact List.forall_mem_cons.mpr ⟨text?_of_write hwrite tags, ih hrest⟩

/-- The calls of two lists, one after the other. -/
theorem writeAll_append (p : Page) (ms more : List Markup) :
    p.writeAll (ms ++ more) = (p.writeAll ms).bind (·.writeAll more) :=
  List.foldlM_append

end Page

theorem render_append : ∀ (ms more : List Markup) (tags : List Tag), render tags (ms ++ more) =
    (render tags ms).bind fun text => (render (ms.foldl Markup.tags tags) more).map (text ++ ·) := by
  intro ms more
  induction ms with
  | nil =>
    intro tags
    simp only [List.nil_append, render, Option.bind_some, List.foldl_nil, Option.map_id']
  | cons m ms ih =>
    intro tags
    simp only [List.cons_append, render, ih, List.foldl_cons]
    cases m.text? tags with
    | none => rfl
    | some text =>
      cases render (m.tags tags) ms with
      | none => rfl
      | some rest =>
        simp only [Option.bind_some, Option.map_some, Option.map_map, Function.comp_def,
          List.append_assoc]

theorem finishText_cons (tag : Tag) (parents : List Tag) :
    finishText (tag :: parents) = if tag.isOpen then ['>'] else [] := rfl

/-- The tag just begun, finished. -/
theorem finishTags_open (name : CString) (nesting : Bool) (parents : List Tag) :
    finishTags (⟨name, true, nesting⟩ :: parents)
      = if nesting then ⟨name, false, nesting⟩ :: parents else parents := rfl

/-- A tag that is finished stays as it is. -/
theorem finishTags_closed (name : CString) (nesting : Bool) (parents : List Tag) :
    finishTags (⟨name, false, nesting⟩ :: parents) = ⟨name, false, nesting⟩ :: parents := rfl

/-! ## Documents

The text of a fragment is found from the text of its parts.  A fragment stands in a context: the open
tags, of which only the current one can still take attributes. -/

/-- Only the current tag is open. -/
def Steady (tags : List Tag) : Prop := ∀ tag ∈ tags.tail, tag.isOpen = false

theorem Steady.closed {tags : List Tag} (h : Steady tags) :
    ∀ tag ∈ finishTags tags, tag.isOpen = false := by
  cases tags with
  | nil => exact fun _ h => nomatch h
  | cons tag parents =>
    have hparents : ∀ t ∈ parents, t.isOpen = false := h
    simp only [finishTags]
    split_ifs with hopen
    · exact List.forall_mem_cons.mpr ⟨rfl, hparents⟩
    · exact hparents
    · exact List.forall_mem_cons.mpr ⟨Bool.not_eq_true _ ▸ hopen, hparents⟩

theorem steady_of_closed {tags : List Tag} (h : ∀ tag ∈ tags, tag.isOpen = false) : Steady tags :=
  fun tag htag => h tag (List.mem_of_mem_tail htag)

theorem finishText_of_closed {tags : List Tag} (h : ∀ tag ∈ tags, tag.isOpen = false) :
    finishText tags = [] := by
  cases tags with
  | nil => rfl
  | cons tag parents => exact if_neg (Bool.not_eq_true _ ▸ h tag List.mem_cons_self)

theorem finishTags_of_closed {tags : List Tag} (h : ∀ tag ∈ tags, tag.isOpen = false) :
    finishTags tags = tags := by
  cases tags with
  | nil => rfl
  | cons tag parents => exact if_neg (Bool.not_eq_true _ ▸ h tag List.mem_cons_self)

/-- Attributes, and their text. -/
def Attributes (ms : List Markup) (text : CString) : Prop :=
  ∀ tags, render tags ms = some text ∧ ms.foldl Markup.tags tags = tags

/-- **A fragment, and its text**: it finishes the tag it stands in, and leaves it current. -/
def Renders (ms : List Markup) (text : CString) : Prop :=
  ∀ tags, Steady tags → render tags ms = some (finishText tags ++ text) ∧
    ms.foldl Markup.tags tags = finishTags tags

/-- An element: its attributes, and what stands in it. -/
def element (name : CString) (attrs body : List Markup) : List Markup :=
  .tag name true :: (attrs ++ body ++ [.close])

/-- The text of an element. -/
def elementText (name attrText text : CString) : CString :=
  '<' :: name ++ attrText ++ '>' :: text ++ ("</".toList ++ name ++ ['>'])

/-- An element that nothing stands in. -/
def void (name : CString) (attrs : List Markup) : List Markup := .tag name false :: attrs

theorem attributes_nil : Attributes [] [] := fun _ => ⟨rfl, rfl⟩

theorem Attributes.cons {name pattern value text : CString} {args : List CString}
    {ms : List Markup} (hformat : format pattern args = some value) (h : Attributes ms text) :
    Attributes (.attr name pattern args :: ms)
      (' ' :: name ++ "=\"".toList ++ value ++ ['"'] ++ text) := by
  intro tags
  refine ⟨?_, (h tags).2⟩
  simp only [render, Markup.text?, hformat, Option.map_some, Option.bind_some, Markup.tags,
    (h tags).1]

theorem renders_text {pattern text : CString} {args : List CString}
    (hformat : format pattern args = some text) : Renders [.text pattern args] text := by
  intro tags _
  refine ⟨?_, rfl⟩
  simp only [render, Markup.text?, hformat, Option.map_some, Option.bind_some, List.append_nil]

theorem Renders.append {ms more : List Markup} {text rest : CString} (h : Renders ms text)
    (hmore : Renders more rest) : Renders (ms ++ more) (text ++ rest) := by
  intro tags hsteady
  have hclosed := hsteady.closed
  obtain ⟨hrender, htags⟩ := h tags hsteady
  obtain ⟨hrender', htags'⟩ := hmore (finishTags tags) (steady_of_closed hclosed)
  rw [finishText_of_closed hclosed] at hrender'
  rw [finishTags_of_closed hclosed] at htags'
  refine ⟨?_, ?_⟩
  · rw [render_append, hrender, htags, Option.bind_some, hrender', Option.map_some, List.nil_append,
      List.append_assoc]
  · rw [List.foldl_append, htags, htags']

/-- What stands after a void element finishes it. -/
theorem Renders.void_append (name : CString) {text attrText : CString} {attrs ms : List Markup}
    (hattrs : Attributes attrs attrText) (h : Renders ms text) :
    Renders (void name attrs ++ ms) ('<' :: name ++ attrText ++ '>' :: text) := by
  intro tags hsteady
  have hclosed := hsteady.closed
  obtain ⟨hattr, hsame⟩ := hattrs (⟨name, true, false⟩ :: finishTags tags)
  obtain ⟨hrender, htags⟩ := h (⟨name, true, false⟩ :: finishTags tags) hclosed
  refine ⟨?_, ?_⟩
  · simp only [void, List.cons_append, render, Markup.text?, Markup.tags, Option.bind_some,
      render_append, hattr, hsame, hrender, Option.map_some, finishText_cons, if_true,
      List.append_assoc, List.nil_append]
  · simp only [void, List.cons_append, List.foldl_cons, List.foldl_append, Markup.tags, hsame, htags,
      finishTags_open, Bool.false_eq_true, if_false]

theorem Renders.element (name : CString) {text attrText : CString} {attrs body : List Markup}
    (hattrs : Attributes attrs attrText) (h : Renders body text) :
    Renders (element name attrs body) (elementText name attrText text) := by
  intro tags hsteady
  have hclosed := hsteady.closed
  obtain ⟨hattr, hsame⟩ := hattrs (⟨name, true, true⟩ :: finishTags tags)
  obtain ⟨hrender, htags⟩ := h (⟨name, true, true⟩ :: finishTags tags) hclosed
  refine ⟨?_, ?_⟩
  · simp only [Web.element, elementText, render, Markup.text?, Markup.tags, Option.bind_some,
      render_append, hattr, hsame, hrender, htags, Option.map_some, finishText_cons, finishTags_open,
      finishTags_closed, endText, if_true, Bool.false_eq_true, if_false, List.append_assoc,
      List.cons_append, List.nil_append, List.append_nil]
  · simp only [Web.element, List.foldl_cons, List.foldl_append, List.foldl_nil, Markup.tags, hsame,
      htags, finishTags_open, finishTags_closed, endTags, if_true]

/-! ## Pages -/

/-- What the client gets of a page. -/
def Page.received (p : Page) : CString := p.sent.flatten

/-- Calls that end the outermost tag leave nothing in the buffer. -/
theorem Page.received_of_fits (ms : List Markup) {text : CString} (tag : Tag)
    (hrender : render [] (ms ++ [.close]) = some text) (hfits : text.length < 2048)
    (htags : finishTags (ms.foldl Markup.tags []) = [tag]) (hnesting : tag.nesting) :
    ∃ q, ({} : Page).writeAll (ms ++ [.close]) = .ok q ∧ q.received = text := by
  rw [render_append] at hrender
  obtain ⟨first, hfirst, hmap⟩ := Option.bind_eq_some_iff.mp hrender
  obtain ⟨last, hlast, rfl⟩ := Option.map_eq_some_iff.mp hmap
  rw [List.length_append] at hfits
  obtain ⟨p, hp, hwrote, hcurrent⟩ := writeAll_of_fits ms (p := {}) hfirst
    (by rw [List.length_nil]; omega)
  have hbuffer := hwrote.fits
  obtain ⟨text, htext, hrest⟩ := Option.bind_eq_some_iff.mp hlast
  obtain rfl : text = last := by
    obtain ⟨_, hnil, rfl⟩ := Option.map_eq_some_iff.mp hrest
    obtain rfl := Option.some.inj hnil
    exact (List.append_nil _).symm
  have hcurrent' : p.current = ms.foldl Markup.tags [] := hcurrent
  rw [← hcurrent'] at htext htags
  obtain rfl := Option.some.inj htext
  obtain ⟨q, hq, hend, hqtags, hflushed⟩ := htmlEnd_of_fits (p := p)
    (by rw [List.length_nil] at hbuffer; omega)
  have hroot : q.current = [] := by
    rw [hqtags, htags]
    exact if_pos hnesting
  have hne : finishTags p.current ≠ [] := by
    rw [htags]
    exact List.cons_ne_nil _ _
  refine ⟨q, ?_, ?_⟩
  · rw [writeAll_append, hp]
    exact congrArg (Except.bind · .ok) hq
  · have hcontent := (hwrote.trans hend).content
    rw [content, hflushed hroot hne, List.append_nil] at hcontent
    exact hcontent

/-- **A whole document that fits the buffer is what the client gets.** -/
theorem Page.document_of_fits {doctype doctypeText text : CString} (name : CString)
    {body : List Markup} (hdoctype : format doctype [] = some doctypeText) (hbody : Renders body text)
    (hfits : (doctypeText ++ elementText name [] text).length < 2048) :
    ∃ q, ({} : Page).writeAll (.text doctype [] :: element name [] body) = .ok q ∧
      q.received = doctypeText ++ elementText name [] text := by
  have hdocument := (renders_text hdoctype).append (Renders.element name attributes_nil hbody)
  have htags := (hbody [⟨name, true, true⟩] nofun).2
  refine received_of_fits (.text doctype [] :: .tag name true :: body) ⟨name, false, true⟩
    (hdocument [] nofun).1 hfits ?_ rfl
  simp only [List.foldl_cons, Markup.tags, finishTags] at htags ⊢
  rw [htags]
  rfl

/-- The text of the style sheet's link. -/
def linkText : CString :=
  '<' :: "link".toList ++ " rel=\"stylesheet\" href=\"/style.css\"".toList ++ ['>']

/-- The text of a page with a heading, and what stands under it. -/
def pageText (heading text : CString) : CString :=
  "<!DOCTYPE HTML>\n".toList ++ elementText "html".toList []
    (elementText "head".toList [] (linkText ++ elementText "title".toList [] heading) ++
      elementText "body".toList [] (elementText "h1".toList [] heading ++ text))

theorem length_elementText (name attrText text : CString) :
    (elementText name attrText text).length
      = 2 * name.length + attrText.length + text.length + 5 := by
  have hslash : "</".toList.length = 2 := rfl
  simp only [elementText, List.length_append, List.length_cons, List.length_nil, hslash]
  omega

theorem elementText_inj {name attrText text text' : CString}
    (h : elementText name attrText text = elementText name attrText text') : text = text' := by
  have hcut := List.append_cancel_left (List.append_cancel_right h)
  exact (List.cons.inj hcut).2

theorem length_pageText (heading text : CString) :
    (pageText heading text).length = 120 + 2 * heading.length + text.length := by
  have hlink : linkText.length = 41 := by simp [linkText]
  have hdoctype : "<!DOCTYPE HTML>\n".toList.length = 16 := rfl
  have hhtml : "html".toList.length = 4 := rfl
  have hhead : "head".toList.length = 4 := rfl
  have htitle : "title".toList.length = 5 := rfl
  have hbody : "body".toList.length = 4 := rfl
  have hh1 : "h1".toList.length = 2 := rfl
  unfold pageText
  simp only [List.length_append, length_elementText, List.length_nil, hlink, hdoctype, hhtml, hhead,
    htitle, hbody, hh1]
  omega

/-- A page's text tells what stands under its heading. -/
theorem pageText_inj {heading text text' : CString}
    (h : pageText heading text = pageText heading text') : text = text' := by
  have hhtml := elementText_inj (List.append_cancel_left h)
  have hbody := elementText_inj (List.append_cancel_left hhtml)
  exact List.append_cancel_left hbody

/-- **A page with the boilerplate is written whole when it fits.** -/
theorem Page.page_of_fits {titl heading text : CString} {ms : List Markup}
    (hheading : format titl [] = some heading) (hms : Renders ms text)
    (hfits : (pageText heading text).length < 2048) :
    ∃ q, ({} : Page).writeAll (boilerplateCalls titl ++ ms ++ htmlEndBoilerplate) = .ok q ∧
      q.received = pageText heading text := by
  have hlink : Attributes [.attr "rel".toList "stylesheet".toList [],
      .attr "href".toList "/style.css".toList []]
      " rel=\"stylesheet\" href=\"/style.css\"".toList :=
    .cons (format_of_plain [] (by decide)) (.cons (format_of_plain [] (by decide)) attributes_nil)
  have htitle := Renders.element "title".toList attributes_nil (renders_text hheading)
  have hlinked := htitle.void_append "link".toList hlink
  have hlinkText : '<' :: "link".toList ++ " rel=\"stylesheet\" href=\"/style.css\"".toList
      ++ '>' :: elementText "title".toList [] heading
      = linkText ++ elementText "title".toList [] heading := by
    simp only [linkText, List.append_assoc, List.cons_append, List.nil_append]
  rw [hlinkText] at hlinked
  have hhead := Renders.element "head".toList attributes_nil hlinked
  have hh1 := Renders.element "h1".toList attributes_nil (renders_text hheading)
  have hbody := Renders.element "body".toList attributes_nil (hh1.append hms)
  have hdoctype : format "<!DOCTYPE HTML>\n".toList [] = some "<!DOCTYPE HTML>\n".toList :=
    format_of_plain [] (by decide)
  obtain ⟨q, hq, hreceived⟩ := document_of_fits "html".toList hdoctype (hhead.append hbody) hfits
  refine ⟨q, ?_, hreceived⟩
  rw [← hq]
  simp only [boilerplateCalls, htmlEndBoilerplate, element, void, List.cons_append, List.nil_append,
    List.append_assoc]

end Web
