import HtFirmware.Web.Template

/-!
# Web/Document — documents of any length

A document is a tree, and a handler writes it by calling the template in document order.  A start
tag is closed by whatever comes next, so the page a fragment leaves is compared with the page it
started from *as if both had their current tag finished* (`Adds`): in that view a fragment adds its
text and leaves the open tags as they were, and fragments compose.

Pieces shorter than half the buffer never fill it: between two calls of `emit` no more than 1024
bytes are pending.
-/

open Machinery

namespace Web

/-! ## Documents -/

/-- A pattern, the arguments it fits, and what they come to. -/
structure Formatted where
  pattern : CString
  args : List CString
  text : CString
  formats : format pattern args = some text

/-- An attribute of an element. -/
structure Attribute where
  name : CString
  value : Formatted

/-- A document tree. -/
inductive Node where
  | element (name : CString) (attributes : List Attribute) (children : List Node)
  | void (name : CString) (attributes : List Attribute)
  | text (content : Formatted)

namespace Attribute

/-- The call of `html_attr`. -/
def call (a : Attribute) : Markup := .attr a.name a.value.pattern a.value.args

/-- An attribute's text. -/
def text (a : Attribute) : CString := ' ' :: a.name ++ "=\"".toList ++ a.value.text ++ ['"']

/-- What is formatted for an attribute. -/
def pieces (a : Attribute) : List CString :=
  [' ' :: a.name ++ "=\"".toList, a.value.text, ['"']]

end Attribute

namespace Node

mutual

/-- The calls that write a tree, in document order. -/
def calls : Node → List Markup
  | .element name attributes children =>
    Web.element name (attributes.map Attribute.call) (callsAll children)
  | .void name attributes => Web.void name (attributes.map Attribute.call)
  | .text content => [.text content.pattern content.args]

/-- The calls that write some trees. -/
def callsAll : List Node → List Markup
  | [] => []
  | n :: ns => calls n ++ callsAll ns

end

mutual

/-- A tree, serialised. -/
def serialise : Node → CString
  | .element name attributes children =>
    elementText name (attributes.flatMap Attribute.text) (serialiseAll children)
  | .void name attributes => '<' :: name ++ attributes.flatMap Attribute.text ++ ['>']
  | .text content => content.text

/-- Some trees, serialised. -/
def serialiseAll : List Node → CString
  | [] => []
  | n :: ns => serialise n ++ serialiseAll ns

end

mutual

/-- What is formatted for a tree, piece by piece. -/
def pieces : Node → List CString
  | .element name attributes children =>
    ['<' :: name] ++ attributes.flatMap Attribute.pieces ++ piecesAll children ++
      ["</".toList ++ name ++ ['>']]
  | .void name attributes => ['<' :: name] ++ attributes.flatMap Attribute.pieces
  | .text content => [content.text]

/-- What is formatted for some trees. -/
def piecesAll : List Node → List CString
  | [] => []
  | n :: ns => pieces n ++ piecesAll ns

end

end Node

/-! ## One piece -/

/-- A piece that always fits, with what is pending. -/
def Short (piece : CString) : Prop := piece.length < 1024

/-- A text was put on a page, and its tags left alone. -/
structure Put (p q : Page) (text : CString) : Prop where
  content : q.content = p.content ++ text
  current : q.current = p.current
  pending : q.buffer.length ≤ 1024
  stderr : q.stderr = p.stderr

theorem Put.refl {p : Page} (hp : p.buffer.length ≤ 1024) : Put p p [] :=
  ⟨(List.append_nil _).symm, rfl, hp, rfl⟩

theorem Put.trans {p q r : Page} {text more : CString} (hpq : Put p q text) (hqr : Put q r more) :
    Put p r (text ++ more) :=
  ⟨by rw [hqr.content, hpq.content, List.append_assoc], hqr.current.trans hpq.current, hqr.pending,
    hqr.stderr.trans hpq.stderr⟩

namespace Page

/-- **A short piece is put whole**, and flushed once more than half the buffer is pending. -/
theorem emit_short {p : Page} {pattern output : CString} {args : List CString}
    (hp : p.buffer.length ≤ 1024) (hformat : format pattern args = some output)
    (hshort : Short output) : ∃ q, p.emit pattern args = .ok q ∧ Put p q output := by
  have hlength : (p.buffer ++ output).length < 2048 := by
    rw [List.length_append]
    unfold Short at hshort
    omega
  unfold emit
  rw [hformat]
  dsimp only
  rw [if_neg (by omega), if_neg (by omega)]
  split_ifs with hhalf
  · refine ⟨_, rfl, ?_, rfl, Nat.zero_le _, rfl⟩
    simp only [content, flush, List.flatten_append, List.flatten_singleton, List.append_nil,
      List.append_assoc]
  · refine ⟨_, rfl, ?_, rfl, Nat.le_of_not_lt hhalf, rfl⟩
    simp only [content, List.append_assoc]

end Page

/-! ## Fragments -/

/-- Room for another piece, and no open tag under the current one. -/
structure Page.Ready (p : Page) : Prop where
  pending : p.buffer.length ≤ 1024
  steady : Steady p.current

/-- **A fragment's text was added**, both pages seen with their current tag finished. -/
structure Adds (p q : Page) (text : CString) : Prop where
  ready : q.Ready
  content : q.content ++ finishText q.current = p.content ++ finishText p.current ++ text
  tags : finishTags q.current = finishTags p.current
  stderr : q.stderr = p.stderr

/-- Calls that add a text, wherever they are made. -/
def Writes (ms : List Markup) (text : CString) : Prop :=
  ∀ p : Page, p.Ready → ∃ q, p.writeAll ms = .ok q ∧ Adds p q text

/-- A page that puts a text and closes the current tag has added it. -/
theorem adds_of_closed {p q : Page} {text : CString}
    (hcontent : q.content = p.content ++ finishText p.current ++ text) (hp : p.Ready)
    (htags : q.current = finishTags p.current) (hpending : q.buffer.length ≤ 1024)
    (hstderr : q.stderr = p.stderr) : Adds p q text := by
  have hclosed := hp.steady.closed
  refine ⟨⟨hpending, ?_⟩, ?_, ?_, hstderr⟩
  · rw [htags]
    exact steady_of_closed hclosed
  · rw [htags, finishText_of_closed hclosed, List.append_nil, hcontent]
  · rw [htags, finishTags_of_closed hclosed]

theorem writes_nil : Writes [] [] := fun p hp =>
  ⟨p, rfl, hp, (List.append_nil _).symm, rfl, rfl⟩

theorem Writes.append {ms more : List Markup} {text rest : CString} (h : Writes ms text)
    (hmore : Writes more rest) : Writes (ms ++ more) (text ++ rest) := by
  intro p hp
  obtain ⟨q, hq, hadds⟩ := h p hp
  obtain ⟨r, hr, hrest⟩ := hmore q hadds.ready
  refine ⟨r, ?_, hrest.ready, ?_, hrest.tags.trans hadds.tags, hrest.stderr.trans hadds.stderr⟩
  · rw [Page.writeAll_append, hq]
    exact hr
  · rw [hrest.content, hadds.content, List.append_assoc]

/-! ## The calls -/

namespace Page

theorem finishCurrentTag_ready {p : Page} (hp : p.Ready) :
    ∃ q, p.finishCurrentTag = .ok q ∧ q.content = p.content ++ finishText p.current ∧
      q.current = finishTags p.current ∧ q.buffer.length ≤ 1024 ∧ q.stderr = p.stderr := by
  have hclose : format ">".toList [] = some ['>'] := rfl
  obtain ⟨q, hemit, hput⟩ := emit_short hp.pending hclose (by unfold Short; simp)
  unfold finishCurrentTag
  cases hcurrent : p.current with
  | nil => exact ⟨p, rfl, (List.append_nil _).symm, hcurrent, hp.pending, rfl⟩
  | cons tag parents =>
    dsimp only [finishText, finishTags]
    by_cases hopen : tag.isOpen
    · simp only [if_pos hopen, hemit, bind, Except.bind]
      by_cases hnesting : tag.nesting
      · exact ⟨_, if_pos hnesting, hput.content, (if_pos hnesting).symm, hput.pending, hput.stderr⟩
      · exact ⟨_, if_neg hnesting, hput.content, (if_neg hnesting).symm, hput.pending, hput.stderr⟩
    · simp only [if_neg hopen]
      exact ⟨p, rfl, (List.append_nil _).symm, hcurrent, hp.pending, rfl⟩

theorem htmlTag_ready {p : Page} {name : CString} (nesting : Bool) (hp : p.Ready)
    (hname : Short ('<' :: name)) :
    ∃ q, p.htmlTag name nesting = .ok q ∧
      q.content = p.content ++ finishText p.current ++ '<' :: name ∧
      q.current = ⟨name, true, nesting⟩ :: finishTags p.current ∧ q.buffer.length ≤ 1024 ∧
      q.stderr = p.stderr := by
  obtain ⟨q, hfinish, hcontent, htags, hpending, hstderr⟩ := finishCurrentTag_ready hp
  have hformat : format "<%s".toList [name] = some ('<' :: name) := by simp [format]
  obtain ⟨r, hemit, hput⟩ := emit_short hpending hformat hname
  refine ⟨{ r with current := ⟨name, true, nesting⟩ :: r.current }, ?_, ?_, ?_, hput.pending,
    hput.stderr.trans hstderr⟩
  · simp only [htmlTag, hfinish, hemit, bind, Except.bind]
  · rw [← hcontent]
    exact hput.content
  · rw [hput.current, htags]

/-- An attribute is put as it is, under a tag that is still open. -/
theorem htmlAttr_ready {p : Page} (a : Attribute) (hpending : p.buffer.length ≤ 1024)
    (hopen : p.current.head?.any Tag.isOpen = true) (hshort : ∀ piece ∈ a.pieces, Short piece) :
    ∃ q, p.write a.call = .ok q ∧ Put p q a.text := by
  simp only [Attribute.pieces, List.forall_mem_cons] at hshort
  have hname : format " %s=\"".toList [a.name] = some (' ' :: a.name ++ "=\"".toList) := by
    simp [format]
  have hquote : format "\"".toList [] = some ['"'] := rfl
  obtain ⟨q, hemitName, hputName⟩ := emit_short hpending hname hshort.1
  obtain ⟨r, hemitValue, hputValue⟩ := emit_short hputName.pending a.value.formats hshort.2.1
  obtain ⟨t, hemitQuote, hputQuote⟩ := emit_short hputValue.pending hquote hshort.2.2.1
  refine ⟨t, ?_, (hputName.trans hputValue).trans hputQuote⟩
  simp only [write, Attribute.call, htmlAttr, if_pos hopen, hemitName, hemitValue, hemitQuote, bind,
    Except.bind]

theorem htmlAttrs_ready : ∀ (as : List Attribute) {p : Page}, p.buffer.length ≤ 1024 →
    p.current.head?.any Tag.isOpen = true →
    (∀ piece ∈ as.flatMap Attribute.pieces, Short piece) →
    ∃ q, p.writeAll (as.map Attribute.call) = .ok q ∧ Put p q (as.flatMap Attribute.text)
  | [], p, hpending, _, _ => ⟨p, rfl, Put.refl hpending⟩
  | a :: as, p, hpending, hopen, hshort => by
    rw [List.flatMap_cons, List.forall_mem_append] at hshort
    obtain ⟨q, hq, hput⟩ := htmlAttr_ready a hpending hopen hshort.1
    obtain ⟨r, hr, hrest⟩ := htmlAttrs_ready as hput.pending (hput.current ▸ hopen) hshort.2
    refine ⟨r, ?_, hput.trans hrest⟩
    rw [List.map_cons, writeAll, List.foldlM_cons, hq]
    exact hr

/-- **Ending a finished tag** closes it, and flushes the page when it was the outermost. -/
theorem htmlEnd_ready {p : Page} {name : CString} {parents : List Tag} (hp : p.Ready)
    (htags : finishTags p.current = ⟨name, false, true⟩ :: parents)
    (hname : Short ("</".toList ++ name ++ ['>'])) :
    ∃ q, p.htmlEnd = .ok q ∧
      q.content = p.content ++ finishText p.current ++ ("</".toList ++ name ++ ['>']) ∧
      q.current = parents ∧ q.buffer.length ≤ 1024 ∧ q.stderr = p.stderr ∧
      (parents = [] → q.buffer = []) := by
  obtain ⟨q, hfinish, hcontent, hcurrent, hpending, hstderr⟩ := finishCurrentTag_ready hp
  have hformat : format "</%s>".toList [name] = some ("</".toList ++ name ++ ['>']) := by
    simp [format]
  obtain ⟨r, hemit, hput⟩ := emit_short hpending hformat hname
  rw [htags] at hcurrent
  rw [← hcontent, ← hput.content]
  simp only [htmlEnd, hfinish, bind, Except.bind, hcurrent, if_true, hemit]
  cases parents with
  | nil =>
    refine ⟨_, if_pos rfl, ?_, rfl, Nat.zero_le _, hput.stderr.trans hstderr, fun _ => rfl⟩
    simp only [content, flush, List.flatten_append, List.flatten_singleton, List.append_nil]
  | cons parent grandparents =>
    exact ⟨_, if_neg Bool.false_ne_true, rfl, rfl, hput.pending, hput.stderr.trans hstderr,
      fun h => absurd h (List.cons_ne_nil _ _)⟩

end Page

/-! ## Trees -/

theorem writes_text (content : Formatted) (hshort : Short content.text) :
    Writes [.text content.pattern content.args] content.text := by
  intro p hp
  obtain ⟨q, hfinish, hcontent, htags, hpending, hstderr⟩ := Page.finishCurrentTag_ready hp
  obtain ⟨r, hemit, hput⟩ := Page.emit_short hpending content.formats hshort
  refine ⟨r, ?_, adds_of_closed ?_ hp (hput.current.trans htags) hput.pending
    (hput.stderr.trans hstderr)⟩
  · simp only [Page.writeAll, List.foldlM_cons, List.foldlM_nil, Page.write, Page.htmlText, hfinish,
      hemit, bind, Except.bind, pure, Except.pure]
  · rw [hput.content, hcontent]

/-- A start tag, and its attributes. -/
theorem startTag_ready {p : Page} {name : CString} (nesting : Bool) (attributes : List Attribute)
    (hp : p.Ready) (hname : Short ('<' :: name))
    (hshort : ∀ piece ∈ attributes.flatMap Attribute.pieces, Short piece) :
    ∃ q, p.writeAll (.tag name nesting :: attributes.map Attribute.call) = .ok q ∧
      q.content = p.content ++ finishText p.current ++ '<' :: name
        ++ attributes.flatMap Attribute.text ∧
      q.current = ⟨name, true, nesting⟩ :: finishTags p.current ∧ q.Ready ∧
      q.stderr = p.stderr := by
  obtain ⟨q, htag, hcontent, htags, hpending, hstderr⟩ := Page.htmlTag_ready nesting hp hname
  have hopen : q.current.head?.any Tag.isOpen = true := by rw [htags]; rfl
  obtain ⟨r, hattrs, hput⟩ := Page.htmlAttrs_ready attributes hpending hopen hshort
  have hcurrent := hput.current.trans htags
  refine ⟨r, ?_, ?_, hcurrent, ⟨hput.pending, ?_⟩, hput.stderr.trans hstderr⟩
  · rw [Page.writeAll, List.foldlM_cons, Page.write, htag]
    exact hattrs
  · rw [hput.content, hcontent]
  · rw [hcurrent]
    exact hp.steady.closed

theorem writes_void {name : CString} (attributes : List Attribute) (hname : Short ('<' :: name))
    (hshort : ∀ piece ∈ attributes.flatMap Attribute.pieces, Short piece) :
    Writes (void name (attributes.map Attribute.call))
      ('<' :: name ++ attributes.flatMap Attribute.text ++ ['>']) := by
  intro p hp
  obtain ⟨q, hq, hcontent, htags, hready, hstderr⟩ := startTag_ready false attributes hp hname hshort
  refine ⟨q, hq, hready, ?_, ?_, hstderr⟩
  · rw [hcontent, htags, finishText_cons, if_pos rfl]
    simp only [List.append_assoc, List.cons_append]
  · rw [htags, finishTags_open, if_neg Bool.false_ne_true]

/-- **An element** adds its start tag, what its body adds, and its end tag; the outermost one leaves
nothing pending. -/
theorem element_ready {p : Page} {name text : CString} {attributes : List Attribute}
    {body : List Markup} (hp : p.Ready) (hname : Short ('<' :: name))
    (hshort : ∀ piece ∈ attributes.flatMap Attribute.pieces, Short piece)
    (hbody : Writes body text) (hend : Short ("</".toList ++ name ++ ['>'])) :
    ∃ q, p.writeAll (element name (attributes.map Attribute.call) body) = .ok q ∧
      Adds p q (elementText name (attributes.flatMap Attribute.text) text) ∧
      q.current = finishTags p.current ∧ (q.current = [] → q.buffer = []) := by
  obtain ⟨q, hq, hcontent, htags, hready, hstderr⟩ := startTag_ready true attributes hp hname hshort
  obtain ⟨r, hr, hadds⟩ := hbody q hready
  have hopen : finishTags r.current = ⟨name, false, true⟩ :: finishTags p.current := by
    rw [hadds.tags, htags, finishTags_open, if_pos rfl]
  obtain ⟨t, ht, hended, hcurrent, hpending, hstderr', hflushed⟩ :=
    Page.htmlEnd_ready hadds.ready hopen hend
  refine ⟨t, ?_, adds_of_closed ?_ hp hcurrent hpending
    (hstderr'.trans (hadds.stderr.trans hstderr)), hcurrent, fun h => hflushed (hcurrent ▸ h)⟩
  · have hwrite : r.writeAll [.close] = .ok t := by
      rw [Page.writeAll, List.foldlM_cons, Page.write, ht]
      rfl
    rw [element, List.append_assoc, ← List.cons_append, Page.writeAll_append, hq, Except.bind,
      Page.writeAll_append, hr]
    exact hwrite
  · rw [hended, hadds.content, hcontent, htags, finishText_cons, if_pos rfl]
    simp only [elementText, List.append_assoc, List.cons_append, List.nil_append]

namespace Node

mutual

/-- **A tree of short pieces is written as it is serialised.** -/
theorem writes : ∀ n : Node, (∀ piece ∈ n.pieces, Short piece) → Writes n.calls n.serialise
  | .text content, hshort => writes_text content (hshort _ List.mem_cons_self)
  | .void name attributes, hshort => by
    rw [pieces, List.forall_mem_append, List.forall_mem_singleton] at hshort
    exact writes_void attributes hshort.1 hshort.2
  | .element name attributes children, hshort => by
    simp only [pieces, List.forall_mem_append, List.forall_mem_singleton] at hshort
    intro p hp
    obtain ⟨q, hq, hadds, -⟩ := element_ready hp hshort.1.1.1 hshort.1.1.2
      (writesAll children hshort.1.2) hshort.2
    exact ⟨q, hq, hadds⟩

theorem writesAll : ∀ ns : List Node, (∀ piece ∈ piecesAll ns, Short piece) →
    Writes (callsAll ns) (serialiseAll ns)
  | [], _ => writes_nil
  | n :: ns, hshort => by
    rw [piecesAll, List.forall_mem_append] at hshort
    exact (writes n hshort.1).append (writesAll ns hshort.2)

end

end Node

/-! ## Whole documents -/

/-- `html_doctype`, and a tree. -/
def documentCalls (n : Node) : List Markup := .text "<!DOCTYPE HTML>\n".toList [] :: n.calls

/-- The text of a document. -/
def documentText (n : Node) : CString := "<!DOCTYPE HTML>\n".toList ++ n.serialise

/-- Between two documents nothing is pending, and no tag is left. -/
structure Page.Idle (p : Page) : Prop where
  buffer : p.buffer = []
  current : p.current = []

theorem Page.idle_init : ({} : Page).Idle := ⟨rfl, rfl⟩

theorem Page.Idle.ready {p : Page} (hp : p.Idle) : p.Ready := by
  refine ⟨?_, ?_⟩
  · rw [hp.buffer]
    exact Nat.zero_le _
  · rw [hp.current]
    exact List.forall_mem_nil _

/-- **A document reached the client whole**, without complaint, and left the page as it found it. -/
def Serialised (p : Page) (n : Node) : Prop :=
  ∃ q, p.writeAll (documentCalls n) = .ok q ∧ q.received = p.received ++ documentText n ∧
    q.stderr = p.stderr ∧ q.Idle

/-- The tree is an element that nests. -/
def Node.nests : Node → Bool
  | .element _ _ _ => true
  | .void _ _ => false
  | .text _ => false

/-- **A document of short pieces is serialised**, whatever was written before it. -/
theorem serialised_of_nests {n : Node} (hnests : n.nests = true)
    (hshort : ∀ piece ∈ n.pieces, Short piece) {p : Page} (hp : p.Idle) : Serialised p n := by
  obtain ⟨name, attributes, children⟩ | _ | _ := n
  · simp only [Node.pieces, List.forall_mem_append, List.forall_mem_singleton] at hshort
    have hdoctype := writes_text ⟨"<!DOCTYPE HTML>\n".toList, [], "<!DOCTYPE HTML>\n".toList, rfl⟩
      (by unfold Short; simp)
    obtain ⟨q, hq, hadds⟩ := hdoctype p hp.ready
    obtain ⟨r, hr, hrest, hcurrent, hflushed⟩ := element_ready hadds.ready hshort.1.1.1
      hshort.1.1.2 (Node.writesAll children hshort.1.2) hshort.2
    have htags : r.current = [] := by rw [hcurrent, hadds.tags, hp.current]; rfl
    have hpending := hflushed htags
    refine ⟨r, ?_, ?_, hrest.stderr.trans hadds.stderr, hpending, htags⟩
    · have hboth := Page.writeAll_append p [.text "<!DOCTYPE HTML>\n".toList []]
        (Node.element name attributes children).calls
      rw [hq] at hboth
      exact hboth.trans hr
    · have hcontent := hrest.content
      rw [hadds.content, htags, hp.current, Page.content, Page.content, hpending, hp.buffer]
        at hcontent
      simp only [finishText, List.append_nil] at hcontent
      unfold Page.received documentText
      rw [Node.serialise, ← List.append_assoc]
      exact hcontent
  · cases hnests
  · cases hnests

/-- **Documents reach the client whole**, one after the other, and without complaint. -/
theorem documents_serialised : ∀ (ns : List Node) {p : Page}, p.Idle →
    (∀ n ∈ ns, n.nests = true ∧ ∀ piece ∈ n.pieces, Short piece) →
    ∃ q, p.writeAll (ns.flatMap documentCalls) = .ok q ∧
      q.received = p.received ++ ns.flatMap documentText ∧ q.stderr = p.stderr ∧ q.Idle
  | [], p, hp, _ => ⟨p, rfl, (List.append_nil _).symm, rfl, hp⟩
  | n :: ns, p, hp, hns => by
    obtain ⟨⟨hnests, hshort⟩, hns⟩ := List.forall_mem_cons.mp hns
    obtain ⟨q, hq, hreceived, hstderr, hidle⟩ := serialised_of_nests hnests hshort hp
    obtain ⟨r, hr, hrest, hstderr', hidle'⟩ := documents_serialised ns hidle hns
    refine ⟨r, ?_, ?_, hstderr'.trans hstderr, hidle'⟩
    · rw [List.flatMap_cons, Page.writeAll_append, hq]
      exact hr
    · rw [hrest, hreceived, List.flatMap_cons, List.append_assoc]

/-- Two paragraphs, each with its class, some text and a line break. -/
theorem paragraphs_serialised :
    let paragraph : Node :=
      .element "p".toList [⟨"class".toList, ⟨"%s".toList, ["x".toList], ['x'], rfl⟩⟩]
        [.text ⟨"100%%".toList, [], "100%".toList, rfl⟩, .void "br".toList []]
    ∃ q, ({} : Page).writeAll ([paragraph, paragraph].flatMap documentCalls) = .ok q ∧
      q.received = [] ++ [paragraph, paragraph].flatMap documentText ∧ q.stderr = [] ∧ q.Idle :=
  documents_serialised _ Page.idle_init (by unfold Short; decide)

/-- What stands at the root without nesting is never flushed. -/
theorem not_serialised_at_root :
    ¬ Serialised {} (.text ⟨"x".toList, [], "x".toList, rfl⟩) ∧
      ¬ Serialised {} (.void "br".toList []) := by
  refine ⟨?_, ?_⟩
  · rintro ⟨q, hq, hreceived, -⟩
    obtain rfl := Except.ok.inj (Eq.trans rfl hq)
    exact absurd hreceived (by decide)
  · rintro ⟨q, hq, hreceived, -⟩
    obtain rfl := Except.ok.inj (Eq.trans rfl hq)
    exact absurd hreceived (by decide)

end Web
