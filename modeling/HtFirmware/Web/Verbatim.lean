import HtFirmware.Web.Document
import HtFirmware.Web.Link

/-!
# Web/Verbatim — what users chose, on a page

A row of the list, a title and the form of a parameter show strings of a user's.  Where those are
arguments of a pattern they come out as they are.  Mostly they are the pattern.

What a page comes to is the tree of `Web/Document` for whatever the patterns come to; a pattern with a
directive comes to less than itself, if to anything, so the page has the strings in their places
exactly when none has one, and no link was cut (`verbatim_iff`).
-/

open Machinery Nvs

namespace Web

/-! ## The trees -/

/-- A literal without directives. -/
def literal (s : CString) (h : format s [] = some s) : Formatted := ⟨s, [], s, h⟩

/-- A string for a pattern. -/
def asPattern (s : CString) {text : CString} (h : format s [] = some text) : Formatted :=
  ⟨s, [], text, h⟩

theorem format_script (link : CString) : format "window.location.href='%s';".toList [link]
    = some ("window.location.href='".toList ++ link ++ "';".toList) := by
  have hpattern : "window.location.href='%s';".toList
      = "window.location.href='".toList ++ '%' :: 's' :: "';".toList := rfl
  rw [hpattern, format_append_of_plain _ _ (by decide), format_directive,
    format_of_plain [] (by decide), List.append_assoc]
  rfl

/-- A row of the list. -/
def rowNode (link : CString) (name shown explanation : Formatted) : Node :=
  .element "tr".toList []
    [.element "td".toList [] [.element "button".toList
        [⟨"onclick".toList, ⟨_, [link], _, format_script link⟩⟩] [.text (literal "Set".toList rfl)]],
      .element "th".toList [] [.text name],
      .element "td".toList [] [.text shown],
      .element "td".toList [] [.text explanation]]

/-- The head of a page. -/
def headNode (heading : Formatted) : Node :=
  .element "head".toList []
    [.void "link".toList [⟨"rel".toList, literal "stylesheet".toList rfl⟩,
        ⟨"href".toList, literal "/style.css".toList rfl⟩],
      .element "title".toList [] [.text heading]]

/-- The heading of a page. -/
def headingNode (heading : Formatted) : Node := .element "h1".toList [] [.text heading]

/-- The form of a parameter. -/
def formNode (name value : Formatted) : Node :=
  .element "form".toList [⟨"method".toList, literal "post".toList rfl⟩,
      ⟨"action".toList, literal "/setting".toList rfl⟩]
    [.void "input".toList [⟨"type".toList, literal "hidden".toList rfl⟩,
        ⟨"name".toList, literal "name".toList rfl⟩, ⟨"value".toList, name⟩],
      .element "label".toList [⟨"for".toList, name⟩] [.text name],
      .void "input".toList [⟨"type".toList, literal "text".toList rfl⟩,
        ⟨"name".toList, literal "value".toList rfl⟩, ⟨"value".toList, value⟩],
      .void "input".toList [⟨"type".toList, literal "submit".toList rfl⟩]]

/-- A page. -/
def pageNode (heading : Formatted) (contents : Node) : Node :=
  .element "html".toList [] [headNode heading,
    .element "body".toList [] [headingNode heading, contents]]

/-! ## The texts -/

/-- What a row shows for its value, and what it links to. -/
def shownValue (row : Store.Row) : CString :=
  match row.type with
  | .normal => row.value
  | .secret => "(secret)".toList
  | .notSet => "(not set)".toList
  | _ => "(error)".toList

def linkedValue (row : Store.Row) : CString := if row.type = .normal then row.value else []

/-- The text of an attribute. -/
def attributeText (name value : CString) : CString := ' ' :: name ++ "=\"".toList ++ value ++ ['"']

/-- The text of a void element. -/
def voidText (name attrText : CString) : CString := '<' :: name ++ attrText ++ ['>']

/-- The text of a row. -/
def rowText (link name shown explanation : CString) : CString :=
  elementText "tr".toList []
    (elementText "td".toList [] (elementText "button".toList
        (attributeText "onclick".toList ("window.location.href='".toList ++ link ++ "';".toList))
        "Set".toList) ++
      elementText "th".toList [] name ++ elementText "td".toList [] shown ++
      elementText "td".toList [] explanation)

/-- The text of a page's head. -/
def headText (heading : CString) : CString :=
  elementText "head".toList [] (linkText ++ elementText "title".toList [] heading)

/-- The text of `html_doctype`. -/
def doctypeText : CString := "<!DOCTYPE HTML>\n".toList

/-- The text of `html_boilerplate`, which leaves two elements open. -/
def boilerplateText (heading : CString) : CString :=
  doctypeText ++ "<html>".toList ++ headText heading ++ "<body>".toList ++
    elementText "h1".toList [] heading

/-- The text of a parameter's form. -/
def formText (name value : CString) : CString :=
  elementText "form".toList
    (attributeText "method".toList "post".toList ++ attributeText "action".toList "/setting".toList)
    (voidText "input".toList (attributeText "type".toList "hidden".toList ++
        attributeText "name".toList "name".toList ++ attributeText "value".toList name) ++
      elementText "label".toList (attributeText "for".toList name) name ++
      voidText "input".toList (attributeText "type".toList "text".toList ++
        attributeText "name".toList "value".toList ++ attributeText "value".toList value) ++
      voidText "input".toList (attributeText "type".toList "submit".toList))

theorem text_eq (a : Attribute) : a.text = attributeText a.name a.value.text := rfl

theorem serialise_rowNode (link : CString) (name shown explanation : Formatted) :
    (rowNode link name shown explanation).serialise
      = rowText link name.text shown.text explanation.text := by
  simp only [rowNode, rowText, Node.serialise, Node.serialiseAll, text_eq, literal,
    List.flatMap_cons, List.flatMap_nil, List.append_nil, List.append_assoc]

theorem serialise_headNode (heading : Formatted) :
    (headNode heading).serialise = headText heading.text := by
  have hlink : '<' :: "link".toList ++ (attributeText "rel".toList "stylesheet".toList ++
      (attributeText "href".toList "/style.css".toList ++ ['>'])) = linkText := by
    simp [linkText, attributeText]
  rw [headText, ← hlink]
  simp only [headNode, Node.serialise, Node.serialiseAll, text_eq, literal, List.flatMap_cons,
    List.flatMap_nil, List.append_nil, List.append_assoc]

theorem serialise_headingNode (heading : Formatted) :
    (headingNode heading).serialise = elementText "h1".toList [] heading.text := by
  simp only [headingNode, Node.serialise, Node.serialiseAll, List.flatMap_nil, List.append_nil]

theorem serialise_formNode (name value : Formatted) :
    (formNode name value).serialise = formText name.text value.text := by
  simp only [formNode, formText, voidText, Node.serialise, Node.serialiseAll, text_eq, literal,
    List.flatMap_cons, List.flatMap_nil, List.append_nil, List.append_assoc]

theorem documentText_pageNode (heading : Formatted) (contents : Node) :
    documentText (pageNode heading contents) = pageText heading.text contents.serialise := by
  unfold documentText pageNode pageText
  rw [Node.serialise, Node.serialiseAll, Node.serialiseAll, Node.serialiseAll, serialise_headNode,
    Node.serialise, Node.serialiseAll, Node.serialiseAll, Node.serialiseAll, serialise_headingNode,
    headText, List.flatMap_nil, List.append_nil, List.append_nil]

/-! ## Writing them -/

/-- A page that had a text added, both seen with their current tag finished. -/
def Page.Extends (p q : Page) (text : CString) : Prop :=
  q.content ++ finishText q.current = p.content ++ finishText p.current ++ text

/-- Calls that add a text, whatever tags they leave open. -/
def Extends (ms : List Markup) (text : CString) : Prop :=
  ∀ p : Page, p.Ready → ∃ q, p.writeAll ms = .ok q ∧ q.Ready ∧ p.Extends q text

theorem Writes.extends {ms : List Markup} {text : CString} (h : Writes ms text) :
    Extends ms text := by
  intro p hp
  obtain ⟨q, hq, hadds⟩ := h p hp
  exact ⟨q, hq, hadds.ready, hadds.content⟩

theorem Extends.append {ms more : List Markup} {text rest : CString} (h : Extends ms text)
    (hmore : Extends more rest) : Extends (ms ++ more) (text ++ rest) := by
  intro p hp
  obtain ⟨q, hq, hready, hextends⟩ := h p hp
  obtain ⟨r, hr, hready', hrest⟩ := hmore q hready
  refine ⟨r, ?_, hready', ?_⟩
  · rw [Page.writeAll_append, hq]
    exact hr
  · unfold Page.Extends at *
    rw [hrest, hextends, List.append_assoc]

/-- A start tag. -/
theorem extends_startTag {name : CString} (hname : Short ('<' :: name)) :
    Extends [.tag name true] ('<' :: name ++ ['>']) := by
  intro p hp
  obtain ⟨q, hq, hcontent, htags, hready, -⟩ := startTag_ready true [] hp hname
    (List.forall_mem_nil _)
  refine ⟨q, hq, hready, ?_⟩
  rw [Page.Extends, hcontent, htags, finishText_cons, if_pos rfl]
  simp only [List.flatMap_nil, List.append_nil, List.append_assoc, List.cons_append]

theorem short_rowNode {link : CString} {name shown explanation : Formatted} (hlink : link.length < 128)
    (hname : name.text.length < 1024) (hshown : shown.text.length < 1024)
    (hexplanation : explanation.text.length < 1024) :
    ∀ piece ∈ (rowNode link name shown explanation).pieces, Short piece := by
  simp only [rowNode, Node.pieces, Node.piecesAll, Attribute.pieces, literal, Short,
    List.flatMap_cons, List.flatMap_nil, List.append_nil, List.forall_mem_append,
    List.forall_mem_cons, List.length_append, List.length_cons, List.length_nil]
  simp
  omega

theorem short_headNode {heading : Formatted} (hheading : heading.text.length < 128) :
    ∀ piece ∈ (headNode heading).pieces, Short piece := by
  simp [headNode, Node.pieces, Node.piecesAll, Attribute.pieces, literal, Short]
  omega

theorem short_headingNode {heading : Formatted} (hheading : heading.text.length < 128) :
    ∀ piece ∈ (headingNode heading).pieces, Short piece := by
  simp [headingNode, Node.pieces, Node.piecesAll, Short]
  omega

theorem short_formNode {name value : Formatted} (hname : name.text.length < 128)
    (hvalue : value.text.length < 128) : ∀ piece ∈ (formNode name value).pieces, Short piece := by
  simp [formNode, Node.pieces, Node.piecesAll, Attribute.pieces, literal, Short]
  omega

theorem writes_doctype : Writes [.text doctypeText []] doctypeText := by
  have hplain : '%' ∉ doctypeText := by
    unfold doctypeText
    decide
  have hshort : Short doctypeText := by
    unfold Short doctypeText
    simp
  exact writes_text (literal doctypeText (format_of_plain [] hplain)) hshort

theorem short_pageNode {heading name value : Formatted} (hheading : heading.text.length < 128)
    (hname : name.text.length < 128) (hvalue : value.text.length < 128) :
    ∀ piece ∈ (pageNode heading (formNode name value)).pieces, Short piece := by
  have hhead := short_headNode hheading
  have hh1 := short_headingNode hheading
  have hform := short_formNode hname hvalue
  simp only [pageNode, Node.pieces, Node.piecesAll, List.flatMap_nil, List.append_nil,
    List.forall_mem_append, List.forall_mem_singleton]
  refine ⟨⟨?_, hhead, ⟨?_, hh1, hform⟩, ?_⟩, ?_⟩
  all_goals
    unfold Short
    simp

/-! ## The calls -/

/-- The calls of a row. -/
def rowCalls (link name shown explanation : CString) : List Markup :=
  [.tag "tr".toList true, .tag "td".toList true, .tag "button".toList true,
    .attr "onclick".toList "window.location.href='%s';".toList [link], .text "Set".toList [], .close,
    .close, .tag "th".toList true, .text name [], .close, .tag "td".toList true, .text shown [], .close,
    .tag "td".toList true, .text explanation [], .close, .close]

theorem settingRow_eq (row : Store.Row) : settingRow row = some (rowCalls
    ((settingLink row.name (linkedValue row)).take 127) row.name (shownValue row)
    row.explanation) := by
  have hbutton : ∀ value, getButton "Set".toList "/setting?name=%s&value=%s".toList [row.name, value]
      = some [.tag "button".toList true, .attr "onclick".toList "window.location.href='%s';".toList
        [(settingLink row.name value).take 127], .text "Set".toList [], .close] := by
    intro value
    rw [getButton, vsnprintf, format_settingLink]
    rfl
  obtain ⟨name, value, explanation, type⟩ := row
  cases type
  all_goals
    unfold settingRow
    dsimp only at hbutton ⊢
    rw [hbutton]
    rfl

/-- The calls of the page with a form. -/
def settingCalls (titl name value : CString) : List Markup :=
  boilerplateCalls titl ++
    [.tag "form".toList true, .attr "method".toList "post".toList [],
      .attr "action".toList "/setting".toList [],
      .tag "input".toList false, .attr "type".toList "hidden".toList [],
      .attr "name".toList "name".toList [], .attr "value".toList name [],
      .tag "label".toList true, .attr "for".toList name [], .text name [], .close,
      .tag "input".toList false, .attr "type".toList "text".toList [],
      .attr "name".toList "value".toList [], .attr "value".toList value [],
      .tag "input".toList false, .attr "type".toList "submit".toList [],
      .close] ++ htmlEndBoilerplate

theorem settingGet_eq {params : List (CString × CString)} {name value : CString}
    (hname : gmParam params "name".toList = some name)
    (hvalue : gmParam params "value".toList = some value) :
    settingGet params = some (settingCalls (settingTitle name) name value) := by
  rw [settingGet, hname, hvalue]
  simp only [bind, Option.bind, htmlBoilerplate_setting]
  rfl

theorem mem_rowCalls (link name shown explanation : CString) :
    .text name [] ∈ rowCalls link name shown explanation ∧
      .text shown [] ∈ rowCalls link name shown explanation ∧
      .text explanation [] ∈ rowCalls link name shown explanation := by
  simp [rowCalls]

theorem mem_settingCalls (titl name value : CString) :
    .text titl [] ∈ settingCalls titl name value ∧ .text name [] ∈ settingCalls titl name value ∧
      .attr "value".toList value [] ∈ settingCalls titl name value := by
  simp [settingCalls, boilerplateCalls]

section
variable {name shown explanation value titl : CString} {n s e v heading : CString}

/-- A row, for what its patterns come to. -/
theorem extends_rowCalls (link : CString) (hlink : link.length < 128)
    (hname : format name [] = some n) (hn : n.length < 1024)
    (hshown : format shown [] = some s) (hs : s.length < 1024)
    (hexplanation : format explanation [] = some e) (he : e.length < 1024) :
    Extends (rowCalls link name shown explanation) (rowText link n s e) := by
  have hcalls : (rowNode link (asPattern name hname) (asPattern shown hshown)
      (asPattern explanation hexplanation)).calls = rowCalls link name shown explanation := rfl
  have hwrites := (Node.writes (rowNode link (asPattern name hname) (asPattern shown hshown)
    (asPattern explanation hexplanation)) (short_rowNode hlink hn hs he)).extends
  rw [serialise_rowNode, hcalls] at hwrites
  exact hwrites

/-- The boilerplate, for what its title comes to. -/
theorem extends_boilerplateCalls (htitl : format titl [] = some heading)
    (hheading : heading.length < 128) :
    Extends (boilerplateCalls titl) (boilerplateText heading) := by
  have hhtml : Extends [.tag "html".toList true] "<html>".toList :=
    extends_startTag (by unfold Short; simp)
  have hbody : Extends [.tag "body".toList true] "<body>".toList :=
    extends_startTag (by unfold Short; simp)
  have hhead := Node.writes (headNode (asPattern titl htitl)) (short_headNode hheading)
  have hh1 := Node.writes (headingNode (asPattern titl htitl)) (short_headingNode hheading)
  rw [serialise_headNode] at hhead
  rw [serialise_headingNode] at hh1
  exact (((writes_doctype.extends.append hhtml).append hhead.extends).append hbody).append
    hh1.extends

/-- The form's page, for what its patterns come to. -/
theorem extends_settingCalls (htitl : format titl [] = some heading) (hheading : heading.length < 128)
    (hname : format name [] = some n) (hn : n.length < 128) (hvalue : format value [] = some v)
    (hv : v.length < 128) :
    Extends (settingCalls titl name value) (pageText heading (formText n v)) := by
  have hcalls : documentCalls (pageNode (asPattern titl htitl) (formNode (asPattern name hname)
      (asPattern value hvalue))) = settingCalls titl name value := rfl
  have hwrites := (writes_doctype.append (Node.writes (pageNode (asPattern titl htitl)
    (formNode (asPattern name hname) (asPattern value hvalue)))
      (short_pageNode hheading hn hv))).extends
  have htext := documentText_pageNode (asPattern titl htitl)
    (formNode (asPattern name hname) (asPattern value hvalue))
  rw [serialise_formNode] at htext
  rw [← hcalls]
  exact htext ▸ hwrites

end

/-! ## What is shown -/

/-- What is shown with strings of a user's: a row of the list, a title, and the form of a parameter. -/
inductive Shown where
  | row (row : Store.Row)
  | title (pattern : CString) (args : List CString) (titl : CString)
  | form (params : List (CString × CString)) (name value : CString)

namespace Shown

/-- The strings are those passed, or built, and shorter than 100 bytes. -/
def Passed : Shown → Prop
  | .row r => r.name.length < 100 ∧ r.value.length < 100 ∧ r.explanation.length < 100
  | .title pattern args titl => vsnprintf 128 pattern args = some titl ∧ titl.length < 100
  | .form params name value =>
    gmParam params "name".toList = some name ∧ gmParam params "value".toList = some value ∧
      name.length < 100 ∧ value.length < 100

/-- The calls of the template. -/
def calls : Shown → Option (List Markup)
  | .row r => settingRow r
  | .title pattern args _ => htmlBoilerplate pattern args
  | .form params _ _ => settingGet params

/-- The text that has each string as it is. -/
def text : Shown → CString
  | .row r =>
    rowText (settingLink r.name (linkedValue r)) r.name (shownValue r) r.explanation
  | .title _ _ titl => boilerplateText titl
  | .form _ name value => pageText ("Setting ".toList ++ name) (formText name value)

/-- **What it takes**: no string that is shown has a directive, and a row's link fits its buffer. -/
def Plain : Shown → Prop
  | .row r => ('%' ∉ r.name ∧ '%' ∉ shownValue r ∧ '%' ∉ r.explanation) ∧
    21 + r.name.length + (linkedValue r).length ≤ 127
  | .title _ _ titl => '%' ∉ titl
  | .form _ name value => '%' ∉ name ∧ '%' ∉ value

end Shown

/-- No directive stands in a pattern that has no arguments. -/
def Markup.Uninterpreted : Markup → Prop
  | .tag _ _ => True
  | .attr _ pattern args => args = [] → '%' ∉ pattern
  | .text pattern args => args = [] → '%' ∉ pattern
  | .close => True

/-- **The page has each string as it is**, and `printf` takes nothing of one for a directive. -/
structure Verbatim (p : Page) (x : Shown) : Prop where
  written : ∃ q, p.writeAll? x.calls = .ok q ∧ p.Extends q x.text
  uninterpreted : ∀ ms, x.calls = some ms → ∀ m ∈ ms, m.Uninterpreted

/-! ## Lengths -/

theorem length_attributeText (name value : CString) :
    (attributeText name value).length = (attributeText name []).length + value.length := by
  simp only [attributeText, List.length_append, List.length_cons, List.length_nil]
  omega

theorem length_rowText (link name shown explanation : CString) :
    (rowText link name shown explanation).length = (rowText [] [] [] []).length + link.length +
      name.length + shown.length + explanation.length := by
  simp only [rowText, length_elementText, attributeText, List.length_append, List.length_cons,
    List.length_nil]
  omega

theorem length_boilerplateText (heading : CString) :
    (boilerplateText heading).length = (boilerplateText []).length + 2 * heading.length := by
  simp only [boilerplateText, headText, length_elementText, List.length_append, List.length_nil]
  omega

theorem length_formText (name value : CString) :
    (formText name value).length = (formText [] []).length + 3 * name.length + value.length := by
  simp only [formText, voidText, length_elementText, length_attributeText _ name,
    length_attributeText _ value, List.length_append, List.length_cons, List.length_nil]
  omega

theorem length_shownValue_lt {row : Store.Row} (h : row.value.length < 100) :
    (shownValue row).length < 100 := by
  obtain ⟨name, value, explanation, type⟩ := row
  cases type with
  | normal => exact h
  | error | notInParameterTable | notSet | secret => simp [shownValue]

theorem length_settingTitle_le (name : CString) :
    (settingTitle name).length ≤ ("Setting ".toList ++ name).length ∧
      (settingTitle name).length ≤ 127 :=
  ⟨List.length_take_le' _ _, List.length_take_le _ _⟩

/-! ## Each string as it is -/

section
variable {p q : Page} {ms : List Markup}

/-- A text that calls were said to add is the one they add. -/
theorem Extends.eq {text text' : CString} (h : Extends ms text) (hp : p.Ready)
    (hq : p.writeAll ms = .ok q) (hextends : p.Extends q text') : text = text' := by
  obtain ⟨q', hq', -, hextends'⟩ := h p hp
  obtain rfl := Except.ok.inj (hq.symm.trans hq')
  exact List.append_cancel_left (hextends'.symm.trans hextends)

/-- Calls that were made had patterns that come to no more than themselves. -/
theorem format_of_writeAll {m : Markup} {pattern : CString} (hq : p.writeAll ms = .ok q) (hmem : m ∈ ms)
    (hm : m = .text pattern [] ∨ ∃ name, m = .attr name pattern []) :
    ∃ text, format pattern [] = some text ∧ text.length ≤ pattern.length := by
  have hsome := Page.text?_of_writeAll [] hq m hmem
  have hformat : (format pattern []).isSome := by
    obtain rfl | ⟨name, rfl⟩ := hm
    · exact Option.isSome_map.symm.trans hsome
    · exact Option.isSome_map.symm.trans hsome
  obtain ⟨text, htext⟩ := Option.isSome_iff_exists.mp hformat
  exact ⟨text, htext, length_format_nil htext⟩

/-- A row that has its strings as they are has plain ones, and a link that fits. -/
theorem plain_of_row {row : Store.Row} (hp : p.Ready) (hrow : (Shown.row row).Passed)
    (hq : p.writeAll? (settingRow row) = .ok q) (hextends : p.Extends q (Shown.row row).text) :
    (Shown.row row).Plain := by
  have hshownLength := length_shownValue_lt hrow.2.1
  obtain ⟨hname, -, hexplanation⟩ := hrow
  rw [settingRow_eq] at hq
  obtain ⟨hmemName, hmemShown, hmemExplanation⟩ := mem_rowCalls
    ((settingLink row.name (linkedValue row)).take 127) row.name (shownValue row) row.explanation
  obtain ⟨n, hn, hnle⟩ := format_of_writeAll hq hmemName (.inl rfl)
  obtain ⟨s, hs, hsle⟩ := format_of_writeAll hq hmemShown (.inl rfl)
  obtain ⟨e, he, hele⟩ := format_of_writeAll hq hmemExplanation (.inl rfl)
  have hwritten := extends_rowCalls ((settingLink row.name (linkedValue row)).take 127)
    (Nat.lt_succ_of_le (List.length_take_le _ _)) hn (by omega) hs (by omega) he (by omega)
  have hlengths := congrArg List.length (hwritten.eq hp hq hextends)
  rw [Shown.text, length_rowText, length_rowText _ row.name, List.length_take,
    length_settingLink] at hlengths
  exact ⟨⟨plain_of_length_le hn (by omega), plain_of_length_le hs (by omega),
    plain_of_length_le he (by omega)⟩, by omega⟩

/-- So does a title. -/
theorem plain_of_title {pattern titl : CString} {args : List CString} (hp : p.Ready)
    (htitl : (Shown.title pattern args titl).Passed)
    (hq : p.writeAll? (htmlBoilerplate pattern args) = .ok q)
    (hextends : p.Extends q (boilerplateText titl)) : '%' ∉ titl := by
  obtain ⟨hbuilt, hlength⟩ := htitl
  rw [htmlBoilerplate, hbuilt, Option.map_some] at hq
  obtain ⟨h, hh, hle⟩ := format_of_writeAll hq (m := .text titl []) (by simp [boilerplateCalls])
    (.inl rfl)
  have hlengths := congrArg List.length
    ((extends_boilerplateCalls hh (by omega)).eq hp hq hextends)
  rw [length_boilerplateText, length_boilerplateText titl] at hlengths
  exact plain_of_length_le hh (by omega)

/-- So does a form. -/
theorem plain_of_form {params : List (CString × CString)} {name value : CString} (hp : p.Ready)
    (hform : (Shown.form params name value).Passed)
    (hq : p.writeAll? (settingGet params) = .ok q)
    (hextends : p.Extends q (Shown.form params name value).text) : '%' ∉ name ∧ '%' ∉ value := by
  obtain ⟨hname, hvalue, hnameLength, hvalueLength⟩ := hform
  rw [settingGet_eq hname hvalue] at hq
  obtain ⟨hmemTitle, hmemName, hmemValue⟩ := mem_settingCalls (settingTitle name) name value
  obtain ⟨h, hh, hhle⟩ := format_of_writeAll hq hmemTitle (.inl rfl)
  obtain ⟨n, hn, hnle⟩ := format_of_writeAll hq hmemName (.inl rfl)
  obtain ⟨v, hv, hvle⟩ := format_of_writeAll hq hmemValue (.inr ⟨_, rfl⟩)
  have htitle := length_settingTitle_le name
  have hwritten := extends_settingCalls hh (by omega) hn (by omega) hv (by omega)
  have hlengths := congrArg List.length (hwritten.eq hp hq hextends)
  rw [Shown.text, length_pageText, length_pageText, length_formText, length_formText name] at hlengths
  exact ⟨plain_of_length_le hn (by omega), plain_of_length_le hv (by omega)⟩

/-- **What is shown as it is, is plain.** -/
theorem plain_of_verbatim {x : Shown} (hp : p.Ready) (hx : x.Passed) (h : Verbatim p x) : x.Plain := by
  obtain ⟨q, hq, hextends⟩ := h.written
  cases x with
  | row row => exact plain_of_row hp hx hq hextends
  | title pattern args titl => exact plain_of_title hp hx hq hextends
  | form params name value => exact plain_of_form hp hx hq hextends

/-- Calls that add the text, and have no directive in a pattern without arguments. -/
theorem Verbatim.of_calls {x : Shown} (hp : p.Ready) (hcalls : x.calls = some ms)
    (htext : Extends ms x.text) (hplain : ∀ m ∈ ms, m.Uninterpreted) : Verbatim p x := by
  refine ⟨?_, fun ms' hms' => ?_⟩
  · rw [hcalls]
    obtain ⟨q, hq, -, hextends⟩ := htext p hp
    exact ⟨q, hq, hextends⟩
  · obtain rfl := Option.some.inj (hcalls.symm.trans hms')
    exact hplain

/-- A plain row is shown as it is. -/
theorem verbatim_row {row : Store.Row} (hp : p.Ready) (hx : (Shown.row row).Passed)
    (h : (Shown.row row).Plain) : Verbatim p (.row row) := by
  obtain ⟨⟨hname, hshown, hexplanation⟩, hlink⟩ := h
  have hshownLength := length_shownValue_lt hx.2.1
  obtain ⟨hnameLength, -, hexplanationLength⟩ := hx
  have htake : (settingLink row.name (linkedValue row)).take 127
      = settingLink row.name (linkedValue row) :=
    List.take_of_length_le (by rw [length_settingLink]; exact hlink)
  have hcalls := settingRow_eq row
  rw [htake] at hcalls
  refine Verbatim.of_calls hp hcalls (extends_rowCalls _ ?_ (format_of_plain [] hname) (by omega)
    (format_of_plain [] hshown) (by omega) (format_of_plain [] hexplanation) (by omega)) ?_
  · rw [length_settingLink]
    omega
  · simp [rowCalls, Markup.Uninterpreted, hname, hshown, hexplanation]

/-- So is a title. -/
theorem verbatim_title {pattern titl : CString} {args : List CString} (hp : p.Ready)
    (hx : (Shown.title pattern args titl).Passed) (h : '%' ∉ titl) :
    Verbatim p (.title pattern args titl) := by
  obtain ⟨hbuilt, hlength⟩ := hx
  have hcalls : htmlBoilerplate pattern args = some (boilerplateCalls titl) := by
    rw [htmlBoilerplate, hbuilt]
    rfl
  refine Verbatim.of_calls hp hcalls (extends_boilerplateCalls (format_of_plain [] h) (by omega)) ?_
  simp [boilerplateCalls, Markup.Uninterpreted, h]

/-- So is a form. -/
theorem verbatim_form {params : List (CString × CString)} {name value : CString} (hp : p.Ready)
    (hx : (Shown.form params name value).Passed) (hnamePlain : '%' ∉ name) (hvaluePlain : '%' ∉ value) :
    Verbatim p (.form params name value) := by
  obtain ⟨hname, hvalue, hnameLength, hvalueLength⟩ := hx
  have htitle : settingTitle name = "Setting ".toList ++ name := settingTitle_eq (by omega)
  have htitleLength := length_settingTitle_le name
  have htitlePlain : '%' ∉ settingTitle name := by
    rw [htitle]
    exact fun hmem => (List.mem_append.mp hmem).elim (by decide) hnamePlain
  refine Verbatim.of_calls hp (settingGet_eq hname hvalue) ?_ ?_
  · rw [Shown.text, ← htitle]
    exact extends_settingCalls (format_of_plain [] htitlePlain) (by omega)
      (format_of_plain [] hnamePlain) (by omega) (format_of_plain [] hvaluePlain) (by omega)
  · simp [settingCalls, boilerplateCalls, htmlEndBoilerplate, Markup.Uninterpreted, htitlePlain,
      hnamePlain, hvaluePlain]

/-- **What is plain is shown as it is.** -/
theorem verbatim_of_plain {x : Shown} (hp : p.Ready) (hx : x.Passed) (h : x.Plain) :
    Verbatim p x := by
  cases x with
  | row row => exact verbatim_row hp hx h
  | title pattern args titl => exact verbatim_title hp hx h
  | form params name value => exact verbatim_form hp hx h.1 h.2

/-- **The strings of a user's are shown as they are exactly when none has a directive**, and, in a row,
the link that has two of them fits its buffer. -/
theorem verbatim_iff {x : Shown} (hp : p.Ready) (hx : x.Passed) : Verbatim p x ↔ x.Plain :=
  ⟨plain_of_verbatim hp hx, verbatim_of_plain hp hx⟩

end

theorem Page.ready_init : ({} : Page).Ready := Page.idle_init.ready

/-- The row of a network's name. -/
def ssidRow (value : CString) : Store.Row :=
  ⟨"ssid".toList, value, "Name of the WiFi access point".toList, .normal⟩

theorem verbatim_ssid : Verbatim {} (.row (ssidRow "home".toList)) :=
  (verbatim_iff Page.ready_init (by unfold Shown.Passed; decide)).mpr (by unfold Shown.Plain; decide)

theorem not_verbatim_percent : ¬ Verbatim {} (.row (ssidRow "100%% home".toList)) ∧
    ¬ Verbatim {} (.form [("name".toList, "ssid".toList), ("value".toList, "%s".toList)]
      "ssid".toList "%s".toList) := by
  refine ⟨fun h => ?_, fun h => ?_⟩
  · have hplain := plain_of_verbatim Page.ready_init (by unfold Shown.Passed; decide) h
    exact absurd (show '%' ∈ "100%% home".toList by decide) hplain.1.2.1
  · have hplain := plain_of_verbatim Page.ready_init (by unfold Shown.Passed; decide) h
    exact absurd (show '%' ∈ "%s".toList by decide) hplain.2

end Web
