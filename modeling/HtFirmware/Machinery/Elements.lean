import HtFirmware.Machinery.Fallible
import Mathlib.Tactic.SplitIfs

/-!
# Machinery/Elements — elements as text

    element ul [(class, x)] [char a, void br []]  ──▸  <ul class="x">a<br></ul>

Some names are those of void elements, which have no end.  Nothing is escaped, so two lists of items can
have one text: a character `<` begins a tag.

Items that are well formed do not: their text tells which they are (`textAll_inj`).  The proof takes the
text apart again, one character after the other, with a stack of the elements that are open.
-/

namespace Machinery

/-! ## Items -/

/-- Names and values. -/
abbrev Attributes := List (List Char × List Char)

/-- A character, or an element. -/
inductive Item where
  | char (c : Char)
  | void (name : List Char) (attributes : Attributes)
  | element (name : List Char) (attributes : Attributes) (children : List Item)

def attributeText (a : List Char × List Char) : List Char := ' ' :: a.1 ++ '=' :: '"' :: a.2 ++ ['"']

/-- A start tag. -/
def startText (name : List Char) (attributes : Attributes) : List Char :=
  '<' :: name ++ attributes.flatMap attributeText ++ ['>']

/-- An end tag. -/
def endTagText (name : List Char) : List Char := '<' :: '/' :: name ++ ['>']

namespace Item

mutual

/-- The text of an item. -/
def text : Item → List Char
  | .char c => [c]
  | .void name attributes => startText name attributes
  | .element name attributes children => startText name attributes ++ textAll children ++ endTagText name

def textAll : List Item → List Char
  | [] => []
  | i :: is => text i ++ textAll is

end

theorem textAll_append (is js : List Item) : textAll (is ++ js) = textAll is ++ textAll js := by
  induction is with
  | nil => rfl
  | cons i is ih => rw [List.cons_append, textAll, textAll, ih, List.append_assoc]

/-- Characters stand for themselves. -/
theorem textAll_map_char (s : List Char) : textAll (s.map .char) = s := by
  induction s with
  | nil => rfl
  | cons c s ih => rw [List.map_cons, textAll, ih, text, List.singleton_append]

end Item

/-! ## Well-formed items -/

/-- A character of a name. -/
def nameChar (c : Char) : Bool := c.isAlphanum || c = '-'

structure NameText (name : List Char) : Prop where
  ne_nil : name ≠ []
  chars : ∀ c ∈ name, nameChar c

/-- An attribute that stands for itself: no quote is in its value. -/
structure AttributeText (a : List Char × List Char) : Prop where
  name : NameText a.1
  value : '"' ∉ a.2

/-- **An item that stands for itself**, given the names of void elements. -/
inductive WellFormed (isVoid : List Char → Bool) : Item → Prop where
  | char {c : Char} : c ≠ '<' → WellFormed isVoid (.char c)
  | void {name : List Char} {attributes : Attributes} : NameText name →
      (∀ a ∈ attributes, AttributeText a) → isVoid name = true → WellFormed isVoid (.void name attributes)
  | element {name : List Char} {attributes : Attributes} {children : List Item} : NameText name →
      (∀ a ∈ attributes, AttributeText a) → isVoid name = false →
      (∀ i ∈ children, WellFormed isVoid i) → WellFormed isVoid (.element name attributes children)

section WellFormed

variable {isVoid : List Char → Bool} {name : List Char} {attributes : Attributes} {children : List Item}

theorem wellFormed_char_iff {c : Char} : WellFormed isVoid (.char c) ↔ c ≠ '<' :=
  ⟨by rintro ⟨hopen⟩; exact hopen, .char⟩

theorem wellFormed_void_iff : WellFormed isVoid (.void name attributes) ↔
    NameText name ∧ (∀ a ∈ attributes, AttributeText a) ∧ isVoid name = true :=
  ⟨by rintro ⟨⟩; exact ⟨‹_›, ‹_›, ‹_›⟩, fun h => .void h.1 h.2.1 h.2.2⟩

theorem wellFormed_element_iff : WellFormed isVoid (.element name attributes children) ↔
    NameText name ∧ (∀ a ∈ attributes, AttributeText a) ∧ isVoid name = false ∧
      ∀ i ∈ children, WellFormed isVoid i :=
  ⟨by rintro ⟨⟩; exact ⟨‹_›, ‹_›, ‹_›, ‹_›⟩, fun h => .element h.1 h.2.1 h.2.2.1 h.2.2.2⟩

end WellFormed

/-! ## A text, taken apart -/

/-- Where in the text it is. -/
inductive Mode where
  | data
  | opened
  | tag (name : List Char) (attributes : Attributes)
  | key (name : List Char) (attributes : Attributes) (key : List Char)
  | quote (name : List Char) (attributes : Attributes) (key : List Char)
  | value (name : List Char) (attributes : Attributes) (key value : List Char)
  | ending (name : List Char)

/-- An element that is open, and what stands before it. -/
structure Frame where
  name : List Char
  attributes : Attributes
  before : List Item

/-- A reader: the open elements, the innermost first, and what it has read in the innermost, the last item
first. -/
structure Reader where
  mode : Mode
  stack : List Frame
  content : List Item

section Reader

variable (isVoid : List Char → Bool)

namespace Reader

/-- The end of a start tag. -/
def start (r : Reader) (name : List Char) (attributes : Attributes) : Reader :=
  if isVoid name then ⟨.data, r.stack, .void name attributes :: r.content⟩
  else ⟨.data, ⟨name, attributes, r.content⟩ :: r.stack, []⟩

/-- An end tag. -/
def close (r : Reader) (name : List Char) : Option Reader :=
  match r.stack with
  | [] => none
  | frame :: stack =>
    if frame.name = name then
      some ⟨.data, stack, .element name frame.attributes r.content.reverse :: frame.before⟩
    else none

/-- One character. -/
def step (r : Reader) (c : Char) : Option Reader :=
  match r.mode with
  | .data =>
    if c = '<' then some { r with mode := .opened }
    else some { r with content := .char c :: r.content }
  | .opened =>
    if c = '/' then some { r with mode := .ending [] }
    else if nameChar c then some { r with mode := .tag [c] [] }
    else none
  | .tag name attributes =>
    if c = ' ' then some { r with mode := .key name attributes [] }
    else if c = '>' then some (r.start isVoid name attributes)
    else if nameChar c ∧ attributes = [] then some { r with mode := .tag (name ++ [c]) [] }
    else none
  | .key name attributes key =>
    if c = '=' ∧ key ≠ [] then some { r with mode := .quote name attributes key }
    else if nameChar c then some { r with mode := .key name attributes (key ++ [c]) }
    else none
  | .quote name attributes key =>
    if c = '"' then some { r with mode := .value name attributes key [] } else none
  | .value name attributes key value =>
    if c = '"' then some { r with mode := .tag name (attributes ++ [(key, value)]) }
    else some { r with mode := .value name attributes key (value ++ [c]) }
  | .ending name =>
    if c = '>' then r.close name
    else if nameChar c then some { r with mode := .ending (name ++ [c]) }
    else none

/-- Some text. -/
def steps (r : Reader) (s : List Char) : Option Reader := s.foldlM (step isVoid) r

end Reader

end Reader

/-! ## What is well formed is told by its text -/

section Text

variable {isVoid : List Char → Bool}

namespace Reader

theorem steps_cons (r : Reader) (c : Char) (s : List Char) :
    r.steps isVoid (c :: s) = (r.step isVoid c).bind (steps isVoid · s) := rfl

theorem steps_append {r r' : Reader} {s : List Char} (h : r.steps isVoid s = some r') (t : List Char) :
    r.steps isVoid (s ++ t) = r'.steps isVoid t := by
  unfold steps at *
  rw [List.foldlM_append, h]
  rfl

variable {stack : List Frame} {content : List Item}

/-- Characters that one mode collects. -/
theorem steps_collect {f : List Char → Mode} {P : Char → Prop}
    (h : ∀ s c, P c → step isVoid ⟨f s, stack, content⟩ c = some ⟨f (s ++ [c]), stack, content⟩) :
    ∀ {t : List Char} (s : List Char), (∀ c ∈ t, P c) →
      steps isVoid ⟨f s, stack, content⟩ t = some ⟨f (s ++ t), stack, content⟩ := by
  intro t
  induction t with
  | nil =>
    intro s _
    rw [List.append_nil]
    rfl
  | cons c t ih =>
    intro s ht
    obtain ⟨hc, ht⟩ := List.forall_mem_cons.mp ht
    rw [steps_cons, h s c hc, Option.bind_some, ih _ ht, List.append_assoc]
    rfl

theorem nameChar_ne {c d : Char} (hc : nameChar c = true) (hd : nameChar d = false) : c ≠ d := by
  rintro rfl
  rw [hc] at hd
  cases hd

/-- The name of a start tag. -/
theorem steps_name {name : List Char} (hname : NameText name) :
    steps isVoid ⟨.data, stack, content⟩ ('<' :: name) = some ⟨.tag name [], stack, content⟩ := by
  obtain ⟨hne, hchars⟩ := hname
  obtain ⟨c, rest, rfl⟩ := List.exists_cons_of_ne_nil hne
  obtain ⟨hc, hrest⟩ := List.forall_mem_cons.mp hchars
  have hslash : c ≠ '/' := nameChar_ne hc rfl
  have hfirst : step isVoid ⟨.opened, stack, content⟩ c = some ⟨.tag [c] [], stack, content⟩ := by
    simp only [step, if_neg hslash, if_pos hc]
  rw [steps_cons]
  change steps isVoid ⟨.opened, stack, content⟩ (c :: rest) = _
  rw [steps_cons, hfirst]
  refine steps_collect (f := fun s => .tag s []) (P := fun c => nameChar c) (fun s c hc => ?_) [c] hrest
  have hblank : c ≠ ' ' := nameChar_ne hc rfl
  have hend : c ≠ '>' := nameChar_ne hc rfl
  simp only [step, if_neg hblank, if_neg hend, hc, and_self, if_true]

/-- An attribute. -/
theorem steps_attribute {name : List Char} (attributes : Attributes) {a : List Char × List Char}
    (ha : AttributeText a) :
    steps isVoid ⟨.tag name attributes, stack, content⟩ (attributeText a)
      = some ⟨.tag name (attributes ++ [a]), stack, content⟩ := by
  obtain ⟨⟨hne, hkey⟩, hvalue⟩ := ha
  have hkeys : steps isVoid ⟨.key name attributes [], stack, content⟩ a.1
      = some ⟨.key name attributes ([] ++ a.1), stack, content⟩ := by
    refine steps_collect (P := fun c => nameChar c) (fun s c hc => ?_) [] hkey
    have heq : c ≠ '=' := nameChar_ne hc rfl
    simp only [step, heq, false_and, if_false, if_pos hc]
  have hvalues : steps isVoid ⟨.value name attributes a.1 [], stack, content⟩ a.2
      = some ⟨.value name attributes a.1 ([] ++ a.2), stack, content⟩ := by
    refine steps_collect (P := fun c => c ≠ '"') (fun s c hc => ?_) []
      (fun c hc => ne_of_mem_of_not_mem hc hvalue)
    simp only [step, if_neg hc]
  have hquote : step isVoid ⟨.key name attributes a.1, stack, content⟩ '='
      = some ⟨.quote name attributes a.1, stack, content⟩ := if_pos ⟨rfl, hne⟩
  have htext : attributeText a = ' ' :: (a.1 ++ ('=' :: '"' :: (a.2 ++ ['"']))) := by
    simp [attributeText]
  rw [htext, steps_cons]
  change (steps isVoid ⟨.key name attributes [], stack, content⟩ _) = _
  rw [steps_append hkeys, List.nil_append, steps_cons, hquote]
  change (steps isVoid ⟨.value name attributes a.1 [], stack, content⟩ _) = _
  rw [steps_append hvalues]
  rfl

theorem steps_attributes {name : List Char} : ∀ {as : Attributes} (attributes : Attributes),
    (∀ a ∈ as, AttributeText a) →
    steps isVoid ⟨.tag name attributes, stack, content⟩ (as.flatMap attributeText)
      = some ⟨.tag name (attributes ++ as), stack, content⟩ := by
  intro as
  induction as with
  | nil =>
    intro attributes _
    rw [List.append_nil]
    rfl
  | cons a as ih =>
    intro attributes h
    obtain ⟨ha, has⟩ := List.forall_mem_cons.mp h
    rw [List.flatMap_cons, steps_append (steps_attribute attributes ha), ih _ has, List.append_assoc]
    rfl

/-- A start tag. -/
theorem steps_startText {name : List Char} {attributes : Attributes} (hname : NameText name)
    (hattributes : ∀ a ∈ attributes, AttributeText a) :
    steps isVoid ⟨.data, stack, content⟩ (startText name attributes)
      = some (start isVoid ⟨.tag name attributes, stack, content⟩ name attributes) := by
  rw [startText, List.append_assoc, steps_append (steps_name hname),
    steps_append (steps_attributes [] hattributes)]
  rfl

/-- An end tag. -/
theorem steps_endTagText {name : List Char} (hname : NameText name) (r : Reader) (hdata : r.mode = .data) :
    r.steps isVoid (endTagText name) = r.close name := by
  obtain ⟨mode, stack, content⟩ := r
  obtain rfl : mode = .data := hdata
  have hending : steps isVoid ⟨.ending [], stack, content⟩ name
      = some ⟨.ending ([] ++ name), stack, content⟩ := by
    refine steps_collect (P := fun c => nameChar c) (fun s c hc => ?_) [] hname.chars
    have hend : c ≠ '>' := nameChar_ne hc rfl
    simp only [step, if_neg hend, if_pos hc]
  change steps isVoid ⟨.ending [], stack, content⟩ (name ++ ['>']) = _
  rw [steps_append hending, steps_cons]
  exact Option.bind_fun_some (close ⟨.data, stack, content⟩ name)

mutual

/-- **A well-formed item is read** from its text. -/
theorem steps_text : ∀ {i : Item} {stack : List Frame} {content : List Item}, WellFormed isVoid i →
    steps isVoid ⟨.data, stack, content⟩ i.text = some ⟨.data, stack, i :: content⟩
  | .char c, stack, content, .char hopen => by
    rw [Item.text, steps_cons]
    simp only [step, if_neg hopen]
    rfl
  | .void name attributes, stack, content, .void hname hattributes hvoid => by
    rw [Item.text, steps_startText hname hattributes, start, if_pos hvoid]
  | .element name attributes children, stack, content, .element hname hattributes hvoid hchildren => by
    have hstart : start isVoid ⟨.tag name attributes, stack, content⟩ name attributes
        = ⟨.data, ⟨name, attributes, content⟩ :: stack, []⟩ := by
      simp only [start, hvoid, Bool.false_eq_true, if_false]
    rw [Item.text, List.append_assoc, steps_append (steps_startText hname hattributes), hstart,
      steps_append (steps_textAll hchildren), steps_endTagText hname _ rfl, close]
    simp only [if_true, List.append_nil, List.reverse_reverse]

theorem steps_textAll : ∀ {is : List Item} {stack : List Frame} {content : List Item},
    (∀ i ∈ is, WellFormed isVoid i) → steps isVoid ⟨.data, stack, content⟩ (Item.textAll is)
      = some ⟨.data, stack, is.reverse ++ content⟩
  | [], stack, content, _ => rfl
  | i :: is, stack, content, h => by
    rw [Item.textAll, steps_append (steps_text (h i List.mem_cons_self)),
      steps_textAll fun j hj => h j (List.mem_cons_of_mem i hj), List.reverse_cons, List.append_assoc]
    rfl

end

end Reader

/-- **The text of well-formed items tells which they are.** -/
theorem textAll_inj {is js : List Item} (his : ∀ i ∈ is, WellFormed isVoid i)
    (hjs : ∀ j ∈ js, WellFormed isVoid j) : Item.textAll is = Item.textAll js ↔ is = js := by
  refine ⟨fun htext => ?_, congrArg Item.textAll⟩
  have hread : some (Reader.mk .data [] (is.reverse ++ [])) = some ⟨.data, [], js.reverse ++ []⟩ := by
    rw [← Reader.steps_textAll his, htext, Reader.steps_textAll hjs]
  rw [Option.some_inj, Reader.mk.injEq, List.append_nil, List.append_nil, List.reverse_inj] at hread
  exact hread.2.2

example : Item.textAll [.void ['b', 'r'] []] = Item.textAll [.char '<', .char 'b', .char 'r', .char '>'] := rfl

end Text

end Machinery
