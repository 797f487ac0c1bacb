import HtFirmware.Machinery.Elements
import HtFirmware.Web.Document

/-!
# Web/Reading — what the text of a page tells

The template writes texts and values as they are: a `<` in a text begins a tag, and a `"` in a value ends
it.  Which elements have no end is said by `web_template.h`.

Where the elements are called as the header has them, and no text and no value has such a character, what
the client receives tells the elements, attributes and texts that the handler meant: two pages are received
as the same text exactly when they have the same (`received_eq_iff`).
-/

open Machinery

namespace Web

/-- The names that `web_template.h` gives to `html_tag` with `false`. -/
def voidNames : List CString :=
  ["area".toList, "base".toList, "br".toList, "col".toList, "embed".toList, "hr".toList, "img".toList,
    "input".toList, "keygen".toList, "link".toList, "meta".toList, "param".toList, "source".toList,
    "track".toList, "wbr".toList]

def isVoid (name : CString) : Bool := voidNames.contains name

namespace Node

/-- A name and a value. -/
def pair (a : Attribute) : CString × CString := (a.name, a.value.text)

mutual

/-- **What a tree means.** -/
def items : Node → List Item
  | .element name attributes children => [.element name (attributes.map pair) (itemsAll children)]
  | .void name attributes => [.void name (attributes.map pair)]
  | .text content => content.text.map .char

def itemsAll : List Node → List Item
  | [] => []
  | n :: ns => items n ++ itemsAll ns

end

theorem attributeText_pair (a : Attribute) : attributeText (pair a) = a.text := by
  simp [attributeText, pair, Attribute.text]

theorem flatMap_text (attributes : List Attribute) :
    (attributes.map pair).flatMap attributeText = attributes.flatMap Attribute.text := by
  simp only [List.flatMap_map, attributeText_pair]

mutual

/-- Its text is that of what it means. -/
theorem textAll_items : ∀ n : Node, Item.textAll n.items = n.serialise
  | .element name attributes children => by
    rw [items, Item.textAll, Item.textAll, Item.text, textAll_itemsAll children, startText, flatMap_text,
      serialise, elementText, List.append_nil, endTagText]
    simp
  | .void name attributes => by
    rw [items, Item.textAll, Item.textAll, Item.text, startText, flatMap_text, serialise, List.append_nil]
  | .text content => by
    rw [items, Item.textAll_map_char, serialise]

theorem textAll_itemsAll : ∀ ns : List Node, Item.textAll (itemsAll ns) = serialiseAll ns
  | [] => rfl
  | n :: ns => by
    rw [itemsAll, Item.textAll_append, textAll_items n, textAll_itemsAll ns, serialiseAll]

end

/-! ## Trees that are told by their text -/

mutual

/-- **The elements are called as the header has them, and no text or value is taken for markup.** -/
def Clean : Node → Prop
  | .element name attributes children =>
    NameText name ∧ (∀ a ∈ attributes, AttributeText (pair a)) ∧ isVoid name = false ∧ CleanAll children
  | .void name attributes =>
    NameText name ∧ (∀ a ∈ attributes, AttributeText (pair a)) ∧ isVoid name = true
  | .text content => ∀ c ∈ content.text, c ≠ '<'

def CleanAll : List Node → Prop
  | [] => True
  | n :: ns => Clean n ∧ CleanAll ns

end

mutual

theorem wellFormed_items_iff : ∀ n : Node, (∀ i ∈ n.items, WellFormed isVoid i) ↔ n.Clean
  | .element name attributes children => by
    rw [items, List.forall_mem_singleton, wellFormed_element_iff, wellFormed_itemsAll_iff children,
      List.forall_mem_map, Clean]
  | .void name attributes => by
    rw [items, List.forall_mem_singleton, wellFormed_void_iff, List.forall_mem_map, Clean]
  | .text content => by
    simp only [items, List.forall_mem_map, wellFormed_char_iff, Clean]

theorem wellFormed_itemsAll_iff : ∀ ns : List Node,
    (∀ i ∈ itemsAll ns, WellFormed isVoid i) ↔ CleanAll ns
  | [] => iff_of_true (List.forall_mem_nil _) trivial
  | n :: ns => by
    rw [itemsAll, List.forall_mem_append, wellFormed_items_iff n, wellFormed_itemsAll_iff ns, CleanAll]

end

end Node

/-! ## Documents -/

/-- **Documents that are clean have one text exactly when they mean the same.** -/
theorem documentText_eq_iff {n m : Node} (hn : n.Clean) (hm : m.Clean) :
    documentText n = documentText m ↔ n.items = m.items := by
  unfold documentText
  rw [List.append_right_inj, ← n.textAll_items, ← m.textAll_items]
  exact textAll_inj (n.wellFormed_items_iff.mpr hn) (m.wellFormed_items_iff.mpr hm)

/-- **Two pages are received as the same text exactly when they have the same elements, attributes and
texts**, if they are clean. -/
theorem received_eq_iff {n m : Node} (hnests : n.nests = true ∧ m.nests = true)
    (hshort : ∀ piece ∈ n.pieces ++ m.pieces, Short piece) (hclean : n.Clean ∧ m.Clean) {p : Page}
    (hp : p.Idle) :
    (p.writeAll (documentCalls n)).map Page.received = (p.writeAll (documentCalls m)).map Page.received ↔
      n.items = m.items := by
  rw [List.forall_mem_append] at hshort
  obtain ⟨q, hq, hreceived, -, -⟩ := serialised_of_nests hnests.1 hshort.1 hp
  obtain ⟨q', hq', hreceived', -, -⟩ := serialised_of_nests hnests.2 hshort.2 hp
  rw [hq, hq', ← documentText_eq_iff hclean.1 hclean.2, Except.map, Except.map, Except.ok.injEq, hreceived,
    hreceived', List.append_right_inj]

/-- A paragraph with its class, a text and a line break. -/
def paragraph (text : CString) (htext : format text [] = some text) : Node :=
  .element "p".toList [⟨"class".toList, ⟨"%s".toList, ["x".toList], ['x'], rfl⟩⟩]
    [.text ⟨text, [], text, htext⟩, .void "br".toList []]

theorem received_eq_iff_paragraph :
    (({} : Page).writeAll (documentCalls (paragraph ['a'] rfl))).map Page.received
        = (({} : Page).writeAll (documentCalls (paragraph ['b'] rfl))).map Page.received ↔
      (paragraph ['a'] rfl).items = (paragraph ['b'] rfl).items := by
  have hname : ∀ name : CString, name ≠ [] → name.all nameChar = true → NameText name := fun name hne hall =>
    ⟨hne, List.all_eq_true.mp hall⟩
  have hclean : ∀ c : Char, c ≠ '<' → ∀ htext, (paragraph [c] htext).Clean := by
    intro c hc htext
    refine ⟨hname _ (by decide) (by decide), List.forall_mem_singleton.mpr
      ⟨hname _ (by decide) (by decide), by decide⟩, by decide, ?_, ⟨hname _ (by decide) (by decide),
        List.forall_mem_nil _, by decide⟩, trivial⟩
    exact List.forall_mem_singleton.mpr hc
  exact received_eq_iff ⟨rfl, rfl⟩ (by unfold Short; decide)
    ⟨hclean 'a' (by decide) rfl, hclean 'b' (by decide) rfl⟩ Page.idle_init

end Web
