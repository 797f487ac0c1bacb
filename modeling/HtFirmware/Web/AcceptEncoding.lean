import HtFirmware.Server.Reading

/-!
# Web/AcceptEncoding — does the client take what is compressed?

    gzip;q=0.5, deflate, *;q=0

`client_accepts_compression` looks for the first "deflate" in the value of `Accept-Encoding`, and
accepts when a comma, a semicolon or the end is next.  So the first coding with the word in it decides
for all of them: it may be another coding that only ends in it, it may be refused by its weight, and a
space behind it is not expected (`accepts_iff_decided`).
-/

open Machinery
open Server (strstr of_strstr length_le_of_strstr strstr_append not_prefix_of_strstr strstr_of_not)

namespace Web

/-! ## The function -/

/-- `compression`. -/
def compression : CString := "deflate".toList

/-- `httpd_req_get_hdr_value_str`, into a buffer of `size` bytes: `none` where there is no such header,
or no room for it. -/
def httpdReqGetHdrValueStr (value : Option CString) (size : ℕ) : Option CString :=
  value.filter fun s => decide (s.length < size)

/-- The `switch` accepts what is behind the coding. -/
def accepted : List Char := [',', ';', '\x00', '\r', '\n']

/-- The search in the buffer. -/
def foundIn (type buffer : CString) : Bool :=
  match strstr type buffer with
  | none => false
  | some found => decide ((buffer[found + type.length]?).getD '\x00' ∈ accepted)

/-- `client_accepts_compression`, of a request with this value of `Accept-Encoding`. -/
def clientAcceptsCompression (value : Option CString) (type : CString) : Bool :=
  match httpdReqGetHdrValueStr value 128 with
  | none => false
  | some buffer => foundIn type buffer

/-! ## Lists of codings -/

/-- A character of a coding. -/
def isToken (c : Char) : Bool := c.isAlphanum || decide (c ∈ "!#$%&'*+-.^_`|~".toList)

/-- A weight: `;q=` and a number, with spaces. -/
structure Weight where
  before : ℕ
  between : ℕ
  value : CString
  number : value.all fun c => c.isDigit || c = '.'

namespace Weight

def text (w : Weight) : CString :=
  List.replicate w.before ' ' ++ ';' :: (List.replicate w.between ' ' ++ 'q' :: '=' :: w.value)

/-- The weight is zero. -/
def Zero (w : Weight) : Prop := ∀ c ∈ w.value, c = '0' ∨ c = '.'

end Weight

/-- An element of the list: a coding, which may have a weight, with spaces. -/
structure Element where
  before : ℕ
  coding : CString
  weight : Option Weight
  after : ℕ
  token : coding.all isToken

namespace Element

/-- What is behind the coding. -/
def tail (e : Element) : CString := e.weight.elim [] Weight.text ++ List.replicate e.after ' '

def text (e : Element) : CString := List.replicate e.before ' ' ++ (e.coding ++ e.tail)

/-- The element is the coding deflate, with a weight other than zero if it has one. -/
def Accepts (e : Element) : Prop := e.coding = compression ∧ ∀ w ∈ e.weight, ¬ w.Zero

/-- The coding has the word in it. -/
def Mentions (e : Element) : Prop := compression <:+: e.coding

/-- The element is taken for one that accepts: its coding ends in the word, which is not in it before,
and no space is behind it. -/
structure Taken (e : Element) : Prop where
  suffix : compression <:+ e.coding
  first : ¬ compression <:+: e.coding.dropLast
  unspaced : e.tail.head? ≠ some ' '

end Element

/-- The elements, with commas between them. -/
def listText : List Element → CString
  | [] => []
  | e :: l => e.text ++ l.flatMap fun f => ',' :: f.text

/-- **The first element with the word in it decides right**: it is taken for one that accepts, and one
does; or it is not, and none does. -/
inductive Decided : List Element → Prop where
  | nil : Decided []
  | other {e : Element} {l : List Element} : ¬ e.Mentions → Decided l → Decided (e :: l)
  | accepts {e : Element} {l : List Element} : e.Taken → (∃ f ∈ e :: l, f.Accepts) → Decided (e :: l)
  | refuses {e : Element} {l : List Element} : e.Mentions → ¬ e.Taken → (∀ f ∈ e :: l, ¬ f.Accepts) →
      Decided (e :: l)

/-! ## The search -/

section Search

variable {e : Element} {l : List Element} {s t type : CString} {n : ℕ}

/-- A text that the word is not in is passed over. -/
theorem foundIn_append (hs : ∀ m < s.length, ¬ type <+: (s ++ t).drop m) :
    foundIn type (s ++ t) = foundIn type t := by
  cases ht : strstr type t with
  | some found =>
    rw [foundIn, foundIn, strstr_of_not hs ht, ht]
    dsimp only
    rw [Nat.add_assoc, List.getElem?_append_right (Nat.le_add_right _ _), Nat.add_sub_cancel_left]
  | none =>
    have hnone : strstr type (s ++ t) = none := by
      by_contra hsome
      obtain ⟨n, hn⟩ := Option.ne_none_iff_exists'.mp hsome
      have hfound := (of_strstr hn).1
      obtain hlt | hge := Nat.lt_or_ge n s.length
      · exact hs n hlt hfound
      · rw [List.drop_append, List.drop_of_length_le hge, List.nil_append] at hfound
        exact not_prefix_of_strstr ht hfound
    rw [foundIn, foundIn, hnone, ht]

theorem foundIn_spaces (n : ℕ) (t : CString) :
    foundIn compression (List.replicate n ' ' ++ t) = foundIn compression t := by
  induction n with
  | zero => rfl
  | succ n ih =>
    have hpass : foundIn compression ([' '] ++ (List.replicate n ' ' ++ t))
        = foundIn compression (List.replicate n ' ' ++ t) := by
      refine foundIn_append fun m hm hprefix => ?_
      obtain rfl : m = 0 := Nat.lt_one_iff.mp hm
      exact absurd (List.cons_prefix_cons.mp hprefix).1 (by decide)
    exact hpass.trans ih

/-- What is behind a coding has no letter of the word in it. -/
theorem notMem_of_mem_tail {x : Char} (hx : x ∈ e.tail) : x ∉ compression := by
  have hspace : ∀ n, x ∈ List.replicate n ' ' → x ∉ compression := by
    intro n hmem
    obtain rfl := List.eq_of_mem_replicate hmem
    decide
  obtain hweight | hafter := List.mem_append.mp hx
  · cases hw : e.weight with
    | none =>
      rw [hw] at hweight
      cases hweight
    | some w =>
      rw [hw] at hweight
      simp only [Option.elim_some, Weight.text, List.mem_append, List.mem_cons] at hweight
      obtain hspaces | rfl | hspaces | rfl | rfl | hvalue := hweight
      · exact hspace _ hspaces
      · decide
      · exact hspace _ hspaces
      · decide
      · decide
      · have hnumber := List.all_eq_true.mp w.number x hvalue
        intro hmem
        have hletter : ∀ y ∈ compression, (y.isDigit || y = '.') = false :=
          forall_mem_of_all rfl
        rw [hletter x hmem] at hnumber
        cases hnumber
  · exact hspace _ hafter

/-- The word is in a coding, or nowhere in its element. -/
theorem infix_text (h : compression <:+: e.text) : e.Mentions := by
  have hne : compression ≠ [] := by decide
  have hspaces : ∀ x ∈ List.replicate e.before ' ', x ∉ compression := by
    intro x hx
    obtain rfl := List.eq_of_mem_replicate hx
    decide
  have hrest : compression <:+: e.coding ++ e.tail := infix_of_append_left hne hspaces h
  exact infix_of_append_right hne (fun x hx => notMem_of_mem_tail hx) hrest

/-- **An element without the word is passed over.** -/
theorem foundIn_of_not_mentions (h : ¬ e.Mentions) :
    foundIn compression (listText (e :: l)) = foundIn compression (listText l) := by
  have htext : ∀ m, ¬ compression <+: e.text.drop m := fun m hstart =>
    h (infix_text (hstart.isInfix.trans (List.drop_suffix m _).isInfix))
  cases l with
  | nil =>
    have hlist : listText [e] = e.text ++ [] := rfl
    rw [hlist]
    refine foundIn_append fun m hm hprefix => htext m ?_
    rwa [List.append_nil] at hprefix
  | cons f l =>
    have hlist : listText (e :: f :: l) = (e.text ++ [',']) ++ listText (f :: l) := by
      simp [listText]
    rw [hlist]
    refine foundIn_append fun m hm hprefix => htext m ?_
    rw [List.length_append, List.length_singleton] at hm
    rw [List.append_assoc, List.singleton_append, List.drop_append_of_le_length (by omega)] at hprefix
    exact prefix_of_append_cons (by decide) hprefix

/-- What is next behind a coding is a space, a semicolon, a comma, or the end. -/
theorem head_tail (e : Element) : e.tail = [] ∨ e.tail.head? = some ' ' ∨ e.tail.head? = some ';' := by
  have hspaces : ∀ (n : ℕ) (s : CString), 0 < n → (List.replicate n ' ' ++ s).head? = some ' ' := by
    intro n s hn
    obtain ⟨k, rfl⟩ := Nat.exists_eq_add_one_of_ne_zero (Nat.ne_of_gt hn)
    rfl
  unfold Element.tail
  cases e.weight with
  | none =>
    obtain hzero | hpos := Nat.eq_zero_or_pos e.after
    · exact Or.inl (by rw [hzero]; rfl)
    · refine Or.inr (Or.inl ?_)
      have hhead := hspaces e.after [] hpos
      rwa [List.append_nil] at hhead
  | some w =>
    rw [Option.elim_some, Weight.text, List.append_assoc]
    obtain hzero | hpos := Nat.eq_zero_or_pos w.before
    · exact Or.inr (Or.inr (by rw [hzero]; rfl))
    · exact Or.inr (Or.inl (hspaces _ _ hpos))

/-- The `switch` accepts what is behind an element exactly when it is no space. -/
theorem accepted_tail (e : Element) (l : List Element) :
    ((e.tail ++ l.flatMap fun f => ',' :: f.text).head?).getD '\x00' ∈ accepted ↔
      e.tail.head? ≠ some ' ' := by
  obtain hnil | hspace | hsemicolon := head_tail e
  · rw [hnil, List.nil_append]
    cases l with
    | nil => decide
    | cons f l => exact iff_of_true (by decide : ',' ∈ accepted) (by decide)
  · rw [List.head?_append, hspace, Option.some_or, Option.getD_some]
    decide
  · rw [List.head?_append, hsemicolon, Option.some_or, Option.getD_some]
    decide

/-- The first of the words in a text ends it. -/
theorem strstr_last_iff {i : ℕ} (hi : strstr compression s = some i) :
    i + compression.length = s.length ↔ compression <:+ s ∧ ¬ compression <:+: s.dropLast := by
  obtain ⟨hfound, hfirst⟩ := of_strstr hi
  have hwhole : s = s.take i ++ (compression ++ s.drop (i + compression.length)) :=
    Server.eq_of_strstr hi
  have hpos : 0 < compression.length := by decide
  constructor
  · intro hend
    have hnil : s.drop (i + compression.length) = [] := List.drop_of_length_le (Nat.le_of_eq hend.symm)
    refine ⟨?_, ?_⟩
    · rw [hwhole, hnil, List.append_nil]
      exact List.suffix_append _ _
    · -- a word before the end would have been the first
      rintro ⟨u, v, huv⟩
      have hcut := congrArg List.length huv
      rw [List.length_append, List.length_append, List.length_dropLast] at hcut
      obtain ⟨rest, hrest⟩ : u ++ compression <+: s :=
        ⟨v ++ s.drop (s.length - 1), by
          rw [← List.append_assoc, huv, List.dropLast_eq_take, List.take_append_drop]⟩
      refine hfirst u.length (by omega) ⟨rest, ?_⟩
      rw [← hrest, List.append_assoc, List.drop_left]
  · rintro ⟨-, hbefore⟩
    by_contra hne
    have hlength := length_le_of_strstr hi
    have hrest : s.drop (i + compression.length) ≠ [] := by
      rw [Ne, List.drop_eq_nil_iff]
      omega
    refine hbefore ?_
    rw [hwhole, List.dropLast_append_of_ne_nil (by simp [hrest]),
      List.dropLast_append_of_ne_nil hrest]
    exact ⟨_, _, List.append_assoc _ _ _⟩

/-- **An element with the word decides.** -/
theorem foundIn_of_mentions (h : e.Mentions) :
    foundIn compression (listText (e :: l)) = true ↔ e.Taken := by
  obtain ⟨i, hi⟩ : ∃ i, strstr compression e.coding = some i := by
    refine Option.ne_none_iff_exists'.mp fun hnone => ?_
    obtain ⟨s, t, hst⟩ := h
    refine not_prefix_of_strstr (n := s.length) hnone ⟨t, ?_⟩
    rw [← hst, List.append_assoc, List.drop_left]
  have hlast := strstr_last_iff hi
  have hsearch : foundIn compression (listText (e :: l)) = decide
      (((e.coding ++ (e.tail ++ l.flatMap fun f => ',' :: f.text))[i + compression.length]?).getD '\x00'
        ∈ accepted) := by
    rw [listText, Element.text, List.append_assoc, foundIn_spaces, List.append_assoc, foundIn,
      strstr_append hi]
  rw [hsearch, decide_eq_true_eq]
  obtain hlt | heq := Nat.lt_or_eq_of_le (length_le_of_strstr hi)
  · -- the coding goes on: what is next is none of the characters that the switch knows
    rw [List.getElem?_append_left hlt, List.getElem?_eq_getElem hlt, Option.getD_some]
    refine iff_of_false (fun hmem => ?_) fun htaken => ?_
    · have htoken := List.all_eq_true.mp e.token _ (List.getElem_mem hlt)
      have hother : ∀ c ∈ accepted, isToken c = false := forall_mem_of_all rfl
      rw [hother _ hmem] at htoken
      cases htoken
    · exact absurd (hlast.mpr ⟨htaken.suffix, htaken.first⟩) (Nat.ne_of_lt hlt)
  · -- the coding ends in the word
    obtain ⟨hsuffix, hfirst⟩ := hlast.mp heq
    rw [heq, List.getElem?_append_right (Nat.le_refl _), Nat.sub_self, ← List.head?_eq_getElem?,
      accepted_tail]
    exact ⟨fun hunspaced => ⟨hsuffix, hfirst, hunspaced⟩, Element.Taken.unspaced⟩

end Search

/-- **The answer is right exactly when the first element with the word in it decides right.** -/
theorem accepts_iff_decided (l : List Element) (hlength : (listText l).length < 128) :
    (clientAcceptsCompression (some (listText l)) compression = true ↔ ∃ e ∈ l, e.Accepts) ↔
      Decided l := by
  have hfits : clientAcceptsCompression (some (listText l)) compression
      = foundIn compression (listText l) := by
    have hroom : httpdReqGetHdrValueStr (some (listText l)) 128 = some (listText l) :=
      Option.filter_some_pos (decide_eq_true hlength)
    rw [clientAcceptsCompression, hroom]
  rw [hfits]
  clear hlength hfits
  induction l with
  | nil =>
    have hnothing : foundIn compression (listText []) = false := rfl
    rw [hnothing]
    exact iff_of_true (by simp) .nil
  | cons e l ih =>
    by_cases hmentions : e.Mentions
    · rw [foundIn_of_mentions hmentions]
      constructor
      · intro hright
        by_cases htaken : e.Taken
        · exact .accepts htaken (hright.mp htaken)
        · exact .refuses hmentions htaken fun f hf haccepts => htaken (hright.mpr ⟨f, hf, haccepts⟩)
      · intro hdecided
        cases hdecided with
        | other hnot => exact absurd hmentions hnot
        | accepts htaken hsome => exact iff_of_true htaken hsome
        | refuses _ hnot hnone => exact iff_of_false hnot fun ⟨f, hf, haccepts⟩ => hnone f hf haccepts
    · have hnot : ¬ e.Accepts := fun haccepts =>
        hmentions (List.infix_iff_prefix_suffix.mpr ⟨_, List.prefix_rfl, haccepts.1 ▸ List.suffix_rfl⟩)
      have hsame : (∃ f ∈ e :: l, f.Accepts) ↔ ∃ f ∈ l, f.Accepts := by
        simp only [List.mem_cons, exists_eq_or_imp, hnot, false_or]
      rw [foundIn_of_not_mentions hmentions, hsame]
      refine ih.trans ⟨?_, ?_⟩
      · exact .other hmentions
      · intro hdecided
        cases hdecided with
        | other _ hl => exact hl
        | accepts htaken _ => exact absurd htaken.suffix.isInfix hmentions
        | refuses hmentioned _ _ => exact absurd hmentioned hmentions

/-- Compression is not wanted. -/
def refusing : Element := ⟨0, compression, some ⟨0, 0, ['0'], rfl⟩, 0, by decide⟩

def gzip : Element := ⟨1, "gzip".toList, none, 0, by decide⟩

def plainDeflate : Element := ⟨0, compression, none, 0, by decide⟩

def spacedDeflate : Element := ⟨0, compression, none, 1, by decide⟩

theorem decided_gzip : (clientAcceptsCompression (some " gzip,deflate".toList) compression = true ↔
    ∃ e ∈ [gzip, plainDeflate], e.Accepts) ↔ Decided [gzip, plainDeflate] :=
  accepts_iff_decided [gzip, plainDeflate] (by decide)

/-- **What was refused is accepted, and what was accepted with a space behind it is not.** -/
theorem not_accepts_refusing :
    (clientAcceptsCompression (some (listText [refusing])) compression = true ∧
      ¬ ∃ e ∈ [refusing], e.Accepts) ∧
    clientAcceptsCompression (some (listText [spacedDeflate, gzip])) compression = false ∧
      ∃ e ∈ [spacedDeflate, gzip], e.Accepts := by
  refine ⟨⟨by decide, ?_⟩, by decide, spacedDeflate, List.mem_cons_self, rfl, fun w hw => ?_⟩
  · rintro ⟨e, he, -, hweight⟩
    obtain rfl := List.mem_singleton.mp he
    exact hweight _ rfl fun c hc => Or.inl (List.mem_singleton.mp hc)
  · cases hw

end Web
