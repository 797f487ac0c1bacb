import HtFirmware.Server.Reading

/-!
# Server/Headers — what the header lines of a request set

A header may have no space after its colon.  The search for a colon with a space then goes on into the
next lines, and what is read is one line as far as the end of the next header with both; a header that
is read by itself is one that begins where a line does (`heads`).  And a line is compared with
"Connection: keep-alive" as far as it goes itself, so the beginning of that is as good.

So a request is understood exactly when its last header has a colon and a space, the host's header
begins a line, with one space, and no beginning passes for the whole (`Readable`).
-/

open Machinery

namespace Server

/-! ## Requests -/

/-- A header: a name, a colon, spaces, and a value. -/
structure Field where
  name : CString
  gap : CString
  value : CString
  namePlain : ':' ∉ name
  spaces : ∀ c ∈ gap, c = ' '
  valueStart : value.head? ≠ some ' '
  unbroken : ¬ crlf <:+: name ++ ':' :: (gap ++ value)
  plain : '\x00' ∉ name ++ ':' :: (gap ++ value)

namespace Field

def text (f : Field) : CString := f.name ++ ':' :: (f.gap ++ f.value)

def isHost (f : Field) : Bool := f.name.map Char.toLower = "host".toList

/-- The header is "Connection: keep-alive". -/
def keepsAlive (f : Field) : Bool :=
  f.text.map Char.toLower = "Connection: keep-alive".toList.map Char.toLower

/-- It has a colon with a space behind it. -/
def spaced (f : Field) : Bool := (strstr ": ".toList f.text).isSome

/-- It is a beginning of "Connection: keep-alive". -/
def begins (f : Field) : Bool := strncasecmp f.text "Connection: keep-alive".toList f.text.length

end Field

/-- Some headers. -/
def fieldsText (fs : List Field) : CString := fs.flatMap fun f => f.text ++ crlf

/-- A request without a body, with one host at most. -/
structure Message where
  first : CString
  fields : List Field
  spaced : ' ' ∈ first
  unbroken : ¬ crlf <:+: first
  plain : '\x00' ∉ first
  oneHost : (fields.filter Field.isHost).length ≤ 1

/-- How it is written. -/
def Message.text (m : Message) : CString := m.first ++ (crlf ++ (fieldsText m.fields ++ crlf))

/-- Where the value of the host stands, when the first header stands at `s`. -/
def valueOffset : ℕ → List Field → Option ℕ
  | _, [] => none
  | s, f :: fs => if f.isHost then some (s + f.name.length + 1 + f.gap.length)
    else valueOffset (s + (f.text.length + 2)) fs

/-- **A request is understood**: where its host is, whether the connection is to be kept, and that it is
complete. -/
structure Understood (m : Message) : Prop where
  host : (parseRequest { raw := m.text }).host = valueOffset (m.first.length + 2) m.fields
  keepAlive : (parseRequest { raw := m.text }).keepAlive = m.fields.any Field.keepsAlive
  «end» : (parseRequest { raw := m.text }).end.isSome

/-- The headers that are read by themselves: those with a colon and a space that are the first, or
follow one that has both. -/
def heads : Bool → List Field → List Field
  | _, [] => []
  | fresh, f :: fs => (if fresh && f.spaced then [f] else []) ++ heads f.spaced fs

/-- **What it takes.** -/
structure Readable (m : Message) : Prop where
  host : ∀ f ∈ m.fields, f.isHost → f ∈ heads true m.fields ∧ f.gap = [' ']
  keepAlive : (heads true m.fields).any Field.begins = m.fields.any Field.keepsAlive
  last : ∀ f ∈ m.fields.getLast?, f.spaced

/-! ## The lines that are read -/

/-- No colon with a space begins in a text, whatever follows. -/
def Unspaced (s : CString) : Prop := ∀ t m, m < s.length → ¬ ": ".toList <+: (s ++ t).drop m

theorem colonSpace_prefix_iff {s : CString} {n : ℕ} :
    ": ".toList <+: s.drop n ↔ s[n]? = some ':' ∧ s[n + 1]? = some ' ' := pair_prefix_iff

theorem unspaced_nil : Unspaced [] := fun _ _ h => absurd h (Nat.not_lt_zero _)

/-- The first line end behind a text without any. -/
theorem strstr_crlf_of_unbroken {s : CString} (h : ¬ crlf <:+: s) (t : CString) :
    strstr crlf (s ++ (crlf ++ t)) = some s.length := by
  have hnow : strstr crlf (crlf ++ t) = some 0 := if_pos (List.prefix_append crlf t)
  refine (strstr_of_not (fun m hm hfound => ?_) hnow).trans (congrArg some (Nat.add_zero _))
  obtain ⟨hreturn, hfeed⟩ := crlf_prefix_iff.mp hfound
  obtain hlt | heq : m + 1 < s.length ∨ m + 1 = s.length := by omega
  · rw [List.getElem?_append_left hm] at hreturn
    rw [List.getElem?_append_left hlt] at hfeed
    exact h ((crlf_prefix_iff.mpr ⟨hreturn, hfeed⟩).isInfix.trans (List.drop_suffix m s).isInfix)
  · rw [heq, List.getElem?_append_right (Nat.le_refl _), Nat.sub_self] at hfeed
    exact absurd (Option.some.inj hfeed) (by decide)

/-- A header without a colon and a space leaves none to begin. -/
theorem Unspaced.append {s : CString} (hs : Unspaced s) {f : Field} (hf : f.spaced = false) :
    Unspaced (s ++ (f.text ++ crlf)) := by
  intro t m hm hfound
  have hnone : strstr ": ".toList f.text = none := Option.not_isSome_iff_eq_none.mp (by
    rw [← Field.spaced, hf]
    exact Bool.false_ne_true)
  obtain hlt | hge := Nat.lt_or_ge m s.length
  · rw [List.append_assoc] at hfound
    exact hs _ m hlt hfound
  · obtain ⟨k, rfl⟩ := Nat.exists_eq_add_of_le hge
    rw [List.append_assoc, ← List.drop_drop, List.drop_left, List.append_assoc] at hfound
    obtain ⟨hcolon, hspace⟩ := colonSpace_prefix_iff.mp hfound
    have hcrlf : crlf.length = 2 := rfl
    rw [List.length_append, List.length_append, hcrlf] at hm
    obtain hin | hlast | hreturn | hfeed : k + 1 < f.text.length ∨ k + 1 = f.text.length ∨
        k = f.text.length ∨ k = f.text.length + 1 := by omega
    · rw [List.getElem?_append_left (by omega)] at hcolon hspace
      exact not_prefix_of_strstr hnone (colonSpace_prefix_iff.mpr ⟨hcolon, hspace⟩)
    · rw [hlast, List.getElem?_append_right (Nat.le_refl _), Nat.sub_self] at hspace
      exact absurd (Option.some.inj hspace) (by decide)
    · rw [hreturn, List.getElem?_append_right (Nat.le_refl _), Nat.sub_self] at hcolon
      exact absurd (Option.some.inj hcolon) (by decide)
    · rw [hfeed, List.getElem?_append_right (by omega), Nat.add_sub_cancel_left] at hcolon
      exact absurd (Option.some.inj hcolon) (by decide)

/-- What was passed of a line so far: headers without a colon and a space, if it is not fresh. -/
structure Pending (fresh : Bool) (s : CString) : Prop where
  unspaced : Unspaced s
  start : fresh = true → s = []
  stale : fresh = false → '\r' ∈ s

theorem pending_nil : Pending true [] := ⟨unspaced_nil, fun _ => rfl, nofun⟩

theorem Pending.append {fresh : Bool} {s : CString} (hs : Pending fresh s) {f : Field}
    (hf : f.spaced = false) : Pending false (s ++ (f.text ++ crlf)) :=
  ⟨hs.unspaced.append hf, nofun, fun _ => by simp [crlf]⟩

/-! ### Letters -/

theorem mem_map_toLower {c : Char} {s : CString} (hc : c.isLower = false) :
    c ∈ s.map Char.toLower → c ∈ s := by
  intro hmem
  obtain ⟨d, hd, heq⟩ := List.mem_map.mp hmem
  exact eq_of_toLower hc heq ▸ hd

theorem mem_map_of_toLower {c : Char} {s : CString} (hc : c.toLower = c) (h : c ∈ s) :
    c ∈ s.map Char.toLower := List.mem_map.mpr ⟨c, h, hc⟩

/-! ### The colon and the space of a header -/

namespace Field

variable (f : Field)

theorem getElem?_name : f.text[f.name.length]? = some ':' := by
  rw [text, List.getElem?_append_right (Nat.le_refl _), Nat.sub_self]
  rfl

theorem not_colon_of_lt {m : ℕ} (hm : m < f.name.length) : f.text[m]? ≠ some ':' := by
  rw [text, List.getElem?_append_left hm]
  exact fun hcolon => f.namePlain (List.mem_of_getElem? hcolon)

/-- With spaces they end the name. -/
theorem strstr_of_gap (h : f.gap ≠ []) : strstr ": ".toList f.text = some f.name.length := by
  obtain ⟨c, gap, hgap⟩ := List.exists_cons_of_ne_nil h
  obtain rfl := f.spaces c (by rw [hgap]; exact List.mem_cons_self)
  have hnow : strstr ": ".toList (':' :: (f.gap ++ f.value)) = some 0 := by
    rw [hgap]
    exact if_pos (List.prefix_append ": ".toList (gap ++ f.value))
  exact strstr_of_not (fun m hm hfound => f.not_colon_of_lt hm (colonSpace_prefix_iff.mp hfound).1) hnow

theorem spaced_of_gap (h : f.gap ≠ []) : f.spaced = true := by
  rw [spaced, f.strstr_of_gap h]
  rfl

theorem gap_of_not_spaced (h : f.spaced = false) : f.gap = [] := by
  by_contra hgap
  rw [f.spaced_of_gap hgap] at h
  cases h

/-- Without, they are in the value. -/
theorem lt_of_strstr {i : ℕ} (h : f.gap = []) (hi : strstr ": ".toList f.text = some i) :
    f.name.length < i := by
  obtain ⟨hcolon, hspace⟩ := colonSpace_prefix_iff.mp (of_strstr hi).1
  refine Nat.lt_of_le_of_ne (Nat.le_of_not_lt fun hlt => f.not_colon_of_lt hlt hcolon) ?_
  rintro rfl
  rw [text, h, List.nil_append, List.getElem?_append_right (by omega), Nat.add_sub_cancel_left,
    List.getElem?_cons_succ, ← List.head?_eq_getElem?] at hspace
  exact f.valueStart hspace

/-- What stands before them is "host" for the host's header only. -/
theorem take_eq_host_iff {i : ℕ} (hi : strstr ": ".toList f.text = some i) :
    (f.text.take i).map Char.toLower = "host".toList ↔ f.isHost = true ∧ f.gap ≠ [] := by
  by_cases hgap : f.gap = []
  · refine iff_of_false (fun hhost => ?_) fun h => h.2 hgap
    have hcolon : ':' ∈ f.text.take i := List.mem_of_getElem?
      ((List.getElem?_take_of_lt (f.lt_of_strstr hgap hi)).trans f.getElem?_name)
    have hmem := mem_map_of_toLower (by decide) hcolon
    rw [hhost] at hmem
    exact absurd hmem (by decide)
  · obtain rfl := Option.some.inj ((f.strstr_of_gap hgap).symm.trans hi)
    rw [text, List.take_left, isHost, decide_eq_true_iff]
    exact (and_iff_left hgap).symm

end Field

section
variable {fresh : Bool} {s : CString}

/-- At the end nothing is read. -/
theorem readLine_end (hs : Pending fresh s) : readLine (s ++ crlf) = none := by
  refine readLine_eq_none fun n hn => ?_
  have hfound := (of_strstr hn).1
  obtain hlt | hge := Nat.lt_or_ge n s.length
  · exact absurd hfound (hs.unspaced crlf n hlt)
  · obtain ⟨k, rfl⟩ := Nat.exists_eq_add_of_le hge
    rw [← List.drop_drop, List.drop_left] at hfound
    have hcolon := List.mem_of_getElem? (colonSpace_prefix_iff.mp hfound).1
    exact absurd hcolon (by decide)

/-- What is read, as far as a header with a colon and a space at `i`. -/
def lineAs (s : CString) (f : Field) (i : ℕ) : Line := ⟨s ++ f.text.take i, f.text.drop (i + 2)⟩

variable {f : Field} {i : ℕ}

theorem text_lineAs (hi : strstr ": ".toList f.text = some i) : (lineAs s f i).text = s ++ f.text := by
  have hf : f.text.take i ++ (": ".toList ++ f.text.drop (i + 2)) = f.text := (eq_of_strstr hi).symm
  rw [Line.text, lineAs, List.append_assoc]
  exact congrArg (s ++ ·) hf

/-- **A header with a colon and a space** ends the line that is read. -/
theorem readLine_field (hs : Pending fresh s) (hi : strstr ": ".toList f.text = some i)
    (rest : CString) : readLine (s ++ (f.text ++ (crlf ++ rest))) = some (lineAs s f i, rest) := by
  have htwo : ": ".toList.length = 2 := rfl
  have hlength := length_le_of_strstr hi
  rw [htwo] at hlength
  have hcolon : strstr ": ".toList (s ++ (f.text ++ (crlf ++ rest))) = some (s.length + i) :=
    strstr_of_not (fun m hm => hs.unspaced _ m hm) (strstr_append hi _)
  have hdrop : (s ++ (f.text ++ (crlf ++ rest))).drop (s.length + i + 2)
      = f.text.drop (i + 2) ++ (crlf ++ rest) := by
    rw [Nat.add_assoc, ← List.drop_drop, List.drop_left, List.drop_append_of_le_length hlength]
  have hend : strstr crlf (f.text.drop (i + 2) ++ (crlf ++ rest)) = some (f.text.drop (i + 2)).length :=
    strstr_crlf_of_unbroken (fun hmem => f.unbroken (hmem.trans (List.drop_suffix _ _).isInfix)) rest
  have hrest : (s ++ (f.text ++ (crlf ++ rest))).drop
      (s.length + i + 2 + ((f.text.drop (i + 2)).length + 2)) = rest := by
    rw [← List.drop_drop, hdrop, ← List.drop_drop, List.drop_left]
    rfl
  have htake : (s ++ (f.text ++ (crlf ++ rest))).take (s.length + i) = s ++ f.text.take i := by
    rw [List.take_length_add_append, List.take_append_of_le_length (by omega)]
  simp only [readLine, hcolon, hdrop, hend, hrest, htake, List.take_left, bind, Option.bind_some,
    lineAs]

/-- What has a line end before its name is nothing the request asks for. -/
theorem Line.ignored_of_mem {l : Line} (h : '\r' ∈ l.name) :
    l.isHost = false ∧ l.keepsAlive = false := by
  refine ⟨decide_eq_false fun heq => ?_, decide_eq_false fun heq => ?_⟩
  · have hmem := mem_map_of_toLower (by decide) h
    rw [heq] at hmem
    exact absurd hmem (by decide)
  · have hmem : '\r' ∈ l.text.map Char.toLower :=
      mem_map_of_toLower (by decide) (List.mem_append_left _ h)
    rw [List.take_length] at heq
    rw [heq] at hmem
    have hconstant := List.mem_of_mem_take (mem_map_toLower (by decide) hmem)
    exact absurd hconstant (by decide)

/-- **It counts where it begins a line**: as the host's header with spaces, and as a beginning of
"Connection: keep-alive". -/
theorem lineAs_spec (hs : Pending fresh s) (hi : strstr ": ".toList f.text = some i) :
    (lineAs s f i).isHost = (fresh && f.isHost && decide (f.gap ≠ [])) ∧
      (lineAs s f i).keepsAlive = (fresh && f.begins) := by
  cases fresh with
  | true =>
    obtain rfl := hs.start rfl
    refine ⟨?_, ?_⟩
    · rw [Line.isHost, lineAs, List.nil_append, decide_eq_decide.mpr (f.take_eq_host_iff hi),
        Bool.decide_and, Bool.decide_eq_true]
      rfl
    · rw [Line.keepsAlive, text_lineAs hi]
      rfl
  | false => exact Line.ignored_of_mem (List.mem_append_left _ (hs.stale rfl))

/-- The value of a host that is read stands two characters behind the end of its name. -/
theorem offset_lineAs (hs : Pending fresh s) (hi : strstr ": ".toList f.text = some i) (start : ℕ) :
    (if (lineAs s f i).isHost then some (start + (lineAs s f i).name.length + 2) else none)
      = if fresh && f.isHost && decide (f.gap ≠ []) then some (start + s.length + f.name.length + 2)
        else none := by
  rw [(lineAs_spec hs hi).1]
  cases hread : (fresh && f.isHost && decide (f.gap ≠ [])) with
  | false => rfl
  | true =>
    rw [Bool.and_eq_true, Bool.and_eq_true, decide_eq_true_iff] at hread
    obtain ⟨⟨hfresh, -⟩, hgap⟩ := hread
    obtain rfl := Option.some.inj ((f.strstr_of_gap hgap).symm.trans hi)
    rw [hs.start hfresh, lineAs, List.nil_append, Field.text, List.take_left]
    rfl

end

/-! ## What is read of the headers -/

/-- Where the host that is read stands. -/
def readOffset : ℕ → Bool → List Field → Option ℕ
  | _, _, [] => none
  | s, fresh, f :: fs => (readOffset (s + (f.text.length + 2)) f.spaced fs).or
      (if fresh && f.isHost && decide (f.gap ≠ []) then some (s + f.name.length + 2) else none)

/-- The last header has a colon and a space, if there is any. -/
def ended : Bool → List Field → Bool
  | fresh, [] => fresh
  | _, f :: fs => ended f.spaced fs

/-- **What is read of some headers**, behind what was passed of a line. -/
structure HeadersRead (fresh : Bool) (s : CString) (fs : List Field) (read : List Line × CString) :
    Prop where
  host : ∀ start, hostOffset start read.1 = readOffset (start + s.length) fresh fs
  keepsAlive : read.1.any Line.keepsAlive = (heads fresh fs).any Field.begins
  rest : decide (read.2 = crlf) = ended fresh fs

section
variable {fresh : Bool} {s : CString} {f : Field} {fs : List Field}

/-- Nothing more is read at the end; what is left is an empty line if the last header was read. -/
theorem HeadersRead.nil (hs : Pending fresh s) : HeadersRead fresh s [] (readLines (s ++ crlf)) := by
  rw [readLines_of_none (readLine_end hs)]
  refine ⟨fun _ => rfl, rfl, ?_⟩
  cases fresh with
  | true =>
    obtain rfl := hs.start rfl
    exact decide_eq_true rfl
  | false =>
    refine decide_eq_false fun hrest => ?_
    have hreturn := hs.stale rfl
    obtain rfl : s = [] := List.append_left_eq_self.mp hrest
    cases hreturn

/-- Behind a header with a colon and a space a line begins. -/
theorem HeadersRead.spaced {i : ℕ} (hs : Pending fresh s) (hi : strstr ": ".toList f.text = some i)
    (h : HeadersRead true [] fs (readLines (fieldsText fs ++ crlf))) : HeadersRead fresh s (f :: fs)
      (readLines (s ++ (f.text ++ (crlf ++ (fieldsText fs ++ crlf))))) := by
  obtain ⟨hhost, hkeeps, hrest⟩ := h
  have hf : f.spaced = true := by rw [Field.spaced, hi]; rfl
  rw [readLines_of_some (readLine_field hs hi _)]
  refine ⟨fun start => ?_, ?_, ?_⟩
  · have hstart : start + ((lineAs s f i).text.length + 2)
        = start + s.length + (f.text.length + 2) := by
      rw [text_lineAs hi, List.length_append]
      omega
    rw [hostOffset, readOffset, hstart, hhost, hf, offset_lineAs hs hi]
    rfl
  · rw [List.any_cons, hkeeps, (lineAs_spec hs hi).2, heads, hf, Bool.and_true, List.any_append]
    cases fresh <;> simp
  · rw [ended, hf]
    exact hrest

/-- One without is passed, and does not count. -/
theorem HeadersRead.unspaced {read : List Line × CString} (hf : f.spaced = false)
    (h : HeadersRead false (s ++ (f.text ++ crlf)) fs read) : HeadersRead fresh s (f :: fs) read := by
  have hcrlf : crlf.length = 2 := rfl
  obtain ⟨hhost, hkeeps, hrest⟩ := h
  refine ⟨fun start => ?_, ?_, ?_⟩
  · rw [hhost, readOffset, hf, f.gap_of_not_spaced hf, List.length_append, List.length_append,
      hcrlf, Nat.add_assoc start]
    simp
  · rw [hkeeps, heads, hf, Bool.and_false]
    rfl
  · rw [ended, hf]
    exact hrest

end

theorem headersRead (fs : List Field) : ∀ {fresh : Bool} {s : CString}, Pending fresh s →
    HeadersRead fresh s fs (readLines (s ++ (fieldsText fs ++ crlf))) := by
  induction fs with
  | nil => exact HeadersRead.nil
  | cons f fs ih =>
    intro fresh s hs
    have htext : fieldsText (f :: fs) ++ crlf = f.text ++ (crlf ++ (fieldsText fs ++ crlf)) := by
      rw [fieldsText, List.flatMap_cons, List.append_assoc, List.append_assoc]
      rfl
    rw [htext]
    cases hf : f.spaced with
    | true =>
      obtain ⟨i, hi⟩ := Option.isSome_iff_exists.mp hf
      exact HeadersRead.spaced hs hi (ih pending_nil)
    | false =>
      have hassoc : s ++ (f.text ++ (crlf ++ (fieldsText fs ++ crlf)))
          = s ++ (f.text ++ crlf) ++ (fieldsText fs ++ crlf) := by
        simp only [List.append_assoc]
      rw [hassoc]
      exact HeadersRead.unspaced hf (ih (hs.append hf))

/-! ## What a request sets -/

theorem ended_eq (fs : List Field) : ∀ fresh, ended fresh fs = fs.getLast?.elim fresh Field.spaced := by
  induction fs with
  | nil => exact fun _ => rfl
  | cons f fs ih =>
    intro fresh
    rw [ended, ih, List.getLast?_cons]
    cases fs.getLast? <;> rfl

/-- A header is read by itself as the first one, or behind the first. -/
theorem mem_heads_cons {fresh : Bool} {f g : Field} {fs : List Field} : g ∈ heads fresh (f :: fs) ↔
    (fresh = true ∧ f.spaced = true) ∧ g = f ∨ g ∈ heads f.spaced fs := by
  rw [heads, List.mem_append, ← Bool.and_eq_true]
  refine or_congr_left ?_
  cases fresh && f.spaced <;> simp

theorem heads_subset (fs : List Field) : ∀ fresh, heads fresh fs ⊆ fs := by
  induction fs with
  | nil => exact fun _ => List.Subset.refl _
  | cons f fs ih =>
    intro fresh g hg
    obtain ⟨-, rfl⟩ | hlater := mem_heads_cons.mp hg
    · exact List.mem_cons_self
    · exact List.mem_cons_of_mem f (ih f.spaced hlater)

/-- One space is spaces, and one of them. -/
theorem Field.gap_eq_iff (f : Field) : f.gap = [' '] ↔ f.gap.length = 1 := by
  refine ⟨fun h => by rw [h]; rfl, fun h => ?_⟩
  obtain ⟨c, hc⟩ := List.length_eq_one_iff.mp h
  rw [hc, f.spaces c (by rw [hc]; exact List.mem_singleton_self c)]

section
variable {n : ℕ} {fresh : Bool} {f : Field} {fs : List Field}

/-- A header that is not the host's is passed. -/
theorem offsets_cons (hf : f.isHost = false) :
    readOffset n fresh (f :: fs) = readOffset (n + (f.text.length + 2)) f.spaced fs ∧
      valueOffset n (f :: fs) = valueOffset (n + (f.text.length + 2)) fs := by
  rw [readOffset, valueOffset, hf]
  simp

theorem offsets_of_not_isHost (h : ∀ f ∈ fs, f.isHost = false) :
    readOffset n fresh fs = none ∧ valueOffset n fs = none := by
  induction fs generalizing n fresh with
  | nil => exact ⟨rfl, rfl⟩
  | cons f fs ih =>
    obtain ⟨hf, hfs⟩ := List.forall_mem_cons.mp h
    rw [(offsets_cons hf).1, (@offsets_cons _ fresh _ _ hf).2]
    exact ih hfs

/-- The host's header, with no other behind it, is found if it begins a line and has one space. -/
theorem readOffset_eq_iff_of_isHost (hf : f.isHost = true) (hnone : ∀ g ∈ fs, g.isHost = false) :
    readOffset n fresh (f :: fs) = valueOffset n (f :: fs) ↔ fresh = true ∧ f.gap = [' '] := by
  rw [readOffset, valueOffset, (offsets_of_not_isHost hnone).1, hf, Option.none_or, if_pos rfl,
    Bool.and_true]
  constructor
  · intro h
    split_ifs at h with hread
    have hoffset := Option.some.inj h
    exact ⟨(Bool.and_eq_true_iff.mp hread).1, f.gap_eq_iff.mpr (by omega)⟩
  · rintro ⟨rfl, hgap⟩
    have hread : (true && decide (f.gap ≠ [])) = true := by
      rw [hgap]
      rfl
    rw [if_pos hread, f.gap_eq_iff.mp hgap]

theorem mem_heads_iff_of_isHost (hf : f.isHost = true) (hnone : ∀ g ∈ fs, g.isHost = false) :
    f ∈ heads fresh (f :: fs) ↔ fresh = true ∧ f.spaced = true := by
  rw [mem_heads_cons, and_iff_left rfl]
  refine or_iff_left fun hlater => ?_
  rw [hnone f (heads_subset fs _ hlater)] at hf
  cases hf

end

/-- **The host is found exactly when its header is read by itself, with one space.** -/
theorem readOffset_eq_iff (fs : List Field) : ∀ {n : ℕ} {fresh : Bool},
    (fs.filter Field.isHost).length ≤ 1 → (readOffset n fresh fs = valueOffset n fs ↔
      ∀ f ∈ fs, f.isHost → f ∈ heads fresh fs ∧ f.gap = [' ']) := by
  induction fs with
  | nil => exact fun _ => iff_of_true rfl (List.forall_mem_nil _)
  | cons f fs ih =>
    intro n fresh hone
    cases hf : f.isHost with
    | false =>
      rw [List.filter_cons_of_neg (by rw [hf]; exact Bool.false_ne_true)] at hone
      rw [(offsets_cons hf).1, (@offsets_cons _ fresh _ _ hf).2, ih hone, List.forall_mem_cons,
        and_iff_right fun hhost => absurd (hf.symm.trans hhost) Bool.false_ne_true]
      refine forall₂_congr fun g _ => imp_congr_right fun hhost => and_congr_left fun _ => ?_
      rw [mem_heads_cons, or_iff_right]
      rintro ⟨-, rfl⟩
      exact Bool.false_ne_true (hf.symm.trans hhost)
    | true =>
      rw [List.filter_cons_of_pos hf, List.length_cons] at hone
      have hnone : ∀ g ∈ fs, g.isHost = false := by
        have hempty : fs.filter Field.isHost = [] := List.length_eq_zero_iff.mp (by omega)
        exact fun g hg => Bool.not_eq_true _ ▸ List.filter_eq_nil_iff.mp hempty g hg
      have hothers : ∀ g ∈ fs, g.isHost → g ∈ heads fresh (f :: fs) ∧ g.gap = [' '] :=
        fun g hg hhost => absurd ((hnone g hg).symm.trans hhost) Bool.false_ne_true
      rw [readOffset_eq_iff_of_isHost hf hnone, List.forall_mem_cons, and_iff_left hothers,
        forall_prop_of_true hf, mem_heads_iff_of_isHost hf hnone]
      refine and_congr_left fun hgap => (and_iff_left (f.spaced_of_gap ?_)).symm
      rw [hgap]
      exact List.cons_ne_nil _ _

/-! ## Requests that are understood -/

namespace Message

variable (m : Message)

theorem plain_text : '\x00' ∉ m.text := by
  have hcrlf : '\x00' ∉ crlf := by decide
  have hfields : '\x00' ∉ fieldsText m.fields := fun hmem => by
    obtain ⟨f, -, hf⟩ := List.mem_flatMap.mp hmem
    exact (List.mem_append.mp hf).elim f.plain hcrlf
  simp only [text, List.mem_append, not_or]
  exact ⟨m.plain, hcrlf, hfields, hcrlf⟩

theorem strchr_isSome {c : Char} {s : CString} (h : c ∈ s) : (strchr c s).isSome := by
  rw [strchr, List.findIdx?_isSome, List.any_eq_true]
  exact ⟨c, h, decide_eq_true rfl⟩

/-- What is read of a request. -/
theorem read_text : read m.text = some ⟨m.first, (readLines (fieldsText m.fields ++ crlf)).1,
    (readLines (fieldsText m.fields ++ crlf)).2⟩ := by
  have hline : strstr crlf m.text = some m.first.length := strstr_crlf_of_unbroken m.unbroken _
  obtain ⟨n, hspace⟩ : ∃ n, strchr ' ' m.text = some n :=
    Option.isSome_iff_exists.mp (strchr_isSome (List.mem_append_left _ m.spaced))
  have hdrop : m.text.drop (m.first.length + 2) = fieldsText m.fields ++ crlf := by
    rw [← List.drop_drop, text, List.drop_left]
    rfl
  have htake : m.text.take m.first.length = m.first := List.take_left
  simp only [read, hline, hspace, hdrop, htake, bind, Option.bind_some]

/-- **What a request sets.** -/
theorem sets_text : (parseRequest { raw := m.text }).host
      = readOffset (m.first.length + 2) true m.fields ∧
    (parseRequest { raw := m.text }).keepAlive = (heads true m.fields).any Field.begins ∧
    (parseRequest { raw := m.text }).end.isSome = m.fields.getLast?.elim true Field.spaced := by
  have hsets := sets_parseRequest { raw := m.text }
  have hraw : stringFrom ({ raw := m.text } : Request).raw 0 = m.text := by
    have happend := takeWhile_ne_append m.plain_text []
    rwa [List.takeWhile_nil, List.append_nil] at happend
  rw [hraw] at hsets
  obtain ⟨hhost, hkeeps, hrest⟩ := headersRead m.fields pending_nil
  rw [List.nil_append] at hhost hkeeps hrest
  refine ⟨?_, ?_, ?_⟩
  · rw [hsets.host, hostOffset?, read_text, Option.bind_some, hhost]
    exact Option.or_none
  · rw [hsets.keepAlive, keepsAlive, read_text]
    exact hkeeps
  · rw [hsets.end, complete, read_text, ← ended_eq]
    exact hrest

end Message

theorem elim_getLast?_iff {fs : List Field} :
    fs.getLast?.elim true Field.spaced = true ↔ ∀ f ∈ fs.getLast?, f.spaced := by
  cases fs.getLast? <;> simp

theorem readable_of_understood {m : Message} (h : Understood m) : Readable m := by
  obtain ⟨hhost, hkeeps, hend⟩ := m.sets_text
  refine ⟨(readOffset_eq_iff m.fields m.oneHost).mp (hhost.symm.trans h.host),
    hkeeps.symm.trans h.keepAlive, elim_getLast?_iff.mp ?_⟩
  rw [← hend]
  exact h.end

/-- **A request is understood exactly when it can be read.** -/
theorem understood_iff (m : Message) : Understood m ↔ Readable m := by
  refine ⟨readable_of_understood, fun h => ?_⟩
  obtain ⟨hhost, hkeeps, hend⟩ := m.sets_text
  refine ⟨hhost.trans ((readOffset_eq_iff m.fields m.oneHost).mpr h.host),
    hkeeps.trans h.keepAlive, ?_⟩
  rw [hend]
  exact elim_getLast?_iff.mpr h.last

/-- A request with a header that has no space before the host's. -/
def closeMessage : Message where
  first := "GET / HTTP/1.1".toList
  fields := [
    { name := "X".toList, gap := [], value := "y".toList, namePlain := by decide,
      spaces := List.forall_mem_nil _, valueStart := by decide, unbroken := by decide,
      plain := by decide },
    { name := "Host".toList, gap := [' '], value := "h".toList, namePlain := by decide,
      spaces := List.forall_mem_singleton.mpr rfl, valueStart := by decide, unbroken := by decide,
      plain := by decide }]
  spaced := by decide
  unbroken := by decide
  plain := by decide
  oneHost := by decide

/-- Its host is not found. -/
theorem not_understood_closeMessage : ¬ ∀ m, Understood m := by
  intro hall
  have hreadable := readable_of_understood (hall closeMessage)
  have hheads : heads true closeMessage.fields = [] := by decide
  obtain ⟨hmem, -⟩ := hreadable.host _ (List.mem_cons_of_mem _ List.mem_cons_self) (by decide)
  rw [hheads] at hmem
  cases hmem

end Server
