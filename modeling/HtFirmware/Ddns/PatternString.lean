import HtFirmware.Web.Form

/-!
# Ddns/PatternString — expanding a pattern in place

`gm_pattern_string` copies a pattern to a buffer and replaces each `{name}` by what a coroutine writes
for the name.  The name is handed over in the buffer, where its replacement goes, so there has to be
room for the longer of the two.

The buffer is kept as the text already written and the bytes left, whose number is `buffer_size`.  A
pattern is its fields and what follows them (`Field`); `expand` is the text it stands for.  With room
for the text and for the names the buffer holds the text (`Expanded.string_eq`); with room for the text
but not for a name it holds something else (`string_ne_of_not_named`).
-/

open Machinery
open Web (Fault index length_of_index index_append index_of_notMem)

namespace Ddns

/-! ## The function -/

/-- The string at some bytes, as far as a null. -/
def stringAt (bytes : List Char) : Except Fault CString :=
  if '\x00' ∈ bytes then .ok (bytes.takeWhile (· ≠ '\x00')) else .error .overread

/-- Write over the first of some bytes. -/
def overwrite (bytes written : List Char) : List Char := written ++ bytes.drop written.length

/-- `gm_pattern_coroutine_t`: from a name and the bytes from it on, those bytes with the replacement
written, and a status. -/
abbrev Coroutine := CString → List Char → List Char × ℤ

/-- What a call leaves: its result, the text up to `out`, the bytes from there on, and the argument of
`GM_FAIL`. -/
structure Patterned where
  result : ℤ
  written : CString
  rest : List Char
  failure : Option CString

/-- The loop. -/
def patternLoop (coroutine : Coroutine) (start written : CString) (rest : List Char) :
    Except Fault Patterned :=
  if start = [] then .ok ⟨0, written, rest, none⟩
  else
    match _hv : index '{' start with
    | none =>
      if rest.length - 1 < start.length then
        .ok ⟨-1, [], '\x00' :: (written ++ rest).tail, "Out of space for replacement string.".toList⟩
      else .ok ⟨0, written, overwrite rest (start ++ ['\x00']), none⟩
    | some (leading, var) =>
      match _he : index '}' var with
      | none =>
        .ok ⟨-1, written, rest,
          "Missing '\x7d' character in replacement string: ".toList ++ '{' :: var⟩
      | some (name, after) =>
        if name = [] then .ok ⟨-1, written, rest, "Replacement string name missing.".toList⟩
        else if '{' ∈ name then
          .ok ⟨-1, written, rest,
            "Missing '\x7d' character in replacement string: ".toList ++ '{' :: var⟩
        else if rest.length - 1 < leading.length then
          .ok ⟨-1, written, rest, "Out of space for replacement string.".toList⟩
        else if (rest.drop leading.length).length - 1 < name.length then
          .ok ⟨-1, written ++ leading, rest.drop leading.length,
            ("Replacement name too large, out of space in output string, " ++
              "or missing '\x7d': ").toList ++ '{' :: var⟩
        else
          let replaced := coroutine name
            (overwrite (rest.drop leading.length) (name ++ ['\x00']))
          match stringAt replaced.1 with
          | .error fault => .error fault
          | .ok out =>
            if replaced.2 = 0 then
              patternLoop coroutine after (written ++ leading ++ out) (replaced.1.drop out.length)
            else
              .ok ⟨-1, written ++ leading, replaced.1,
                "No replacement for: ".toList ++ out ++ ", ".toList ++ (toString replaced.2).toList⟩
termination_by start.length
decreasing_by
  have hopen := length_of_index _hv
  have hclose := length_of_index _he
  omega

/-- `gm_pattern_string`. -/
def gmPatternString (string : CString) (coroutine : Coroutine) (buffer : List Char) :
    Except Fault Patterned := patternLoop coroutine string [] (overwrite buffer ['\x00'])

/-- The string in the buffer. -/
def Patterned.string (p : Patterned) : Except Fault CString := stringAt (p.written ++ p.rest)

/-! ## Strings in a buffer -/

section Bytes

variable {bytes written rest v : List Char}

theorem length_overwrite (h : written.length ≤ bytes.length) :
    (overwrite bytes written).length = bytes.length := by
  simp only [overwrite, List.length_append, List.length_drop]
  omega

theorem stringAt_append (hv : '\x00' ∉ v) (rest : List Char) :
    stringAt (v ++ '\x00' :: rest) = .ok v := by
  rw [stringAt, if_pos (by simp), takeWhile_ne_cons hv]

theorem stringAt_prefix (hw : '\x00' ∉ written) (rest : List Char) :
    stringAt (written ++ rest) = (stringAt rest).map (written ++ ·) := by
  unfold stringAt
  by_cases hnull : '\x00' ∈ rest
  · rw [if_pos hnull, if_pos (List.mem_append_right _ hnull), takeWhile_ne_append hw]
    rfl
  · rw [if_neg hnull, if_neg (by simp [hw, hnull])]
    rfl

/-- A string is shorter than the bytes that hold it, and has no other bytes. -/
theorem of_stringAt (h : stringAt bytes = .ok v) :
    v.length < bytes.length ∧ '\x00' ∉ v ∧ ∀ c ∈ v, c ∈ bytes := by
  unfold stringAt at h
  split_ifs at h with hnull
  obtain rfl := Except.ok.inj h
  refine ⟨?_, notMem_takeWhile_ne bytes, fun c hc => (List.takeWhile_prefix _).subset hc⟩
  refine lt_of_le_of_ne (List.takeWhile_prefix _).length_le fun hlength => ?_
  have hwhole := (List.takeWhile_prefix (fun c => decide (c ≠ '\x00'))).eq_of_length hlength
  exact notMem_takeWhile_ne bytes (hwhole.symm ▸ hnull)

end Bytes

/-! ## Patterns -/

/-- A placeholder, with the text before it. -/
@[ext] structure Field where
  leading : CString
  name : CString
  plain : '{' ∉ leading ∧ '\x00' ∉ leading
  named : name ≠ [] ∧ '{' ∉ name ∧ '}' ∉ name

/-- How a field is written. -/
def Field.source (f : Field) : CString := f.leading ++ '{' :: (f.name ++ ['}'])

/-- The text that fields stand for, and what follows them: every placeholder is replaced. -/
def expand (values : CString → Option CString) (final : CString) : List Field → Option CString
  | [] => some final
  | f :: fs => do
    let value ← values f.name
    let text ← expand values final fs
    some (f.leading ++ value ++ text)

/-- A pattern is written in one way. -/
theorem fields_unique {final final' : CString} (hfinal : '{' ∉ final) (hfinal' : '{' ∉ final') :
    ∀ {fs gs : List Field}, fs.flatMap Field.source ++ final = gs.flatMap Field.source ++ final' →
      fs = gs ∧ final = final' := by
  have hindex : ∀ (f : Field) (tail : CString), index '{' (f.source ++ tail)
      = some (f.leading, f.name ++ '}' :: tail) := fun f tail => by
    have hsource : f.source ++ tail = f.leading ++ '{' :: (f.name ++ '}' :: tail) := by
      simp [Field.source]
    rw [hsource, index_append _ f.plain.1]
  intro fs
  induction fs with
  | nil =>
    intro gs h
    cases gs with
    | nil => exact ⟨rfl, h⟩
    | cons g gs =>
      rw [List.flatMap_nil, List.nil_append, List.flatMap_cons, List.append_assoc] at h
      have hnone := index_of_notMem hfinal
      rw [h, hindex] at hnone
      cases hnone
  | cons f fs ih =>
    intro gs h
    rw [List.flatMap_cons, List.append_assoc] at h
    have hsome := hindex f (fs.flatMap Field.source ++ final)
    cases gs with
    | nil =>
      rw [h, List.flatMap_nil, List.nil_append, index_of_notMem hfinal'] at hsome
      cases hsome
    | cons g gs =>
      rw [List.flatMap_cons, List.append_assoc] at h
      rw [h, hindex] at hsome
      obtain ⟨hleading, hvar⟩ := Prod.mk.inj (Option.some.inj hsome)
      have hclose := index_append (c := '}') (gs.flatMap Field.source ++ final') g.named.2.2
      rw [hvar, index_append _ f.named.2.2] at hclose
      obtain ⟨hname, htail⟩ := Prod.mk.inj (Option.some.inj hclose)
      obtain ⟨rfl, hsame⟩ := ih htail
      rw [Field.ext hleading.symm hname]
      exact ⟨rfl, hsame⟩

/-- Each name fits where its replacement goes, with so much room from the first field on. -/
def NamesFit (values : CString → Option CString) : List Field → ℕ → Prop
  | [], _ => True
  | f :: fs, room => f.leading.length + f.name.length < room ∧
    ∀ value, values f.name = some value →
      NamesFit values fs (room - f.leading.length - value.length)

/-- **A coroutine answers with the values**, where there is room for them. -/
structure Answers (coroutine : Coroutine) (values : CString → Option CString) : Prop where
  value : ∀ {name value}, values name = some value → '\x00' ∉ value ∧ ∀ bytes : List Char,
    value.length < bytes.length → coroutine name bytes = (overwrite bytes (value ++ ['\x00']), 0)
  length : ∀ name {bytes : List Char}, bytes ≠ [] → (coroutine name bytes).1.length = bytes.length

section Loop

variable {coroutine : Coroutine} {values : CString → Option CString} {f : Field} {fs : List Field}
  {final written rest : CString}

/-- The bytes left after a replacement. -/
def Field.left (f : Field) (rest : List Char) (value : CString) : List Char :=
  '\x00' :: ((f.name ++ ['\x00']) ++ rest.drop (f.leading.length + f.name.length + 1)).drop
    (value.length + 1)

/-- A field whose name and value fit. -/
theorem patternLoop_field (h : Answers coroutine values) {value : CString}
    (hvalue : values f.name = some value) (hname : f.leading.length + f.name.length < rest.length)
    (hroom : f.leading.length + value.length < rest.length) (tail : CString) :
    patternLoop coroutine (f.source ++ tail) written rest
      = patternLoop coroutine tail (written ++ f.leading ++ value) (f.left rest value) := by
  have hsource : f.source ++ tail = f.leading ++ '{' :: (f.name ++ '}' :: tail) := by
    simp [Field.source]
  have hbytes : overwrite (rest.drop f.leading.length) (f.name ++ ['\x00'])
      = (f.name ++ ['\x00']) ++ rest.drop (f.leading.length + f.name.length + 1) := by
    simp [overwrite, Nat.add_assoc]
  obtain ⟨hnull, hanswer⟩ := h.value hvalue
  rw [hsource, patternLoop, if_neg (by simp), index_append _ f.plain.1]
  dsimp only
  rw [index_append _ f.named.2.2]
  dsimp only
  rw [if_neg f.named.1, if_neg f.named.2.1, if_neg (by omega), if_neg (by simp; omega), hbytes,
    hanswer _ (by simp; omega)]
  have hwritten : ∀ bytes : List Char, overwrite bytes (value ++ ['\x00'])
      = value ++ '\x00' :: bytes.drop (value.length + 1) := fun bytes => by simp [overwrite]
  rw [hwritten, stringAt_append hnull]
  dsimp only
  rw [if_pos rfl, List.drop_left, Field.left]

theorem length_left (value : CString) (hname : f.leading.length + f.name.length < rest.length)
    (hroom : f.leading.length + value.length < rest.length) :
    (f.left rest value).length = rest.length - f.leading.length - value.length := by
  simp only [Field.left, List.length_cons, List.length_drop, List.length_append, List.length_nil]
  omega

theorem not_mem_left {c : Char} (hnull : c ≠ '\x00') (hname : c ∉ f.name) (hrest : c ∉ rest)
    (value : CString) : c ∉ f.left rest value := by
  intro hmem
  rcases List.mem_cons.mp hmem with hc | hmem
  · exact hnull hc
  · rcases List.mem_append.mp (List.mem_of_mem_drop hmem) with hmem | hmem
    · rcases List.mem_append.mp hmem with hmem | hmem
      · exact hname hmem
      · exact hnull (List.mem_singleton.mp hmem)
    · exact hrest (List.mem_of_mem_drop hmem)

/-- What follows the last field. -/
theorem patternLoop_final (hfinal : '{' ∉ final ∧ '\x00' ∉ final) (hroom : final.length < rest.length)
    (hrest : rest.head? = some '\x00') (hwritten : '\x00' ∉ written) :
    ∃ p, patternLoop coroutine final written rest = .ok p ∧ p.string = .ok (written ++ final) := by
  obtain ⟨tail, rfl⟩ := List.head?_eq_some_iff.mp hrest
  rw [patternLoop]
  by_cases hempty : final = []
  · rw [if_pos hempty, hempty, List.append_nil]
    exact ⟨_, rfl, stringAt_append hwritten tail⟩
  · rw [if_neg hempty, index_of_notMem hfinal.1]
    dsimp only
    rw [if_neg (by omega)]
    refine ⟨_, rfl, ?_⟩
    have hbytes : written ++ overwrite ('\x00' :: tail) (final ++ ['\x00'])
        = (written ++ final) ++ '\x00' :: tail.drop final.length := by simp [overwrite]
    rw [Patterned.string, hbytes, stringAt_append (by simp [hwritten, hfinal.2])]

/-- A name that does not fit: the text before it has been copied, and nothing ends it. -/
theorem patternLoop_name (coroutine : Coroutine) (written tail : CString)
    (hleading : f.leading.length < rest.length)
    (hname : rest.length ≤ f.leading.length + f.name.length) :
    ∃ p, patternLoop coroutine (f.source ++ tail) written rest = .ok p ∧
      p.written = written ++ f.leading ∧ p.rest = rest.drop f.leading.length := by
  have hsource : f.source ++ tail = f.leading ++ '{' :: (f.name ++ '}' :: tail) := by
    simp [Field.source]
  rw [hsource, patternLoop, if_neg (by simp), index_append _ f.plain.1]
  dsimp only
  rw [index_append _ f.named.2.2]
  dsimp only
  rw [if_neg f.named.1, if_neg f.named.2.1, if_neg (by omega), if_pos (by simp; omega)]
  exact ⟨_, rfl, rfl, rfl⟩

theorem expand_cons {value text : CString} (hvalue : values f.name = some value)
    (htext : expand values final fs = some text) :
    expand values final (f :: fs) = some (f.leading ++ value ++ text) := by
  rw [expand, hvalue, htext]
  rfl

theorem of_expand_cons {u : CString} (hu : expand values final (f :: fs) = some u) :
    ∃ value text, values f.name = some value ∧ expand values final fs = some text ∧
      u = f.leading ++ value ++ text := by
  obtain ⟨value, hvalue, hu⟩ := Option.bind_eq_some_iff.mp hu
  obtain ⟨text, htext, hu⟩ := Option.bind_eq_some_iff.mp hu
  exact ⟨value, text, hvalue, htext, (Option.some.inj hu).symm⟩

theorem namesFit_cons {value : CString} (hvalue : values f.name = some value) (room : ℕ) :
    NamesFit values (f :: fs) room ↔ f.leading.length + f.name.length < room ∧
      NamesFit values fs (room - f.leading.length - value.length) := by
  refine and_congr_right fun _ => ⟨fun h => h value hvalue, fun h value' hvalue' => ?_⟩
  exact Option.some.inj (hvalue.symm.trans hvalue') ▸ h

/-- With room for the text and for the names, what is written goes on with the text. -/
theorem string_of_namesFit (h : Answers coroutine values)
    (hfinal : '{' ∉ final ∧ '\x00' ∉ final) : ∀ (fs : List Field) {written rest u : CString},
    expand values final fs = some u → u.length < rest.length → NamesFit values fs rest.length →
    rest.head? = some '\x00' → '\x00' ∉ written →
    ∃ p, patternLoop coroutine (fs.flatMap Field.source ++ final) written rest = .ok p ∧
      p.string = .ok (written ++ u) := by
  intro fs
  induction fs with
  | nil =>
    intro written rest u hu hroom _ hrest hwritten
    obtain rfl := Option.some.inj hu
    exact patternLoop_final hfinal hroom hrest hwritten
  | cons f fs ih =>
    intro written rest u hu hroom hfit hrest hwritten
    obtain ⟨value, text, hvalue, htext, rfl⟩ := of_expand_cons hu
    simp only [List.length_append] at hroom
    have hleft := length_left value hfit.1 (by omega)
    have hplain : '\x00' ∉ written ++ f.leading ++ value := by
      simp [hwritten, f.plain.2, (h.value hvalue).1]
    obtain ⟨p, hp, hstring⟩ := ih htext (by omega) (hleft ▸ hfit.2 value hvalue) rfl hplain
    refine ⟨p, ?_, ?_⟩
    · rw [List.flatMap_cons, List.append_assoc, patternLoop_field h hvalue hfit.1 (by omega), hp]
    · rw [hstring]
      simp

/-- A text that cannot be what happened to be in the buffer: it is as long as the name it replaces, or
has a colon. -/
def Telling (values : CString → Option CString) (final : CString) : List Field → Prop
  | [] => True
  | f :: fs => ':' ∉ f.name ∧ Telling values final fs ∧
    ∀ value text, values f.name = some value → expand values final fs = some text →
      f.name.length ≤ (value ++ text).length ∨ ':' ∈ value ++ text

/-- Without room for a name, what is written does not. -/
theorem string_ne_of_not_namesFit (h : Answers coroutine values) :
    ∀ (fs : List Field) {written rest u : CString}, Telling values final fs →
    expand values final fs = some u → u.length < rest.length → ¬ NamesFit values fs rest.length →
    ':' ∉ rest → '\x00' ∉ written →
    ∃ p, patternLoop coroutine (fs.flatMap Field.source ++ final) written rest = .ok p ∧
      p.string ≠ .ok (written ++ u) := by
  intro fs
  induction fs with
  | nil => exact fun _ _ _ hfit => absurd trivial hfit
  | cons f fs ih =>
    intro written rest u htelling hu hroom hfit hrest hwritten
    obtain ⟨value, text, hvalue, htext, rfl⟩ := of_expand_cons hu
    obtain ⟨hcolon, htelling, htold⟩ := htelling
    simp only [List.length_append] at hroom
    rw [List.flatMap_cons, List.append_assoc]
    by_cases hname : f.leading.length + f.name.length < rest.length
    · have hleft := length_left value hname (by omega)
      have hplain : '\x00' ∉ written ++ f.leading ++ value := by
        simp [hwritten, f.plain.2, (h.value hvalue).1]
      have hfits : ¬ NamesFit values fs (f.left rest value).length := fun hfits => by
        refine hfit ⟨hname, fun value' hvalue' => ?_⟩
        obtain rfl := Option.some.inj (hvalue.symm.trans hvalue')
        exact hleft ▸ hfits
      obtain ⟨p, hp, hstring⟩ := ih htelling htext (by omega) hfits
        (not_mem_left (by decide) hcolon hrest value) hplain
      refine ⟨p, by rw [patternLoop_field h hvalue hname (by omega), hp], fun hsame => hstring ?_⟩
      rw [hsame]
      simp
    · obtain ⟨p, hp, hpwritten, hprest⟩ := patternLoop_name coroutine written
        (fs.flatMap Field.source ++ final) (by omega) (Nat.le_of_not_lt hname)
      refine ⟨p, hp, fun hsame => ?_⟩
      have hplain : '\x00' ∉ written ++ f.leading := by simp [hwritten, f.plain.2]
      rw [Patterned.string, hpwritten, hprest, stringAt_prefix hplain] at hsame
      cases hstring : stringAt (rest.drop f.leading.length) with
      | error fault =>
        rw [hstring] at hsame
        cases hsame
      | ok residue =>
        rw [hstring] at hsame
        have hresidue : residue = value ++ text := by
          have happend := Except.ok.inj hsame
          simpa using happend
        obtain ⟨hlength, -, hbytes⟩ := of_stringAt hstring
        rw [hresidue] at hlength hbytes
        rw [List.length_drop] at hlength
        rcases htold value text hvalue htext with hlong | hmem
        · omega
        · exact hrest (List.mem_of_mem_drop (hbytes _ hmem))

section Buffer

variable {buffer : List Char} {u : CString}

theorem length_terminated (hbuffer : buffer ≠ []) :
    (overwrite buffer ['\x00']).length = buffer.length :=
  length_overwrite (List.length_pos_of_ne_nil hbuffer)

/-- **With room for the text and for the names, the buffer holds the text.** -/
theorem gmPatternString_of_namesFit (h : Answers coroutine values)
    (hfinal : '{' ∉ final ∧ '\x00' ∉ final) (hu : expand values final fs = some u)
    (hroom : u.length < buffer.length) (hfit : NamesFit values fs buffer.length) :
    ∃ p, gmPatternString (fs.flatMap Field.source ++ final) coroutine buffer = .ok p ∧
      p.string = .ok u := by
  have hlength := length_terminated (List.ne_nil_of_length_pos (Nat.zero_lt_of_lt hroom))
  exact string_of_namesFit h hfinal fs hu (hlength ▸ hroom) (hlength ▸ hfit) rfl List.not_mem_nil

/-- **Without room for a name, the buffer does not hold the text**, though it had room for that. -/
theorem gmPatternString_of_not_namesFit (h : Answers coroutine values)
    (htelling : Telling values final fs) (hu : expand values final fs = some u)
    (hroom : u.length < buffer.length) (hfit : ¬ NamesFit values fs buffer.length)
    (hcolon : ':' ∉ buffer) :
    ∃ p, gmPatternString (fs.flatMap Field.source ++ final) coroutine buffer = .ok p ∧
      p.string ≠ .ok u := by
  have hlength := length_terminated (List.ne_nil_of_length_pos (Nat.zero_lt_of_lt hroom))
  refine string_ne_of_not_namesFit h fs htelling hu (hlength ▸ hroom) (hlength ▸ hfit) ?_
    List.not_mem_nil
  intro hmem
  rcases List.mem_append.mp hmem with hmem | hmem
  · exact absurd (List.mem_singleton.mp hmem) (by decide)
  · exact hcolon (List.mem_of_mem_drop hmem)

end Buffer

/-- The loop neither gains nor loses bytes. -/
theorem length_patternLoop (h : Answers coroutine values) {start : CString} {p : Patterned}
    (hrest : rest ≠ []) (hp : patternLoop coroutine start written rest = .ok p) :
    p.written.length + p.rest.length = written.length + rest.length := by
  have hreplaced : ∀ {leading name rest : CString}, rest ≠ [] →
      ¬ rest.length - 1 < leading.length →
      ¬ (rest.drop leading.length).length - 1 < name.length →
      leading.length + (coroutine name (overwrite (rest.drop leading.length)
        (name ++ ['\x00']))).1.length = rest.length := by
    intro leading name rest hrest hleading hname
    have hpos := List.length_pos_of_ne_nil hrest
    rw [h.length name (by simp [overwrite]), length_overwrite (by simp at hname ⊢; omega),
      List.length_drop]
    omega
  fun_induction patternLoop coroutine start written rest with
  | case1 | case4 | case5 | case6 | case7 =>
    obtain rfl := Except.ok.inj hp
    rfl
  | case2 =>
    obtain rfl := Except.ok.inj hp
    have hpos := List.length_pos_of_ne_nil hrest
    simp only [List.length_nil, List.length_cons, List.length_tail, List.length_append]
    omega
  | case3 start written rest hstart hv hroom =>
    obtain rfl := Except.ok.inj hp
    have hpos := List.length_pos_of_ne_nil hrest
    dsimp only
    rw [length_overwrite (by simp; omega)]
  | case8 start written rest hstart leading var hv name after he hname hbrace hleading hlong =>
    obtain rfl := Except.ok.inj hp
    simp only [List.length_append, List.length_drop]
    omega
  | case9 => cases hp
  | case10 start written rest hstart leading var hv name after he hname hbrace hleading hlong replaced
      out hout hzero ih =>
    have hlength : leading.length + replaced.1.length = rest.length :=
      hreplaced hrest hleading hlong
    obtain ⟨hshort, -, -⟩ := of_stringAt hout
    rw [ih (by simpa using hshort) hp]
    simp only [List.length_append, List.length_drop]
    omega
  | case11 start written rest hstart leading var hv name after he hname hbrace hleading hlong replaced
      out hout hzero =>
    obtain rfl := Except.ok.inj hp
    have hlength : leading.length + replaced.1.length = rest.length :=
      hreplaced hrest hleading hlong
    simp only [List.length_append]
    omega

/-- The string in a buffer is shorter than the buffer. -/
theorem length_string (h : Answers coroutine values) {start u : CString} {p : Patterned}
    {buffer : List Char} (hbuffer : buffer ≠ []) (hp : gmPatternString start coroutine buffer = .ok p)
    (hstring : p.string = .ok u) : u.length < buffer.length := by
  have hwritten := length_terminated hbuffer
  have hlength := length_patternLoop h (by simp [overwrite]) hp
  have hshort := (of_stringAt hstring).1
  rw [List.length_append, hlength, hwritten] at hshort
  simpa using hshort

end Loop

end Ddns
