import HtFirmware.Machinery.Fallible
import HtFirmware.Web.Settings
import Mathlib.Data.List.TakeWhile

/-!
# Web/Form — the form that sets a parameter

A browser sends the form's two fields URL-encoded.  `setting_post` receives once, into a buffer on
the stack, splits what the buffer holds, without decoding it, and sets the parameter it names.

So the parameter gets the value of the form exactly when the first piece received is the form's text
without any encoding, and a form that fails to arrive is stored all the same when the piece that
did, or what the stack held before, names a parameter and a value (`honoursForm_iff`).
-/

open Machinery Nvs

namespace Web

/-! ## The parameters of a request -/

/-- `index`: what stands before the first such character, and after it. -/
def index (c : Char) : CString → Option (CString × CString)
  | [] => none
  | x :: xs => if x = c then some ([], xs) else (index c xs).map fun cut => (x :: cut.1, cut.2)

theorem length_of_index {c : Char} : ∀ {s before after : CString},
    index c s = some (before, after) → before.length + after.length < s.length := by
  intro s
  induction s with
  | nil => exact nofun
  | cons x xs ih =>
    intro before after h
    unfold index at h
    split_ifs at h
    · obtain ⟨rfl, rfl⟩ := Prod.mk.inj (Option.some.inj h)
      simp
    · obtain ⟨⟨before', after'⟩, hcut, hmap⟩ := Option.map_eq_some_iff.mp h
      obtain ⟨rfl, rfl⟩ := Prod.mk.inj hmap
      have hlength := ih hcut
      simp only [List.length_cons]
      omega

/-- `gm_param_parse`: its result, and the parameters it stores one after the other. -/
def gmParamParse (s : CString) : ℤ × List (CString × CString) :=
  match hs : index '=' s with
  | none => (-1, [])
  | some (name, rest) =>
    match _hrest : index '&' rest with
    | none => (0, [(name, rest)])
    | some (value, s') =>
      let parsed := gmParamParse s'
      (parsed.1, (name, value) :: parsed.2)
termination_by s.length
decreasing_by
  have hfirst := length_of_index hs
  have hsecond := length_of_index _hrest
  omega

/-- `gm_param`. -/
def gmParam (params : List (CString × CString)) (name : CString) : Option CString :=
  (params.find? fun p => name = p.1).map Prod.snd

/-! ## The handler -/

/-- What a call of `httpd_req_recv` comes to: bytes, none of them when there are no more or the
connection was closed, or an error. -/
inductive Received where
  | bytes (piece : CString)
  | failed

/-- `httpd_req_recv`, given what its calls will come to. -/
def httpdReqRecv : List Received → Received
  | [] => .bytes []
  | received :: _ => received

/-- The buffer of `setting_post`, with what the stack held. -/
structure StackBuffer where
  bytes : CString
  length : bytes.length = 1024

/-- The string in the buffer after the call: the piece, or what was there, as far as a null. -/
def StackBuffer.string (buffer : StackBuffer) : Received → Except Fault CString
  | .bytes piece => .ok (piece.takeWhile (· ≠ '\x00'))
  | .failed =>
    if '\x00' ∈ buffer.bytes then .ok (buffer.bytes.takeWhile (· ≠ '\x00')) else .error .overread

/-- The end of `setting_post`: its result, its calls of `gm_nonvolatile_set`, the page, and the
store. -/
structure Answered where
  result : ℤ
  sets : List (CString × CString)
  page : Option Page
  store : Store

/-- `setting_post`, where a call of `nvs_set_str` comes out as `err`. -/
def settingPost (s : Store) (buffer : StackBuffer) (calls : List Received) (err : EspErr) :
    Except Fault Answered := do
  let text ← buffer.string (httpdReqRecv calls)
  let params := (gmParamParse text).2
  if 2 < params.length then .error .overrun
  else
    match gmParam params "name".toList, gmParam params "value".toList with
    | some name, some value => do
      let (page, store) ← settingPostSet s name value err
      .ok ⟨0, [(name, value)], some page, store⟩
    | _, _ => .ok ⟨-1, [], none, s⟩

/-! ## What a browser sends -/

def hexDigit (n : ℕ) : Char := "0123456789ABCDEF".toList.getD n '0'

/-- A byte, URL-encoded for a form. -/
def encodeChar (c : Char) : CString :=
  if c.isAlphanum ∨ c ∈ "*-._".toList then [c]
  else if c = ' ' then ['+']
  else ['%', hexDigit (c.toNat / 16), hexDigit (c.toNat % 16)]

def urlencode (s : CString) : CString := s.flatMap encodeChar

/-- The body of a form with some fields. -/
def formBody (fields : List (CString × CString)) : CString :=
  ['&'].intercalate (fields.map fun field => urlencode field.1 ++ '=' :: urlencode field.2)

/-- The form of `setting_get`. -/
def settingForm (name value : CString) : CString :=
  formBody [("name".toList, name), ("value".toList, value)]

/-- The body arrives, in pieces. -/
def Arrives (body : CString) (calls : List Received) : Prop :=
  ∃ pieces : List CString, (∀ piece ∈ pieces, piece ≠ []) ∧ pieces.flatten = body ∧
    calls = pieces.map .bytes

/-- Receiving the body fails: after some pieces that are not all of it there is an error, or the
connection is closed. -/
def Fails (body : CString) (calls : List Received) : Prop :=
  ∃ pieces : List CString, (∀ piece ∈ pieces, piece ≠ []) ∧ pieces.flatten <+: body ∧
    pieces.flatten ≠ body ∧ (calls = pieces.map .bytes ++ [.failed] ∨
      calls = pieces.map .bytes ++ [.bytes []])

/-- **The form is honoured**: when it arrives, its value is set, once and nothing else; when it fails
to arrive, no parameter is. -/
structure HonoursForm (s : Store) (buffer : StackBuffer) (calls : List Received)
    (name value : CString) : Prop where
  arrives : Arrives (settingForm name value) calls → ∀ err, ∃ answered,
    settingPost s buffer calls err = .ok answered ∧ answered.sets = [(name, value)]
  fails : Fails (settingForm name value) calls → ∀ err, ∃ answered,
    settingPost s buffer calls err = .ok answered ∧
      ∀ set ∈ answered.sets, parameter? set.1 = none

/-! ## When it is -/

/-- The form's text, not encoded. -/
def plainForm (name value : CString) : CString :=
  "name=".toList ++ name ++ "&value=".toList ++ value

/-- What the stack held is a string of at most two parameters, and where they are a name and a value
the name is no parameter's, and makes a title. -/
def StackBuffer.Harmless (buffer : StackBuffer) : Prop :=
  ∃ text, buffer.string .failed = .ok text ∧ (gmParamParse text).2.length ≤ 2 ∧
    ∀ name value, gmParam (gmParamParse text).2 "name".toList = some name →
      gmParam (gmParamParse text).2 "value".toList = some value →
      parameter? name = none ∧ (format (settingTitle name) []).isSome

/-- The first call brings the form's text, not encoded, if the form arrives; and if it fails to, the
call brings a piece that does not reach the value, or finds a harmless buffer. -/
def Forgiving (buffer : StackBuffer) (calls : List Received) (name value : CString) : Prop :=
  (Arrives (settingForm name value) calls → httpdReqRecv calls = .bytes (plainForm name value)) ∧
  (Fails (settingForm name value) calls →
    match httpdReqRecv calls with
    | .bytes piece => ¬ plainForm name [] <+: piece
    | .failed => buffer.Harmless)

/-! ## Splitting a form's text -/

theorem index_of_notMem {c : Char} : ∀ {s : CString}, c ∉ s → index c s = none := by
  intro s
  induction s with
  | nil => exact fun _ => rfl
  | cons x xs ih =>
    intro h
    obtain ⟨hx, hxs⟩ := List.ne_and_not_mem_of_not_mem_cons h
    rw [index, if_neg (fun heq => hx heq.symm), ih hxs]
    rfl

theorem index_append {c : Char} : ∀ {before : CString} (after : CString), c ∉ before →
    index c (before ++ c :: after) = some (before, after) := by
  intro before
  induction before with
  | nil => exact fun after _ => if_pos rfl
  | cons x xs ih =>
    intro after h
    obtain ⟨hx, hxs⟩ := List.ne_and_not_mem_of_not_mem_cons h
    rw [List.cons_append, index, if_neg (fun heq => hx heq.symm), ih after hxs]
    rfl

theorem notMem_of_index {c : Char} {s : CString} (h : index c s = none) : c ∉ s := by
  intro hmem
  obtain ⟨before, after, rfl, hbefore⟩ := List.eq_append_cons_of_mem hmem
  rw [index_append after hbefore] at h
  cases h

theorem eq_of_index {c : Char} {s before after : CString}
    (h : index c s = some (before, after)) : s = before ++ c :: after ∧ c ∉ before := by
  have hmem : c ∈ s := by
    refine Decidable.byContradiction fun hnot => ?_
    rw [index_of_notMem hnot] at h
    cases h
  obtain ⟨before', after', rfl, hbefore⟩ := List.eq_append_cons_of_mem hmem
  rw [index_append after' hbefore] at h
  obtain ⟨rfl, rfl⟩ := Prod.mk.inj (Option.some.inj h)
  exact ⟨rfl, hbefore⟩

theorem gmParamParse_of_notMem {s : CString} (h : '=' ∉ s) : gmParamParse s = (-1, []) := by
  unfold gmParamParse
  split
  · rfl
  · rename_i hs
    rw [index_of_notMem h] at hs
    cases hs

/-- The last parameter. -/
theorem gmParamParse_last {name value : CString} (hname : '=' ∉ name) (hvalue : '&' ∉ value) :
    gmParamParse (name ++ '=' :: value) = (0, [(name, value)]) := by
  unfold gmParamParse
  rw [index_append value hname]
  dsimp only
  rw [index_of_notMem hvalue]

/-- A parameter with more after it. -/
theorem gmParamParse_cons {name value : CString} (s : CString) (hname : '=' ∉ name)
    (hvalue : '&' ∉ value) : gmParamParse (name ++ '=' :: (value ++ '&' :: s))
      = ((gmParamParse s).1, (name, value) :: (gmParamParse s).2) := by
  rw [gmParamParse, index_append _ hname]
  dsimp only
  rw [index_append s hvalue]

/-! ## What the browser's encoding leaves -/

theorem hexDigit_mem (n : ℕ) : hexDigit n ∈ "0123456789ABCDEF".toList := by
  unfold hexDigit
  rw [List.getD_eq_getElem?_getD]
  cases h : "0123456789ABCDEF".toList[n]? with
  | none => exact List.mem_cons_self
  | some d => exact List.mem_of_getElem? h

/-- The encoding leaves no byte that means anything to the splitting. -/
theorem mem_urlencode {s : CString} : ∀ c ∈ urlencode s, c ≠ '&' ∧ c ≠ '=' ∧ c ≠ '\x00' := by
  have hdigits : ∀ d ∈ "0123456789ABCDEF".toList, d ≠ '&' ∧ d ≠ '=' ∧ d ≠ '\x00' := by simp
  intro c hc
  obtain ⟨x, -, hx⟩ := List.mem_flatMap.mp hc
  unfold encodeChar at hx
  split_ifs at hx with hplain hspace
  · obtain rfl := List.mem_singleton.mp hx
    refine ⟨?_, ?_, ?_⟩
    all_goals
      rintro rfl
      exact absurd hplain (by decide)
  · obtain rfl := List.mem_singleton.mp hx
    decide
  · obtain rfl | hx := List.mem_cons.mp hx
    · decide
    · obtain rfl | hx := List.mem_cons.mp hx
      · exact hdigits _ (hexDigit_mem _)
      · obtain rfl := List.mem_singleton.mp hx
        exact hdigits _ (hexDigit_mem _)

/-- A parameter's name is its own encoding, and means nothing to the splitting either. -/
theorem urlencode_of_parameter {name : CString} {p : Parameter} (hkey : parameter? name = some p) :
    urlencode name = name := by
  have hnames : ∀ q ∈ gmNonvolatile, urlencode q.name = q.name := by decide
  obtain ⟨hp, hname⟩ := mem_of_parameter? hkey
  exact hname ▸ hnames p hp

theorem settingForm_of_parameter {name : CString} {p : Parameter} (hkey : parameter? name = some p)
    (value : CString) : settingForm name value = plainForm name (urlencode value) := by
  have hname : urlencode "name".toList = "name".toList := by decide
  have hvalue : urlencode "value".toList = "value".toList := by decide
  unfold settingForm formBody plainForm
  simp only [List.map_cons, List.map_nil, hname, hvalue, urlencode_of_parameter hkey]
  simp [List.intercalate, List.intersperse]

/-! ## A piece of the form -/

/-- A prefix ends before a character, or goes past it. -/
theorem prefix_append_cons_cases {p before after : CString} {c : Char}
    (h : p <+: before ++ c :: after) :
    p <+: before ∨ ∃ t, p = before ++ c :: t ∧ t <+: after := by
  obtain hp | ⟨t, rfl⟩ := List.prefix_or_prefix_of_prefix h (List.prefix_append before (c :: after))
  · exact Or.inl hp
  · cases t with
    | nil => exact Or.inl ⟨[], by rw [List.append_nil, List.append_nil]⟩
    | cons x t =>
      obtain ⟨rfl, ht⟩ := List.cons_prefix_cons.mp ((List.prefix_append_right_inj before).mp h)
      exact Or.inr ⟨t, rfl, ht⟩

theorem plainForm_eq (name value : CString) : plainForm name value
    = "name".toList ++ '=' :: (name ++ '&' :: ("value".toList ++ '=' :: value)) := by
  unfold plainForm
  simp

theorem plainForm_append (name value : CString) :
    plainForm name [] ++ value = plainForm name value := by
  unfold plainForm
  rw [List.append_nil]

/-- The form's text splits into its two fields. -/
theorem gmParamParse_plainForm {name value : CString} {p : Parameter}
    (hkey : parameter? name = some p) (hvalue : '&' ∉ value) :
    gmParamParse (plainForm name value)
      = (0, [("name".toList, name), ("value".toList, value)]) := by
  have hname : '&' ∉ name := fun h =>
    (mem_urlencode '&' (urlencode_of_parameter hkey ▸ h)).1 rfl
  rw [plainForm_eq, gmParamParse_cons _ (by decide) hname, gmParamParse_last (by decide) hvalue]

/-- A piece that does not reach the value has no parameter of that name. -/
theorem gmParam_of_short {name value piece : CString} {p : Parameter}
    (hkey : parameter? name = some p) (hpiece : piece <+: plainForm name value)
    (hshort : ¬ plainForm name [] <+: piece) : (gmParamParse piece).2.length ≤ 1 ∧
      gmParam (gmParamParse piece).2 "value".toList = none := by
  have hname : ∀ c ∈ name, c ≠ '&' ∧ c ≠ '=' ∧ c ≠ '\x00' := fun c hc =>
    mem_urlencode c (urlencode_of_parameter hkey ▸ hc)
  have hone : ∀ v : CString, gmParam [("name".toList, v)] "value".toList = none := fun v => rfl
  rw [plainForm_eq] at hpiece
  obtain hpiece | ⟨t, rfl, ht⟩ := prefix_append_cons_cases hpiece
  · have hnone : '=' ∉ piece := fun h => absurd (hpiece.subset h) (by decide)
    rw [gmParamParse_of_notMem hnone]
    exact ⟨Nat.zero_le _, rfl⟩
  · obtain ht | ⟨u, rfl, hu⟩ := prefix_append_cons_cases ht
    · rw [gmParamParse_last (by decide) (fun h => (hname '&' (ht.subset h)).1 rfl)]
      exact ⟨Nat.le_refl _, hone t⟩
    · obtain hu | ⟨v, rfl, hv⟩ := prefix_append_cons_cases hu
      · have hnone : '=' ∉ u := fun h => absurd (hu.subset h) (by decide)
        rw [gmParamParse_cons _ (by decide) (fun h => (hname '&' h).1 rfl),
          gmParamParse_of_notMem hnone]
        exact ⟨Nat.le_refl _, hone name⟩
      · refine absurd ?_ hshort
        rw [← plainForm_eq]
        exact ⟨v, plainForm_append name v⟩

/-- The form's text has no null in it. -/
theorem takeWhile_of_form {name value piece : CString} {p : Parameter}
    (hkey : parameter? name = some p) (hpiece : piece <+: settingForm name value) :
    piece.takeWhile (· ≠ '\x00') = piece := by
  rw [settingForm_of_parameter hkey, plainForm_eq] at hpiece
  refine List.takeWhile_eq_self_iff.mpr fun c hc => decide_eq_true ?_
  have hname : ∀ c ∈ name, c ≠ '\x00' := fun c hc =>
    (mem_urlencode c (urlencode_of_parameter hkey ▸ hc)).2.2
  have hvalue : ∀ c ∈ urlencode value, c ≠ '\x00' := fun c hc => (mem_urlencode c hc).2.2
  have hmem := hpiece.subset hc
  simp only [List.mem_append, List.mem_cons] at hmem
  obtain h | rfl | h | rfl | h | rfl | h := hmem
  · exact fun hnull => absurd (hnull ▸ h) (by decide)
  · decide
  · exact hname c h
  · decide
  · exact fun hnull => absurd (hnull ▸ h) (by decide)
  · decide
  · exact hvalue c h

/-! ## A request -/

section
variable {s : Store} {buffer : StackBuffer} {calls : List Received} {text : CString} {err : EspErr}

/-- A name and a value are set. -/
theorem settingPost_of_both {name value : CString}
    (hstring : buffer.string (httpdReqRecv calls) = .ok text)
    (hcount : (gmParamParse text).2.length ≤ 2)
    (hname : gmParam (gmParamParse text).2 "name".toList = some name)
    (hvalue : gmParam (gmParamParse text).2 "value".toList = some value) :
    settingPost s buffer calls err = (settingPostSet s name value err).map fun set =>
      ⟨0, [(name, value)], some set.1, set.2⟩ := by
  simp only [settingPost, hstring, hname, hvalue, bind, Except.bind]
  rw [if_neg (by omega)]
  cases settingPostSet s name value err <;> rfl

/-- Without them nothing is done. -/
theorem settingPost_of_missing (hstring : buffer.string (httpdReqRecv calls) = .ok text)
    (hcount : (gmParamParse text).2.length ≤ 2)
    (hmissing : gmParam (gmParamParse text).2 "name".toList = none ∨
      gmParam (gmParamParse text).2 "value".toList = none) :
    settingPost s buffer calls err = .ok ⟨-1, [], none, s⟩ := by
  simp only [settingPost, hstring, bind, Except.bind]
  rw [if_neg (by omega)]
  obtain hmissing | hmissing := hmissing
  · rw [hmissing]
  · rw [hmissing]
    cases gmParam (gmParamParse text).2 "name".toList <;> rfl

end

/-- A set of a parameter is made, and answered. -/
theorem settingPostSet_of_parameter (s : Store) {name value : CString} {p : Parameter} (err : EspErr)
    (hkey : parameter? name = some p) (hvalue : value.length ≤ 1023) :
    ∃ page, settingPostSet s name value err = .ok (page, (s.gmNonvolatileSet name value err).2) := by
  obtain ⟨htitle, hname⟩ := settingTitle_of_parameter hkey
  have hlength := length_settingText_le name value (s.gmNonvolatileSet name value err).1
  have hfits : (settingText name value (s.gmNonvolatileSet name value err).1).length < 1500 := by
    split_ifs at hlength <;> omega
  obtain ⟨page, hpage, -⟩ := settingPostSet_ok htitle hfits
  exact ⟨page, hpage⟩

/-- **What a piece of a form does**: it sets the parameter to what it has of the value, as it stands,
or it does nothing. -/
theorem settingPost_of_piece (s : Store) (buffer : StackBuffer) {calls : List Received}
    {name value piece : CString} {p : Parameter} (err : EspErr) (hkey : parameter? name = some p)
    (hlength : (settingForm name value).length ≤ 1023) (hcall : httpdReqRecv calls = .bytes piece)
    (hpiece : piece <+: settingForm name value) :
    (∃ w, piece = plainForm name w ∧ ∃ answered, settingPost s buffer calls err = .ok answered ∧
      answered.sets = [(name, w)]) ∨
    ¬ plainForm name [] <+: piece ∧ ∃ answered, settingPost s buffer calls err = .ok answered ∧
      answered.sets = [] := by
  have hstring : buffer.string (httpdReqRecv calls) = .ok piece := by
    rw [hcall, StackBuffer.string, takeWhile_of_form hkey hpiece]
  have hplain := settingForm_of_parameter hkey value
  by_cases hreaches : plainForm name [] <+: piece
  · obtain ⟨w, hw⟩ := hreaches
    have hpiecew : piece = plainForm name w := hw.symm.trans (plainForm_append name w)
    have hsuffix : w <+: urlencode value := by
      rw [hpiecew, hplain, ← plainForm_append, ← plainForm_append name (urlencode value)] at hpiece
      exact (List.prefix_append_right_inj _).mp hpiece
    have hamp : '&' ∉ w := fun h => (mem_urlencode '&' (hsuffix.subset h)).1 rfl
    have hparams := gmParamParse_plainForm hkey hamp
    have hw : w.length ≤ 1023 := by
      have hle := hpiece.length_le
      rw [hpiecew, ← plainForm_append, List.length_append] at hle
      omega
    obtain ⟨page, hset⟩ := settingPostSet_of_parameter s err hkey hw
    rw [← hpiecew] at hparams
    refine Or.inl ⟨w, hpiecew, ⟨0, [(name, w)], some page, (s.gmNonvolatileSet name w err).2⟩,
      ?_, rfl⟩
    rw [settingPost_of_both hstring (by rw [hparams]; exact Nat.le_refl 2) (by rw [hparams]; rfl)
      (by rw [hparams]; rfl), hset]
    rfl
  · obtain ⟨hshort, hnone⟩ := gmParam_of_short hkey (hplain ▸ hpiece) hreaches
    refine Or.inr ⟨hreaches, ⟨-1, [], none, s⟩, ?_, rfl⟩
    exact settingPost_of_missing hstring (by omega) (Or.inr hnone)

section
variable (s : Store) (buffer : StackBuffer) {calls : List Received} {name value piece : CString}
  {p : Parameter}

/-- It sets the form's value when it is the form's text, not encoded. -/
theorem sets_iff_of_piece (hkey : parameter? name = some p)
    (hlength : (settingForm name value).length ≤ 1023) (hcall : httpdReqRecv calls = .bytes piece)
    (hpiece : piece <+: settingForm name value) :
    (∀ err, ∃ answered, settingPost s buffer calls err = .ok answered ∧
      answered.sets = [(name, value)]) ↔ piece = plainForm name value := by
  refine ⟨fun h => ?_, ?_⟩
  · obtain ⟨answered, hok, hsets⟩ := h .ok
    obtain ⟨w, hw, found, hfound, hset⟩ | ⟨-, found, hfound, hset⟩ :=
      settingPost_of_piece s buffer .ok hkey hlength hcall hpiece
    · obtain rfl := Except.ok.inj (hok.symm.trans hfound)
      obtain ⟨-, rfl⟩ := Prod.mk.inj (List.singleton_inj.mp (hset.symm.trans hsets))
      exact hw
    · obtain rfl := Except.ok.inj (hok.symm.trans hfound)
      exact absurd (hset.symm.trans hsets) nofun
  · rintro rfl err
    obtain ⟨w, hw, hset⟩ | ⟨hshort, -⟩ :=
      settingPost_of_piece s buffer err hkey hlength hcall hpiece
    · rw [← plainForm_append, ← plainForm_append name w] at hw
      obtain rfl := List.append_cancel_left hw
      exact hset
    · exact absurd ⟨value, plainForm_append name value⟩ hshort

/-- It sets no parameter when it does not reach the value. -/
theorem sets_none_iff_of_piece (hkey : parameter? name = some p)
    (hlength : (settingForm name value).length ≤ 1023) (hcall : httpdReqRecv calls = .bytes piece)
    (hpiece : piece <+: settingForm name value) :
    (∀ err, ∃ answered, settingPost s buffer calls err = .ok answered ∧
      ∀ set ∈ answered.sets, parameter? set.1 = none) ↔ ¬ plainForm name [] <+: piece := by
  refine ⟨fun h hreaches => ?_, fun hshort err => ?_⟩
  · obtain ⟨answered, hok, hsets⟩ := h .ok
    obtain ⟨w, -, found, hfound, hset⟩ | ⟨hshort, -⟩ :=
      settingPost_of_piece s buffer .ok hkey hlength hcall hpiece
    · obtain rfl := Except.ok.inj (hok.symm.trans hfound)
      have hnone := hsets (name, w) (hset ▸ List.mem_singleton_self _)
      rw [hkey] at hnone
      cases hnone
    · exact hshort hreaches
  · obtain ⟨w, rfl, -⟩ | ⟨-, answered, hok, hset⟩ :=
      settingPost_of_piece s buffer err hkey hlength hcall hpiece
    · exact absurd ⟨w, plainForm_append name w⟩ hshort
    · exact ⟨answered, hok, by rw [hset]; exact nofun⟩

end

/-! ## What the stack held -/

/-- A parameter is no longer than the text. -/
theorem length_of_mem_gmParamParse {s : CString} : ∀ param ∈ (gmParamParse s).2,
    param.1.length + param.2.length ≤ s.length := by
  fun_induction gmParamParse s with
  | case1 s hs => exact nofun
  | case2 s name rest hs hrest =>
    intro param hparam
    obtain rfl := List.mem_singleton.mp hparam
    exact (length_of_index hs).le
  | case3 s name rest hs value s' hrest parsed ih =>
    have hfirst := length_of_index hs
    have hsecond := length_of_index hrest
    intro param hparam
    obtain rfl | hparam := List.mem_cons.mp hparam
    · dsimp only
      omega
    · have hlength := ih param hparam
      omega

theorem length_of_gmParam {s name value : CString}
    (h : gmParam (gmParamParse s).2 name = some value) : value.length ≤ s.length := by
  obtain ⟨param, hfound, rfl⟩ := Option.map_eq_some_iff.mp h
  have hlength := length_of_mem_gmParamParse param (List.mem_of_find?_eq_some hfound)
  omega

/-- A page that was made has a title that could be written. -/
theorem title_of_settingPostSet {s : Store} {name value : CString} {err : EspErr}
    {made : Page × Store} (h : settingPostSet s name value err = .ok made) :
    (format (settingTitle name) []).isSome := by
  unfold settingPostSet at h
  rw [htmlBoilerplate_setting] at h
  obtain ⟨page, hwritten, -⟩ := bind_ok h
  have hmem : .text (settingTitle name) [] ∈ boilerplateCalls (settingTitle name) := by
    simp [boilerplateCalls]
  exact Option.isSome_map.symm.trans (Page.text?_of_writeAll [] hwritten _ hmem)

theorem StackBuffer.length_string {buffer : StackBuffer} {text : CString}
    (h : buffer.string .failed = .ok text) : text.length ≤ 1024 := by
  unfold StackBuffer.string at h
  dsimp only at h
  split_ifs at h
  obtain rfl := Except.ok.inj h
  exact (List.takeWhile_prefix _).length_le.trans buffer.length.le

/-- A handler that ends found a string of at most two parameters. -/
theorem parses_of_settingPost {s : Store} {buffer : StackBuffer} {calls : List Received}
    {err : EspErr} {answered : Answered} (h : settingPost s buffer calls err = .ok answered) :
    ∃ text, buffer.string (httpdReqRecv calls) = .ok text ∧ (gmParamParse text).2.length ≤ 2 := by
  obtain ⟨text, hstring, h⟩ := bind_ok h
  refine ⟨text, hstring, Nat.le_of_not_lt fun hmany => ?_⟩
  dsimp only at h
  rw [if_pos hmany] at h
  cases h

/-- One that ends and sets no parameter, whatever `nvs_set_str` comes to, found a harmless buffer. -/
theorem harmless_of_settingPost {s : Store} {buffer : StackBuffer} {calls : List Received}
    {answered : Answered} (hcall : httpdReqRecv calls = .failed)
    (hok : settingPost s buffer calls .ok = .ok answered)
    (hsets : ∀ set ∈ answered.sets, parameter? set.1 = none) : buffer.Harmless := by
  obtain ⟨text, hstring, hcount⟩ := parses_of_settingPost hok
  refine ⟨text, hcall ▸ hstring, hcount, fun name value hname hvalue => ?_⟩
  rw [settingPost_of_both hstring hcount hname hvalue] at hok
  obtain ⟨made, hset, rfl⟩ := map_ok hok
  exact ⟨hsets (name, value) (List.mem_singleton_self _), title_of_settingPostSet hset⟩

/-- A set of what is no parameter is answered, too. -/
theorem settingPostSet_of_unknown (s : Store) {name : CString} (value : CString) (err : EspErr)
    (hunknown : parameter? name = none) (hname : name.length ≤ 1024)
    (htitle : (format (settingTitle name) []).isSome) :
    ∃ page, settingPostSet s name value err = .ok (page, (s.gmNonvolatileSet name value err).2) := by
  obtain ⟨heading, hheading⟩ := Option.isSome_iff_exists.mp htitle
  have hset : s.gmNonvolatileSet name value err = (.notInParameterTable, s) := by
    simp only [Store.gmNonvolatileSet, hunknown]
  have hlength := length_settingText_le name value .notInParameterTable
  rw [if_neg (by decide)] at hlength
  have hfits : (settingText name value (s.gmNonvolatileSet name value err).1).length < 1500 := by
    rw [hset]
    dsimp only
    omega
  obtain ⟨page, hpage, -⟩ := settingPostSet_ok hheading hfits
  exact ⟨page, hpage⟩

/-- A harmless buffer makes a handler that ends and sets no parameter. -/
theorem StackBuffer.Harmless.answered {buffer : StackBuffer} (h : buffer.Harmless) (s : Store)
    {calls : List Received} (hcall : httpdReqRecv calls = .failed) (err : EspErr) :
    ∃ answered, settingPost s buffer calls err = .ok answered ∧
      ∀ set ∈ answered.sets, parameter? set.1 = none := by
  obtain ⟨text, hstring, hcount, hharmless⟩ := h
  have htext := buffer.length_string hstring
  rw [← hcall] at hstring
  cases hname : gmParam (gmParamParse text).2 "name".toList with
  | none =>
    exact ⟨_, settingPost_of_missing hstring hcount (Or.inl hname), List.forall_mem_nil _⟩
  | some name =>
    cases hvalue : gmParam (gmParamParse text).2 "value".toList with
    | none =>
      exact ⟨_, settingPost_of_missing hstring hcount (Or.inr hvalue), List.forall_mem_nil _⟩
    | some value =>
      obtain ⟨hunknown, htitle⟩ := hharmless name value hname hvalue
      have hshort : name.length ≤ 1024 := (length_of_gmParam hname).trans htext
      obtain ⟨page, hpage⟩ := settingPostSet_of_unknown s value err hunknown hshort htitle
      refine ⟨⟨0, [(name, value)], some page, (s.gmNonvolatileSet name value err).2⟩, ?_, ?_⟩
      · rw [settingPost_of_both hstring hcount hname hvalue, hpage]
        rfl
      · exact List.forall_mem_singleton.mpr hunknown

/-- **When receiving fails at once, what the stack held decides.** -/
theorem settingPost_of_failed (s : Store) {buffer : StackBuffer} {calls : List Received}
    (hcall : httpdReqRecv calls = .failed) :
    (∀ err, ∃ answered, settingPost s buffer calls err = .ok answered ∧
      ∀ set ∈ answered.sets, parameter? set.1 = none) ↔ buffer.Harmless := by
  refine ⟨fun h => ?_, fun h err => h.answered s hcall err⟩
  obtain ⟨answered, hok, hsets⟩ := h .ok
  exact harmless_of_settingPost hcall hok hsets

/-! ## The form -/

/-- The first call of a form that arrives brings a piece of it. -/
theorem Arrives.first {body : CString} {calls : List Received} (h : Arrives body calls)
    (hbody : body ≠ []) : ∃ piece, httpdReqRecv calls = .bytes piece ∧ piece <+: body := by
  obtain ⟨pieces, -, rfl, rfl⟩ := h
  cases pieces with
  | nil => exact absurd rfl hbody
  | cons piece pieces => exact ⟨piece, rfl, List.prefix_append _ _⟩

/-- So does that of a form that fails to, or it fails. -/
theorem Fails.first {body : CString} {calls : List Received} (h : Fails body calls) :
    (∃ piece, httpdReqRecv calls = .bytes piece ∧ piece <+: body) ∨
      httpdReqRecv calls = .failed := by
  obtain ⟨pieces, -, hpieces, -, hcalls⟩ := h
  cases pieces with
  | nil =>
    obtain rfl | rfl := hcalls
    · exact Or.inr rfl
    · exact Or.inl ⟨[], rfl, List.nil_prefix⟩
  | cons piece pieces =>
    have hpiece : piece <+: body := (List.prefix_append piece pieces.flatten).trans hpieces
    obtain rfl | rfl := hcalls
    · exact Or.inl ⟨piece, rfl, hpiece⟩
    · exact Or.inl ⟨piece, rfl, hpiece⟩

/-- **A form is honoured exactly when its first call is forgiving.** -/
theorem honoursForm_iff (s : Store) (buffer : StackBuffer) (calls : List Received)
    {name value : CString} (hname : (parameter? name).isSome)
    (hbody : (settingForm name value).length ≤ 1023) :
    HonoursForm s buffer calls name value ↔ Forgiving buffer calls name value := by
  obtain ⟨p, hkey⟩ := Option.isSome_iff_exists.mp hname
  have hne : settingForm name value ≠ [] := by
    rw [settingForm_of_parameter hkey, plainForm_eq]
    exact List.append_ne_nil_of_right_ne_nil _ (List.cons_ne_nil _ _)
  have harrives : Arrives (settingForm name value) calls →
      ((∀ err, ∃ answered, settingPost s buffer calls err = .ok answered ∧
        answered.sets = [(name, value)]) ↔
          httpdReqRecv calls = .bytes (plainForm name value)) := by
    intro h
    obtain ⟨piece, hcall, hpiece⟩ := h.first hne
    rw [sets_iff_of_piece s buffer hkey hbody hcall hpiece, hcall, Received.bytes.injEq]
  have hfails : Fails (settingForm name value) calls →
      ((∀ err, ∃ answered, settingPost s buffer calls err = .ok answered ∧
        ∀ set ∈ answered.sets, parameter? set.1 = none) ↔
          match httpdReqRecv calls with
          | .bytes piece => ¬ plainForm name [] <+: piece
          | .failed => buffer.Harmless) := by
    intro h
    obtain ⟨piece, hcall, hpiece⟩ | hcall := h.first
    · rw [sets_none_iff_of_piece s buffer hkey hbody hcall hpiece, hcall]
    · rw [settingPost_of_failed s hcall, hcall]
  refine ⟨fun h => ?_, fun h => ⟨?_, ?_⟩⟩
  · exact ⟨fun ha => (harrives ha).mp (h.arrives ha), fun hf => (hfails hf).mp (h.fails hf)⟩
  · exact fun ha => (harrives ha).mpr (h.1 ha)
  · exact fun hf => (hfails hf).mpr (h.2 hf)

/-- A form that arrives in one piece. -/
def onePiece (name value : CString) : List Received := [.bytes (settingForm name value)]

/-- A stack that held nothing but zeros. -/
def zeroBuffer : StackBuffer := ⟨List.replicate 1024 '\x00', List.length_replicate⟩

theorem not_fails_onePiece {name value : CString} (hbody : settingForm name value ≠ []) :
    ¬ Fails (settingForm name value) (onePiece name value) := by
  rintro ⟨pieces, -, -, hne, hcalls⟩
  cases pieces with
  | nil =>
    obtain h | h := hcalls
    · cases h
    · exact hbody (Received.bytes.inj (List.singleton_inj.mp h))
  | cons piece pieces =>
    obtain h | h := hcalls
    all_goals
      have hrest := (List.cons.inj h).2
      exact absurd hrest.symm (List.append_ne_nil_of_right_ne_nil _ (List.cons_ne_nil _ _))

theorem honoursForm_home : HonoursForm { nvs := fun _ => none } zeroBuffer
    (onePiece "ssid".toList "home".toList) "ssid".toList "home".toList :=
  (honoursForm_iff _ _ _ (by decide) (by decide)).mpr
    ⟨fun _ => congrArg Received.bytes (by decide),
      fun h => absurd h (not_fails_onePiece (by decide))⟩

theorem not_honoursForm_passWord : ¬ HonoursForm { nvs := fun _ => none } zeroBuffer
    (onePiece "wifi_password".toList "pass word".toList) "wifi_password".toList
    "pass word".toList := by
  intro h
  have hset := h.arrives ⟨[settingForm "wifi_password".toList "pass word".toList], by decide,
    List.append_nil _, rfl⟩
  have hplain := (sets_iff_of_piece { nvs := fun _ => none } zeroBuffer rfl (by decide) rfl
    (List.prefix_refl _)).mp hset
  exact absurd hplain (by decide)

end Web
