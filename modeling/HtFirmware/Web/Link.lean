import HtFirmware.Web.Form

/-!
# Web/Link — the button that leads to a parameter's form

A row of the settings page has a button whose script goes to the form of its parameter, with the
value in the link.  The link is made in 128 bytes and written as it is into a string of a script in
an attribute, a browser takes it from there, and the handler looks its parameters up without
decoding them; the page it makes has the value for a pattern.

So the form shows the value exactly when the link is not too long and each character of the value is
one that all of them leave alone (`opensSetting_iff`).
-/

open Machinery Nvs

namespace Web

/-! ## The link -/

/-- The script of a row's button, as `html_attr` writes it. -/
def buttonScript (row : Store.Row) : Option CString := do
  let ms ← settingRow row
  ms.findSome? fun m =>
    match m with
    | .attr name pattern args => if name = "onclick".toList then format pattern args else none
    | _ => none

/-! ## The handler -/

/-- `hexit`, where the character is a digit. -/
def hexit (c : Char) : Option ℕ :=
  if '0'.toNat ≤ c.toNat ∧ c.toNat ≤ '9'.toNat then some (c.toNat - '0'.toNat)
  else if 'a'.toNat ≤ c.toNat ∧ c.toNat ≤ 'f'.toNat then some (c.toNat - 'a'.toNat + 10)
  else if 'A'.toNat ≤ c.toNat ∧ c.toNat ≤ 'F'.toNat then some (c.toNat - 'A'.toNat + 10)
  else none

/-- `gm_uri_decode`, into a buffer of `size` bytes: its result, and the string it leaves.  The first
digit counts ten.  The bound is only looked at when the buffer has been left. -/
def gmUriDecode (size : ℕ) : CString → CString → Except Fault (ℤ × CString)
  | [], written => if size ≤ written.length then .error .overrun else .ok (0, written)
  | '%' :: first :: second :: s, written =>
    match hexit first, hexit second with
    | some x, some y =>
      if size ≤ written.length then .error .overrun
      else gmUriDecode size s (written ++ [Char.ofNat ((x * 10 + y) % 256)])
    | _, _ => .ok (-1, [])
  | '%' :: _, _ => .ok (-1, [])
  | c :: s, written =>
    if size ≤ written.length then .error .overrun else gmUriDecode size s (written ++ [c])

/-- `gm_uri`, with the result of `gm_uri_parse`, and what that leaves of the text. -/
structure GmUri where
  result : ℤ
  path : CString
  params : List (CString × CString)
  text : CString

/-- `gm_uri_parse`.  The parameters are stored beyond the array's ten, too. -/
def gmUriParse (uri : CString) : Except Fault GmUri := do
  let uri := if uri.head? = some '/' then uri.tail else uri
  let decoded ← gmUriDecode 512 uri []
  match index '?' uri with
  | none => .ok ⟨0, decoded.2, [], uri⟩
  | some (before, query) =>
    let parsed := gmParamParse query
    if 10 < parsed.2.length then .error .overrun
    else .ok ⟨parsed.1, decoded.2, parsed.2, before⟩

/-- `setting_get`'s calls of the template, if the parameters are there. -/
def settingGet (params : List (CString × CString)) : Option (List Markup) := do
  let name ← gmParam params "name".toList
  let value ← gmParam params "value".toList
  let boilerplate ← htmlBoilerplate "Setting %s".toList [name]
  some (boilerplate ++
    [.tag "form".toList true, .attr "method".toList "post".toList [],
      .attr "action".toList "/setting".toList [],
      .tag "input".toList false, .attr "type".toList "hidden".toList [],
      .attr "name".toList "name".toList [], .attr "value".toList name [],
      .tag "label".toList true, .attr "for".toList name [], .text name [], .close,
      .tag "input".toList false, .attr "type".toList "text".toList [],
      .attr "name".toList "value".toList [], .attr "value".toList value [],
      .tag "input".toList false, .attr "type".toList "submit".toList [],
      .close] ++ htmlEndBoilerplate)

/-- The values that the inputs of a page have, as `html_attr` writes them. -/
def inputValues (ms : List Markup) : List (Option CString) :=
  ms.filterMap fun m =>
    match m with
    | .attr name pattern args => if name = "value".toList then some (format pattern args) else none
    | _ => none

/-! ## The browser -/

/-- A printable ASCII character that stands for itself in the query of a URL. -/
def UrlChar (c : Char) : Prop :=
  '!'.toNat ≤ c.toNat ∧ c.toNat ≤ '~'.toNat ∧ c ∉ ['"', '#', '\x27', '<', '>']

instance (c : Char) : Decidable (UrlChar c) := inferInstanceAs (Decidable (_ ∧ _ ∧ _))

/-- What a string literal's text may denote: a backslash begins an escape sequence, which denotes no
more code units than it has characters after that, and a backslash only alone; any other character
denotes itself. -/
inductive Denotes : CString → List ℕ → Prop
  | nil : Denotes [] []
  | plain {c : Char} {s : CString} {codes : List ℕ} : c ≠ '\\' → Denotes s codes →
    Denotes (c :: s) (c.toNat :: codes)
  | escape {e s : CString} {units codes : List ℕ} : units.length ≤ e.length →
    ('\\'.toNat ∈ units → units = ['\\'.toNat]) → Denotes s codes →
    Denotes ('\\' :: (e ++ s)) (units ++ codes)

/-- A browser: the code units that the text of a string literal denotes, if it is one; the path and
query it requests for a location on the device; and those it requests for an attribute's script,
which stands at the beginning of some text of a page. -/
structure Browser where
  literal : CString → Option (List ℕ)
  request : List ℕ → CString
  follow : CString → Option CString

/-- The link to a parameter's form. -/
def settingLink (name value : CString) : CString := "/setting?".toList ++ plainForm name value

/-- The attribute of a button that goes to a link, and what follows on the page. -/
def buttonText (link rest : CString) : CString :=
  "window.location.href='".toList ++ link ++ "';".toList ++ '"' :: rest

/-- **What the standards say of a browser.**  HTML: an attribute ends at its quote, and an ampersand
that begins no character reference is itself.  ECMAScript: what a string literal denotes.  URL:
which characters the query of a request is made of, and which stand for themselves. -/
structure Browser.Standard (b : Browser) : Prop where
  script : ∀ {name value : CString} (rest : CString),
    (∀ c ∈ name ++ value, UrlChar c ∧ c ≠ '&') →
      b.follow (buttonText (settingLink name value) rest)
        = (b.literal (settingLink name value)).map b.request
  denotes : ∀ {s : CString} {codes : List ℕ}, (∀ c ∈ s, UrlChar c) → b.literal s = some codes →
    Denotes s codes
  plain : ∀ {s : CString}, (∀ c ∈ s, UrlChar c ∧ c ≠ '\\') → b.literal s = some (s.map Char.toNat)
  query : ∀ {text uri path query : CString}, b.follow text = some uri →
    index '?' uri = some (path, query) → ∀ c ∈ query, UrlChar c
  request : ∀ {query : CString}, (∀ c ∈ query, UrlChar c) →
    b.request (("/setting?".toList ++ query).map Char.toNat) = "/setting?".toList ++ query
  backslashes : ∀ codes : List ℕ, (b.request codes).count '\\' ≤ codes.count '\\'.toNat

/-- **The button opens the form, with the value**: what it leads to is a request for the form with
this name and this value, and the page has them in its inputs. -/
def OpensSetting (b : Browser) (row : Store.Row) (rest : CString) : Prop :=
  ∃ script uri u page, buttonScript row = some script ∧
    b.follow (script ++ '"' :: rest) = some uri ∧
    gmUriParse uri = .ok u ∧ u.result = 0 ∧ u.text = "setting".toList ∧
    gmParam u.params "name".toList = some row.name ∧
    gmParam u.params "value".toList = some row.value ∧
    settingGet u.params = some page ∧ inputValues page = [some row.name, some row.value]

/-- **What it takes**: the link fits, and each character of the value is left alone by the browser,
by the splitting of the query, and by `printf`. -/
def Survives (name value : CString) : Prop :=
  21 + name.length + value.length ≤ 127 ∧
    ∀ c ∈ value, UrlChar c ∧ c ≠ '&' ∧ c ≠ '\\' ∧ c ≠ '%'

instance (name value : CString) : Decidable (Survives name value) :=
  @instDecidableAnd _ _ _ (List.decidableBAll _ _)

/-! ## What a literal denotes -/

theorem count_toNat (c d : Char) (codes : List ℕ) :
    (c.toNat :: codes).count d.toNat = codes.count d.toNat + if c = d then 1 else 0 := by
  rw [List.count_cons]
  simp only [beq_iff_eq, Char.toNat_inj]

/-- Text before any backslash denotes itself. -/
theorem Denotes.append {p s : CString} {codes : List ℕ} (hp : '\\' ∉ p)
    (h : Denotes (p ++ s) codes) : ∃ rest, codes = p.map Char.toNat ++ rest ∧ Denotes s rest := by
  induction p generalizing codes with
  | nil => exact ⟨codes, rfl, h⟩
  | cons c p ih =>
    obtain ⟨hc, hp⟩ := List.ne_and_not_mem_of_not_mem_cons hp
    generalize htext : c :: p ++ s = text at h
    cases h with
    | nil => cases htext
    | plain hplain h =>
      obtain ⟨rfl, rfl⟩ := List.cons.inj htext
      obtain ⟨rest, rfl, hrest⟩ := ih hp h
      exact ⟨rest, rfl, hrest⟩
    | escape =>
      exact absurd (List.cons.inj htext).1.symm hc

theorem count_units {units : List ℕ} (h : '\\'.toNat ∈ units → units = ['\\'.toNat]) :
    units.count '\\'.toNat ≤ 1 := by
  by_cases hmem : '\\'.toNat ∈ units
  · rw [h hmem]
    decide
  · rw [List.count_eq_zero.mpr hmem]
    exact Nat.zero_le 1

/-- It denotes no more backslashes than it has. -/
theorem Denotes.count_le {s : CString} {codes : List ℕ} (h : Denotes s codes) :
    codes.count '\\'.toNat ≤ s.count '\\' := by
  induction h with
  | nil => exact Nat.le_refl _
  | plain hc h ih =>
    rw [count_toNat, if_neg hc, List.count_cons_of_ne hc]
    exact ih
  | @escape e s units codes hlength hunits h ih =>
    have hone := count_units hunits
    rw [List.count_append, List.count_cons_self, List.count_append]
    omega

/-- **As many only if all it denotes stands in it.** -/
theorem Denotes.eq_map {s : CString} {codes : List ℕ} (h : Denotes s codes)
    (hcount : s.count '\\' ≤ codes.count '\\'.toNat) :
    ∃ w : CString, codes = w.map Char.toNat ∧ ∀ c ∈ w, c ∈ s := by
  induction h with
  | nil => exact ⟨[], rfl, List.forall_mem_nil _⟩
  | @plain c s codes hc h ih =>
    rw [count_toNat, if_neg hc, List.count_cons_of_ne hc] at hcount
    obtain ⟨w, rfl, hw⟩ := ih hcount
    refine ⟨c :: w, rfl, List.forall_mem_cons.mpr ⟨List.mem_cons_self, fun d hd => ?_⟩⟩
    exact List.mem_cons_of_mem c (hw d hd)
  | @escape e s units codes hlength hunits h ih =>
    have hle := h.count_le
    have hone := count_units hunits
    rw [List.count_append, List.count_cons_self, List.count_append] at hcount
    have hbackslash : '\\'.toNat ∈ units := List.count_pos_iff.mp (by omega)
    obtain ⟨w, rfl, hw⟩ := ih (by omega)
    rw [hunits hbackslash]
    refine ⟨'\\' :: w, rfl, List.forall_mem_cons.mpr ⟨List.mem_cons_self, fun d hd => ?_⟩⟩
    exact List.mem_cons_of_mem _ (List.mem_append_right e (hw d hd))

/-- It denotes no more than it has, and less if it has a backslash. -/
theorem Denotes.length_le {s : CString} {codes : List ℕ} (h : Denotes s codes) :
    codes.length ≤ s.length ∧ ('\\' ∈ s → codes.length < s.length) := by
  induction h with
  | nil => exact ⟨Nat.le_refl _, nofun⟩
  | @plain c s codes hc h ih =>
    obtain ⟨hle, hlt⟩ := ih
    refine ⟨Nat.succ_le_succ hle, fun hmem => Nat.succ_lt_succ (hlt ?_)⟩
    exact (List.mem_cons.mp hmem).resolve_left fun heq => hc heq.symm
  | @escape e s units codes hlength hunits h ih =>
    have hle := ih.1
    simp only [List.length_append, List.length_cons]
    exact ⟨by omega, fun _ => by omega⟩

/-! ## What is looked up -/

/-- A parameter's value stands in the text, and has no ampersand. -/
theorem mem_gmParamParse {s : CString} : ∀ param ∈ (gmParamParse s).2,
    param.2 <:+: s ∧ '&' ∉ param.2 := by
  fun_induction gmParamParse s with
  | case1 s hs => exact List.forall_mem_nil _
  | case2 s name rest hs hrest =>
    obtain ⟨rfl, -⟩ := eq_of_index hs
    intro param hparam
    obtain rfl := List.mem_singleton.mp hparam
    have hsuffix : rest <:+ name ++ '=' :: rest := ⟨name ++ ['='], by simp⟩
    exact ⟨hsuffix.isInfix, notMem_of_index hrest⟩
  | case3 s name rest hs value s' hrest parsed ih =>
    obtain ⟨rfl, -⟩ := eq_of_index hs
    obtain ⟨rfl, hvalue⟩ := eq_of_index hrest
    intro param hparam
    obtain rfl | hparam := List.mem_cons.mp hparam
    · exact ⟨⟨name ++ ['='], '&' :: s', by simp⟩, hvalue⟩
    · have hsuffix : s' <:+ name ++ '=' :: (value ++ '&' :: s') :=
        ⟨name ++ '=' :: (value ++ ['&']), by simp⟩
      obtain ⟨hwithin, hamp⟩ := ih param hparam
      exact ⟨hwithin.trans hsuffix.isInfix, hamp⟩

theorem gmUriDecode_of_plain {size : ℕ} : ∀ {s written : CString}, '%' ∉ s →
    written.length + s.length < size → gmUriDecode size s written = .ok (0, written ++ s) := by
  intro s
  induction s with
  | nil =>
    intro written _ hsize
    rw [gmUriDecode, if_neg (by simp only [List.length_nil] at hsize; omega), List.append_nil]
  | cons c s ih =>
    intro written hplain hsize
    obtain ⟨hc, hs⟩ := List.ne_and_not_mem_of_not_mem_cons hplain
    rw [List.length_cons] at hsize
    have hwritten : (written ++ [c]).length + s.length < size := by
      rw [List.length_append, List.length_singleton]
      omega
    rw [gmUriDecode, if_neg (by omega), ih hs hwritten, List.append_assoc]
    · rfl
    all_goals
      intros
      exact hc (Eq.symm ‹_›)

theorem index_settingLink (name value : CString) : index '?' (settingLink name value)
    = some ("/setting".toList, plainForm name value) := by
  have hpath : '?' ∉ "/setting".toList := by decide
  exact index_append (plainForm name value) hpath

/-- Parameters that were found stand behind the question mark. -/
theorem query_of_gmUriParse {uri key value : CString} {u : GmUri}
    (hparse : gmUriParse uri = .ok u) (hparam : gmParam u.params key = some value) :
    ∃ path query, index '?' uri = some (path, query) ∧ u.params = (gmParamParse query).2 := by
  obtain ⟨decoded, -, hparse⟩ := bind_ok hparse
  dsimp only at hparse
  split at hparse
  · obtain rfl := Except.ok.inj hparse
    cases hparam
  · rename_i before query hindex
    split_ifs at hparse
    obtain rfl := Except.ok.inj hparse
    split_ifs at hindex with hhead
    · cases uri with
      | nil => cases hhead
      | cons c uri =>
        obtain rfl := Option.some.inj hhead
        refine ⟨'/' :: before, query, ?_, rfl⟩
        rw [index, if_neg (by decide)]
        exact congrArg _ hindex
    · exact ⟨before, query, hindex, rfl⟩

/-! ## The link to a parameter -/

theorem untouched_of_parameter {name : CString} {p : Parameter} (hkey : parameter? name = some p) :
    ∀ c ∈ name, UrlChar c ∧ c ≠ '&' ∧ c ≠ '\\' ∧ c ≠ '%' := by
  have hnames : (gmNonvolatile.all fun q =>
      q.name.all fun c => decide (UrlChar c ∧ c ≠ '&' ∧ c ≠ '\\' ∧ c ≠ '%')) = true := by decide
  obtain ⟨hp, hname⟩ := mem_of_parameter? hkey
  exact hname ▸ forall_mem_of_all (List.all_eq_true.mp hnames p hp)

theorem length_plainForm (name value : CString) :
    (plainForm name value).length = 12 + name.length + value.length := by
  have hname : "name=".toList.length = 5 := rfl
  have hvalue : "&value=".toList.length = 7 := rfl
  unfold plainForm
  rw [List.length_append, List.length_append, List.length_append, hname, hvalue]
  omega

theorem length_settingLink (name value : CString) :
    (settingLink name value).length = 21 + name.length + value.length := by
  have hpath : "/setting?".toList.length = 9 := rfl
  unfold settingLink
  rw [List.length_append, length_plainForm, hpath]
  omega

/-- What holds of the link's own characters, of the name's and of the value's holds of them all. -/
theorem forall_mem_settingLink {P : Char → Prop} {name value : CString}
    (hlink : ∀ c ∈ "/setting?name=&value=".toList, P c) (hname : ∀ c ∈ name, P c)
    (hvalue : ∀ c ∈ value, P c) : ∀ c ∈ settingLink name value, P c := by
  have hfixed : "/setting?name=&value=".toList
      = "/setting?".toList ++ ("name=".toList ++ "&value=".toList) := rfl
  rw [hfixed, List.forall_mem_append, List.forall_mem_append] at hlink
  unfold settingLink plainForm
  rw [List.forall_mem_append, List.forall_mem_append, List.forall_mem_append,
    List.forall_mem_append]
  exact ⟨hlink.1, ⟨⟨hlink.2.1, hname⟩, hlink.2.2⟩, hvalue⟩

theorem settingLink_append (name value : CString) :
    settingLink name value = settingLink name [] ++ value := by
  unfold settingLink
  rw [List.append_assoc, plainForm_append]

/-- The buffer of the button cuts the value. -/
theorem take_settingLink {name : CString} (value : CString) (hname : name.length ≤ 16) :
    (settingLink name value).take 127 = settingLink name (value.take (106 - name.length)) := by
  have hlength := length_settingLink name []
  rw [List.length_nil] at hlength
  have hroom : 127 - (settingLink name []).length = 106 - name.length := by omega
  rw [settingLink_append name value, settingLink_append name (value.take _), List.take_append,
    hroom, List.take_of_length_le (by omega)]

theorem format_settingLink (name value : CString) :
    format "/setting?name=%s&value=%s".toList [name, value] = some (settingLink name value) := by
  have hpattern : "/setting?name=%s&value=%s".toList
      = "/setting?name=".toList ++ '%' :: 's' :: ("&value=".toList ++ ['%', 's']) := rfl
  have hlink : settingLink name value
      = "/setting?name=".toList ++ (name ++ ("&value=".toList ++ value)) := by
    unfold settingLink plainForm
    rw [List.append_assoc, List.append_assoc]
    rfl
  have hend : format ['%', 's'] [value] = some value := by
    rw [format_directive, format, Option.map_some, List.append_nil]
  rw [hpattern, hlink, format_append_of_plain _ _ (by decide), format_directive,
    format_append_of_plain _ _ (by decide), hend]
  rfl

/-- The script of a parameter's button. -/
theorem buttonScript_eq {name : CString} (value explanation : CString) (hname : name.length ≤ 16) :
    buttonScript ⟨name, value, explanation, .normal⟩ = some ("window.location.href='".toList ++
      settingLink name (value.take (106 - name.length)) ++ "';".toList) := by
  have hscript : ∀ link : CString, format "window.location.href='%s';".toList [link]
      = some ("window.location.href='".toList ++ link ++ "';".toList) := by
    intro link
    have hpattern : "window.location.href='%s';".toList
        = "window.location.href='".toList ++ '%' :: 's' :: "';".toList := rfl
    rw [hpattern, format_append_of_plain _ _ (by decide), format_directive,
      format_of_plain [] (by decide), List.append_assoc]
    rfl
  have hbutton : getButton "Set".toList "/setting?name=%s&value=%s".toList [name, value]
      = some [.tag "button".toList true, .attr "onclick".toList "window.location.href='%s';".toList
        [settingLink name (value.take (106 - name.length))], .text "Set".toList [], .close] := by
    rw [getButton, vsnprintf, format_settingLink, Option.map_some, take_settingLink value hname]
    rfl
  unfold buttonScript settingRow
  dsimp only
  rw [hbutton]
  exact hscript _

/-- The handler finds both in the link. -/
theorem gmUriParse_settingLink {name value : CString} {p : Parameter}
    (hkey : parameter? name = some p) (hlength : 21 + name.length + value.length ≤ 127)
    (hvalue : '&' ∉ value) (hplain : '%' ∉ value) : ∃ path,
    gmUriParse (settingLink name value) = .ok ⟨0, path,
      [("name".toList, name), ("value".toList, value)], "setting".toList⟩ := by
  have hlink : settingLink name value = '/' :: ("setting".toList ++ '?' :: plainForm name value) :=
    rfl
  have hdecode : '%' ∉ "setting".toList ++ '?' :: plainForm name value := fun hmem =>
    forall_mem_settingLink (forall_mem_of_all (by decide))
      (fun c hc => (untouched_of_parameter hkey c hc).2.2.2)
      (fun c hc heq => hplain (heq ▸ hc)) '%' (hlink ▸ List.mem_cons_of_mem '/' hmem) rfl
  have hfits : ([] : CString).length + ("setting".toList ++ '?' :: plainForm name value).length
      < 512 := by
    have hsetting : "setting".toList.length = 7 := rfl
    rw [List.length_append, List.length_cons, length_plainForm, hsetting, List.length_nil]
    omega
  have hindex : index '?' ("setting".toList ++ '?' :: plainForm name value)
      = some ("setting".toList, plainForm name value) :=
    index_append (plainForm name value) (by decide)
  refine ⟨"setting".toList ++ '?' :: plainForm name value, ?_⟩
  rw [gmUriParse, hlink, List.head?_cons, if_pos rfl, List.tail_cons,
    gmUriDecode_of_plain hdecode hfits]
  simp only [bind, Except.bind, hindex, gmParamParse_plainForm hkey hvalue]
  rfl

/-- The page has both for patterns. -/
theorem inputValues_of_settingGet {params : List (CString × CString)} {name value : CString}
    (hname : gmParam params "name".toList = some name)
    (hvalue : gmParam params "value".toList = some value) :
    ∃ page, settingGet params = some page ∧
      inputValues page = [format name [], format value []] := by
  rw [settingGet, hname, hvalue]
  simp only [bind, Option.bind, htmlBoilerplate_setting]
  exact ⟨_, rfl, rfl⟩

/-! ## The button -/

theorem infix_of_gmParam {s key value : CString}
    (h : gmParam (gmParamParse s).2 key = some value) : value <:+: s ∧ '&' ∉ value := by
  obtain ⟨param, hfound, rfl⟩ := Option.map_eq_some_iff.mp h
  exact mem_gmParamParse param (List.mem_of_find?_eq_some hfound)

theorem urlChar_settingLink {name value : CString} {p : Parameter} (hkey : parameter? name = some p)
    (hvalue : ∀ c ∈ value, UrlChar c) : ∀ c ∈ settingLink name value, UrlChar c :=
  forall_mem_settingLink (forall_mem_of_all (by decide))
    (fun c hc => (untouched_of_parameter hkey c hc).1) hvalue

theorem noBackslash_settingLink {name value : CString} {p : Parameter}
    (hkey : parameter? name = some p) (hvalue : '\\' ∉ value) : '\\' ∉ settingLink name value :=
  fun hmem => forall_mem_settingLink (forall_mem_of_all (by decide))
    (fun c hc => (untouched_of_parameter hkey c hc).2.2.1)
    (fun c hc heq => hvalue (heq ▸ hc)) '\\' hmem rfl

section
variable {b : Browser} {name value : CString} {p : Parameter} {uri : CString}

/-- A button whose link is left to the browser. -/
theorem Browser.Standard.follow_settingLink (h : b.Standard) (hkey : parameter? name = some p)
    (rest : CString) (hvalue : ∀ c ∈ value, UrlChar c ∧ c ≠ '&') :
    b.follow (buttonText (settingLink name value) rest)
      = (b.literal (settingLink name value)).map b.request := by
  refine h.script rest (List.forall_mem_append.mpr ⟨fun c hc => ?_, hvalue⟩)
  obtain ⟨hurl, hamp, -, -⟩ := untouched_of_parameter hkey c hc
  exact ⟨hurl, hamp⟩

theorem Browser.Standard.request_settingLink (h : b.Standard) (hkey : parameter? name = some p)
    (hvalue : ∀ c ∈ value, UrlChar c) :
    b.request ((settingLink name value).map Char.toNat) = settingLink name value :=
  h.request fun c hc => urlChar_settingLink hkey hvalue c (List.mem_append_right _ hc)

/-- **What a request holds of the value that its link was made of**: as many backslashes only if it
is the link for some text with no other characters, and shorter if there was an escape sequence. -/
theorem Browser.Standard.eq_settingLink (h : b.Standard) (hkey : parameter? name = some p)
    (rest : CString) (hvalue : ∀ c ∈ value, UrlChar c ∧ c ≠ '&')
    (hfollow : b.follow (buttonText (settingLink name value) rest) = some uri)
    (hcount : value.count '\\' ≤ uri.count '\\') :
    ∃ w, uri = settingLink name w ∧ (∀ c ∈ w, c ∈ value) ∧ w.length ≤ value.length ∧
      ('\\' ∈ value → w.length < value.length) := by
  rw [h.follow_settingLink hkey rest hvalue] at hfollow
  obtain ⟨codes, hliteral, rfl⟩ := Option.map_eq_some_iff.mp hfollow
  have hdenotes := h.denotes (urlChar_settingLink hkey fun c hc => (hvalue c hc).1) hliteral
  have hplain : '\\' ∉ settingLink name [] := noBackslash_settingLink hkey List.not_mem_nil
  rw [settingLink_append] at hdenotes
  obtain ⟨codes, rfl, hrest⟩ := hdenotes.append hplain
  have hfixed : ((settingLink name []).map Char.toNat).count '\\'.toNat = 0 := by
    refine List.count_eq_zero.mpr fun hmem => ?_
    obtain ⟨c, hc, heq⟩ := List.mem_map.mp hmem
    exact hplain (Char.toNat_inj.mp heq ▸ hc)
  have hcodes := h.backslashes ((settingLink name []).map Char.toNat ++ codes)
  rw [List.count_append, hfixed, Nat.zero_add] at hcodes
  obtain ⟨w, rfl, hw⟩ := hrest.eq_map (hcount.trans hcodes)
  obtain ⟨hle, hlt⟩ := hrest.length_le
  rw [List.length_map] at hle hlt
  refine ⟨w, ?_, hw, hle, hlt⟩
  rw [← List.map_append, ← settingLink_append]
  exact h.request_settingLink hkey fun c hc => (hvalue c (hw c hc)).1

/-- A button that opens the form has a value that survives. -/
theorem survives_of_opensSetting (h : b.Standard) (hkey : parameter? name = some p)
    {explanation rest : CString}
    (hopens : OpensSetting b ⟨name, value, explanation, .normal⟩ rest) : Survives name value := by
  obtain ⟨script, uri, u, page, hscript, hfollow, hparse, -, -, hname, hvalue, hpage, hinputs⟩ :=
    hopens
  obtain ⟨-, hshort⟩ := settingTitle_of_parameter hkey
  rw [buttonScript_eq value explanation hshort] at hscript
  obtain rfl := Option.some.inj hscript
  obtain ⟨path, query, hindex, hparams⟩ := query_of_gmUriParse hparse hvalue
  obtain ⟨page', hpage', hpatterns⟩ := inputValues_of_settingGet hname hvalue
  obtain rfl := Option.some.inj (hpage.symm.trans hpage')
  have hpercent : '%' ∉ value := by
    rw [hinputs] at hpatterns
    exact plain_of_format (List.cons.inj (List.cons.inj hpatterns).2).1.symm
  rw [hparams] at hvalue
  obtain ⟨hwithin, hamp⟩ := infix_of_gmParam hvalue
  have hchars : ∀ c ∈ value, UrlChar c ∧ c ≠ '&' := fun c hc =>
    ⟨h.query hfollow hindex c (hwithin.subset hc), fun heq => hamp (heq ▸ hc)⟩
  have hcut : ∀ c ∈ value.take (106 - name.length), UrlChar c ∧ c ≠ '&' := fun c hc =>
    hchars c (List.mem_of_mem_take hc)
  have hquery : query <:+ uri := by
    obtain ⟨rfl, -⟩ := eq_of_index hindex
    exact ⟨path ++ ['?'], by simp⟩
  have hcount : (value.take (106 - name.length)).count '\\' ≤ uri.count '\\' :=
    calc (value.take (106 - name.length)).count '\\'
      _ ≤ value.count '\\' := (List.take_sublist _ _).count_le _
      _ ≤ query.count '\\' := hwithin.sublist.count_le _
      _ ≤ uri.count '\\' := hquery.sublist.count_le _
  obtain ⟨w, rfl, hw, hle, hlt⟩ := h.eq_settingLink hkey rest hcut hfollow hcount
  obtain ⟨-, rfl⟩ := Prod.mk.inj (Option.some.inj ((index_settingLink name w).symm.trans hindex))
  have hwamp : '&' ∉ w := fun hmem => (hcut '&' (hw '&' hmem)).2 rfl
  rw [gmParamParse_plainForm hkey hwamp] at hvalue
  obtain rfl : w = value := Option.some.inj hvalue
  rw [List.length_take] at hle
  have hwhole : w.take (106 - name.length) = w := List.take_of_length_le (by omega)
  refine ⟨by omega, fun c hc => ?_⟩
  obtain ⟨hurl, hc'⟩ := hchars c hc
  refine ⟨hurl, hc', ?_, fun heq => hpercent (heq ▸ hc)⟩
  rintro rfl
  rw [hwhole] at hlt
  exact absurd (hlt hc) (Nat.lt_irrefl _)

/-- A value that survives has a button that opens the form. -/
theorem opensSetting_of_survives (h : b.Standard) (hkey : parameter? name = some p)
    (explanation rest : CString) (hsurvives : Survives name value) :
    OpensSetting b ⟨name, value, explanation, .normal⟩ rest := by
  obtain ⟨hlength, hchars⟩ := hsurvives
  obtain ⟨-, hshort⟩ := settingTitle_of_parameter hkey
  have hwhole : value.take (106 - name.length) = value := List.take_of_length_le (by omega)
  have hamp : '&' ∉ value := fun hmem => (hchars '&' hmem).2.1 rfl
  have hbackslash : '\\' ∉ value := fun hmem => (hchars '\\' hmem).2.2.1 rfl
  have hpercent : '%' ∉ value := fun hmem => (hchars '%' hmem).2.2.2 rfl
  have hurl : ∀ c ∈ value, UrlChar c := fun c hc => (hchars c hc).1
  have hliteral : b.literal (settingLink name value)
      = some ((settingLink name value).map Char.toNat) :=
    h.plain fun c hc => ⟨urlChar_settingLink hkey hurl c hc,
      fun heq => noBackslash_settingLink hkey hbackslash (heq ▸ hc)⟩
  have hfollow : b.follow (buttonText (settingLink name value) rest)
      = some (settingLink name value) := by
    rw [h.follow_settingLink hkey rest fun c hc => ⟨hurl c hc, (hchars c hc).2.1⟩, hliteral,
      Option.map_some, h.request_settingLink hkey hurl]
  obtain ⟨path, hparse⟩ := gmUriParse_settingLink hkey hlength hamp hpercent
  have hname : gmParam [("name".toList, name), ("value".toList, value)] "name".toList = some name :=
    rfl
  have hvalue : gmParam [("name".toList, name), ("value".toList, value)] "value".toList
      = some value := rfl
  obtain ⟨page, hpage, hinputs⟩ := inputValues_of_settingGet hname hvalue
  have hnamePlain : '%' ∉ name := fun hmem => (untouched_of_parameter hkey '%' hmem).2.2.2 rfl
  rw [format_of_plain [] hnamePlain, format_of_plain [] hpercent] at hinputs
  have hscript := buttonScript_eq value explanation hshort
  rw [hwhole] at hscript
  exact ⟨_, _, _, page, hscript, hfollow, hparse, rfl, rfl, hname, hvalue, hpage, hinputs⟩

/-- **The button of a parameter opens its form, with its value, exactly when that survives.** -/
theorem opensSetting_iff (h : b.Standard) (hname : (parameter? name).isSome)
    (value explanation rest : CString) :
    OpensSetting b ⟨name, value, explanation, .normal⟩ rest ↔ Survives name value := by
  obtain ⟨p, hkey⟩ := Option.isSome_iff_exists.mp hname
  exact ⟨survives_of_opensSetting h hkey, opensSetting_of_survives h hkey explanation rest⟩

end

/-! ## A browser -/

/-- A code unit in a request. -/
def encodeUnit (n : ℕ) : CString :=
  if UrlChar (Char.ofNat n) then [Char.ofNat n] else ['%', hexDigit (n / 16), hexDigit (n % 16)]

/-- The code units of a literal without escape sequences. -/
def literalUnits (s : CString) : Option (List ℕ) :=
  if '\\' ∈ s then none else some (s.map Char.toNat)

/-- A browser for scripts that set the location to such a literal. -/
def simpleBrowser : Browser where
  literal := literalUnits
  request codes := codes.flatMap encodeUnit
  follow text :=
    if "window.location.href='".toList <+: text then
      (index '\x27' (text.drop 22)).bind fun cut => (literalUnits cut.1).map (·.flatMap encodeUnit)
    else none

theorem Denotes.of_plain : ∀ {s : CString}, '\\' ∉ s → Denotes s (s.map Char.toNat) := by
  intro s
  induction s with
  | nil => exact fun _ => .nil
  | cons c s ih =>
    intro h
    obtain ⟨hc, hs⟩ := List.ne_and_not_mem_of_not_mem_cons h
    exact .plain (fun heq => hc heq.symm) (ih hs)

theorem urlChar_hexDigit (n : ℕ) : UrlChar (hexDigit n) ∧ hexDigit n ≠ '\\' := by
  have hdigits : ∀ d ∈ "0123456789ABCDEF".toList, UrlChar d ∧ d ≠ '\\' :=
    forall_mem_of_all (by decide)
  exact hdigits _ (hexDigit_mem n)

theorem urlChar_encodeUnit {n : ℕ} : ∀ c ∈ encodeUnit n, UrlChar c := by
  unfold encodeUnit
  split_ifs with hurl
  · exact List.forall_mem_singleton.mpr hurl
  · have hpercent : UrlChar '%' := by decide
    exact List.forall_mem_cons.mpr ⟨hpercent, List.forall_mem_cons.mpr
      ⟨(urlChar_hexDigit _).1, List.forall_mem_singleton.mpr (urlChar_hexDigit _).1⟩⟩

theorem flatMap_encodeUnit {s : CString} (h : ∀ c ∈ s, UrlChar c) :
    (s.map Char.toNat).flatMap encodeUnit = s := by
  induction s with
  | nil => rfl
  | cons c s ih =>
    obtain ⟨hc, hs⟩ := List.forall_mem_cons.mp h
    rw [List.map_cons, List.flatMap_cons, ih hs, encodeUnit, Char.ofNat_toNat, if_pos hc]
    rfl

theorem eq_of_ofNat {n : ℕ} {c : Char} (h : Char.ofNat n = c) (hc : c ≠ '\x00') : n = c.toNat := by
  subst h
  unfold Char.ofNat at hc ⊢
  by_cases hvalid : n.isValidChar
  · rw [dif_pos hvalid]
    rfl
  · rw [dif_neg hvalid] at hc
    exact absurd rfl hc

theorem count_encodeUnit (n : ℕ) : (encodeUnit n).count '\\' ≤ [n].count '\\'.toNat := by
  unfold encodeUnit
  split_ifs with hurl
  · by_cases hn : Char.ofNat n = '\\'
    · rw [eq_of_ofNat hn (by decide)]
      decide
    · rw [List.count_eq_zero.mpr (fun hmem => hn (List.mem_singleton.mp hmem).symm)]
      exact Nat.zero_le _
  · refine (List.count_eq_zero.mpr fun hmem => ?_).trans_le (Nat.zero_le _)
    have hpercent : '\\' ≠ '%' := by decide
    obtain hmem | hmem := List.mem_cons.mp hmem
    · exact hpercent hmem
    · obtain hmem | hmem := List.mem_cons.mp hmem
      · exact (urlChar_hexDigit _).2 hmem.symm
      · exact (urlChar_hexDigit _).2 (List.mem_singleton.mp hmem).symm

/-- It is as the standards say. -/
theorem simpleBrowser_standard : simpleBrowser.Standard where
  script {name value} rest hchars := by
    have hquote : '\x27' ∉ settingLink name value := fun hmem =>
      forall_mem_settingLink (forall_mem_of_all (by decide))
        (fun c hc => (hchars c (List.mem_append_left _ hc)).1.2.2)
        (fun c hc => (hchars c (List.mem_append_right _ hc)).1.2.2) '\x27' hmem (by decide)
    have htext : buttonText (settingLink name value) rest = "window.location.href='".toList ++
        (settingLink name value ++ '\x27' :: (';' :: '"' :: rest)) := by
      unfold buttonText
      rw [List.append_assoc, List.append_assoc]
      rfl
    have hdrop : (buttonText (settingLink name value) rest).drop 22
        = settingLink name value ++ '\x27' :: (';' :: '"' :: rest) := by
      rw [htext]
      exact List.drop_left' rfl
    have hstart : "window.location.href='".toList <+: buttonText (settingLink name value) rest := by
      rw [htext]
      exact List.prefix_append _ _
    dsimp only [simpleBrowser]
    rw [if_pos hstart, hdrop, index_append _ hquote]
    rfl
  denotes {s codes} _ hliteral := by
    dsimp only [simpleBrowser, literalUnits] at hliteral
    split_ifs at hliteral with hs
    obtain rfl := Option.some.inj hliteral
    exact Denotes.of_plain hs
  plain {s} hchars := if_neg fun hmem => (hchars _ hmem).2 rfl
  query {text uri path query} hfollow hindex c hc := by
    dsimp only [simpleBrowser] at hfollow
    split_ifs at hfollow
    obtain ⟨cut, -, hcut⟩ := Option.bind_eq_some_iff.mp hfollow
    obtain ⟨codes, -, rfl⟩ := Option.map_eq_some_iff.mp hcut
    obtain ⟨heq, -⟩ := eq_of_index hindex
    have hmem : c ∈ codes.flatMap encodeUnit := by
      rw [heq]
      exact List.mem_append_right _ (List.mem_cons_of_mem _ hc)
    obtain ⟨n, -, hn⟩ := List.mem_flatMap.mp hmem
    exact urlChar_encodeUnit c hn
  request {query} hquery := by
    refine flatMap_encodeUnit (List.forall_mem_append.mpr ⟨?_, hquery⟩)
    exact forall_mem_of_all (by decide)
  backslashes codes := by
    dsimp only [simpleBrowser]
    induction codes with
    | nil => exact Nat.le_refl _
    | cons n codes ih =>
      rw [List.flatMap_cons, List.count_append, ← List.singleton_append, List.count_append]
      exact Nat.add_le_add (count_encodeUnit n) ih

theorem opensSetting_home : OpensSetting simpleBrowser
    ⟨"ssid".toList, "home".toList, "Name of the WiFi access point".toList, .normal⟩ ['>'] :=
  (opensSetting_iff simpleBrowser_standard (by decide) _ _ _).mpr (by decide)

theorem not_opensSetting_homeWifi : ¬ OpensSetting simpleBrowser
    ⟨"ssid".toList, "home wifi".toList, "Name of the WiFi access point".toList, .normal⟩ ['>'] := by
  intro h
  obtain ⟨p, hkey⟩ := Option.isSome_iff_exists.mp (show (parameter? "ssid".toList).isSome by decide)
  exact absurd (survives_of_opensSetting simpleBrowser_standard hkey h) (by decide)

end Web
