import HtFirmware.Storage.Nonvolatile
import HtFirmware.Web.Template

/-!
# Web/Settings — the pages and the command that show parameters

The `/settings` page and the `nv` command list the parameters; the page that answers a form and the
`nv` command, again, say what became of a single one.

A parameter marked secret is not shown by a list, and by the command only as far as 128 bytes do or
do not hold it.  The page that answers a form shows it whole, since a set has no result of its own
for a secret (`undisclosed_iff`).
-/

open Machinery Nvs

namespace Web

/-! ## The pages -/

/-- `setting_row`. -/
def settingRow (row : Store.Row) : Option (List Markup) :=
  let shown : CString × CString :=
    match row.type with
    | .normal => (row.value, row.value)
    | .secret => ([], "(secret)".toList)
    | .notSet => ([], "(not set)".toList)
    | _ => ([], "(error)".toList)
  (getButton "Set".toList "/setting?name=%s&value=%s".toList [row.name, shown.1]).map fun button =>
    [.tag "tr".toList true, .tag "td".toList true] ++ button ++
      [.close, .tag "th".toList true, .text row.name [], .close,
        .tag "td".toList true, .text shown.2 [], .close,
        .tag "td".toList true, .text row.explanation [], .close, .close]

/-- Template calls whose patterns may have come to nothing. -/
def Page.writeAll? (p : Page) : Option (List Markup) → Except Fault Page
  | none => .error .pattern
  | some ms => p.writeAll ms

/-- The coroutine of the settings page. -/
def writeRow (row : Store.Row) (page : Except Fault Page) : Except Fault Page × List CString :=
  (page.bind (·.writeAll? (settingRow row)), [])

/-- `settings`. -/
def settings (s : Store) : Except Fault Page :=
  let page := do
    let page ← ({} : Page).writeAll? (htmlBoilerplate "Settings".toList [])
    page.write (.tag "table".toList true)
  let listed := Store.gmNonvolatileList writeRow gmNonvolatile page s
  listed.1.bind (·.writeAll (.close :: htmlEndBoilerplate))

/-- What `setting_post` says of a set. -/
def settingResult (name value : CString) : NonvolatileResult → Markup
  | .notSet | .error => .text "Non-volatile memory error, not set.".toList []
  | .notInParameterTable => .text "%s is not in the non-volatile parameter table.".toList [name]
  | .normal => .text "The value was set: %s=%s\n".toList [name, value]
  | .secret => .text "The value was set.".toList []

/-- The links of `setting_post`'s page. -/
def settingLinks : List Markup :=
  [.tag "ul".toList true,
    .tag "li".toList true,
    .tag "a".toList true, .attr "href".toList "/".toList [],
    .text "Front page.".toList [], .close, .close,
    .tag "li".toList true,
    .tag "a".toList true, .attr "href".toList "/settings".toList [],
    .text "Settings.".toList [], .close, .close,
    .close]

/-- `setting_post`, once it has found a name and a value; `err` is what `nvs_set_str` comes to. -/
def settingPostSet (s : Store) (name value : CString) (err : EspErr) : Except Fault (Page × Store) := do
  let page ← ({} : Page).writeAll? (htmlBoilerplate "Setting %s".toList [name])
  let set := s.gmNonvolatileSet name value err
  let page ← page.writeAll (settingResult name value set.1 :: settingLinks ++ htmlEndBoilerplate)
  .ok (page, set.2)

/-! ## The command -/

/-- `print_nonvolatile`. -/
def printNonvolatile (row : Store.Row) (u : Unit) : Unit × List CString :=
  let line (v : CString) : CString := leftJustified row.name ++ '\t' :: leftJustified v ++
    '\t' :: row.explanation ++ ['\n']
  match row.type with
  | .normal => (u, [line row.value])
  | .notSet => (u, [line "(not set)".toList])
  | .secret => (u, [line "(secret)".toList])
  | .error => (u, ["type -2".toList])
  | .notInParameterTable => (u, ["type -1".toList])

/-- `nonvolatile_args`, as `arg_parse` leaves them when it finds no errors. -/
structure NonvolatileArgs where
  name : List CString
  value : List CString
  erase : ℕ

/-- The reading of one parameter. -/
def nonvolatileGet (s : Store) (name : CString) : ℤ × Store :=
  let got := s.gmNonvolatileGet name 128
  let print (v : CString) : ℤ × Store :=
    (0, got.2.print ("\n\n".toList ++ name ++ " \t".toList ++ v ++ ['\n']))
  match got.1.1 with
  | .normal => print (got.1.2.getD [])
  | .notSet => print "(not set)".toList
  | .secret => print "(secret)".toList
  | .error => (-1, got.2.print "type -2".toList)
  | .notInParameterTable => (-1, got.2.print "type -1".toList)

/-- `nonvolatile`; a set goes on to the reading. -/
def nonvolatile (s : Store) (argc : ℕ) (args : NonvolatileArgs) (err : EspErr) : ℤ × Store :=
  let name := args.name.headD []
  if 0 < args.erase then
    if args.name.length < 1 then (-1, s.print "name must be specified.\n".toList)
    else (0, (s.gmNonvolatileErase name).2)
  else
    match argc with
    | 1 => (0, (Store.gmNonvolatileList printNonvolatile gmNonvolatile () s).2)
    | 2 => nonvolatileGet s name
    | 3 =>
      let set := s.gmNonvolatileSet name (args.value.headD []) err
      match set.1 with
      | .error => (-1, set.2)
      | .notInParameterTable =>
        (-1, set.2.print ("Error: not in nonvolatileeter table: ".toList ++ name ++ ['\n']))
      | _ => nonvolatileGet set.2 name
    | _ => (-1, s)

/-! ## Disclosure -/

/-- The store with a value for a parameter. -/
def holding (s : Store) (key value : CString) : Store :=
  { s with nvs := Function.update s.nvs key (some value) }

/-- **Nothing shown tells a parameter's one value from the other**: not the settings page, not the
page that answers a form that stores it, nor what the command prints when it lists, reads or sets
it. -/
structure Undisclosed (s : Store) (key v v' : CString) : Prop where
  settings : (settings (holding s key v)).map Page.received
    = (Web.settings (holding s key v')).map Page.received
  post : (settingPostSet s key v .ok).map (fun r => r.1.received)
    = (settingPostSet s key v' .ok).map (fun r => r.1.received)
  list : (nonvolatile (holding s key v) 1 ⟨[], [], 0⟩ .ok).2.console
    = (nonvolatile (holding s key v') 1 ⟨[], [], 0⟩ .ok).2.console
  read : (nonvolatile (holding s key v) 2 ⟨[key], [], 0⟩ .ok).2.console
    = (nonvolatile (holding s key v') 2 ⟨[key], [], 0⟩ .ok).2.console
  set : (nonvolatile s 3 ⟨[key], [v], 0⟩ .ok).2.console
    = (nonvolatile s 3 ⟨[key], [v'], 0⟩ .ok).2.console

/-! ## The lists -/

@[simp] theorem console_gmWifiRestart (s : Store) : s.gmWifiRestart.console = s.console := by
  unfold Store.gmWifiRestart
  dsimp only
  split
  · split_ifs <;> rfl
  · rfl

@[simp] theorem warned_gmWifiRestart (s : Store) : s.gmWifiRestart.warned = s.warned := by
  unfold Store.gmWifiRestart
  dsimp only
  split
  · split_ifs <;> rfl
  · rfl

theorem gmFlashFailure_holding (s : Store) (key value : CString) (err : EspErr) :
    (holding s key value).gmFlashFailure err = holding (s.gmFlashFailure err) key value := by
  unfold Store.gmFlashFailure holding Store.print
  dsimp only
  split_ifs <;> rfl

/-- A name of the table stands in one entry, so where the entry found is secret every one is. -/
theorem secret_of_parameter? {key : CString} {p : Parameter} (hkey : parameter? key = some p)
    (hsecret : p.secret = true) : ∀ q ∈ gmNonvolatile, q.name = key → q.secret = true := by
  have hunique : ∀ q ∈ gmNonvolatile, (parameter? q.name).map Parameter.secret = some q.secret := by
    decide
  intro q hq hname
  have hfound := hunique q hq
  rw [hname, hkey] at hfound
  exact (Option.some.inj hfound).symm.trans hsecret

/-- **A list comes out the same whatever the value of a secret.** -/
theorem gmNonvolatileList_holding {α : Type} (coroutine : Store.Row → α → α × List CString)
    {key : CString} : ∀ (ps : List Parameter), (∀ q ∈ ps, q.name = key → q.secret = true) →
    ∀ (a : α) (s : Store), ∃ b t, ∀ v, v.length < 1024 →
      Store.gmNonvolatileList coroutine ps a (holding s key v) = (b, holding t key v) := by
  intro ps
  induction ps with
  | nil => exact fun _ a s => ⟨a, s, fun v _ => rfl⟩
  | cons q ps ih =>
    intro hsecret a s
    obtain ⟨hq, hps⟩ := List.forall_mem_cons.mp hsecret
    by_cases hname : q.name = key
    · let called := (s.nvsGetStr q.name 1024).2.call coroutine ⟨q.name, [], q.explanation, .secret⟩ a
      obtain ⟨b, t, hlist⟩ := ih hps called.1 called.2
      refine ⟨b, t, fun v hv => ?_⟩
      have hvalue : (holding s key v).nvs q.name = some v := by
        rw [hname]
        exact Function.update_self _ _ _
      have hread : ((holding s key v).nvsGetStr q.name 1024).1 = .ok v := by
        simp only [Store.nvsGetStr, hvalue, if_pos hv]
      simp only [Store.gmNonvolatileList, hread, hq hname]
      exact hlist v hv
    · have hsame : ∀ v, (holding s key v).nvs q.name = s.nvs q.name := fun v =>
        Function.update_of_ne hname _ _
      have hread : ∀ v, ((holding s key v).nvsGetStr q.name 1024).1 = (s.nvsGetStr q.name 1024).1 :=
        fun v => by simp only [Store.nvsGetStr, hsame]
      obtain ⟨-, hg⟩ | ⟨value, -, ⟨-, hg⟩ | ⟨-, hg⟩⟩ := Store.nvsGetStr_cases s q.name 1024
      · let called := (s.nvsGetStr q.name 1024).2.call coroutine ⟨q.name, [], q.explanation, .notSet⟩ a
        obtain ⟨b, t, hlist⟩ := ih hps called.1 called.2
        refine ⟨b, t, fun v hv => ?_⟩
        simp only [Store.gmNonvolatileList, hread, hg]
        exact hlist v hv
      · let called := (s.nvsGetStr q.name 1024).2.call coroutine
          (if q.secret then ⟨q.name, [], q.explanation, .secret⟩
            else ⟨q.name, value, q.explanation, .normal⟩) a
        obtain ⟨b, t, hlist⟩ := ih hps called.1 called.2
        refine ⟨b, t, fun v hv => ?_⟩
        simp only [Store.gmNonvolatileList, hread, hg]
        exact hlist v hv
      · obtain ⟨b, t, hlist⟩ := ih hps a ((s.nvsGetStr q.name 1024).2.gmFlashFailure .invalidLength)
        refine ⟨b, t, fun v hv => ?_⟩
        simp only [Store.gmNonvolatileList, hread, hg]
        rw [← hlist v hv, ← gmFlashFailure_holding]
        rfl

section
variable {s : Store} {key v v' : CString} {p : Parameter}

/-- The settings page does not tell the values of a secret apart. -/
theorem settings_holding (hkey : parameter? key = some p) (hsecret : p.secret = true)
    (hv : v.length < 1000) (hv' : v'.length < 1000) :
    settings (holding s key v) = settings (holding s key v') := by
  unfold settings
  dsimp only
  obtain ⟨b, t, hlist⟩ := gmNonvolatileList_holding writeRow gmNonvolatile
    (secret_of_parameter? hkey hsecret)
    (do
      let page ← ({} : Page).writeAll? (htmlBoilerplate "Settings".toList [])
      page.write (.tag "table".toList true)) s
  rw [hlist v (by omega), hlist v' (by omega)]

/-- Nor does the command's list. -/
theorem console_list_holding (hkey : parameter? key = some p) (hsecret : p.secret = true)
    (hv : v.length < 1000) (hv' : v'.length < 1000) (err err' : EspErr) :
    (nonvolatile (holding s key v) 1 ⟨[], [], 0⟩ err).2.console
      = (nonvolatile (holding s key v') 1 ⟨[], [], 0⟩ err').2.console := by
  obtain ⟨b, t, hlist⟩ := gmNonvolatileList_holding printNonvolatile gmNonvolatile
    (secret_of_parameter? hkey hsecret) () s
  simp only [nonvolatile, Nat.lt_irrefl, if_false, hlist v (by omega), hlist v' (by omega)]
  rfl

/-! ## One parameter on the console -/

/-- What the command prints of a secret: whether 128 bytes hold it, and no more. -/
def secretLines (warned : Bool) (key value : CString) : List CString :=
  let line (v : CString) : CString := "\n\n".toList ++ key ++ " \t".toList ++ v ++ ['\n']
  if value.length < 128 then [line "(secret)".toList]
  else
    (if warned then []
      else ["FLASH memory: nvs: ".toList ++ espErrToName .invalidLength ++ "\n".toList]) ++
      [line "(not set)".toList]

theorem console_gmFlashFailure (s : Store) (err : EspErr) : (s.gmFlashFailure err).console
    = s.console ++ if s.warned then []
      else ["FLASH memory: nvs: ".toList ++ espErrToName err ++ "\n".toList] := by
  unfold Store.gmFlashFailure Store.print
  dsimp only
  split_ifs
  all_goals first | rfl | exact (List.append_nil _).symm

theorem console_nonvolatileGet (hkey : parameter? key = some p) (hsecret : p.secret = true)
    (hvalue : s.nvs key = some v) :
    (nonvolatileGet s key).2.console = s.console ++ secretLines s.warned key v := by
  have hread : (s.nvsGetStr key 128).1 = if v.length < 128 then .ok v else .error .invalidLength := by
    simp only [Store.nvsGetStr, hvalue]
  unfold secretLines
  by_cases hfits : v.length < 128
  · rw [if_pos hfits] at hread
    simp only [nonvolatileGet, Store.gmNonvolatileGet, hkey, hread, hsecret, if_true, if_pos hfits]
    rfl
  · rw [if_neg hfits] at hread
    have hflash := console_gmFlashFailure (s.nvsGetStr key 128).2 .invalidLength
    have herr : EspErr.invalidLength ≠ .notFound := by decide
    simp only [nonvolatileGet, Store.gmNonvolatileGet, hkey, hread, if_pos herr, if_neg hfits,
      Store.print, hflash, List.append_assoc]
    rfl

/-- Reading a secret. -/
theorem console_read_holding (hkey : parameter? key = some p) (hsecret : p.secret = true)
    (err : EspErr) : (nonvolatile (holding s key v) 2 ⟨[key], [], 0⟩ err).2.console
      = s.console ++ secretLines s.warned key v :=
  console_nonvolatileGet hkey hsecret (Function.update_self _ _ _)

/-- Setting one. -/
theorem console_set (hkey : parameter? key = some p) (hsecret : p.secret = true) :
    (nonvolatile s 3 ⟨[key], [v], 0⟩ .ok).2.console = s.console ++ secretLines s.warned key v := by
  let t : Store := { s with
    accesses := s.accesses ++ [key]
    nvs := Function.update s.nvs key (some v) }
  have hset : s.gmNonvolatileSet key v .ok = (.normal, t.callAfterSet p) := by
    simp only [Store.gmNonvolatileSet, hkey]
    rfl
  have hafter : (t.callAfterSet p).console = s.console ∧ (t.callAfterSet p).warned = s.warned := by
    unfold Store.callAfterSet
    split_ifs
    · exact ⟨console_gmWifiRestart t, warned_gmWifiRestart t⟩
    · exact ⟨rfl, rfl⟩
  have hvalue : (t.callAfterSet p).nvs key = some v := by
    rw [Store.nvs_callAfterSet]
    exact Function.update_self _ _ _
  have hget := console_nonvolatileGet hkey hsecret hvalue
  rw [hafter.1, hafter.2] at hget
  rw [← hget]
  simp only [nonvolatile, List.headD_cons, hset]
  rfl

/-- The command tells two values of a secret apart by the 128 bytes of its buffer only. -/
theorem secretLines_eq_iff (warned : Bool) : secretLines warned key v = secretLines warned key v' ↔
    (v.length < 128 ↔ v'.length < 128) := by
  have hlast : ∀ w : CString, (secretLines warned key w).getLast? = some ("\n\n".toList ++ key ++
      " \t".toList ++ (if w.length < 128 then "(secret)".toList else "(not set)".toList) ++
      ['\n']) := by
    intro w
    unfold secretLines
    by_cases hw : w.length < 128
    · simp only [if_pos hw]
      rfl
    · simp only [if_neg hw]
      exact List.getLast?_concat
  refine ⟨fun h => ?_, fun h => ?_⟩
  · have hlines := congrArg List.getLast? h
    rw [hlast v, hlast v'] at hlines
    have hshown := List.append_cancel_left (List.append_cancel_right (Option.some.inj hlines))
    split_ifs at hshown with hv hv' hv'
    · exact iff_of_true hv hv'
    · exact absurd hshown (by decide)
    · exact absurd hshown (by decide)
    · exact iff_of_false hv hv'
  · simp only [secretLines, h]

end

/-! ## The page that answers a form -/

/-- The text of `settingLinks`. -/
def settingLinksText : CString :=
  elementText "ul".toList []
    (elementText "li".toList [] (elementText "a".toList " href=\"/\"".toList "Front page.".toList) ++
      elementText "li".toList []
        (elementText "a".toList " href=\"/settings\"".toList "Settings.".toList))

theorem renders_settingLinks : Renders settingLinks settingLinksText := by
  have hfront : Attributes [.attr "href".toList "/".toList []] " href=\"/\"".toList :=
    .cons (format_of_plain [] (by decide)) attributes_nil
  have hsettings : Attributes [.attr "href".toList "/settings".toList []]
      " href=\"/settings\"".toList := .cons (format_of_plain [] (by decide)) attributes_nil
  have hfrontText : format "Front page.".toList [] = some "Front page.".toList :=
    format_of_plain [] (by decide)
  have hsettingsText : format "Settings.".toList [] = some "Settings.".toList :=
    format_of_plain [] (by decide)
  have hfirst := Renders.element "li".toList attributes_nil
    (Renders.element "a".toList hfront (renders_text hfrontText))
  have hsecond := Renders.element "li".toList attributes_nil
    (Renders.element "a".toList hsettings (renders_text hsettingsText))
  exact Renders.element "ul".toList attributes_nil (hfirst.append hsecond)

theorem length_settingLinksText : settingLinksText.length = 87 := by
  simp [settingLinksText, length_elementText]

/-- The title of the page, as `html_boilerplate` cuts it. -/
def settingTitle (name : CString) : CString := ("Setting ".toList ++ name).take 127

theorem htmlBoilerplate_setting (name : CString) : htmlBoilerplate "Setting %s".toList [name]
    = some (boilerplateCalls (settingTitle name)) := by
  have hformat : format "Setting %s".toList [name] = some ("Setting ".toList ++ name) := by
    simp [format]
  simp only [htmlBoilerplate, vsnprintf, hformat, Option.map_some]
  rfl

/-- What the page says of a set that succeeds. -/
def wasSetText (name value : CString) : CString :=
  "The value was set: ".toList ++ name ++ '=' :: value ++ ['\n']

/-- What the page says of a set. -/
def settingText (name value : CString) : NonvolatileResult → CString
  | .notSet | .error => "Non-volatile memory error, not set.".toList
  | .notInParameterTable => name ++ " is not in the non-volatile parameter table.".toList
  | .normal => wasSetText name value
  | .secret => "The value was set.".toList

theorem renders_settingResult (name value : CString) (result : NonvolatileResult) :
    Renders [settingResult name value result] (settingText name value result) := by
  cases result with
  | error | notSet | secret => exact renders_text (format_of_plain [] (by decide))
  | notInParameterTable =>
    refine renders_text ?_
    unfold settingText
    simp [format]
  | normal =>
    refine renders_text ?_
    unfold settingText wasSetText
    simp [format]

/-- Only a set that succeeds shows the value. -/
theorem length_settingText_le (name value : CString) (result : NonvolatileResult) :
    (settingText name value result).length
      ≤ 50 + name.length + if result = .normal then value.length else 0 := by
  have hnotSet : "Non-volatile memory error, not set.".toList.length = 35 := rfl
  have hnotIn : " is not in the non-volatile parameter table.".toList.length = 44 := rfl
  have hwas : "The value was set: ".toList.length = 19 := rfl
  have hsecret : "The value was set.".toList.length = 18 := rfl
  cases result with
  | error | notSet =>
    unfold settingText
    rw [hnotSet]
    omega
  | secret =>
    unfold settingText
    rw [hsecret]
    omega
  | notInParameterTable =>
    unfold settingText
    rw [List.length_append, hnotIn]
    omega
  | normal =>
    unfold settingText wasSetText
    simp only [List.length_append, List.length_cons, List.length_nil, hwas, if_true]
    omega

/-- **The page of a set**, and the store it leaves. -/
theorem settingPostSet_ok {s : Store} {name value heading : CString} {err : EspErr}
    (hheading : format (settingTitle name) [] = some heading)
    (hfits : (settingText name value (s.gmNonvolatileSet name value err).1).length < 1500) :
    ∃ page, settingPostSet s name value err = .ok (page, (s.gmNonvolatileSet name value err).2) ∧
      page.received = pageText heading
        (settingText name value (s.gmNonvolatileSet name value err).1 ++ settingLinksText) := by
  have hshort : heading.length ≤ 127 :=
    (length_format_nil hheading).trans (List.length_take_le _ _)
  have hcontent := (renders_settingResult name value (s.gmNonvolatileSet name value err).1).append
    renders_settingLinks
  obtain ⟨q, hq, hreceived⟩ := Page.page_of_fits hheading hcontent (by
    rw [length_pageText, List.length_append, length_settingLinksText]
    omega)
  rw [List.append_assoc, Page.writeAll_append] at hq
  refine ⟨q, ?_, hreceived⟩
  unfold settingPostSet
  rw [htmlBoilerplate_setting]
  cases hp : ({} : Page).writeAll (boilerplateCalls (settingTitle name)) with
  | error fault =>
    rw [hp] at hq
    cases hq
  | ok p =>
    rw [hp] at hq
    have hrest : p.writeAll (settingResult name value (s.gmNonvolatileSet name value err).1 ::
        settingLinks ++ htmlEndBoilerplate) = .ok q := hq
    simp only [Page.writeAll?, hp, bind, Except.bind, hrest]

/-- A title that is not cut. -/
theorem settingTitle_eq {name : CString} (h : name.length < 120) :
    settingTitle name = "Setting ".toList ++ name := by
  have hsetting : "Setting ".toList.length = 8 := rfl
  refine List.take_of_length_le ?_
  rw [List.length_append, hsetting]
  omega

/-- The names of the table fit a title, and are no patterns. -/
theorem settingTitle_of_parameter {name : CString} {p : Parameter} (hkey : parameter? name = some p) :
    format (settingTitle name) [] = some ("Setting ".toList ++ name) ∧ name.length ≤ 16 := by
  have hnames : ∀ q ∈ gmNonvolatile, q.name.length ≤ 16 ∧ '%' ∉ q.name := by decide
  obtain ⟨hp, hname⟩ := mem_of_parameter? hkey
  obtain ⟨hlength, hplain⟩ := hname ▸ hnames p hp
  have htitle : settingTitle name = "Setting ".toList ++ name := settingTitle_eq (by omega)
  have hsetting : '%' ∉ "Setting ".toList := by decide
  rw [htitle]
  exact ⟨format_of_plain [] (fun h => (List.mem_append.mp h).elim hsetting hplain), hlength⟩

/-- **A set that succeeds is answered with its value**, secret or not. -/
theorem received_settingPostSet {s : Store} {name value : CString} {p : Parameter}
    (hkey : parameter? name = some p) (hvalue : value.length < 1000) :
    (settingPostSet s name value .ok).map (fun r => r.1.received)
      = .ok (pageText ("Setting ".toList ++ name) (wasSetText name value ++ settingLinksText)) := by
  obtain ⟨htitle, hname⟩ := settingTitle_of_parameter hkey
  have hset : (s.gmNonvolatileSet name value .ok).1 = .normal := by
    simp only [Store.gmNonvolatileSet, hkey]
    rfl
  have hlength := length_settingText_le name value .normal
  rw [if_pos rfl] at hlength
  have hfits : (settingText name value (s.gmNonvolatileSet name value .ok).1).length < 1500 := by
    rw [hset]
    omega
  obtain ⟨page, hpage, hreceived⟩ := settingPostSet_ok htitle hfits
  rw [hset] at hreceived
  rw [hpage, Except.map, hreceived]
  rfl

/-- The pages that answer a form differ when the values they store do. -/
theorem eq_of_undisclosed {s : Store} {key v v' : CString} {p : Parameter}
    (hkey : parameter? key = some p) (hv : v.length < 1000) (hv' : v'.length < 1000)
    (h : Undisclosed s key v v') : v = v' := by
  have hpages := h.post
  rw [received_settingPostSet hkey hv, received_settingPostSet hkey hv'] at hpages
  have htexts := List.append_cancel_right (pageText_inj (Except.ok.inj hpages))
  have hvalues := List.append_cancel_left (List.append_cancel_right htexts)
  exact (List.cons.inj hvalues).2

end Web
