import HtFirmware.Web.Requests

/-!
# Web/SettingsPage — what the settings page shows

    values  ──▸  rows  ──▸  trees  ──▸  calls of the template  ──▸  text

In every run of requests, as long as the server runs, `GET /settings` is answered with the table of the
parameters with the values last set, in the order of the firmware's table (`settings_tell`).  A value is
written as the pattern of a `printf` that has no arguments: a `%%` comes out as one `%`, and any other
directive reads an argument that is not there.
-/

open Machinery Nvs
open scoped List

namespace Web

/-! ## The text -/

/-- What is shown for a row's value. -/
def cellText (row : Store.Row) : Option CString := format (shownValue row) []

example : (row? ⟨"ssid".toList, false, [], true⟩ (some "100%% home".toList)).bind cellText
    = some "100% home".toList := by decide

/-- The link of a row's button. -/
def rowLink (row : Store.Row) : CString := (settingLink row.name (linkedValue row)).take 127

/-- The text of a row, as far as its value comes to something. -/
def shownRow (row : Store.Row) : CString :=
  rowText (rowLink row) row.name ((cellText row).getD []) row.explanation

/-- The rows of the parameters. -/
def rowsOf (values : CString → Option CString) : List Store.Row :=
  gmNonvolatile.filterMap fun p => row? p (values p.name)

/-- **The text of the settings page.** -/
def settingsText (values : CString → Option CString) : CString :=
  pageText "Settings".toList (elementText "table".toList [] ((rowsOf values).flatMap shownRow))

/-- No value that is shown has a directive that reads an argument. -/
def Presentable (values : CString → Option CString) : Prop := ∀ row ∈ rowsOf values, (cellText row).isSome

/-! ## The rows -/

section Rows

variable {row : Store.Row} {values : CString → Option CString}

/-- What there is in the firmware's table stands for itself. -/
theorem plain_gmNonvolatile : ∀ p ∈ gmNonvolatile, ('%' ∉ p.name ∧ p.name.length ≤ 16) ∧
    '%' ∉ p.explanation ∧ p.explanation.length < 1024 := by
  decide

/-- What is in a row, but for its value. -/
theorem mem_rowsOf (hrow : row ∈ rowsOf values) : ('%' ∉ row.name ∧ row.name.length ≤ 16) ∧
    ('%' ∉ row.explanation ∧ row.explanation.length < 1024) ∧ (shownValue row).length < 1024 := by
  obtain ⟨p, hp, hfound⟩ := List.mem_filterMap.mp hrow
  obtain ⟨hname, hexplanation⟩ := plain_gmNonvolatile p hp
  have hconstant : "(not set)".toList.length < 1024 ∧ "(secret)".toList.length < 1024 := by decide
  cases hvalue : values p.name with
  | none =>
    rw [hvalue] at hfound
    obtain rfl := Option.some.inj hfound
    exact ⟨hname, hexplanation, hconstant.1⟩
  | some value =>
    rw [hvalue, row?] at hfound
    split_ifs at hfound with hfits hsecret
    · obtain rfl := Option.some.inj hfound
      exact ⟨hname, hexplanation, hconstant.2⟩
    · obtain rfl := Option.some.inj hfound
      exact ⟨hname, hexplanation, hfits⟩

/-- **The tree of a row**, where its value comes to something. -/
theorem node_of_mem_rowsOf (hrow : row ∈ rowsOf values) (hcell : (cellText row).isSome) :
    ∃ n : Node, (settingRow row).getD [] = n.calls ∧ n.serialise = shownRow row ∧
      ∀ piece ∈ n.pieces, Short piece := by
  obtain ⟨⟨hname, hnameLength⟩, ⟨hexplanation, hexplanationLength⟩, hlength⟩ := mem_rowsOf hrow
  obtain ⟨cell, hcell⟩ := Option.isSome_iff_exists.mp hcell
  have hcellLength := length_format_nil hcell
  refine ⟨rowNode (rowLink row) (asPattern row.name (format_of_plain [] hname)) (asPattern _ hcell)
    (asPattern row.explanation (format_of_plain [] hexplanation)), ?_, ?_, ?_⟩
  · rw [settingRow_eq]
    rfl
  · rw [serialise_rowNode, shownRow, hcell]
    rfl
  · have hlink : (rowLink row).length ≤ 127 := List.length_take_le _ _
    exact short_rowNode (by omega) (Nat.lt_of_le_of_lt hnameLength (by decide))
      (Nat.lt_of_le_of_lt hcellLength hlength) hexplanationLength

/-- The trees of some rows. -/
theorem nodes_of_rows {rows : List Store.Row} (h : ∀ row ∈ rows, ∃ n : Node,
      (settingRow row).getD [] = n.calls ∧ n.serialise = shownRow row ∧ ∀ piece ∈ n.pieces, Short piece) :
    ∃ ns : List Node, rows.flatMap (fun row => (settingRow row).getD []) = Node.callsAll ns ∧
      Node.serialiseAll ns = rows.flatMap shownRow ∧ ∀ piece ∈ Node.piecesAll ns, Short piece := by
  induction rows with
  | nil => exact ⟨[], rfl, rfl, List.forall_mem_nil _⟩
  | cons row rows ih =>
    obtain ⟨hrow, hrows⟩ := List.forall_mem_cons.mp h
    obtain ⟨n, hcalls, hserialise, hshort⟩ := hrow
    obtain ⟨ns, hcallsAll, hserialiseAll, hshortAll⟩ := ih hrows
    refine ⟨n :: ns, ?_, ?_, List.forall_mem_append.mpr ⟨hshort, hshortAll⟩⟩
    · rw [List.flatMap_cons, Node.callsAll, hcalls, hcallsAll]
    · rw [List.flatMap_cons, Node.serialiseAll, hserialise, hserialiseAll]

/-- **The page is written as its text**, where no value has a directive. -/
theorem Presentable.writeAll (h : Presentable values) {p : Page} (hp : p.Idle) :
    ∃ q, p.writeAll (boilerplateCalls "Settings".toList ++ settingsContents values ++ htmlEndBoilerplate)
      = .ok q ∧ q.received = p.received ++ settingsText values := by
  obtain ⟨ns, hcalls, hserialise, hshort⟩ := nodes_of_rows fun row hrow => node_of_mem_rowsOf hrow (h row hrow)
  have hheading : format "Settings".toList [] = some "Settings".toList := rfl
  have hpieces : ∀ piece ∈ (pageNode (literal "Settings".toList hheading)
      (.element "table".toList [] ns)).pieces, Short piece := by
    have hlength : (literal "Settings".toList hheading).text.length < 128 :=
      (by decide : "Settings".toList.length < 128)
    have hhead := short_headNode hlength
    have hh1 := short_headingNode hlength
    simp only [pageNode, Node.pieces, Node.piecesAll, List.flatMap_nil, List.append_nil,
      List.forall_mem_append, List.forall_mem_singleton]
    refine ⟨⟨?_, hhead, ⟨?_, hh1, ⟨?_, hshort⟩, ?_⟩, ?_⟩, ?_⟩
    all_goals
      unfold Short
      simp
  obtain ⟨q, hq, hreceived, -, -⟩ := serialised_of_nests rfl hpieces hp
  refine ⟨q, ?_, ?_⟩
  · have hcontents : settingsContents values
        = .tag "table".toList true :: (Node.callsAll ns ++ [.close]) := by
      rw [← hcalls]
      rfl
    rw [← hq, hcontents]
    simp only [documentCalls, pageNode, headNode, headingNode, boilerplateCalls, htmlEndBoilerplate,
      Node.calls, Node.callsAll, literal, element, void, Attribute.call, List.cons_append,
      List.nil_append, List.append_assoc, List.map_cons, List.map_nil, List.append_nil]
  · rw [hreceived, documentText_pageNode, Node.serialise, hserialise]
    rfl

/-- **A page that was written has no value with a directive.** -/
theorem presentable_of_writeAll {p q : Page} (hq : p.writeAll (boilerplateCalls "Settings".toList ++
    settingsContents values ++ htmlEndBoilerplate) = .ok q) : Presentable values := by
  intro row hrow
  have hcall : .text (shownValue row) [] ∈ (settingRow row).getD [] := by
    rw [settingRow_eq]
    exact (mem_rowCalls _ _ _ _).2.1
  have hrows : .text (shownValue row) [] ∈ (rowsOf values).flatMap fun row => (settingRow row).getD [] :=
    List.mem_flatMap.mpr ⟨row, hrow, hcall⟩
  have hmem : .text (shownValue row) [] ∈ settingsContents values := by
    unfold settingsContents element
    exact List.mem_cons_of_mem _ (List.mem_append_left _ (List.mem_append_right _ hrows))
  obtain ⟨text, htext, -⟩ := format_of_writeAll hq
    (List.mem_append_left _ (List.mem_append_right _ hmem)) (.inl rfl)
  exact Option.isSome_of_eq_some htext

end Rows

/-! ## The request -/

section Request

open Installed (installs nodup_installs unambiguous_installs)

variable {order : List (GmWebMethod × Installed)} {w : WebServer} {r : HttpRequest}

/-- The handler of the settings page. -/
theorem handlerFor_settings : handlerFor "/settings".toList .get = some .settings := by
  have hmem : (.get, .settings) ∈ installs := by decide
  unfold handlerFor
  rw [gmWebHandlerRun_only nodup_installs (by decide) unambiguous_installs hmem rfl]
  rfl

theorem gmUriParse_settings : ∃ uri, gmUriParse "/settings".toList = .ok uri ∧ uri.result = 0 :=
  ⟨_, rfl, rfl⟩

/-- **The settings page** is answered with. -/
theorem respond_settings (horder : order ~ installs) (hserving : w.serving = .running)
    (hidle : w.page.Idle) (hmethod : r.method = .get) (huri : r.uri = "/settings".toList) :
    w.respond order r = (({} : Page).settings w.store).map fun set =>
      (⟨set.1, set.2, .running⟩, .page set.1.sent set.1.finished) := by
  obtain ⟨uri, hparse, hresult⟩ := gmUriParse_settings
  have hroot : uriPath "/settings".toList ≠ ['/'] := by decide
  rw [respond_of_idle horder hserving hidle]
  have hhandle : WebServer.handle installs ⟨{}, w.store, .running⟩ r
      = WebServer.httpFileHandler installs ⟨{}, w.store, .running⟩ r := by
    unfold WebServer.handle
    rw [hmethod, huri]
    exact if_neg hroot
  rw [hhandle, WebServer.httpFileHandler, huri, hparse]
  change (if uri.result ≠ 0 then _ else _) = _
  rw [if_neg (not_not.mpr hresult), run_eq (.refl _), huri, handlerFor_settings, callFound,
    Installed.call]
  cases ({} : Page).settings w.store <;> rfl

/-- **It is answered where no value has a directive**, with its text. -/
theorem respond_of_presentable (horder : order ~ installs) (hserving : w.serving = .running)
    (hidle : w.page.Idle) (hmethod : r.method = .get) (huri : r.uri = "/settings".toList)
    (h : Presentable w.store.nvs) :
    ∃ t sent, w.respond order r = .ok (t, .page sent true) ∧ sent.flatten = settingsText w.store.nvs := by
  obtain ⟨t, -, hsettings⟩ := Page.settings_eq {} w.store
  obtain ⟨q, hq, hreceived⟩ := h.writeAll Page.idle_init
  obtain ⟨-, hfinished⟩ := Page.idle_init.page (balanced_settingsContents w.store.nvs) hq
  refine ⟨⟨q, t, .running⟩, q.sent, ?_, hreceived⟩
  rw [respond_settings horder hserving hidle hmethod huri, hsettings, hq, ← hfinished]
  rfl

/-- **It is answered only there.** -/
theorem presentable_of_respond (horder : order ~ installs) (hserving : w.serving = .running)
    (hidle : w.page.Idle) (hmethod : r.method = .get) (huri : r.uri = "/settings".toList)
    {a : WebServer × HttpResponse} (h : w.respond order r = .ok a) : Presentable w.store.nvs := by
  obtain ⟨t, -, hsettings⟩ := Page.settings_eq {} w.store
  rw [respond_settings horder hserving hidle hmethod huri, hsettings, map_map_except] at h
  obtain ⟨q, hq, -⟩ := map_ok h
  exact presentable_of_writeAll hq

end Request

/-! ## Runs -/

section Runs

open Installed (installs)

variable {order : List (GmWebMethod × Installed)} {w : WebServer} {r : HttpRequest}

/-- Some calls after others. -/
theorem valuesAfter_append (values : CString → Option CString) (ops more : List Op) :
    valuesAfter values (ops ++ more) = valuesAfter (valuesAfter values ops) more := by
  funext name
  unfold valuesAfter lastValue
  split_ifs <;> simp

/-- **The values after a run of requests** are those last set, where the server still runs. -/
theorem nvs_of_serve (horder : order ~ installs) : ∀ (rs : List HttpRequest) {w : WebServer}
    {a : WebServer × List HttpResponse}, (w.serving = .running → w.page.Idle) →
    serve (WebServer.respond order) w rs = .ok a → a.1.serving = .running →
    a.1.page.Idle ∧ a.1.store.nvs = valuesAfter w.store.nvs (rs.flatMap HttpRequest.ops) := by
  intro rs
  induction rs with
  | nil =>
    intro w a hidle h hrunning
    obtain rfl := Except.ok.inj h
    exact ⟨hidle hrunning, (valuesAfter_nil _).symm⟩
  | cons r rs ih =>
    intro w a hidle h hrunning
    obtain ⟨hserving, -⟩ := whole_of_serve horder (r :: rs) hidle h hrunning
    obtain ⟨b, hb, h⟩ := bind_ok h
    obtain ⟨c, hc, h⟩ := bind_ok h
    obtain rfl := Except.ok.inj h
    rw [respond_of_idle horder hserving (hidle hserving)] at hb
    have hhandled := handle_ok Page.idle_init hb
    have hidle' : b.1.serving = .running → b.1.page.Idle := fun hb' =>
      hhandled.ends.elim (fun hhung => by cases hhung.symm.trans hb') fun hends => hends.2.1
    obtain ⟨hidle'', hnvs⟩ := ih hidle' hc hrunning
    refine ⟨hidle'', ?_⟩
    rw [hnvs, hhandled.nvs, List.flatMap_cons, valuesAfter_append]

/-- **After every run of requests that did not stop the server, `GET /settings` is answered exactly where
no value that is shown has a directive, and then with the table of the values last set**, in whatever
order the constructors ran. -/
theorem settings_tell (horder : order ~ installs) (s : Store) (rs : List HttpRequest)
    {a : WebServer × List HttpResponse}
    (hrun : serve (WebServer.respond order) ⟨{}, s, .running⟩ rs = .ok a) (hserving : a.1.serving = .running)
    (hmethod : r.method = .get) (huri : r.uri = "/settings".toList) :
    let values := valuesAfter s.nvs (rs.flatMap HttpRequest.ops)
    (∃ t sent, a.1.respond order r = .ok (t, .page sent true) ∧ sent.flatten = settingsText values) ↔
      Presentable values := by
  obtain ⟨hidle, hnvs⟩ := nvs_of_serve horder rs (fun _ => Page.idle_init) hrun hserving
  dsimp only
  rw [← hnvs]
  constructor
  · rintro ⟨t, sent, hanswer, -⟩
    exact presentable_of_respond horder hserving hidle hmethod huri hanswer
  · exact respond_of_presentable horder hserving hidle hmethod huri

/-- A store with the network's name. -/
def homeStore : Store :=
  { nvs := fun name => if name = "ssid".toList then some "home".toList else none }

/-- The request for the page. -/
def getSettings : HttpRequest := ⟨.get, "/settings".toList, forgetful .directory, zeroBuffer, [], .ok⟩

theorem settings_tell_home : ∃ a, serve (WebServer.respond installs.reverse) ⟨{}, homeStore, .running⟩
      [getSettings] = .ok a ∧
    ((∃ t sent, a.1.respond installs.reverse getSettings = .ok (t, .page sent true) ∧
        sent.flatten = settingsText (valuesAfter homeStore.nvs ([getSettings].flatMap HttpRequest.ops))) ↔
      Presentable (valuesAfter homeStore.nvs ([getSettings].flatMap HttpRequest.ops))) := by
  have horder : installs.reverse ~ installs := List.reverse_perm _
  have hpresentable : Presentable homeStore.nvs := by
    unfold Presentable
    decide
  obtain ⟨t, sent, hanswer, -⟩ := respond_of_presentable (w := ⟨{}, homeStore, .running⟩)
    (r := getSettings) horder rfl Page.idle_init rfl rfl hpresentable
  have hrun : serve (WebServer.respond installs.reverse) ⟨{}, homeStore, .running⟩ [getSettings]
      = .ok (t, [.page sent true]) := by
    rw [serve, hanswer]
    rfl
  have hserving : t.serving = .running := by
    rw [respond_settings horder rfl Page.idle_init rfl rfl] at hanswer
    obtain ⟨set, -, hset⟩ := map_ok hanswer
    exact (Prod.mk.inj hset).1 ▸ rfl
  exact ⟨_, hrun, settings_tell horder homeStore [getSettings] hrun hserving rfl rfl⟩

end Runs

end Web
