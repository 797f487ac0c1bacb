import HtFirmware.Machinery.Machine
import HtFirmware.Web.Frogfs
import HtFirmware.Web.Handlers
import HtFirmware.Web.Steps
import HtFirmware.Web.Trim
import HtFirmware.Web.Verbatim

/-!
# Web/Requests — a server that answers one request after the other

    GET   ──▸  a handler  ──▸  a file  ──▸  404
    POST  ──▸  a handler
    PUT   ──▸  a handler

All pages are written with one buffer and one stack of tags, in static memory: what a handler leaves in
them the next response begins with.  And whatever constructors there are register their handlers in the
linker's order.

None of it shows.  In every run the answers are those of a server just started, whose parameters have the
values last set (`answers_alone`), and a page that is begun is ended, with one exception.  To set `ssid` or
`wifi_password` restarts the station, which stops the web server first; a handler that does so waits for
its own task to end, and there is no answer any more.
-/

open Machinery Nvs
open scoped List

namespace Web

/-! ## The server -/

/-- `ssl_server`: it runs; there is none; or its task waits in `httpd_ssl_stop` for itself to end, and
perhaps the console's task for it. -/
inductive Serving where
  | running
  | stopped
  | hung (console : Bool)
  deriving DecidableEq

/-- What is kept from one request to the next: the templates' static memory, the parameters, and the
server. -/
structure WebServer where
  page : Page := {}
  store : Store
  serving : Serving := .running

/-- A request, and what there is to know of it and the rest of the world: what `setting_post` has on its
stack and receives, and what `nvs_set_str` comes to. -/
structure HttpRequest where
  method : GmWebMethod
  uri : CString
  world : World
  buffer : StackBuffer
  calls : List Received
  err : EspErr

/-- The chunks of a page, and whether it was ended; a redirection to `/index.html`; a file, or what else
there is for the path; no such file; an error, for which the connection is closed; the chunks that were
sent before the handler stopped the server; or nothing, where no server runs. -/
inductive HttpResponse where
  | page (sent : List CString) (finished : Bool)
  | moved
  | file (reply : Reply)
  | notFound
  | failed
  | cut (sent : List CString)
  | unanswered

/-! ## The handlers -/

/-- Whether `gm_wifi_restart` is called after a set of the parameter. -/
def restartsStation (name : CString) : Bool := (parameter? name).any Parameter.callAfterSet

/-- The store where the function that is called after a change does not return. -/
def unreturned (s : Store) (name : CString) (value : Option CString) : Store :=
  { s with accesses := s.accesses ++ [name], nvs := Function.update s.nvs name value }

namespace Page

/-- `settings`. -/
def settings (p : Page) (s : Store) : Except Fault (Page × Store) :=
  let page := do
    let page ← p.writeAll? (htmlBoilerplate "Settings".toList [])
    page.write (.tag "table".toList true)
  let listed := Store.gmNonvolatileList writeRow gmNonvolatile page s
  (listed.1.bind (·.writeAll (.close :: htmlEndBoilerplate))).map fun page => (page, listed.2)

/-- `setting_get`, and its result. -/
def settingGet (p : Page) (params : List (CString × CString)) : Except Fault (ℤ × Page) :=
  match Web.settingGet params with
  | none => .ok (-1, p)
  | some ms => (p.writeAll ms).map fun page => (0, page)

/-- `setting_post`, once it has found a name and a value.  A set that restarts the station does not
return. -/
def settingPostSet (p : Page) (s : Store) (name value : CString) (err : EspErr) :
    Except Fault (Page × Store × Serving) := do
  let page ← p.writeAll? (htmlBoilerplate "Setting %s".toList [name])
  if restartsStation name ∧ err = .ok then .ok (page, unreturned s name (some value), .hung false)
  else
    let set := s.gmNonvolatileSet name value err
    let page ← page.writeAll (settingResult name value set.1 :: settingLinks ++ htmlEndBoilerplate)
    .ok (page, set.2, .running)

/-- The name and the value that `setting_post` finds. -/
def posted (buffer : StackBuffer) (calls : List Received) : Except Fault (Option (CString × CString)) := do
  let text ← buffer.string (httpdReqRecv calls)
  let params := (gmParamParse text).2
  if 2 < params.length then .error .overrun
  else
    match gmParam params "name".toList, gmParam params "value".toList with
    | some name, some value => .ok (some (name, value))
    | _, _ => .ok none

/-- `setting_post`, and its result if it returns. -/
def settingPost (p : Page) (s : Store) (buffer : StackBuffer) (calls : List Received) (err : EspErr) :
    Except Fault (ℤ × Page × Store × Serving) := do
  match ← posted buffer calls with
  | some (name, value) => (p.settingPostSet s name value err).map fun set => (0, set)
  | none => .ok (-1, p, s, .running)

end Page

/-- A handler's function, called with the parameters of the URI. -/
def Installed.call (h : Installed) (w : WebServer) (r : HttpRequest) (params : List (CString × CString)) :
    Except Fault (ℤ × WebServer) :=
  match h with
  | .settings => (w.page.settings w.store).map fun set => (0, { w with page := set.1, store := set.2 })
  | .settingGet => (w.page.settingGet params).map fun got => (got.1, { w with page := got.2 })
  | .settingPost =>
    (w.page.settingPost w.store r.buffer r.calls r.err).map fun set =>
      (set.1, ⟨set.2.1, set.2.2.1, set.2.2.2⟩)

/-! ### From the start

Where nothing was written before these are the handlers of `Web/Settings` and `Web/Form`. -/

theorem settings_init (s : Store) : settings s = (({} : Page).settings s).map Prod.fst := by
  unfold Page.settings
  dsimp only
  rw [map_map_except]
  unfold settings
  dsimp only
  cases Except.bind _ _ <;> rfl

theorem settingPostSet_init (s : Store) {name : CString} (value : CString) {err : EspErr}
    (h : ¬ (restartsStation name = true ∧ err = .ok)) :
    ({} : Page).settingPostSet s name value err
      = (settingPostSet s name value err).map fun set => (set.1, set.2, .running) := by
  unfold Page.settingPostSet settingPostSet
  simp only [if_neg h, bind, Except.bind]
  cases Page.writeAll? {} (htmlBoilerplate "Setting %s".toList [name]) with
  | error fault => rfl
  | ok page =>
    dsimp only
    cases page.writeAll _ <;> rfl

/-- Where it does not restart the station. -/
theorem settingPost_init (s : Store) (buffer : StackBuffer) (calls : List Received) (err : EspErr)
    (h : ∀ name value, Page.posted buffer calls = .ok (some (name, value)) →
      ¬ (restartsStation name = true ∧ err = .ok)) :
    ({} : Page).settingPost s buffer calls err
      = (settingPost s buffer calls err).map fun answered =>
        (answered.result, answered.page.getD {}, answered.store, .running) := by
  unfold settingPost Page.settingPost
  unfold Page.posted at h ⊢
  cases hbuffer : buffer.string (httpdReqRecv calls) with
  | error fault => rfl
  | ok text =>
    rw [hbuffer] at h
    simp only [bind, Except.bind] at h ⊢
    split_ifs at h ⊢
    · rfl
    cases hname : gmParam (gmParamParse text).2 "name".toList with
    | none => rfl
    | some name =>
      cases hvalue : gmParam (gmParamParse text).2 "value".toList with
      | none => rfl
      | some value =>
        rw [hname, hvalue] at h
        dsimp only
        rw [settingPostSet_init s value (h name value rfl)]
        cases settingPostSet s name value err <;> rfl

/-! ## The requests -/

/-- What `gm_uri_parse` leaves of a request's URI, which it cuts. -/
def cutUri (uri : CString) : CString := uri.takeWhile (· ≠ '?')

/-- The path of a URI, as the HTTP server finds it. -/
def uriPath (uri : CString) : CString := uri.takeWhile fun c => c ≠ '?' ∧ c ≠ '#'

namespace WebServer

/-- `gm_web_handler_run`, with what the constructors registered in some order. -/
def run (order : List (GmWebMethod × Installed)) (w : WebServer) (r : HttpRequest)
    (params : List (CString × CString)) (method : GmWebMethod) : Except Fault (ℤ × WebServer) :=
  match (gmWebHandlerRun Installed.record (registerAll order) (order.length + 1) (cutUri r.uri)
    method).join with
  | some h => h.call w r params
  | none => .ok (1, w)

/-- The page that was written, as far as it was. -/
def response (w : WebServer) : HttpResponse :=
  if w.serving = .running then .page w.page.sent w.page.finished else .cut w.page.sent

/-- What comes of a `POST` or a `PUT` whose handler was run: `ESP_FAIL`, or `ESP_OK`. -/
def answered (ran : ℤ × WebServer) : WebServer × HttpResponse :=
  (ran.2, if ran.1 ≠ 0 then .failed else ran.2.response)

/-- `http_file_handler`. -/
def httpFileHandler (order : List (GmWebMethod × Installed)) (w : WebServer) (r : HttpRequest) :
    Except Fault (WebServer × HttpResponse) := do
  let uri ← gmUriParse r.uri
  if uri.result ≠ 0 then .ok (w, .failed)
  else
    let ran ← w.run order r uri.params .get
    if ran.1 = 0 then .ok (ran.2, ran.2.response)
    else
      let served := frogfsFileHandler r.world (stringIn (trim (uri.path ++ ['\x00'])).1)
      .ok (ran.2, if served.1 = espOk then .file served.2 else .notFound)

/-- `run_post_handlers`. -/
def runPostHandlers (order : List (GmWebMethod × Installed)) (w : WebServer) (r : HttpRequest) :
    Except Fault (WebServer × HttpResponse) := do
  let uri ← gmUriParse r.uri
  if uri.result = 0 then
    (w.run order r uri.params .post).map answered
  else .ok (w, .failed)

/-- `run_put_handlers`.  The URI is parsed twice, the second time as the first left it; its parameters are
those of the first time. -/
def runPutHandlers (order : List (GmWebMethod × Installed)) (w : WebServer) (r : HttpRequest) :
    Except Fault (WebServer × HttpResponse) := do
  let first ← gmUriParse r.uri
  let uri ← gmUriParse (cutUri r.uri)
  if uri.result = 0 then
    (w.run order r first.params .put).map answered
  else .ok (w, .failed)

/-- The HTTP server calls the handler that it has for a request. -/
def handle (order : List (GmWebMethod × Installed)) (w : WebServer) (r : HttpRequest) :
    Except Fault (WebServer × HttpResponse) :=
  match r.method with
  | .get => if uriPath r.uri = ['/'] then .ok (w, .moved) else w.httpFileHandler order r
  | .post => w.runPostHandlers order r
  | .put => w.runPutHandlers order r

/-- A request.  What is sent, and printed on `stderr`, is kept by request; the rest of the static memory
is as the request before left it. -/
def respond (order : List (GmWebMethod × Installed)) (w : WebServer) (r : HttpRequest) :
    Except Fault (WebServer × HttpResponse) :=
  if w.serving = .running then
    handle order { w with page := { w.page with sent := [], finished := false, stderr := [] } } r
  else .ok (w, .unanswered)

end WebServer

/-! ## What there is of a server in its answers -/

/-- The parameters that a handler sets. -/
def Installed.ops (r : HttpRequest) : Installed → List Op
  | .settingPost =>
    match Page.posted r.buffer r.calls with
    | .ok (some (name, value)) => [.set name value r.err]
    | _ => []
  | _ => []

/-- The parameters that a request sets, where a server runs. -/
def HttpRequest.ops (r : HttpRequest) : List Op :=
  match r.method with
  | .post =>
    match gmUriParse r.uri with
    | .ok uri =>
      if uri.result = 0 ∧ handlerPath (cutUri r.uri) = "setting".toList then Installed.settingPost.ops r
      else []
    | .error _ => []
  | _ => []

/-- The values of the parameters after some calls. -/
def valuesAfter (values : CString → Option CString) (ops : List Op) (name : CString) : Option CString :=
  if (parameter? name).isSome then lastValue (values name) name ops else values name

/-- **The server that it is meant to be** keeps the values of the parameters, and whether it runs. -/
structure Meant where
  values : CString → Option CString
  serving : Serving := .running

/-- The server with nothing else. -/
def WebServer.fresh (m : Meant) : WebServer := ⟨{}, { nvs := m.values }, m.serving⟩

/-- The parameters that a request sets. -/
def Meant.ops (m : Meant) (r : HttpRequest) : List Op := if m.serving = .running then r.ops else []

/-- **It answers a request as a server just started.** -/
def answerAlone (m : Meant) (r : HttpRequest) : Except Fault (Meant × HttpResponse) :=
  ((WebServer.fresh m).respond Installed.installs r).map fun answered =>
    (⟨valuesAfter m.values (m.ops r), answered.1.serving⟩, answered.2)

/-- A page that was begun was ended. -/
def HttpResponse.Whole : HttpResponse → Prop
  | .page _ finished => finished = true
  | .cut _ => False
  | _ => True

/-! ## Fragments that leave the tags as they were -/

/-- **Calls that are balanced**: whatever they come to, the tags are those from before, once the current
one is finished. -/
def Balanced (ms : List Markup) : Prop :=
  ∀ tags, Steady tags → Steady (ms.foldl Markup.tags tags) ∧
    finishTags (ms.foldl Markup.tags tags) = finishTags tags

/-- Calls that are attributes. -/
def Attributed (ms : List Markup) : Prop := ∀ tags, ms.foldl Markup.tags tags = tags

theorem balanced_of_closed {ms : List Markup}
    (h : ∀ tags, Steady tags → ms.foldl Markup.tags tags = finishTags tags) : Balanced ms := by
  intro tags hsteady
  rw [h tags hsteady]
  exact ⟨steady_of_closed hsteady.closed, finishTags_of_closed hsteady.closed⟩

theorem balanced_nil : Balanced [] := fun _ hsteady => ⟨hsteady, rfl⟩

theorem Balanced.append {ms more : List Markup} (h : Balanced ms) (hmore : Balanced more) :
    Balanced (ms ++ more) := by
  intro tags hsteady
  obtain ⟨hsteady, hsame⟩ := h tags hsteady
  obtain ⟨hsteady, hsame'⟩ := hmore _ hsteady
  rw [List.foldl_append]
  exact ⟨hsteady, hsame'.trans hsame⟩

theorem balanced_flatMap {α : Type} {f : α → List Markup} {l : List α} (h : ∀ a ∈ l, Balanced (f a)) :
    Balanced (l.flatMap f) := by
  induction l with
  | nil => exact balanced_nil
  | cons a l ih =>
    rw [List.flatMap_cons]
    obtain ⟨ha, hl⟩ := List.forall_mem_cons.mp h
    exact ha.append (ih hl)

theorem balanced_text (pattern : CString) (args : List CString) : Balanced [.text pattern args] :=
  balanced_of_closed fun _ _ => rfl

theorem balanced_void (name : CString) {attrs : List Markup} (hattrs : Attributed attrs) :
    Balanced (void name attrs) := by
  intro tags hsteady
  rw [void, List.foldl_cons, hattrs]
  exact ⟨hsteady.closed, rfl⟩

theorem balanced_element (name : CString) {attrs body : List Markup} (hattrs : Attributed attrs)
    (hbody : Balanced body) : Balanced (element name attrs body) := by
  refine balanced_of_closed fun tags hsteady => ?_
  obtain ⟨-, hsame⟩ := hbody (⟨name, true, true⟩ :: finishTags tags) hsteady.closed
  rw [element, List.foldl_cons, List.foldl_append, List.foldl_append, hattrs]
  exact congrArg endTags hsame

/-! ## Pages that are ended -/

namespace Page

theorem current_writeAll {ms : List Markup} {p q : Page} (h : p.writeAll ms = .ok q) :
    q.current = ms.foldl Markup.tags p.current := by
  rw [writeAll_eq] at h
  obtain ⟨q', -, rfl⟩ := map_ok h
  rfl

/-- The end of the outermost tag. -/
theorem idle_htmlEnd {p q : Page} {tag : Tag} (htags : finishTags p.current = [tag])
    (hnesting : tag.nesting = true) (h : p.htmlEnd = .ok q) : q.Idle ∧ q.finished = true := by
  obtain ⟨p', hfinish, h⟩ := bind_ok h
  rw [finishCurrentTag_eq] at hfinish
  obtain ⟨p', -, rfl⟩ := map_ok hfinish
  have hcurrent : (p'.withTags (finishTags p.current)).current = [tag] := htags
  simp only [hcurrent, if_pos hnesting] at h
  obtain ⟨r, -, h⟩ := bind_ok h
  obtain rfl := Except.ok.inj h
  exact ⟨⟨rfl, rfl⟩, rfl⟩

/-- **A document is ended**, whatever stands in it. -/
theorem Idle.document {p q : Page} (hp : p.Idle) (doctype name : CString) {body : List Markup}
    (hbody : Balanced body) (h : p.writeAll (.text doctype [] :: element name [] body) = .ok q) :
    q.Idle ∧ q.finished = true := by
  have hcalls : Markup.text doctype [] :: element name [] body
      = (.text doctype [] :: .tag name true :: body) ++ [.close] := rfl
  rw [hcalls, writeAll_append] at h
  obtain ⟨r, hr, h⟩ := bind_ok h
  obtain ⟨q', hend, h⟩ := bind_ok h
  obtain rfl := Except.ok.inj h
  obtain ⟨-, hsame⟩ := hbody [⟨name, true, true⟩] (List.forall_mem_nil _)
  have htags : finishTags r.current = [⟨name, false, true⟩] := by
    rw [current_writeAll hr, hp.current]
    exact hsame
  exact idle_htmlEnd htags rfl hend

/-- **So is a page** with the boilerplate. -/
theorem Idle.page {p q : Page} (hp : p.Idle) {titl : CString} {ms : List Markup} (hms : Balanced ms)
    (h : p.writeAll (boilerplateCalls titl ++ ms ++ htmlEndBoilerplate) = .ok q) :
    q.Idle ∧ q.finished = true := by
  have hlink : Attributed [.attr "rel".toList "stylesheet".toList [],
      .attr "href".toList "/style.css".toList []] := fun _ => rfl
  have hnone : Attributed [] := fun _ => rfl
  have htitle := balanced_element "title".toList hnone (balanced_text titl [])
  have hhead := balanced_element "head".toList hnone ((balanced_void "link".toList hlink).append htitle)
  have hh1 := balanced_element "h1".toList hnone (balanced_text titl [])
  have hbody := balanced_element "body".toList hnone (hh1.append hms)
  refine hp.document "<!DOCTYPE HTML>\n".toList "html".toList (hhead.append hbody) ?_
  rw [← h]
  simp only [boilerplateCalls, htmlEndBoilerplate, element, void, List.cons_append, List.nil_append,
    List.append_assoc]

end Page

/-! ## The pages' contents -/

theorem attributed_nil : Attributed [] := fun _ => rfl

theorem balanced_settingRow {row : Store.Row} {ms : List Markup} (h : settingRow row = some ms) :
    Balanced ms := by
  rw [settingRow_eq] at h
  obtain rfl := Option.some.inj h
  have honclick : ∀ link, Attributed
      [.attr "onclick".toList "window.location.href='%s';".toList [link]] := fun _ _ => rfl
  have hcell : ∀ name text, Balanced (element name [] [.text text []]) := fun name text =>
    balanced_element name attributed_nil (balanced_text text [])
  have hbutton := balanced_element "button".toList
    (honclick ((settingLink row.name (linkedValue row)).take 127)) (balanced_text "Set".toList [])
  have hfirst := balanced_element "td".toList attributed_nil hbutton
  have hname := hcell "th".toList row.name
  have hshown := hcell "td".toList (shownValue row)
  have hexplanation := hcell "td".toList row.explanation
  exact balanced_element "tr".toList attributed_nil
    (((hfirst.append hname).append hshown).append hexplanation)

/-- The table of the settings page. -/
def settingsContents (values : CString → Option CString) : List Markup :=
  element "table".toList []
    ((gmNonvolatile.filterMap fun p => row? p (values p.name)).flatMap fun row =>
      (settingRow row).getD [])

theorem balanced_settingsContents (values : CString → Option CString) :
    Balanced (settingsContents values) := by
  refine balanced_element "table".toList attributed_nil (balanced_flatMap fun row _ => ?_)
  have hrow := settingRow_eq row
  rw [hrow]
  exact balanced_settingRow hrow

/-- What stands under the heading of `setting_get`'s page. -/
def formContents (name value : CString) : List Markup :=
  element "form".toList
    [.attr "method".toList "post".toList [], .attr "action".toList "/setting".toList []]
    (void "input".toList [.attr "type".toList "hidden".toList [],
        .attr "name".toList "name".toList [], .attr "value".toList name []] ++
      element "label".toList [.attr "for".toList name []] [.text name []] ++
      void "input".toList [.attr "type".toList "text".toList [],
        .attr "name".toList "value".toList [], .attr "value".toList value []] ++
      void "input".toList [.attr "type".toList "submit".toList []])

theorem balanced_formContents (name value : CString) : Balanced (formContents name value) := by
  have hhidden : Balanced (void "input".toList [.attr "type".toList "hidden".toList [],
      .attr "name".toList "name".toList [], .attr "value".toList name []]) :=
    balanced_void _ fun _ => rfl
  have hlabel : Balanced (element "label".toList [.attr "for".toList name []] [.text name []]) :=
    balanced_element _ (fun _ => rfl) (balanced_text name [])
  have htext : Balanced (void "input".toList [.attr "type".toList "text".toList [],
      .attr "name".toList "value".toList [], .attr "value".toList value []]) :=
    balanced_void _ fun _ => rfl
  have hsubmit : Balanced (void "input".toList [.attr "type".toList "submit".toList []]) :=
    balanced_void _ fun _ => rfl
  exact balanced_element "form".toList (fun _ => rfl) (((hhidden.append hlabel).append htext).append hsubmit)

/-- What stands under the heading of `setting_post`'s page. -/
def setContents (name value : CString) (result : NonvolatileResult) : List Markup :=
  settingResult name value result :: settingLinks

theorem balanced_setContents (name value : CString) (result : NonvolatileResult) :
    Balanced (setContents name value result) := by
  have hresult : Balanced [settingResult name value result] := by
    cases result with
    | _ => exact balanced_text _ _
  have hlink : ∀ href text, Balanced (element "li".toList []
      (element "a".toList [.attr "href".toList href []] [.text text []])) := fun href text =>
    balanced_element "li".toList attributed_nil
      (balanced_element "a".toList (fun _ => rfl) (balanced_text text []))
  have hlinks := (hlink "/".toList "Front page.".toList).append (hlink "/settings".toList "Settings.".toList)
  exact hresult.append (balanced_element "ul".toList attributed_nil hlinks)

/-! ## The handlers, by their pages -/

namespace Page

theorem writeAll?_some (p : Page) (ms : List Markup) : p.writeAll? (some ms) = p.writeAll ms := rfl

/-- The rows are written one after the other, unless something went wrong before. -/
theorem foldl_writeRow (x : Except Fault Page) : ∀ rows : List Store.Row,
    rows.foldl (fun page row => (writeRow row page).1) x
      = x.bind (·.writeAll (rows.flatMap fun row => (settingRow row).getD [])) := by
  intro rows
  induction rows generalizing x with
  | nil => cases x <;> rfl
  | cons row rows ih =>
    rw [List.foldl_cons, ih, List.flatMap_cons]
    cases x with
    | error fault => rfl
    | ok p =>
      simp only [writeRow, settingRow_eq, Option.getD_some, Except.bind, writeAll_append,
        writeAll?_some]

/-- **The settings page**, for the values of the parameters, which it leaves as they are. -/
theorem settings_eq (p : Page) (s : Store) : ∃ t : Store, t.nvs = s.nvs ∧
    p.settings s = (p.writeAll (boilerplateCalls "Settings".toList ++ settingsContents s.nvs ++
      htmlEndBoilerplate)).map fun page => (page, t) := by
  let start := do
    let page ← p.writeAll? (htmlBoilerplate "Settings".toList [])
    page.write (.tag "table".toList true)
  obtain ⟨hlisted, hnvs, -⟩ := Store.gmNonvolatileList_spec writeRow gmNonvolatile start s
  refine ⟨_, hnvs, ?_⟩
  have hstart : start = p.writeAll (boilerplateCalls "Settings".toList ++ [.tag "table".toList true]) := by
    rw [writeAll_append]
    exact bind_congr fun page => (bind_pure _).symm
  unfold settings
  dsimp only
  refine congrArg (Except.map _) ?_
  rw [hlisted, foldl_writeRow, hstart, ← writeAll_append, ← writeAll_append]
  simp only [settingsContents, element, List.append_assoc, List.nil_append, List.cons_append]

theorem settingGet_calls {params : List (CString × CString)} {name value : CString}
    (hname : gmParam params "name".toList = some name)
    (hvalue : gmParam params "value".toList = some value) :
    Web.settingGet params = some (boilerplateCalls (settingTitle name) ++ formContents name value ++
      htmlEndBoilerplate) :=
  Web.settingGet_eq hname hvalue

/-- The page that `setting_post` begins, where it restarts the station. -/
theorem settingPostSet_of_restarts (p : Page) (s : Store) {name : CString} (value : CString) {err : EspErr}
    (h : restartsStation name = true ∧ err = .ok) :
    p.settingPostSet s name value err
      = (p.writeAll (boilerplateCalls (settingTitle name))).map
        fun page => (page, unreturned s name (some value), .hung false) := by
  unfold settingPostSet
  rw [htmlBoilerplate_setting]
  simp only [if_pos h]
  rfl

/-- The page that it writes otherwise. -/
theorem settingPostSet_eq (p : Page) (s : Store) {name : CString} (value : CString) {err : EspErr}
    (h : ¬ (restartsStation name = true ∧ err = .ok)) :
    p.settingPostSet s name value err
      = (p.writeAll (boilerplateCalls (settingTitle name) ++
          setContents name value (s.gmNonvolatileSet name value err).1 ++ htmlEndBoilerplate)).map
        fun page => (page, (s.gmNonvolatileSet name value err).2, .running) := by
  have hset := writeAll_append p (boilerplateCalls (settingTitle name))
    (setContents name value (s.gmNonvolatileSet name value err).1 ++ htmlEndBoilerplate)
  rw [List.append_assoc, hset]
  unfold settingPostSet
  rw [htmlBoilerplate_setting]
  simp only [if_neg h]
  cases hbegun : p.writeAll (boilerplateCalls (settingTitle name)) with
  | error fault => simp only [writeAll?, hbegun, bind, Except.bind, Except.map]
  | ok q =>
    simp only [writeAll?, hbegun, bind, Except.bind]
    rfl

end Page

/-! ## What a handler does -/

theorem valuesAfter_nil (values : CString → Option CString) : valuesAfter values [] = values := by
  funext name
  exact ite_self _

theorem nvs_gmNonvolatileSet (s : Store) (name value : CString) (err : EspErr) :
    (s.gmNonvolatileSet name value err).2.nvs = valuesAfter s.nvs [.set name value err] :=
  funext fun key => run_nvs [.set name value err] s key

/-- What becomes of a set does not depend on the store. -/
theorem result_gmNonvolatileSet (s t : Store) (name value : CString) (err : EspErr) :
    (s.gmNonvolatileSet name value err).1 = (t.gmNonvolatileSet name value err).1 := by
  unfold Store.gmNonvolatileSet
  cases parameter? name with
  | none => rfl
  | some p =>
    dsimp only
    split_ifs <;> rfl

/-- A set that restarts the station sets, too. -/
theorem nvs_unreturned (s : Store) {name : CString} (value : CString) (h : restartsStation name = true) :
    (unreturned s name (some value)).nvs = valuesAfter s.nvs [.set name value .ok] := by
  have hset := nvs_gmNonvolatileSet s name value .ok
  obtain ⟨p, hp, -⟩ := Option.any_eq_true _ _ |>.mp h
  rw [← hset]
  unfold Store.gmNonvolatileSet
  simp only [hp, ne_eq, not_true_eq_false, if_false, Store.nvs_callAfterSet]
  rfl

/-- What a handler is going to do: nothing; to write a page under a title; or to begin one before the
server is stopped. -/
inductive Plan where
  | nothing
  | page (titl : CString) (ms : List Markup)
  | cut (titl : CString)

/-- What is going to become of a set. -/
def planSet (values : CString → Option CString) (name value : CString) (err : EspErr) : Plan :=
  if restartsStation name ∧ err = .ok then .cut (settingTitle name)
  else .page (settingTitle name)
    (setContents name value (({ nvs := values } : Store).gmNonvolatileSet name value err).1)

def Installed.plan (values : CString → Option CString) (r : HttpRequest)
    (params : List (CString × CString)) : Installed → Except Fault Plan
  | .settings => .ok (.page "Settings".toList (settingsContents values))
  | .settingGet =>
    match gmParam params "name".toList, gmParam params "value".toList with
    | some name, some value => .ok (.page (settingTitle name) (formContents name value))
    | _, _ => .ok .nothing
  | .settingPost => (Page.posted r.buffer r.calls).map fun found =>
    found.elim .nothing fun set => planSet values set.1 set.2 r.err

/-- What is written then, and the handler's result if it returns. -/
def concluded (p : Page) (t : Store) : Plan → Except Fault (ℤ × WebServer)
  | .nothing => .ok (-1, ⟨p, t, .running⟩)
  | .page titl ms =>
    (p.writeAll (boilerplateCalls titl ++ ms ++ htmlEndBoilerplate)).map fun page =>
      (0, ⟨page, t, .running⟩)
  | .cut titl => (p.writeAll (boilerplateCalls titl)).map fun page => (0, ⟨page, t, .hung false⟩)

section Handler

variable {p : Page} {s t : Store} {r : HttpRequest} {params : List (CString × CString)}

theorem balanced_plan {values : CString → Option CString} {h : Installed} {titl : CString}
    {ms : List Markup} (hplan : h.plan values r params = .ok (.page titl ms)) : Balanced ms := by
  cases h with
  | settings =>
    obtain ⟨-, rfl⟩ := Plan.page.inj (Except.ok.inj hplan)
    exact balanced_settingsContents values
  | settingGet =>
    simp only [Installed.plan] at hplan
    split at hplan
    · obtain ⟨-, rfl⟩ := Plan.page.inj (Except.ok.inj hplan)
      exact balanced_formContents _ _
    · cases hplan
  | settingPost =>
    obtain ⟨found, -, hfound⟩ := map_ok hplan
    cases found with
    | none => cases hfound
    | some set =>
      change planSet values set.1 set.2 r.err = _ at hfound
      unfold planSet at hfound
      split_ifs at hfound
      obtain ⟨-, rfl⟩ := Plan.page.inj hfound
      exact balanced_setContents _ _ _

/-- **A set ends as planned**, and sets the parameter. -/
theorem settingPostSet_planned (p : Page) (s : Store) (name value : CString) (err : EspErr) :
    ∃ t : Store, t.nvs = valuesAfter s.nvs [.set name value err] ∧
      (p.settingPostSet s name value err).map (fun set => ((0 : ℤ), WebServer.mk set.1 set.2.1 set.2.2))
        = concluded p t (planSet s.nvs name value err) := by
  unfold planSet
  split_ifs with hrestarts
  · refine ⟨unreturned s name (some value), ?_, ?_⟩
    · rw [hrestarts.2]
      exact nvs_unreturned s value hrestarts.1
    · rw [Page.settingPostSet_of_restarts p s value hrestarts, map_map_except]
      rfl
  · refine ⟨_, nvs_gmNonvolatileSet s name value err, ?_⟩
    rw [Page.settingPostSet_eq p s value hrestarts, map_map_except,
      result_gmNonvolatileSet s { nvs := s.nvs }]
    rfl

/-- **A handler does what is planned**, and sets its parameters. -/
theorem call_eq (h : Installed) (p : Page) (s : Store) (r : HttpRequest)
    (params : List (CString × CString)) : ∃ t : Store, t.nvs = valuesAfter s.nvs (h.ops r) ∧
      h.call ⟨p, s, .running⟩ r params = (h.plan s.nvs r params).bind (concluded p t) := by
  cases h with
  | settings =>
    obtain ⟨t, ht, hsettings⟩ := p.settings_eq s
    refine ⟨t, ht.trans (valuesAfter_nil s.nvs).symm, ?_⟩
    simp only [Installed.call, hsettings, map_map_except]
    rfl
  | settingGet =>
    refine ⟨s, (valuesAfter_nil s.nvs).symm, ?_⟩
    cases hname : gmParam params "name".toList with
    | none =>
      have hnone : Web.settingGet params = none := by rw [Web.settingGet, hname]; rfl
      simp only [Installed.call, Installed.plan, Page.settingGet, hname, hnone]
      rfl
    | some name =>
      cases hvalue : gmParam params "value".toList with
      | none =>
        have hnone : Web.settingGet params = none := by rw [Web.settingGet, hname, hvalue]; rfl
        simp only [Installed.call, Installed.plan, Page.settingGet, hname, hvalue, hnone]
        rfl
      | some value =>
        simp only [Installed.call, Installed.plan, Page.settingGet, hname, hvalue,
          Page.settingGet_calls hname hvalue, map_map_except]
        rfl
  | settingPost =>
    cases hposted : Page.posted r.buffer r.calls with
    | error fault =>
      refine ⟨s, ?_, ?_⟩
      · simp only [Installed.ops, hposted, valuesAfter_nil]
      · simp only [Installed.call, Page.settingPost, Installed.plan, hposted]
        rfl
    | ok found =>
      cases found with
      | none =>
        refine ⟨s, ?_, ?_⟩
        · simp only [Installed.ops, hposted, valuesAfter_nil]
        · simp only [Installed.call, Page.settingPost, Installed.plan, hposted]
          rfl
      | some set =>
        obtain ⟨name, value⟩ := set
        obtain ⟨t, ht, hset⟩ := settingPostSet_planned p s name value r.err
        refine ⟨t, ?_, ?_⟩
        · simp only [Installed.ops, hposted, ht]
        · simp only [Installed.call, Page.settingPost, Installed.plan, hposted, bind, Except.bind,
            map_map_except]
          exact hset

/-- **What a handler leaves**: the templates' memory as it found it, and its page ended if it wrote one; or
a server that hangs. -/
def Leaves (a : ℤ × WebServer) : Prop :=
  a.2.serving = .hung false ∨
    a.2.serving = .running ∧ a.2.page.Idle ∧ (a.1 = 0 → a.2.page.finished = true)

theorem concluded_ok {plan : Plan} {a : ℤ × WebServer} (hp : p.Idle)
    (hbalanced : ∀ titl ms, plan = .page titl ms → Balanced ms) (h : concluded p s plan = .ok a) :
    Leaves a ∧ a.2.store = s := by
  cases plan with
  | nothing =>
    obtain rfl := Except.ok.inj h
    exact ⟨.inr ⟨rfl, hp, fun hzero => absurd hzero (by simp)⟩, rfl⟩
  | page titl ms =>
    obtain ⟨q, hq, rfl⟩ := map_ok h
    obtain ⟨hidle, hfinished⟩ := hp.page (hbalanced titl ms rfl) hq
    exact ⟨.inr ⟨rfl, hidle, fun _ => hfinished⟩, rfl⟩
  | cut titl =>
    obtain ⟨q, -, rfl⟩ := map_ok h
    exact ⟨.inl rfl, rfl⟩

theorem call_ok {h : Installed} {a : ℤ × WebServer} (hp : p.Idle)
    (hcall : h.call ⟨p, s, .running⟩ r params = .ok a) :
    Leaves a ∧ a.2.store.nvs = valuesAfter s.nvs (h.ops r) := by
  obtain ⟨t, ht, heq⟩ := call_eq h p s r params
  rw [heq] at hcall
  obtain ⟨plan, hplan, hconcluded⟩ := bind_ok hcall
  obtain ⟨hleaves, hstore⟩ := concluded_ok hp (fun titl ms hpage => balanced_plan (hpage ▸ hplan)) hconcluded
  exact ⟨hleaves, hstore ▸ ht⟩

/-- The result and the page agree, the values of the parameters, and whether the server runs. -/
structure Alike (a b : ℤ × WebServer) : Prop where
  result : a.1 = b.1
  page : a.2.page = b.2.page
  nvs : a.2.store.nvs = b.2.store.nvs
  serving : a.2.serving = b.2.serving

/-- **A handler sees nothing of a store** but the values of the parameters. -/
theorem call_alike (h : Installed) (hnvs : s.nvs = t.nvs) :
    Agrees Alike (h.call ⟨p, s, .running⟩ r params) (h.call ⟨p, t, .running⟩ r params) := by
  obtain ⟨s', hs', hs⟩ := call_eq h p s r params
  obtain ⟨t', ht', ht⟩ := call_eq h p t r params
  have hsame : s'.nvs = t'.nvs := by rw [hs', ht', hnvs]
  rw [hs, ht, hnvs]
  refine (Agrees.of_eq (R := Eq) fun _ _ => rfl).bind fun plan plan' heq => ?_
  subst heq
  cases plan with
  | nothing => exact .ok ⟨rfl, rfl, hsame, rfl⟩
  | page | cut =>
    refine (Agrees.of_eq (R := Eq) fun _ _ => rfl).map fun page page' heq => ?_
    exact ⟨rfl, heq, hsame, rfl⟩

end Handler

/-! ## What a request does -/

open Installed (installs nodup_installs unambiguous_installs)

section Requests

variable {order : List (GmWebMethod × Installed)} {w w' : WebServer} {r : HttpRequest}
  {params : List (CString × CString)}

/-- The handler that is run for a path. -/
def handlerFor (uri : CString) (method : GmWebMethod) : Option Installed :=
  (gmWebHandlerRun Installed.record (registerAll installs) 4 (cutUri uri) method).join

/-- What a handler that is found does, if any is. -/
def callFound (w : WebServer) (r : HttpRequest) (params : List (CString × CString)) :
    Option Installed → Except Fault (ℤ × WebServer)
  | some h => h.call w r params
  | none => .ok (1, w)

/-- **The order of the constructors does not matter.** -/
theorem run_eq (horder : order ~ installs) (method : GmWebMethod) :
    w.run order r params method = callFound w r params (handlerFor r.uri method) := by
  have hlength : order.length + 1 = 4 := congrArg (· + 1) horder.length_eq
  have hrun : gmWebHandlerRun Installed.record (registerAll order) 4 (cutUri r.uri) method
      = gmWebHandlerRun Installed.record (registerAll installs) 4 (cutUri r.uri) method :=
    gmWebHandlerRun_perm nodup_installs (by decide) unambiguous_installs horder (cutUri r.uri) method
  unfold WebServer.run handlerFor
  rw [hlength, hrun]
  cases (gmWebHandlerRun Installed.record (registerAll installs) 4 (cutUri r.uri) method).join <;> rfl

/-- No handler but those of the method is found. -/
theorem mem_installs_of_handlerFor {uri : CString} {method : GmWebMethod} {h : Installed}
    (hfound : handlerFor uri method = some h) : (method, h) ∈ installs := by
  rw [handlerFor, gmWebHandlerRun_first nodup_installs (by decide)] at hfound
  obtain ⟨h', hfind, hrecord⟩ := Option.map_eq_some_iff.mp hfound
  have hself : ∀ i : Installed, (Installed.record i).handler = i := fun i => by cases i <;> rfl
  obtain rfl := (hself h').symm.trans hrecord
  exact TailQueues.mem_queue.mp (List.mem_of_find?_eq_some hfind)

/-- The handler of a `POST`. -/
theorem handlerFor_post (uri : CString) : handlerFor uri .post
    = if handlerPath (cutUri uri) = "setting".toList then some .settingPost else none := by
  unfold handlerFor
  split_ifs with hpath
  · have hmem : (.post, .settingPost) ∈ installs := by decide
    rw [gmWebHandlerRun_only nodup_installs (by decide) unambiguous_installs hmem hpath.symm]
    rfl
  · rw [gmWebHandlerRun_none nodup_installs (by decide)]
    · rfl
    · intro h hmem hname
      have hsetting : ∀ i, (.post, i) ∈ installs → (Installed.record i).name = "setting".toList := by
        intro i hi
        cases i with
        | settingPost => rfl
        | settings => exact absurd hi (by decide)
        | settingGet => exact absurd hi (by decide)
      exact hpath (hname.symm.trans (hsetting h hmem))

/-- The parameters that a handler sets that is found, if any is. -/
def opsFound (r : HttpRequest) (found : Option Installed) : List Op := (found.map (·.ops r)).getD []

/-- A `GET` and a `PUT` set none. -/
theorem opsFound_handlerFor {uri : CString} {method : GmWebMethod} (hmethod : method ≠ .post) :
    opsFound r (handlerFor uri method) = [] := by
  cases hfound : handlerFor uri method with
  | none => rfl
  | some h =>
    have hmem := mem_installs_of_handlerFor hfound
    cases h with
    | settingPost =>
      have hposts : ∀ e ∈ installs, e.2 = .settingPost → e.1 = .post := by decide
      exact absurd (hposts _ hmem rfl) hmethod
    | _ => rfl

variable {p : Page} {s t : Store}

theorem callFound_ok {found : Option Installed} {a : ℤ × WebServer} (hp : p.Idle)
    (h : callFound ⟨p, s, .running⟩ r params found = .ok a) :
    Leaves a ∧ a.2.store.nvs = valuesAfter s.nvs (opsFound r found) := by
  cases found with
  | some h' => exact call_ok hp h
  | none =>
    obtain rfl := Except.ok.inj h
    exact ⟨.inr ⟨rfl, hp, fun hzero => absurd hzero (by simp)⟩, (valuesAfter_nil s.nvs).symm⟩

theorem callFound_alike (found : Option Installed) (hnvs : s.nvs = t.nvs) :
    Agrees Alike (callFound ⟨p, s, .running⟩ r params found) (callFound ⟨p, t, .running⟩ r params found) := by
  cases found with
  | some h => exact call_alike h hnvs
  | none => exact .ok ⟨rfl, rfl, hnvs, rfl⟩

/-! ### The three methods -/

/-- **A request that was handled**: the parameters have the values that were set; and the templates' memory
is as it was found, and a page is ended, or the server hangs. -/
structure Handled (values : CString → Option CString) (ops : List Op) (a : WebServer × HttpResponse) :
    Prop where
  nvs : a.1.store.nvs = valuesAfter values ops
  ends : a.1.serving = .hung false ∨ a.1.serving = .running ∧ a.1.page.Idle ∧ a.2.Whole

/-- The response agrees, the page, the values of the parameters, and whether the server runs. -/
structure AnswersAlike (a b : WebServer × HttpResponse) : Prop where
  response : a.2 = b.2
  page : a.1.page = b.1.page
  nvs : a.1.store.nvs = b.1.store.nvs
  serving : a.1.serving = b.1.serving

theorem handled_same (hp : p.Idle) {response : HttpResponse} (hwhole : response.Whole) :
    Handled s.nvs [] (⟨p, s, .running⟩, response) :=
  ⟨(valuesAfter_nil s.nvs).symm, .inr ⟨rfl, hp, hwhole⟩⟩

/-- The page that a handler wrote. -/
theorem Leaves.response {a : ℤ × WebServer} (h : Leaves a) (hzero : a.1 = 0) :
    a.2.serving = .hung false ∨ a.2.serving = .running ∧ a.2.page.Idle ∧ a.2.response.Whole := by
  refine h.imp_right fun ⟨hserving, hidle, hfinished⟩ => ⟨hserving, hidle, ?_⟩
  rw [WebServer.response, if_pos hserving]
  exact hfinished hzero

theorem alike_response {a b : ℤ × WebServer} (h : Alike a b) : a.2.response = b.2.response := by
  unfold WebServer.response
  rw [h.serving, h.page]

theorem httpFileHandler_ok {a : WebServer × HttpResponse} (hp : p.Idle)
    (h : WebServer.httpFileHandler installs ⟨p, s, .running⟩ r = .ok a) : Handled s.nvs [] a := by
  obtain ⟨uri, -, h⟩ := bind_ok h
  split_ifs at h with hresult
  · obtain rfl := Except.ok.inj h
    exact handled_same hp trivial
  · obtain ⟨ran, hran, h⟩ := bind_ok h
    rw [run_eq (.refl _)] at hran
    obtain ⟨hleaves, hnvs⟩ := callFound_ok hp hran
    rw [opsFound_handlerFor (by decide)] at hnvs
    split_ifs at h with hzero
    · obtain rfl := Except.ok.inj h
      exact ⟨hnvs, hleaves.response hzero⟩
    · obtain rfl := Except.ok.inj h
      refine ⟨hnvs, hleaves.imp_right fun ⟨hserving, hidle, _⟩ => ⟨hserving, hidle, ?_⟩⟩
      dsimp only
      split_ifs <;> trivial

theorem handled_answered {found : Option Installed} {a : WebServer × HttpResponse} (hp : p.Idle)
    (h : (callFound ⟨p, s, .running⟩ r params found).map WebServer.answered = .ok a) :
    Handled s.nvs (opsFound r found) a := by
  obtain ⟨ran, hran, rfl⟩ := map_ok h
  obtain ⟨hleaves, hnvs⟩ := callFound_ok hp hran
  refine ⟨hnvs, ?_⟩
  unfold WebServer.answered
  split_ifs with hzero
  · exact hleaves.imp_right fun ⟨hserving, hidle, _⟩ => ⟨hserving, hidle, trivial⟩
  · exact hleaves.response (not_not.mp hzero)

/-- A `POST` sets the parameters of the handler that it runs. -/
theorem ops_post {uri : GmUri} (hmethod : r.method = .post) (huri : gmUriParse r.uri = .ok uri) :
    r.ops = if uri.result = 0 then opsFound r (handlerFor r.uri .post) else [] := by
  rw [handlerFor_post, HttpRequest.ops, hmethod]
  simp only [huri, ite_and]
  split_ifs <;> rfl

theorem runPostHandlers_ok {a : WebServer × HttpResponse} (hp : p.Idle) (hmethod : r.method = .post)
    (h : WebServer.runPostHandlers installs ⟨p, s, .running⟩ r = .ok a) : Handled s.nvs r.ops a := by
  obtain ⟨uri, huri, h⟩ := bind_ok h
  rw [ops_post hmethod huri]
  split_ifs at h ⊢ with hresult
  · rw [run_eq (.refl _)] at h
    exact handled_answered hp h
  · obtain rfl := Except.ok.inj h
    exact handled_same hp trivial

theorem runPutHandlers_ok {a : WebServer × HttpResponse} (hp : p.Idle)
    (h : WebServer.runPutHandlers installs ⟨p, s, .running⟩ r = .ok a) : Handled s.nvs [] a := by
  obtain ⟨first, -, h⟩ := bind_ok h
  obtain ⟨uri, -, h⟩ := bind_ok h
  split_ifs at h with hresult
  · rw [run_eq (.refl _)] at h
    rw [← opsFound_handlerFor (r := r) (show GmWebMethod.put ≠ .post by decide)]
    exact handled_answered hp h
  · obtain rfl := Except.ok.inj h
    exact handled_same hp trivial

/-- **A request leaves the server as it should.** -/
theorem handle_ok {a : WebServer × HttpResponse} (hp : p.Idle)
    (h : WebServer.handle installs ⟨p, s, .running⟩ r = .ok a) : Handled s.nvs r.ops a := by
  unfold WebServer.handle at h
  cases hmethod : r.method with
  | get =>
    have hops : r.ops = [] := by rw [HttpRequest.ops, hmethod]
    rw [hmethod] at h
    rw [hops]
    dsimp only at h
    split_ifs at h
    · obtain rfl := Except.ok.inj h
      exact handled_same hp trivial
    · exact httpFileHandler_ok hp h
  | post =>
    rw [hmethod] at h
    exact runPostHandlers_ok hp hmethod h
  | put =>
    have hops : r.ops = [] := by rw [HttpRequest.ops, hmethod]
    rw [hmethod] at h
    rw [hops]
    exact runPutHandlers_ok hp h

theorem httpFileHandler_alike (hnvs : s.nvs = t.nvs) :
    Agrees AnswersAlike (WebServer.httpFileHandler installs ⟨p, s, .running⟩ r)
      (WebServer.httpFileHandler installs ⟨p, t, .running⟩ r) := by
  refine (Agrees.of_eq (R := Eq) fun _ _ => rfl).bind fun uri uri' huri => ?_
  subst huri
  split_ifs
  · exact .ok ⟨rfl, rfl, hnvs, rfl⟩
  · rw [run_eq (.refl _), run_eq (.refl _)]
    refine (callFound_alike _ hnvs).bind fun a b hab => ?_
    rw [hab.result]
    split_ifs
    · exact .ok ⟨alike_response hab, hab.page, hab.nvs, hab.serving⟩
    · exact .ok ⟨rfl, hab.page, hab.nvs, hab.serving⟩

theorem answered_alike (found : Option Installed) (hnvs : s.nvs = t.nvs) :
    Agrees AnswersAlike ((callFound ⟨p, s, .running⟩ r params found).map WebServer.answered)
      ((callFound ⟨p, t, .running⟩ r params found).map WebServer.answered) := by
  refine (callFound_alike found hnvs).map fun a b hab => ⟨?_, hab.page, hab.nvs, hab.serving⟩
  unfold WebServer.answered
  rw [hab.result, alike_response hab]

/-- **A request sees nothing of the store** but the values of the parameters. -/
theorem handle_alike (hnvs : s.nvs = t.nvs) :
    Agrees AnswersAlike (WebServer.handle installs ⟨p, s, .running⟩ r)
      (WebServer.handle installs ⟨p, t, .running⟩ r) := by
  unfold WebServer.handle
  cases r.method with
  | get =>
    dsimp only
    split_ifs
    · exact .ok ⟨rfl, rfl, hnvs, rfl⟩
    · exact httpFileHandler_alike hnvs
  | post =>
    refine (Agrees.of_eq (R := Eq) fun _ _ => rfl).bind fun uri uri' huri => ?_
    subst huri
    split_ifs
    · rw [run_eq (.refl _), run_eq (.refl _)]
      exact answered_alike _ hnvs
    · exact .ok ⟨rfl, rfl, hnvs, rfl⟩
  | put =>
    refine (Agrees.of_eq (R := Eq) fun _ _ => rfl).bind fun first first' hfirst => ?_
    subst hfirst
    refine (Agrees.of_eq (R := Eq) fun _ _ => rfl).bind fun uri uri' huri => ?_
    subst huri
    split_ifs
    · rw [run_eq (.refl _), run_eq (.refl _)]
      exact answered_alike _ hnvs
    · exact .ok ⟨rfl, rfl, hnvs, rfl⟩

/-! ## Runs -/

theorem handle_order (horder : order ~ installs) (w : WebServer) (r : HttpRequest) :
    w.handle order r = w.handle installs r := by
  have hrun : ∀ params method, w.run order r params method = w.run installs r params method :=
    fun params method => (run_eq horder method).trans (run_eq (.refl _) method).symm
  unfold WebServer.handle WebServer.httpFileHandler WebServer.runPostHandlers WebServer.runPutHandlers
  simp only [hrun]

/-- A request begins with the templates' memory as it was at the start. -/
theorem respond_of_idle (horder : order ~ installs) (hserving : w.serving = .running)
    (hidle : w.page.Idle) (r : HttpRequest) :
    w.respond order r = WebServer.handle installs ⟨{}, w.store, .running⟩ r := by
  have hpage : { w.page with sent := [], finished := false, stderr := [] } = ({} : Page) := by
    dsimp only
    rw [hidle.buffer, hidle.current]
  unfold WebServer.respond
  rw [if_pos hserving, hpage, handle_order horder, hserving]

/-- Without a server there is no answer. -/
theorem respond_of_ne (hserving : w.serving ≠ .running) (r : HttpRequest) :
    w.respond order r = .ok (w, .unanswered) := if_neg hserving

/-- **A server is what it is meant to be**: the parameters have the values, and as long as it runs the
templates' memory is as it was at the start. -/
structure Means (w : WebServer) (m : Meant) : Prop where
  nvs : w.store.nvs = m.values
  serving : w.serving = m.serving
  idle : w.serving = .running → w.page.Idle

/-- **One answer**: the server's is that of one just started. -/
theorem respond_agrees (horder : order ~ installs) {m : Meant} (hw : Means w m) (r : HttpRequest) :
    Agrees (fun a b => Means a.1 b.1 ∧ a.2 = b.2) (w.respond order r) (answerAlone m r) := by
  obtain ⟨page, store, serving⟩ := w
  obtain ⟨values, _⟩ := m
  obtain ⟨rfl, rfl, hidle⟩ := hw
  dsimp only at hidle ⊢
  unfold answerAlone Meant.ops WebServer.fresh
  dsimp only
  by_cases hserving : serving = .running
  · subst hserving
    rw [respond_of_idle horder rfl (hidle rfl), respond_of_idle (.refl _) rfl Page.idle_init, if_pos rfl]
    have halike := handle_alike (p := {}) (s := store) (t := { nvs := store.nvs }) (r := r) rfl
    have hhandled := halike.and_left fun a ha => handle_ok Page.idle_init ha
    refine hhandled.map_right fun a b hab => ⟨⟨hab.1.nvs, hab.2.serving, fun hrunning => ?_⟩, hab.2.response⟩
    obtain hhung | ⟨-, hidle, -⟩ := hab.1.ends
    · cases hhung.symm.trans hrunning
    · exact hidle
  · rw [respond_of_ne hserving, respond_of_ne hserving, if_neg hserving]
    exact .ok ⟨⟨(valuesAfter_nil _).symm, rfl, hidle⟩, rfl⟩

/-- **A server that runs was not stopped before**, and has ended its pages. -/
theorem whole_of_serve (horder : order ~ installs) : ∀ (rs : List HttpRequest) {w : WebServer}
    {a : WebServer × List HttpResponse}, (w.serving = .running → w.page.Idle) →
    serve (WebServer.respond order) w rs = .ok a → a.1.serving = .running →
    w.serving = .running ∧ ∀ response ∈ a.2, response.Whole := by
  intro rs
  induction rs with
  | nil =>
    intro w a _ h hrunning
    obtain rfl := Except.ok.inj h
    exact ⟨hrunning, List.forall_mem_nil _⟩
  | cons r rs ih =>
    intro w a hidle h hrunning
    obtain ⟨b, hb, h⟩ := bind_ok h
    obtain ⟨c, hc, h⟩ := bind_ok h
    obtain rfl := Except.ok.inj h
    by_cases hserving : w.serving = .running
    · rw [respond_of_idle horder hserving (hidle hserving)] at hb
      obtain hhung | ⟨hserving', hidle', hwhole⟩ := (handle_ok Page.idle_init hb).ends
      · have hnever := ih (fun hrunning => by cases hhung.symm.trans hrunning) hc hrunning
        cases hhung.symm.trans hnever.1
      · exact ⟨hserving, List.forall_mem_cons.mpr ⟨hwhole, (ih (fun _ => hidle') hc hrunning).2⟩⟩
    · rw [respond_of_ne hserving] at hb
      obtain rfl := Except.ok.inj hb
      exact absurd (ih hidle hc hrunning).1 hserving

end Requests

/-- A callsign is set, the form for it is asked for, and then the network is set, after which there is no
answer. -/
def setAndShow : List HttpRequest :=
  let request (method : GmWebMethod) (uri body : CString) : HttpRequest :=
    ⟨method, uri, forgetful .directory, zeroBuffer, [.bytes body], .ok⟩
  [request .post "/setting".toList "name=callsign&value=N0CALL".toList,
    request .get "/setting?name=callsign&value=N0CALL".toList [],
    request .post "/setting".toList "name=ssid&value=home".toList, request .get "/settings".toList []]

end Web
