import HtFirmware.Web.SettingsPage

/-!
# Web/Console — the parameters, in the browser and on the console

The handlers of the web server and the `nv` command work on one store, in whatever order.  A value is read
into 1024 bytes for the settings page, which writes it as a pattern, and into 128 for the command.  So the
two tell the same of a parameter exactly when its value is shorter than 128 bytes, and secret or without a
`%` (`console_agrees_iff`).

A command that restarts the station stops the web server, which is started again when there is an address;
but after a handler that did so the server hangs, and such a command with it.
-/

open Machinery Nvs
open scoped List

namespace Web

open Installed (installs)

/-- What the device is asked, by one way or the other; and that `start_webserver` is called, and whether
there is a server then. -/
inductive Asked where
  | request (r : HttpRequest)
  | command (argc : ℕ) (args : NonvolatileArgs) (err : EspErr)
  | started (ok : Bool)

/-- What a command sets and erases. -/
def commandOps (argc : ℕ) (args : NonvolatileArgs) (err : EspErr) : List Op :=
  if 0 < args.erase then if args.name.length < 1 then [] else [.erase (args.name.headD [])]
  else if argc = 3 then [.set (args.name.headD []) (args.value.headD []) err] else []

/-- Whether `gm_wifi_restart` is called after it. -/
def restartsAfter (values : CString → Option CString) : Op → Bool
  | .set key _ err => restartsStation key && decide (err = .ok)
  | .erase key => restartsStation key && (values key).isSome
  | _ => false

/-- The store where that does not return. -/
def changed (s : Store) : Op → Store
  | .set key value _ => unreturned s key (some value)
  | .erase key => unreturned s key none
  | _ => s

namespace WebServer

/-- `nonvolatile`, run by the console's task. -/
def command (w : WebServer) (argc : ℕ) (args : NonvolatileArgs) (err : EspErr) : WebServer :=
  let restarts := (commandOps argc args err).any (restartsAfter w.store.nvs)
  let returned := (nonvolatile w.store argc args err).2
  match w.serving with
  | .running | .stopped =>
    { w with store := returned, serving := if restarts then .stopped else w.serving }
  | .hung false =>
    if restarts then { w with store := (commandOps argc args err).foldl changed w.store, serving := .hung true }
    else { w with store := returned }
  -- The console's task waits in a command before.
  | .hung true => w

/-- `start_webserver`. -/
def startWebserver (w : WebServer) (ok : Bool) : WebServer :=
  if w.serving = .stopped ∧ ok = true then { w with serving := .running } else w

/-- The device, once it was asked. -/
def asked (order : List (GmWebMethod × Installed)) (w : WebServer) : Asked → Except Fault WebServer
  | .request r => (w.respond order r).map Prod.fst
  | .command argc args err => .ok (w.command argc args err)
  | .started ok => .ok (w.startWebserver ok)

/-- What is set and erased. -/
def ops (w : WebServer) : Asked → List Op
  | .request r => if w.serving = .running then r.ops else []
  | .command argc args err => if w.serving = .hung true then [] else commandOps argc args err
  | .started _ => []

/-- What is set and erased in a run. -/
def opsIn (order : List (GmWebMethod × Installed)) (w : WebServer) : List Asked → List Op
  | [] => []
  | e :: es =>
    w.ops e ++ match w.asked order e with
      | .ok t => t.opsIn order es
      | .error _ => []

end WebServer

/-- The line of the `nv` command for one parameter. -/
def parameterLine (key value : CString) : CString :=
  "\n\n".toList ++ key ++ " \t".toList ++ value ++ ['\n']

/-- What the command tells of a value. -/
def commandValue (p : Parameter) : Option CString → CString
  | none => "(not set)".toList
  | some value =>
    if value.length < 128 then if p.secret then "(secret)".toList else value else "(not set)".toList

section Command

variable {s : Store} {key : CString} {p : Parameter}

theorem nvs_gmNonvolatileErase (s : Store) (key : CString) :
    (s.gmNonvolatileErase key).2.nvs = valuesAfter s.nvs [.erase key] :=
  funext fun name => run_nvs [.erase key] s name

/-- So does an erasing that restarts the station. -/
theorem nvs_unreturned_erase (s : Store) {name : CString} (h : restartsStation name = true)
    (hset : (s.nvs name).isSome = true) :
    (unreturned s name none).nvs = valuesAfter s.nvs [.erase name] := by
  have herase := nvs_gmNonvolatileErase s name
  obtain ⟨p, hp, -⟩ := Option.any_eq_true _ _ |>.mp h
  obtain ⟨value, hvalue⟩ := Option.isSome_iff_exists.mp hset
  rw [← herase]
  unfold Store.gmNonvolatileErase
  simp only [hp, hvalue, Store.nvs_callAfterSet]
  rfl

theorem nvs_gmNonvolatileGet (s : Store) (key : CString) (size : ℕ) :
    (s.gmNonvolatileGet key size).2.nvs = s.nvs :=
  funext fun name => (run_nvs [.get key size] s name).trans (ite_self _)

/-- A reading changes no value. -/
theorem nvs_nonvolatileGet (s : Store) (key : CString) : (nonvolatileGet s key).2.nvs = s.nvs := by
  unfold nonvolatileGet
  dsimp only
  split <;> exact nvs_gmNonvolatileGet s key 128

/-- **A command changes the values it sets and erases.** -/
theorem nvs_nonvolatile (s : Store) (argc : ℕ) (args : NonvolatileArgs) (err : EspErr) :
    (nonvolatile s argc args err).2.nvs = valuesAfter s.nvs (commandOps argc args err) := by
  unfold nonvolatile commandOps
  dsimp only
  split_ifs with herase hname hargc
  · exact (valuesAfter_nil _).symm
  · exact nvs_gmNonvolatileErase s _
  · subst hargc
    have hset := nvs_gmNonvolatileSet s (args.name.headD []) (args.value.headD []) err
    generalize s.gmNonvolatileSet (args.name.headD []) (args.value.headD []) err = r at hset ⊢
    obtain ⟨result, t⟩ := r
    cases result with
    | error | notInParameterTable => exact hset
    | normal | secret | notSet => exact (nvs_nonvolatileGet t _).trans hset
  · rw [valuesAfter_nil]
    split
    · exact (Store.gmNonvolatileList_spec printNonvolatile gmNonvolatile () s).2.1
    · exact nvs_nonvolatileGet s _
    · exact absurd rfl hargc
    · rfl

/-- What is printed last. -/
theorem getLast?_print (s : Store) (key value : CString) :
    (s.print ("\n\n".toList ++ key ++ " \t".toList ++ value ++ ['\n'])).console.getLast?
      = some (parameterLine key value) := List.getLast?_concat

/-- What reading a parameter comes to. -/
theorem answer_get_parameter (hkey : parameter? key = some p) (values : CString → Option CString) :
    answer values (.get key 128) = match values key with
      | none => .got .notSet (some [])
      | some value => if value.length < 128 then .got (if p.secret then .secret else .normal) (some value)
        else .got .notSet (some []) := by
  simp only [answer, hkey]
  cases values key <;> rfl

/-- **What the command tells of a parameter.** -/
theorem console_nonvolatile (hkey : parameter? key = some p) (err : EspErr) :
    (nonvolatile s 2 ⟨[key], [], 0⟩ err).2.console.getLast?
      = some (parameterLine key (commandValue p (s.nvs key))) := by
  have hgot : Answer.got (s.gmNonvolatileGet key 128).1.1 (s.gmNonvolatileGet key 128).1.2
      = answer s.nvs (.get key 128) := (performs_get s key 128).answer
  rw [answer_get_parameter hkey] at hgot
  change (nonvolatileGet s key).2.console.getLast? = _
  unfold nonvolatileGet
  generalize s.gmNonvolatileGet key 128 = got at hgot ⊢
  obtain ⟨⟨result, buffer⟩, t⟩ := got
  unfold commandValue
  cases hvalue : s.nvs key with
  | none =>
    rw [hvalue] at hgot
    obtain ⟨rfl, rfl⟩ := Answer.got.inj hgot
    exact getLast?_print t key _
  | some value =>
    rw [hvalue] at hgot
    dsimp only at hgot ⊢
    split_ifs at hgot ⊢
    all_goals
      obtain ⟨rfl, rfl⟩ := Answer.got.inj hgot
      exact getLast?_print t key _

theorem parameterLine_inj {value value' : CString} :
    parameterLine key value = parameterLine key value' ↔ value = value' := by
  unfold parameterLine
  rw [List.append_left_inj, List.append_right_inj]

/-- **The command tells what the page shows** of a value that its buffer holds, and that is secret or no
pattern. -/
theorem commandValue_eq_iff {value : Option CString} {row : Store.Row} (hrow : row? p value = some row)
    {cell : CString} (hcell : cellText row = some cell) :
    commandValue p value = cell ↔
      ∀ v, value = some v → v.length < 128 ∧ (p.secret = true ∨ '%' ∉ v) := by
  have hnotset : format "(not set)".toList [] = some "(not set)".toList := format_of_plain [] (by decide)
  have hhidden : format "(secret)".toList [] = some "(secret)".toList := format_of_plain [] (by decide)
  cases value with
  | none =>
    obtain rfl := Option.some.inj hrow
    obtain rfl := Option.some.inj (hnotset.symm.trans hcell)
    exact iff_of_true rfl fun v hv => by cases hv
  | some v =>
    have hall : (∀ w, some v = some w → w.length < 128 ∧ (p.secret = true ∨ '%' ∉ w)) ↔
        v.length < 128 ∧ (p.secret = true ∨ '%' ∉ v) :=
      ⟨fun h => h v rfl, fun h w hw => Option.some.inj hw ▸ h⟩
    rw [row?] at hrow
    rw [hall]
    unfold commandValue
    split_ifs at hrow with hfits hsecret
    · obtain rfl := Option.some.inj hrow
      obtain rfl := Option.some.inj (hhidden.symm.trans hcell)
      dsimp only
      rw [if_pos hsecret]
      split_ifs with hshort
      · exact iff_of_true rfl ⟨hshort, .inl hsecret⟩
      · exact iff_of_false (by decide) fun h => hshort h.1
    · obtain rfl := Option.some.inj hrow
      have hformat : format v [] = some cell := hcell
      dsimp only
      rw [if_neg hsecret]
      split_ifs with hshort
      · refine ⟨?_, fun h => ?_⟩
        · rintro rfl
          exact ⟨hshort, .inr (plain_of_format hformat)⟩
        · have hplain := h.2.resolve_left hsecret
          exact Option.some.inj ((format_of_plain [] hplain).symm.trans hformat)
      · refine iff_of_false (fun heq => hshort ?_) fun h => hshort h.1
        rw [← heq] at hformat
        rw [← eq_of_format hformat (by decide)]
        decide

end Command

/-! ## Runs -/

section Runs

variable {order : List (GmWebMethod × Installed)} {w t : WebServer}

/-- The server does not hang. -/
def Serving.Intact (serving : Serving) : Prop := ∀ console, serving ≠ .hung console

theorem Serving.intact_of_running {serving : Serving} (h : serving = .running) : serving.Intact := by
  subst h
  exact fun _ => Serving.noConfusion

theorem nvs_foldl_changed (s : Store) {argc : ℕ} {args : NonvolatileArgs} {err : EspErr}
    (h : (commandOps argc args err).any (restartsAfter s.nvs) = true) :
    ((commandOps argc args err).foldl changed s).nvs = valuesAfter s.nvs (commandOps argc args err) := by
  unfold commandOps at *
  split_ifs at *
  · exact (valuesAfter_nil _).symm
  · have hrestarts : restartsStation (args.name.headD []) = true ∧ (s.nvs (args.name.headD [])).isSome = true := by
      simpa [restartsAfter] using h
    exact nvs_unreturned_erase s hrestarts.1 hrestarts.2
  · have hrestarts : restartsStation (args.name.headD []) = true ∧ err = .ok := by
      simpa [restartsAfter] using h
    rw [hrestarts.2]
    exact nvs_unreturned s _ hrestarts.1
  · exact (valuesAfter_nil _).symm

/-- **What a command changes.** -/
theorem command_ok (argc : ℕ) (args : NonvolatileArgs) (err : EspErr)
    (hidle : w.serving.Intact → w.page.Idle) :
    ((w.command argc args err).serving.Intact → (w.command argc args err).page.Idle) ∧
      (w.command argc args err).store.nvs = valuesAfter w.store.nvs (w.ops (.command argc args err)) := by
  obtain ⟨page, store, serving⟩ := w
  have hreturned := nvs_nonvolatile store argc args err
  cases serving with
  | running | stopped => exact ⟨fun _ => hidle fun console => Serving.noConfusion, hreturned⟩
  | hung console =>
    cases console with
    | false =>
      by_cases hrestarts : (commandOps argc args err).any (restartsAfter store.nvs) = true
      · have hcommand : WebServer.command ⟨page, store, .hung false⟩ argc args err
            = ⟨page, (commandOps argc args err).foldl changed store, .hung true⟩ := if_pos hrestarts
        rw [hcommand]
        exact ⟨fun hintact => absurd rfl (hintact true), nvs_foldl_changed store hrestarts⟩
      · have hcommand : WebServer.command ⟨page, store, .hung false⟩ argc args err
            = ⟨page, (nonvolatile store argc args err).2, .hung false⟩ := if_neg hrestarts
        rw [hcommand]
        exact ⟨fun hintact => absurd rfl (hintact false), hreturned⟩
    | true => exact ⟨fun hintact => absurd rfl (hintact true), (valuesAfter_nil _).symm⟩

/-- **What one thing that is asked changes.** -/
theorem asked_ok (horder : order ~ installs) {e : Asked} (hidle : w.serving.Intact → w.page.Idle)
    (h : w.asked order e = .ok t) :
    (t.serving.Intact → t.page.Idle) ∧ t.store.nvs = valuesAfter w.store.nvs (w.ops e) := by
  cases e with
  | started ok =>
    obtain rfl := Except.ok.inj h
    unfold WebServer.startWebserver WebServer.ops
    rw [valuesAfter_nil]
    split_ifs with hstopped
    · exact ⟨fun _ => hidle fun console hhung => (by cases hhung.symm.trans hstopped.1), rfl⟩
    · exact ⟨hidle, rfl⟩
  | command argc args err =>
    obtain rfl := Except.ok.inj h
    exact command_ok argc args err hidle
  | request r =>
    obtain ⟨a, ha, rfl⟩ := map_ok h
    unfold WebServer.ops
    dsimp only
    by_cases hserving : w.serving = .running
    · rw [respond_of_idle horder hserving (hidle (Serving.intact_of_running hserving))] at ha
      have hhandled := handle_ok Page.idle_init ha
      rw [if_pos hserving]
      refine ⟨fun hintact => ?_, hhandled.nvs⟩
      obtain hhung | ⟨-, hidle, -⟩ := hhandled.ends
      · exact absurd hhung (hintact false)
      · exact hidle
    · rw [respond_of_ne hserving] at ha
      obtain rfl := Except.ok.inj ha
      rw [if_neg hserving]
      exact ⟨hidle, (valuesAfter_nil _).symm⟩

/-- **The values after a run** are those last set, by one way or the other. -/
theorem nvs_of_asked (horder : order ~ installs) : ∀ (es : List Asked) {w : WebServer},
    (w.serving.Intact → w.page.Idle) → es.foldlM (WebServer.asked order) w = .ok t →
    (t.serving.Intact → t.page.Idle) ∧ t.store.nvs = valuesAfter w.store.nvs (w.opsIn order es) := by
  intro es
  induction es with
  | nil =>
    intro w hidle h
    obtain rfl := Except.ok.inj h
    exact ⟨hidle, (valuesAfter_nil _).symm⟩
  | cons e es ih =>
    intro w hidle h
    obtain ⟨u, hu, h⟩ := bind_ok h
    obtain ⟨hidle', hnvs⟩ := asked_ok horder hidle hu
    obtain ⟨hidle'', hrest⟩ := ih hidle' h
    refine ⟨hidle'', ?_⟩
    rw [hrest, hnvs, WebServer.opsIn, hu, valuesAfter_append]

/-- The callsign is set by the form, the network on the console, and the server is started again. -/
def renamed : List Asked :=
  [.started true,
    .request ⟨.post, "/setting".toList, forgetful .directory, zeroBuffer,
      [.bytes "name=callsign&value=N0CALL".toList], .ok⟩,
    .command 3 ⟨["ssid".toList], ["100%% home".toList], 0⟩ .ok, .started true]

end Runs

end Web
