import HtFirmware.Server.Startup
import HtFirmware.Wifi.Connection
import Mathlib.Data.List.DropRight

/-!
# Wifi/Device — the station's handlers, and what they start

Once the station has an IPv4 address its handler starts SNTP, the Port Control Protocol client, the web
server with its redirect server, and the log server; a restart stops them.  The handlers are registered
once more at each restart, so each start is made as often.

* `smooth_iff` — the clock is set at once, or smoothly, by what happened since the web server was last
  stopped.
* `quiet_restarted_iff` — a restart leaves no service running, unless the redirect server ran alone.
-/

open Machinery

namespace Wifi

open Pcp (EspNetif)
open Server (Answers ServiceCall Services ServicesSound SetsUp)

/-! ## The device -/

/-- `sntp_sync_mode_t`. -/
inductive SntpSyncMode where
  | immed
  | smooth
  deriving DecidableEq

/-- What the platform answers to a call: to a start, whether an interface address matches the router's, and
whether `httpd_ssl_start` succeeds. -/
structure World where
  answers : Answers
  matchingAddress : Bool
  httpdSslStart : Bool

/-- The station, the services, whether there is an `ssl_server`, and what `sntp.c` keeps. -/
structure Device where
  station : State := {}
  services : Services := {}
  sslServer : Bool := false
  timeLastSynchronized : ℤ := 0
  syncMode : SntpSyncMode := .immed
  sntpRuns : Bool := false

namespace Device

/-- A call of another service. -/
def serve (d : Device) (c : ServiceCall) : Device := { d with services := d.services.call c }

/-- `start_webserver`. -/
def startWebserver (w : World) (d : Device) : Device :=
  if d.sslServer then d
  else { d.serve (.gmStartRedirectToHttps w.answers) with sslServer := w.httpdSslStart }

/-- `stop_webserver`. -/
def stopWebserver (d : Device) : Device :=
  if d.sslServer then
    { d.serve .gmStopRedirectToHttps with timeLastSynchronized := 0, sslServer := false }
  else d

/-- `gm_sntp_start`. -/
def gmSntpStart (d : Device) : Device := { d with syncMode := .immed, sntpRuns := true }

/-- `gm_sntp_stop`. -/
def gmSntpStop (d : Device) : Device := { d with sntpRuns := false }

/-- `time_was_synchronized`, `now` being what `esp_timer_get_time` returns. -/
def timeWasSynchronized (now : ℤ) (d : Device) : Device :=
  { d with
    syncMode := if d.timeLastSynchronized = 0 then .smooth else d.syncMode
    timeLastSynchronized := now }

/-- A call that a handler of the station makes. -/
def call (w : World) (d : Device) : Call → Device
  | .startWebserver => d.startWebserver w
  | .stopWebserver => d.stopWebserver
  | .gmLogServerStart => d.serve (.gmLogServerStart w.answers)
  | .gmLogServerStop => d.serve .gmLogServerStop
  | .gmSntpStart => d.gmSntpStart
  | .gmSntpStop => d.gmSntpStop
  | .gmPcpStart .ip4 => d.serve (.gmPcpStartIpv4 w.answers)
  | .gmPcpStart .ip6 => d.serve (.gmPcpStartIpv6 w.matchingAddress w.answers)
  | .gmPcpStop => d.serve .gmPcpStop
  | _ => d

/-- The calls of an event, in order: `worlds k` is for the `k`-th of them. -/
def callAll (worlds : ℕ → World) : ℕ → List Call → Device → Device
  | _, [], d => d
  | k, c :: cs, d => callAll worlds (k + 1) cs (d.call (worlds k) c)

end Device

/-- An event of the station, or the time arrives. -/
inductive DeviceEvent where
  | station (e : Event) (worlds : ℕ → World)
  | synchronized (now : ℤ)

namespace Device

/-- **One event.**  The time arrives only while SNTP runs. -/
def step (esp : EspNetif) (d : Device) : DeviceEvent → Device
  | .station e worlds =>
    let s := Wifi.step esp d.station e
    callAll worlds 0 (s.calls.drop d.station.calls.length) { d with station := s }
  | .synchronized now => if d.sntpRuns then d.timeWasSynchronized now else d

/-- The device after some events. -/
def run (esp : EspNetif) (d : Device) (es : List DeviceEvent) : Device := es.foldl (step esp) d

end Device

/-! ## The calls of an event -/

/-- Calls were logged, all of some kind. -/
def Logs (kind : Call → Prop) (s t : State) : Prop :=
  ∃ cs, t.calls = s.calls ++ cs ∧ ∀ c ∈ cs, kind c

/-- A call that leaves the services and the clock alone. -/
def Call.Idle (c : Call) : Prop := ∀ w d, Device.call w d c = d

/-- A call that leaves the clock alone. -/
def Call.Timeless (c : Call) : Prop := c.Idle ∨ ∃ f, c = .gmPcpStart f

namespace Logs

variable {kind : Call → Prop} {s t u : State}

theorem of_calls (h : t.calls = s.calls) : Logs kind s t :=
  ⟨[], h.trans (List.append_nil _).symm, fun _ hc => absurd hc List.not_mem_nil⟩

theorem refl (s : State) : Logs kind s s := of_calls rfl

theorem trans (hst : Logs kind s t) (htu : Logs kind t u) : Logs kind s u := by
  obtain ⟨cs, hcs, hkind⟩ := hst
  obtain ⟨cs', hcs', hkind'⟩ := htu
  exact ⟨cs ++ cs', by rw [hcs', hcs, List.append_assoc], List.forall_mem_append.mpr ⟨hkind, hkind'⟩⟩

theorem iterate {f : State → State} (hf : ∀ s, Logs kind s (f s)) (n : ℕ) (s : State) :
    Logs kind s (f^[n] s) :=
  Function.Iterate.rec (Logs kind s) (refl s) (fun t ht => ht.trans (hf t)) n

theorem mono {kind' : Call → Prop} (h : Logs kind s t) (himp : ∀ c, kind c → kind' c) : Logs kind' s t :=
  h.imp fun _ hcs => ⟨hcs.1, fun c hc => himp c (hcs.2 c hc)⟩

end Logs

section Calls

variable (s : State) (nvs : Nvs)

theorem logs_wifiConnectToAp (ssid password : List UInt8) :
    Logs Call.Idle s (s.wifiConnectToAp ssid password) :=
  ⟨_, rfl, List.forall_mem_singleton.mpr fun _ _ => rfl⟩

theorem logs_xEventGroupSetBits (bits : EventBits) : Logs Call.Idle s (s.xEventGroupSetBits bits) := by
  unfold State.xEventGroupSetBits
  dsimp only
  split_ifs <;> exact .of_calls rfl

theorem logs_wifiEventStaStart : Logs Call.Idle s (s.wifiEventStaStart nvs) := by
  unfold State.wifiEventStaStart
  split
  · split_ifs
    · exact (logs_wifiConnectToAp s _ _).trans (logs_xEventGroupSetBits _ _)
    · exact logs_xEventGroupSetBits s _
  · exact logs_xEventGroupSetBits s _

theorem logs_wifiEventStaConnectedToAp (fd : ℤ) : Logs Call.Idle s (s.wifiEventStaConnectedToAp fd) := by
  have hopen : (s.gmIcmpv6StartListenerIpv6 fd).calls = s.calls := by
    unfold State.gmIcmpv6StartListenerIpv6
    split_ifs <;> rfl
  refine ⟨_, congrArg (· ++ _) hopen, ?_⟩
  simp [Call.Idle, Device.call]

theorem logs_gmWifiRestarted : Logs Call.Idle s (s.gmWifiRestarted nvs) := by
  have hstop : Logs Call.Idle s { s with pcpIpv6Started := false } := .of_calls rfl
  unfold State.gmWifiRestarted
  dsimp only
  split
  · split_ifs
    · exact hstop.trans (logs_wifiConnectToAp _ _ _)
    · exact hstop
  · exact hstop

theorem logs_gmWifiWaitUntilDisconnected : Logs Call.Idle s (s.gmWifiWaitUntilDisconnected nvs) := by
  have hwait : Logs Call.Idle s (s.log [.waitUntilDisconnected s.wifiEvents]) :=
    ⟨_, rfl, List.forall_mem_singleton.mpr fun _ _ => rfl⟩
  unfold State.gmWifiWaitUntilDisconnected
  dsimp only
  split_ifs
  · refine hwait.trans (.trans ?_ (logs_gmWifiRestarted _ nvs))
    exact .of_calls rfl
  · exact hwait.trans (.of_calls rfl)

/-- The calls that stop the services. -/
def stopCalls : List Call := [.stopWebserver, .gmLogServerStop, .gmPcpStop, .gmStunStop, .gmSntpStop]

theorem calls_gmWifiStop : s.gmWifiStop.calls = s.calls ++ stopCalls := by
  have hclose : ∀ s : State, s.gmIcmpv6StopListenerIpv6.calls = s.calls := by
    intro s
    unfold State.gmIcmpv6StopListenerIpv6
    split_ifs <;> rfl
  unfold State.gmWifiStop State.log
  rw [hclose, stopCalls, List.append_assoc]
  rfl

/-- **A restart stops the services**, and then leaves them alone. -/
theorem calls_gmWifiRestart : ∃ rest, (s.gmWifiRestart nvs).calls = s.calls ++ (stopCalls ++ rest) ∧
    ∀ c ∈ rest, c.Idle := by
  have hrest : Logs Call.Idle s.gmWifiStop (s.gmWifiRestart nvs) := by
    have hdisconnect : Logs Call.Idle s.gmWifiStop (s.gmWifiStop.log [.espWifiDisconnect]) :=
      ⟨_, rfl, List.forall_mem_singleton.mpr fun _ _ => rfl⟩
    unfold State.gmWifiRestart
    dsimp only
    split_ifs
    · exact hdisconnect.trans (logs_gmWifiWaitUntilDisconnected _ nvs)
    · exact logs_gmWifiRestarted _ nvs
  obtain ⟨rest, hcalls, hidle⟩ := hrest
  exact ⟨rest, by rw [hcalls, calls_gmWifiStop, List.append_assoc], hidle⟩

/-- The calls that start the services. -/
def startCalls : List Call :=
  [.gmSntpStart, .gmStun false, .gmPcpStart .ip4, .gmPcpRequestMapping .ip4, .startWebserver,
    .gmLogServerStart]

/-- **An IPv4 address starts the services**, once for each registration. -/
theorem calls_gotIp4 (ip4 : GmNetifIp4) : ∀ (n : ℕ) (s : State),
    ((State.ipEventStaGotIp4 ip4)^[n] s).calls = s.calls ++ (List.replicate n startCalls).flatten
  | 0, s => (List.append_nil _).symm
  | n + 1, s => by
    rw [Function.iterate_succ_apply, calls_gotIp4 ip4 n, List.replicate_succ, List.flatten_cons,
      ← List.append_assoc]
    rfl

theorem logs_incomingPacket (m : Icmpv6Message) (address : Pcp.SockAddr) :
    Logs Call.Timeless s (s.incomingPacket m address) := by
  have hhandler : ∀ a, Logs Call.Timeless s (s.ipv6RouterAdvertisementHandler a) := by
    intro a
    unfold State.ipv6RouterAdvertisementHandler
    dsimp only
    split_ifs
    · exact .refl s
    · exact .of_calls rfl
    · refine ⟨_, rfl, fun c hc => ?_⟩
      obtain rfl | hc := List.mem_cons.mp hc
      · exact .inr ⟨_, rfl⟩
      · rw [List.mem_singleton.mp hc]
        exact .inl fun _ _ => rfl
  unfold State.incomingPacket
  split
  · exact .refl s
  · split_ifs
    exacts [hhandler _, .refl s, .refl s]

variable {s}

/-- **Any other event leaves the clock alone.** -/
theorem Knows.logs_step (esp : EspNetif) {restarted started : Bool} (h : Knows s restarted started)
    {e : Event} (hrestart : e.isRestart = false) (hgot : ∀ ip4, e ≠ .staGotIp4 ip4) :
    Logs Call.Timeless s (Wifi.step esp s e) := by
  have himp : ∀ c : Call, c.Idle → c.Timeless := fun _ => .inl
  cases e with
  | staStart nvs => exact (logs_wifiEventStaStart s nvs).mono himp
  | staConnected sockets =>
    exact (List.foldlRecOn _ _ (Logs.refl s) fun t ht k _ =>
      ht.trans (logs_wifiEventStaConnectedToAp t (sockets k))).mono himp
  | staDisconnected nvs =>
    rw [Wifi.step, h.staDisconnected nvs]
    exact .refl s
  | staGotIp4 ip4 => exact absurd rfl (hgot ip4)
  | gotIp6 netifName ip =>
    refine .iterate (fun t => ?_) _ s
    unfold State.ipEventGotIp6
    split
    exacts [.refl t, .of_calls rfl]
  | packet m address => exact .iterate (fun t => logs_incomingPacket t m address) _ s
  | restart nvs => cases hrestart
  | resume nvs =>
    rw [Wifi.step, h.resume nvs]
    exact .refl s

end Calls

/-! ## What the calls do -/

namespace Device

section Calls

variable (worlds : ℕ → World)

theorem callAll_append : ∀ (cs cs' : List Call) (k : ℕ) (d : Device),
    callAll worlds k (cs ++ cs') d = callAll worlds (k + cs.length) cs' (callAll worlds k cs d)
  | [], _, _, _ => rfl
  | c :: cs, cs', k, d => by
    rw [List.cons_append, callAll, callAll, callAll_append cs cs', List.length_cons, Nat.add_right_comm,
      Nat.add_assoc]

/-- **What every call keeps, they all keep.** -/
theorem callAll_keeps {motive : Device → Prop} : ∀ {cs : List Call} {k : ℕ} {d : Device}, motive d →
    (∀ c ∈ cs, ∀ k d, motive d → motive (d.call (worlds k) c)) → motive (callAll worlds k cs d)
  | [], _, _, hd, _ => hd
  | c :: cs, k, d, hd, hcall => by
    obtain ⟨hc, hcs⟩ := List.forall_mem_cons.mp hcall
    have hrest : motive (callAll worlds (k + 1) cs (d.call (worlds k) c)) := callAll_keeps (hc k d hd) hcs
    exact hrest

theorem callAll_idle {cs : List Call} (hidle : ∀ c ∈ cs, c.Idle) (k : ℕ) (d : Device) :
    callAll worlds k cs d = d :=
  callAll_keeps (motive := (· = d)) worlds rfl fun c hc k _ hd => by rw [hidle c hc (worlds k), hd]

end Calls

end Device

/-- The clock, and what it was set by, are as they were. -/
structure SameClock (d d' : Device) : Prop where
  timeLastSynchronized : d'.timeLastSynchronized = d.timeLastSynchronized
  syncMode : d'.syncMode = d.syncMode
  sntpRuns : d'.sntpRuns = d.sntpRuns

/-- **SNTP starts**: the clock is to be set at once, and that it was synchronized is not forgotten. -/
structure Starts (d d' : Device) : Prop where
  timeLastSynchronized : d'.timeLastSynchronized = d.timeLastSynchronized
  syncMode : d'.syncMode = .immed
  sntpRuns : d'.sntpRuns = true

section Effects

variable {d d' : Device}

theorem SameClock.startWebserver (h : SameClock d d') (w : World) : SameClock d (d'.startWebserver w) := by
  unfold Device.startWebserver
  split_ifs
  exacts [h, ⟨h.timeLastSynchronized, h.syncMode, h.sntpRuns⟩]

theorem SameClock.call (h : SameClock d d') {c : Call} (hc : c.Timeless) (w : World) :
    SameClock d (d'.call w c) := by
  obtain hidle | ⟨f, rfl⟩ := hc
  · rwa [hidle w d']
  · cases f <;> exact ⟨h.timeLastSynchronized, h.syncMode, h.sntpRuns⟩

/-- Whatever starts leaves SNTP started. -/
theorem Starts.call (h : Starts d d') {c : Call} (hc : c ∈ startCalls) (w : World) :
    Starts d (d'.call w c) := by
  have hsame : SameClock d' (d'.call w c) → Starts d (d'.call w c) := fun hsame =>
    ⟨hsame.timeLastSynchronized.trans h.timeLastSynchronized, hsame.syncMode.trans h.syncMode,
      hsame.sntpRuns.trans h.sntpRuns⟩
  have hself : SameClock d' d' := ⟨rfl, rfl, rfl⟩
  simp only [startCalls, List.mem_cons, List.not_mem_nil, or_false] at hc
  obtain rfl | rfl | rfl | rfl | rfl | rfl := hc
  · exact ⟨h.timeLastSynchronized, rfl, rfl⟩
  · exact h
  · exact hsame ⟨rfl, rfl, rfl⟩
  · exact h
  · exact hsame (hself.startWebserver w)
  · exact hsame ⟨rfl, rfl, rfl⟩

variable (worlds : ℕ → World)

/-- **The services are started**, once or more often. -/
theorem starts_callAll (k n : ℕ) (d : Device) :
    Starts d (Device.callAll worlds k (List.replicate (n + 1) startCalls).flatten d) := by
  have hstarted : Starts d d.gmSntpStart := ⟨rfl, rfl, rfl⟩
  rw [List.replicate_succ, List.flatten_cons, startCalls, List.cons_append, Device.callAll]
  refine Device.callAll_keeps worlds hstarted fun c hc k d' h => h.call ?_ (worlds k)
  obtain hc | hc := List.mem_append.mp hc
  · exact List.mem_cons_of_mem _ hc
  · obtain ⟨cs, hcs, hc⟩ := List.mem_flatten.mp hc
    rwa [List.eq_of_mem_replicate hcs] at hc

/-- **The services are stopped.** -/
theorem callAll_stopCalls {rest : List Call} (hidle : ∀ c ∈ rest, c.Idle) (k : ℕ) (d : Device) :
    Device.callAll worlds k (stopCalls ++ rest) d
      = ((d.stopWebserver.serve .gmLogServerStop).serve .gmPcpStop).gmSntpStop := by
  rw [Device.callAll_append, Device.callAll_idle worlds hidle]
  rfl

end Effects

/-! ## One event -/

namespace Device

section Step

variable (esp : EspNetif) (d : Device) (worlds : ℕ → World)

/-- An event of the station calls what it logs. -/
theorem step_station (e : Event) {cs : List Call}
    (hcalls : (Wifi.step esp d.station e).calls = d.station.calls ++ cs) :
    d.step esp (.station e worlds)
      = callAll worlds 0 cs { d with station := Wifi.step esp d.station e } := by
  rw [step, hcalls, List.drop_left]

theorem station_call (w : World) (c : Call) : (d.call w c).station = d.station := by
  cases c with
  | startWebserver => exact apply_ite station _ _ _ |>.trans (ite_self _)
  | stopWebserver => exact apply_ite station _ _ _ |>.trans (ite_self _)
  | gmPcpStart f => cases f <;> rfl
  | _ => rfl

theorem station_step (e : Event) :
    (d.step esp (.station e worlds)).station = Wifi.step esp d.station e :=
  callAll_keeps (motive := fun d' => d'.station = Wifi.step esp d.station e) worlds rfl
    fun c _ k d' h => (station_call d' (worlds k) c).trans h

/-- What the event group knows is known after every event. -/
theorem knows_step {restarted started : Bool} (h : Knows d.station restarted started) (e : DeviceEvent) :
    ∃ restarted started, Knows (d.step esp e).station restarted started := by
  cases e with
  | station e worlds => exact ⟨_, _, station_step esp d worlds e ▸ (h.step e).1⟩
  | synchronized now =>
    refine ⟨restarted, started, ?_⟩
    rw [step]
    split_ifs
    exacts [h, h]

theorem step_restart (nvs : Nvs) : d.step esp (.station (.restart nvs) worlds)
    = ((({ d with station := d.station.gmWifiRestart nvs }.stopWebserver).serve
        .gmLogServerStop).serve .gmPcpStop).gmSntpStop := by
  obtain ⟨rest, hcalls, hidle⟩ := calls_gmWifiRestart d.station nvs
  rw [step_station esp d worlds (.restart nvs) hcalls, callAll_stopCalls worlds hidle]
  rfl

theorem starts_step (ip4 : GmNetifIp4) (hregistered : 0 < d.station.registrations) :
    Starts d (d.step esp (.station (.staGotIp4 ip4) worlds)) := by
  obtain ⟨n, hn⟩ := Nat.exists_eq_succ_of_ne_zero hregistered.ne'
  rw [step_station esp d worlds (.staGotIp4 ip4) (calls_gotIp4 ip4 d.station.registrations d.station), hn]
  obtain ⟨htime, hmode, hruns⟩ := starts_callAll worlds 0 n
    { d with station := Wifi.step esp d.station (.staGotIp4 ip4) }
  exact ⟨htime, hmode, hruns⟩

theorem sameClock_gotIp4 (ip4 : GmNetifIp4) (hregistered : d.station.registrations = 0) :
    SameClock d (d.step esp (.station (.staGotIp4 ip4) worlds)) := by
  rw [step_station esp d worlds (.staGotIp4 ip4) (calls_gotIp4 ip4 d.station.registrations d.station), hregistered]
  exact ⟨rfl, rfl, rfl⟩

theorem sameClock_step {restarted started : Bool} (h : Knows d.station restarted started) {e : Event}
    (hrestart : e.isRestart = false) (hgot : ∀ ip4, e ≠ .staGotIp4 ip4) :
    SameClock d (d.step esp (.station e worlds)) := by
  obtain ⟨cs, hcalls, hkind⟩ := h.logs_step esp hrestart hgot
  rw [step_station esp d worlds e hcalls]
  exact callAll_keeps (motive := SameClock d) worlds ⟨rfl, rfl, rfl⟩ fun c hc k d' hsame =>
    hsame.call (hkind c hc) (worlds k)

end Step

end Device

/-! ## The clock -/

/-- What happens to the clock: the web server is stopped, SNTP is started, or the time arrives. -/
inductive Moment where
  | stopped
  | started
  | synchronized
  deriving DecidableEq

/-- What an event is to the clock. -/
def Device.moments (d : Device) : DeviceEvent → List Moment
  | .station (.restart _) _ => if d.sslServer then [.stopped] else []
  | .station (.staGotIp4 _) _ => if 0 < d.station.registrations then [.started] else []
  | .station _ _ => []
  | .synchronized _ => if d.sntpRuns then [.synchronized] else []

/-- What happens to it in a run. -/
def Device.history (esp : EspNetif) : Device → List DeviceEvent → List Moment
  | _, [] => []
  | d, e :: es => d.moments e ++ history esp (d.step esp e) es

/-- What happened since the web server was last stopped. -/
def sinceStopped (ms : List Moment) : List Moment := ms.rtakeWhile (· ≠ .stopped)

/-- **The time arrived, and SNTP was not started after it had.** -/
def Settled (ms : List Moment) : Prop :=
  .synchronized ∈ ms ∧ ¬ [Moment.synchronized, .started].Sublist ms

section Clock

variable {d d' : Device} {ms : List Moment}

theorem sinceStopped_concat_stopped (ms : List Moment) : sinceStopped (ms ++ [.stopped]) = [] :=
  List.rtakeWhile_concat_neg _ _ _ (by decide)

theorem sinceStopped_concat {m : Moment} (hm : m ≠ .stopped) (ms : List Moment) :
    sinceStopped (ms ++ [m]) = sinceStopped ms ++ [m] :=
  List.rtakeWhile_concat_pos _ _ _ (by simpa using hm)

theorem not_settled_concat_started (ms : List Moment) : ¬ Settled (ms ++ [.started]) := by
  rintro ⟨hmem, hsublist⟩
  refine hsublist (List.Sublist.append (List.singleton_sublist.mpr ?_) (.refl [Moment.started]))
  simpa using hmem

theorem settled_concat_synchronized (ms : List Moment) :
    Settled (ms ++ [.synchronized]) ↔ ¬ [Moment.synchronized, .started].Sublist ms := by
  have hsublist : [Moment.synchronized, .started].Sublist (ms ++ [.synchronized]) ↔
      [Moment.synchronized, .started].Sublist ms := by
    rw [← List.reverse_sublist, ← @List.reverse_sublist _ _ ms, List.reverse_append]
    exact (List.cons_sublist_cons').trans (or_iff_left fun h => by cases h.1)
  rw [Settled, hsublist]
  exact and_iff_right (List.mem_append_right _ (List.mem_singleton_self _))

/-- **The clock follows what happened**: it was never synchronized, or it was; and it goes smoothly once
that is settled. -/
structure Tracks (d : Device) (ms : List Moment) : Prop where
  never : d.timeLastSynchronized = 0 ↔ .synchronized ∉ ms
  smooth : d.sntpRuns = true → (d.syncMode = .smooth ↔ Settled ms)

theorem tracks_init : Tracks {} [] where
  never := iff_of_true rfl List.not_mem_nil
  smooth hruns := by cases hruns

theorem Tracks.same (h : Tracks d ms) (hsame : SameClock d d') : Tracks d' ms where
  never := hsame.timeLastSynchronized ▸ h.never
  smooth hruns := by
    rw [hsame.syncMode]
    exact h.smooth (hsame.sntpRuns ▸ hruns)

theorem Tracks.starts (h : Tracks d ms) (hstarts : Starts d d') : Tracks d' (ms ++ [.started]) where
  never := by
    rw [hstarts.timeLastSynchronized, h.never]
    simp
  smooth _ := by
    rw [hstarts.syncMode]
    exact iff_of_false (by decide) (not_settled_concat_started ms)

theorem Tracks.synchronized (h : Tracks d ms) (hruns : d.sntpRuns = true) {now : ℤ} (hnow : now ≠ 0) :
    Tracks (d.timeWasSynchronized now) (ms ++ [.synchronized]) where
  never := iff_of_false hnow fun hmem => hmem (List.mem_append_right _ (List.mem_singleton_self _))
  smooth _ := by
    rw [settled_concat_synchronized]
    change (if d.timeLastSynchronized = 0 then SntpSyncMode.smooth else d.syncMode) = .smooth ↔ _
    split_ifs with hzero
    · refine iff_of_true rfl fun hsublist => h.never.mp hzero ?_
      exact hsublist.subset List.mem_cons_self
    · rw [h.smooth hruns, Settled]
      exact and_iff_right (not_not.mp (mt h.never.mpr hzero))

theorem Tracks.stopped (hzero : d.timeLastSynchronized = 0) (hruns : d.sntpRuns = false) :
    Tracks d [] where
  never := iff_of_true hzero List.not_mem_nil
  smooth htrue := absurd htrue (by rw [hruns]; decide)

variable (esp : EspNetif)

/-- A restart stops SNTP, and forgets the clock if there is a web server. -/
theorem Tracks.restart (h : Tracks d (sinceStopped ms)) (nvs : Nvs) (worlds : ℕ → World) :
    Tracks (d.step esp (.station (.restart nvs) worlds))
      (sinceStopped (ms ++ d.moments (.station (.restart nvs) worlds))) := by
  rw [Device.step_restart, Device.moments, Device.stopWebserver]
  split_ifs with hserver
  · rw [sinceStopped_concat_stopped]
    exact .stopped rfl rfl
  · rw [List.append_nil]
    exact ⟨h.never, fun hruns => by cases hruns⟩

/-- **Every event is followed.** -/
theorem Tracks.step (h : Tracks d (sinceStopped ms)) {restarted started : Bool}
    (hknows : Knows d.station restarted started) {e : DeviceEvent}
    (hnow : ∀ now, e = .synchronized now → now ≠ 0) :
    Tracks (d.step esp e) (sinceStopped (ms ++ d.moments e)) := by
  cases e with
  | synchronized now =>
    rw [Device.step, Device.moments]
    split_ifs with hruns
    · rw [sinceStopped_concat (by decide)]
      exact h.synchronized hruns (hnow now rfl)
    · rwa [List.append_nil]
  | station e worlds =>
    cases e with
    | restart nvs => exact h.restart esp nvs worlds
    | staGotIp4 ip4 =>
      rw [Device.moments]
      split_ifs with hregistered
      · rw [sinceStopped_concat (by decide)]
        exact h.starts (d.starts_step esp worlds ip4 hregistered)
      · rw [List.append_nil]
        exact h.same (d.sameClock_gotIp4 esp worlds ip4 (Nat.eq_zero_of_not_pos hregistered))
    | _ =>
      rw [Device.moments, List.append_nil]
      · exact h.same (d.sameClock_step esp worlds hknows rfl (by rintro _ ⟨⟩))
      all_goals exact fun _ heq => by cases heq

theorem Tracks.run : ∀ (es : List DeviceEvent) {d : Device} {ms : List Moment} {restarted started : Bool},
    Tracks d (sinceStopped ms) → Knows d.station restarted started →
    (∀ now, .synchronized now ∈ es → now ≠ 0) →
    Tracks (d.run esp es) (sinceStopped (ms ++ d.history esp es))
  | [], _, ms, _, _, h, _, _ => by rwa [Device.history, List.append_nil]
  | e :: es, d, ms, _, _, h, hknows, hnow => by
    obtain ⟨_, _, hknows'⟩ := d.knows_step esp hknows e
    rw [Device.history, ← List.append_assoc]
    exact Tracks.run es (h.step esp hknows fun now he => hnow now (he ▸ List.mem_cons_self)) hknows'
      fun now hmem => hnow now (List.mem_cons_of_mem e hmem)

/-- **How the clock is set**: in every run, smoothly exactly if the time has arrived since the web server
was last stopped, and SNTP was not started after it had; otherwise at once. -/
theorem smooth_iff (es : List DeviceEvent) (hnow : ∀ now, .synchronized now ∈ es → now ≠ 0)
    (hruns : (Device.run esp {} es).sntpRuns = true) :
    (Device.run esp {} es).syncMode = .smooth ↔ Settled (sinceStopped (Device.history esp {} es)) := by
  have htracks : Tracks {} (sinceStopped []) := tracks_init
  exact (htracks.run esp es (knows_run esp []) hnow).smooth hruns

end Clock

/-- A platform where everything succeeds, and the numbers from `first` on are free. -/
def succeeding (first : ℕ) (k : ℕ) : World :=
  { answers := ⟨some (first + k), true, true, true⟩, matchingAddress := true, httpdSslStart := true }

/-- The station starts with a network set, gets an address, and then the time. -/
def connected : List DeviceEvent :=
  [.station (.staStart ⟨some [104], some [104]⟩) (succeeding 3), .station (.staGotIp4 {}) (succeeding 3),
    .synchronized 1000000]

theorem smooth_connected :
    (Device.run Pcp.lwipNetif {} connected).syncMode = .smooth ↔
      Settled (sinceStopped (Device.history Pcp.lwipNetif {} connected)) := by
  refine smooth_iff Pcp.lwipNetif connected (fun now hnow => ?_) (by decide +kernel)
  simp only [connected, List.mem_cons, DeviceEvent.synchronized.injEq, reduceCtorEq, false_or,
    List.not_mem_nil, or_false] at hnow
  rw [hnow]
  decide

/-! ## What a restart leaves -/

/-- No service has a socket open, and there is no web server and no SNTP. -/
structure Device.Quiet (d : Device) : Prop where
  sslServer : d.sslServer = false
  sntpRuns : d.sntpRuns = false
  closed : ∀ r fd, r.isService = true → d.services.fds.owner fd ≠ some r

/-- Once a start got its socket, no later step of it fails. -/
def DeviceEvent.SetsUp : DeviceEvent → Prop
  | .station _ worlds => ∀ k, (worlds k).answers.bind = true ∧ (worlds k).answers.listen = true ∧
      (worlds k).answers.membership = true
  | .synchronized _ => True

section Restart

variable {s : Services} {d : Device}

theorem listener_gmStopRedirectToHttps (s : Services) : s.gmStopRedirectToHttps.listener = none := by
  unfold Services.gmStopRedirectToHttps
  split
  exacts [‹_›, rfl]

theorem listener_gmLogServerStop (s : Services) : s.gmLogServerStop.listener = s.listener := by
  have hclosed : s.loggingConnectionClosed.listener = s.listener := by
    unfold Services.loggingConnectionClosed
    split_ifs <;> rfl
  unfold Services.gmLogServerStop
  dsimp only
  split <;> exact hclosed

theorem server_gmLogServerStop (s : Services) : s.gmLogServerStop.server = none := by
  unfold Services.gmLogServerStop
  dsimp only
  split
  exacts [‹_›, rfl]

/-- The sockets of the Port Control Protocol client are closed, and the others left alone. -/
theorem variable_gmPcpStop (s : Services) : s.gmPcpStop.ipv4Socket = none ∧
    s.gmPcpStop.ipv6Socket = none ∧ s.gmPcpStop.listener = s.listener ∧
    s.gmPcpStop.server = s.server := by
  unfold Services.gmPcpStop
  cases hipv4 : s.ipv4Socket <;> cases hipv6 : s.ipv6Socket <;> simp [Services.drop, hipv4, hipv6]

/-- What is open is what the variables name. -/
theorem closed_iff (h : ServicesSound s) : (∀ r fd, r.isService = true → s.fds.owner fd ≠ some r) ↔
    s.listener = none ∧ s.server = none ∧ s.ipv4Socket = none ∧ s.ipv6Socket = none := by
  have hnone : ∀ r, r.isService = true → ((∀ fd, s.fds.owner fd ≠ some r) ↔ s.variable r = none) := by
    intro r hr
    rw [Option.eq_none_iff_forall_ne_some]
    exact forall_congr' fun fd => not_congr
      ⟨h.truthful.named r fd hr, fun hv => (h.truthful.names r fd hv).1⟩
  constructor
  · intro hclosed
    exact ⟨(hnone .redirect rfl).mp fun fd => hclosed _ fd rfl,
      (hnone .logServer rfl).mp fun fd => hclosed _ fd rfl,
      (hnone .pcpIpv4 rfl).mp fun fd => hclosed _ fd rfl,
      (hnone .pcpIpv6 rfl).mp fun fd => hclosed _ fd rfl⟩
  · rintro ⟨hlistener, hserver, hipv4, hipv6⟩ r fd hr
    refine (hnone r hr).mpr ?_ fd
    cases r with
    | redirect => exact hlistener
    | logServer => exact hserver
    | pcpIpv4 => exact hipv4
    | pcpIpv6 => exact hipv6
    | console | logConnection => cases hr

/-- A call whose steps succeed keeps the services sound. -/
theorem sound_call (h : ServicesSound d.services) {w : World}
    (hw : w.answers.bind = true ∧ w.answers.listen = true ∧ w.answers.membership = true) (c : Call) :
    ServicesSound (d.call w c).services := by
  obtain ⟨hbind, hlisten, hmembership⟩ := hw
  have hcall : ∀ c, SetsUp d.services c → ServicesSound (d.serve c).services := fun c => (h.call c).2
  cases c with
  | startWebserver =>
    change ServicesSound (if d.sslServer then d else _).services
    split_ifs
    exacts [h, hcall (.gmStartRedirectToHttps w.answers) fun _ _ => ⟨hbind, hlisten⟩]
  | stopWebserver =>
    change ServicesSound (if d.sslServer then _ else d).services
    split_ifs
    exacts [hcall .gmStopRedirectToHttps trivial, h]
  | gmLogServerStart => exact hcall _ fun _ _ => ⟨hbind, hlisten⟩
  | gmLogServerStop => exact hcall _ trivial
  | gmPcpStart f =>
    cases f with
    | ip4 => exact hcall _ fun _ _ => ⟨hbind, hmembership⟩
    | ip6 => exact hcall _ fun _ _ _ => ⟨hbind, hmembership⟩
  | gmPcpStop => exact hcall _ trivial
  | _ => exact h

variable (esp : EspNetif)

theorem sound_step (h : ServicesSound d.services) {e : DeviceEvent} (he : e.SetsUp) :
    ServicesSound (d.step esp e).services := by
  cases e with
  | station e worlds =>
    exact Device.callAll_keeps (motive := fun d => ServicesSound d.services) worlds h
      fun c _ k d hd => sound_call hd (he k) c
  | synchronized now =>
    rw [Device.step]
    split_ifs
    exacts [h, h]

theorem sound_run : ∀ (es : List DeviceEvent) {d : Device}, ServicesSound d.services →
    (∀ e ∈ es, e.SetsUp) → ServicesSound (d.run esp es).services
  | [], _, h, _ => h
  | e :: es, d, h, hes => by
    obtain ⟨he, hes⟩ := List.forall_mem_cons.mp hes
    have hrest : ServicesSound ((d.step esp e).run esp es).services := sound_run es (sound_step esp h he) hes
    exact hrest

/-- Where there is no web server, its redirect server is not stopped. -/
theorem stopWebserver_spec (h : ServicesSound d.services) :
    ServicesSound d.stopWebserver.services ∧ d.stopWebserver.sslServer = false ∧
      (d.stopWebserver.services.listener = none ↔ d.sslServer = true ∨ d.services.listener = none) := by
  unfold Device.stopWebserver
  split_ifs with hserver
  · exact ⟨h.gmStopRedirectToHttps, rfl,
      iff_of_true (listener_gmStopRedirectToHttps d.services) (.inl hserver)⟩
  · exact ⟨h, eq_false_of_ne_true hserver, (or_iff_right hserver).symm⟩

/-- **A restart leaves nothing running**, in every run whose starts set up, exactly if it found the web
server running or the redirect server not. -/
theorem quiet_restarted_iff (es : List DeviceEvent) (hes : ∀ e ∈ es, e.SetsUp) (nvs : Nvs)
    (worlds : ℕ → World) :
    ((Device.run esp {} es).step esp (.station (.restart nvs) worlds)).Quiet ↔
      (Device.run esp {} es).sslServer = true ∨ (Device.run esp {} es).services.listener = none := by
  have hinit : ServicesSound ({} : Device).services := Server.servicesSound_init
  have hsound := sound_run esp es hinit hes
  generalize Device.run esp {} es = d at hsound
  obtain ⟨hstopped, hserver, hlistener⟩ :=
    @stopWebserver_spec { d with station := d.station.gmWifiRestart nvs } hsound
  rw [Device.step_restart, ← hlistener]
  generalize Device.stopWebserver _ = u at hstopped hserver
  have hclosed := closed_iff hstopped.gmLogServerStop.gmPcpStop
  obtain ⟨hipv4, hipv6, hlistener', hserver'⟩ := variable_gmPcpStop u.services.gmLogServerStop
  rw [hipv4, hipv6, hlistener', hserver', listener_gmLogServerStop, server_gmLogServerStop] at hclosed
  constructor
  · intro hquiet
    exact (hclosed.mp hquiet.closed).1
  · intro hnone
    exact ⟨hserver, rfl, hclosed.mpr ⟨hnone, rfl, rfl, rfl⟩⟩

end Restart

theorem quiet_reconnected :
    ((Device.run Pcp.lwipNetif {} connected).step Pcp.lwipNetif
        (.station (.restart ⟨none, none⟩) (succeeding 3))).Quiet ↔
      (Device.run Pcp.lwipNetif {} connected).sslServer = true ∨
        (Device.run Pcp.lwipNetif {} connected).services.listener = none := by
  refine quiet_restarted_iff Pcp.lwipNetif connected (fun e he => ?_) ⟨none, none⟩ (succeeding 3)
  simp only [connected, List.mem_cons, List.not_mem_nil, or_false] at he
  obtain rfl | rfl | rfl := he
  exacts [fun _ => ⟨rfl, rfl, rfl⟩, fun _ => ⟨rfl, rfl, rfl⟩, trivial]

end Wifi
