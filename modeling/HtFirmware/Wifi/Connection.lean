import HtFirmware.Wifi.Station

/-!
# Wifi/Connection — what the event bits say of the connection

`gm_wifi_is_connected` should be true while the station is connected, and `gm_wifi_stop` should wait
only for a disconnection that can be told.  But no handler sets the connected bit, and the test is
of all the bits: after any events they are those of `eventBits`, which depends on whether there was
a restart, and whether the station has started.

So the test is right by accident, and the wait is right until there was a restart as well as a start
(`tracksConnection_iff`).
-/

open Machinery

namespace Wifi

open Pcp (EspNetif)

/-! ## What is asked -/

/-- The bits a wait begins at. -/
def Call.waitsAt : Call → Option EventBits
  | .waitUntilDisconnected bits => some bits
  | _ => none

/-- The bits each wait began at. -/
def State.waits (s : State) : List EventBits := s.calls.filterMap Call.waitsAt

/-- The disconnected bit is set, or the handler of a disconnected event would set it: it does where
the connected bit is set. -/
def Served (bits : EventBits) : Prop := bits &&& disconnectedBit ≠ 0 ∨ bits &&& connectedBit ≠ 0

instance (bits : EventBits) : Decidable (Served bits) := inferInstanceAs (Decidable (_ ∨ _))

/-- The state after some events. -/
def run (esp : EspNetif) (events : List Event) : State := events.foldl (step esp) {}

namespace Event

def isRestart : Event → Bool
  | .restart _ => true
  | _ => false

def isStaStart : Event → Bool
  | .staStart _ => true
  | _ => false

def isStaDisconnected : Event → Bool
  | .staDisconnected _ => true
  | _ => false

end Event

/-- **A connected event was handled, and no disconnected event since.** -/
def ConnectedSince (esp : EspNetif) (events : List Event) : Prop :=
  ∃ before sockets after, events = before ++ .staConnected sockets :: after ∧
    0 < (run esp before).registrations ∧ ∀ e ∈ after, e.isStaDisconnected = false

/-- **The event bits follow the connection**: the test of it is right, and no wait began that a
disconnected event would not end. -/
structure TracksConnection (esp : EspNetif) (events : List Event) : Prop where
  connected : (run esp events).gmWifiIsConnected = true ↔ ConnectedSince esp events
  waits : ∀ bits ∈ (run esp events).waits, Served bits

/-! ## When it is so -/

def restarted (events : List Event) : Bool := events.any Event.isRestart

def started (events : List Event) : Bool := events.any Event.isStaStart

/-- Some restart comes after an earlier one, and after a start of the station. -/
def RestartsAgain (events : List Event) : Prop :=
  ∃ before nvs after, events = before ++ .restart nvs :: after ∧
    restarted before = true ∧ started before = true

/-! ## The event bits -/

/-- The event bits, whatever else there was. -/
def eventBits (restarted started : Bool) : EventBits :=
  (if restarted then 0 else disconnectedBit) ||| (if started then stationReadyBit else 0)

/-- **What the event group knows**: whether there was a restart, and whether the station has
started. -/
structure Knows (s : State) (restarted started : Bool) : Prop where
  wifiEvents : s.wifiEvents = eventBits restarted started
  waiting : 0 < s.waiting → restarted = true
  woken : s.woken = 0

/-- The event group is as it was, and nobody began to wait. -/
structure SameGroup (s t : State) : Prop where
  wifiEvents : t.wifiEvents = s.wifiEvents
  waiting : t.waiting = s.waiting
  woken : t.woken = s.woken
  waits : t.waits = s.waits

namespace SameGroup

variable {s t u : State}

theorem refl (s : State) : SameGroup s s := ⟨rfl, rfl, rfl, rfl⟩

theorem trans (h : SameGroup s t) (h' : SameGroup t u) : SameGroup s u :=
  ⟨h'.wifiEvents.trans h.wifiEvents, h'.waiting.trans h.waiting, h'.woken.trans h.woken,
    h'.waits.trans h.waits⟩

theorem iterate {f : State → State} (hf : ∀ s, SameGroup s (f s)) (n : ℕ) (s : State) :
    SameGroup s (f^[n] s) :=
  Function.Iterate.rec (SameGroup s) (refl s) (fun t ht => ht.trans (hf t)) n

theorem log (s : State) (calls : List Call) (h : calls.filterMap Call.waitsAt = []) :
    SameGroup s (s.log calls) :=
  ⟨rfl, rfl, rfl, by rw [State.waits, State.log, List.filterMap_append, h, List.append_nil]; rfl⟩

theorem knows (h : SameGroup s t) {restarted started : Bool} (hs : Knows s restarted started) :
    Knows t restarted started :=
  ⟨h.wifiEvents.trans hs.wifiEvents, h.waiting ▸ hs.waiting, h.woken.trans hs.woken⟩

end SameGroup

/-! ## What leaves the group alone -/

section Same

variable (s : State)

theorem sameGroup_wifiConnectToAp (ssid password : List UInt8) :
    SameGroup s (s.wifiConnectToAp ssid password) :=
  SameGroup.trans (t := { s with registrations := s.registrations + 1 }) ⟨rfl, rfl, rfl, rfl⟩
    (.log _ _ rfl)

theorem sameGroup_gmWifiStop : SameGroup s s.gmWifiStop := by
  have hclose (s : State) : SameGroup s s.gmIcmpv6StopListenerIpv6 := by
    unfold State.gmIcmpv6StopListenerIpv6
    split_ifs
    exacts [⟨rfl, rfl, rfl, rfl⟩, .refl s]
  exact ((SameGroup.log s _ rfl).trans (hclose _)).trans (.log _ _ rfl)

theorem sameGroup_gmWifiRestarted (nvs : Nvs) : SameGroup s (s.gmWifiRestarted nvs) := by
  have hstop : SameGroup s { s with pcpIpv6Started := false } := ⟨rfl, rfl, rfl, rfl⟩
  unfold State.gmWifiRestarted
  dsimp only
  split
  · split_ifs
    exacts [hstop.trans (sameGroup_wifiConnectToAp _ _ _), hstop]
  · exact hstop

theorem sameGroup_wifiEventStaConnectedToAp (fd : ℤ) :
    SameGroup s (s.wifiEventStaConnectedToAp fd) := by
  have hopen : SameGroup s (s.gmIcmpv6StartListenerIpv6 fd) := by
    unfold State.gmIcmpv6StartListenerIpv6
    split_ifs
    exacts [⟨rfl, rfl, rfl, rfl⟩, ⟨rfl, rfl, rfl, rfl⟩]
  exact hopen.trans (.log _ _ rfl)

theorem sameGroup_ipEventStaGotIp4 (ip4 : GmNetifIp4) : SameGroup s (s.ipEventStaGotIp4 ip4) :=
  SameGroup.trans (t := s.modify .sta _) ⟨rfl, rfl, rfl, rfl⟩ (.log _ _ rfl)

theorem sameGroup_ipEventGotIp6 (esp : EspNetif) (netifName : String) (ip : Bytes 16) :
    SameGroup s (s.ipEventGotIp6 esp netifName ip) := by
  unfold State.ipEventGotIp6
  split
  exacts [.refl s, ⟨rfl, rfl, rfl, rfl⟩]

theorem sameGroup_ipv6RouterAdvertisementHandler (address : Bytes 16) :
    SameGroup s (s.ipv6RouterAdvertisementHandler address) := by
  unfold State.ipv6RouterAdvertisementHandler
  dsimp only
  split_ifs
  · exact .refl s
  · exact ⟨rfl, rfl, rfl, rfl⟩
  · exact SameGroup.trans (t := { s.modify .sta _ with pcpIpv6Started := true })
      ⟨rfl, rfl, rfl, rfl⟩ (.log _ _ rfl)

theorem sameGroup_incomingPacket (m : Icmpv6Message) (address : Pcp.SockAddr) :
    SameGroup s (s.incomingPacket m address) := by
  unfold State.incomingPacket
  split
  · exact .refl s
  · split_ifs
    exacts [sameGroup_ipv6RouterAdvertisementHandler s _, .refl s, .refl s]

end Same

/-! ## One event -/

section Step

variable {esp : EspNetif} {s : State} {restarted started : Bool}

theorem connectedBit_eventBits (restarted started : Bool) :
    eventBits restarted started &&& connectedBit = 0 := by
  cases restarted <;> cases started <;> decide

theorem disconnectedBit_eventBits (restarted started : Bool) :
    eventBits restarted started &&& disconnectedBit ≠ 0 ↔ restarted = false := by
  cases restarted <;> cases started <;> decide

/-- The test of the connection is a test of all the bits. -/
theorem gmWifiIsConnected_iff : s.gmWifiIsConnected = true ↔ s.wifiEvents ≠ 0 := by
  unfold State.gmWifiIsConnected
  split_ifs with h
  exacts [iff_of_true (by decide) h, iff_of_false (by decide) h]

theorem Knows.gmWifiIsConnected_iff (h : Knows s restarted started) :
    s.gmWifiIsConnected = true ↔ restarted = false ∨ started = true := by
  rw [Wifi.gmWifiIsConnected_iff, h.wifiEvents]
  cases restarted <;> cases started <;> decide

/-- A start of the station sets its bit, and wakes nobody. -/
theorem Knows.xEventGroupSetBits (h : Knows s restarted started) :
    Knows (s.xEventGroupSetBits stationReadyBit) restarted true ∧
      (s.xEventGroupSetBits stationReadyBit).waits = s.waits := by
  have hset : s.wifiEvents ||| stationReadyBit = eventBits restarted true := by
    rw [h.wifiEvents]
    cases restarted <;> cases started <;> decide
  have hnobody : ¬ ((s.wifiEvents ||| stationReadyBit) &&& disconnectedBit ≠ 0 ∧ 0 < s.waiting) := by
    rintro ⟨hbit, hwaiting⟩
    rw [hset, disconnectedBit_eventBits, h.waiting hwaiting] at hbit
    cases hbit
  rw [State.xEventGroupSetBits, if_neg hnobody]
  exact ⟨⟨hset, h.waiting, h.woken⟩, rfl⟩

theorem Knows.staStart (h : Knows s restarted started) (nvs : Nvs) :
    Knows (s.wifiEventStaStart nvs) restarted true ∧ (s.wifiEventStaStart nvs).waits = s.waits := by
  unfold State.wifiEventStaStart
  split
  · rename_i ssid password _ _
    have hconnect := sameGroup_wifiConnectToAp s ssid password
    split_ifs
    · obtain ⟨hknows, hwaits⟩ := (hconnect.knows h).xEventGroupSetBits
      exact ⟨hknows, hwaits.trans hconnect.waits⟩
    · exact h.xEventGroupSetBits
  · exact h.xEventGroupSetBits

/-- A wait consumes the disconnected bit, or is for a bit that a restart has consumed. -/
theorem Knows.wait (h : Knows s restarted started) (nvs : Nvs) :
    Knows (s.gmWifiWaitUntilDisconnected nvs) true started ∧
      (s.gmWifiWaitUntilDisconnected nvs).waits = s.waits ++ [eventBits restarted started] := by
  have hwaits : (s.log [.waitUntilDisconnected s.wifiEvents]).waits
      = s.waits ++ [eventBits restarted started] := by
    rw [← h.wifiEvents]
    exact List.filterMap_append
  unfold State.gmWifiWaitUntilDisconnected
  dsimp only
  split_ifs with hbit
  · have hrestarted := sameGroup_gmWifiRestarted
      { s.log [.waitUntilDisconnected s.wifiEvents] with
        wifiEvents := s.wifiEvents &&& ~~~disconnectedBit } nvs
    refine ⟨hrestarted.knows ⟨?_, fun _ => rfl, h.woken⟩, hrestarted.waits.trans hwaits⟩
    change s.wifiEvents &&& _ = _
    rw [h.wifiEvents]
    cases restarted <;> cases started <;> decide
  · refine ⟨⟨?_, fun _ => rfl, h.woken⟩, hwaits⟩
    rw [h.wifiEvents, disconnectedBit_eventBits, Bool.not_eq_false] at hbit
    subst hbit
    exact h.wifiEvents

/-- The bits a restart begins to wait at, if it waits. -/
def restartWaits (restarted started : Bool) : List EventBits :=
  if restarted = false ∨ started = true then [eventBits restarted started] else []

/-- **A restart waits if any bit is set**, and leaves the disconnected bit clear. -/
theorem Knows.restart (h : Knows s restarted started) (nvs : Nvs) :
    Knows (s.gmWifiRestart nvs) true started ∧
      (s.gmWifiRestart nvs).waits = s.waits ++ restartWaits restarted started := by
  have hstop := sameGroup_gmWifiStop s
  have hstopped := hstop.knows h
  unfold State.gmWifiRestart
  dsimp only
  split_ifs with hconnected
  · have hdisconnect := hstop.trans (.log s.gmWifiStop [.espWifiDisconnect] rfl)
    obtain ⟨hknows, hwaits⟩ := (hdisconnect.knows h).wait nvs
    refine ⟨hknows, hwaits.trans ?_⟩
    rw [hdisconnect.waits, restartWaits, if_pos (hstopped.gmWifiIsConnected_iff.mp hconnected)]
  · have hnot : ¬ (restarted = false ∨ started = true) :=
      fun hor => hconnected (hstopped.gmWifiIsConnected_iff.mpr hor)
    have hrestarted : restarted = true := by simpa using fun hr => hnot (.inl hr)
    have hlast := sameGroup_gmWifiRestarted s.gmWifiStop nvs
    rw [restartWaits, if_neg hnot, List.append_nil]
    exact ⟨hlast.knows (hrestarted ▸ hstopped), hlast.waits.trans hstop.waits⟩

/-- The handler of a disconnected event does nothing: it tests a bit that is never set. -/
theorem Knows.staDisconnected (h : Knows s restarted started) (nvs : Nvs) :
    s.wifiEventStaDisconnected nvs = s := by
  refine if_neg (not_not.mpr ?_)
  rw [h.wifiEvents, connectedBit_eventBits]

/-- No task is woken. -/
theorem Knows.resume (h : Knows s restarted started) (nvs : Nvs) : s.resume nvs = s :=
  if_neg (by rw [h.woken]; exact Nat.lt_irrefl 0)

/-- An event that is neither a start nor a restart leaves the group alone. -/
theorem Knows.sameGroup_step (esp : EspNetif) (h : Knows s restarted started) {e : Event}
    (hrestart : e.isRestart = false) (hstart : e.isStaStart = false) :
    SameGroup s (step esp s e) := by
  cases e with
  | staStart nvs => cases hstart
  | staConnected sockets =>
    exact List.foldlRecOn _ _ (SameGroup.refl s) fun t ht k _ =>
      ht.trans (sameGroup_wifiEventStaConnectedToAp t (sockets k))
  | staDisconnected nvs =>
    rw [step, h.staDisconnected nvs]
    exact .refl s
  | staGotIp4 ip4 => exact .iterate (fun t => sameGroup_ipEventStaGotIp4 t ip4) _ s
  | gotIp6 netifName ip => exact .iterate (fun t => sameGroup_ipEventGotIp6 t esp netifName ip) _ s
  | packet m address => exact .iterate (fun t => sameGroup_incomingPacket t m address) _ s
  | restart nvs => cases hrestart
  | resume nvs =>
    rw [step, h.resume nvs]
    exact .refl s

/-- **One event**: what the group knows after it, and the wait it began. -/
theorem Knows.step (h : Knows s restarted started) (e : Event) :
    Knows (step esp s e) (restarted || e.isRestart) (started || e.isStaStart) ∧
      (Wifi.step esp s e).waits
        = s.waits ++ if e.isRestart then restartWaits restarted started else [] := by
  by_cases hrestart : e.isRestart = true
  · cases e with
    | restart nvs =>
      simp only [Event.isRestart, Event.isStaStart, Bool.or_true, Bool.or_false, if_true]
      exact h.restart nvs
    | _ => cases hrestart
  · rw [if_neg hrestart, List.append_nil]
    rw [Bool.not_eq_true] at hrestart
    by_cases hstart : e.isStaStart = true
    · cases e with
      | staStart nvs =>
        simp only [Event.isRestart, Event.isStaStart, Bool.or_true, Bool.or_false]
        exact h.staStart nvs
      | _ => cases hstart
    · rw [Bool.not_eq_true] at hstart
      have hsame := h.sameGroup_step esp hrestart hstart
      rw [hrestart, hstart, Bool.or_false, Bool.or_false]
      exact ⟨hsame.knows h, hsame.waits⟩

end Step

/-! ## Runs -/

section Run

variable (esp : EspNetif)

theorem run_append (events : List Event) (e : Event) :
    run esp (events ++ [e]) = step esp (run esp events) e := by
  rw [run, List.foldl_append, List.foldl_cons, List.foldl_nil, run]

/-- **What the group knows after a run.** -/
theorem knows_run (events : List Event) :
    Knows (run esp events) (restarted events) (started events) := by
  induction events using List.reverseRecOn with
  | nil => exact ⟨rfl, fun h => absurd h (Nat.lt_irrefl 0), rfl⟩
  | append_singleton events e ih =>
    rw [run_append, restarted, started, List.any_append, List.any_append, List.any_cons,
      List.any_cons, List.any_nil, List.any_nil, Bool.or_false, Bool.or_false]
    exact (ih.step e).1

theorem served_restartWaits (restarted started : Bool) :
    (∀ bits ∈ restartWaits restarted started, Served bits) ↔
      ¬ (restarted = true ∧ started = true) := by
  unfold restartWaits
  split_ifs with hwaits
  · rw [List.forall_mem_singleton]
    revert hwaits
    cases restarted <;> cases started <;> decide
  · exact iff_of_true (fun bits hbits => absurd hbits List.not_mem_nil) fun h => hwaits (.inr h.2)

/-- One more restart. -/
theorem restartsAgain_append (events : List Event) (e : Event) :
    RestartsAgain (events ++ [e]) ↔
      RestartsAgain events ∨ e.isRestart = true ∧ restarted events = true ∧ started events = true := by
  constructor
  · rintro ⟨before, nvs, after, heq, hearlier⟩
    rcases List.eq_nil_or_concat after with rfl | ⟨after, e', rfl⟩
    · obtain ⟨rfl, he⟩ := List.append_inj' heq rfl
      obtain rfl := List.singleton_injective he
      exact .inr ⟨rfl, hearlier⟩
    · rw [List.concat_eq_append, ← List.cons_append, ← List.append_assoc] at heq
      obtain ⟨rfl, -⟩ := List.append_inj' heq rfl
      exact .inl ⟨before, nvs, after, rfl, hearlier⟩
  · rintro (⟨before, nvs, after, rfl, hearlier⟩ | ⟨he, hearlier⟩)
    · exact ⟨before, nvs, after ++ [e], by rw [List.append_assoc, List.cons_append], hearlier⟩
    · cases e with
      | restart nvs => exact ⟨events, nvs, [], rfl, hearlier⟩
      | _ => cases he

/-- **Every wait can end, exactly when no restart comes after both a restart and a start.** -/
theorem waits_run (events : List Event) :
    (∀ bits ∈ (run esp events).waits, Served bits) ↔ ¬ RestartsAgain events := by
  induction events using List.reverseRecOn with
  | nil =>
    refine iff_of_true (fun bits hbits => absurd hbits List.not_mem_nil) ?_
    rintro ⟨before, nvs, after, heq, -⟩
    exact List.append_ne_nil_of_right_ne_nil _ (List.cons_ne_nil _ _) heq.symm
  | append_singleton events e ih =>
    rw [run_append, ((knows_run esp events).step e).2, List.forall_mem_append, ih,
      restartsAgain_append, not_or]
    refine and_congr_right fun _ => ?_
    split_ifs with he
    · rw [served_restartWaits, and_iff_right he]
    · exact iff_of_true (fun bits hbits => absurd hbits List.not_mem_nil) fun h => he h.1

/-- **The event bits follow the connection exactly when it is there as long as there was no restart,
or the station has started**, and no restart comes after both. -/
theorem tracksConnection_iff (events : List Event) :
    TracksConnection esp events ↔
      (ConnectedSince esp events ↔ restarted events = false ∨ started events = true) ∧
        ¬ RestartsAgain events := by
  have hconnected := (knows_run esp events).gmWifiIsConnected_iff
  constructor
  · intro h
    exact ⟨h.connected.symm.trans hconnected, (waits_run esp events).mp h.waits⟩
  · rintro ⟨hsince, hagain⟩
    exact ⟨hconnected.trans hsince.symm, (waits_run esp events).mpr hagain⟩

end Run

/-! ## Changing the network twice -/

/-- An access point, with a password. -/
def someNvs : Nvs := ⟨some [104, 97, 109], some [112, 97, 115, 115]⟩

/-- The station starts and connects, and is restarted twice. -/
def restartedTwice : List Event :=
  [.staStart someNvs, .staConnected fun _ => 54, .restart someNvs, .staDisconnected someNvs,
    .staConnected fun k => 55 + k, .restart someNvs]

/-- **The second restart waits for ever**: the disconnected bit is clear, and so is the connected
bit.  Before anything has happened, the station is taken to be connected. -/
theorem not_tracksConnection_restartedTwice :
    ¬ TracksConnection Pcp.lwipNetif restartedTwice ∧ ¬ TracksConnection Pcp.lwipNetif [] := by
  constructor
  · intro h
    exact (waits_run _ _).mp h.waits
      ⟨restartedTwice.take 5, someNvs, [], rfl, by decide, by decide⟩
  · intro h
    obtain ⟨before, sockets, after, heq, -⟩ := h.connected.mp (by decide)
    exact List.append_ne_nil_of_right_ne_nil _ (List.cons_ne_nil _ _) heq.symm

end Wifi
