import HtFirmware.Machinery.Run
import HtFirmware.Wifi.Connection

/-!
# Wifi/Networks — what a restart leaves of the network before

A restart is how the device changes to another network.  On the connection it makes, the first
router advertisement should give the router and ask for one IPv6 mapping, an IPv4 address should ask
for one IPv4 mapping, and the IPv6 addresses should be those learned there (`StartsAfresh`).

But `gm_wifi_stop` clears neither the router nor the addresses, and `wifi_connect_to_ap` registers
the handlers once more each time: the network has to look as if it were the first
(`startsAfresh_iff`).
-/

open Machinery

namespace Wifi

open Pcp (EspNetif Family)

/-! ## Following a run -/

/-- Where a run is: past a restart, on the connection it made (and whether a router was advertised
there), or neither. -/
inductive Phase where
  | other
  | restarted
  | connected (advertised : Bool)
  deriving DecidableEq

/-- A state, with what came before it: the phase, and the IPv6 addresses learned on the connection
a restart made. -/
structure Followed where
  state : State := {}
  phase : Phase := .other
  learned : List (Bytes 16) := []

/-- The phase after an event that leads to `t`.  A restart is over when it connects; a disconnected
event right after it is for the connection before. -/
def phaseAfter (w : Followed) (t : State) : Event → Phase
  | .restart _ => if w.state.registrations < t.registrations then .restarted else .other
  | .resume _ => if w.state.registrations < t.registrations then .restarted else w.phase
  | .staDisconnected _ =>
    if w.state.registrations < t.registrations ∨ w.phase = .restarted then .restarted else .other
  | .staConnected _ => if w.phase = .restarted then .connected false else w.phase
  | .packet m (.inet6 _ _) =>
    if m.Valid ∧ w.phase = .connected false then .connected true else w.phase
  | .packet _ (.inet _ _) | .staStart _ | .staGotIp4 _ | .gotIp6 _ _ => w.phase

/-- The station's addresses learned, once the phase is what it is. -/
def learnedAfter (w : Followed) : Phase → Event → List (Bytes 16)
  | .connected _, .gotIp6 netifName ip =>
    if interfaceNamed netifName = some .sta then ip :: w.learned else w.learned
  | .connected _, _ => w.learned
  | _, _ => []

/-- One event. -/
def follow (esp : EspNetif) (w : Followed) (e : Event) : Followed :=
  let t := step esp w.state e
  let phase := phaseAfter w t e
  { state := t, phase, learned := learnedAfter w phase e }

def State.router (s : State) : Bytes 16 := (s.netInterfaces .sta).ip6.router

/-- The station's IPv6 addresses. -/
def State.addresses (s : State) : List (Bytes 16) := (s.netInterfaces .sta).ip6.addresses

/-- How many mappings were asked for. -/
def State.requests (s : State) (f : Family) : ℕ := s.calls.count (.gmPcpRequestMapping f)

/-- **After a restart everything is new**: the first router advertisement of the connection gives
the router and asks for one mapping, an IPv4 address asks for one mapping, and no IPv6 address is
left of an earlier connection. -/
structure StartsAfresh (esp : EspNetif) (w : Followed) (e : Event) : Prop where
  router : ∀ m a port, e = .packet m (.inet6 a port) → m.Valid → w.phase = .connected false →
    (follow esp w e).state.router = a ∧
      (follow esp w e).state.requests .ip6 = w.state.requests .ip6 + 1
  mapping : ∀ ip4, e = .staGotIp4 ip4 → (∃ advertised, w.phase = .connected advertised) →
    (follow esp w e).state.requests .ip4 = w.state.requests .ip4 + 1
  addresses : (follow esp w e).phase ≠ .other → ∀ a ∈ (follow esp w e).state.addresses,
    a ≠ (fun _ => 0) → a ∈ (follow esp w e).learned

/-- Every event of a run. -/
def Afresh (esp : EspNetif) (events : List Event) : Prop :=
  ∀ v ∈ visits (fun w e => some (follow esp w e)) {} events, StartsAfresh esp v.1 v.2

/-! ## When it does -/

/-- Both `ssid` and `wifi_password` are set. -/
def Nvs.Complete (nvs : Nvs) : Prop :=
  ∃ ssid password, nvs.ssid = some ssid ∧ nvs.wifiPassword = some password ∧ ssid ≠ [] ∧
    password ≠ []

/-- A restart comes to its connect: it has nothing to wait for, or the bit is set. -/
def Reconnects (s : State) (nvs : Nvs) : Prop :=
  (s.wifiEvents ≠ 0 → s.wifiEvents &&& disconnectedBit ≠ 0) ∧ nvs.Complete

/-- An address of this kind is stored. -/
def Stored (esp : EspNetif) (ip : Bytes 16) : Prop :=
  esp.getAddrType ip ≠ .unknown ∧ esp.getAddrType ip ≠ .ipv4MappedIpv6

/-- **The event finds nothing of an earlier network**: at the first advertisement there is a
listener, no mapping was asked for, and the router is no other; at an IPv4 address the handlers are
registered once; no IPv6 address is there at a restart, nor learned before the connection it
makes. -/
def FindsNothing (esp : EspNetif) (w : Followed) : Event → Prop
  | .packet m address => ∀ a port, address = .inet6 a port → m.Valid → w.phase = .connected false →
      w.state.listeners ≠ [] ∧ w.state.pcpIpv6Started = false ∧
        (w.state.router = (fun _ => 0) ∨ w.state.router = a)
  | .staGotIp4 _ =>
    (∃ advertised, w.phase = .connected advertised) → w.state.registrations = 1
  | .gotIp6 netifName ip => w.phase = .restarted → interfaceNamed netifName = some .sta →
      Stored esp ip → ip = fun _ => 0
  | .restart nvs => Reconnects w.state nvs → ∀ a ∈ w.state.addresses, a = fun _ => 0
  | _ => True

/-! ## What the events leave alone -/

/-- The station's IPv6 addresses are as they were, and no registration is lost. -/
structure KeepsStation (s t : State) : Prop where
  addresses : t.addresses = s.addresses
  registrations : s.registrations ≤ t.registrations

namespace KeepsStation

variable {s t u : State}

theorem refl (s : State) : KeepsStation s s := ⟨rfl, Nat.le_refl _⟩

theorem trans (h : KeepsStation s t) (h' : KeepsStation t u) : KeepsStation s u :=
  ⟨h'.addresses.trans h.addresses, Nat.le_trans h.registrations h'.registrations⟩

theorem iterate {f : State → State} (hf : ∀ s, KeepsStation s (f s)) (n : ℕ) (s : State) :
    KeepsStation s (f^[n] s) :=
  Function.Iterate.rec (KeepsStation s) (refl s) (fun t ht => ht.trans (hf t)) n

end KeepsStation

section Keeps

variable (s : State)

theorem keepsStation_wifiConnectToAp (ssid password : List UInt8) :
    KeepsStation s (s.wifiConnectToAp ssid password) := ⟨rfl, Nat.le_succ _⟩

theorem keepsStation_xEventGroupSetBits (bits : EventBits) :
    KeepsStation s (s.xEventGroupSetBits bits) := by
  unfold State.xEventGroupSetBits
  dsimp only
  split_ifs
  exacts [⟨rfl, Nat.le_refl _⟩, ⟨rfl, Nat.le_refl _⟩]

theorem keepsStation_wifiEventStaStart (nvs : Nvs) : KeepsStation s (s.wifiEventStaStart nvs) := by
  unfold State.wifiEventStaStart
  split
  · split_ifs
    · exact (keepsStation_wifiConnectToAp s _ _).trans (keepsStation_xEventGroupSetBits _ _)
    · exact keepsStation_xEventGroupSetBits s _
  · exact keepsStation_xEventGroupSetBits s _

theorem keepsStation_wifiEventStaConnectedToAp (fd : ℤ) :
    KeepsStation s (s.wifiEventStaConnectedToAp fd) := by
  unfold State.wifiEventStaConnectedToAp State.gmIcmpv6StartListenerIpv6
  split_ifs
  exacts [⟨rfl, Nat.le_refl _⟩, ⟨rfl, Nat.le_refl _⟩]

/-- What `gm_wifi_stop` leaves alone. -/
theorem gmWifiStop_eq : s.gmWifiStop.addresses = s.addresses ∧
    s.gmWifiStop.registrations = s.registrations ∧ s.gmWifiStop.wifiEvents = s.wifiEvents := by
  have hclose (s : State) : s.gmIcmpv6StopListenerIpv6.addresses = s.addresses ∧
      s.gmIcmpv6StopListenerIpv6.registrations = s.registrations ∧
      s.gmIcmpv6StopListenerIpv6.wifiEvents = s.wifiEvents := by
    unfold State.gmIcmpv6StopListenerIpv6
    split_ifs
    exacts [⟨rfl, rfl, rfl⟩, ⟨rfl, rfl, rfl⟩]
  exact hclose (s.log [.stopWebserver, .gmLogServerStop])

theorem keepsStation_gmWifiRestarted (nvs : Nvs) : KeepsStation s (s.gmWifiRestarted nvs) := by
  unfold State.gmWifiRestarted
  dsimp only
  split
  · split_ifs
    exacts [⟨rfl, Nat.le_succ _⟩, ⟨rfl, Nat.le_refl _⟩]
  · exact ⟨rfl, Nat.le_refl _⟩

/-- The end of a restart connects when both settings are there. -/
theorem gmWifiRestarted_connects (nvs : Nvs) :
    s.registrations < (s.gmWifiRestarted nvs).registrations ↔ nvs.Complete := by
  unfold State.gmWifiRestarted
  dsimp only
  split
  · rename_i ssid password hssid hpassword
    have hset : (1 < ssid.length + 1 ∧ 1 < password.length + 1) ↔ nvs.Complete := by
      rw [Nat.lt_add_left_iff_pos, Nat.lt_add_left_iff_pos, List.length_pos_iff,
        List.length_pos_iff]
      constructor
      · rintro ⟨hs, hp⟩
        exact ⟨ssid, password, hssid, hpassword, hs, hp⟩
      · rintro ⟨ssid', password', hssid', hpassword', hs, hp⟩
        obtain rfl := Option.some.inj (hssid.symm.trans hssid')
        obtain rfl := Option.some.inj (hpassword.symm.trans hpassword')
        exact ⟨hs, hp⟩
    split_ifs with h
    · exact iff_of_true (Nat.lt_succ_self _) (hset.mp h)
    · exact iff_of_false (Nat.lt_irrefl _) fun hcomplete => h (hset.mpr hcomplete)
  · rename_i hnot
    refine iff_of_false (Nat.lt_irrefl _) ?_
    rintro ⟨ssid, password, hssid, hpassword, -⟩
    exact hnot ssid password hssid hpassword

/-- **A restart leaves the addresses alone**, and connects unless it has to wait for a bit that is
clear. -/
theorem gmWifiRestart_connects (nvs : Nvs) : KeepsStation s (s.gmWifiRestart nvs) ∧
    (s.registrations < (s.gmWifiRestart nvs).registrations ↔ Reconnects s nvs) := by
  obtain ⟨haddresses, hregistrations, hevents⟩ := gmWifiStop_eq s
  have hlast (t : State) (ht : t.addresses = s.addresses ∧ t.registrations = s.registrations) :
      KeepsStation s (t.gmWifiRestarted nvs) ∧
        (s.registrations < (t.gmWifiRestarted nvs).registrations ↔ nvs.Complete) := by
    have hkeeps := keepsStation_gmWifiRestarted t nvs
    rw [← ht.2]
    exact ⟨⟨hkeeps.addresses.trans ht.1, ht.2 ▸ hkeeps.registrations⟩,
      gmWifiRestarted_connects t nvs⟩
  unfold State.gmWifiRestart
  dsimp only
  split_ifs with hconnected
  · rw [gmWifiIsConnected_iff, hevents] at hconnected
    unfold State.gmWifiWaitUntilDisconnected
    dsimp only
    split_ifs with hbit
    · change s.gmWifiStop.wifiEvents &&& _ ≠ _ at hbit
      rw [hevents] at hbit
      obtain ⟨hkeeps, hiff⟩ := hlast
        { (s.gmWifiStop.log [.espWifiDisconnect]).log
            [.waitUntilDisconnected s.gmWifiStop.wifiEvents] with
          wifiEvents := s.gmWifiStop.wifiEvents &&& ~~~disconnectedBit }
        ⟨haddresses, hregistrations⟩
      exact ⟨hkeeps, hiff.trans (and_iff_right fun _ => hbit).symm⟩
    · change ¬ s.gmWifiStop.wifiEvents &&& _ ≠ _ at hbit
      rw [hevents] at hbit
      exact ⟨⟨haddresses, hregistrations.ge⟩,
        iff_of_false hregistrations.not_gt fun h => hbit (h.1 hconnected)⟩
  · rw [gmWifiIsConnected_iff, hevents] at hconnected
    obtain ⟨hkeeps, hiff⟩ := hlast s.gmWifiStop ⟨haddresses, hregistrations⟩
    exact ⟨hkeeps, hiff.trans (and_iff_right fun h => absurd h hconnected).symm⟩

end Keeps

/-! ## Router advertisements -/

section Advertisement

variable {s : State} {m : Icmpv6Message}

/-- The zero test, on addresses. -/
theorem gmAllZeroes_address (a : Bytes 16) :
    Support.gmAllZeroes aligned (List.ofFn a) 16 = some true ↔ a = fun _ => 0 := by
  have hzeroes : Support.gmAllZeroes aligned (List.ofFn a) 16 = _ := Support.gmAllZeroes_sixteen a
  rw [hzeroes, Option.some_inj, decide_eq_true_iff, funext_iff]

/-- Only a valid advertisement reaches the handler. -/
theorem incomingPacket_inet6 (a : Bytes 16) (port : UInt16) :
    s.incomingPacket m (.inet6 a port)
      = if m.type = icmpv6RouterAdvertisement ∧ m.sourceAddress ≠ (fun _ => 0) ∧
          0 < m.routerLifetime then s.ipv6RouterAdvertisementHandler a else s := by
  unfold State.incomingPacket
  dsimp only
  simp only [ne_eq, gmAllZeroes_address]
  split_ifs <;> tauto

theorem incomingPacket_of_valid (hm : m.Valid) (a : Bytes 16) (port : UInt16) :
    s.incomingPacket m (.inet6 a port) = s.ipv6RouterAdvertisementHandler a := by
  rw [incomingPacket_inet6, if_pos]
  exact ⟨hm.1, fun h => hm.2.1.elim fun i hi => hi (congrFun h i), hm.2.2⟩

/-- Another router is ignored. -/
theorem handler_of_other {a : Bytes 16} (hzero : s.router ≠ fun _ => 0) (ha : s.router ≠ a) :
    s.ipv6RouterAdvertisementHandler a = s :=
  if_pos ⟨(gmAllZeroes_address _).not.mpr hzero, ha⟩

/-- Any other advertisement gives the router, and asks for a mapping if none was asked for. -/
theorem handler_of_same {a : Bytes 16} (h : s.router = (fun _ => 0) ∨ s.router = a) :
    s.ipv6RouterAdvertisementHandler a
      = if s.pcpIpv6Started then
          s.modify .sta fun interface => { interface with ip6.router := a }
        else { s.modify .sta fun interface => { interface with ip6.router := a } with
            pcpIpv6Started := true }.log [.gmPcpStart .ip6, .gmPcpRequestMapping .ip6] := by
  refine if_neg ?_
  rintro ⟨hzero, ha⟩
  exact h.elim ((gmAllZeroes_address _).not.mp hzero) ha

theorem keepsStation_incomingPacket (s : State) (m : Icmpv6Message) (address : Pcp.SockAddr) :
    KeepsStation s (s.incomingPacket m address) := by
  unfold State.incomingPacket
  split
  · exact .refl s
  · split_ifs
    · unfold State.ipv6RouterAdvertisementHandler
      dsimp only
      split_ifs
      exacts [.refl s, ⟨rfl, Nat.le_refl _⟩, ⟨rfl, Nat.le_refl _⟩]
    · exact .refl s
    · exact .refl s

/-- A router that is known already is only noted again. -/
theorem handler_again {a : Bytes 16} (hrouter : s.router = a) (hstarted : s.pcpIpv6Started = true) :
    (s.ipv6RouterAdvertisementHandler a).router = a ∧
      (s.ipv6RouterAdvertisementHandler a).pcpIpv6Started = true ∧
      (s.ipv6RouterAdvertisementHandler a).requests .ip6 = s.requests .ip6 := by
  rw [handler_of_same (.inr hrouter), if_pos hstarted]
  exact ⟨rfl, hstarted, rfl⟩

/-- However many more listeners there are. -/
theorem handler_iterate {a : Bytes 16} (hrouter : s.router = a)
    (hstarted : s.pcpIpv6Started = true) (n : ℕ) :
    ((State.ipv6RouterAdvertisementHandler a)^[n] s).router = a ∧
      ((State.ipv6RouterAdvertisementHandler a)^[n] s).pcpIpv6Started = true ∧
      ((State.ipv6RouterAdvertisementHandler a)^[n] s).requests .ip6 = s.requests .ip6 :=
  Function.Iterate.rec
    (fun t : State => t.router = a ∧ t.pcpIpv6Started = true ∧ t.requests .ip6 = s.requests .ip6)
    ⟨hrouter, hstarted, rfl⟩
    (fun _ ⟨hr, hs, hcount⟩ =>
      ⟨(handler_again hr hs).1, (handler_again hr hs).2.1, (handler_again hr hs).2.2.trans hcount⟩)
    n

/-- An advertisement of the router, or of the first one, as many listeners as receive it. -/
theorem handler_deliver {a : Bytes 16} (h : s.router = (fun _ => 0) ∨ s.router = a) (n : ℕ) :
    ((State.ipv6RouterAdvertisementHandler a)^[n + 1] s).router = a ∧
      ((State.ipv6RouterAdvertisementHandler a)^[n + 1] s).requests .ip6
        = s.requests .ip6 + if s.pcpIpv6Started then 0 else 1 := by
  have hfirst := handler_of_same h
  rw [Function.iterate_succ_apply]
  split_ifs at hfirst ⊢ with hstarted
  · obtain ⟨hrouter, -, hcount⟩ := handler_iterate (s := s.ipv6RouterAdvertisementHandler a) (a := a)
      (by rw [hfirst]; rfl) (by rw [hfirst]; exact hstarted) n
    refine ⟨hrouter, hcount.trans ?_⟩
    rw [hfirst]
    rfl
  · obtain ⟨hrouter, -, hcount⟩ := handler_iterate (s := s.ipv6RouterAdvertisementHandler a) (a := a)
      (by rw [hfirst]; rfl) (by rw [hfirst]; rfl) n
    refine ⟨hrouter, hcount.trans ?_⟩
    rw [hfirst]
    exact List.count_append

/-- **A valid advertisement gives the router and asks for one mapping** exactly when somebody
listens, none was asked for, and no other router is remembered. -/
theorem packet_iff (hm : m.Valid) (a : Bytes 16) (port : UInt16) (n : ℕ) :
    (((State.incomingPacket m (.inet6 a port))^[n] s).router = a ∧
        ((State.incomingPacket m (.inet6 a port))^[n] s).requests .ip6 = s.requests .ip6 + 1) ↔
      n ≠ 0 ∧ s.pcpIpv6Started = false ∧ (s.router = (fun _ => 0) ∨ s.router = a) := by
  have hhandler : State.incomingPacket m (.inet6 a port) = State.ipv6RouterAdvertisementHandler a :=
    funext fun t => incomingPacket_of_valid hm a port
  rw [hhandler]
  cases n with
  | zero => exact iff_of_false (fun h => Nat.succ_ne_self _ h.2.symm) fun h => h.1 rfl
  | succ n =>
    by_cases hsame : s.router = (fun _ => 0) ∨ s.router = a
    · obtain ⟨hrouter, hcount⟩ := handler_deliver hsame n
      rw [and_iff_right hrouter, and_iff_right (Nat.succ_ne_zero n), and_iff_left hsame, hcount,
        Nat.add_left_cancel_iff]
      cases s.pcpIpv6Started <;> decide
    · have hother := handler_of_other (fun h => hsame (.inl h)) fun h => hsame (.inr h)
      rw [Function.iterate_fixed hother]
      exact iff_of_false (fun h => Nat.succ_ne_self _ h.2.symm) fun h => hsame h.2.2

end Advertisement

/-! ## IPv4 addresses -/

section Ip4

variable {s : State}

theorem keepsStation_ipEventStaGotIp4 (s : State) (ip4 : GmNetifIp4) :
    KeepsStation s (s.ipEventStaGotIp4 ip4) := ⟨rfl, Nat.le_refl _⟩

/-- Every registration asks for a mapping. -/
theorem requests_ipEventStaGotIp4 (ip4 : GmNetifIp4) (n : ℕ) :
    ((State.ipEventStaGotIp4 ip4)^[n] s).requests .ip4 = s.requests .ip4 + n := by
  induction n with
  | zero => rfl
  | succ n ih =>
    rw [Function.iterate_succ_apply', ← Nat.add_assoc, ← ih]
    exact List.count_append

end Ip4

/-! ## IPv6 addresses -/

section Ip6

variable {esp : EspNetif} {s : State} {ip : Bytes 16} {ip6 : GmNetifIp6}

theorem GmNetifIp6.mem_addresses {a : Bytes 16} : a ∈ ip6.addresses ↔
    a = ip6.linkLocal ∨ a = ip6.siteLocal ∨ a = ip6.siteUnique ∨ ∃ j, ip6.global j = a := by
  simp only [GmNetifIp6.addresses, List.mem_append, List.mem_cons, List.not_mem_nil, or_false,
    List.mem_ofFn, or_assoc]

/-- The loop replaces one entry at most. -/
theorem storeGlobal_apply (ip : Bytes 16) (global : Fin 3 → Bytes 16) (j : Fin 3) :
    ∀ is, storeGlobal ip global is j = global j ∨ storeGlobal ip global is j = ip := by
  intro is
  induction is with
  | nil => exact .inl rfl
  | cons i is ih =>
    unfold storeGlobal
    split_ifs
    · exact .inl rfl
    · by_cases hj : j = i
      · subst hj
        exact .inr (Function.update_self ..)
      · exact .inl (Function.update_of_ne hj ..)
    · exact ih

/-- No address comes from elsewhere. -/
theorem mem_storeIp6 {a : Bytes 16} (ha : a ∈ (storeIp6 esp ip ip6).addresses) :
    a ∈ ip6.addresses ∨ a = ip := by
  unfold storeIp6 at ha
  split at ha
  · exact .inl ha
  · rw [GmNetifIp6.mem_addresses] at ha ⊢
    obtain hlink | hsite | hunique | ⟨j, rfl⟩ := ha
    · exact .inl (.inl hlink)
    · exact .inl (.inr (.inl hsite))
    · exact .inl (.inr (.inr (.inl hunique)))
    · exact (storeGlobal_apply ip ip6.global j _).imp_left fun h =>
        .inr (.inr (.inr ⟨j, h.symm⟩))
  · rw [GmNetifIp6.mem_addresses] at ha ⊢
    exact ha.elim .inr fun h => .inl (.inr h)
  · rw [GmNetifIp6.mem_addresses] at ha ⊢
    tauto
  · rw [GmNetifIp6.mem_addresses] at ha ⊢
    tauto
  · exact .inl ha

/-- Of another kind, it is dropped. -/
theorem storeIp6_of_not_stored (h : ¬ Stored esp ip) : storeIp6 esp ip ip6 = ip6 := by
  rw [Stored, not_and_or, not_not, not_not] at h
  unfold storeIp6
  obtain h | h := h
  · rw [h]
  · rw [h]

/-- An address of a kind that is stored finds its place, if there are no others. -/
theorem mem_storeIp6_self (hstored : Stored esp ip)
    (halone : ∀ a ∈ ip6.addresses, a = (fun _ => 0) ∨ a = ip) :
    ip ∈ (storeIp6 esp ip ip6).addresses := by
  unfold storeIp6
  split
  · exact absurd ‹_› hstored.1
  · have hloop : (List.finRange 3).dropLast = [0, 1] := by decide
    refine GmNetifIp6.mem_addresses.mpr (.inr (.inr (.inr ⟨0, ?_⟩)))
    dsimp only
    rw [hloop, storeGlobal]
    split_ifs with hthere hfree
    · exact hthere
    · rw [Function.update_self]
    · have hmem := GmNetifIp6.mem_addresses.mpr (.inr (.inr (.inr ⟨0, Eq.refl (ip6.global 0)⟩)))
      have hzero := (halone _ hmem).resolve_right hthere
      rw [hzero] at hfree
      exact absurd (by decide) hfree
  · exact GmNetifIp6.mem_addresses.mpr (.inl rfl)
  · exact GmNetifIp6.mem_addresses.mpr (.inr (.inl rfl))
  · exact GmNetifIp6.mem_addresses.mpr (.inr (.inr (.inl rfl)))
  · exact absurd ‹_› hstored.2

/-- The handler changes the station's addresses where the event is for the station. -/
theorem addresses_ipEventGotIp6 (netifName : String) :
    (s.ipEventGotIp6 esp netifName ip).addresses
      = if interfaceNamed netifName = some .sta then
          (storeIp6 esp ip (s.netInterfaces .sta).ip6).addresses
        else s.addresses := by
  unfold State.ipEventGotIp6
  split
  · rename_i hname
    rw [hname, if_neg (by rintro ⟨⟩)]
  · rename_i i hname
    rw [hname]
    by_cases hi : i = .sta
    · subst hi
      rw [if_pos rfl]
      rfl
    · rw [if_neg fun h => hi (Option.some.inj h), State.addresses, State.modify]
      dsimp only
      rw [Function.update_of_ne (Ne.symm hi)]
      rfl

theorem registrations_ipEventGotIp6 (netifName : String) :
    (s.ipEventGotIp6 esp netifName ip).registrations = s.registrations := by
  unfold State.ipEventGotIp6
  split <;> rfl

/-- What the station has after some invocations was there, or is the event's. -/
theorem mem_iterate_ipEventGotIp6 (esp : EspNetif) (s : State) (ip : Bytes 16) (netifName : String)
    (n : ℕ) : ∀ a,
    a ∈ ((State.ipEventGotIp6 esp netifName ip)^[n] s).addresses →
      a ∈ s.addresses ∨ a = ip ∧ interfaceNamed netifName = some .sta ∧ Stored esp ip := by
  refine Function.Iterate.rec
    (fun t : State => ∀ a ∈ t.addresses,
      a ∈ s.addresses ∨ a = ip ∧ interfaceNamed netifName = some .sta ∧ Stored esp ip)
    (fun a ha => .inl ha) (fun t ht a ha => ?_) n
  rw [addresses_ipEventGotIp6] at ha
  split_ifs at ha with hname
  · by_cases hstored : Stored esp ip
    · exact (mem_storeIp6 ha).elim (ht a) fun h => .inr ⟨h, hname, hstored⟩
    · rw [storeIp6_of_not_stored hstored] at ha
      exact ht a ha
  · exact ht a ha

theorem registrations_iterate_ipEventGotIp6 (netifName : String) (n : ℕ) :
    ((State.ipEventGotIp6 esp netifName ip)^[n] s).registrations = s.registrations :=
  Function.Iterate.rec (fun t : State => t.registrations = s.registrations) rfl
    (fun _ ht => (registrations_ipEventGotIp6 netifName).trans ht) n

/-- **A station without addresses learns one**, unless it is not for it, of a kind that is not
stored, or zero. -/
theorem forall_zero_iterate_iff (esp : EspNetif) (ip : Bytes 16) (netifName : String) {n : ℕ}
    (hn : n ≠ 0)
    (hzero : ∀ a ∈ s.addresses, a = fun _ => 0) :
    (∀ a ∈ ((State.ipEventGotIp6 esp netifName ip)^[n] s).addresses, a = fun _ => 0) ↔
      (interfaceNamed netifName = some .sta → Stored esp ip → ip = fun _ => 0) := by
  constructor
  · intro h hname hstored
    obtain ⟨n, rfl⟩ := Nat.exists_eq_succ_of_ne_zero hn
    refine h ip ?_
    rw [Function.iterate_succ_apply', addresses_ipEventGotIp6, if_pos hname]
    refine mem_storeIp6_self hstored fun a ha => ?_
    exact (mem_iterate_ipEventGotIp6 esp s _ netifName n a ha).imp (hzero a) And.left
  · intro h a ha
    obtain hthere | ⟨rfl, hname, hstored⟩ := mem_iterate_ipEventGotIp6 esp s _ netifName n a ha
    exacts [hzero a hthere, h hname hstored]

end Ip6

/-! ## One event -/

/-- What a run keeps, as long as its events find nothing of an earlier network. -/
structure OnNetwork (w : Followed) : Prop where
  knows : ∃ restarted started, Knows w.state restarted started
  addresses : w.phase ≠ .other → ∀ a ∈ w.state.addresses, a ≠ (fun _ => 0) → a ∈ w.learned
  learned : w.phase = .restarted → w.learned = []
  registered : w.phase ≠ .other → 0 < w.state.registrations

section Step

variable {esp : EspNetif} {w : Followed}

/-- Only an IPv6 address changes the addresses. -/
theorem keepsStation_step (esp : EspNetif) {s : State} {restarted started : Bool}
    (h : Knows s restarted started) {e : Event} (he : ∀ netifName ip, e ≠ .gotIp6 netifName ip) :
    KeepsStation s (step esp s e) := by
  cases e with
  | staStart nvs => exact keepsStation_wifiEventStaStart s nvs
  | staConnected sockets =>
    exact List.foldlRecOn _ _ (KeepsStation.refl s) fun t ht k _ =>
      ht.trans (keepsStation_wifiEventStaConnectedToAp t (sockets k))
  | staDisconnected nvs =>
    rw [step, h.staDisconnected nvs]
    exact .refl s
  | staGotIp4 ip4 => exact .iterate (fun t => keepsStation_ipEventStaGotIp4 t ip4) _ s
  | gotIp6 netifName ip => exact absurd rfl (he netifName ip)
  | packet m address => exact .iterate (fun t => keepsStation_incomingPacket t m address) _ s
  | restart nvs => exact (gmWifiRestart_connects s nvs).1
  | resume nvs =>
    rw [step, h.resume nvs]
    exact .refl s

theorem registrations_step (esp : EspNetif) {s : State} {restarted started : Bool}
    (h : Knows s restarted started) (e : Event) : s.registrations ≤ (step esp s e).registrations := by
  by_cases he : ∃ netifName ip, e = .gotIp6 netifName ip
  · obtain ⟨netifName, ip, rfl⟩ := he
    exact (registrations_iterate_ipEventGotIp6 netifName _).ge
  · exact (keepsStation_step esp h fun netifName ip heq => he ⟨netifName, ip, heq⟩).registrations

/-- A phase comes from another, or from a restart that connects. -/
theorem phaseAfter_ne_other {t : State} {e : Event} (h : phaseAfter w t e ≠ .other) :
    w.phase ≠ .other ∨ w.state.registrations < t.registrations := by
  cases e with
  | staStart | staGotIp4 | gotIp6 => exact .inl h
  | staConnected sockets =>
    rw [phaseAfter] at h
    split_ifs at h with hrestarted
    · exact .inl fun hother => absurd (hrestarted.symm.trans hother) (by decide)
    · exact .inl h
  | staDisconnected nvs =>
    rw [phaseAfter] at h
    split_ifs at h with hcond
    · exact hcond.symm.imp_left fun hrestarted hother =>
        absurd (hrestarted.symm.trans hother) (by decide)
    · exact absurd rfl h
  | packet m address =>
    cases address with
    | inet => exact .inl h
    | inet6 =>
      rw [phaseAfter] at h
      split_ifs at h with hcond
      · exact .inl fun hother => absurd (hcond.2.symm.trans hother) (by decide)
      · exact .inl h
  | restart nvs =>
    rw [phaseAfter] at h
    split_ifs at h with hlt
    · exact .inr hlt
    · exact absurd rfl h
  | resume nvs =>
    rw [phaseAfter] at h
    split_ifs at h with hlt
    · exact .inr hlt
    · exact .inl h

theorem learnedAfter_restarted (e : Event) : learnedAfter w .restarted e = [] := by
  cases e <;> rfl

/-- Where the phase was not left, nothing is forgotten. -/
theorem OnNetwork.learnedAfter_eq (h : OnNetwork w) {phase : Phase} {e : Event}
    (he : ∀ netifName ip, e ≠ .gotIp6 netifName ip) (hother : phase ≠ .other)
    (hphase : phase = .restarted → w.phase = .restarted) : learnedAfter w phase e = w.learned := by
  cases phase with
  | other => exact absurd rfl hother
  | restarted => rw [learnedAfter_restarted, h.learned (hphase rfl)]
  | connected advertised =>
    cases e with
    | gotIp6 netifName ip => exact absurd rfl (he netifName ip)
    | _ => rfl

/-- Any event that does not make the phase, and is no IPv6 address, keeps the addresses in what was
learned. -/
theorem OnNetwork.addresses_follow (esp : EspNetif) (h : OnNetwork w) (e : Event)
    (he : ∀ netifName ip, e ≠ .gotIp6 netifName ip)
    (hbefore : (follow esp w e).phase ≠ .other → w.phase ≠ .other)
    (hphase : (follow esp w e).phase = .restarted → w.phase = .restarted) :
    (follow esp w e).phase ≠ .other → ∀ a ∈ (follow esp w e).state.addresses,
      a ≠ (fun _ => 0) → a ∈ (follow esp w e).learned := by
  obtain ⟨restarted, started, hknows⟩ := h.knows
  intro hother a ha hne
  have haddresses := (keepsStation_step esp hknows he).addresses
  change a ∈ learnedAfter w (follow esp w e).phase e
  rw [h.learnedAfter_eq he hother hphase]
  exact h.addresses (hbefore hother) a (haddresses ▸ ha) hne

/-- An IPv6 address. -/
theorem OnNetwork.gotIp6 (h : OnNetwork w) (netifName : String) (ip : Bytes 16) :
    StartsAfresh esp w (.gotIp6 netifName ip) ↔ FindsNothing esp w (.gotIp6 netifName ip) := by
  have hmem := mem_iterate_ipEventGotIp6 esp w.state ip netifName w.state.registrations
  have hiff : StartsAfresh esp w (.gotIp6 netifName ip) ↔ (w.phase ≠ .other →
      ∀ a ∈ ((State.ipEventGotIp6 esp netifName ip)^[w.state.registrations] w.state).addresses,
        a ≠ (fun _ => 0) → a ∈ learnedAfter w w.phase (.gotIp6 netifName ip)) :=
    ⟨StartsAfresh.addresses, fun h => ⟨by rintro _ _ _ ⟨⟩, by rintro _ ⟨⟩, h⟩⟩
  rw [hiff]
  cases hphase : w.phase with
  | other => exact iff_of_true (absurd rfl) fun h => absurd (hphase.symm.trans h) (by decide)
  | restarted =>
    have hne : w.phase ≠ .other := by
      rw [hphase]
      decide
    have hzero : ∀ a ∈ w.state.addresses, a = fun _ => 0 := by
      intro a ha
      by_contra hnonzero
      have hlearned := h.addresses hne a ha hnonzero
      rw [h.learned hphase] at hlearned
      exact List.not_mem_nil hlearned
    have hall := forall_zero_iterate_iff esp ip netifName
      (Nat.pos_iff_ne_zero.mp (h.registered hne)) hzero
    rw [FindsNothing, forall_prop_of_true hphase, ← hall, learnedAfter_restarted]
    refine ⟨fun h a ha => ?_, fun h _ a ha hnonzero => absurd (h a ha) hnonzero⟩
    by_contra hnonzero
    exact List.not_mem_nil (h (by decide) a ha hnonzero)
  | connected advertised =>
    refine iff_of_true (fun _ a ha hnonzero => ?_) fun h =>
      absurd (hphase.symm.trans h) (by rintro ⟨⟩)
    have hold : a ∈ w.state.addresses → a ∈ w.learned := fun ha =>
      h.addresses (by rw [hphase]; rintro ⟨⟩) a ha hnonzero
    rw [learnedAfter]
    obtain hthere | ⟨rfl, hname, -⟩ := hmem a ha
    · split_ifs
      exacts [List.mem_cons_of_mem _ (hold hthere), hold hthere]
    · rw [if_pos hname]
      exact List.mem_cons_self

/-- A packet. -/
theorem OnNetwork.packet (h : OnNetwork w) (m : Icmpv6Message) (address : Pcp.SockAddr) :
    StartsAfresh esp w (.packet m address) ↔ FindsNothing esp w (.packet m address) := by
  cases address with
  | inet b port =>
    exact iff_of_true ⟨by rintro _ _ _ ⟨⟩, by rintro _ ⟨⟩,
      h.addresses_follow esp _ (by rintro _ _ ⟨⟩) id id⟩ (by rintro _ _ ⟨⟩)
  | inet6 a port =>
    have hphase : (follow esp w (.packet m (.inet6 a port))).phase
        = if m.Valid ∧ w.phase = .connected false then .connected true else w.phase := rfl
    have haddresses := h.addresses_follow esp (.packet m (.inet6 a port))
      (by rintro _ _ ⟨⟩)
      (fun hother hwas => by
        rw [hphase, hwas, if_neg (by rintro ⟨-, ⟨⟩⟩)] at hother
        exact hother rfl)
      (fun hrestarted => by
        rw [hphase] at hrestarted
        split_ifs at hrestarted
        exact hrestarted)
    constructor
    · intro hfresh a' port' heq hm hconnected
      cases heq
      obtain ⟨hlisteners, hrest⟩ :=
        (packet_iff hm a port _).mp (hfresh.router m a port rfl hm hconnected)
      exact ⟨fun hnil => hlisteners (by rw [hnil]; rfl), hrest⟩
    · intro hfinds
      refine ⟨fun m' a' port' heq hm hconnected => ?_, by rintro _ ⟨⟩, haddresses⟩
      cases heq
      obtain ⟨hlisteners, hrest⟩ := hfinds a port rfl hm hconnected
      exact (packet_iff hm a port _).mpr
        ⟨fun hlength => hlisteners (List.length_eq_zero_iff.mp hlength), hrest⟩

/-- A restart. -/
theorem startsAfresh_restart (nvs : Nvs) :
    StartsAfresh esp w (.restart nvs) ↔ FindsNothing esp w (.restart nvs) := by
  obtain ⟨hkeeps, hconnects⟩ := gmWifiRestart_connects w.state nvs
  have hphase : (follow esp w (.restart nvs)).phase
      = if w.state.registrations < (w.state.gmWifiRestart nvs).registrations then .restarted
        else .other := rfl
  constructor
  · intro hfresh hreconnects a ha
    rw [if_pos (hconnects.mpr hreconnects)] at hphase
    by_contra hnonzero
    have hlearned := hfresh.addresses (by rw [hphase]; decide) a (hkeeps.addresses ▸ ha) hnonzero
    change a ∈ learnedAfter w (follow esp w (.restart nvs)).phase _ at hlearned
    rw [hphase, learnedAfter_restarted] at hlearned
    exact List.not_mem_nil hlearned
  · refine fun hfinds => ⟨by rintro _ _ _ ⟨⟩, by rintro _ ⟨⟩, fun hother a ha hnonzero => ?_⟩
    rw [hphase] at hother
    split_ifs at hother with hlt
    · exact absurd (hfinds (hconnects.mp hlt) a (hkeeps.addresses ▸ ha)) hnonzero
    · exact absurd rfl hother

/-- Any other event, as long as it does not make the phase. -/
theorem OnNetwork.startsAfresh_of_phase (h : OnNetwork w) {e : Event}
    (hpacket : ∀ m address, e ≠ .packet m address) (hip4 : ∀ ip4, e ≠ .staGotIp4 ip4)
    (hip6 : ∀ netifName ip, e ≠ .gotIp6 netifName ip)
    (hbefore : (follow esp w e).phase ≠ .other → w.phase ≠ .other)
    (hphase : (follow esp w e).phase = .restarted → w.phase = .restarted) : StartsAfresh esp w e :=
  ⟨fun m _ _ he _ _ => absurd he (hpacket m _), fun ip4 he _ => absurd he (hip4 ip4),
    h.addresses_follow esp e hip6 hbefore hphase⟩

/-- A connection. -/
theorem OnNetwork.staConnected (h : OnNetwork w) (sockets : ℕ → ℤ) :
    StartsAfresh esp w (.staConnected sockets) := by
  have hphase : (follow esp w (.staConnected sockets)).phase
      = if w.phase = .restarted then .connected false else w.phase := rfl
  refine h.startsAfresh_of_phase (by rintro _ _ ⟨⟩) (by rintro _ ⟨⟩) (by rintro _ _ ⟨⟩) ?_ ?_
  · intro hother hwas
    rw [hphase, hwas] at hother
    exact hother rfl
  · intro hrestarted
    rw [hphase] at hrestarted
    split_ifs at hrestarted with hwas
    exact hrestarted

/-- The end of a connection. -/
theorem OnNetwork.staDisconnected (h : OnNetwork w) (nvs : Nvs) :
    StartsAfresh esp w (.staDisconnected nvs) := by
  obtain ⟨restarted, started, hknows⟩ := h.knows
  have hsame : step esp w.state (.staDisconnected nvs) = w.state := hknows.staDisconnected nvs
  have hphase : (follow esp w (.staDisconnected nvs)).phase
      = if w.phase = .restarted then .restarted else .other := by
    rw [follow, hsame]
    dsimp only
    rw [phaseAfter]
    simp only [Nat.lt_irrefl, false_or]
  refine h.startsAfresh_of_phase (by rintro _ _ ⟨⟩) (by rintro _ ⟨⟩) (by rintro _ _ ⟨⟩) ?_ ?_
  · intro hother hwas
    rw [hphase, hwas] at hother
    exact hother rfl
  · intro hrestarted
    rw [hphase] at hrestarted
    split_ifs at hrestarted with hwas
    exact hwas

/-- An IPv4 address. -/
theorem OnNetwork.staGotIp4 (h : OnNetwork w) (ip4 : GmNetifIp4) :
    StartsAfresh esp w (.staGotIp4 ip4) ↔ FindsNothing esp w (.staGotIp4 ip4) := by
  have haddresses := h.addresses_follow esp (.staGotIp4 ip4) (by rintro _ _ ⟨⟩) id id
  have hcount : (follow esp w (.staGotIp4 ip4)).state.requests .ip4
      = w.state.requests .ip4 + w.state.registrations := requests_ipEventStaGotIp4 ip4 _
  constructor
  · intro hfresh hphase
    have hone := hfresh.mapping ip4 rfl hphase
    rw [hcount] at hone
    exact Nat.add_left_cancel hone
  · intro hone
    refine ⟨by rintro _ _ _ ⟨⟩, fun ip4' heq hphase => ?_, haddresses⟩
    rw [hcount, hone hphase]

/-- **A step starts afresh exactly when it finds nothing of an earlier network.** -/
theorem OnNetwork.startsAfresh_iff (h : OnNetwork w) (e : Event) :
    StartsAfresh esp w e ↔ FindsNothing esp w e := by
  cases e with
  | staStart nvs =>
    exact iff_of_true (h.startsAfresh_of_phase (by rintro _ _ ⟨⟩) (by rintro _ ⟨⟩)
      (by rintro _ _ ⟨⟩) id id) trivial
  | staConnected sockets => exact iff_of_true (h.staConnected sockets) trivial
  | staDisconnected nvs => exact iff_of_true (h.staDisconnected nvs) trivial
  | staGotIp4 ip4 => exact h.staGotIp4 ip4
  | gotIp6 netifName ip => exact h.gotIp6 netifName ip
  | packet m address => exact h.packet m address
  | restart nvs => exact startsAfresh_restart nvs
  | resume nvs =>
    obtain ⟨restarted, started, hknows⟩ := h.knows
    have hsame : step esp w.state (.resume nvs) = w.state := hknows.resume nvs
    have hphase : (follow esp w (.resume nvs)).phase = w.phase := by
      rw [follow, hsame]
      exact if_neg (Nat.lt_irrefl _)
    exact iff_of_true (h.startsAfresh_of_phase (by rintro _ _ ⟨⟩) (by rintro _ ⟨⟩)
      (by rintro _ _ ⟨⟩) (fun h => hphase ▸ h) fun h => hphase ▸ h) trivial

/-- **A step that finds nothing of an earlier network keeps what the next one needs.** -/
theorem OnNetwork.follow (h : OnNetwork w) {e : Event} (hfinds : FindsNothing esp w e) :
    OnNetwork (follow esp w e) := by
  obtain ⟨restarted, started, hknows⟩ := h.knows
  refine ⟨⟨_, _, (hknows.step e).1⟩, ((h.startsAfresh_iff e).mpr hfinds).addresses, ?_, ?_⟩
  · intro hphase
    change learnedAfter w (Wifi.follow esp w e).phase e = []
    rw [hphase, learnedAfter_restarted]
  · intro hother
    have hle := registrations_step esp hknows e
    exact (phaseAfter_ne_other hother).elim
      (fun hwas => Nat.lt_of_lt_of_le (h.registered hwas) hle) (Nat.zero_le _).trans_lt

end Step

/-! ## Runs -/

/-- **A run starts afresh after each restart exactly when its events find nothing of an earlier
network.** -/
theorem afresh_iff (esp : EspNetif) (events : List Event) :
    Afresh esp events ↔ ∀ v ∈ visits (fun w e => some (follow esp w e)) {} events,
      FindsNothing esp v.1 v.2 := by
  refine forall_visits_iff (I := OnNetwork) (fun w e h => h.startsAfresh_iff e)
    (fun w e t h hfinds ht => ?_) events {} ?_
  · obtain rfl := Option.some.inj ht
    exact h.follow hfinds
  · exact ⟨⟨false, false, rfl, fun h => absurd h (Nat.lt_irrefl 0), rfl⟩, absurd rfl, fun _ => rfl,
      absurd rfl⟩

/-! ## Moving house -/

/-- An advertisement, as routers send it. -/
def someAdvertisement : Icmpv6Message where
  type := icmpv6RouterAdvertisement
  sourceAddress i := if i.val = 0 then 0xfe else if i.val = 1 then 0x80 else 1
  routerLifetime := 1800

/-- The router at one place, and at another. -/
def homeRouter : Bytes 16 := ![0xfe, 0x80, 0, 0, 0, 0, 0, 0, 0, 0, 0, 0, 0, 0, 0, 1]

def officeRouter : Bytes 16 := ![0xfe, 0x80, 0, 0, 0, 0, 0, 0, 0, 0, 0, 0, 0, 0, 0, 2]

/-- 2001:db8::5, the address at home. -/
def homeAddress : Bytes 16 := ![0x20, 0x01, 0x0d, 0xb8, 0, 0, 0, 0, 0, 0, 0, 0, 0, 0, 0, 5]

/-- The station is at home, and is given another network, where it gets an IPv4 address. -/
def moved : List Event :=
  [.staStart someNvs, .staConnected fun _ => 54, .gotIp6 "st1" homeAddress,
    .packet someAdvertisement (.inet6 homeRouter 0), .restart someNvs, .staDisconnected someNvs,
    .staConnected fun k => 55 + k,
    .staGotIp4 { address := ![10, 0, 0, 7], router := ![10, 0, 0, 1], netmask := ![255, 0, 0, 0] }]

/-- **The other network's router is ignored**: the router is still the one at home, no IPv6 mapping
is asked for but the one there, two IPv4 mappings are, and the address at home is kept. -/
theorem not_afresh_moved :
    ¬ Afresh Pcp.lwipNetif (moved ++ [.packet someAdvertisement (.inet6 officeRouter 0)]) ∧
      (run Pcp.lwipNetif (moved ++ [.packet someAdvertisement (.inet6 officeRouter 0)])).router
        = homeRouter ∧
      (run Pcp.lwipNetif moved).requests .ip6 = 1 ∧ (run Pcp.lwipNetif moved).requests .ip4 = 2 ∧
      homeAddress ∈ (run Pcp.lwipNetif moved).addresses := by
  refine ⟨fun h => ?_, by decide, by decide, by decide, by decide⟩
  have hfresh := h (moved.foldl (follow Pcp.lwipNetif) {}, _) (mem_visits_of_foldlM moved _ rfl)
  exact absurd (hfresh.router _ _ _ rfl (by decide) (by decide)).1 (by decide)

end Wifi
