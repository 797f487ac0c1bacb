import HtFirmware.Pcp.State
import HtFirmware.Support.AllZeroes

/-!
# Wifi/Station — the station's event handlers, and restarting it

The state is what `wifi.c` and `icmpv6.c` keep: the event bits, the flag for the IPv6 mapping, the
sockets listening for router advertisements, how often the handlers of `wifi_connect_to_ap` are
registered, and the interfaces of the global `GM`.  What else is called is logged, in order.

A task in `gm_wifi_restart` may have to wait for the disconnected bit: it is then one of `waiting`,
and of `woken` once the bit was set, and `resume` is the rest of its restart.
-/

open Machinery

namespace Wifi

open Pcp (EspNetif Family GmInterfaceIndex SockAddr)

/-! ## Event bits -/

/-- `EventBits_t`. -/
abbrev EventBits := UInt32

def connectedBit : EventBits := 1
def disconnectedBit : EventBits := 2
def stationReadyBit : EventBits := 4

/-! ## Interfaces -/

structure GmNetifIp4 extends Pcp.GmNetifIp4 where
  netmask : Bytes 4 := fun _ => 0
  deriving DecidableEq

structure GmNetifIp6 extends Pcp.GmNetifIp6 where
  siteUnique : Bytes 16 := fun _ => 0
  deriving DecidableEq

/-- The addresses of an interface (`gm_netif_t`). -/
structure GmNetif where
  ip4 : GmNetifIp4 := {}
  ip6 : GmNetifIp6 := {}
  deriving DecidableEq

/-- The IPv6 addresses of an interface. -/
def GmNetifIp6.addresses (ip6 : GmNetifIp6) : List (Bytes 16) :=
  [ip6.linkLocal, ip6.siteLocal, ip6.siteUnique] ++ List.ofFn ip6.global

/-- The addresses of the record are words. -/
def aligned : Fin 4 := Pcp.Frame.aligned.alignment

/-- The loop of `ip_event_got_ip6` over the global addresses.  A free entry is one whose first word
is zero: the size it gives `gm_all_zeroes` is that of a pointer. -/
def storeGlobal (ip : Bytes 16) (global : Fin 3 → Bytes 16) : List (Fin 3) → Fin 3 → Bytes 16
  | [] => global
  | i :: is =>
    if global i = ip then global
    else if Support.gmAllZeroes aligned (List.ofFn (global i)) 4 = some true then
      Function.update global i ip
    else storeGlobal ip global is

/-- Where an address goes. -/
def storeIp6 (esp : EspNetif) (ip : Bytes 16) (ip6 : GmNetifIp6) : GmNetifIp6 :=
  match esp.getAddrType ip with
  | .unknown => ip6
  | .global => { ip6 with global := storeGlobal ip ip6.global (List.finRange 3).dropLast }
  | .linkLocal => { ip6 with linkLocal := ip }
  | .siteLocal => { ip6 with siteLocal := ip }
  | .uniqueLocal => { ip6 with siteUnique := ip }
  | .ipv4MappedIpv6 => ip6

/-- The interface a name stands for. -/
def interfaceNamed (netifName : String) : Option GmInterfaceIndex :=
  if netifName = "st1" then some .sta
  else if netifName = "ap1" then some .ap
  else if netifName = "et1" then some .eth
  else none

/-! ## Calls -/

inductive AuthMode where
  | wifiAuthOpen
  | wifiAuthWep
  deriving DecidableEq

/-- `wifi_config_t`, for a station. -/
structure StaConfig where
  ssid : List UInt8
  password : List UInt8
  authmode : AuthMode
  deriving DecidableEq

/-- A call of another part of the program, or of the platform.  A wait has the event bits it begins
at. -/
inductive Call where
  | startWebserver
  | stopWebserver
  | gmLogServerStart
  | gmLogServerStop
  | gmSntpStart
  | gmSntpStop
  | gmStun (ipv6 : Bool)
  | gmStunStop
  | gmPcpStart (f : Family)
  | gmPcpRequestMapping (f : Family)
  | gmPcpStop
  | espNetifCreateIp6Linklocal
  | dhcp6EnableStateful
  | dhcp6EnableStateless
  | espWifiConnect (cfg : StaConfig)
  | espWifiDisconnect
  | waitUntilDisconnected (bits : EventBits)
  deriving DecidableEq

/-- What `nvs_get_str` returns for `ssid` and `wifi_password`, without the terminator. -/
structure Nvs where
  ssid : Option (List UInt8)
  wifiPassword : Option (List UInt8)

/-- What the handlers read of an ICMPv6 packet. -/
structure Icmpv6Message where
  type : UInt8
  sourceAddress : Bytes 16
  routerLifetime : UInt16

def icmpv6RouterAdvertisement : UInt8 := 134

/-- **The message is a valid router advertisement.** -/
def Icmpv6Message.Valid (m : Icmpv6Message) : Prop :=
  m.type = icmpv6RouterAdvertisement ∧ (∃ i, m.sourceAddress i ≠ 0) ∧ 0 < m.routerLifetime

instance (m : Icmpv6Message) : Decidable m.Valid := inferInstanceAs (Decidable (_ ∧ _ ∧ _))

/-! ## The state -/

/-- The state after `gm_wifi_start`, and what becomes of it. -/
structure State where
  wifiEvents : EventBits := disconnectedBit
  waiting : ℕ := 0
  woken : ℕ := 0
  registrations : ℕ := 0
  pcpIpv6Started : Bool := false
  icmpv6Socket : ℤ := -1
  listeners : List ℤ := []
  netInterfaces : GmInterfaceIndex → GmNetif := fun _ => {}
  calls : List Call := []

namespace State

def log (s : State) (calls : List Call) : State := { s with calls := s.calls ++ calls }

/-- Write to an interface. -/
def modify (s : State) (i : GmInterfaceIndex) (write : GmNetif → GmNetif) : State :=
  { s with netInterfaces := Function.update s.netInterfaces i (write (s.netInterfaces i)) }

/-- `xEventGroupSetBits`: whoever waits for the disconnected bit is woken, and clears it. -/
def xEventGroupSetBits (s : State) (bits : EventBits) : State :=
  let set := s.wifiEvents ||| bits
  if set &&& disconnectedBit ≠ 0 ∧ 0 < s.waiting then
    { s with wifiEvents := set &&& ~~~disconnectedBit, waiting := 0, woken := s.woken + s.waiting }
  else { s with wifiEvents := set }

/-- `gm_wifi_is_connected`.  The negations bind first, so that any bit will do. -/
def gmWifiIsConnected (s : State) : Bool :=
  (if s.wifiEvents ≠ 0 then 1 else 0) &&& connectedBit ≠ 0

/-! ## Connecting -/

/-- `wifi_connect_to_ap`. -/
def wifiConnectToAp (s : State) (ssid password : List UInt8) : State :=
  { s with registrations := s.registrations + 1 }.log
    [.espWifiConnect ⟨ssid.take 32, password.take 64,
      if password = [] then .wifiAuthOpen else .wifiAuthWep⟩]

/-- `wifi_event_sta_start`. -/
def wifiEventStaStart (nvs : Nvs) (s : State) : State :=
  match nvs.ssid, nvs.wifiPassword with
  | some ssid, some password =>
    if 1 < ssid.length + 1 then
      (s.wifiConnectToAp ssid password).xEventGroupSetBits stationReadyBit
    else s.xEventGroupSetBits stationReadyBit
  | _, _ => s.xEventGroupSetBits stationReadyBit

/-! ## Restarting -/

/-- `gm_icmpv6_stop_listener_ipv6`. -/
def gmIcmpv6StopListenerIpv6 (s : State) : State :=
  if 0 ≤ s.icmpv6Socket then
    { s with listeners := s.listeners.erase s.icmpv6Socket, icmpv6Socket := -1 }
  else s

/-- `gm_wifi_stop`, up to its test of the connection. -/
def gmWifiStop (s : State) : State :=
  ((s.log [.stopWebserver, .gmLogServerStop]).gmIcmpv6StopListenerIpv6).log
    [.gmPcpStop, .gmStunStop, .gmSntpStop]

/-- `gm_wifi_restart`, from the end of `gm_wifi_stop`. -/
def gmWifiRestarted (nvs : Nvs) (s : State) : State :=
  let s := { s with pcpIpv6Started := false }
  match nvs.ssid, nvs.wifiPassword with
  | some ssid, some password =>
    if 1 < ssid.length + 1 ∧ 1 < password.length + 1 then s.wifiConnectToAp ssid password else s
  | _, _ => s

/-- `gm_wifi_wait_until_disconnected`, and what follows it in `gm_wifi_restart`. -/
def gmWifiWaitUntilDisconnected (nvs : Nvs) (s : State) : State :=
  let bits := s.wifiEvents
  let s := s.log [.waitUntilDisconnected bits]
  if bits &&& disconnectedBit ≠ 0 then
    { s with wifiEvents := bits &&& ~~~disconnectedBit }.gmWifiRestarted nvs
  else { s with waiting := s.waiting + 1 }

/-- `gm_wifi_restart`. -/
def gmWifiRestart (nvs : Nvs) (s : State) : State :=
  let s := s.gmWifiStop
  if s.gmWifiIsConnected then (s.log [.espWifiDisconnect]).gmWifiWaitUntilDisconnected nvs
  else s.gmWifiRestarted nvs

/-- A task that was woken goes on with its restart. -/
def resume (nvs : Nvs) (s : State) : State :=
  if 0 < s.woken then { s with woken := s.woken - 1 }.gmWifiRestarted nvs else s

/-- `wifi_event_sta_disconnected`. -/
def wifiEventStaDisconnected (nvs : Nvs) (s : State) : State :=
  if s.wifiEvents &&& connectedBit ≠ 0 then
    ({ s with wifiEvents := s.wifiEvents &&& ~~~connectedBit }.xEventGroupSetBits
      disconnectedBit).gmWifiRestart nvs
  else s

/-! ## Being connected -/

/-- `gm_icmpv6_start_listener_ipv6`, `fd` being what `socket` returns. -/
def gmIcmpv6StartListenerIpv6 (fd : ℤ) (s : State) : State :=
  if fd < 0 then { s with icmpv6Socket := fd }
  else { s with icmpv6Socket := fd, listeners := s.listeners ++ [fd] }

/-- `wifi_event_sta_connected_to_ap`. -/
def wifiEventStaConnectedToAp (fd : ℤ) (s : State) : State :=
  (s.gmIcmpv6StartListenerIpv6 fd).log
    [.espNetifCreateIp6Linklocal, .dhcp6EnableStateful, .dhcp6EnableStateless]

/-- `ip_event_sta_got_ip4`. -/
def ipEventStaGotIp4 (ip4 : GmNetifIp4) (s : State) : State :=
  (s.modify .sta fun interface => { interface with ip4 }).log
    [.gmSntpStart, .gmStun false, .gmPcpStart .ip4, .gmPcpRequestMapping .ip4, .startWebserver,
      .gmLogServerStart]

/-- `ip_event_got_ip6`. -/
def ipEventGotIp6 (esp : EspNetif) (netifName : String) (ip : Bytes 16) (s : State) : State :=
  match interfaceNamed netifName with
  | none => s
  | some i => s.modify i fun interface =>
      { interface with ip6 := storeIp6 esp ip interface.ip6 }

/-- `ipv6_router_advertisement_handler`. -/
def ipv6RouterAdvertisementHandler (address : Bytes 16) (s : State) : State :=
  let router := (s.netInterfaces .sta).ip6.router
  if Support.gmAllZeroes aligned (List.ofFn router) 16 ≠ some true ∧ router ≠ address then s
  else
    let s := s.modify .sta fun interface =>
      { interface with ip6.router := address }
    if s.pcpIpv6Started then s
    else { s with pcpIpv6Started := true }.log [.gmPcpStart .ip6, .gmPcpRequestMapping .ip6]

/-- `incoming_packet`, `decode_packet` and `decode_router_advertisement`: a listener receives a
packet. -/
def incomingPacket (m : Icmpv6Message) (address : SockAddr) (s : State) : State :=
  match address with
  | .inet _ _ => s
  | .inet6 a _ =>
    if m.type = icmpv6RouterAdvertisement then
      if Support.gmAllZeroes aligned (List.ofFn m.sourceAddress) 16 ≠ some true ∧
          0 < m.routerLifetime then
        s.ipv6RouterAdvertisementHandler a
      else s
    else s

end State

/-! ## Events -/

/-- What happens: an event of the system, a packet, a call of `gm_wifi_restart`, or a task that was
woken going on.  `sockets k` is what the `k`-th call of `socket` returns. -/
inductive Event where
  | staStart (nvs : Nvs)
  | staConnected (sockets : ℕ → ℤ)
  | staDisconnected (nvs : Nvs)
  | staGotIp4 (ip4 : GmNetifIp4)
  | gotIp6 (netifName : String) (ip : Bytes 16)
  | packet (m : Icmpv6Message) (address : SockAddr)
  | restart (nvs : Nvs)
  | resume (nvs : Nvs)

/-- One event.  Each registration of a handler invokes it once, and each listener receives the
packet. -/
def step (esp : EspNetif) (s : State) : Event → State
  | .staStart nvs => s.wifiEventStaStart nvs
  | .staConnected sockets =>
    (List.range s.registrations).foldl (fun s k => s.wifiEventStaConnectedToAp (sockets k)) s
  | .staDisconnected nvs => s.wifiEventStaDisconnected nvs
  | .staGotIp4 ip4 => (State.ipEventStaGotIp4 ip4)^[s.registrations] s
  | .gotIp6 netifName ip => (State.ipEventGotIp6 esp netifName ip)^[s.registrations] s
  | .packet m address => (State.incomingPacket m address)^[s.listeners.length] s
  | .restart nvs => s.gmWifiRestart nvs
  | .resume nvs => s.resume nvs

end Wifi
