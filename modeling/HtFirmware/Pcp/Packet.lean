import HtFirmware.Support.AllZeroes
import HtFirmware.Support.MatchBits

/-!
# Pcp/Packet — the packets of the Port Control Protocol

`PcpPacket` is the packed structure of the source, each multi-byte field being the integer a
little-endian CPU loads from it: `htons` and `ntohs` are `swap16`, `htonl` and `ntohl` are `swap32`.
The union of the client address and the response's epoch is one field, read two ways.

A socket address keeps its port as it is on the wire.  Which family `assignSockaddr` gives it
depends on `gmAllZeroes`, hence on where the packet lies and on what follows it: a `Frame`.
The one it should have is that of `sockaddrFor`.
-/

open Machinery

namespace Pcp

/-! ## Constants -/

def pcpAnnounce : UInt8 := 0
def pcpMap : UInt8 := 1
def pcpOpcodeMask : UInt8 := 0x7f
def pcpResponse : UInt8 := 0x80

def portMappingProtocol : UInt8 := 2
def pcpSuccess : UInt8 := 0

/-- MAP and PEER are sent to this port of the router, and answered from it. -/
def pcpServerPort : UInt16 := 5351

def pcpMapPacketSize : ℕ := 60
def pcpAnnouncePacketSize : ℕ := 24

def gmPcpTcp : UInt8 := 6
def requestedMappingDuration : UInt32 := 15 * 60
def httpsPort : UInt16 := 443
def externalHttpsPort : UInt16 := 7300

/-! ## Packets -/

/-- A packet (`pcp_packet_t`). -/
structure PcpPacket where
  version : UInt8 := 0
  opcode : UInt8 := 0
  reserved : UInt8 := 0
  resultCode : UInt8 := 0
  lifetime : UInt32 := 0
  clientAddress : Bytes 16 := fun _ => 0
  nonce : Bytes 12 := fun _ => 0
  protocol : UInt8 := 0
  reserved3 : Bytes 3 := fun _ => 0
  internalPort : UInt16 := 0
  externalPort : UInt16 := 0
  externalAddress : Bytes 16 := fun _ => 0
  remotePeerPort : UInt16 := 0
  reserved1 : UInt16 := 0
  remotePeerAddress : Bytes 16 := fun _ => 0
  deriving DecidableEq

namespace PcpPacket

/-- `response.epoch`, which shares its bytes with the client address of a request. -/
def epoch (p : PcpPacket) : UInt32 :=
  load32 (p.clientAddress 0) (p.clientAddress 1) (p.clientAddress 2) (p.clientAddress 3)

/-- The bytes from the external address on, the address left out. -/
def afterExternal (p : PcpPacket) : List UInt8 :=
  bytes16 p.remotePeerPort ++ bytes16 p.reserved1 ++ List.ofFn p.remotePeerAddress

/-- The bytes from the client address on, the address left out. -/
def afterClient (p : PcpPacket) : List UInt8 :=
  List.ofFn p.nonce ++ [p.protocol] ++ List.ofFn p.reserved3 ++ bytes16 p.internalPort
    ++ bytes16 p.externalPort ++ List.ofFn p.externalAddress ++ p.afterExternal

/-- A response to a MAP request, whole. -/
def IsMapResponse (p : PcpPacket) (messageSize : ℕ) : Prop :=
  p.opcode = pcpMap ||| pcpResponse ∧ pcpMapPacketSize ≤ messageSize

/-- An ANNOUNCE response, whole. -/
def IsAnnounceResponse (p : PcpPacket) (messageSize : ℕ) : Prop :=
  p.opcode = pcpAnnounce ||| pcpResponse ∧ pcpAnnouncePacketSize ≤ messageSize

instance (p : PcpPacket) (n : ℕ) : Decidable (p.IsMapResponse n) :=
  inferInstanceAs (Decidable (_ ∧ _))

instance (p : PcpPacket) (n : ℕ) : Decidable (p.IsAnnounceResponse n) :=
  inferInstanceAs (Decidable (_ ∧ _))

end PcpPacket

/-! ## Socket addresses -/

/-- The two address families, and the two lists of an interface. -/
inductive Family where
  | ip4
  | ip6
  deriving DecidableEq

/-- What the source keeps in a `sockaddr_storage`. -/
inductive SockAddr where
  | inet (address : Bytes 4) (port : UInt16)
  | inet6 (address : Bytes 16) (port : UInt16)
  deriving DecidableEq

namespace SockAddr

/-- The port, which lies at the same place in both families. -/
def port : SockAddr → UInt16
  | inet _ port | inet6 _ port => port

/-- `ss_family`. -/
def family : SockAddr → Family
  | inet _ _ => .ip4
  | inet6 _ _ => .ip6

end SockAddr

/-- The IPv4-mapped IPv6 address `::ffff:a`. -/
def ipv4Mapped (a : Bytes 4) : Bytes 16 :=
  ![0, 0, 0, 0, 0, 0, 0, 0, 0, 0, 0xff, 0xff, a 0, a 1, a 2, a 3]

/-- The address a socket address stands for, as a packet carries it. -/
def SockAddr.pcpAddress : SockAddr → Bytes 16
  | inet a _ => ipv4Mapped a
  | inet6 a _ => a

/-- Where a packet lies: the alignment of its address, and the memory after it. -/
structure Frame where
  alignment : Fin 4
  stack : List UInt8

/-- A packet at a multiple of four, nothing being known of what follows it. -/
def Frame.aligned : Frame := ⟨0, []⟩

/-- `is_ipv4_mapped_ipv6`, `none` for a read past the memory. -/
def isIpv4MappedIpv6 (alignment : Fin 4) (a : Bytes 16) (after : List UInt8) : Option Bool :=
  (Support.gmAllZeroes alignment (List.ofFn a ++ after) 10).map fun zeroes =>
    zeroes && a 10 == 0xff && a 11 == 0xff

/-- `assign_sockaddr`, for a port in host order. -/
def assignSockaddr (alignment : Fin 4) (a : Bytes 16) (after : List UInt8) (port : UInt16) :
    Option SockAddr :=
  (isIpv4MappedIpv6 alignment a after).map fun ipv4 =>
    if ipv4 then .inet ![a 12, a 13, a 14, a 15] (swap16 port) else .inet6 a (swap16 port)

/-- The address is an IPv4-mapped one: ten zero bytes, then two that are `0xff`. -/
def IsMapped (a : Bytes 16) : Prop := (∀ i : Fin 16, i < 10 → a i = 0) ∧ a 10 = 0xff ∧ a 11 = 0xff

instance (a : Bytes 16) : Decidable (IsMapped a) := inferInstanceAs (Decidable (_ ∧ _))

/-- The socket address for an address and a port in host order. -/
def sockaddrFor (a : Bytes 16) (port : UInt16) : SockAddr :=
  if IsMapped a then .inet ![a 12, a 13, a 14, a 15] (swap16 port) else .inet6 a (swap16 port)

/-- The client address and internal port of a packet. -/
def PcpPacket.internalSockaddr (p : PcpPacket) (frame : Frame) : Option SockAddr :=
  assignSockaddr frame.alignment p.clientAddress (p.afterClient ++ frame.stack)
    (swap16 p.internalPort)

/-- The external address and port of a packet. -/
def PcpPacket.externalSockaddr (p : PcpPacket) (frame : Frame) : Option SockAddr :=
  assignSockaddr frame.alignment p.externalAddress (p.afterExternal ++ frame.stack)
    (swap16 p.externalPort)

/-- A packet goes through a socket address with its port unchanged. -/
theorem port_assignSockaddr {alignment : Fin 4} {a : Bytes 16} {after : List UInt8}
    {port : UInt16} {s : SockAddr} (h : assignSockaddr alignment a after port = some s) :
    s.port = swap16 port := by
  obtain ⟨ipv4, -, rfl⟩ := Option.map_eq_some_iff.mp h
  cases ipv4 <;> rfl

theorem port_internalSockaddr {p : PcpPacket} {frame : Frame} {s : SockAddr}
    (h : p.internalSockaddr frame = some s) : s.port = p.internalPort :=
  (port_assignSockaddr h).trans (swap16_swap16 _)

theorem port_externalSockaddr {p : PcpPacket} {frame : Frame} {s : SockAddr}
    (h : p.externalSockaddr frame = some s) : s.port = p.externalPort :=
  (port_assignSockaddr h).trans (swap16_swap16 _)

/-! ## Usable external addresses -/

/-- The kinds of IPv6 address `esp_netif_ip6_get_addr_type` tells apart. -/
inductive Ip6AddrType where
  | unknown
  | global
  | linkLocal
  | siteLocal
  | uniqueLocal
  | ipv4MappedIpv6
  deriving DecidableEq

/-- The network library's `esp_netif_ip6_get_addr_type`: global addresses are those of `2000::/3`,
IPv4-mapped ones those of `::ffff:0:0/96`. -/
structure EspNetif where
  getAddrType : Bytes 16 → Ip6AddrType
  of_global : ∀ a, getAddrType a = .global → a 0 &&& 0xe0 = 0x20
  of_mapped : ∀ a, getAddrType a = .ipv4MappedIpv6 → ∃ b : Bytes 4, a = ipv4Mapped b

/-- The tests of the network library, in its order. -/
def lwipAddrType (a : Bytes 16) : Ip6AddrType :=
  if a 0 &&& 0xe0 = 0x20 then .global
  else if a 0 = 0xfe ∧ a 1 &&& 0xc0 = 0x80 then .linkLocal
  else if a 0 = 0xfe ∧ a 1 &&& 0xc0 = 0xc0 then .siteLocal
  else if a 0 &&& 0xfe = 0xfc then .uniqueLocal
  else if a = ipv4Mapped ![a 12, a 13, a 14, a 15] then .ipv4MappedIpv6
  else .unknown

/-- The network library as it is documented. -/
def lwipNetif : EspNetif where
  getAddrType := lwipAddrType
  of_global a h := by
    unfold lwipAddrType at h
    split_ifs at h with hglobal
    exact hglobal
  of_mapped a h := by
    unfold lwipAddrType at h
    split_ifs at h with _ _ _ _ hmapped
    exact ⟨_, hmapped⟩

/-- The router granted an address the device accepts. -/
def EspNetif.Usable (esp : EspNetif) (a : Bytes 16) : Prop :=
  esp.getAddrType a = .global ∨ esp.getAddrType a = .ipv4MappedIpv6

instance (esp : EspNetif) (a : Bytes 16) : Decidable (esp.Usable a) :=
  inferInstanceAs (Decidable (_ ∨ _))

/-- An IPv4-mapped address is recognized at one alignment only. -/
theorem isIpv4MappedIpv6_ipv4Mapped (alignment : Fin 4) (b : Bytes 4) (after : List UInt8) :
    isIpv4MappedIpv6 alignment (ipv4Mapped b) after = some (alignment == 2) := by
  fin_cases alignment <;> rfl

/-- An address that does not start with a zero is not taken for an IPv4-mapped one. -/
theorem isIpv4MappedIpv6_of_ne_zero {a : Bytes 16} (ha : a 0 ≠ 0) (alignment : Fin 4)
    (after : List UInt8) : isIpv4MappedIpv6 alignment a after = some false :=
  congrArg (Option.map _)
    (Support.gmAllZeroes_of_ne_zero ha alignment (a 1) (a 2) (a 3) _ 10 (by decide))

/-- **A usable external address goes through a socket address unchanged**, whichever family it is
given. -/
theorem externalSockaddr_of_usable {esp : EspNetif} {p : PcpPacket}
    (h : esp.Usable p.externalAddress) (frame : Frame) :
    ∃ s, p.externalSockaddr frame = some s ∧ s.pcpAddress = p.externalAddress ∧
      s.port = p.externalPort := by
  suffices hs : ∃ s, p.externalSockaddr frame = some s ∧ s.pcpAddress = p.externalAddress by
    obtain ⟨s, hs, ha⟩ := hs
    exact ⟨s, hs, ha, port_externalSockaddr hs⟩
  unfold PcpPacket.externalSockaddr assignSockaddr
  rcases h with hglobal | hmapped
  · have hne : p.externalAddress 0 ≠ 0 := by
      intro h0
      have hprefix := esp.of_global _ hglobal
      rw [h0] at hprefix
      exact absurd hprefix (by decide)
    rw [isIpv4MappedIpv6_of_ne_zero hne]
    exact ⟨_, rfl, rfl⟩
  · obtain ⟨b, hb⟩ := esp.of_mapped _ hmapped
    rw [hb, isIpv4MappedIpv6_ipv4Mapped]
    refine ⟨_, rfl, ?_⟩
    cases frame.alignment == 2 <;> rfl

end Pcp
