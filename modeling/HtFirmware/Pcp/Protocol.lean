import HtFirmware.Pcp.State

/-!
# Pcp/Protocol — the Port Control Protocol client

The functions of `port_control_protocol.c`, over the state of `Pcp/State`.  A function that can stop
short returns `Except Fault`; what it printed is left out, and what it read from the clock or from
`malloc` is an argument.
-/

open Machinery

namespace Pcp

/-! ## Choosing an interface -/

/-- The loop of `best_matching_ipv6_address`: the address that agrees with the candidate in more
leading bits than any before it, with how many. -/
def bestMatch (candidate : Bytes 16) (best : Bytes 16 × ℕ) (a : Bytes 16) : Bytes 16 × ℕ :=
  if best.2 < Support.gmMatchBits a candidate then (a, Support.gmMatchBits a candidate) else best

/-- `best_matching_ipv6_address`, with the number of bits it stores. -/
def bestMatchingIpv6Address (interface : GmNetif) (candidate : Bytes 16) : Bytes 16 × ℕ :=
  [interface.ip6.linkLocal, interface.ip6.siteLocal, interface.ip6.global 0,
    interface.ip6.global 1, interface.ip6.global 2].foldl (bestMatch candidate) (fun _ => 0, 0)

/-- How well an interface matches an address. -/
def matchingBits (interface : GmNetif) : SockAddr → ℕ
  | .inet a _ => Support.gmMatchBits interface.ip4.address a
  | .inet6 a _ => (bestMatchingIpv6Address interface a).2

/-- `interface_for_sockaddr`: the first interface to match best, `none` where none matches a bit. -/
def interfaceForSockaddr (gm : Gm) (s : SockAddr) : Option GmInterfaceIndex :=
  (netInterfaceIndices.foldl (fun (best : Option GmInterfaceIndex × ℕ) i =>
    if best.2 < matchingBits (gm.netInterfaces i) s then
      (some i, matchingBits (gm.netInterfaces i) s) else best) (none, 0)).1

/-! ## Lists of records -/

/-- `for_each_mapping` with a coroutine that returns zero: each record is replaced by what the
coroutine makes of it, and what the coroutine sends is collected.  The coroutine is told how many
records came before. -/
def forEachMapping (freed : List ℕ) (f : ℕ → PortMapping → Except Fault (PortMapping × List Sent)) :
    ℕ → List PortMapping → Except Fault (List PortMapping × List Sent)
  | _, [] => .ok ([], [])
  | n, m :: ms =>
    if m.pointer ∈ freed then .error .useAfterFree
    else do
      let s ← f n m
      let rest ← forEachMapping freed f (n + 1) ms
      return (s.1 :: rest.1, s.2 ++ rest.2)

/-- The first record with a nonce. -/
def findIn (freed : List ℕ) (nonce : Bytes 12) : List PortMapping → Except Fault (Option PortMapping)
  | [] => .ok none
  | m :: ms =>
    if m.pointer ∈ freed then .error .useAfterFree
    else if m.nonce = nonce then .ok (some m)
    else findIn freed nonce ms

/-- `find_mapping`. -/
def findMapping (gm : Gm) (nonce : Bytes 12) : Except Fault (Option PortMapping) :=
  findIn gm.freed nonce gm.records

/-- The second half of `remove_pcp_mapping`, over the two lists in turn.  The loop never advances: it
unlinks the record after the head and frees the *head*, or does not end. -/
def removeAfterHead (gm : Gm) (pointer : ℕ) : List Family → Except Fault Gm
  | [] => .ok gm
  | f :: fs =>
    match gm.portMappings .sta f with
    | [] => removeAfterHead gm pointer fs
    | [head] => .error (if head.pointer ∈ gm.freed then .useAfterFree else .diverges)
    | head :: second :: rest =>
      if head.pointer ∈ gm.freed then .error .useAfterFree
      else if second.pointer = pointer then
        .ok { gm.setList .sta f (head :: rest) with freed := head.pointer :: gm.freed }
      else .error .diverges

/-- The record heads a list of the station. -/
def headsList (gm : Gm) (pointer : ℕ) (f : Family) : Bool :=
  (gm.portMappings .sta f).head?.any fun head => head.pointer == pointer

/-- `remove_pcp_mapping`.  The head of a list is unlinked, and not freed. -/
def removePcpMapping (gm : Gm) (m : PortMapping) : Except Fault Gm :=
  if headsList gm m.pointer .ip4 then
    .ok (gm.setList .sta .ip4 (gm.portMappings .sta .ip4).tail)
  else if headsList gm m.pointer .ip6 then
    .ok (gm.setList .sta .ip6 (gm.portMappings .sta .ip6).tail)
  else removeAfterHead gm m.pointer [.ip4, .ip6]

/-! ## Requests -/

/-- The packet of `gm_pcp_request_mapping_ipv4`. -/
def requestPacketIpv4 (gm : Gm) (i : GmInterfaceIndex) (nonce : Bytes 12) : PcpPacket where
  version := portMappingProtocol
  opcode := pcpMap
  lifetime := swap32 requestedMappingDuration
  clientAddress := ipv4Mapped (gm.netInterfaces i).ip4.address
  externalAddress := ipv4Mapped fun _ => 0
  protocol := gmPcpTcp
  internalPort := swap16 httpsPort
  externalPort := swap16 externalHttpsPort
  nonce := nonce

/-- The packet of `gm_pcp_request_mapping_ipv6`. -/
def requestPacketIpv6 (gm : Gm) (nonce : Bytes 12) : PcpPacket where
  version := portMappingProtocol
  opcode := pcpMap
  lifetime := swap32 requestedMappingDuration
  clientAddress := gm.myIpv6Address
  protocol := gmPcpTcp
  internalPort := swap16 httpsPort
  externalPort := swap16 externalHttpsPort
  nonce := nonce

/-- The router of an interface, at the server port. -/
def routerAddress (gm : Gm) (i : GmInterfaceIndex) : Family → SockAddr
  | .ip4 => .inet (gm.netInterfaces i).ip4.router (swap16 pcpServerPort)
  | .ip6 => .inet6 (gm.netInterfaces i).ip6.router (swap16 pcpServerPort)

/-- The packet of a request. -/
def requestPacket (gm : Gm) (f : Family) (i : GmInterfaceIndex) (nonce : Bytes 12) : PcpPacket :=
  match f with
  | .ip4 => requestPacketIpv4 gm i nonce
  | .ip6 => requestPacketIpv6 gm nonce

/-- `gm_pcp_request_mapping_ipv4` and `gm_pcp_request_mapping_ipv6` up to the call of
`save_pcp_mapping`, which is reached if `sendto` succeeds. -/
def gmPcpRequestMapping (gm : Gm) (f : Family) (i : GmInterfaceIndex) (nonce : Bytes 12)
    (status : ℤ) : Gm :=
  { gm with
    sent := gm.sent ++ [⟨gm.socket f, routerAddress gm i f, requestPacket gm f i nonce⟩]
    pending := if status < 0 then gm.pending else gm.pending ++ [⟨requestPacket gm f i nonce, i⟩] }

/-! ## Renewals -/

/-- The packet of `renew_ipv4`, for a record whose external address is `a`.  Its client address is
`::ffff:0.0.0.0`. -/
def renewPacketIpv4 (m : PortMapping) (a : Bytes 4) (port : UInt16) : PcpPacket where
  version := portMappingProtocol
  opcode := pcpMap
  lifetime := swap32 m.lifetime
  clientAddress := ipv4Mapped fun _ => 0
  externalAddress := ipv4Mapped a
  externalPort := swap16 port
  protocol := m.protocol
  internalPort := swap16 m.internal.port
  nonce := m.nonce

/-- The packet of `renew_ipv6`. -/
def renewPacketIpv6 (gm : Gm) (m : PortMapping) (a : Bytes 16) (port : UInt16) : PcpPacket where
  version := portMappingProtocol
  opcode := pcpMap
  lifetime := swap32 m.lifetime
  clientAddress := gm.myIpv6Address
  externalAddress := a
  externalPort := swap16 port
  protocol := m.protocol
  internalPort := swap16 m.internal.port
  nonce := m.nonce

/-- The packet `renew_mapping` builds. -/
def renewPacket (gm : Gm) (m : PortMapping) : PcpPacket :=
  match m.external with
  | .inet a port => renewPacketIpv4 m a port
  | .inet6 a port => renewPacketIpv6 gm m a port

/-- `renew_mapping`: what is sent, by the family of the external address.  The router is read
through the record's interface. -/
def renewMapping (gm : Gm) (m : PortMapping) : Except Fault Sent :=
  match m.interface with
  | none => .error .nullInterface
  | some i =>
    .ok ⟨gm.socket m.external.family, routerAddress gm i m.external.family, renewPacket gm m⟩

/-- `renew_if_granted`. -/
def renewIfGranted (gm : Gm) (m : PortMapping) : Except Fault (PortMapping × List Sent) :=
  match m.type with
  | .granted => (renewMapping gm m).map fun sent => (m, [sent])
  | .request => .ok (m, [])

/-- Run a coroutine over a list of the station, if its family's socket is open. -/
def overStation (gm : Gm) (f : Family)
    (coroutine : ℕ → PortMapping → Except Fault (PortMapping × List Sent)) : Except Fault Gm :=
  if 0 ≤ gm.socket f then
    (forEachMapping gm.freed coroutine 0 (gm.portMappings .sta f)).map fun r =>
      { gm.setList .sta f r.1 with sent := gm.sent ++ r.2 }
  else .ok gm

/-- `renew_all_mappings`: the lists of the *station*, once for each interface. -/
def renewAllMappings (gm : Gm) : Except Fault Gm :=
  netInterfaceIndices.foldlM (fun gm _ => do
    let gm ← overStation gm .ip4 fun _ => renewIfGranted gm
    overStation gm .ip6 fun _ => renewIfGranted gm) gm

/-- `renew_all_mappings_if_router_has_reset`.  The epochs are compared as they are on the wire, and
the last one changes only where the new one is lower. -/
def renewAllMappingsIfRouterHasReset (gm : Gm) (p : PcpPacket) : Except Fault Gm :=
  if p.epoch < gm.lastReceivedEpoch then
    renewAllMappings { gm with lastReceivedEpoch := p.epoch }
  else .ok gm

/-! ## Saving a record -/

/-- The walk of `save_pcp_mapping` down a list, and whether it added a record.  A record with the
same nonce is overwritten, its `next` included, so what came after it is lost. -/
def saveIn (freed : List ℕ) (m : PortMapping) (mallocOk : Bool) :
    List PortMapping → Except Fault (List PortMapping × Bool)
  | [] => if mallocOk then .ok ([m], true) else .error .outOfMemory
  | r :: rs =>
    if r.pointer ∈ freed then .error .useAfterFree
    else if r.nonce = m.nonce then .ok ([{ m with pointer := r.pointer }], false)
    else (saveIn freed m mallocOk rs).map fun s => (r :: s.1, s.2)

/-- The record of a request: its interface is left null. -/
def savedMapping (p : PcpPacket) (internal external : SockAddr) (now : Timeval) (pointer : ℕ) :
    PortMapping where
  pointer := pointer
  protocol := p.protocol &&& 0x3f
  internal := internal
  external := external
  lifetime := swap32 p.lifetime
  nonce := p.nonce
  grantedTime := now

/-- A read that may run past the memory. -/
def orOverrun {α : Type} : Option α → Except Fault α
  | some a => .ok a
  | none => .error .overrun

/-- `save_pcp_mapping`.  The list is chosen by the client address. -/
def savePcpMapping (gm : Gm) (p : PcpPacket) (i : GmInterfaceIndex) (frame : Frame)
    (now : Timeval) (mallocOk : Bool) : Except Fault Gm := do
  let internal ← orOverrun (p.internalSockaddr frame)
  let external ← orOverrun (p.externalSockaddr frame)
  let s ← saveIn gm.freed (savedMapping p internal external now gm.nextPointer) mallocOk
    (gm.portMappings i internal.family)
  if s.2 then
    renewAllMappingsIfRouterHasReset (gm.setList i internal.family s.1).allocated p
  else return gm.setList i internal.family s.1

/-! ## Decoding -/

/-- `decode_pcp_announce`: the opcode has to be that of an ANNOUNCE *request*. -/
def decodePcpAnnounce (gm : Gm) (p : PcpPacket) : Except Fault Gm :=
  if p.opcode ≠ pcpAnnounce ||| pcpSuccess then .ok gm else renewAllMappingsIfRouterHasReset gm p

/-- A record, granted. -/
def PortMapping.grant (m : PortMapping) (external : SockAddr) (now : Timeval) (lifetime : UInt32) :
    PortMapping :=
  { m with
    type := .granted
    external := external
    grantedTime := now
    expirationTime := ⟨now.sec + (swap32 lifetime).toNat - 1, now.usec⟩ }

/-- `decode_pcp_map`.  An address that is not usable is compared with the link-local address of the
record's interface, then the record is removed. -/
def decodePcpMap (esp : EspNetif) (gm : Gm) (p : PcpPacket) (frame : Frame) (now : Timeval) :
    Except Fault Gm := do
  match ← findMapping gm p.nonce with
  | none => return gm
  | some m =>
    if p.resultCode ≠ pcpSuccess then removePcpMapping gm m
    else if ¬ esp.Usable p.externalAddress then
      match m.interface with
      | none => throw .nullInterface
      | some _ => removePcpMapping gm m
    else
      let external ← orOverrun (p.externalSockaddr frame)
      return gm.update m.pointer fun m => m.grant external now p.lifetime

/-- The source address is that of the interface's router. -/
def isRouter (interface : GmNetif) : SockAddr → Bool
  | .inet a _ => a == interface.ip4.router
  | .inet6 a _ => a == interface.ip6.router

/-- The `switch` of `decode_packet`. -/
def decodeOpcode (esp : EspNetif) (gm : Gm) (p : PcpPacket) (messageSize : ℕ) (frame : Frame)
    (now : Timeval) : Except Fault Gm :=
  if p.opcode &&& pcpOpcodeMask = pcpAnnounce then decodePcpAnnounce gm p
  else if p.opcode &&& pcpOpcodeMask = pcpMap then
    if p.opcode &&& pcpResponse = 0 then .ok gm
    else if messageSize < pcpMapPacketSize then .ok gm
    else decodePcpMap esp gm p frame now
  -- PEER responses are only printed, and other opcodes warned about.
  else .ok gm

/-- `decode_packet`.  The interface is followed, though none may have been selected. -/
def decodePacket (esp : EspNetif) (gm : Gm) (p : PcpPacket) (messageSize : ℕ) (address : SockAddr)
    (frame : Frame) (now : Timeval) : Except Fault Gm :=
  match interfaceForSockaddr gm address with
  | none => .error .nullInterface
  | some i =>
    if !isRouter (gm.netInterfaces i) address then .ok gm
    else if swap16 address.port ≠ pcpServerPort then .ok gm
    else decodeOpcode esp gm p messageSize frame now

/-! ## Maintenance -/

/-- The coroutine of `maintain_mappings`. -/
def maintainMapping (gm : Gm) (now : Timeval) (m : PortMapping) :
    Except Fault (PortMapping × List Sent) :=
  match m.type with
  | .granted =>
    if m.expirationTime.later now then
      (renewMapping gm { m with type := .request }).map fun sent =>
        ({ m with type := .request }, [sent])
    else if (m.expirationTime.sub now).sec < (m.lifetime / 3).toNat then
      (renewMapping gm m).map fun sent => (m, [sent])
    else .ok (m, [])
  | .request => (renewMapping gm m).map fun sent => (m, [sent])

/-- `maintain_mappings`; the clock is read for each record. -/
def maintainMappings (gm : Gm) (clock : Family → ℕ → Timeval) : Except Fault Gm := do
  let gm ← overStation gm .ip4 fun n => maintainMapping gm (clock .ip4 n)
  overStation gm .ip6 fun n => maintainMapping gm (clock .ip6 n)

/-! ## Starting and stopping -/

/-- `gm_pcp_start_ipv4`, `fd` being what `socket` returns. -/
def gmPcpStartIpv4 (gm : Gm) (fd : ℤ) : Gm :=
  if 0 ≤ gm.ipv4Socket then gm else { gm with ipv4Socket := fd }

/-- `gm_pcp_start_ipv6`. -/
def gmPcpStartIpv6 (gm : Gm) (i : GmInterfaceIndex) (fd : ℤ) : Gm :=
  let best := bestMatchingIpv6Address (gm.netInterfaces i) (gm.netInterfaces i).ip6.router
  if 0 ≤ gm.ipv6Socket then gm
  else if best.2 = 0 then gm
  else { gm with ipv6Socket := fd, myIpv6Address := best.1 }

/-- `gm_pcp_stop`: every record is freed, whatever the interface it is given. -/
def gmPcpStop (gm : Gm) : Except Fault Gm :=
  if gm.records.any fun m => m.pointer ∈ gm.freed then .error .useAfterFree
  else .ok
    { gm with
      ipv4Socket := -1
      ipv6Socket := -1
      portMappings := fun _ _ => []
      freed := gm.records.map (·.pointer) ++ gm.freed }

end Pcp
