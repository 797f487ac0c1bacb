import HtFirmware.Pcp.System

/-!
# Pcp/Renewal — is a renewal the request it renews?

A router tells a renewal from a new request by what it carries: the nonce, the protocol and the
internal port of the mapping, with the client's address.  So a renewal has to carry what the request
carried, and ask for the external address and port last granted.

The values go from the request into a record, through a socket address for each endpoint, and from
the record into the renewal.  Nonce, protocol and lifetime survive (`renewPacket_keeps`).  The ports
do not: a socket address keeps them in network order, and the renewal swaps them once more, so
it carries the internal port with its bytes exchanged (`internalPort_renewPacket`), which is never
the one requested (`not_renews`).
-/

open Machinery

namespace Pcp

/-! ## The life of a mapping -/

/-- A record created from a request, wherever the packet lay. -/
def CreatedFrom (p : PcpPacket) (m : PortMapping) : Prop :=
  ∃ frame now pointer internal external, p.internalSockaddr frame = some internal ∧
    p.externalSockaddr frame = some external ∧ m = savedMapping p internal external now pointer

/-- A successful MAP response, where it lay and when it came. -/
structure Grant where
  response : PcpPacket
  frame : Frame
  now : Timeval

/-- The record after a grant. -/
def PortMapping.granted (m : PortMapping) (g : Grant) : Option PortMapping :=
  (g.response.externalSockaddr g.frame).map fun external =>
    m.grant external g.now g.response.lifetime

/-- The record after any number of grants. -/
def PortMapping.grantedAll (m : PortMapping) (grants : List Grant) : Option PortMapping :=
  grants.foldlM PortMapping.granted m

/-- The packet a mapping's external address and port were last taken from. -/
def lastGranted (request : PcpPacket) (grants : List Grant) : PcpPacket :=
  (grants.getLast?.map (·.response)).getD request

/-- **A renewal agrees with its request**, and asks for what was last granted. -/
structure Renews (request last renewal : PcpPacket) : Prop where
  nonce : renewal.nonce = request.nonce
  protocol : renewal.protocol = request.protocol
  internalPort : renewal.internalPort = request.internalPort
  lifetime : renewal.lifetime = request.lifetime
  clientAddress : renewal.clientAddress = request.clientAddress
  externalAddress : renewal.externalAddress = last.externalAddress
  externalPort : renewal.externalPort = last.externalPort

/-- A saved request leaves a record created from it. -/
theorem createdFrom_of_save {gm t : Gm} (he : gm.lastReceivedEpoch = 0) {p : PcpPacket}
    {i : GmInterfaceIndex} {frame : Frame} {now : Timeval} {mallocOk : Bool}
    (h : savePcpMapping gm p i frame now mallocOk = .ok t) : ∃ m ∈ t.records, CreatedFrom p m := by
  obtain ⟨internal, external, m, f, hi, hx, -, rfl, ⟨rfl, -⟩ | ⟨before, r, after, -, -, rfl⟩⟩ :=
    savePcpMapping_ok he h
  · refine ⟨savedMapping p internal external now gm.nextPointer, Gm.mem_records.mpr ⟨i, f, ?_⟩,
      frame, now, _, internal, external, hi, hx, rfl⟩
    exact Gm.mem_setList_append.mpr (Or.inr ⟨rfl, rfl, rfl⟩)
  · refine ⟨savedMapping p internal external now r.pointer, Gm.mem_records.mpr ⟨i, f, ?_⟩,
      frame, now, _, internal, external, hi, hx, rfl⟩
    rw [Gm.portMappings_setList, if_pos ⟨rfl, rfl⟩]
    exact List.mem_append_right _ (List.mem_singleton_self _)

/-! ## What survives -/

section Fields

variable {p : PcpPacket} {m m' : PortMapping}

/-- What grants leave alone. -/
theorem grantedAll_keeps : ∀ {grants : List Grant} {m m' : PortMapping},
    m.grantedAll grants = some m' → m'.internal = m.internal ∧ m'.nonce = m.nonce ∧
      m'.protocol = m.protocol ∧ m'.lifetime = m.lifetime := by
  intro grants
  induction grants with
  | nil =>
    intro m m' h
    obtain rfl := Option.some.inj h
    exact ⟨rfl, rfl, rfl, rfl⟩
  | cons g grants ih =>
    intro m m' h
    obtain ⟨m₁, hg, h⟩ := Option.bind_eq_some_iff.mp h
    obtain ⟨external, -, rfl⟩ := Option.map_eq_some_iff.mp hg
    exact ih (m := m.grant external g.now g.response.lifetime) h

/-- **A renewal carries the internal port with its bytes exchanged.** -/
theorem internalPort_renewPacket (hm : CreatedFrom p m) {grants : List Grant}
    (hg : m.grantedAll grants = some m') (gm : Gm) :
    (renewPacket gm m').internalPort = swap16 p.internalPort := by
  obtain ⟨frame, now, pointer, internal, external, hi, -, rfl⟩ := hm
  have hport : m'.internal.port = p.internalPort :=
    (congrArg SockAddr.port (grantedAll_keeps hg).1).trans (port_internalSockaddr hi)
  have hswap : (renewPacket gm m').internalPort = swap16 m'.internal.port := by
    unfold renewPacket
    cases m'.external <;> rfl
  rw [hswap, hport]

/-- Nonce, protocol and lifetime come back as they were requested. -/
theorem renewPacket_keeps (hm : CreatedFrom p m) {grants : List Grant}
    (hg : m.grantedAll grants = some m') (gm : Gm) :
    (renewPacket gm m').nonce = p.nonce ∧ (renewPacket gm m').protocol = p.protocol &&& 0x3f ∧
      (renewPacket gm m').lifetime = p.lifetime := by
  obtain ⟨frame, now, pointer, internal, external, -, -, rfl⟩ := hm
  obtain ⟨-, hnonce, hprotocol, hlifetime⟩ := grantedAll_keeps hg
  have hfields : (renewPacket gm m').nonce = m'.nonce ∧
      (renewPacket gm m').protocol = m'.protocol ∧
      (renewPacket gm m').lifetime = swap32 m'.lifetime := by
    unfold renewPacket
    cases m'.external <;> exact ⟨rfl, rfl, rfl⟩
  refine ⟨hfields.1.trans hnonce, hfields.2.1.trans hprotocol, ?_⟩
  rw [hfields.2.2, hlifetime]
  exact swap32_swap32 p.lifetime

end Fields

/-! ## Renewals of requests -/

/-- **No renewal of a request is that request** — its internal port, 443, is sent as 47873. -/
theorem not_renews (gm : Gm) (f : Family) (i : GmInterfaceIndex) (nonce : Bytes 12)
    {m m' : PortMapping} (hm : CreatedFrom (requestPacket gm f i nonce) m) {grants : List Grant}
    (hg : m.grantedAll grants = some m') (gm' : Gm) :
    ¬ Renews (requestPacket gm f i nonce) (lastGranted (requestPacket gm f i nonce) grants)
      (renewPacket gm' m') := by
  intro h
  have hrequest : (requestPacket gm f i nonce).internalPort = swap16 httpsPort := by cases f <;> rfl
  have hport := (internalPort_renewPacket hm hg gm').symm.trans h.internalPort
  rw [hrequest, swap16_swap16] at hport
  exact absurd hport (by decide)

/-- The nonce of the examples. -/
def someNonce : Bytes 12 := fun _ => 7

/-- A response that grants 203.0.113.9, port 7300. -/
def grantResponse : PcpPacket where
  version := portMappingProtocol
  opcode := pcpMap ||| pcpResponse
  lifetime := swap32 requestedMappingDuration
  nonce := someNonce
  protocol := gmPcpTcp
  internalPort := swap16 httpsPort
  externalPort := swap16 externalHttpsPort
  externalAddress := ipv4Mapped ![203, 0, 113, 9]

/-- The request of the station at home, as the code files it. -/
def homeRecord : PortMapping :=
  savedMapping (requestPacket atHome .ip4 .sta someNonce)
    (.inet6 (ipv4Mapped ![192, 168, 1, 5]) (swap16 httpsPort))
    (.inet6 (ipv4Mapped ![0, 0, 0, 0]) (swap16 externalHttpsPort)) {} 0

theorem createdFrom_homeRecord : CreatedFrom (requestPacket atHome .ip4 .sta someNonce) homeRecord :=
  ⟨.aligned, {}, 0, _, _, by decide +kernel, by decide +kernel, rfl⟩

/-- The record once granted. -/
def homeGranted : PortMapping :=
  homeRecord.grant (.inet6 (ipv4Mapped ![203, 0, 113, 9]) (swap16 externalHttpsPort)) {}
    (swap32 requestedMappingDuration)

theorem grantedAll_homeRecord :
    homeRecord.grantedAll [⟨grantResponse, .aligned, {}⟩] = some homeGranted := by decide +kernel

theorem not_renews_homeGranted :
    ¬ Renews (requestPacket atHome .ip4 .sta someNonce)
      (lastGranted (requestPacket atHome .ip4 .sta someNonce) [⟨grantResponse, .aligned, {}⟩])
      (renewPacket atHome homeGranted) :=
  not_renews atHome .ip4 .sta someNonce createdFrom_homeRecord grantedAll_homeRecord atHome

/-- **A renewal at home, before any grant, asks for another internal port.** -/
theorem not_renews_homeRecord :
    ¬ Renews (requestPacket atHome .ip4 .sta someNonce)
      (lastGranted (requestPacket atHome .ip4 .sta someNonce) []) (renewPacket atHome homeRecord) :=
  fun h => absurd h.internalPort (by decide)

end Pcp
