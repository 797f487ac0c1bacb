import HtFirmware.Pcp.System

/-!
# Pcp/Buffer — what a datagram leaves in the receive buffer

`incoming_packet` receives into an uninitialised packet on the stack, so the bytes a short datagram
does not reach are whatever was there.  `decode_packet` reads some of them: the opcode before any
length is known, the epoch of an ANNOUNCE of any length, and, behind a MAP response, the bytes
`gm_all_zeroes` may run into.

None of them matters.  What a packet changes depends on it only when it is a whole MAP response
(`decodeOpcode_of_not_mapResponse`, the remembered epoch staying zero), and then on its first 60
bytes: an external address is only looked at once it is usable, and a usable one is told from an
IPv4-mapped one without what follows it.
-/

open Machinery

namespace Pcp

/-- The packet in a buffer. -/
def PcpPacket.ofBuffer (b : Bytes 80) : PcpPacket where
  version := b 0
  opcode := b 1
  reserved := b 2
  resultCode := b 3
  lifetime := load32 (b 4) (b 5) (b 6) (b 7)
  clientAddress i := b ⟨8 + i, by omega⟩
  nonce i := b ⟨24 + i, by omega⟩
  protocol := b 36
  reserved3 i := b ⟨37 + i, by omega⟩
  internalPort := load16 (b 40) (b 41)
  externalPort := load16 (b 42) (b 43)
  externalAddress i := b ⟨44 + i, by omega⟩
  remotePeerPort := load16 (b 60) (b 61)
  reserved1 := load16 (b 62) (b 63)
  remotePeerAddress i := b ⟨64 + i, by omega⟩

/-- Two buffers that a datagram of `n` bytes was received into. -/
def AgreeBelow (n : ℕ) (b b' : Bytes 80) : Prop := ∀ i : Fin 80, i.val < n → b i = b' i

/-! ## What a MAP response is read for -/

/-- Two packets that agree on what `decode_pcp_map` takes from them. -/
structure SameGrant (p p' : PcpPacket) : Prop where
  nonce : p.nonce = p'.nonce
  resultCode : p.resultCode = p'.resultCode
  externalAddress : p.externalAddress = p'.externalAddress
  externalPort : p.externalPort = p'.externalPort
  lifetime : p.lifetime = p'.lifetime

/-- **The bytes after a usable external address do not matter.** -/
theorem SameGrant.externalSockaddr {p p' : PcpPacket} (h : SameGrant p p') {esp : EspNetif}
    (husable : esp.Usable p'.externalAddress) (frame : Frame) :
    p.externalSockaddr frame = p'.externalSockaddr frame := by
  unfold PcpPacket.externalSockaddr assignSockaddr
  rw [h.externalAddress, h.externalPort]
  rcases husable with hglobal | hmapped
  · have hne : p'.externalAddress 0 ≠ 0 := by
      intro h0
      have hprefix := esp.of_global _ hglobal
      rw [h0] at hprefix
      exact absurd hprefix (by decide)
    rw [isIpv4MappedIpv6_of_ne_zero hne, isIpv4MappedIpv6_of_ne_zero hne]
  · obtain ⟨a, ha⟩ := esp.of_mapped _ hmapped
    rw [ha, isIpv4MappedIpv6_ipv4Mapped, isIpv4MappedIpv6_ipv4Mapped]

theorem SameGrant.decodePcpMap {p p' : PcpPacket} (h : SameGrant p p') (esp : EspNetif) (gm : Gm)
    (frame : Frame) (now : Timeval) :
    decodePcpMap esp gm p frame now = decodePcpMap esp gm p' frame now := by
  unfold Pcp.decodePcpMap
  rw [h.nonce, h.resultCode, h.externalAddress, h.lifetime]
  refine congrArg _ (funext fun found => ?_)
  cases found with
  | none => rfl
  | some m =>
    by_cases husable : esp.Usable p'.externalAddress
    · simp only [h.externalSockaddr husable]
    · simp only [husable, not_false_eq_true, if_true]

/-! ## Two buffers -/

section Agree

variable {n : ℕ} {b b' : Bytes 80}

/-- Whether a packet is a whole MAP response is seen in the bytes received. -/
theorem AgreeBelow.isMapResponse (h : AgreeBelow n b b') :
    (PcpPacket.ofBuffer b).IsMapResponse n ↔ (PcpPacket.ofBuffer b').IsMapResponse n := by
  refine and_congr_left fun hn => ?_
  have hopcode : b 1 = b' 1 := h 1 (Nat.lt_of_lt_of_le (by decide) hn)
  simp only [PcpPacket.ofBuffer, hopcode]

/-- The bytes of a whole MAP response are those it is read for. -/
theorem AgreeBelow.sameGrant (h : AgreeBelow n b b') (hn : pcpMapPacketSize ≤ n) :
    SameGrant (PcpPacket.ofBuffer b) (PcpPacket.ofBuffer b') := by
  have hbyte : ∀ i : Fin 80, i.val < 60 → b i = b' i := fun i hi => h i (Nat.lt_of_lt_of_le hi hn)
  refine ⟨funext fun i => hbyte _ ?_, hbyte 3 (by decide), funext fun i => hbyte _ ?_, ?_, ?_⟩
  · change 24 + i.val < 60
    omega
  · change 44 + i.val < 60
    omega
  · simp only [PcpPacket.ofBuffer, hbyte 42 (by decide), hbyte 43 (by decide)]
  · simp only [PcpPacket.ofBuffer, hbyte 4 (by decide), hbyte 5 (by decide), hbyte 6 (by decide),
      hbyte 7 (by decide)]

theorem AgreeBelow.decodeOpcode (h : AgreeBelow n b b') (esp : EspNetif) {gm : Gm}
    (he : gm.lastReceivedEpoch = 0) (frame : Frame) (now : Timeval) :
    decodeOpcode esp gm (.ofBuffer b) n frame now
      = decodeOpcode esp gm (.ofBuffer b') n frame now := by
  by_cases hm : (PcpPacket.ofBuffer b).IsMapResponse n
  · rw [decodeOpcode_of_mapResponse hm, decodeOpcode_of_mapResponse (h.isMapResponse.mp hm)]
    exact (h.sameGrant hm.2).decodePcpMap esp gm frame now
  · rw [decodeOpcode_of_not_mapResponse he hm,
      decodeOpcode_of_not_mapResponse he fun hm' => hm (h.isMapResponse.mpr hm')]

/-- **The bytes a datagram did not reach do not matter**: whatever run came before, and whatever the
buffer held, `decode_packet` leads to the same state. -/
theorem decodePacket_uninitialised (esp : EspNetif) (es : List Event) {gm : Gm}
    (hgm : gm ∈ reached (next esp) {} es) (h : AgreeBelow n b b') (address : SockAddr)
    (frame : Frame) (now : Timeval) :
    decodePacket esp gm (.ofBuffer b) n address frame now
      = decodePacket esp gm (.ofBuffer b') n address frame now := by
  have hsound : Sound gm := forall_reached (C := fun _ _ => True) (fun _ _ _ h _ ht => h.next ht)
    es {} sound_init (fun _ _ => trivial) gm hgm
  unfold decodePacket
  rw [h.decodeOpcode esp hsound.epoch frame now]

end Agree

/-- One byte from the router, in front of two different opcodes. -/
theorem decodePacket_uninitialised_opcode :
    decodePacket lwipNetif atHome (.ofBuffer fun _ => 0) 1 homeRouter .aligned {}
      = decodePacket lwipNetif atHome (.ofBuffer fun i => if i.val < 1 then 0 else 0x81) 1 homeRouter
        .aligned {} :=
  decodePacket_uninitialised lwipNetif [.addresses .sta home] (mem_reached_of_foldlM _ _ rfl)
    (fun _ hi => (if_pos hi).symm) homeRouter .aligned {}

end Pcp
