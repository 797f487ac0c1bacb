import HtFirmware.Pcp.System

/-!
# Pcp/Epoch — does the client notice that its router was reset?

A router announces its epoch, the age of its mapping table.  A lower epoch than the one announced
before means that the table is gone, and that every mapping has to be requested again.
`Detects` is that: what a step has to do with the remembered epoch, and with the mappings.

The client never does it, since `decode_pcp_announce` refuses every packet whose response bit is
set: an ANNOUNCE response changes nothing (`step_announce`), so the remembered epoch stays zero.
The detection is right exactly where every announced epoch is zero
(`detects_iff_announced_zero`).
-/

open Machinery

namespace Pcp

/-! ## Router-reset detection -/

/-- The granted mappings of a list whose socket is open. -/
def grantedIn (gm : Gm) (i : GmInterfaceIndex) (f : Family) : List PortMapping :=
  if 0 ≤ gm.socket f then (gm.portMappings i f).filter fun m => m.type = .granted else []

/-- The granted mappings of every interface, where the socket is open. -/
def grantedMappings (gm : Gm) : List PortMapping :=
  netInterfaceIndices.flatMap fun i => grantedIn gm i .ip4 ++ grantedIn gm i .ip6

/-- Exactly one renewal was sent for each granted mapping, in some order. -/
def RenewedAll (gm t : Gm) : Prop :=
  ∃ sent, t.sent = gm.sent ++ sent ∧
    List.Perm (sent.map Except.ok) ((grantedMappings gm).map (renewMapping gm))

/-- **An ANNOUNCE was taken into account**: a lower epoch renews every granted mapping, any other
sends nothing, and the epoch is remembered. -/
def TookAccount (gm : Gm) (p : PcpPacket) (t : Gm) : Prop :=
  (if swap32 p.epoch < swap32 gm.lastReceivedEpoch then RenewedAll gm t else t.sent = gm.sent) ∧
    t.lastReceivedEpoch = p.epoch

/-- **Router-reset detection, at one step**: an ANNOUNCE response of the router is taken into
account, and a packet the device built moves neither the epoch nor the mappings. -/
def Detects (esp : EspNetif) (gm : Gm) (e : Event) : Prop :=
  match e with
  | .packet p messageSize address _ _ =>
    (Heeded gm address → p.IsAnnounceResponse messageSize →
      ∃ t, step esp gm e = .ok t ∧ TookAccount gm p t) ∧
    (p.opcode = pcpMap → ∀ t, step esp gm e = .ok t →
      t.lastReceivedEpoch = gm.lastReceivedEpoch ∧ t.sent = gm.sent)
  | .request f i nonce _ => ∀ t, step esp gm e = .ok t →
      t.lastReceivedEpoch = gm.lastReceivedEpoch ∧
        t.sent = gm.sent ++ [⟨gm.socket f, routerAddress gm i f, requestPacket gm f i nonce⟩]
  | .save _ _ _ _ => ∀ t, step esp gm e = .ok t →
      t.lastReceivedEpoch = gm.lastReceivedEpoch ∧ t.sent = gm.sent
  | _ => True

/-- An ANNOUNCE response of the router, if the event is one, announces the epoch zero. -/
def AnnouncesZero (gm : Gm) (e : Event) : Prop :=
  match e with
  | .packet p messageSize address _ _ =>
    Heeded gm address → p.IsAnnounceResponse messageSize → p.epoch = 0
  | _ => True

/-! ## What the client does instead -/

section Step

variable {esp : EspNetif} {gm t : Gm}

/-- **An ANNOUNCE response changes nothing** — its opcode is not that of a request. -/
theorem step_announce {p : PcpPacket} {messageSize : ℕ} {address : SockAddr}
    (hh : Heeded gm address) (hp : p.IsAnnounceResponse messageSize) (frame : Frame)
    (now : Timeval) : step esp gm (.packet p messageSize address frame now) = .ok gm := by
  have hopcode : p.opcode = 0x80 := hp.1
  have hdecode : decodeOpcode esp gm p messageSize frame now = .ok gm := by
    unfold decodeOpcode decodePcpAnnounce
    rw [hopcode]
    rfl
  exact (decodePacket_of_heeded hh p messageSize frame now).trans hdecode

/-- A MAP request is not decoded. -/
theorem step_mapRequest (h : Sound gm) {p : PcpPacket} (hp : p.opcode = pcpMap) {messageSize : ℕ}
    {address : SockAddr} {frame : Frame} {now : Timeval}
    (ht : step esp gm (.packet p messageSize address frame now) = .ok t) : t = gm := by
  obtain ht | ⟨-, hm, -⟩ := decodePacket_ok h.epoch ht
  · exact ht
  · exact absurd (hp.symm.trans hm.1) (by decide)

/-- Saving a record sends nothing. -/
theorem sent_save (h : Sound gm) {k : ℕ} {frame : Frame} {now : Timeval} {mallocOk : Bool}
    (ht : step esp gm (.save k frame now mallocOk) = .ok t) : t.sent = gm.sent := by
  cases hr : gm.pending[k]? with
  | none =>
    rw [step_save_none hr] at ht
    rw [← Except.ok.inj ht]
  | some r =>
    rw [step_save_some hr] at ht
    have he : ({ gm with pending := gm.pending.eraseIdx k } : Gm).lastReceivedEpoch = 0 := h.epoch
    obtain ⟨_, _, m, f, -, -, -, -, ⟨rfl, -⟩ | ⟨before, r, after, -, -, rfl⟩⟩ :=
      savePcpMapping_ok he ht <;> rfl

/-- **A sound step detects a reset exactly where it has nothing to detect.** -/
theorem detects_iff (h : Sound gm) (e : Event) : Detects esp gm e ↔ AnnouncesZero gm e := by
  cases e with
  | packet p messageSize address frame now =>
    have hbuilt : p.opcode = pcpMap →
        ∀ t, step esp gm (.packet p messageSize address frame now) = .ok t →
          t.lastReceivedEpoch = gm.lastReceivedEpoch ∧ t.sent = gm.sent := by
      intro hp t ht
      obtain rfl := step_mapRequest h hp ht
      exact ⟨rfl, rfl⟩
    refine ⟨fun hd hh hp => ?_, fun hz => ⟨fun hh hp => ?_, hbuilt⟩⟩
    · obtain ⟨t, ht, -, hepoch⟩ := hd.1 hh hp
      obtain rfl := Except.ok.inj ((step_announce hh hp frame now).symm.trans ht)
      exact hepoch.symm.trans h.epoch
    · refine ⟨gm, step_announce hh hp frame now, ?_, h.epoch.trans (hz hh hp).symm⟩
      rw [hz hh hp, h.epoch, if_neg (by decide)]
  | request f i nonce status =>
    refine iff_of_true (fun t ht => ?_) trivial
    obtain rfl := Except.ok.inj ht
    exact ⟨rfl, rfl⟩
  | save k frame now mallocOk =>
    refine iff_of_true (fun t ht => ⟨?_, sent_save h ht⟩) trivial
    exact (h.step ht).epoch.trans h.epoch.symm
  | _ => exact Iff.rfl

end Step

/-- **Resets are detected throughout a run exactly when no epoch but zero is ever announced.** -/
theorem detects_iff_announced_zero (esp : EspNetif) (events : List Event) :
    (∀ v ∈ visits (next esp) {} events, Detects esp v.1 v.2) ↔
      ∀ v ∈ visits (next esp) {} events, AnnouncesZero v.1 v.2 :=
  forall_visits_iff (fun _ e h => detects_iff h e) (fun _ _ _ h _ ht => h.next ht) events {}
    sound_init

/-- An ANNOUNCE response whose epoch is one second. -/
def announceOne : PcpPacket where
  version := portMappingProtocol
  opcode := pcpAnnounce ||| pcpResponse
  clientAddress := ![0, 0, 0, 1, 0, 0, 0, 0, 0, 0, 0, 0, 0, 0, 0, 0]

/-- The router announces its epoch. -/
def announced : Event :=
  .packet announceOne pcpAnnouncePacketSize homeRouter .aligned {}

/-- **The first announcement of a router is ignored**, so no later one can be lower. -/
theorem not_detects_announced :
    ¬ ∀ v ∈ visits (next lwipNetif) {} [.addresses .sta home, announced],
      Detects lwipNetif v.1 v.2 := by
  intro h
  have hvisit : (atHome, announced) ∈
      visits (next lwipNetif) {} [.addresses .sta home, announced] :=
    List.mem_cons_of_mem _ List.mem_cons_self
  obtain ⟨t, ht, -, hepoch⟩ := (h _ hvisit).1 (heeded_homeRouter rfl) (by decide)
  obtain rfl := Except.ok.inj ((step_announce (heeded_homeRouter rfl) (by decide) _ _).symm.trans ht)
  exact absurd hepoch (by decide)

end Pcp
