import HtFirmware.Pcp.System

/-!
# Pcp/Records — is a record where it says it is?

A mapping record is found through the interface whose list it is in, and renewed through the
interface it points back to, on the socket of its external address.  `Filed` says that the three
agree: the back pointer names the interface, the internal endpoint is of the list's family, and a
renewal goes to that interface's router on that family's socket.

`save_pcp_mapping`, the one constructor, leaves the back pointer null, so the first record saved is
not filed, and `decode_packet` follows the interface selected for a datagram before it knows that
there is one.  The records of a run are filed exactly where there are none
(`keepsFiled_iff_savesNothing`).
-/

open Machinery

namespace Pcp

/-! ## Records in their place -/

/-- **Every record is where it says it is**, and is renewed from there. -/
def Filed (gm : Gm) : Prop :=
  ∀ i f, ∀ m ∈ gm.portMappings i f, m.interface = some i ∧ m.internal.family = f ∧
    ∃ packet, renewMapping gm m = .ok ⟨gm.socket f, routerAddress gm i f, packet⟩

/-- The step follows no null interface, if it is a renewal or decodes a MAP response. -/
def FollowsNoNull (esp : EspNetif) (gm : Gm) (e : Event) : Prop :=
  match e with
  | .packet p _ _ _ _ => p.opcode = pcpMap ||| pcpResponse →
      step esp gm e ≠ .error .nullInterface
  | _ => step esp gm e ≠ .error .nullInterface

/-- Records stay filed, and no null interface is followed, throughout a run. -/
def KeepsFiled (esp : EspNetif) (events : List Event) : Prop :=
  (∀ t ∈ reached (next esp) {} events, Filed t) ∧
    ∀ v ∈ visits (next esp) {} events, FollowsNoNull esp v.1 v.2

/-- **What it takes**: no record is ever saved, and every MAP response comes from where some
interface can be selected. -/
def SavesNothing (gm : Gm) (e : Event) : Prop :=
  match e with
  | .save k frame _ mallocOk => ∀ r, gm.pending[k]? = some r →
      mallocOk = false ∨ r.packet.internalSockaddr frame = none ∨
        r.packet.externalSockaddr frame = none
  | .packet p _ address _ _ => p.opcode = pcpMap ||| pcpResponse →
      interfaceForSockaddr gm address ≠ none
  | _ => True

/-! ## Without records -/

section Empty

variable {esp : EspNetif} {gm t : Gm}

theorem filed_of_empty (h : gm.records = []) : Filed gm := by
  intro i f m hm
  rw [Gm.records_eq_nil.mp h i f] at hm
  exact absurd hm List.not_mem_nil

/-- A tick finds nothing to do. -/
theorem maintainMappings_of_empty (h : gm.records = []) (clock : Family → ℕ → Timeval) :
    maintainMappings gm clock = .ok gm := by
  have hempty := Gm.records_eq_nil.mp h
  have hover : ∀ f coroutine, overStation gm f coroutine = .ok gm := by
    intro f coroutine
    unfold overStation
    split_ifs
    · have hwalk : forEachMapping gm.freed coroutine 0 (gm.portMappings .sta f) = .ok ([], []) := by
        rw [hempty, forEachMapping]
      rw [hwalk]
      refine congrArg Except.ok ?_
      change ({ gm.setList .sta f [] with sent := gm.sent ++ [] } : Gm) = gm
      rw [← hempty .sta f, setList_self, List.append_nil]
    · rfl
  unfold maintainMappings
  rw [hover]
  exact hover _ _

/-- A MAP response finds nothing to change. -/
theorem decodePcpMap_of_empty (h : gm.records = []) (p : PcpPacket) (frame : Frame)
    (now : Timeval) : decodePcpMap esp gm p frame now = .ok gm := by
  unfold decodePcpMap findMapping
  rw [h]
  rfl

/-- A datagram changes nothing, if an interface can be selected for it. -/
theorem decodePacket_of_empty (he : gm.lastReceivedEpoch = 0) (h : gm.records = [])
    {address : SockAddr} (hi : interfaceForSockaddr gm address ≠ none) (p : PcpPacket)
    (messageSize : ℕ) (frame : Frame) (now : Timeval) :
    decodePacket esp gm p messageSize address frame now = .ok gm := by
  obtain ⟨i, hi⟩ := Option.ne_none_iff_exists'.mp hi
  have hdecode : decodeOpcode esp gm p messageSize frame now = .ok gm := by
    by_cases hm : p.IsMapResponse messageSize
    · exact (decodeOpcode_of_mapResponse hm frame now).trans (decodePcpMap_of_empty h p frame now)
    · exact decodeOpcode_of_not_mapResponse he hm frame now
  unfold decodePacket
  rw [hi, hdecode]
  dsimp only
  split_ifs <;> rfl

/-- A stop finds nothing to free. -/
theorem gmPcpStop_of_empty (h : gm.records = []) : ∃ t, gmPcpStop gm = .ok t := by
  unfold gmPcpStop
  rw [h]
  exact ⟨_, rfl⟩

/-- The first save, where it can read its packet. -/
theorem savePcpMapping_of_empty (he : gm.lastReceivedEpoch = 0) (h : gm.records = [])
    {p : PcpPacket} {frame : Frame} {internal external : SockAddr}
    (hi : p.internalSockaddr frame = some internal)
    (hx : p.externalSockaddr frame = some external) (i : GmInterfaceIndex) (now : Timeval)
    (mallocOk : Bool) : savePcpMapping gm p i frame now mallocOk
      = if mallocOk then .ok (gm.setList i internal.family
          [savedMapping p internal external now gm.nextPointer]).allocated
        else .error .outOfMemory := by
  unfold savePcpMapping
  rw [hi, hx]
  change (saveIn gm.freed _ mallocOk (gm.portMappings i internal.family) >>= _) = _
  rw [Gm.records_eq_nil.mp h i internal.family]
  cases mallocOk with
  | false => rfl
  | true =>
    have he' : (gm.setList i internal.family
        [savedMapping p internal external now gm.nextPointer]).allocated.lastReceivedEpoch = 0 := he
    exact renewAllMappingsIfRouterHasReset_of_zero he' p

/-- **A record just saved is not filed**: its interface is null. -/
theorem not_filed_of_saved {p : PcpPacket} {i : GmInterfaceIndex} {f : Family}
    {internal external : SockAddr} {now : Timeval} {pointer : ℕ} :
    ¬ Filed (gm.setList i f [savedMapping p internal external now pointer]).allocated := by
  intro hfiled
  have hmem : savedMapping p internal external now pointer ∈
      (gm.setList i f [savedMapping p internal external now pointer]).allocated.portMappings i f := by
    rw [Gm.allocated, Gm.portMappings_setList, if_pos ⟨rfl, rfl⟩]
    exact List.mem_singleton_self _
  cases (hfiled i f _ hmem).1

end Empty

/-! ## Runs -/

section Run

variable {esp : EspNetif} {gm t : Gm}

/-- The step follows no null interface, and leaves the records filed. -/
def StepKeepsFiled (esp : EspNetif) (gm : Gm) (e : Event) : Prop :=
  FollowsNoNull esp gm e ∧ ∀ t, next esp gm e = some t → Filed t

/-- A step that ends, with no record, keeps the records filed. -/
theorem stepKeepsFiled_of_ok {e : Event} (ht : step esp gm e = .ok t) (h : t.records = []) :
    StepKeepsFiled esp gm e := by
  have hnext : ∀ u, next esp gm e = some u → Filed u := by
    intro u hu
    obtain rfl := Except.ok.inj (ht.symm.trans (next_eq_some.mp hu))
    exact filed_of_empty h
  refine ⟨?_, hnext⟩
  cases e <;> simp only [FollowsNoNull, ht] <;> simp

/-- So does a quiet event. -/
theorem stepKeepsFiled_of_quiet {e : Event} (hq : e.quiet = true) (h : gm.records = []) :
    StepKeepsFiled esp gm e := by
  obtain ⟨t, ht, hsame⟩ := step_quiet esp gm hq
  exact stepKeepsFiled_of_ok ht (hsame.records.trans h)

/-- So does a step that stops short, if it followed no null interface. -/
theorem stepKeepsFiled_of_error {e : Event} {fault : Fault} (h : step esp gm e = .error fault)
    (hfault : fault ≠ .nullInterface) : StepKeepsFiled esp gm e := by
  refine ⟨?_, fun t ht => ?_⟩
  · cases e <;> simp only [FollowsNoNull, h] <;> simp [hfault]
  · rw [next_eq_some, h] at ht
    cases ht

theorem overrun_ne : Fault.overrun ≠ .nullInterface := by decide

/-- **A save keeps the records filed exactly where it saves nothing.** -/
theorem stepKeepsFiled_save (he : gm.lastReceivedEpoch = 0) (h : gm.records = []) (k : ℕ)
    (frame : Frame) (now : Timeval) (mallocOk : Bool) :
    StepKeepsFiled esp gm (.save k frame now mallocOk) ↔
      SavesNothing gm (.save k frame now mallocOk) := by
  cases hr : gm.pending[k]? with
  | none =>
    have hstep : step esp gm (.save k frame now mallocOk) = .ok gm :=
      step_save_none hr frame now mallocOk
    refine iff_of_true (stepKeepsFiled_of_ok hstep h) fun r hr' => ?_
    rw [hr] at hr'
    cases hr'
  | some r =>
    have hsave : step esp gm (.save k frame now mallocOk) = savePcpMapping
        { gm with pending := gm.pending.eraseIdx k } r.packet r.interface frame now mallocOk :=
      step_save_some hr frame now mallocOk
    have hnothing : SavesNothing gm (.save k frame now mallocOk) ↔ mallocOk = false ∨
        r.packet.internalSockaddr frame = none ∨ r.packet.externalSockaddr frame = none :=
      ⟨fun h' => h' r hr, fun h' r' hr' => Option.some.inj (hr.symm.trans hr') ▸ h'⟩
    rw [hnothing]
    cases hi : r.packet.internalSockaddr frame with
    | none =>
      refine iff_of_true (stepKeepsFiled_of_error ?_ overrun_ne) (by simp)
      rw [hsave, savePcpMapping, hi]
      rfl
    | some internal =>
      cases hx : r.packet.externalSockaddr frame with
      | none =>
        refine iff_of_true (stepKeepsFiled_of_error ?_ overrun_ne) (by simp)
        rw [hsave, savePcpMapping, hi, hx]
        rfl
      | some external =>
        rw [savePcpMapping_of_empty (by exact he) (by exact h) hi hx] at hsave
        cases mallocOk with
        | false =>
          exact iff_of_true (stepKeepsFiled_of_error hsave (by decide)) (Or.inl rfl)
        | true =>
          refine iff_of_false (fun hkeeps => ?_) (by simp)
          exact not_filed_of_saved (hkeeps.2 _ (next_eq_some.mpr hsave))

/-- **Without records, a step keeps them filed exactly where it saves nothing**, and can select an
interface for a MAP response. -/
theorem stepKeepsFiled_iff (he : gm.lastReceivedEpoch = 0) (h : gm.records = []) (e : Event) :
    StepKeepsFiled esp gm e ↔ SavesNothing gm e := by
  cases e with
  | save k frame now mallocOk => exact stepKeepsFiled_save he h k frame now mallocOk
  | packet p messageSize address frame now =>
    by_cases hi : interfaceForSockaddr gm address = none
    · have hstep : step esp gm (.packet p messageSize address frame now)
          = .error .nullInterface := by
        change decodePacket esp gm p messageSize address frame now = _
        unfold decodePacket
        rw [hi]
      constructor
      · intro hkeeps hp
        exact absurd hstep (hkeeps.1 hp)
      · intro hnothing
        refine ⟨fun hp => absurd hi (hnothing hp), fun t ht => ?_⟩
        rw [next_eq_some, hstep] at ht
        cases ht
    · have hstep : step esp gm (.packet p messageSize address frame now) = .ok gm :=
        decodePacket_of_empty he h hi p messageSize frame now
      exact iff_of_true (stepKeepsFiled_of_ok hstep h) fun _ => hi
  | tick clock => exact iff_of_true (stepKeepsFiled_of_ok (maintainMappings_of_empty h clock) h) trivial
  | stop =>
    obtain ⟨t, ht⟩ := gmPcpStop_of_empty h
    refine iff_of_true (stepKeepsFiled_of_ok ht ?_) trivial
    exact Gm.records_eq_nil.mpr fun i f => by rw [(gmPcpStop_ok ht).1]
  | _ => exact iff_of_true (stepKeepsFiled_of_quiet rfl h) trivial

/-- Every record has a null interface, so records are filed only where there are none. -/
theorem Sound.records_of_filed (h : Sound gm) (hf : Filed gm) : gm.records = [] := by
  refine Gm.records_eq_nil.mpr fun i f => List.eq_nil_iff_forall_not_mem.mpr fun m hm => ?_
  have hsome := (hf i f m hm).1
  rw [h.unset i f m hm] at hsome
  cases hsome

/-- **The records of a run are filed, and no null interface is followed, exactly when no record is
ever saved** and every MAP response comes from where an interface can be selected. -/
theorem keepsFiled_iff_savesNothing (esp : EspNetif) (events : List Event) :
    KeepsFiled esp events ↔ ∀ v ∈ visits (next esp) {} events, SavesNothing v.1 v.2 := by
  have hempty : ({} : Gm).records = [] := rfl
  have hsteps : KeepsFiled esp events ↔
      ∀ v ∈ visits (next esp) {} events, StepKeepsFiled esp v.1 v.2 := by
    unfold KeepsFiled
    rw [forall_reached_iff_visits]
    constructor
    · rintro ⟨⟨-, hfiled⟩, hnull⟩ v hv
      exact ⟨hnull v hv, hfiled v hv⟩
    · intro h
      exact ⟨⟨filed_of_empty hempty, fun v hv => (h v hv).2⟩, fun v hv => (h v hv).1⟩
  rw [hsteps]
  refine forall_visits_iff (I := fun gm => Sound gm ∧ gm.records = [])
    (fun gm e h => stepKeepsFiled_iff h.1.epoch h.2 e) (fun gm e t h hC ht => ?_) events {}
    ⟨sound_init, hempty⟩
  have hfiled := ((stepKeepsFiled_iff h.1.epoch h.2 e).mpr hC).2 t ht
  exact ⟨h.1.next ht, (h.1.next ht).records_of_filed hfiled⟩

end Run

/-- The station asks for a mapping, and saves its record. -/
def savedAtHome : List Event :=
  [.addresses .sta home, .startIpv4 3, .request .ip4 .sta (fun _ => 7) 60,
    .save 0 .aligned {} true]

/-- **The first mapping requested has a record that points nowhere.** -/
theorem not_keepsFiled_savedAtHome : ¬ KeepsFiled lwipNetif savedAtHome := by
  intro h
  have hany : (reached (next lwipNetif) {} savedAtHome).any
      (fun t => t.records.any fun m => m.interface.isNone) = true := by decide +kernel
  obtain ⟨t, ht, hm⟩ := List.any_eq_true.mp hany
  obtain ⟨m, hm, hnone⟩ := List.any_eq_true.mp hm
  obtain ⟨i, f, hm⟩ := Gm.mem_records.mp hm
  rw [(h.1 t ht i f m hm).1] at hnone
  cases hnone

end Pcp
