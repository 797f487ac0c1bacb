import HtFirmware.Pcp.Protocol
import HtFirmware.Machinery.Fallible
import HtFirmware.Machinery.Run

/-!
# Pcp/System — the runs of the Port Control Protocol client

An event is one atomic step of some task: the network stack changing an address, a request being
sent, its record being saved, the select task decoding a datagram or maintaining the mappings, a
stop.  `step` is what the program does with it.

`Sound` is what every run keeps, whatever its events: records are distinct allocations, none of them
ever learns its interface, and the remembered epoch stays zero.
-/

open Machinery

namespace Pcp

/-! ## Events -/

inductive Event where
  /-- The network stack gives an interface its addresses, or its router. -/
  | addresses (i : GmInterfaceIndex) (interface : GmNetif)
  | startIpv4 (fd : ℤ)
  | startIpv6 (i : GmInterfaceIndex) (fd : ℤ)
  /-- A task sends a request. -/
  | request (f : Family) (i : GmInterfaceIndex) (nonce : Bytes 12) (status : ℤ)
  /-- The task of the `k`-th request in flight saves its record. -/
  | save (k : ℕ) (frame : Frame) (now : Timeval) (mallocOk : Bool)
  /-- The select task decodes a datagram. -/
  | packet (p : PcpPacket) (messageSize : ℕ) (address : SockAddr) (frame : Frame) (now : Timeval)
  /-- The select task maintains the mappings. -/
  | tick (clock : Family → ℕ → Timeval)
  | stop

/-- One event. -/
def step (esp : EspNetif) (gm : Gm) : Event → Except Fault Gm
  | .addresses i interface =>
    .ok { gm with netInterfaces := Function.update gm.netInterfaces i interface }
  | .startIpv4 fd => .ok (gmPcpStartIpv4 gm fd)
  | .startIpv6 i fd => .ok (gmPcpStartIpv6 gm i fd)
  | .request f i nonce status => .ok (gmPcpRequestMapping gm f i nonce status)
  | .save k frame now mallocOk =>
    match gm.pending[k]? with
    | none => .ok gm
    | some r =>
      savePcpMapping { gm with pending := gm.pending.eraseIdx k } r.packet r.interface frame now
        mallocOk
  | .packet p messageSize address frame now => decodePacket esp gm p messageSize address frame now
  | .tick clock => maintainMappings gm clock
  | .stop => gmPcpStop gm

/-- The state after an event, `none` where the program stops short. -/
def next (esp : EspNetif) (gm : Gm) (e : Event) : Option Gm := (step esp gm e).toOption

theorem next_eq_some {esp : EspNetif} {gm t : Gm} {e : Event} :
    next esp gm e = some t ↔ step esp gm e = .ok t := by
  unfold next
  cases step esp gm e with
  | error fault => exact iff_of_false (by rintro ⟨⟩) (by rintro ⟨⟩)
  | ok u => exact ⟨fun h => congrArg Except.ok (Option.some.inj h), fun h => by cases h; rfl⟩

/-- A save without its request does nothing. -/
theorem step_save_none {esp : EspNetif} {gm : Gm} {k : ℕ} (hr : gm.pending[k]? = none)
    (frame : Frame) (now : Timeval) (mallocOk : Bool) :
    step esp gm (.save k frame now mallocOk) = .ok gm := by
  unfold step
  simp only [hr]

/-- A save takes its request out of flight. -/
theorem step_save_some {esp : EspNetif} {gm : Gm} {k : ℕ} {r : Pending}
    (hr : gm.pending[k]? = some r) (frame : Frame) (now : Timeval) (mallocOk : Bool) :
    step esp gm (.save k frame now mallocOk)
      = savePcpMapping { gm with pending := gm.pending.eraseIdx k } r.packet r.interface frame now
        mallocOk := by
  unfold step
  simp only [hr]

/-- The events that touch no record: the network stack's, and those of a task that opens a socket
or sends a request. -/
def Event.quiet : Event → Bool
  | .save .. | .packet .. | .tick _ | .stop => false
  | _ => true

/-- Two states with the same records. -/
structure SameRecords (gm t : Gm) : Prop where
  lists : t.portMappings = gm.portMappings
  freed : t.freed = gm.freed
  nextPointer : t.nextPointer = gm.nextPointer
  epoch : t.lastReceivedEpoch = gm.lastReceivedEpoch

theorem SameRecords.records {gm t : Gm} (h : SameRecords gm t) : t.records = gm.records := by
  unfold Gm.records Gm.listsOf
  rw [h.lists]

theorem sameRecords_gmPcpStartIpv4 (gm : Gm) (fd : ℤ) : SameRecords gm (gmPcpStartIpv4 gm fd) := by
  unfold gmPcpStartIpv4
  split_ifs
  exacts [⟨rfl, rfl, rfl, rfl⟩, ⟨rfl, rfl, rfl, rfl⟩]

theorem sameRecords_gmPcpStartIpv6 (gm : Gm) (i : GmInterfaceIndex) (fd : ℤ) :
    SameRecords gm (gmPcpStartIpv6 gm i fd) := by
  unfold gmPcpStartIpv6
  dsimp only
  split_ifs
  exacts [⟨rfl, rfl, rfl, rfl⟩, ⟨rfl, rfl, rfl, rfl⟩, ⟨rfl, rfl, rfl, rfl⟩]

/-- **A quiet event ends well, and touches no record.** -/
theorem step_quiet (esp : EspNetif) (gm : Gm) {e : Event} (hq : e.quiet = true) :
    ∃ t, step esp gm e = .ok t ∧ SameRecords gm t := by
  cases e with
  | addresses i interface => exact ⟨_, rfl, rfl, rfl, rfl, rfl⟩
  | startIpv4 fd => exact ⟨_, rfl, sameRecords_gmPcpStartIpv4 gm fd⟩
  | startIpv6 i fd => exact ⟨_, rfl, sameRecords_gmPcpStartIpv6 gm i fd⟩
  | request f i nonce status => exact ⟨_, rfl, rfl, rfl, rfl, rfl⟩
  | save | packet | tick | stop => cases hq

theorem sameRecords_of_quiet {esp : EspNetif} {gm t : Gm} {e : Event} (hq : e.quiet = true)
    (ht : step esp gm e = .ok t) : SameRecords gm t := by
  obtain ⟨u, hu, hsame⟩ := step_quiet esp gm hq
  obtain rfl := Except.ok.inj (hu.symm.trans ht)
  exact hsame

/-! ## A home network -/

/-- A station at 192.168.1.5, behind a router at 192.168.1.1. -/
def home : GmNetif where
  ip4 := { address := ![192, 168, 1, 5], router := ![192, 168, 1, 1] }

/-- The router, at the server port. -/
def homeRouter : SockAddr := .inet ![192, 168, 1, 1] (swap16 pcpServerPort)

/-- The state once the station has its addresses. -/
def atHome : Gm where
  netInterfaces := Function.update (fun _ => {}) .sta home

/-! ## Fallible computations -/

theorem orOverrun_ok {α : Type} {x : Option α} {a : α} (h : orOverrun x = .ok a) : x = some a := by
  cases x with
  | none => cases h
  | some b => exact congrArg some (Except.ok.inj h)

/-! ## What every run keeps -/

/-- **What every run keeps.** -/
structure Sound (gm : Gm) : Prop where
  epoch : gm.lastReceivedEpoch = 0
  unset : ∀ i f, ∀ m ∈ gm.portMappings i f, m.interface = none
  nodup : ∀ i f, ((gm.portMappings i f).map (·.pointer)).Nodup
  apart : ∀ i f j g, ∀ m ∈ gm.portMappings i f, ∀ r ∈ gm.portMappings j g,
    m.pointer = r.pointer → i = j ∧ f = g
  bound : ∀ i f, ∀ m ∈ gm.portMappings i f, m.pointer < gm.nextPointer

/-- The state the program starts in. -/
theorem sound_init : Sound {} where
  epoch := rfl
  unset _ _ _ hm := absurd hm List.not_mem_nil
  nodup _ _ := List.nodup_nil
  apart _ _ _ _ _ hm := absurd hm List.not_mem_nil
  bound _ _ _ hm := absurd hm List.not_mem_nil

section Sound

variable {gm t : Gm}

/-- A pointer names one record. -/
theorem Sound.eq_of_pointer (h : Sound gm) {i j : GmInterfaceIndex} {f g : Family}
    {m r : PortMapping} (hm : m ∈ gm.portMappings i f) (hr : r ∈ gm.portMappings j g)
    (hp : m.pointer = r.pointer) : m = r := by
  obtain ⟨rfl, rfl⟩ := h.apart i f j g m hm r hr hp
  exact List.inj_on_of_nodup_map (h.nodup i f) hm hr hp

/-- Lists may lose records, and have them rewritten in place. -/
theorem Sound.of_sublist (h : Sound gm) (he : t.lastReceivedEpoch = 0)
    (hp : t.nextPointer = gm.nextPointer)
    (hunset : ∀ i f, ∀ m ∈ t.portMappings i f, m.interface = none)
    (hsub : ∀ i f, ((t.portMappings i f).map (·.pointer)).Sublist
      ((gm.portMappings i f).map (·.pointer))) : Sound t := by
  have hfrom : ∀ i f, ∀ m ∈ t.portMappings i f, ∃ r ∈ gm.portMappings i f, r.pointer = m.pointer :=
    fun i f m hm => List.mem_map.mp ((hsub i f).subset (List.mem_map_of_mem hm))
  refine ⟨he, hunset, fun i f => (h.nodup i f).sublist (hsub i f), ?_, ?_⟩
  · intro i f j g m hm r hr hmr
    obtain ⟨m', hm', hmp⟩ := hfrom i f m hm
    obtain ⟨r', hr', hrp⟩ := hfrom j g r hr
    exact h.apart i f j g m' hm' r' hr' (hmp.trans (hmr.trans hrp.symm))
  · intro i f m hm
    obtain ⟨m', hm', hmp⟩ := hfrom i f m hm
    rw [hp, ← hmp]
    exact h.bound i f m' hm'

/-- Soundness only looks at the lists, the epoch and the allocations. -/
theorem Sound.congr (h : Sound gm) (hl : t.portMappings = gm.portMappings)
    (he : t.lastReceivedEpoch = gm.lastReceivedEpoch) (hp : t.nextPointer = gm.nextPointer) :
    Sound t :=
  h.of_sublist (he.trans h.epoch) hp (hl ▸ h.unset) fun _ _ => hl ▸ List.Sublist.refl _

/-- One list may lose records, and have them rewritten in place. -/
theorem Sound.setList (h : Sound gm) {i : GmInterfaceIndex} {f : Family} {ms : List PortMapping}
    (hunset : ∀ m ∈ ms, m.interface = none)
    (hsub : (ms.map (·.pointer)).Sublist ((gm.portMappings i f).map (·.pointer))) :
    Sound (gm.setList i f ms) := by
  refine h.of_sublist h.epoch rfl (fun j g m hm => ?_) fun j g => ?_
  · rw [Gm.portMappings_setList] at hm
    split_ifs at hm
    exacts [hunset m hm, h.unset j g m hm]
  · rw [Gm.portMappings_setList]
    split_ifs with hjg
    · obtain ⟨rfl, rfl⟩ := hjg
      exact hsub
    · exact List.Sublist.refl _

/-- A new record may be added at the end of a list. -/
theorem Sound.add (h : Sound gm) (i : GmInterfaceIndex) (f : Family) {m : PortMapping}
    (hm : m.interface = none) (hp : m.pointer = gm.nextPointer) :
    Sound (gm.setList i f (gm.portMappings i f ++ [m])).allocated := by
  have hmem : ∀ j g r, r ∈ (gm.setList i f (gm.portMappings i f ++ [m])).portMappings j g →
      r ∈ gm.portMappings j g ∨ r = m ∧ j = i ∧ g = f := fun _ _ _ => Gm.mem_setList_append.mp
  have hnew : ∀ j g, ∀ r ∈ gm.portMappings j g, r.pointer ≠ m.pointer := fun j g r hr =>
    hp ▸ (h.bound j g r hr).ne
  refine ⟨h.epoch, ?_, ?_, ?_, ?_⟩
  · intro j g r hr
    obtain hr | ⟨rfl, -, -⟩ := hmem j g r hr
    exacts [h.unset j g r hr, hm]
  · intro j g
    change ((Gm.setList gm i f _).portMappings j g |>.map (·.pointer)).Nodup
    rw [Gm.portMappings_setList]
    split_ifs with hjg
    · obtain ⟨rfl, rfl⟩ := hjg
      rw [List.map_append, List.nodup_append]
      refine ⟨h.nodup j g, List.nodup_singleton _, ?_⟩
      intro a ha b hb
      obtain ⟨r, hr, rfl⟩ := List.mem_map.mp ha
      obtain rfl := List.mem_singleton.mp hb
      exact hnew j g r hr
    · exact h.nodup j g
  · intro j g k l r hr s hs hrs
    obtain hr' | ⟨rfl, rfl, rfl⟩ := hmem j g r hr <;>
      obtain hs' | ⟨rfl, rfl, rfl⟩ := hmem k l s hs
    · exact h.apart j g k l r hr' s hs' hrs
    · exact absurd hrs (hnew j g r hr')
    · exact absurd hrs.symm (hnew k l s hs')
    · exact ⟨rfl, rfl⟩
  · intro j g r hr
    obtain hr | ⟨rfl, -, -⟩ := hmem j g r hr
    exacts [(h.bound j g r hr).trans (Nat.lt_succ_self _), hp ▸ Nat.lt_succ_self _]

/-- A record may be rewritten through its pointer. -/
theorem Sound.update (h : Sound gm) (pointer : ℕ) {write : PortMapping → PortMapping}
    (hp : ∀ m, (write m).pointer = m.pointer) (hi : ∀ m, (write m).interface = m.interface) :
    Sound (gm.update pointer write) := by
  refine h.of_sublist h.epoch rfl (fun i f m hm => ?_) fun i f => ?_
  · obtain ⟨r, hr, rfl⟩ := List.mem_map.mp hm
    split_ifs
    exacts [(hi r).trans (h.unset i f r hr), h.unset i f r hr]
  · have hmap : ((gm.update pointer write).portMappings i f).map (·.pointer)
        = (gm.portMappings i f).map (·.pointer) := by
      rw [Gm.update, List.map_map]
      refine List.map_congr_left fun r _ => ?_
      rw [Function.comp_apply]
      split_ifs
      exacts [hp r, rfl]
    exact hmap ▸ List.Sublist.refl _

end Sound

/-! ## What the functions do -/

section Functions

variable {esp : EspNetif} {gm t : Gm}

@[simp] theorem setList_self (gm : Gm) (i : GmInterfaceIndex) (f : Family) :
    gm.setList i f (gm.portMappings i f) = gm := by
  have hl : (gm.setList i f (gm.portMappings i f)).portMappings = gm.portMappings := by
    funext j g
    rw [Gm.portMappings_setList]
    split_ifs with hjg
    exacts [by rw [hjg.1, hjg.2], rfl]
  exact congrArg (fun l => { gm with portMappings := l }) hl

/-- A walk whose coroutine leaves every record alone, and sends nothing. -/
theorem forEachMapping_id {freed : List ℕ}
    {f : ℕ → PortMapping → Except Fault (PortMapping × List Sent)} :
    ∀ (ms : List PortMapping) (n : ℕ) {r : List PortMapping × List Sent},
      (∀ n, ∀ m ∈ ms, ∀ s, f n m = .ok s → s = (m, [])) →
      forEachMapping freed f n ms = .ok r → r = (ms, []) := by
  intro ms
  induction ms with
  | nil => intro n r _ h; exact (Except.ok.inj h).symm
  | cons m ms ih =>
    intro n r hf h
    rw [forEachMapping] at h
    split_ifs at h
    · obtain ⟨s, hs, h⟩ := bind_ok h
      obtain ⟨s', hs', h⟩ := bind_ok h
      obtain rfl := hf n m List.mem_cons_self s hs
      obtain rfl := ih (n + 1) (fun n r hr => hf n r (List.mem_cons_of_mem m hr)) hs'
      exact (Except.ok.inj h).symm

/-- A coroutine that leaves every record of a list alone leaves the state alone. -/
theorem overStation_id {f : Family}
    {coroutine : ℕ → PortMapping → Except Fault (PortMapping × List Sent)}
    (hco : ∀ n, ∀ m ∈ gm.portMappings .sta f, ∀ s, coroutine n m = .ok s → s = (m, []))
    (h : overStation gm f coroutine = .ok t) : t = gm := by
  unfold overStation at h
  split_ifs at h
  · obtain ⟨r, hr, rfl⟩ := map_ok h
    obtain rfl := forEachMapping_id _ _ hco hr
    rw [setList_self, List.append_nil]
  · exact (Except.ok.inj h).symm

/-- A renewal follows the record's interface. -/
theorem renewMapping_of_unset {m : PortMapping} (hm : m.interface = none) :
    renewMapping gm m = .error .nullInterface := by rw [renewMapping, hm]

/-- Maintaining a record whose interface is null stops short, or does nothing. -/
theorem maintainMapping_of_unset {now : Timeval} {m : PortMapping} (hm : m.interface = none)
    {s : PortMapping × List Sent} (h : maintainMapping gm now m = .ok s) : s = (m, []) := by
  unfold maintainMapping at h
  rw [renewMapping_of_unset hm, renewMapping_of_unset (m := { m with type := .request }) hm] at h
  split at h
  · split_ifs at h
    · cases h
    · cases h
    · exact (Except.ok.inj h).symm
  · cases h

/-- **A tick that ends well did nothing**: every record it would have renewed has a null
interface. -/
theorem Sound.maintainMappings_ok (h : Sound gm) {clock : Family → ℕ → Timeval}
    (ht : maintainMappings gm clock = .ok t) : t = gm := by
  obtain ⟨u, hu, ht'⟩ := bind_ok ht
  obtain rfl := overStation_id
    (fun n m hm s hs => maintainMapping_of_unset (h.unset _ _ m hm) hs) hu
  exact overStation_id (fun n m hm s hs => maintainMapping_of_unset (h.unset _ _ m hm) hs) ht'

/-- No epoch is lower than zero. -/
theorem renewAllMappingsIfRouterHasReset_of_zero (h : gm.lastReceivedEpoch = 0) (p : PcpPacket) :
    renewAllMappingsIfRouterHasReset gm p = .ok gm := by
  unfold renewAllMappingsIfRouterHasReset
  rw [h, if_neg (UInt32.not_lt.mpr (UInt32.zero_le))]

/-- What the walk of `save_pcp_mapping` makes of a list: the record goes to its end, or takes the
place of the first one with its nonce and of all after it. -/
theorem saveIn_ok {freed : List ℕ} {m : PortMapping} {mallocOk : Bool} :
    ∀ {l : List PortMapping} {s : List PortMapping × Bool}, saveIn freed m mallocOk l = .ok s →
      (s = (l ++ [m], true) ∧ mallocOk = true ∧ ∀ r ∈ l, r.nonce ≠ m.nonce) ∨
      ∃ before r after, l = before ++ r :: after ∧ r.nonce = m.nonce ∧
        s = (before ++ [{ m with pointer := r.pointer }], false) := by
  intro l
  induction l with
  | nil =>
    intro s h
    cases mallocOk with
    | false => cases h
    | true => exact Or.inl ⟨(Except.ok.inj h).symm, rfl, fun r hr => absurd hr List.not_mem_nil⟩
  | cons r rs ih =>
    intro s h
    rw [saveIn] at h
    split_ifs at h with hfreed hnonce
    · exact Or.inr ⟨[], r, rs, rfl, hnonce, (Except.ok.inj h).symm⟩
    · obtain ⟨s', hs', rfl⟩ := map_ok h
      obtain ⟨rfl, hok, hne⟩ | ⟨before, r', after, rfl, hr', rfl⟩ := ih hs'
      · exact Or.inl ⟨rfl, hok, List.forall_mem_cons.mpr ⟨hnonce, hne⟩⟩
      · exact Or.inr ⟨r :: before, r', after, rfl, hr', rfl⟩

/-- **What saving a request does**: its record goes to the end of the list its client address is
taken to belong to, or takes the place of the first record with its nonce and of all after it. -/
theorem savePcpMapping_ok (he : gm.lastReceivedEpoch = 0) {p : PcpPacket} {i : GmInterfaceIndex}
    {frame : Frame} {now : Timeval} {mallocOk : Bool}
    (h : savePcpMapping gm p i frame now mallocOk = .ok t) :
    ∃ internal external m f, p.internalSockaddr frame = some internal ∧
      p.externalSockaddr frame = some external ∧ f = internal.family ∧
      m = savedMapping p internal external now gm.nextPointer ∧
      ((t = (gm.setList i f (gm.portMappings i f ++ [m])).allocated ∧
          ∀ r ∈ gm.portMappings i f, r.nonce ≠ p.nonce) ∨
        ∃ before r after, gm.portMappings i f = before ++ r :: after ∧ r.nonce = p.nonce ∧
          t = gm.setList i f (before ++ [{ m with pointer := r.pointer }])) := by
  obtain ⟨internal, hi, h⟩ := bind_ok h
  obtain ⟨external, hx, h⟩ := bind_ok h
  obtain ⟨s, hs, h⟩ := bind_ok h
  refine ⟨internal, external, _, _, orOverrun_ok hi, orOverrun_ok hx, rfl, rfl, ?_⟩
  obtain ⟨rfl, hok, hne⟩ | ⟨before, r, after, hl, hr, rfl⟩ := saveIn_ok hs
  · rw [if_pos rfl, renewAllMappingsIfRouterHasReset_of_zero (by exact he)] at h
    exact Or.inl ⟨(Except.ok.inj h).symm, hne⟩
  · exact Or.inr ⟨before, r, after, hl, hr, (Except.ok.inj h).symm⟩

/-- What `find_mapping` finds. -/
theorem findIn_ok {freed : List ℕ} {nonce : Bytes 12} : ∀ {l : List PortMapping}
    {r : Option PortMapping}, findIn freed nonce l = .ok r →
      (r = none ∧ ∀ m ∈ l, m.nonce ≠ nonce) ∨
      ∃ m ∈ l, r = some m ∧ m.nonce = nonce ∧ m.pointer ∉ freed := by
  intro l
  induction l with
  | nil => intro r h; exact Or.inl ⟨(Except.ok.inj h).symm, fun m hm => absurd hm List.not_mem_nil⟩
  | cons m ms ih =>
    intro r h
    rw [findIn] at h
    split_ifs at h with hfreed hnonce
    · exact Or.inr ⟨m, List.mem_cons_self, (Except.ok.inj h).symm, hnonce, hfreed⟩
    · obtain ⟨rfl, hne⟩ | ⟨m', hm', hr⟩ := ih h
      · exact Or.inl ⟨rfl, List.forall_mem_cons.mpr ⟨hnonce, hne⟩⟩
      · exact Or.inr ⟨m', List.mem_cons_of_mem m hm', hr⟩

/-- The second half of a removal. -/
theorem removeAfterHead_ok {pointer : ℕ} : ∀ {fs : List Family},
    removeAfterHead gm pointer fs = .ok t →
      (∃ f head second rest, gm.portMappings .sta f = head :: second :: rest ∧
        second.pointer = pointer ∧
        t = { gm.setList .sta f (head :: rest) with freed := head.pointer :: gm.freed }) ∨
      (t = gm ∧ ∀ f ∈ fs, gm.portMappings .sta f = []) := by
  intro fs
  induction fs with
  | nil =>
    intro h
    exact Or.inr ⟨(Except.ok.inj h).symm, fun f hf => absurd hf List.not_mem_nil⟩
  | cons f fs ih =>
    intro h
    rw [removeAfterHead] at h
    split at h
    next hl => exact (ih h).imp_right fun ⟨ht, hfs⟩ => ⟨ht, List.forall_mem_cons.mpr ⟨hl, hfs⟩⟩
    next => cases h
    next head second rest hl =>
      split_ifs at h with hfreed hsecond
      exact Or.inl ⟨f, head, second, rest, hl, hsecond, (Except.ok.inj h).symm⟩

/-- **What a removal does**, when it ends: the head of a station list is unlinked; or the record
after it is, and the head freed; or nothing, the station having no record. -/
theorem removePcpMapping_ok {m : PortMapping} (h : removePcpMapping gm m = .ok t) :
    (∃ f, headsList gm m.pointer f = true ∧
      t = gm.setList .sta f (gm.portMappings .sta f).tail) ∨
    (∃ f head second rest, gm.portMappings .sta f = head :: second :: rest ∧
      second.pointer = m.pointer ∧
      t = { gm.setList .sta f (head :: rest) with freed := head.pointer :: gm.freed }) ∨
    (t = gm ∧ ∀ f, gm.portMappings .sta f = []) := by
  unfold removePcpMapping at h
  split_ifs at h with h4 h6
  · exact Or.inl ⟨.ip4, h4, (Except.ok.inj h).symm⟩
  · exact Or.inl ⟨.ip6, h6, (Except.ok.inj h).symm⟩
  · refine Or.inr ((removeAfterHead_ok h).imp_right fun ⟨ht, hfs⟩ => ⟨ht, fun f => hfs f ?_⟩)
    cases f <;> simp

/-- **What a MAP response does**, where interfaces are null: nothing, its nonce being unknown; or
the record found is removed; or it is granted. -/
theorem Sound.decodePcpMap_ok (h : Sound gm) {p : PcpPacket} {frame : Frame} {now : Timeval}
    (ht : decodePcpMap esp gm p frame now = .ok t) :
    (t = gm ∧ ∀ m ∈ gm.records, m.nonce ≠ p.nonce) ∨
    ∃ m ∈ gm.records, m.nonce = p.nonce ∧
      ((p.resultCode ≠ pcpSuccess ∧ removePcpMapping gm m = .ok t) ∨
        (p.resultCode = pcpSuccess ∧ esp.Usable p.externalAddress ∧
          ∃ external, p.externalSockaddr frame = some external ∧
            t = gm.update m.pointer fun r => r.grant external now p.lifetime)) := by
  obtain ⟨r, hr, ht⟩ := bind_ok ht
  obtain ⟨rfl, hne⟩ | ⟨m, hm, rfl, hnonce, -⟩ := findIn_ok hr
  · exact Or.inl ⟨(Except.ok.inj ht).symm, hne⟩
  · refine Or.inr ⟨m, hm, hnonce, ?_⟩
    obtain ⟨i, f, hmem⟩ := Gm.mem_records.mp hm
    dsimp only at ht
    rw [h.unset i f m hmem] at ht
    split_ifs at ht with hcode husable
    · exact Or.inl ⟨hcode, ht⟩
    · obtain ⟨external, hx, ht⟩ := bind_ok ht
      exact Or.inr ⟨of_not_not hcode, husable, external, orOverrun_ok hx,
        (Except.ok.inj ht).symm⟩

/-- A datagram the client looks into: it comes from the router of the interface selected for its
source, and from the server port. -/
def Heeded (gm : Gm) (address : SockAddr) : Prop :=
  ∃ i, interfaceForSockaddr gm address = some i ∧ isRouter (gm.netInterfaces i) address = true ∧
    swap16 address.port = pcpServerPort

/-- The router is heeded at home. -/
theorem heeded_homeRouter {gm : Gm} (h : gm.netInterfaces = atHome.netInterfaces) :
    Heeded gm homeRouter := by
  refine ⟨.sta, ?_, ?_, by decide⟩
  · rw [interfaceForSockaddr, h]
    decide +kernel
  · rw [h]
    decide

instance (gm : Gm) (address : SockAddr) : Decidable (Heeded gm address) :=
  decidable_of_iff ((interfaceForSockaddr gm address).any fun i =>
      isRouter (gm.netInterfaces i) address && swap16 address.port == pcpServerPort) (by
    simp [Heeded, Option.any_eq_true])

theorem decodePacket_of_heeded {address : SockAddr} (h : Heeded gm address) (p : PcpPacket)
    (messageSize : ℕ) (frame : Frame) (now : Timeval) :
    decodePacket esp gm p messageSize address frame now
      = decodeOpcode esp gm p messageSize frame now := by
  obtain ⟨i, hi, hrouter, hport⟩ := h
  unfold decodePacket
  rw [hi]
  dsimp only
  rw [hrouter, if_neg (by decide), if_neg (not_not_intro hport)]

/-- A datagram that is not heeded changes nothing. -/
theorem decodePacket_of_not_heeded {address : SockAddr} (h : ¬ Heeded gm address) {p : PcpPacket}
    {messageSize : ℕ} {frame : Frame} {now : Timeval}
    (ht : decodePacket esp gm p messageSize address frame now = .ok t) : t = gm := by
  unfold decodePacket at ht
  split at ht
  next => cases ht
  next i hi =>
    split_ifs at ht with hrouter hport
    · exact (Except.ok.inj ht).symm
    · exact (Except.ok.inj ht).symm
    · exact absurd ⟨i, hi, by simpa using hrouter, of_not_not hport⟩ h

/-- The opcode tests of `decode_packet` single out one byte. -/
theorem opcode_eq_iff (o : UInt8) :
    o = pcpMap ||| pcpResponse ↔ o &&& pcpOpcodeMask = pcpMap ∧ o &&& pcpResponse ≠ 0 := by
  have hall : ∀ n : Fin 256, UInt8.ofFin n = pcpMap ||| pcpResponse ↔
      UInt8.ofFin n &&& pcpOpcodeMask = pcpMap ∧ UInt8.ofFin n &&& pcpResponse ≠ 0 := by
    decide +kernel
  exact hall o.toFin

/-- A whole MAP response goes to `decode_pcp_map`. -/
theorem decodeOpcode_of_mapResponse {p : PcpPacket} {messageSize : ℕ}
    (h : p.IsMapResponse messageSize) (frame : Frame) (now : Timeval) :
    decodeOpcode esp gm p messageSize frame now = decodePcpMap esp gm p frame now := by
  obtain ⟨hmap, hresponse⟩ := (opcode_eq_iff p.opcode).mp h.1
  unfold decodeOpcode
  rw [hmap, if_neg (by decide), if_pos rfl, if_neg hresponse, if_neg (Nat.not_lt.mpr h.2)]

/-- Any other packet changes nothing, as long as the remembered epoch is zero. -/
theorem decodeOpcode_of_not_mapResponse (he : gm.lastReceivedEpoch = 0) {p : PcpPacket}
    {messageSize : ℕ} (h : ¬ p.IsMapResponse messageSize) (frame : Frame) (now : Timeval) :
    decodeOpcode esp gm p messageSize frame now = .ok gm := by
  unfold decodeOpcode decodePcpAnnounce
  rw [renewAllMappingsIfRouterHasReset_of_zero he]
  split_ifs with h1 h2 h3 h4 h5
  any_goals rfl
  exact absurd ⟨(opcode_eq_iff p.opcode).mpr ⟨h3, h4⟩, Nat.not_lt.mp h5⟩ h

/-- **What a datagram does**: nothing, unless it is a whole MAP response the client heeds. -/
theorem decodePacket_ok (he : gm.lastReceivedEpoch = 0) {p : PcpPacket} {messageSize : ℕ}
    {address : SockAddr} {frame : Frame} {now : Timeval}
    (ht : decodePacket esp gm p messageSize address frame now = .ok t) :
    t = gm ∨ Heeded gm address ∧ p.IsMapResponse messageSize ∧
      decodePcpMap esp gm p frame now = .ok t := by
  by_cases hh : Heeded gm address
  · rw [decodePacket_of_heeded hh] at ht
    by_cases hm : p.IsMapResponse messageSize
    · rw [decodeOpcode_of_mapResponse hm] at ht
      exact Or.inr ⟨hh, hm, ht⟩
    · rw [decodeOpcode_of_not_mapResponse he hm] at ht
      exact Or.inl (Except.ok.inj ht).symm
  · exact Or.inl (decodePacket_of_not_heeded hh ht)

/-- What a stop leaves. -/
theorem gmPcpStop_ok (h : gmPcpStop gm = .ok t) :
    t.portMappings = (fun _ _ => []) ∧ t.lastReceivedEpoch = gm.lastReceivedEpoch ∧
      t.nextPointer = gm.nextPointer ∧ t.pending = gm.pending ∧ t.sent = gm.sent := by
  unfold gmPcpStop at h
  split_ifs at h
  obtain rfl := Except.ok.inj h
  exact ⟨rfl, rfl, rfl, rfl, rfl⟩

end Functions

/-! ## Every step is sound -/

section Step

variable {esp : EspNetif} {gm t : Gm}

theorem Sound.savePcpMapping (h : Sound gm) {p : PcpPacket} {i : GmInterfaceIndex} {frame : Frame}
    {now : Timeval} {mallocOk : Bool}
    (ht : savePcpMapping gm p i frame now mallocOk = .ok t) : Sound t := by
  obtain ⟨internal, external, m, f, -, -, -, rfl, ⟨rfl, -⟩ | ⟨before, r, after, hl, -, rfl⟩⟩ :=
    savePcpMapping_ok h.epoch ht
  · exact h.add i f rfl rfl
  · have hunset := h.unset i f
    rw [hl] at hunset
    refine h.setList (fun m hm => ?_) ?_
    · obtain hm | hm := List.mem_append.mp hm
      · exact hunset m (List.mem_append_left _ hm)
      · rw [List.mem_singleton.mp hm]
        rfl
    · rw [hl, List.map_append, List.map_append]
      exact (List.Sublist.refl _).append (List.Sublist.cons_cons _ (List.nil_sublist _))

theorem Sound.removePcpMapping (h : Sound gm) {m : PortMapping}
    (ht : removePcpMapping gm m = .ok t) : Sound t := by
  obtain ⟨f, -, rfl⟩ | ⟨f, head, second, rest, hl, -, rfl⟩ | ⟨rfl, -⟩ := removePcpMapping_ok ht
  · exact h.setList (fun m hm => h.unset _ _ m (List.mem_of_mem_tail hm))
      ((List.tail_sublist _).map _)
  · have hunset := h.unset .sta f
    rw [hl] at hunset
    have hunlinked : Sound (gm.setList .sta f (head :: rest)) := by
      refine h.setList (fun m hm => ?_) ?_
      · exact hunset m (by simp only [List.mem_cons] at hm ⊢; tauto)
      · rw [hl]
        exact ((List.sublist_cons_self second rest).cons_cons head).map _
    exact hunlinked.congr rfl rfl rfl
  · exact h

theorem Sound.decodePacket (h : Sound gm) {p : PcpPacket} {messageSize : ℕ} {address : SockAddr}
    {frame : Frame} {now : Timeval}
    (ht : decodePacket esp gm p messageSize address frame now = .ok t) : Sound t := by
  obtain rfl | ⟨-, -, ht⟩ := decodePacket_ok h.epoch ht
  · exact h
  · obtain ⟨rfl, -⟩ | ⟨m, -, -, ⟨-, ht⟩ | ⟨-, -, external, -, rfl⟩⟩ := h.decodePcpMap_ok ht
    · exact h
    · exact h.removePcpMapping ht
    · exact h.update m.pointer (fun _ => rfl) fun _ => rfl

/-- **Every step is sound.** -/
theorem Sound.step (h : Sound gm) {e : Event} (ht : step esp gm e = .ok t) : Sound t := by
  cases e with
  | save k frame now mallocOk =>
    cases hr : gm.pending[k]? with
    | none =>
      rw [step_save_none hr] at ht
      exact Except.ok.inj ht ▸ h
    | some r =>
      rw [step_save_some hr] at ht
      have hu : Sound { gm with pending := gm.pending.eraseIdx k } := h.congr rfl rfl rfl
      exact hu.savePcpMapping ht
  | packet p messageSize address frame now => exact h.decodePacket ht
  | tick clock => exact h.maintainMappings_ok ht ▸ h
  | stop =>
    obtain ⟨hl, he, hp, -⟩ := gmPcpStop_ok ht
    refine h.of_sublist (he.trans h.epoch) hp (fun i f m hm => ?_) fun i f => ?_
    · rw [hl] at hm
      exact absurd hm List.not_mem_nil
    · rw [hl]
      exact List.nil_sublist _
  | _ =>
    have hsame : SameRecords gm t := sameRecords_of_quiet rfl ht
    exact h.congr hsame.lists hsame.epoch hsame.nextPointer

theorem Sound.next (h : Sound gm) {e : Event} (ht : next esp gm e = some t) : Sound t :=
  h.step (next_eq_some.mp ht)

end Step

end Pcp
