import HtFirmware.Pcp.System

/-!
# Pcp/Maintain — what a tick owes the mappings

At a tick, a granted mapping that has expired is a request again, and a renewal is due for every
mapping that is not granted, has expired, or has less than a third of its lifetime left.
`maintained` and `due` say this of one record, `Maintains` of a whole step.

The comparison in `maintain_mappings` is the other way round, so every granted record is treated
wrongly: one that has not expired is made a request, one that has stays granted.  What is left is
right: a tick meets its obligations exactly where it meets no granted record, and can renew every
record it meets (`maintains_iff`).
-/

open Machinery

namespace Pcp

/-! ## What a tick owes -/

/-- The record after a tick: a granted one whose expiration time is not later than now is a request
again. -/
def maintained (now : Timeval) (m : PortMapping) : PortMapping :=
  if m.type = .granted ∧ m.expirationTime.later now = false then { m with type := .request } else m

/-- A renewal is due. -/
def due (now : Timeval) (m : PortMapping) : Bool :=
  m.type ≠ .granted || !m.expirationTime.later now ||
    decide ((m.expirationTime.sub now).sec < (m.lifetime / 3).toNat)

/-- A list after a tick, `n` records having come before it. -/
def maintainedFrom (clock : ℕ → Timeval) : ℕ → List PortMapping → List PortMapping
  | _, [] => []
  | n, m :: ms => maintained (clock n) m :: maintainedFrom clock (n + 1) ms

/-- The records of a list a renewal is due for. -/
def dueFrom (clock : ℕ → Timeval) : ℕ → List PortMapping → List PortMapping
  | _, [] => []
  | n, m :: ms => (if due (clock n) m then [m] else []) ++ dueFrom clock (n + 1) ms

/-- The records of the station's lists a renewal is due for, where the socket is open. -/
def dueMappings (gm : Gm) (clock : Family → ℕ → Timeval) (f : Family) : List PortMapping :=
  if 0 ≤ gm.socket f then dueFrom (clock f) 0 (gm.portMappings .sta f) else []

/-- **A tick maintained the mappings**: the lists whose socket is open are as they have to be, and
the renewals that are due, and no others, were sent. -/
structure Maintained (gm : Gm) (clock : Family → ℕ → Timeval) (t : Gm) (sent : List Sent) : Prop where
  lists : ∀ f, 0 ≤ gm.socket f →
    t.portMappings .sta f = maintainedFrom (clock f) 0 (gm.portMappings .sta f)
  sent_eq : t.sent = gm.sent ++ sent
  renewals : sent.map (·.packet.nonce)
    = (dueMappings gm clock .ip4 ++ dueMappings gm clock .ip6).map (·.nonce)
  sockets : ∀ x ∈ sent, 0 ≤ x.socket

/-- A tick of the run maintains the mappings. -/
def Maintains (esp : EspNetif) (gm : Gm) : Event → Prop
  | .tick clock => ∃ t sent, step esp gm (.tick clock) = .ok t ∧ Maintained gm clock t sent
  | _ => True

/-! ## What it takes -/

/-- A record a tick treats as it should: it is there, it is a request, its interface is known, and
the socket it is renewed on is open. -/
structure Renewable (gm : Gm) (m : PortMapping) : Prop where
  live : m.pointer ∉ gm.freed
  request : m.type = .request
  interface : m.interface ≠ none
  socket : 0 ≤ gm.socket m.external.family

/-- The records a tick meets are all renewable. -/
def TickRenewable (gm : Gm) : Event → Prop
  | .tick _ => ∀ f, 0 ≤ gm.socket f → ∀ m ∈ gm.portMappings .sta f, Renewable gm m
  | _ => True

section Record

variable {gm : Gm} {m : PortMapping} {now : Timeval}

/-- A request is renewed, and left as it is. -/
theorem maintainMapping_request (h : m.type = .request) :
    maintainMapping gm now m = (renewMapping gm m).map fun sent => (m, [sent]) := by
  rw [maintainMapping, h]

theorem maintained_request (h : m.type = .request) : maintained now m = m := by
  rw [maintained, h, if_neg (fun hm => absurd hm.1 (by decide))]

theorem due_request (h : m.type = .request) : due now m = true := by
  rw [due, h]
  rfl

/-- **No granted record is treated as it should** — the comparison is the other way round. -/
theorem maintainMapping_granted (h : m.type = .granted) {s : PortMapping × List Sent}
    (hs : maintainMapping gm now m = .ok s) : s.1 ≠ maintained now m := by
  intro heq
  have htype := congrArg PortMapping.type heq
  rw [maintainMapping, h] at hs
  dsimp only at hs
  rw [maintained, h] at htype
  cases hl : m.expirationTime.later now with
  | true =>
    rw [hl, if_pos rfl] at hs
    obtain ⟨x, -, rfl⟩ := map_ok hs
    rw [hl, if_neg (fun hm => absurd hm.2 (by decide)), h] at htype
    cases htype
  | false =>
    rw [hl, if_neg (by decide)] at hs
    rw [hl, if_pos ⟨rfl, rfl⟩] at htype
    split_ifs at hs
    · obtain ⟨x, -, rfl⟩ := map_ok hs
      rw [h] at htype
      cases htype
    · obtain rfl := Except.ok.inj hs
      rw [h] at htype
      cases htype

/-- A renewal carries the nonce of its record, and goes out on the socket of its external family. -/
theorem renewMapping_ok {x : Sent} (h : renewMapping gm m = .ok x) :
    m.interface ≠ none ∧ x.packet.nonce = m.nonce ∧ x.socket = gm.socket m.external.family := by
  unfold renewMapping at h
  split at h
  next => cases h
  next i hi =>
    obtain rfl := Except.ok.inj h
    refine ⟨by rw [hi]; exact Option.some_ne_none i, ?_, rfl⟩
    unfold renewPacket
    dsimp only
    cases m.external <;> rfl

theorem renewMapping_of_interface (gm : Gm) (h : m.interface ≠ none) : ∃ x, renewMapping gm m = .ok x := by
  obtain ⟨i, hi⟩ := Option.ne_none_iff_exists'.mp h
  rw [renewMapping, hi]
  exact ⟨_, rfl⟩

end Record

/-! ## Lists -/

section Lists

variable {gm : Gm} {clock : ℕ → Timeval}

/-- The walk of a tick over renewable records. -/
theorem forEachMapping_renewable (gm : Gm) (clock : ℕ → Timeval) : ∀ (ms : List PortMapping) (n : ℕ),
    (∀ m ∈ ms, Renewable gm m) → ∃ sent,
      forEachMapping gm.freed (fun n => maintainMapping gm (clock n)) n ms
        = .ok (maintainedFrom clock n ms, sent) ∧
      sent.map (·.packet.nonce) = (dueFrom clock n ms).map (·.nonce) ∧ ∀ x ∈ sent, 0 ≤ x.socket := by
  intro ms
  induction ms with
  | nil => intro n _; exact ⟨[], rfl, rfl, fun x hx => absurd hx List.not_mem_nil⟩
  | cons m ms ih =>
    intro n h
    obtain ⟨hm, hms⟩ := List.forall_mem_cons.mp h
    obtain ⟨sent, hwalk, hnonces, hsockets⟩ := ih (n + 1) hms
    obtain ⟨x, hx⟩ := renewMapping_of_interface gm hm.interface
    obtain ⟨-, hnonce, hsocket⟩ := renewMapping_ok hx
    refine ⟨x :: sent, ?_, ?_, ?_⟩
    · rw [forEachMapping, if_neg hm.live, maintainMapping_request hm.request, hx, hwalk,
        maintainedFrom, maintained_request hm.request]
      rfl
    · rw [dueFrom, due_request hm.request, if_pos rfl, List.map_cons, hnonce, hnonces]
      rfl
    · exact List.forall_mem_cons.mpr ⟨hsocket ▸ hm.socket, hsockets⟩

/-- A walk that leaves a list as it should met renewable records only. -/
theorem renewable_of_forEachMapping : ∀ (ms : List PortMapping) (n : ℕ)
    {r : List PortMapping × List Sent},
    forEachMapping gm.freed (fun n => maintainMapping gm (clock n)) n ms = .ok r →
      r.1 = maintainedFrom clock n ms → (∀ x ∈ r.2, 0 ≤ x.socket) →
      ∀ m ∈ ms, Renewable gm m := by
  intro ms
  induction ms with
  | nil => intro n r _ _ _ m hm; exact absurd hm List.not_mem_nil
  | cons m ms ih =>
    intro n r h hlist hsockets
    rw [forEachMapping] at h
    split_ifs at h with hlive
    obtain ⟨s, hs, h⟩ := bind_ok h
    obtain ⟨s', hs', h⟩ := bind_ok h
    obtain rfl := (Except.ok.inj h).symm
    obtain ⟨hhead, htail⟩ := List.cons.inj hlist
    have hrequest : m.type = .request := by
      cases htype : m.type with
      | request => rfl
      | granted => exact absurd hhead (maintainMapping_granted htype hs)
    rw [maintainMapping_request hrequest] at hs
    obtain ⟨x, hx, rfl⟩ := map_ok hs
    obtain ⟨hinterface, -, hsocket⟩ := renewMapping_ok hx
    have hx0 : 0 ≤ x.socket := hsockets x (List.mem_append_left _ (List.mem_singleton_self x))
    refine List.forall_mem_cons.mpr ⟨⟨hlive, hrequest, hinterface, hsocket ▸ hx0⟩, ?_⟩
    exact ih (n + 1) hs' htail fun y hy => hsockets y (List.mem_append_right _ hy)

end Lists

/-! ## One family -/

/-- The walk of one family leaves the sockets, the allocations and the other list alone. -/
structure Framed (gm : Gm) (f : Family) (t : Gm) : Prop where
  freed : t.freed = gm.freed
  socket : ∀ g, t.socket g = gm.socket g
  lists : ∀ g, g ≠ f → t.portMappings .sta g = gm.portMappings .sta g

section Family

variable {gm t : Gm} {f : Family} {clock : ℕ → Timeval}

theorem Framed.renewable (h : Framed gm f t) {m : PortMapping} :
    Renewable t m ↔ Renewable gm m := by
  constructor <;> rintro ⟨hlive, hrequest, hinterface, hsocket⟩
  · exact ⟨h.freed ▸ hlive, hrequest, hinterface, h.socket _ ▸ hsocket⟩
  · exact ⟨h.freed ▸ hlive, hrequest, hinterface, (h.socket _).symm ▸ hsocket⟩

/-- The records of a family's list, where the socket is open, are renewable. -/
def FamilyRenewable (gm : Gm) (f : Family) : Prop :=
  0 ≤ gm.socket f → ∀ m ∈ gm.portMappings .sta f, Renewable gm m

/-- The list of a family, where the socket is open, is as it has to be. -/
def FamilyMaintained (gm : Gm) (f : Family) (clock : ℕ → Timeval) (t : Gm) : Prop :=
  0 ≤ gm.socket f → t.portMappings .sta f = maintainedFrom clock 0 (gm.portMappings .sta f)

/-- What the walk of a family sends, and what it takes for it to be right. -/
theorem overStation_ok
    (h : overStation gm f (fun n => maintainMapping gm (clock n)) = .ok t) :
    ∃ sent, t.sent = gm.sent ++ sent ∧ Framed gm f t ∧
      (FamilyMaintained gm f clock t → (∀ x ∈ sent, 0 ≤ x.socket) → FamilyRenewable gm f) := by
  unfold overStation at h
  split_ifs at h with hopen
  · obtain ⟨r, hr, rfl⟩ := map_ok h
    refine ⟨r.2, rfl, ⟨rfl, fun _ => rfl, fun g hg => ?_⟩, fun hlist hsockets _ => ?_⟩
    · exact if_neg fun hsame => hg hsame.2
    · have hr1 : r.1 = maintainedFrom clock 0 (gm.portMappings .sta f) :=
        (if_pos ⟨rfl, rfl⟩).symm.trans (hlist hopen)
      exact renewable_of_forEachMapping _ 0 hr hr1 hsockets
  · obtain rfl := Except.ok.inj h
    exact ⟨[], (List.append_nil _).symm, ⟨rfl, fun _ => rfl, fun _ _ => rfl⟩,
      fun _ _ h0 => absurd h0 hopen⟩

/-- The walk of a family whose records are renewable. -/
theorem overStation_of_renewable (clock : ℕ → Timeval) (h : FamilyRenewable gm f) :
    ∃ t sent, overStation gm f (fun n => maintainMapping gm (clock n)) = .ok t ∧
      t.sent = gm.sent ++ sent ∧ Framed gm f t ∧ FamilyMaintained gm f clock t ∧
      sent.map (·.packet.nonce)
        = (if 0 ≤ gm.socket f then dueFrom clock 0 (gm.portMappings .sta f) else []).map (·.nonce) ∧
      ∀ x ∈ sent, 0 ≤ x.socket := by
  unfold overStation
  by_cases hopen : 0 ≤ gm.socket f
  · obtain ⟨sent, hwalk, hnonces, hsockets⟩ :=
      forEachMapping_renewable gm clock (gm.portMappings .sta f) 0 (h hopen)
    rw [if_pos hopen, if_pos hopen, hwalk]
    refine ⟨_, sent, rfl, rfl, ⟨rfl, fun _ => rfl, fun g hg => ?_⟩, fun _ => ?_, hnonces, hsockets⟩
    · exact if_neg fun hsame => hg hsame.2
    · exact if_pos ⟨rfl, rfl⟩
  · rw [if_neg hopen, if_neg hopen]
    exact ⟨gm, [], rfl, (List.append_nil _).symm, ⟨rfl, fun _ => rfl, fun _ _ => rfl⟩,
      fun h0 => absurd h0 hopen, rfl, fun x hx => absurd hx List.not_mem_nil⟩

end Family

/-! ## Ticks and runs -/

section Tick

variable {esp : EspNetif} {gm : Gm}

/-- A tick that maintained the mappings met renewable records only. -/
theorem tickRenewable_of_maintained {clock : Family → ℕ → Timeval} {t : Gm} {sent : List Sent}
    (ht : maintainMappings gm clock = .ok t) (h : Maintained gm clock t sent) (f : Family) :
    FamilyRenewable gm f := by
  obtain ⟨u, hu, ht'⟩ := bind_ok ht
  obtain ⟨sent4, hsent4, hframe4, h4⟩ := overStation_ok hu
  obtain ⟨sent6, hsent6, hframe6, h6⟩ := overStation_ok ht'
  have hsent : sent = sent4 ++ sent6 := by
    have heq := h.sent_eq
    rw [hsent6, hsent4, List.append_assoc] at heq
    exact (List.append_cancel_left heq).symm
  have hu6 : u.portMappings .sta .ip6 = gm.portMappings .sta .ip6 := hframe4.lists .ip6 (by decide)
  have hsockets := h.sockets
  rw [hsent, List.forall_mem_append] at hsockets
  cases f with
  | ip4 =>
    refine h4 (fun hopen => ?_) hsockets.1
    rw [← hframe6.lists .ip4 (by decide)]
    exact h.lists .ip4 hopen
  | ip6 =>
    have hrenewable : FamilyRenewable u .ip6 := by
      refine h6 (fun hopen => ?_) hsockets.2
      rw [hu6]
      exact h.lists .ip6 (hframe4.socket .ip6 ▸ hopen)
    intro hopen m hm
    exact hframe4.renewable.mp (hrenewable (hframe4.socket .ip6 ▸ hopen) m (hu6 ▸ hm))

/-- A tick that meets renewable records only maintains the mappings. -/
theorem maintained_of_tickRenewable (h : ∀ f, FamilyRenewable gm f)
    (clock : Family → ℕ → Timeval) :
    ∃ t sent, maintainMappings gm clock = .ok t ∧ Maintained gm clock t sent := by
  obtain ⟨u, sent4, hu, hsent4, hframe4, hlist4, hnonces4, hsockets4⟩ :=
    overStation_of_renewable (clock .ip4) (h .ip4)
  have hu6 : u.portMappings .sta .ip6 = gm.portMappings .sta .ip6 := hframe4.lists .ip6 (by decide)
  have h6 : FamilyRenewable u .ip6 := fun hopen m hm =>
    hframe4.renewable.mpr (h .ip6 (hframe4.socket .ip6 ▸ hopen) m (hu6 ▸ hm))
  obtain ⟨t, sent6, ht, hsent6, hframe6, hlist6, hnonces6, hsockets6⟩ :=
    overStation_of_renewable (clock .ip6) h6
  refine ⟨t, sent4 ++ sent6, ?_, ?_⟩
  · unfold maintainMappings
    rw [hu]
    exact ht
  · refine ⟨fun f hopen => ?_, ?_, ?_, List.forall_mem_append.mpr ⟨hsockets4, hsockets6⟩⟩
    · cases f with
      | ip4 => exact (hframe6.lists .ip4 (by decide)).trans (hlist4 hopen)
      | ip6 => exact (hlist6 (hframe4.socket .ip6 ▸ hopen)).trans (by rw [hu6])
    · rw [hsent6, hsent4, List.append_assoc]
    · rw [List.map_append, List.map_append, hnonces4, hnonces6, hframe4.socket, hu6]
      rfl

/-- **A tick meets its obligations exactly where it meets renewable records only.** -/
theorem maintains_iff (gm : Gm) (e : Event) : Maintains esp gm e ↔ TickRenewable gm e := by
  cases e with
  | tick clock =>
    refine ⟨fun ⟨t, sent, ht, h⟩ f => tickRenewable_of_maintained ht h f, fun h => ?_⟩
    exact maintained_of_tickRenewable (fun f => h f) clock
  | _ => exact Iff.rfl

/-- **The ticks of a run maintain the mappings exactly when every record they meet is renewable** —
there, still a request, its interface known, and its socket open. -/
theorem maintains_iff_tickRenewable (esp : EspNetif) (gm : Gm) (events : List Event) :
    (∀ v ∈ visits (next esp) gm events, Maintains esp v.1 v.2) ↔
      ∀ v ∈ visits (next esp) gm events, TickRenewable v.1 v.2 :=
  forall_visits_iff (I := fun _ => True) (fun gm e _ => maintains_iff gm e)
    (fun _ _ _ _ _ _ => trivial) events gm trivial

end Tick

/-- A granted mapping of the station, with fifteen minutes left at time zero. -/
def grantedMapping : PortMapping where
  pointer := 0
  lifetime := requestedMappingDuration
  interface := some .sta
  grantedTime := {}
  expirationTime := ⟨900, 0⟩
  internal := .inet ![192, 168, 1, 5] (swap16 httpsPort)
  external := .inet ![203, 0, 113, 9] (swap16 externalHttpsPort)
  nonce := fun _ => 7
  protocol := gmPcpTcp
  type := .granted

/-- The station has that mapping, and its socket is open. -/
def withGranted : Gm where
  netInterfaces := atHome.netInterfaces
  portMappings i f := if i = .sta ∧ f = .ip4 then [grantedMapping] else []
  ipv4Socket := 3
  nextPointer := 1

/-- **A mapping just granted is made a request again.** -/
theorem not_maintains_granted :
    ¬ ∀ v ∈ visits (next lwipNetif) withGranted [.tick fun _ _ => {}], Maintains lwipNetif v.1 v.2 := by
  intro h
  obtain ⟨t, sent, ht, hm⟩ := h (withGranted, .tick fun _ _ => {}) List.mem_cons_self
  have ht' : maintainMappings withGranted (fun _ _ => {}) = .ok t := ht
  have hrenewable := tickRenewable_of_maintained ht' hm .ip4 (by decide) grantedMapping
    (List.mem_singleton_self _)
  exact absurd hrenewable.request (by decide)

end Pcp
