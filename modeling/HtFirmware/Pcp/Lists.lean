import HtFirmware.Pcp.System

/-!
# Pcp/Lists — taking a record off its list, and saving one

`remove_pcp_mapping` should take one record off the list that holds it, and free it (`Removes`).  It
never does: the head of a list is not freed, the record after it is unlinked and the *head* freed,
and for any other the loop does not end (`not_removes`).

`save_pcp_mapping` should leave one record for the packet's nonce, and every other record where it
was (`Saves`).  Replacing a record writes over its link, so the records after it are lost;
`saves_iff` says for which lists and which packets nothing is.
-/

open Machinery

namespace Pcp

/-! ## Removing a record -/

/-- The record is taken off a list of the station and freed, nothing else is, and no list runs
through a freed record. -/
structure RemovedFrom (gm t : Gm) (f : Family) (m : PortMapping) : Prop where
  list : t.portMappings .sta f = (gm.portMappings .sta f).erase m
  others : ∀ i g, i ≠ .sta ∨ g ≠ f → t.portMappings i g = gm.portMappings i g
  freed : t.freed = m.pointer :: gm.freed
  live : ∀ r ∈ t.records, r.pointer ∉ t.freed

/-- `remove_pcp_mapping` comes to its end, and removes the record. -/
def Removes (gm : Gm) (f : Family) (m : PortMapping) : Prop :=
  ∃ t, removePcpMapping gm m = .ok t ∧ RemovedFrom gm t f m

/-- **No record is ever removed**, wherever it is in its list. -/
theorem not_removes (gm : Gm) (f : Family) (m : PortMapping) : ¬ Removes gm f m := by
  rintro ⟨t, ht, hremoved⟩
  have hfreed := hremoved.freed
  obtain ⟨g, -, rfl⟩ | ⟨g, head, second, rest, -, -, rfl⟩ | ⟨rfl, -⟩ := removePcpMapping_ok ht
  · exact List.cons_ne_self _ _ hfreed.symm
  · have hhead : head ∈ (gm.setList .sta g (head :: rest)).records := by
      refine Gm.mem_records.mpr ⟨.sta, g, ?_⟩
      rw [Gm.portMappings_setList, if_pos ⟨rfl, rfl⟩]
      exact List.mem_cons_self
    exact hremoved.live head hhead List.mem_cons_self
  · exact List.cons_ne_self _ _ hfreed.symm

/-- A record at an address. -/
def recordAt (pointer : ℕ) : PortMapping where
  pointer := pointer
  lifetime := 900
  grantedTime := {}
  internal := .inet (fun _ => 0) 443
  external := .inet (fun _ => 0) 7300
  nonce := fun _ => pointer.toUInt8
  protocol := gmPcpTcp

/-- A station one of whose lists has the records at the addresses. -/
def listing (f : Family) (pointers : List ℕ) : Gm where
  portMappings i g := if i = .sta ∧ g = f then pointers.map recordAt else []

/-- **The second of two records is unlinked, and the first one freed**, which is still in the
list. -/
theorem not_removes_second : recordAt 1 ∈ (listing .ip4 [0, 1]).portMappings .sta .ip4 ∧
    ¬ Removes (listing .ip4 [0, 1]) .ip4 (recordAt 1) := by
  refine ⟨by decide, ?_⟩
  rintro ⟨t, ht, hremoved⟩
  have hfreed : (removePcpMapping (listing .ip4 [0, 1]) (recordAt 1)).toOption.map (·.freed)
      = some [0] := by decide
  rw [ht] at hfreed
  have hboth : [1] = [0] := hremoved.freed.symm.trans (Option.some.inj hfreed)
  exact absurd hboth (by decide)

/-! ## Saving a request -/

/-- The record is that of a request: of its type, with its protocol, endpoints, lifetime and
nonce. -/
structure PortMapping.IsRequest (m : PortMapping) (p : PcpPacket) : Prop where
  type : m.type = .request
  protocol : m.protocol = p.protocol
  internalAddress : m.internal.pcpAddress = p.clientAddress
  internalPort : m.internal.port = p.internalPort
  externalAddress : m.external.pcpAddress = p.externalAddress
  externalPort : m.external.port = p.externalPort
  lifetime : m.lifetime = swap32 p.lifetime
  nonce : m.nonce = p.nonce

/-- The list has one record with the packet's nonce, that of its request, and the others are those
there were. -/
def SavedIn (p : PcpPacket) (before after : List PortMapping) : Prop :=
  (∃ m, m.IsRequest p ∧ after.filter (·.nonce = p.nonce) = [m]) ∧
    after.filter (·.nonce ≠ p.nonce) = before.filter (·.nonce ≠ p.nonce)

/-- **The request is saved in the list chosen for it**, and no other list changes. -/
def Saves (gm : Gm) (p : PcpPacket) (i : GmInterfaceIndex) (frame : Frame) (now : Timeval)
    (mallocOk : Bool) : Prop :=
  ∃ t internal, savePcpMapping gm p i frame now mallocOk = .ok t ∧
    p.internalSockaddr frame = some internal ∧
    SavedIn p (gm.portMappings i internal.family) (t.portMappings i internal.family) ∧
    ∀ j g, j ≠ i ∨ g ≠ internal.family → t.portMappings j g = gm.portMappings j g

/-- The test for an IPv4-mapped address ends within the memory, and is not taken in. -/
def Recognised (alignment : Fin 4) (a : Bytes 16) (after : List UInt8) : Prop :=
  ∃ ipv4, isIpv4MappedIpv6 alignment a after = some ipv4 ∧
    (ipv4 = true → ∃ b, a = ipv4Mapped b)

/-- Both addresses of the packet are recognised, and its protocol fits the record. -/
structure Representable (p : PcpPacket) (frame : Frame) : Prop where
  client : Recognised frame.alignment p.clientAddress (p.afterClient ++ frame.stack)
  external : Recognised frame.alignment p.externalAddress (p.afterExternal ++ frame.stack)
  protocol : p.protocol &&& 0x3f = p.protocol

/-- No record with another nonce comes after one with this, and a record can be added where there
is none. -/
def Replaceable (nonce : Bytes 12) (l : List PortMapping) (mallocOk : Bool) : Prop :=
  l.Pairwise (fun r s => r.nonce = nonce → s.nonce = nonce) ∧
    ((∀ r ∈ l, r.nonce ≠ nonce) → mallocOk = true)

/-- **A socket address stands for the packet's address exactly when the address was recognised.** -/
theorem recognised_iff {alignment : Fin 4} {a : Bytes 16} {after : List UInt8} (port : UInt16) :
    Recognised alignment a after ↔
      ∃ s, assignSockaddr alignment a after port = some s ∧ s.pcpAddress = a := by
  unfold Recognised assignSockaddr
  cases isIpv4MappedIpv6 alignment a after with
  | none => exact iff_of_false (by rintro ⟨_, ⟨⟩, _⟩) (by rintro ⟨_, ⟨⟩, _⟩)
  | some ipv4 =>
    cases ipv4 with
    | false => exact iff_of_true ⟨false, rfl, by rintro ⟨⟩⟩ ⟨_, rfl, rfl⟩
    | true =>
      constructor
      · rintro ⟨_, hipv4, h⟩
        obtain ⟨b, rfl⟩ := h (Option.some.inj hipv4).symm
        refine ⟨_, rfl, congrArg ipv4Mapped (funext fun i => ?_)⟩
        fin_cases i <;> rfl
      · rintro ⟨s, hs, ha⟩
        obtain rfl := Option.some.inj hs
        exact ⟨true, rfl, fun _ => ⟨_, ha.symm⟩⟩

section SaveIn

variable {freed : List ℕ} {m : PortMapping} {mallocOk : Bool} {l : List PortMapping}

/-- A record whose nonce is new goes to the end. -/
theorem saveIn_absent (hlive : ∀ r ∈ l, r.pointer ∉ freed) (h : ∀ r ∈ l, r.nonce ≠ m.nonce) :
    saveIn freed m mallocOk l = if mallocOk then .ok (l ++ [m], true) else .error .outOfMemory := by
  induction l with
  | nil => rfl
  | cons r rs ih =>
    obtain ⟨hr, hrs⟩ := List.forall_mem_cons.mp hlive
    obtain ⟨hn, hns⟩ := List.forall_mem_cons.mp h
    rw [saveIn, if_neg hr, if_neg hn, ih hrs hns]
    cases mallocOk <;> rfl

/-- A record whose nonce is there ends the list where the first one with it was. -/
theorem saveIn_present {r : PortMapping} {after : List PortMapping}
    (hlive : ∀ s ∈ l ++ r :: after, s.pointer ∉ freed) (h : ∀ s ∈ l, s.nonce ≠ m.nonce)
    (hr : r.nonce = m.nonce) :
    saveIn freed m mallocOk (l ++ r :: after)
      = .ok (l ++ [{ m with pointer := r.pointer }], false) := by
  induction l with
  | nil => rw [List.nil_append, saveIn, if_neg (hlive r List.mem_cons_self), if_pos hr]; rfl
  | cons s ss ih =>
    obtain ⟨hs, hss⟩ := List.forall_mem_cons.mp hlive
    obtain ⟨hn, hns⟩ := List.forall_mem_cons.mp h
    rw [List.cons_append, saveIn, if_neg hs, if_neg hn, ih hss hns]
    rfl

end SaveIn

/-- A list has no record with the nonce, or a first one. -/
theorem absent_or_first (nonce : Bytes 12) (l : List PortMapping) :
    (∀ r ∈ l, r.nonce ≠ nonce) ∨
      ∃ before r after, l = before ++ r :: after ∧ (∀ s ∈ before, s.nonce ≠ nonce) ∧
        r.nonce = nonce := by
  cases hfind : l.find? (·.nonce = nonce) with
  | none => exact Or.inl fun r hr => by simpa using List.find?_eq_none.mp hfind r hr
  | some r =>
    obtain ⟨hr, before, after, hl, hbefore⟩ := List.find?_eq_some_iff_append.mp hfind
    exact Or.inr ⟨before, r, after, hl, fun s hs => by simpa using hbefore s hs, by simpa using hr⟩

theorem filter_eq_of_absent {nonce : Bytes 12} {l : List PortMapping}
    (h : ∀ r ∈ l, r.nonce ≠ nonce) : l.filter (·.nonce = nonce) = [] :=
  List.filter_eq_nil_iff.mpr fun r hr => by simpa using h r hr

theorem filter_ne_of_absent {nonce : Bytes 12} {l : List PortMapping}
    (h : ∀ r ∈ l, r.nonce ≠ nonce) : l.filter (·.nonce ≠ nonce) = l :=
  List.filter_eq_self.mpr fun r hr => by simpa using h r hr

/-- A list without the nonce, and a record with it at the end. -/
theorem savedIn_append {p : PcpPacket} {m : PortMapping} {before l : List PortMapping}
    (hm : m.nonce = p.nonce) (h : ∀ r ∈ before, r.nonce ≠ p.nonce) :
    SavedIn p l (before ++ [m]) ↔ m.IsRequest p ∧ before = l.filter (·.nonce ≠ p.nonce) := by
  have hlast : [m].filter (·.nonce = p.nonce) = [m] := List.filter_cons_of_pos (by simpa using hm)
  have hlast' : [m].filter (·.nonce ≠ p.nonce) = [] := List.filter_cons_of_neg (by simpa using hm)
  unfold SavedIn
  rw [List.filter_append, List.filter_append, filter_eq_of_absent h, filter_ne_of_absent h, hlast,
    hlast', List.nil_append, List.append_nil]
  refine and_congr_left fun _ => ⟨?_, fun hrequest => ⟨m, hrequest, rfl⟩⟩
  rintro ⟨m', hrequest, heq⟩
  obtain rfl := List.singleton_inj.mp heq
  exact hrequest

/-- **A list is replaceable exactly when the records after the first one with the nonce have it
too.** -/
theorem pairwise_iff {nonce : Bytes 12} {before after : List PortMapping} {r : PortMapping}
    (h : ∀ s ∈ before, s.nonce ≠ nonce) (hr : r.nonce = nonce) :
    (before ++ r :: after).Pairwise (fun r s => r.nonce = nonce → s.nonce = nonce) ↔
      after.filter (·.nonce ≠ nonce) = [] := by
  have hafter : after.filter (·.nonce ≠ nonce) = [] ↔ ∀ s ∈ after, s.nonce = nonce := by
    rw [List.filter_eq_nil_iff]
    simp
  rw [hafter, List.pairwise_append, List.pairwise_cons]
  constructor
  · rintro ⟨-, ⟨hfirst, -⟩, -⟩ s hs
    exact hfirst s hs hr
  · intro hall
    refine ⟨?_, ⟨fun s hs _ => hall s hs, ?_⟩, fun s hs _ _ hn => absurd hn (h s hs)⟩
    · exact List.pairwise_of_forall_mem_list fun s hs _ _ hn => absurd hn (h s hs)
    · exact List.pairwise_of_forall_mem_list fun _ _ s hs _ => hall s hs

section Saves

variable {gm t : Gm} {p : PcpPacket} {i : GmInterfaceIndex} {frame : Frame} {now : Timeval}
  {mallocOk : Bool} {internal external : SockAddr}

/-- **The record saved is that of the request exactly when the record can represent it.** -/
theorem isRequest_iff (hinternal : p.internalSockaddr frame = some internal)
    (hexternal : p.externalSockaddr frame = some external) {m : PortMapping} {pointer k : ℕ}
    (hm : m = { savedMapping p internal external now k with pointer := pointer }) :
    m.IsRequest p ↔ Representable p frame := by
  subst hm
  have hclient : internal.pcpAddress = p.clientAddress ↔
      Recognised frame.alignment p.clientAddress (p.afterClient ++ frame.stack) := by
    rw [recognised_iff (swap16 p.internalPort)]
    refine ⟨fun h => ⟨internal, hinternal, h⟩, ?_⟩
    rintro ⟨s, hs, ha⟩
    rwa [Option.some.inj (hinternal.symm.trans hs)]
  have houtside : external.pcpAddress = p.externalAddress ↔
      Recognised frame.alignment p.externalAddress (p.afterExternal ++ frame.stack) := by
    rw [recognised_iff (swap16 p.externalPort)]
    refine ⟨fun h => ⟨external, hexternal, h⟩, ?_⟩
    rintro ⟨s, hs, ha⟩
    rwa [Option.some.inj (hexternal.symm.trans hs)]
  constructor
  · intro h
    exact ⟨hclient.mp h.internalAddress, houtside.mp h.externalAddress, h.protocol⟩
  · intro h
    exact ⟨rfl, h.protocol, hclient.mpr h.client, port_internalSockaddr hinternal,
      houtside.mpr h.external, port_externalSockaddr hexternal, rfl, rfl⟩

/-- Up to the walk down the list. -/
theorem savePcpMapping_eq (gm : Gm) (i : GmInterfaceIndex) (now : Timeval) (mallocOk : Bool)
    (hinternal : p.internalSockaddr frame = some internal)
    (hexternal : p.externalSockaddr frame = some external) :
    savePcpMapping gm p i frame now mallocOk
      = (saveIn gm.freed (savedMapping p internal external now gm.nextPointer) mallocOk
          (gm.portMappings i internal.family)).bind fun s =>
        if s.2 then
          renewAllMappingsIfRouterHasReset (gm.setList i internal.family s.1).allocated p
        else .ok (gm.setList i internal.family s.1) := by
  unfold savePcpMapping
  rw [hinternal, hexternal]
  rfl

/-- A save that ends well, in terms of the list it leaves. -/
theorem saves_iff_savedIn {l : List PortMapping}
    (ht : savePcpMapping gm p i frame now mallocOk = .ok t)
    (hinternal : p.internalSockaddr frame = some internal)
    (hl : t.portMappings = (gm.setList i internal.family l).portMappings) :
    Saves gm p i frame now mallocOk ↔ SavedIn p (gm.portMappings i internal.family) l := by
  have hlist : t.portMappings i internal.family = l := by
    rw [hl, Gm.portMappings_setList, if_pos ⟨rfl, rfl⟩]
  constructor
  · rintro ⟨t', internal', ht', hinternal', hsaved, -⟩
    obtain rfl := Except.ok.inj (ht.symm.trans ht')
    obtain rfl := Option.some.inj (hinternal.symm.trans hinternal')
    rwa [hlist] at hsaved
  · intro hsaved
    refine ⟨t, internal, ht, hinternal, hlist.symm ▸ hsaved, fun j g hjg => ?_⟩
    rw [hl, Gm.portMappings_setList, if_neg]
    rintro ⟨rfl, rfl⟩
    exact hjg.elim (fun h => h rfl) fun h => h rfl

/-- **A request with a new nonce** is saved where a record can be added. -/
theorem saves_absent (hepoch : gm.lastReceivedEpoch = 0)
    (hlive : ∀ r ∈ gm.portMappings i internal.family, r.pointer ∉ gm.freed)
    (hinternal : p.internalSockaddr frame = some internal)
    (hexternal : p.externalSockaddr frame = some external)
    (h : ∀ r ∈ gm.portMappings i internal.family, r.nonce ≠ p.nonce) :
    Saves gm p i frame now mallocOk ↔ Representable p frame ∧ mallocOk = true := by
  have hsave := savePcpMapping_eq gm i now mallocOk hinternal hexternal
  rw [saveIn_absent hlive h] at hsave
  cases mallocOk with
  | false =>
    refine iff_of_false ?_ (by rintro ⟨-, ⟨⟩⟩)
    rintro ⟨t, -, ht, -⟩
    rw [hsave] at ht
    cases ht
  | true =>
    rw [if_pos rfl] at hsave
    have hreset : savePcpMapping gm p i frame now true = .ok (gm.setList i internal.family
        (gm.portMappings i internal.family
          ++ [savedMapping p internal external now gm.nextPointer])).allocated :=
      hsave.trans (renewAllMappingsIfRouterHasReset_of_zero (by exact hepoch) p)
    rw [saves_iff_savedIn hreset hinternal rfl, savedIn_append rfl h,
      isRequest_iff hinternal hexternal rfl]
    exact and_congr_right fun _ => iff_of_true (filter_ne_of_absent h).symm rfl

/-- **A request whose nonce is there** is saved where no record with another one comes after it. -/
theorem saves_present {before after : List PortMapping} {r : PortMapping}
    (hlive : ∀ s ∈ before ++ r :: after, s.pointer ∉ gm.freed)
    (hinternal : p.internalSockaddr frame = some internal)
    (hexternal : p.externalSockaddr frame = some external)
    (hl : gm.portMappings i internal.family = before ++ r :: after)
    (hbefore : ∀ s ∈ before, s.nonce ≠ p.nonce) (hr : r.nonce = p.nonce) :
    Saves gm p i frame now mallocOk ↔
      Representable p frame ∧ after.filter (·.nonce ≠ p.nonce) = [] := by
  have hsave := savePcpMapping_eq gm i now mallocOk hinternal hexternal
  rw [hl, saveIn_present hlive hbefore hr] at hsave
  have hothers : (gm.portMappings i internal.family).filter (·.nonce ≠ p.nonce)
      = before ++ after.filter (·.nonce ≠ p.nonce) := by
    rw [hl, List.filter_append, filter_ne_of_absent hbefore,
      List.filter_cons_of_neg (by simpa using hr)]
  rw [saves_iff_savedIn hsave hinternal rfl, savedIn_append rfl hbefore,
    isRequest_iff hinternal hexternal rfl, hothers, List.self_eq_append_right]

/-- **A request is saved exactly when its record can represent it and the list chosen for it has no
record to lose**, the remembered epoch being zero, as it is in every run. -/
theorem saves_iff (hepoch : gm.lastReceivedEpoch = 0)
    (hlive : ∀ f, ∀ r ∈ gm.portMappings i f, r.pointer ∉ gm.freed) :
    Saves gm p i frame now mallocOk ↔ Representable p frame ∧
      ∃ internal, p.internalSockaddr frame = some internal ∧
        Replaceable p.nonce (gm.portMappings i internal.family) mallocOk := by
  cases hinternal : p.internalSockaddr frame with
  | none =>
    refine iff_of_false ?_ (by rintro ⟨-, internal, ⟨⟩, -⟩)
    rintro ⟨t, internal, -, h, -⟩
    rw [hinternal] at h
    cases h
  | some internal =>
    cases hexternal : p.externalSockaddr frame with
    | none =>
      refine iff_of_false ?_ ?_
      · rintro ⟨t, -, ht, -⟩
        unfold savePcpMapping at ht
        rw [hinternal, hexternal] at ht
        cases ht
      · rintro ⟨hrep, -⟩
        obtain ⟨s, hs, -⟩ := (recognised_iff (swap16 p.externalPort)).mp hrep.external
        exact absurd (hexternal.symm.trans hs) (by rintro ⟨⟩)
    | some external =>
      simp only [Option.some.injEq, exists_eq_left']
      obtain habsent | ⟨before, r, after, hl, hbefore, hr⟩ :=
        absent_or_first p.nonce (gm.portMappings i internal.family)
      · rw [saves_absent hepoch (hlive _) hinternal hexternal habsent]
        refine and_congr_right fun _ => ⟨fun hok => ⟨?_, fun _ => hok⟩, fun h => h.2 habsent⟩
        exact List.pairwise_of_forall_mem_list fun r hr _ _ hn => absurd hn (habsent r hr)
      · rw [saves_present (hl ▸ hlive _) hinternal hexternal hl hbefore hr, Replaceable, hl,
          pairwise_iff hbefore hr]
        refine and_congr_right fun _ => (and_iff_left fun hall => ?_).symm
        exact absurd hr (hall r (List.mem_append_right _ List.mem_cons_self))

end Saves

/-- The station's request, with the nonce of the record at address one. -/
def repeated : PcpPacket := requestPacket atHome .ip4 .sta (recordAt 1).nonce

theorem saves_repeated : Saves (listing .ip6 [0, 1]) repeated .sta .aligned {} true ↔
    Representable repeated .aligned ∧
      ∃ internal, repeated.internalSockaddr .aligned = some internal ∧
        Replaceable repeated.nonce ((listing .ip6 [0, 1]).portMappings .sta internal.family) true :=
  saves_iff rfl fun _ _ _ => List.not_mem_nil

/-- **Saved over the first of two records, the request loses the second one.** -/
theorem not_saves_repeated : ¬ Saves (listing .ip6 [1, 2]) repeated .sta .aligned {} true := by
  rintro ⟨t, internal, ht, hinternal, ⟨-, hothers⟩, -⟩
  have hfamily : (repeated.internalSockaddr .aligned).map SockAddr.family = some .ip6 := by
    decide +kernel
  have hkept : (savePcpMapping (listing .ip6 [1, 2]) repeated .sta .aligned {} true).toOption.map
      (fun t => (t.portMappings .sta .ip6).filter (·.nonce ≠ repeated.nonce)) = some [] := by
    decide +kernel
  rw [ht] at hkept
  rw [hinternal] at hfamily
  rw [Option.some.inj hfamily] at hothers
  have hnone : (t.portMappings .sta .ip6).filter (·.nonce ≠ repeated.nonce) = [] :=
    Option.some.inj hkept
  exact absurd (hnone.symm.trans hothers) (by decide +kernel)

end Pcp
