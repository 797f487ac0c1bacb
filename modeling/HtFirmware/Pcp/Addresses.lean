import HtFirmware.Pcp.Records
import HtFirmware.Support.ZeroTest

/-!
# Pcp/Addresses — which addresses count as IPv4-mapped

`is_ipv4_mapped_ipv6` asks `gm_all_zeroes` about ten bytes.  At an address that is two more than a
multiple of four nine of them are examined; anywhere else the word loop goes on, and an IPv4-mapped
address is never recognized.  `Told` says where the test is right, and `assigned_iff` that the socket
address is right there and nowhere else.
-/

open Machinery

namespace Pcp

/-! ## Socket addresses -/

/-- `assign_sockaddr` gives the socket address for an address and a port, from which both can be
recovered. -/
structure Assigned (alignment : Fin 4) (a : Bytes 16) (after : List UInt8) (port : UInt16) : Prop where
  assigned : assignSockaddr alignment a after port = some (sockaddrFor a port)
  address : (sockaddrFor a port).pcpAddress = a
  port : swap16 (sockaddrFor a port).port = port

/-- An address that passes for an IPv4-mapped one: its tenth byte is not examined. -/
structure Passes (a : Bytes 16) : Prop where
  zero : ∀ i : Fin 16, i < 9 → a i = 0
  tenth : a 9 ≠ 0
  ones : a 10 = 0xff ∧ a 11 = 0xff

/-- The zero test is right about an address: where it examines nine of the ten bytes, the tenth makes no
difference; elsewhere the address is no IPv4-mapped one, and a byte that is examined, of the address or
of what follows it, is not zero. -/
structure Told (alignment : Fin 4) (a : Bytes 16) (after : List UInt8) : Prop where
  nine : alignment = 2 → ¬ Passes a
  ends : alignment ≠ 2 → ¬ IsMapped a ∧
    ∃ b ∈ (List.ofFn a ++ after).take (Support.seen alignment 10 (16 + after.length)), b ≠ 0

section Sockets

variable {alignment : Fin 4} {a : Bytes 16} {after : List UInt8} {port : UInt16}

theorem eq_ipv4Mapped (h : IsMapped a) : a = ipv4Mapped ![a 12, a 13, a 14, a 15] := by
  obtain ⟨hzero, hten, heleven⟩ := h
  funext i
  by_cases hi : i < 10
  · rw [hzero i hi]
    revert hi
    fin_cases i <;> intro hi <;> first | rfl | exact absurd hi (by decide)
  · fin_cases i
    all_goals first | exact absurd (by decide) hi | exact hten | exact heleven | rfl

/-- The address can be recovered. -/
theorem pcpAddress_sockaddrFor (a : Bytes 16) (port : UInt16) :
    (sockaddrFor a port).pcpAddress = a := by
  unfold sockaddrFor
  split_ifs with h
  · exact (eq_ipv4Mapped h).symm
  · rfl

/-- The port can be recovered. -/
theorem port_sockaddrFor (a : Bytes 16) (port : UInt16) :
    swap16 (sockaddrFor a port).port = port := by
  unfold sockaddrFor
  split_ifs <;> exact swap16_swap16 port

/-- Two bytes before a word boundary, the tenth byte makes no difference. -/
theorem isIpv4MappedIpv6_two (a : Bytes 16) (after : List UInt8) : isIpv4MappedIpv6 2 a after
    = some (decide ((∀ i : Fin 16, i < 9 → a i = 0) ∧ a 10 = 0xff ∧ a 11 = 0xff)) := by
  have hfit : (10 : UInt32).toNat ≤ (List.ofFn a ++ after).length := by
    rw [List.length_append, List.length_ofFn]
    exact (by decide : 10 ≤ 16).trans (Nat.le_add_right 16 _)
  have htest : Support.gmAllZeroes 2 (List.ofFn a ++ after) 10
      = Support.verdict True [a 0, a 1, a 2, a 3, a 4, a 5, a 6, a 7, a 8] :=
    Support.gmAllZeroes_eq 2 hfit
  have hzero : (∀ b ∈ [a 0, a 1, a 2, a 3, a 4, a 5, a 6, a 7, a 8], b = 0) ↔
      ∀ i : Fin 16, i < 9 → a i = 0 := by
    simp only [List.forall_mem_cons, Fin.forall_fin_succ]
    simp
  rw [isIpv4MappedIpv6, htest]
  by_cases hnine : ∀ i : Fin 16, i < 9 → a i = 0
  · rw [Support.verdict_of_zero (hzero.mpr hnine), if_pos trivial]
    refine congrArg some (Bool.eq_iff_iff.mpr ?_)
    rw [decide_eq_true_iff, and_iff_right hnine]
    simp
  · rw [Support.verdict_of_ne (hzero.not.mpr hnine), decide_eq_false fun h => hnine h.1]
    rfl

theorem not_ends (halignment : alignment ≠ 2) :
    ¬ Support.Ends (Support.start alignment 10).2 := by
  revert halignment
  fin_cases alignment <;> decide

/-- Anywhere else, no address is recognized. -/
theorem isIpv4MappedIpv6_of_ne (halignment : alignment ≠ 2) (a : Bytes 16) (after : List UInt8) :
    isIpv4MappedIpv6 alignment a after = Support.verdict False
      ((List.ofFn a ++ after).take (Support.seen alignment 10 (16 + after.length))) := by
  have hlength : (List.ofFn a ++ after).length = 16 + after.length := by
    rw [List.length_append, List.length_ofFn]
  have hfit : (10 : UInt32).toNat ≤ (List.ofFn a ++ after).length := by
    rw [hlength]
    exact (by decide : 10 ≤ 16).trans (Nat.le_add_right 16 _)
  have hends := not_ends halignment
  have htest : Support.gmAllZeroes alignment (List.ofFn a ++ after) 10 = Support.verdict
      (Support.Ends (Support.start alignment 10).2)
      ((List.ofFn a ++ after).take (Support.seen alignment 10 (16 + after.length))) := by
    rw [← hlength]
    exact Support.gmAllZeroes_eq alignment hfit
  rw [isIpv4MappedIpv6, htest]
  by_cases hzero : ∀ b ∈ (List.ofFn a ++ after).take
      (Support.seen alignment 10 (16 + after.length)), b = 0
  · rw [Support.verdict_of_zero hzero, Support.verdict_of_zero hzero, if_neg id, if_neg hends]
    rfl
  · rw [Support.verdict_of_ne hzero, Support.verdict_of_ne hzero]
    rfl

theorem mapped_or_passes : ((∀ i : Fin 16, i < 9 → a i = 0) ∧ a 10 = 0xff ∧ a 11 = 0xff) ↔
    IsMapped a ∨ Passes a := by
  have hten : (∀ i : Fin 16, i < 10 → a i = 0) ↔ (∀ i : Fin 16, i < 9 → a i = 0) ∧ a 9 = 0 := by
    constructor
    · exact fun h => ⟨fun i hi => h i (hi.trans (by decide)), h 9 (by decide)⟩
    · rintro ⟨h, hnine⟩ i hi
      by_cases hlt : i < 9
      · exact h i hlt
      · have hi : i = 9 := by omega
        exact hi ▸ hnine
  constructor
  · rintro ⟨hzero, hones⟩
    by_cases hnine : a 9 = 0
    · exact .inl ⟨hten.mpr ⟨hzero, hnine⟩, hones⟩
    · exact .inr ⟨hzero, hnine, hones⟩
  · rintro (⟨hzero, hones⟩ | ⟨hzero, -, hones⟩)
    · exact ⟨(hten.mp hzero).1, hones⟩
    · exact ⟨hzero, hones⟩

/-- **The socket address is right exactly where the zero test is.** -/
theorem assigned_iff (alignment : Fin 4) (a : Bytes 16) (after : List UInt8) (port : UInt16) :
    Assigned alignment a after port ↔ Told alignment a after := by
  have hassigned : Assigned alignment a after port ↔
      assignSockaddr alignment a after port = some (sockaddrFor a port) :=
    ⟨fun h => h.assigned, fun h => ⟨h, pcpAddress_sockaddrFor a port, port_sockaddrFor a port⟩⟩
  rw [hassigned, assignSockaddr]
  by_cases halignment : alignment = 2
  · subst halignment
    have htold : Told 2 a after ↔ ¬ Passes a :=
      ⟨fun h => h.nine rfl, fun h => ⟨fun _ => h, fun hne => absurd rfl hne⟩⟩
    rw [htold, isIpv4MappedIpv6_two, Option.map_some, sockaddrFor]
    by_cases hpasses : Passes a
    · have hmapped : ¬ IsMapped a := fun h => hpasses.tenth (h.1 9 (by decide))
      rw [decide_eq_true (mapped_or_passes.mpr (.inr hpasses)), if_pos rfl, if_neg hmapped]
      exact iff_of_false (by rintro ⟨⟩) fun h => h hpasses
    · refine iff_of_true ?_ hpasses
      by_cases hmapped : IsMapped a
      · rw [decide_eq_true (mapped_or_passes.mpr (.inl hmapped)), if_pos rfl, if_pos hmapped]
      · have hneither := mapped_or_passes.not.mpr (not_or.mpr ⟨hmapped, hpasses⟩)
        rw [decide_eq_false hneither, if_neg (by decide), if_neg hmapped]
  · have htold : Told alignment a after ↔ ¬ IsMapped a ∧ ∃ b ∈ (List.ofFn a ++ after).take
        (Support.seen alignment 10 (16 + after.length)), b ≠ 0 :=
      ⟨fun h => h.ends halignment, fun h => ⟨fun htwo => absurd htwo halignment, fun _ => h⟩⟩
    rw [htold, isIpv4MappedIpv6_of_ne halignment]
    by_cases hzero : ∀ b ∈ (List.ofFn a ++ after).take
        (Support.seen alignment 10 (16 + after.length)), b = 0
    · rw [Support.verdict_of_zero hzero]
      exact iff_of_false (by rintro ⟨⟩) fun ⟨_, b, hb, hne⟩ => hne (hzero b hb)
    · have hsome : ∃ b ∈ (List.ofFn a ++ after).take
          (Support.seen alignment 10 (16 + after.length)), b ≠ 0 := by
        simpa only [not_forall, exists_prop] using hzero
      rw [Support.verdict_of_ne hzero, and_iff_left hsome, sockaddrFor]
      by_cases hmapped : IsMapped a
      · rw [if_pos hmapped]
        exact iff_of_false (by rintro ⟨⟩) fun h => h hmapped
      · rw [if_neg hmapped]
        exact iff_of_true rfl hmapped

end Sockets

/-! ## Lists -/

/-- The request is in the list of a family, and no other list changed. -/
structure FiledIn (gm t : Gm) (i : GmInterfaceIndex) (f : Family) (nonce : Bytes 12) : Prop where
  record : ∃ m ∈ t.portMappings i f, m.nonce = nonce
  others : ∀ j g, ¬ (j = i ∧ g = f) → t.portMappings j g = gm.portMappings j g

/-- `save_pcp_mapping` files a request in the list of a family, reading no further than the memory it
lies in. -/
structure FilesIn (gm : Gm) (p : PcpPacket) (i : GmInterfaceIndex) (frame : Frame) (f : Family) :
    Prop where
  read : ∃ internal external, p.internalSockaddr frame = some internal ∧
    p.externalSockaddr frame = some external
  filed : ∀ now mallocOk t, savePcpMapping gm p i frame now mallocOk = .ok t →
    FiledIn gm t i f p.nonce

section Lists

variable {gm t : Gm} {p : PcpPacket} {i : GmInterfaceIndex} {frame : Frame}
  {internal external : SockAddr} {f : Family}

/-- A walk whose coroutine leaves every record alone. -/
theorem forEachMapping_kept {freed : List ℕ}
    {coroutine : ℕ → PortMapping → Except Fault (PortMapping × List Sent)}
    (hkept : ∀ n m s, coroutine n m = .ok s → s.1 = m) :
    ∀ (ms : List PortMapping) (n : ℕ) {r : List PortMapping × List Sent},
      forEachMapping freed coroutine n ms = .ok r → r.1 = ms := by
  intro ms
  induction ms with
  | nil => intro n r h; exact congrArg Prod.fst (Except.ok.inj h).symm
  | cons m ms ih =>
    intro n r h
    rw [forEachMapping] at h
    split_ifs at h
    · obtain ⟨s, hs, h⟩ := bind_ok h
      obtain ⟨rest, hrest, h⟩ := bind_ok h
      rw [← Except.ok.inj h]
      exact congrArg₂ List.cons (hkept n m s hs) (ih (n + 1) hrest)

theorem portMappings_overStation
    {coroutine : ℕ → PortMapping → Except Fault (PortMapping × List Sent)}
    (hkept : ∀ n m s, coroutine n m = .ok s → s.1 = m)
    (h : overStation gm f coroutine = .ok t) : t.portMappings = gm.portMappings := by
  unfold overStation at h
  split_ifs at h
  · obtain ⟨r, hr, rfl⟩ := map_ok h
    have hlist := forEachMapping_kept hkept _ _ hr
    have hself := congrArg Gm.portMappings (setList_self gm .sta f)
    rw [← hlist] at hself
    exact hself
  · rw [Except.ok.inj h]

theorem renewIfGranted_kept {m : PortMapping} {s : PortMapping × List Sent}
    (h : renewIfGranted gm m = .ok s) : s.1 = m := by
  unfold renewIfGranted at h
  split at h
  · obtain ⟨sent, -, rfl⟩ := map_ok h
    rfl
  · rw [← Except.ok.inj h]

/-- Renewals leave the lists alone. -/
theorem portMappings_renewAllMappings (h : renewAllMappings gm = .ok t) :
    t.portMappings = gm.portMappings := by
  unfold renewAllMappings at h
  generalize netInterfaceIndices = interfaces at h
  induction interfaces generalizing gm with
  | nil => rw [Except.ok.inj h]
  | cons i interfaces ih =>
    rw [List.foldlM_cons] at h
    obtain ⟨both, hboth, h⟩ := bind_ok h
    obtain ⟨first, hfirst, hsecond⟩ := bind_ok hboth
    exact (ih h).trans ((portMappings_overStation (fun _ _ _ => renewIfGranted_kept) hsecond).trans
      (portMappings_overStation (fun _ _ _ => renewIfGranted_kept) hfirst))

theorem portMappings_renewIfReset (h : renewAllMappingsIfRouterHasReset gm p = .ok t) :
    t.portMappings = gm.portMappings := by
  unfold renewAllMappingsIfRouterHasReset at h
  split_ifs at h
  · have hlists := portMappings_renewAllMappings h
    exact hlists
  · rw [Except.ok.inj h]

/-- **A request that is saved is in the list its client address was given.** -/
theorem filed_of_internal (hinternal : p.internalSockaddr frame = some internal) {now : Timeval}
    {mallocOk : Bool} (h : savePcpMapping gm p i frame now mallocOk = .ok t) :
    FiledIn gm t i internal.family p.nonce := by
  obtain ⟨internal', hi, h⟩ := bind_ok h
  obtain rfl := Option.some.inj (hinternal.symm.trans (orOverrun_ok hi))
  obtain ⟨external, -, h⟩ := bind_ok h
  obtain ⟨s, hs, h⟩ := bind_ok h
  have hlists : t.portMappings = (gm.setList i internal.family s.1).portMappings := by
    split_ifs at h
    · have hlists := portMappings_renewIfReset h
      exact hlists
    · rw [← Except.ok.inj h]
  constructor
  · rw [hlists, Gm.portMappings_setList, if_pos ⟨rfl, rfl⟩]
    obtain ⟨rfl, -, -⟩ | ⟨before, r, after, -, -, rfl⟩ := saveIn_ok hs
    · exact ⟨_, List.mem_append_right _ (List.mem_singleton_self _), rfl⟩
    · exact ⟨_, List.mem_append_right _ (List.mem_singleton_self _), rfl⟩
  · intro j g hother
    rw [hlists, Gm.portMappings_setList, if_neg hother]

theorem filesIn_of_family (hinternal : p.internalSockaddr frame = some internal)
    (hexternal : p.externalSockaddr frame = some external) (hfamily : internal.family = f) :
    FilesIn gm p i frame f :=
  ⟨⟨internal, external, hinternal, hexternal⟩, fun _ _ _ h => hfamily ▸ filed_of_internal hinternal h⟩

/-- A first request tells which list is used. -/
theorem family_of_filesIn (hepoch : gm.lastReceivedEpoch = 0) (hempty : gm.records = [])
    (h : FilesIn gm p i frame f) (hinternal : p.internalSockaddr frame = some internal) :
    internal.family = f := by
  obtain ⟨internal', external, hinternal', hexternal⟩ := h.read
  obtain rfl := Option.some.inj (hinternal.symm.trans hinternal')
  have hsave := savePcpMapping_of_empty hepoch hempty hinternal hexternal i {} true
  by_contra hne
  obtain ⟨m, hm, -⟩ := (h.filed _ _ _ hsave).record
  rw [(filed_of_internal hinternal hsave).others i f fun hsame => hne hsame.2.symm,
    Gm.records_eq_nil.mp hempty i f] at hm
  exact List.not_mem_nil hm

/-- The family given to an IPv4-mapped address. -/
theorem assignSockaddr_mapped (alignment : Fin 4) (b : Bytes 4) (after : List UInt8) (port : UInt16) :
    ∃ s, assignSockaddr alignment (ipv4Mapped b) after port = some s ∧
      s.family = if alignment = 2 then .ip4 else .ip6 := by
  rw [assignSockaddr, isIpv4MappedIpv6_ipv4Mapped]
  by_cases h : alignment = 2
  · subst h
    exact ⟨_, rfl, rfl⟩
  · refine ⟨_, rfl, ?_⟩
    rw [if_neg h, beq_eq_false_iff_ne.mpr h]
    rfl

/-- **Requests for IPv4 are in the ip4 list exactly when their packet is two bytes off a word
boundary.** -/
theorem filesIn_ipv4 (frame : Frame) :
    (∀ gm i nonce, FilesIn gm (requestPacketIpv4 gm i nonce) i frame .ip4) ↔
      frame.alignment = 2 := by
  have hclient : ∀ gm i nonce, ∃ s, (requestPacketIpv4 gm i nonce).internalSockaddr frame = some s ∧
      s.family = if frame.alignment = 2 then .ip4 else .ip6 := fun gm i nonce => by
    unfold PcpPacket.internalSockaddr
    exact assignSockaddr_mapped frame.alignment (gm.netInterfaces i).ip4.address _ _
  have hexternal : ∀ gm i nonce, ∃ s, (requestPacketIpv4 gm i nonce).externalSockaddr frame = some s ∧
      s.family = if frame.alignment = 2 then .ip4 else .ip6 := fun gm i nonce => by
    unfold PcpPacket.externalSockaddr
    exact assignSockaddr_mapped frame.alignment (fun _ => 0) _ _
  constructor
  · intro h
    obtain ⟨internal, hinternal, hfamily⟩ := hclient {} .sta fun _ => 0
    rw [family_of_filesIn rfl rfl (h {} .sta fun _ => 0) hinternal] at hfamily
    by_contra hne
    rw [if_neg hne] at hfamily
    cases hfamily
  · intro halignment gm i nonce
    obtain ⟨internal, hinternal, hfamily⟩ := hclient gm i nonce
    obtain ⟨external, hs, -⟩ := hexternal gm i nonce
    exact filesIn_of_family hinternal hs (hfamily.trans (if_pos halignment))

/-- Of one family, they are one. -/
theorem told_of_family {alignment : Fin 4} {a : Bytes 16} {after : List UInt8} {port : UInt16}
    {s : SockAddr} (h : assignSockaddr alignment a after port = some s)
    (hfamily : s.family = (sockaddrFor a port).family) : Told alignment a after := by
  refine (assigned_iff alignment a after port).mp
    ⟨?_, pcpAddress_sockaddrFor a port, port_sockaddrFor a port⟩
  rw [h]
  obtain ⟨ipv4, -, rfl⟩ := Option.map_eq_some_iff.mp h
  unfold sockaddrFor at hfamily ⊢
  cases ipv4 <;> split_ifs at hfamily ⊢ with hmapped <;> first | rfl | cases hfamily

/-- The address of zeroes never counts as an IPv4-mapped one. -/
theorem family_of_zero {alignment : Fin 4} {after : List UInt8} {port : UInt16} {s : SockAddr}
    (h : assignSockaddr alignment (fun _ => 0) after port = some s) : s.family = .ip6 := by
  obtain ⟨ipv4, hipv4, rfl⟩ := Option.map_eq_some_iff.mp h
  obtain ⟨zeroes, -, rfl⟩ := Option.map_eq_some_iff.mp hipv4
  cases zeroes <;> rfl

/-- A request has its protocol behind its client address. -/
theorem protocol_seen {alignment : Fin 4} (halignment : alignment ≠ 2) (gm : Gm) (nonce : Bytes 12)
    (stack : List UInt8) (a : Bytes 16) :
    ∃ b ∈ (List.ofFn a ++ ((requestPacketIpv6 gm nonce).afterClient ++ stack)).take
      (Support.seen alignment 10 (16 + ((requestPacketIpv6 gm nonce).afterClient ++ stack).length)),
      b ≠ 0 := by
  have hmemory : List.ofFn a ++ ((requestPacketIpv6 gm nonce).afterClient ++ stack)
      = (List.ofFn a ++ List.ofFn nonce ++ [gmPcpTcp]) ++
        ((List.ofFn (requestPacketIpv6 gm nonce).reserved3 ++
          (bytes16 (requestPacketIpv6 gm nonce).internalPort ++
          (bytes16 (requestPacketIpv6 gm nonce).externalPort ++
          (List.ofFn (requestPacketIpv6 gm nonce).externalAddress ++
          ((requestPacketIpv6 gm nonce).afterExternal ++ stack)))))) := by
    simp only [PcpPacket.afterClient, List.append_assoc]
    rfl
  have hlength : 16 ≤ ((requestPacketIpv6 gm nonce).afterClient ++ stack).length := by
    simp only [PcpPacket.afterClient, List.length_append, List.length_ofFn]
    omega
  have hseen : 29 ≤ Support.seen alignment 10
      (16 + ((requestPacketIpv6 gm nonce).afterClient ++ stack).length) := by
    have hlong : ¬ Support.Ends (Support.start alignment 10).2 := not_ends halignment
    have hstart : (Support.start alignment 10).1 ≤ 2 := by
      revert halignment
      fin_cases alignment <;> decide
    rw [Support.seen, Support.covered, if_neg hlong]
    omega
  refine ⟨gmPcpTcp, ?_, by decide⟩
  rw [hmemory, List.take_append, List.take_of_length_le (by simpa using hseen)]
  exact List.mem_append_left _ (List.mem_append_right _ (List.mem_singleton_self _))

/-- Zeroes are all that follows its external address. -/
theorem afterExternal_request (gm : Gm) (nonce : Bytes 12) :
    (requestPacketIpv6 gm nonce).afterExternal = List.replicate 20 0 := by
  have hport : bytes16 0 = [0, 0] := by decide
  show bytes16 0 ++ bytes16 0 ++ List.ofFn (fun _ : Fin 16 => (0 : UInt8)) = _
  rw [hport]
  rfl

/-- **Requests for IPv6 are in the ip6 list exactly when their client address does not pass for an
IPv4-mapped one, and the zero test of the external address, which is zero, ends within the memory.** -/
theorem filesIn_ipv6 (frame : Frame) {a : Bytes 16} (ha : ¬ IsMapped a) :
    (∀ gm i nonce, gm.myIpv6Address = a → FilesIn gm (requestPacketIpv6 gm nonce) i frame .ip6) ↔
      (frame.alignment = 2 → ¬ Passes a) ∧
      Told frame.alignment (fun _ => 0) (List.replicate 20 0 ++ frame.stack) := by
  have hfamily : ∀ port, (sockaddrFor a port).family = .ip6 := fun port => by
    rw [sockaddrFor, if_neg ha]
    rfl
  constructor
  · intro h
    have hfiles := h { myIpv6Address := a } .sta (fun _ => 0) rfl
    obtain ⟨internal, external, hinternal, hexternal⟩ := hfiles.read
    have hinside := family_of_filesIn rfl rfl hfiles hinternal
    have htold := told_of_family hinternal (hinside.trans (hfamily _).symm)
    rw [PcpPacket.externalSockaddr, afterExternal_request] at hexternal
    have houtside := told_of_family hexternal ((family_of_zero hexternal).trans rfl)
    exact ⟨htold.nine, houtside⟩
  · rintro ⟨hpasses, hexternal⟩ gm i nonce rfl
    have htold : Told frame.alignment gm.myIpv6Address
        ((requestPacketIpv6 gm nonce).afterClient ++ frame.stack) :=
      ⟨hpasses, fun halignment => ⟨ha, protocol_seen halignment gm nonce frame.stack _⟩⟩
    rw [← afterExternal_request gm nonce] at hexternal
    exact filesIn_of_family ((assigned_iff _ _ _ _).mpr htold).assigned
      ((assigned_iff _ _ _ _).mpr hexternal).assigned (hfamily _)

end Lists

/-- **Where the two families are told apart**: the socket address of any address and port, and the lists
of requests for IPv4 and for IPv6. -/
theorem classified_iff (alignment : Fin 4) (a : Bytes 16) (after : List UInt8) (port : UInt16)
    (frame : Frame) :
    (Assigned alignment a after port ↔ Told alignment a after) ∧
    ((∀ gm i nonce, FilesIn gm (requestPacketIpv4 gm i nonce) i frame .ip4) ↔ frame.alignment = 2) ∧
    (¬ IsMapped a →
      ((∀ gm i nonce, gm.myIpv6Address = a → FilesIn gm (requestPacketIpv6 gm nonce) i frame .ip6) ↔
        (frame.alignment = 2 → ¬ Passes a) ∧
        Told frame.alignment (fun _ => 0) (List.replicate 20 0 ++ frame.stack))) :=
  ⟨assigned_iff alignment a after port, filesIn_ipv4 frame, filesIn_ipv6 frame⟩

/-- A client at `fe80::1`, its packet two bytes off a word boundary. -/
theorem classified_linkLocal :
    let gm : Gm := { myIpv6Address := ![0xfe, 0x80, 0, 0, 0, 0, 0, 0, 0, 0, 0, 0, 0, 0, 0, 1] }
    FilesIn gm (requestPacketIpv6 gm fun _ => 0) .sta ⟨2, []⟩ .ip6 :=
  ((classified_iff 0 _ [] 0 ⟨2, []⟩).2.2 (by decide)).mpr
    ⟨fun _ h => absurd (h.zero 0 (by decide)) (by decide),
      fun _ h => h.tenth rfl, fun hne => absurd rfl hne⟩ _ .sta (fun _ => 0) rfl

/-- At a word boundary the client `192.168.1.2` is taken for one of IPv6, and its request is put in the
ip6 list.  Two bytes off, `::ff:ffff:c0a8:102` is taken for an IPv4-mapped address. -/
theorem not_classified :
    ¬ Assigned 0 (ipv4Mapped ![192, 168, 1, 2]) (List.replicate 44 0) 443 ∧
    ¬ FilesIn {} (requestPacketIpv4 {} .sta fun _ => 0) .sta .aligned .ip4 ∧
    ¬ Assigned 2 ![0, 0, 0, 0, 0, 0, 0, 0, 0, 0xff, 0xff, 0xff, 192, 168, 1, 2] [] 443 := by
  refine ⟨fun h => ?_, fun h => ?_, fun h => ?_⟩
  · exact absurd h.assigned (by decide)
  · obtain ⟨s, hs, hfamily⟩ := assignSockaddr_mapped 0 (fun _ => 0)
      ((requestPacketIpv4 {} .sta fun _ => 0).afterClient ++ []) (swap16 (swap16 httpsPort))
    rw [family_of_filesIn rfl rfl h hs] at hfamily
    cases hfamily
  · exact absurd h.assigned (by decide)

end Pcp
