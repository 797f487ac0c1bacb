import HtFirmware.Support.ZeroTest
import HtFirmware.Wifi.Networks

/-!
# Wifi/Icmpv6 — what a router advertisement is read from

`incoming_packet` receives into a packet and an address that are not initialized, and tells `recvfrom`
an address size that is not either.  Neither the size of the message nor that of its address is looked
at afterwards, and the lifetime is not taken out of network byte order.  A datagram is answered by what
it holds itself only if something it wrote rules it out, or it is long enough and its address was
written whole (`sound_iff`).
-/

open Machinery

namespace Wifi

namespace Icmpv6

/-! ## The functions -/

/-- `icmpv6_message_t`. -/
abbrev Message := Bytes 56

/-- `struct sockaddr_in6`. -/
abbrev SockaddrIn6 := Bytes 28

def afInet6 : UInt8 := 10

section Fields

variable (m : Message)

def sourceAddress : Bytes 16 := fun i => m (Fin.castLE (by decide) (Fin.natAdd 8 i))

def type : UInt8 := m 40

def routerLifetime : UInt16 := load16 (m 46) (m 47)

end Fields

/-- A call of the callback (`gm_ipv6_router_advertisement_after_t`). -/
structure After where
  address : SockaddrIn6
  routerLifetime : UInt16
  deriving DecidableEq

/-- `decode_router_advertisement`.  The source address has the rest of the packet after it. -/
def decodeRouterAdvertisement (m : Message) (_messageSize : ℕ) (address : SockaddrIn6) :
    Option After :=
  if Support.gmAllZeroes aligned (List.ofFn (sourceAddress m) ++ (List.ofFn m).drop 24) 16
      ≠ some true ∧ 0 < routerLifetime m then
    some ⟨address, routerLifetime m⟩
  else none

/-- `decode_packet`. -/
def decodePacket (m : Message) (messageSize : ℕ) (address : SockaddrIn6) : Option After :=
  if type m = icmpv6RouterAdvertisement then decodeRouterAdvertisement m messageSize address else none

/-- What there is to receive, and the address size `recvfrom` is told. -/
structure Received where
  datagram : List UInt8
  sender : SockaddrIn6
  addressSize : UInt32

namespace Received

variable (r : Received)

/-- The packet after `recvfrom`: no more of it is written than was received. -/
def packet (before : Message) : Message := fun i => r.datagram[(i : ℕ)]?.getD (before i)

/-- The address after it: no more of it is written than the size allows. -/
def address (before : SockaddrIn6) : SockaddrIn6 :=
  fun i => if (i : ℕ) < r.addressSize.toNat then r.sender i else before i

/-- `incoming_packet`, from what the packet and the address held before. -/
def incomingPacket (packet : Message) (address : SockaddrIn6) : Option After :=
  if r.address address 1 ≠ afInet6 then none
  else decodePacket (r.packet packet) (min r.datagram.length 56) (r.address address)

/-- A byte of the datagram. -/
def byte (i : ℕ) : UInt8 := r.datagram[i]?.getD 0

end Received

/-! ## What is called -/

section Calls

variable {m : Message} {address : SockaddrIn6}

/-- The zero test is right about the source address. -/
theorem gmAllZeroes_sourceAddress (m : Message) :
    Support.gmAllZeroes aligned (List.ofFn (sourceAddress m) ++ (List.ofFn m).drop 24) 16
      = some (decide (∀ i, sourceAddress m i = 0)) := by
  have htells : Support.Tells aligned 16 (sourceAddress m) :=
    Support.gmAllZeroes_sixteen (sourceAddress m)
  exact htells.append _

/-- **When the callback is called**, and with what. -/
theorem decodePacket_eq_some {messageSize : ℕ} {call : After} :
    decodePacket m messageSize address = some call ↔ type m = icmpv6RouterAdvertisement ∧
      (∃ i, sourceAddress m i ≠ 0) ∧ routerLifetime m ≠ 0 ∧ call = ⟨address, routerLifetime m⟩ := by
  have hlifetime : 0 < routerLifetime m ↔ routerLifetime m ≠ 0 := UInt16.pos_iff_ne_zero
  have hzeroes : some (decide (∀ i, sourceAddress m i = 0)) ≠ some true ↔
      ∃ i, sourceAddress m i ≠ 0 := by
    rw [ne_eq, Option.some_inj, decide_eq_true_iff, not_forall]
  rw [decodePacket, decodeRouterAdvertisement, gmAllZeroes_sourceAddress]
  split_ifs with htype hvalid
  · rw [hzeroes, hlifetime] at hvalid
    exact ⟨fun h => ⟨htype, hvalid.1, hvalid.2, (Option.some.inj h).symm⟩,
      fun h => congrArg some h.2.2.2.symm⟩
  · rw [hzeroes, hlifetime] at hvalid
    exact iff_of_false (by rintro ⟨⟩) fun h => hvalid ⟨h.2.1, h.2.2.1⟩
  · exact iff_of_false (by rintro ⟨⟩) fun h => htype h.1

/-- `sin6_addr`. -/
def sin6Addr (address : SockaddrIn6) : Bytes 16 :=
  fun i => address (Fin.castLE (by decide) (Fin.natAdd 8 i))

/-- **The handler is called as it is for a message that was read**, of an IPv6 sender. -/
theorem state_incomingPacket (s : State) (m : Message) (messageSize : ℕ) (address : SockaddrIn6)
    (port : UInt16) :
    s.incomingPacket ⟨type m, sourceAddress m, routerLifetime m⟩ (.inet6 (sin6Addr address) port)
      = (decodePacket m messageSize address).elim s fun call =>
          s.ipv6RouterAdvertisementHandler (sin6Addr call.address) := by
  have hsource : sourceAddress m ≠ (fun _ => 0) ↔ ∃ i, sourceAddress m i ≠ 0 := by
    rw [ne_eq, funext_iff, not_forall]
  have hlifetime : 0 < routerLifetime m ↔ routerLifetime m ≠ 0 := UInt16.pos_iff_ne_zero
  rw [incomingPacket_inet6]
  cases hcall : decodePacket m messageSize address with
  | none =>
    refine if_neg fun hvalid => ?_
    have hsome : decodePacket m messageSize address = some _ :=
      decodePacket_eq_some.mpr
        ⟨hvalid.1, hsource.mp hvalid.2.1, hlifetime.mp hvalid.2.2, rfl⟩
    rw [hcall] at hsome
    cases hsome
  | some call =>
    obtain ⟨htype, hnonzero, hpositive, rfl⟩ := decodePacket_eq_some.mp hcall
    exact if_pos ⟨htype, hsource.mpr hnonzero, hlifetime.mpr hpositive⟩

end Calls

/-! ## Datagrams -/

namespace Received

variable {r : Received} {before : Message} {beforeAddress : SockaddrIn6} {call : After}

theorem incomingPacket_eq_some : r.incomingPacket before beforeAddress = some call ↔
    r.address beforeAddress 1 = afInet6 ∧
    type (r.packet before) = icmpv6RouterAdvertisement ∧
    (∃ i, sourceAddress (r.packet before) i ≠ 0) ∧ routerLifetime (r.packet before) ≠ 0 ∧
    call = ⟨r.address beforeAddress, routerLifetime (r.packet before)⟩ := by
  unfold incomingPacket
  split_ifs with hfamily
  · exact iff_of_false (by rintro ⟨⟩) fun h => hfamily h.1
  · rw [decodePacket_eq_some, and_iff_right (not_not.mp hfamily)]

/-- A byte that was received. -/
theorem packet_of_lt {i : Fin 56} (hi : (i : ℕ) < r.datagram.length) (before : Message) :
    r.packet before i = r.byte i := by
  rw [packet, byte, List.getElem?_eq_getElem hi]
  rfl

/-- A byte that was not. -/
theorem packet_of_le {i : Fin 56} (hi : r.datagram.length ≤ i) (before : Message) :
    r.packet before i = before i := by
  rw [packet, List.getElem?_eq_none hi]
  rfl

/-- An address that was written whole. -/
theorem address_of_le (hsize : 28 ≤ r.addressSize.toNat) (before : SockaddrIn6) :
    r.address before = r.sender := by
  funext i
  exact if_pos (i.isLt.trans_le hsize)

variable (r)

/-- The datagram is answered by what it holds: whatever the packet and the address held before, the call
is the same, and it is made for a router advertisement that is whole and valid, with its sender and its
lifetime in host order. -/
structure Sound : Prop where
  same : ∀ before before' address address',
    r.incomingPacket before address = r.incomingPacket before' address'
  whole : ∀ before address call, r.incomingPacket before address = some call →
    48 ≤ r.datagram.length ∧ r.byte 40 = icmpv6RouterAdvertisement ∧
      (∃ i : Fin 16, r.byte (8 + i) ≠ 0) ∧ ¬ (r.byte 46 = 0 ∧ r.byte 47 = 0) ∧
      call = ⟨r.sender, swap16 (load16 (r.byte 46) (r.byte 47))⟩

/-- Something that was written rules the datagram out: its type, its source address, its sender's family
or its lifetime. -/
def RuledOut : Prop :=
  40 < r.datagram.length ∧ r.byte 40 ≠ icmpv6RouterAdvertisement ∨
  24 ≤ r.datagram.length ∧ (∀ i : Fin 16, r.byte (8 + i) = 0) ∨
  2 ≤ r.addressSize.toNat ∧ r.sender 1 ≠ afInet6 ∨
  48 ≤ r.datagram.length ∧ r.byte 46 = 0 ∧ r.byte 47 = 0

instance : Decidable r.RuledOut := inferInstanceAs (Decidable (_ ∨ _ ∨ _ ∨ _))

/-- The datagram is long enough, its sender's address was written whole, and its lifetime is the same in
either byte order. -/
def Complete : Prop :=
  48 ≤ r.datagram.length ∧ 28 ≤ r.addressSize.toNat ∧ r.byte 46 = r.byte 47

variable {r}

theorem routerLifetime_of_le (hlength : 48 ≤ r.datagram.length) (before : Message) :
    routerLifetime (r.packet before) = load16 (r.byte 46) (r.byte 47) := by
  have hfirst : r.packet before 46 = r.byte 46 := packet_of_lt (by exact Nat.lt_of_succ_lt hlength) before
  have hsecond : r.packet before 47 = r.byte 47 := packet_of_lt (by exact hlength) before
  rw [routerLifetime, hfirst, hsecond]

theorem type_of_lt (hlength : 40 < r.datagram.length) (before : Message) :
    type (r.packet before) = r.byte 40 := packet_of_lt (by exact hlength) before

theorem sourceAddress_of_le (hlength : 24 ≤ r.datagram.length) (before : Message) (i : Fin 16) :
    sourceAddress (r.packet before) i = r.byte (8 + i) := by
  have hi : 8 + (i : ℕ) < r.datagram.length := by omega
  exact packet_of_lt (by exact hi) before

theorem load16_eq_zero {a b : UInt8} : load16 a b = 0 ↔ a = 0 ∧ b = 0 :=
  (by rfl : (0 : UInt16) = load16 0 0) ▸ load16_inj

/-- No call is made for it then. -/
theorem RuledOut.none (h : r.RuledOut) (before : Message) (address : SockaddrIn6) :
    r.incomingPacket before address = none := by
  refine Option.eq_none_iff_forall_ne_some.mpr fun call hcall => ?_
  obtain ⟨hfamily, htype, ⟨i, hi⟩, hlifetime, -⟩ := incomingPacket_eq_some.mp hcall
  rcases h with ⟨hlength, hother⟩ | ⟨hlength, hzero⟩ | ⟨hsize, hother⟩ | ⟨hlength, hzero⟩
  · exact hother ((type_of_lt hlength before).symm.trans htype)
  · exact hi ((sourceAddress_of_le hlength before i).trans (hzero i))
  · refine hother (Eq.trans ?_ hfamily)
    exact (if_pos hsize).symm
  · exact hlifetime ((routerLifetime_of_le hlength before).trans (load16_eq_zero.mpr hzero))

/-- A packet that holds a router advertisement. -/
def leftover : Message := fun i => if i = 40 then icmpv6RouterAdvertisement else 1

/-- For a datagram that is not ruled out, what the packet held may make up an advertisement. -/
theorem incomingPacket_leftover (h : ¬ r.RuledOut) {address : SockaddrIn6}
    (haddress : address 1 = afInet6) : r.incomingPacket leftover address
      = some ⟨r.address address, routerLifetime (r.packet leftover)⟩ := by
  obtain ⟨htype, h⟩ := not_or.mp h
  obtain ⟨hsource, h⟩ := not_or.mp h
  obtain ⟨hfamily, hlifetime⟩ := not_or.mp h
  refine incomingPacket_eq_some.mpr ⟨?_, ?_, ?_, ?_, rfl⟩
  · by_cases hsize : 2 ≤ r.addressSize.toNat
    · exact (if_pos hsize).trans (not_not.mp fun hne => hfamily ⟨hsize, hne⟩)
    · exact (if_neg hsize).trans haddress
  · by_cases hlength : 40 < r.datagram.length
    · exact (type_of_lt hlength _).trans (not_not.mp fun hne => htype ⟨hlength, hne⟩)
    · exact packet_of_le (by exact Nat.not_lt.mp hlength) leftover
  · by_cases hlength : 24 ≤ r.datagram.length
    · obtain ⟨i, hi⟩ := not_forall.mp fun hzero => hsource ⟨hlength, hzero⟩
      exact ⟨i, fun hzero => hi ((sourceAddress_of_le hlength _ i).symm.trans hzero)⟩
    · have hlast : r.packet leftover 23 = 1 :=
        packet_of_le (by exact Nat.le_of_lt_succ (Nat.not_le.mp hlength)) leftover
      exact ⟨15, fun hzero => absurd (hlast.symm.trans hzero) (by decide)⟩
  · by_cases hlength : 48 ≤ r.datagram.length
    · rw [routerLifetime_of_le hlength]
      exact fun hzero => hlifetime ⟨hlength, load16_eq_zero.mp hzero⟩
    · have hlast : r.packet leftover 47 = 1 :=
        packet_of_le (by exact Nat.le_of_lt_succ (Nat.not_le.mp hlength)) leftover
      exact fun hzero => absurd (hlast.symm.trans (load16_eq_zero.mp hzero).2) (by decide)

/-- The same call is made for a datagram that is complete. -/
theorem Complete.same (h : r.Complete) (before before' : Message) (address address' : SockaddrIn6) :
    r.incomingPacket before address = r.incomingPacket before' address' := by
  obtain ⟨hlength, hsize, -⟩ := h
  refine Option.ext fun call => ?_
  simp only [incomingPacket_eq_some, address_of_le hsize,
    routerLifetime_of_le hlength, type_of_lt (Nat.lt_of_lt_of_le (by decide) hlength),
    sourceAddress_of_le ((by decide : 24 ≤ 48).trans hlength)]

/-- **A datagram is answered by what it holds exactly when it is ruled out or complete.** -/
theorem sound_iff (r : Received) : r.Sound ↔ r.RuledOut ∨ r.Complete := by
  constructor
  · intro hsound
    by_contra h
    obtain ⟨hrules, hcomplete⟩ := not_or.mp h
    have hcall : r.incomingPacket leftover (fun _ => afInet6) = _ := incomingPacket_leftover hrules rfl
    have hother : r.incomingPacket leftover (fun i => if i = 27 then 0 else afInet6) = _ :=
      incomingPacket_leftover hrules rfl
    obtain ⟨hlength, -, -, -, heq⟩ := hsound.whole _ _ _ hcall
    have hlifetime := congrArg After.routerLifetime heq
    rw [routerLifetime_of_le hlength, swap16_load16] at hlifetime
    refine hcomplete ⟨hlength, Nat.not_lt.mp fun hsize => ?_, (load16_inj.mp hlifetime).1⟩
    -- The last byte of the address is what it was, and another byte makes another call.
    have hsame := hcall.symm.trans ((hsound.same _ _ _ _).trans hother)
    have hlast : r.address (fun _ => afInet6) 27
        = r.address (fun i => if i = 27 then 0 else afInet6) 27 :=
      congrFun (congrArg After.address (Option.some.inj hsame)) 27
    have hunwritten : ¬ 27 < r.addressSize.toNat := by omega
    have hkept : ∀ before : SockaddrIn6, r.address before 27 = before 27 := fun _ =>
      if_neg hunwritten
    rw [hkept, hkept] at hlast
    exact absurd hlast (by decide)
  · rintro (h | h)
    · exact ⟨fun _ _ _ _ => (h.none _ _).trans (h.none _ _).symm,
        fun before address call hcall => by
          rw [h.none] at hcall
          cases hcall⟩
    · refine ⟨h.same, fun before address call hcall => ?_⟩
      obtain ⟨hlength, hsize, hbytes⟩ := h
      obtain ⟨-, htype, ⟨i, hi⟩, hlifetime, rfl⟩ := incomingPacket_eq_some.mp hcall
      rw [routerLifetime_of_le hlength] at hlifetime
      refine ⟨hlength, ?_, ⟨i, ?_⟩, fun hzero => hlifetime (load16_eq_zero.mpr hzero), ?_⟩
      · exact (type_of_lt (Nat.lt_of_lt_of_le (by decide) hlength) before).symm.trans htype
      · rw [← sourceAddress_of_le ((by decide : 24 ≤ 48).trans hlength) before]
        exact hi
      · rw [address_of_le hsize, routerLifetime_of_le hlength, swap16_load16, hbytes]

/-- An advertisement of `fe80::1` with a lifetime of half an hour. -/
def advertisement : List UInt8 :=
  List.replicate 8 0 ++ [0xfe, 0x80, 0, 0, 0, 0, 0, 0, 0, 0, 0, 0, 0, 0, 0, 1] ++ List.replicate 16 0
    ++ [icmpv6RouterAdvertisement, 0, 0, 0, 64, 0, 7, 8]

/-- Its lifetime is passed with its bytes exchanged.  Without its last four bytes it is answered with the
lifetime that was in the packet. -/
theorem not_sound_advertisement :
    let sender : SockaddrIn6 := fun i => if i = 1 then afInet6 else 0
    ¬ Sound ⟨advertisement, sender, 28⟩ ∧ ¬ Sound ⟨advertisement.take 44, sender, 28⟩ := by
  intro sender
  constructor
  · intro h
    have hcall := incomingPacket_leftover (by decide : ¬ RuledOut ⟨advertisement, sender, 28⟩)
      (rfl : sender 1 = afInet6)
    have hlifetime := congrArg After.routerLifetime (h.whole _ _ _ hcall).2.2.2.2
    exact absurd hlifetime (by decide)
  · intro h
    have hcall := incomingPacket_leftover
      (by decide : ¬ RuledOut ⟨advertisement.take 44, sender, 28⟩) (rfl : sender 1 = afInet6)
    exact absurd (h.whole _ _ _ hcall).1 (by decide)

end Received

end Icmpv6

end Wifi
