import HtFirmware.Machinery.FirstBest
import HtFirmware.Pcp.Protocol
import HtFirmware.Wifi.Station

/-!
# Wifi/Interfaces — which interface an address belongs to

`interface_for_sockaddr` should choose the interface with the configured address that has the most
leading bits in common with another one.  It looks at unset entries too, whose zeroes may have more of
them, and leaves the unique-local address out.  So it chooses by the entries it looks at
(`interfaceForSockaddr_eq`), and what it should choose by are the configured ones.
-/

open Machinery

namespace Wifi

open Pcp (Gm GmInterfaceIndex SockAddr bestMatchingIpv6Address interfaceForSockaddr
  netInterfaceIndices)
open Support (commonBits gmMatchBits_eq)

/-! ## Addresses of an interface -/

/-- What the Port Control Protocol client keeps of an interface. -/
def GmNetif.toPcp (interface : GmNetif) : Pcp.GmNetif :=
  ⟨interface.ip4.toGmNetifIp4, interface.ip6.toGmNetifIp6⟩

/-- The entries that are looked at, whether they are set or not. -/
def GmNetifIp6.lookedAt (ip6 : GmNetifIp6) : List (Bytes 16) :=
  [ip6.linkLocal, ip6.siteLocal] ++ List.ofFn ip6.global

/-- The entries that are set. -/
def configured {n : ℕ} (entries : List (Bytes n)) : List (Bytes n) :=
  entries.filter fun a => a ≠ fun _ => 0

/-- The most leading bits that any of some addresses has in common with another. -/
def nearest {n : ℕ} (addresses : List (Bytes n)) (source : Bytes n) : ℕ :=
  (addresses.map (commonBits · source)).foldr max 0

/-- How near the configured addresses of the source's family are. -/
def configuredBits (interface : GmNetif) : SockAddr → ℕ
  | .inet source _ => nearest (configured [interface.ip4.address]) source
  | .inet6 source _ => nearest (configured interface.ip6.addresses) source

/-- How near the entries that are looked at are. -/
def lookedAtBits (interface : GmNetif) : SockAddr → ℕ
  | .inet source _ => nearest [interface.ip4.address] source
  | .inet6 source _ => nearest interface.ip6.lookedAt source

section Choice

variable {interface : GmNetif} {interfaces : GmInterfaceIndex → GmNetif} {source : Bytes 16}

/-- **The best match is the first of the nearest entries.** -/
theorem bestMatchingIpv6Address_eq (interface : GmNetif) (source : Bytes 16) :
    bestMatchingIpv6Address interface.toPcp source
      = ((firstBest (commonBits · source) interface.ip6.lookedAt).elim (fun _ => 0) id,
          nearest interface.ip6.lookedAt source) := by
  have hturn : Pcp.bestMatch source = better (commonBits · source) id := by
    funext best a
    rw [Pcp.bestMatch, better, gmMatchBits_eq]
    rfl
  have hloop : bestMatchingIpv6Address interface.toPcp source
      = interface.ip6.lookedAt.foldl (Pcp.bestMatch source) (fun _ => 0, 0) := rfl
  rw [hloop, hturn, foldl_better, elim_firstBest, nearest]

theorem matchingBits_eq (interface : GmNetif) (s : SockAddr) :
    Pcp.matchingBits interface.toPcp s = lookedAtBits interface s := by
  cases s with
  | inet source port => exact (gmMatchBits_eq _ _).trans (Nat.max_zero _).symm
  | inet6 source port => rw [Pcp.matchingBits, bestMatchingIpv6Address_eq, lookedAtBits]

/-- **The interface is the first whose entries are nearest.** -/
theorem interfaceForSockaddr_eq (gm : Gm) (interfaces : GmInterfaceIndex → GmNetif) (s : SockAddr) :
    interfaceForSockaddr { gm with netInterfaces := fun i => (interfaces i).toPcp } s
      = firstBest (fun i => lookedAtBits (interfaces i) s) netInterfaceIndices := by
  have hturn : (fun (best : Option GmInterfaceIndex × ℕ) i =>
      if best.2 < Pcp.matchingBits (interfaces i).toPcp s then
        (some i, Pcp.matchingBits (interfaces i).toPcp s) else best)
      = better (fun i => lookedAtBits (interfaces i) s) some := by
    funext best i
    rw [matchingBits_eq]
    rfl
  unfold interfaceForSockaddr
  dsimp only
  rw [hturn, foldl_better]
  cases firstBest (fun i => lookedAtBits (interfaces i) s) netInterfaceIndices <;> rfl

/-- The interface that is nearest by its configured addresses is nearest by the entries that are looked
at: more of its bits are shared than of those before it, and no fewer than of those after it. -/
def Prevails (interfaces : GmInterfaceIndex → GmNetif) (s : SockAddr) : Prop :=
  (∀ i, configuredBits (interfaces i) s = 0 ∧ lookedAtBits (interfaces i) s = 0) ∨
  ∃ i before after, netInterfaceIndices = before ++ i :: after ∧
    firstBest (fun i => configuredBits (interfaces i) s) netInterfaceIndices = some i ∧
    0 < lookedAtBits (interfaces i) s ∧
    (∀ j ∈ before, lookedAtBits (interfaces j) s < lookedAtBits (interfaces i) s) ∧
    ∀ j ∈ after, lookedAtBits (interfaces j) s ≤ lookedAtBits (interfaces i) s

/-- An unset entry shares no bit, or one before it shares as many, or one after it more. -/
def Outdone (interface : GmNetif) (source : Bytes 16) : Prop :=
  ∀ before after, interface.ip6.lookedAt = before ++ (fun _ => 0) :: after →
    commonBits (fun _ => 0) source = 0 ∨
    (∃ a ∈ before, commonBits (fun _ => 0) source ≤ commonBits a source) ∨
    ∃ a ∈ after, commonBits (fun _ => 0) source < commonBits a source

theorem mem_netInterfaceIndices (i : GmInterfaceIndex) : i ∈ netInterfaceIndices := by
  cases i <;> decide

/-- **The right interface is chosen exactly when it prevails.** -/
theorem interfaceForSockaddr_iff (gm : Gm) (interfaces : GmInterfaceIndex → GmNetif) (s : SockAddr) :
    interfaceForSockaddr { gm with netInterfaces := fun i => (interfaces i).toPcp } s
        = firstBest (fun i => configuredBits (interfaces i) s) netInterfaceIndices ↔
      Prevails interfaces s := by
  rw [interfaceForSockaddr_eq, Prevails]
  cases hchoice : firstBest (fun i => configuredBits (interfaces i) s) netInterfaceIndices with
  | none =>
    have hzero : ∀ i, configuredBits (interfaces i) s = 0 := fun i =>
      firstBest_eq_none.mp hchoice i (mem_netInterfaceIndices i)
    rw [firstBest_eq_none]
    constructor
    · exact fun h => .inl fun i => ⟨hzero i, h i (mem_netInterfaceIndices i)⟩
    · rintro (h | ⟨_, _, _, _, ⟨⟩, _⟩)
      exact fun i _ => (h i).2
  | some i =>
    obtain ⟨hpos, -⟩ := firstBest_eq_some.mp hchoice
    rw [firstBest_eq_some_iff]
    constructor
    · rintro ⟨hlooked, before, after, hindices, hbefore, hafter⟩
      exact .inr ⟨i, before, after, hindices, rfl, hlooked, hbefore, hafter⟩
    · rintro (h | ⟨j, before, after, hindices, hj, hlooked, hbefore, hafter⟩)
      · exact absurd (h i).1 hpos.ne'
      · obtain rfl := Option.some.inj hj
        exact ⟨hlooked, before, after, hindices, hbefore, hafter⟩

theorem mem_addresses_of_lookedAt {ip6 : GmNetifIp6} {a : Bytes 16} (h : a ∈ ip6.lookedAt) :
    a ∈ ip6.addresses := by
  obtain hlocal | hglobal := List.mem_append.mp h
  · refine List.mem_append_left _ ?_
    simp only [List.mem_cons, List.not_mem_nil, or_false] at hlocal ⊢
    exact hlocal.imp_right .inl
  · exact List.mem_append_right _ hglobal

/-- **A configured address is returned exactly when every unset entry is outdone.** -/
theorem bestMatchingIpv6Address_iff (interface : GmNetif) (source : Bytes 16) :
    ((bestMatchingIpv6Address interface.toPcp source).2 ≠ 0 →
      (bestMatchingIpv6Address interface.toPcp source).1 ∈ configured interface.ip6.addresses ∧
      commonBits (bestMatchingIpv6Address interface.toPcp source).1 source
        = (bestMatchingIpv6Address interface.toPcp source).2) ↔ Outdone interface source := by
  rw [bestMatchingIpv6Address_eq, nearest, ← elim_firstBest]
  have hunset : Outdone interface source ↔
      firstBest (commonBits · source) interface.ip6.lookedAt ≠ some fun _ => 0 := by
    constructor
    · intro h hfirst
      obtain ⟨hpos, before, after, hentries, hbefore, hafter⟩ := firstBest_eq_some_iff.mp hfirst
      rcases h before after hentries with hzero | ⟨a, ha, hle⟩ | ⟨a, ha, hlt⟩
      · exact hpos.ne' hzero
      · exact (hbefore a ha).not_ge hle
      · exact (hafter a ha).not_gt hlt
    · intro h before after hentries
      by_contra hnone
      obtain ⟨hzero, hnone⟩ := not_or.mp hnone
      obtain ⟨hbefore, hafter⟩ := not_or.mp hnone
      exact h (firstBest_eq_some_iff.mpr ⟨Nat.pos_of_ne_zero hzero, before, after, hentries,
        fun b hb => Nat.lt_of_not_le fun hle => hbefore ⟨b, hb, hle⟩,
        fun b hb => Nat.le_of_not_lt fun hlt => hafter ⟨b, hb, hlt⟩⟩)
  rw [hunset]
  cases hbest : firstBest (commonBits · source) interface.ip6.lookedAt with
  | none => exact iff_of_true (fun h => absurd rfl h) (by rintro ⟨⟩)
  | some a =>
    obtain ⟨hpos, -, before, after, hentries, -⟩ := firstBest_eq_some.mp hbest
    have hmem := mem_addresses_of_lookedAt (hentries ▸ List.mem_append_right _ List.mem_cons_self)
    have hset : a ∈ configured interface.ip6.addresses ↔ a ≠ fun _ => 0 := by
      rw [configured, List.mem_filter, and_iff_right hmem, decide_eq_true_iff]
    constructor
    · intro h hzero
      exact hset.mp (h hpos.ne').1 (Option.some.inj hzero)
    · intro h _
      exact ⟨hset.mpr fun ha => h (congrArg some ha), rfl⟩

end Choice

/-- **When the client goes by the nearest configured address**: in its choice of an interface, and in that
of an address to bind to. -/
theorem matched_iff (gm : Gm) (interfaces : GmInterfaceIndex → GmNetif) (s : SockAddr)
    (interface : GmNetif) (source : Bytes 16) :
    (interfaceForSockaddr { gm with netInterfaces := fun i => (interfaces i).toPcp } s
        = firstBest (fun i => configuredBits (interfaces i) s) netInterfaceIndices ↔
      Prevails interfaces s) ∧
    ((bestMatchingIpv6Address interface.toPcp source).2 ≠ 0 →
        (bestMatchingIpv6Address interface.toPcp source).1 ∈ configured interface.ip6.addresses ∧
        commonBits (bestMatchingIpv6Address interface.toPcp source).1 source
          = (bestMatchingIpv6Address interface.toPcp source).2 ↔
      Outdone interface source) :=
  ⟨interfaceForSockaddr_iff gm interfaces s, bestMatchingIpv6Address_iff interface source⟩

/-- For `10.0.0.1`, which shares no bit with the only address there is, the first unset entry is chosen;
for `2001:db8::1` the zeroes of one are an address to bind to. -/
theorem not_matched :
    let interfaces : GmInterfaceIndex → GmNetif := fun i =>
      if i = .sta then { ip4 := { address := ![192, 168, 1, 5] } } else {}
    let interface : GmNetif :=
      { ip6 := { linkLocal := ![0xfe, 0x80, 0, 0, 0, 0, 0, 0, 0, 0, 0, 0, 0, 0, 0, 5] } }
    let source : Bytes 16 := ![0x20, 1, 0xd, 0xb8, 0, 0, 0, 0, 0, 0, 0, 0, 0, 0, 0, 1]
    (interfaceForSockaddr { netInterfaces := fun i => (interfaces i).toPcp }
        (.inet ![10, 0, 0, 1] 0) = some .ap ∧
      firstBest (fun i => configuredBits (interfaces i) (.inet ![10, 0, 0, 1] 0)) netInterfaceIndices
        = none) ∧
    (bestMatchingIpv6Address interface.toPcp source).2 = 2 ∧
      (bestMatchingIpv6Address interface.toPcp source).1 ∉ configured interface.ip6.addresses := by
  decide +kernel

end Wifi
