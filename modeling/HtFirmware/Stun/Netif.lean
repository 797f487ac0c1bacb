import HtFirmware.Stun.Message
import Mathlib.Tactic.FinCases

/-!
# Stun/Netif — what the station's STUN run writes

`ip_event_sta_got_ip4` starts a run whose `address` is `ip4.router_public_ip`, four bytes in the
middle of the interface's record.  The decoders write a whole socket address there.

`NetifField` lays out `struct _gm_netif` as declared, with four-byte pointers.
`keepsInterface_iff_coincides` says which runs leave the record as they should: those that decode no
address, and those whose socket addresses happen to be there already.
-/

open Machinery

namespace Stun

/-! ## The interface record -/

/-- The members of `struct _gm_netif`, in order. -/
inductive NetifField where
  | espNetif
  | ip4Address
  | ip4Router
  | ip4Netmask
  | ip4RouterPublicIp
  | ip4Nat
  | ip4PortMappings
  | ip6LinkLocal
  | ip6SiteLocal
  | ip6SiteUnique
  | ip6Global
  | ip6Router
  | ip6RouterPublicIp
  | ip6PortMappings
  | ip6Pat66
  | ip6Nat6
  deriving DecidableEq

namespace NetifField

def all : List NetifField :=
  [espNetif, ip4Address, ip4Router, ip4Netmask, ip4RouterPublicIp, ip4Nat, ip4PortMappings,
    ip6LinkLocal, ip6SiteLocal, ip6SiteUnique, ip6Global, ip6Router, ip6RouterPublicIp,
    ip6PortMappings, ip6Pat66, ip6Nat6]

/-- The size of a member: pointers, integers and IPv4 addresses are words. -/
def size : NetifField → ℕ
  | ip6LinkLocal | ip6SiteLocal | ip6SiteUnique | ip6Router | ip6RouterPublicIp => 16
  | ip6Global => 3 * 16
  | ip6Pat66 | ip6Nat6 => 1
  | _ => 4

/-- The alignment of a member. -/
def align : NetifField → ℕ
  | ip6Pat66 | ip6Nat6 => 1
  | _ => 4

/-- The offset of a member. -/
def offset (f : NetifField) : ℕ :=
  ((all.zip (offsets 0 (all.map fun f => (f.size, f.align)))).lookup f).getD 0

/-- The bytes of a member, in a memory that starts with the record. -/
def read (f : NetifField) (m : Memory) : Bytes f.size := load f.size m f.offset

end NetifField

/-- Where `router_public_ip` lies. -/
theorem offset_ip4RouterPublicIp : NetifField.offset .ip4RouterPublicIp = 16 := by decide

/-- A socket address written at `router_public_ip` ends where `link_local` does; the members it
reaches are `nat`, `port_mappings` and `link_local`. -/
theorem offset_cases (f : NetifField) (hf : f ≠ .ip4RouterPublicIp) :
    f.offset + f.size ≤ 16 ∨ 20 ≤ f.offset := by
  cases f
  case ip4RouterPublicIp => exact absurd rfl hf
  all_goals decide

/-- The record is as it was, but for `router_public_ip`, when the bytes from there to the end of
`link_local` are; nothing else is written. -/
theorem read_eq_iff {m m' : Memory} (h : ∀ j, j < 16 ∨ 44 ≤ j → m' j = m j) :
    (∀ f : NetifField, f ≠ .ip4RouterPublicIp → f.read m' = f.read m) ↔
      ∀ j, 20 ≤ j → j < 44 → m' j = m j := by
  simp only [NetifField.read, load_eq_iff]
  constructor
  · intro hread j hlow hhigh
    have hnat := hread .ip4Nat (by decide) (j - 20)
    have hmappings := hread .ip4PortMappings (by decide) (j - 24)
    have hlinkLocal := hread .ip6LinkLocal (by decide) (j - 28)
    simp only [show NetifField.offset .ip4Nat = 20 by decide,
      show NetifField.offset .ip4PortMappings = 24 by decide,
      show NetifField.offset .ip6LinkLocal = 28 by decide, NetifField.size] at *
    by_cases h24 : j < 24
    · rw [show j = 20 + (j - 20) by omega]
      exact hnat (by omega)
    · by_cases h28 : j < 28
      · rw [show j = 24 + (j - 24) by omega]
        exact hmappings (by omega)
      · rw [show j = 28 + (j - 28) by omega]
        exact hlinkLocal (by omega)
  · intro hbytes f hf i hi
    have := offset_cases f hf
    by_cases hin : 20 ≤ f.offset + i ∧ f.offset + i < 44
    · exact hbytes _ hin.1 hin.2
    · exact h _ (by omega)

/-! ## Socket addresses -/

/-- The size of the structure an address is written as. -/
def MappedAddress.size : MappedAddress → ℕ
  | .ip4 _ _ => 16
  | .ip6 _ _ => 28

theorem MappedAddress.size_bounds (d : MappedAddress) : 16 ≤ d.size ∧ d.size ≤ 28 := by
  cases d <;> simp [size]

/-- The bytes of that structure. -/
def MappedAddress.sockaddr (d : MappedAddress) : Memory := storeSockaddr (fun _ => 0) 0 d

def MappedAddress.isIp6 : MappedAddress → Bool
  | .ip4 _ _ => false
  | .ip6 _ _ => true

/-- Where the structure lies, and over what, makes no difference to its bytes. -/
theorem storeSockaddr_shift (m m' : Memory) (a a' : ℕ) (d : MappedAddress) {i : ℕ}
    (hi : i < d.size) : storeSockaddr m a d (a + i) = storeSockaddr m' a' d (a' + i) := by
  cases d with
  | ip4 port address =>
    have hi : i < 16 := hi
    simp only [storeSockaddr]
    refine store_shift (store_shift (store_shift ?_))
    rw [store_of_lt _ hi, store_of_lt _ hi]
  | ip6 port address =>
    have hi : i < 28 := hi
    simp only [storeSockaddr]
    refine store_shift (store_shift (store_shift ?_))
    rw [store_of_lt _ hi, store_of_lt _ hi]

/-- Nothing is written past the structure. -/
theorem storeSockaddr_of_outside (m : Memory) {a j : ℕ} (d : MappedAddress)
    (hj : j < a ∨ a + d.size ≤ j) : storeSockaddr m a d j = m j := by
  cases d with
  | ip4 port address =>
    simp only [MappedAddress.size] at hj
    simp only [storeSockaddr]
    rw [store_of_outside, store_of_outside, store_of_outside, store_of_outside] <;> omega
  | ip6 port address =>
    simp only [MappedAddress.size] at hj
    simp only [storeSockaddr]
    rw [store_of_outside, store_of_outside, store_of_outside, store_of_outside] <;> omega

/-- **A socket address is written whole**, and nothing else is. -/
theorem storeSockaddr_apply (m : Memory) (a j : ℕ) (d : MappedAddress) :
    storeSockaddr m a d j = if a ≤ j ∧ j < a + d.size then d.sockaddr (j - a) else m j := by
  split_ifs with hj
  · obtain ⟨i, rfl⟩ := Nat.exists_eq_add_of_le hj.1
    rw [storeSockaddr_shift m (fun _ => 0) a 0 d (by omega), Nat.add_sub_cancel_left, Nat.zero_add]
    rfl
  · exact storeSockaddr_of_outside m d (by omega)

/-- The structure starts with its length, its family and the port, not with the address. -/
theorem sockaddr_head_ip4 (port : Bytes 2) (a : Bytes 4) :
    load 4 (MappedAddress.ip4 port a).sockaddr 0 = ![0, afInet, port 0, port 1] := by
  funext i
  fin_cases i <;> rfl

/-! ## Runs -/

/-- A run whose addresses are written at `router_public_ip`. -/
def stationRun (m : Memory) (ws : List Wakeup) : Progress Memory :=
  runStun (fun m d => storeSockaddr m (NetifField.offset .ip4RouterPublicIp) d) m ws

/-- The IPv4 address the run was told: that of the last address attribute decoded. -/
def reportedIpv4 (ws : List Wakeup) : Option (Bytes 4) :=
  match (decoded ws).getLast? with
  | some (.ip4 _ a) => some a
  | _ => none

/-- **The record is as it should be**: only `router_public_ip` has changed, and after a success it
holds the address reported. -/
structure KeepsInterface (m : Memory) (ws : List Wakeup) : Prop where
  frame : ∀ f : NetifField, f ≠ .ip4RouterPublicIp → f.read (stationRun m ws).sink = f.read m
  reported : (stationRun m ws).result = some true →
    reportedIpv4 ws = some (NetifField.read .ip4RouterPublicIp (stationRun m ws).sink)

/-- **What it takes**: whatever of a decoded address is left over `nat`, `port_mappings` and
`link_local` is there already, and the address of a success reads the same as its family and
port. -/
structure Coincides (m : Memory) (ws : List Wakeup) : Prop where
  last : ∀ d ∈ (decoded ws).getLast?, ∀ i, 4 ≤ i → i < 16 → d.sockaddr i = m (16 + i)
  lastIp6 : ∀ d ∈ ((decoded ws).filter MappedAddress.isIp6).getLast?,
    ∀ i, 16 ≤ i → i < 28 → d.sockaddr i = m (16 + i)
  address : outcome ws = some true →
    ∃ port a, (decoded ws).getLast? = some (.ip4 port a) ∧ a = ![0, afInet, port 0, port 1]

section Run

variable {m : Memory} {ws : List Wakeup} {j : ℕ}

/-- The run writes the addresses it decodes one over the other. -/
theorem stationRun_sink (m : Memory) (ws : List Wakeup) :
    (stationRun m ws).sink = (decoded ws).foldl (fun m d => storeSockaddr m 16 d) m := by
  rw [stationRun, offset_ip4RouterPublicIp, (runStun_sink _ m ws).1]

/-- Nothing is written before `router_public_ip`, nor after `link_local`. -/
theorem stationRun_of_outside (hj : j < 16 ∨ 44 ≤ j) : (stationRun m ws).sink j = m j := by
  have hw : ∀ (m : Memory) (d : MappedAddress), storeSockaddr m 16 d j
      = if (fun _ => false) d then d.sockaddr j else m j := fun m d => by
    have := d.size_bounds
    exact storeSockaddr_of_outside m d (by omega)
  rw [stationRun_sink, foldl_apply hw]
  simp

/-- Every address is written over the bytes from `router_public_ip` on. -/
theorem storeSockaddr_low (hlow : 16 ≤ j) (hhigh : j < 32) (m : Memory) (d : MappedAddress) :
    storeSockaddr m 16 d j = if (fun _ => true) d then d.sockaddr (j - 16) else m j := by
  have := d.size_bounds
  rw [storeSockaddr_apply, if_pos (by omega)]
  rfl

/-- Only an IPv6 address is written over the rest of `link_local`. -/
theorem storeSockaddr_high (hlow : 32 ≤ j) (hhigh : j < 44) (m : Memory) (d : MappedAddress) :
    storeSockaddr m 16 d j = if d.isIp6 then d.sockaddr (j - 16) else m j := by
  rw [storeSockaddr_apply]
  cases d with
  | ip4 port a =>
    rw [if_neg (by simp only [MappedAddress.size]; omega)]
    rfl
  | ip6 port a =>
    rw [if_pos (by simp only [MappedAddress.size]; omega)]
    rfl

theorem stationRun_low_iff (hlow : 16 ≤ j) (hhigh : j < 32) :
    (stationRun m ws).sink j = m j ↔ ∀ d ∈ (decoded ws).getLast?, d.sockaddr (j - 16) = m j := by
  rw [stationRun_sink, foldl_apply_eq_iff (storeSockaddr_low hlow hhigh), List.filter_true]

theorem stationRun_high_iff (hlow : 32 ≤ j) (hhigh : j < 44) :
    (stationRun m ws).sink j = m j ↔
      ∀ d ∈ ((decoded ws).filter MappedAddress.isIp6).getLast?, d.sockaddr (j - 16) = m j := by
  rw [stationRun_sink, foldl_apply_eq_iff (storeSockaddr_high hlow hhigh)]

/-- The bytes over the other members are as they were exactly when they coincide. -/
theorem forall_stationRun_iff : (∀ j, 20 ≤ j → j < 44 → (stationRun m ws).sink j = m j) ↔
    (∀ d ∈ (decoded ws).getLast?, ∀ i, 4 ≤ i → i < 16 → d.sockaddr i = m (16 + i)) ∧
      ∀ d ∈ ((decoded ws).filter MappedAddress.isIp6).getLast?,
        ∀ i, 16 ≤ i → i < 28 → d.sockaddr i = m (16 + i) := by
  constructor
  · intro h
    refine ⟨fun d hd i hlow hhigh => ?_, fun d hd i hlow hhigh => ?_⟩
    · have := (stationRun_low_iff (by omega) (by omega)).mp (h (16 + i) (by omega) (by omega)) d hd
      rwa [Nat.add_sub_cancel_left] at this
    · have := (stationRun_high_iff (by omega) (by omega)).mp (h (16 + i) (by omega) (by omega)) d hd
      rwa [Nat.add_sub_cancel_left] at this
  · rintro ⟨hlast, hlastIp6⟩ j hlow hhigh
    obtain ⟨i, rfl⟩ := Nat.exists_eq_add_of_le (show 16 ≤ j by omega)
    by_cases hi : i < 16
    · refine (stationRun_low_iff (by omega) (by omega)).mpr fun d hd => ?_
      rw [Nat.add_sub_cancel_left]
      exact hlast d hd i (by omega) hi
    · refine (stationRun_high_iff (by omega) (by omega)).mpr fun d hd => ?_
      rw [Nat.add_sub_cancel_left]
      exact hlastIp6 d hd i (by omega) (by omega)

/-- What is read at `router_public_ip` after an address was decoded. -/
theorem read_ip4RouterPublicIp {d : MappedAddress} (hd : (decoded ws).getLast? = some d) :
    NetifField.read .ip4RouterPublicIp (stationRun m ws).sink = load 4 d.sockaddr 0 := by
  funext i
  have hi : i.val < 4 := i.isLt
  change (stationRun m ws).sink (NetifField.offset .ip4RouterPublicIp + i.val) = d.sockaddr (0 + i)
  rw [offset_ip4RouterPublicIp, stationRun_sink,
    foldl_apply (storeSockaddr_low (by omega) (by omega)), List.filter_true, hd,
    Nat.add_sub_cancel_left, Nat.zero_add]
  rfl

/-- The address reported is at `router_public_ip` only where it reads as the family and the port. -/
theorem reportedIpv4_iff :
    reportedIpv4 ws = some (NetifField.read .ip4RouterPublicIp (stationRun m ws).sink) ↔
      ∃ port a, (decoded ws).getLast? = some (.ip4 port a) ∧ a = ![0, afInet, port 0, port 1] := by
  unfold reportedIpv4
  cases hlast : (decoded ws).getLast? with
  | none => simp
  | some d =>
    rw [read_ip4RouterPublicIp hlast]
    cases d with
    | ip4 port a =>
      rw [sockaddr_head_ip4]
      constructor
      · exact fun h => ⟨port, a, rfl, Option.some.inj h⟩
      · rintro ⟨_, _, h, rfl⟩
        cases h
        rfl
    | ip6 port a => simp

end Run

/-- **A run leaves the record as it should exactly when its addresses are there already.** -/
theorem keepsInterface_iff_coincides (m : Memory) (ws : List Wakeup) :
    KeepsInterface m ws ↔ Coincides m ws := by
  have hframe := (read_eq_iff fun j hj => @stationRun_of_outside m ws j hj).trans
    forall_stationRun_iff
  have hresult : (stationRun m ws).result = outcome ws := (runStun_sink _ m ws).2
  constructor
  · rintro ⟨hf, hr⟩
    obtain ⟨hlast, hlastIp6⟩ := hframe.mp hf
    exact ⟨hlast, hlastIp6, fun hs => reportedIpv4_iff.mp (hr (hresult.trans hs))⟩
  · rintro ⟨hlast, hlastIp6, haddress⟩
    refine ⟨hframe.mpr ⟨hlast, hlastIp6⟩, fun hs => reportedIpv4_iff.mpr (haddress ?_)⟩
    rw [← hresult, hs]

/-- A binding response with one attribute: 203.0.113.9, port 4660. -/
def bindingResponse : Response where
  receiveResult := 32
  packet i := [0x01, 0x01, 0, 12, 0x21, 0x12, 0xa4, 0x42, 0, 0, 0, 0, 0, 0, 0, 0, 0, 0, 0, 0,
    0, 1, 0, 8, 0, 1, 0x12, 0x34, 203, 0, 113, 9].getD i 0

/-- A record whose `port_mappings` points to a mapping. -/
def mappedRecord : Memory := fun j => if 24 ≤ j ∧ j < 28 then 0x3f else 0

/-- **The first success loses the mappings.** -/
theorem not_keepsInterface_mappedRecord :
    ¬ KeepsInterface mappedRecord [.readable bindingResponse false] := by
  intro h
  have hread := congrFun (h.frame .ip4PortMappings (by decide)) ⟨0, by decide⟩
  have hlost : NetifField.read .ip4PortMappings
      (stationRun mappedRecord [.readable bindingResponse false]).sink ⟨0, by decide⟩ = 0 := by
    decide +kernel
  rw [hlost] at hread
  exact absurd hread (by decide)

end Stun
