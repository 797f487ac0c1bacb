import HtFirmware.Pcp.Packet

/-!
# Pcp/State — what the Port Control Protocol client keeps

The state is the file's static variables and, of the global `GM`, the interfaces: their addresses,
and the two lists of mapping records each of them heads.  A record is an allocation: `pointer` names
it, and `freed` lists the allocations given back, so that a list may well run through a record that
is no longer there.

Two things outside the program are kept as well: what was handed to `sendto`, and the requests whose
task has sent its packet but not yet saved its record.
-/

open Machinery

namespace Pcp

/-! ## Interfaces -/

/-- The indices of `GM.net_interfaces`. -/
inductive GmInterfaceIndex where
  | sta
  | ap
  | eth
  deriving DecidableEq

/-- The interfaces, in index order. -/
def netInterfaceIndices : List GmInterfaceIndex := [.sta, .ap, .eth]

structure GmNetifIp4 where
  address : Bytes 4 := fun _ => 0
  router : Bytes 4 := fun _ => 0
  deriving DecidableEq

structure GmNetifIp6 where
  linkLocal : Bytes 16 := fun _ => 0
  siteLocal : Bytes 16 := fun _ => 0
  global : Fin 3 → Bytes 16 := fun _ _ => 0
  router : Bytes 16 := fun _ => 0
  deriving DecidableEq

/-- The addresses of an interface (`gm_netif_t`). -/
structure GmNetif where
  ip4 : GmNetifIp4 := {}
  ip6 : GmNetifIp6 := {}
  deriving DecidableEq

/-! ## Time -/

structure Timeval where
  sec : ℤ := 0
  usec : ℤ := 0
  deriving DecidableEq

/-- `timercmp(a, b, >)`. -/
def Timeval.later (a b : Timeval) : Bool :=
  if a.sec = b.sec then b.usec < a.usec else b.sec < a.sec

/-- `timersub`. -/
def Timeval.sub (a b : Timeval) : Timeval :=
  if a.usec - b.usec < 0 then ⟨a.sec - b.sec - 1, a.usec - b.usec + 1000000⟩
  else ⟨a.sec - b.sec, a.usec - b.usec⟩

/-! ## Mapping records -/

inductive GmPortMappingType where
  | request
  | granted
  deriving DecidableEq

/-- A mapping record (`gm_port_mapping_t`); its `next` is the record after it in its list, and a
null `interface` is `none`. -/
structure PortMapping where
  pointer : ℕ
  lifetime : UInt32
  interface : Option GmInterfaceIndex := none
  grantedTime : Timeval
  expirationTime : Timeval := {}
  internal : SockAddr
  external : SockAddr
  nonce : Bytes 12
  protocol : UInt8
  type : GmPortMappingType := .request
  deriving DecidableEq

/-! ## The state -/

/-- One call of `sendto`. -/
structure Sent where
  socket : ℤ
  address : SockAddr
  packet : PcpPacket
  deriving DecidableEq

/-- A request that was sent and not yet saved. -/
structure Pending where
  packet : PcpPacket
  interface : GmInterfaceIndex
  deriving DecidableEq

structure Gm where
  netInterfaces : GmInterfaceIndex → GmNetif := fun _ => {}
  portMappings : GmInterfaceIndex → Family → List PortMapping := fun _ _ => []
  ipv4Socket : ℤ := -1
  ipv6Socket : ℤ := -1
  myIpv6Address : Bytes 16 := fun _ => 0
  lastReceivedEpoch : UInt32 := 0
  nextPointer : ℕ := 0
  freed : List ℕ := []
  sent : List Sent := []
  pending : List Pending := []

/-- How the program can stop short: a null interface is followed, a freed record is read, a loop
does not end, memory past the stack is read, or a null record is written. -/
inductive Fault where
  | nullInterface
  | useAfterFree
  | diverges
  | overrun
  | outOfMemory
  deriving DecidableEq

namespace Gm

/-- The socket of a family. -/
def socket (gm : Gm) : Family → ℤ
  | .ip4 => gm.ipv4Socket
  | .ip6 => gm.ipv6Socket

/-- The lists of an interface, one after the other. -/
def listsOf (gm : Gm) (i : GmInterfaceIndex) : List PortMapping :=
  gm.portMappings i .ip4 ++ gm.portMappings i .ip6

/-- Every record, in the order `find_mapping` meets them. -/
def records (gm : Gm) : List PortMapping := netInterfaceIndices.flatMap gm.listsOf

/-- Replace one list. -/
def setList (gm : Gm) (i : GmInterfaceIndex) (f : Family) (ms : List PortMapping) : Gm :=
  { gm with portMappings := fun j g => if j = i ∧ g = f then ms else gm.portMappings j g }

/-- The state after one more allocation. -/
def allocated (gm : Gm) : Gm := { gm with nextPointer := gm.nextPointer + 1 }

/-- Write through a record's pointer. -/
def update (gm : Gm) (pointer : ℕ) (write : PortMapping → PortMapping) : Gm :=
  { gm with portMappings := fun i f => (gm.portMappings i f).map fun m =>
      if m.pointer = pointer then write m else m }

theorem mem_records {gm : Gm} {m : PortMapping} :
    m ∈ gm.records ↔ ∃ i f, m ∈ gm.portMappings i f := by
  simp only [records, netInterfaceIndices, listsOf, List.mem_flatMap, List.mem_cons,
    List.not_mem_nil, or_false, List.mem_append]
  constructor
  · rintro ⟨i, -, hm | hm⟩
    exacts [⟨i, .ip4, hm⟩, ⟨i, .ip6, hm⟩]
  · rintro ⟨i, f, hm⟩
    refine ⟨i, by cases i <;> simp, ?_⟩
    cases f
    exacts [Or.inl hm, Or.inr hm]

theorem portMappings_setList (gm : Gm) (i j : GmInterfaceIndex) (f g : Family)
    (ms : List PortMapping) : (gm.setList i f ms).portMappings j g
      = if j = i ∧ g = f then ms else gm.portMappings j g := rfl

/-- The records of a list, once one was added at the end of a list. -/
theorem mem_setList_append {gm : Gm} {i j : GmInterfaceIndex} {f g : Family} {m r : PortMapping} :
    r ∈ (gm.setList i f (gm.portMappings i f ++ [m])).portMappings j g ↔
      r ∈ gm.portMappings j g ∨ r = m ∧ j = i ∧ g = f := by
  rw [portMappings_setList]
  split_ifs with hjg
  · obtain ⟨rfl, rfl⟩ := hjg
    simp
  · simp [hjg]

/-- Lists with nothing in them hold no record. -/
theorem records_eq_nil {gm : Gm} : gm.records = [] ↔ ∀ i f, gm.portMappings i f = [] := by
  constructor
  · intro h i f
    refine List.eq_nil_iff_forall_not_mem.mpr fun m hm => ?_
    have hmem : m ∈ gm.records := mem_records.mpr ⟨i, f, hm⟩
    rw [h] at hmem
    exact List.not_mem_nil hmem
  · intro h
    refine List.eq_nil_iff_forall_not_mem.mpr fun m hm => ?_
    obtain ⟨i, f, hm⟩ := mem_records.mp hm
    rw [h i f] at hm
    exact List.not_mem_nil hm

end Gm

end Pcp
