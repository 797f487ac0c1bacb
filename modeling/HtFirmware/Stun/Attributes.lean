import HtFirmware.Machinery.Tiling
import HtFirmware.Stun.Authentic
import HtFirmware.Stun.Bounds
import HtFirmware.Stun.Netif
import HtFirmware.Stun.XorAddress
import Mathlib.Data.List.TakeWhile

/-!
# Stun/Attributes — which messages are accepted, and what they leave behind

    |20 header| type length value··· padding | type length value··· padding | …
              a                                a′                            stop

A list of padded attributes that fills a message is accepted when none is an error and one is an
address.  A length that the loop calls invalid is only reported, so that messages are accepted with such
lengths as well (`acceptsValid_iff`).

Addresses are decoded as the attributes are met, straight into the caller's structure, and the message
may still be refused afterwards: what was decoded by then stays there (`untouched_iff`).
-/

open Machinery

namespace Stun

/-! ## Lists of attributes -/

/-- The length of a value, padded to a multiple of four. -/
def padded (length : ℕ) : ℕ := (length + 3) / 4 * 4

/-- **The attributes that start at `as`, each with its padding, fill the bytes from `a` to `stop`.** -/
def Fills (packet : Memory) : ℕ → ℕ → List ℕ → Prop :=
  Tiles fun a => 4 + padded (ntohsAt packet (a + 2))

section Fills

variable {packet : Memory} {a stop size : ℕ} {as bs : List ℕ}

/-- The loop goes over one padded attribute at a time. -/
theorem increment_eq (packet : Memory) (a : ℕ) :
    increment packet a = 4 + padded (ntohsAt packet (a + 2)) := by
  unfold increment padded
  dsimp only
  split_ifs <;> omega

theorem Fills.eq_tiles : Fills packet = Tiles (increment packet) :=
  congrArg Tiles (funext fun a => (increment_eq packet a).symm)

theorem increment_pos (a : ℕ) : 0 < increment packet a := by
  have := four_le_increment packet a
  omega

theorem Fills.unique (ha : Fills packet stop a as) (hb : Fills packet stop a bs) : as = bs := by
  rw [Fills.eq_tiles] at ha hb
  exact Tiles.unique increment_pos ha hb

/-- The types the loop comes to are those of the attributes that fill its bytes. -/
theorem attributeTypes_eq_some {types : List ℕ} : attributeTypes packet a size = some types ↔
    ∃ as, Fills packet (a + size) a as ∧ types = as.map (ntohsAt packet) := by
  rw [Fills.eq_tiles]
  fun_induction attributeTypes packet a size generalizing types with
  | case1 a =>
    rw [Nat.add_zero]
    simp [tiles_self_iff increment_pos, eq_comm]
  | case2 a size hsize hshort =>
    refine iff_of_false (by simp) ?_
    rintro ⟨as, has, -⟩
    obtain ⟨rest, -, hrest⟩ := (tiles_iff (by omega)).mp has
    have := hrest.le
    omega
  | case3 a size hsize hshort ih =>
    have hstop : a + increment packet a + (size - increment packet a) = a + size := by omega
    rw [hstop] at ih
    rw [Option.map_eq_some_iff]
    constructor
    · rintro ⟨rest, hrest, rfl⟩
      obtain ⟨as, has, rfl⟩ := ih.mp hrest
      exact ⟨a :: as, (tiles_iff (by omega)).mpr ⟨as, rfl, has⟩, rfl⟩
    · rintro ⟨as, has, rfl⟩
      obtain ⟨rest, rfl, hrest⟩ := (tiles_iff (by omega)).mp has
      exact ⟨rest.map (ntohsAt packet), ih.mpr ⟨rest, hrest, rfl⟩, rfl⟩

/-- The loop comes to every attribute of a list without an error. -/
theorem Fills.attributeOffsets_eq (h : Fills packet (a + size) a as)
    (hno : ∀ b ∈ as, ntohsAt packet b ≠ errorCode) : attributeOffsets packet a size = as := by
  rw [Fills.eq_tiles] at h
  fun_induction attributeOffsets packet a size generalizing as with
  | case1 a => exact ((tiles_self_iff increment_pos).mp h).symm
  | case2 a size hsize hends =>
    obtain ⟨rest, rfl, hrest⟩ := (tiles_iff (by omega)).mp h
    have := hrest.le
    obtain herror | hshort := hends
    · exact absurd herror (hno a List.mem_cons_self)
    · omega
  | case3 a size hsize hends ih =>
    obtain ⟨rest, rfl, hrest⟩ := (tiles_iff (by omega)).mp h
    have hstop : a + increment packet a + (size - increment packet a) = a + size := by
      have := hrest.le
      omega
    rw [ih (hstop ▸ hrest) fun b hb => hno b (List.mem_cons_of_mem a hb)]

end Fills

/-! ## The addresses decoded -/

/-- **What is decoded of a list of attributes**: each MAPPED-ADDRESS before the first
XOR-MAPPED-ADDRESS, then each XOR-MAPPED-ADDRESS. -/
def addresses (packet : Memory) (gotXorMappedAddress : Bool) (as : List ℕ) : List MappedAddress :=
  (if gotXorMappedAddress then []
    else ((as.takeWhile (ntohsAt packet · ≠ xorMappedAddress)).filter
      (ntohsAt packet · = mappedAddress)).map (decodeMappedAddress packet)) ++
  (as.filter (ntohsAt packet · = xorMappedAddress)).map (decodeXorMappedAddress packet)

/-- **The address a list of attributes reports**: the last XOR-MAPPED-ADDRESS if there is one, otherwise
the last MAPPED-ADDRESS. -/
def reported (packet : Memory) (as : List ℕ) : Option MappedAddress :=
  ((as.filter (ntohsAt packet · = xorMappedAddress)).getLast?.map (decodeXorMappedAddress packet)).or
    ((as.filter (ntohsAt packet · = mappedAddress)).getLast?.map (decodeMappedAddress packet))

section Addresses

variable {σ : Type} (decode : σ → MappedAddress → σ) (packet : Memory)

/-- The address reported is the one decoded last. -/
theorem getLast?_addresses (as : List ℕ) :
    (addresses packet false as).getLast? = reported packet as := by
  unfold addresses reported
  rw [List.getLast?_append, if_neg Bool.false_ne_true, List.getLast?_map, List.getLast?_map]
  by_cases hxor : ∀ a ∈ as, ntohsAt packet a ≠ xorMappedAddress
  · rw [List.takeWhile_eq_self_iff.mpr (by simpa using hxor)]
  · have hne : as.filter (ntohsAt packet · = xorMappedAddress) ≠ [] := by
      simpa [List.filter_eq_nil_iff] using hxor
    rw [List.getLast?_eq_some_getLast hne]
    rfl

/-- **The `switch` decodes the first address of those left**, or none. -/
theorem foldl_addresses_cons (s : Scan σ) (a : ℕ) (as : List ℕ) :
    (addresses packet s.gotXorMappedAddress (a :: as)).foldl decode s.sink =
      (addresses packet (s.decodeAttribute decode packet a).gotXorMappedAddress as).foldl decode
        (s.decodeAttribute decode packet a).sink := by
  have hdistinct : mappedAddress ≠ xorMappedAddress := by decide
  unfold Scan.decodeAttribute addresses
  split_ifs with hgot hmapped hxor hmapped hxor <;> simp_all

/-- **The loop decodes the addresses of the attributes it comes to.** -/
theorem processAttributes_sink (a size : ℕ) (s : Scan σ) :
    (processAttributes decode packet a size s).1 =
      (addresses packet s.gotXorMappedAddress (attributeOffsets packet a size)).foldl decode
        s.sink := by
  fun_induction processAttributes decode packet a size s with
  | case1 a s =>
    rw [attributeOffsets, if_pos rfl]
    simp [addresses]
  | case2 a size s hsize herror =>
    rw [attributeOffsets, if_neg hsize, if_pos (show EndsAt packet a size from Or.inl herror),
      foldl_addresses_cons]
    have hskip : s.decodeAttribute decode packet a = s := by
      rw [Scan.decodeAttribute, herror]
      rfl
    rw [hskip]
    simp [addresses]
  | case3 a size s hsize herror hshort =>
    rw [attributeOffsets, if_neg hsize, if_pos (show EndsAt packet a size from Or.inr hshort),
      foldl_addresses_cons]
    simp [addresses]
  | case4 a size s hsize herror hshort ih =>
    rw [attributeOffsets, if_neg hsize,
      if_neg (show ¬ EndsAt packet a size from not_or.mpr ⟨herror, hshort⟩), foldl_addresses_cons, ih]

end Addresses

/-! ## What is accepted -/

/-- The header's length is less than what was received. -/
def Response.Truncated (r : Response) : Prop := (ntohsAt r.packet 2 : ℤ) < r.receiveResult - 20

/-- **The attributes of a message that reports an address**: they fill it, none is an error, and one is
an address. -/
structure Response.Reports (r : Response) (as : List ℕ) : Prop where
  fills : Fills r.packet (20 + ntohsAt r.packet 2) 20 as
  noError : ∀ a ∈ as, ntohsAt r.packet a ≠ errorCode
  address : ∃ a ∈ as,
    ntohsAt r.packet a = mappedAddress ∨ ntohsAt r.packet a = xorMappedAddress

/-- No attribute has a length that is reported as invalid. -/
def ValidLengths (packet : Memory) (as : List ℕ) : Prop :=
  ∀ a ∈ as, ntohsAt packet (a + 2) ≠ 0 ∧ ntohsAt packet (a + 2) < 768

section Accepted

variable {σ : Type} (decode : σ → MappedAddress → σ) {r : Response}

/-- A list of attributes with an address in it reports one. -/
theorem reported_isSome {packet : Memory} {as : List ℕ} (h : ∃ a ∈ as,
    ntohsAt packet a = mappedAddress ∨ ntohsAt packet a = xorMappedAddress) :
    ∃ d, reported packet as = some d := by
  rw [← Option.isSome_iff_exists, reported, Option.isSome_or, Option.isSome_map, Option.isSome_map,
    Bool.or_eq_true, List.getLast?_isSome, List.getLast?_isSome]
  obtain ⟨a, ha, hmapped | hxor⟩ := h
  · exact Or.inr (List.ne_nil_of_mem (List.mem_filter.mpr ⟨ha, decide_eq_true hmapped⟩))
  · exact Or.inl (List.ne_nil_of_mem (List.mem_filter.mpr ⟨ha, decide_eq_true hxor⟩))

/-- A message that is not truncated is judged by its attributes. -/
theorem processReceivedPacket_eq (h : ¬ r.Truncated) (s : σ) : processReceivedPacket decode r s =
    processAttributes decode r.packet 20 (ntohsAt r.packet 2) { sink := s } := if_neg h

/-- **A message that is not truncated is accepted when its attributes report an address.** -/
theorem processReceivedPacket_iff (h : ¬ r.Truncated) (s : σ) :
    (processReceivedPacket decode r s).2 = true ↔ ∃ as, r.Reports as := by
  rw [processReceivedPacket_eq decode h,
    processAttributes_iff decode r.packet 20 _ { sink := s } fun h => h]
  simp only [attributeTypes_eq_some]
  constructor
  · rintro ⟨_, ⟨as, has, rfl⟩, hno, haddress⟩
    refine ⟨as, has, fun a ha herror => hno (List.mem_map.mpr ⟨a, ha, herror⟩), ?_⟩
    obtain hmapped | hxor := haddress.resolve_left Bool.false_ne_true
    · obtain ⟨a, ha, htype⟩ := List.mem_map.mp hmapped
      exact ⟨a, ha, Or.inl htype⟩
    · obtain ⟨a, ha, htype⟩ := List.mem_map.mp hxor
      exact ⟨a, ha, Or.inr htype⟩
  · rintro ⟨as, has, hno, a, ha, haddress⟩
    refine ⟨_, ⟨as, has, rfl⟩, fun herror => ?_, Or.inr ?_⟩
    · obtain ⟨b, hb, htype⟩ := List.mem_map.mp herror
      exact hno b hb htype
    · exact haddress.imp (fun htype => List.mem_map.mpr ⟨a, ha, htype⟩)
        fun htype => List.mem_map.mpr ⟨a, ha, htype⟩

/-- The addresses decoded of a message that is not truncated. -/
theorem processReceivedPacket_sink (h : ¬ r.Truncated) (s : σ) :
    (processReceivedPacket decode r s).1 =
      (addresses r.packet false (attributeOffsets r.packet 20 (ntohsAt r.packet 2))).foldl
        decode s := by
  rw [processReceivedPacket_eq decode h, processAttributes_sink]

end Accepted

/-- `process_received_packet`, with the structure it is given. -/
def storeReceived (r : Response) (m : Memory) (address : ℕ) : Memory × Bool :=
  processReceivedPacket (fun m d => storeSockaddr m address d) r m

/-- **A message is accepted as it should be**: when its attributes report an address and have valid
lengths; and then the structure holds that address. -/
structure AcceptsValid (r : Response) (m : Memory) (address : ℕ) : Prop where
  accepted : (storeReceived r m address).2 = true ↔
    ∃ as, r.Reports as ∧ ValidLengths r.packet as
  stored : (storeReceived r m address).2 = true → ∃ as d,
    Fills r.packet (20 + ntohsAt r.packet 2) 20 as ∧ reported r.packet as = some d ∧
      HoldsSockaddr (storeReceived r m address).1 address d

/-- **An accepted message leaves the address it reports.** -/
theorem Response.Reports.holdsSockaddr {r : Response} {as : List ℕ} (has : r.Reports as)
    (h : ¬ r.Truncated) (m : Memory) (address : ℕ) : ∃ d, reported r.packet as = some d ∧
      HoldsSockaddr (storeReceived r m address).1 address d := by
  obtain ⟨d, hd⟩ := reported_isSome has.address
  refine ⟨d, hd, ?_⟩
  rw [storeReceived, processReceivedPacket_sink _ h, has.fills.attributeOffsets_eq has.noError]
  rw [← getLast?_addresses] at hd
  obtain ⟨ds, hds⟩ := List.getLast?_eq_some_iff.mp hd
  rw [hds, List.foldl_append, List.foldl_cons, List.foldl_nil]
  exact (holdsSockaddr_storeSockaddr _ _ _ _).mpr rfl

/-- **A message whose length is the one received is accepted as it should be exactly when it has valid
lengths if it reports an address.** -/
theorem acceptsValid_iff {r : Response} (h : (ntohsAt r.packet 2 : ℤ) = r.receiveResult - 20)
    (m : Memory) (address : ℕ) :
    AcceptsValid r m address ↔ ∀ as, r.Reports as → ValidLengths r.packet as := by
  have hwhole : ¬ r.Truncated := by
    rw [Response.Truncated, h]
    exact lt_irrefl _
  have haccepted : (storeReceived r m address).2 = true ↔ ∃ as, r.Reports as :=
    processReceivedPacket_iff _ hwhole m
  constructor
  · intro hvalid as has
    obtain ⟨bs, hbs, hlengths⟩ := hvalid.accepted.mp (haccepted.mpr ⟨as, has⟩)
    rwa [has.fills.unique hbs.fills]
  · intro hlengths
    refine ⟨haccepted.trans ?_, fun hreturned => ?_⟩
    · exact ⟨fun ⟨as, has⟩ => ⟨as, has, hlengths as has⟩, fun ⟨as, has, _⟩ => ⟨as, has⟩⟩
    · obtain ⟨as, has⟩ := haccepted.mp hreturned
      obtain ⟨d, hd, hholds⟩ := has.holdsSockaddr hwhole m address
      exact ⟨as, d, has.fills, hd, hholds⟩

/-- 203.0.113.9, and nothing else. -/
theorem fills_bindingResponse : Fills bindingResponse.packet 32 20 [20] := by
  have hnext : 20 + (4 + padded (ntohsAt bindingResponse.packet 22)) = 32 := by decide
  exact .cons (hnext ▸ .nil)

theorem acceptsValid_bindingResponse : AcceptsValid bindingResponse (fun _ => 0) 0 :=
  (acceptsValid_iff (by decide) _ _).mpr fun as has => by
    rw [has.fills.unique fills_bindingResponse]
    exact List.forall_mem_singleton.mpr (by decide)

/-- The same address, then the name of the server's software, which is empty. -/
def emptySoftware : Response where
  receiveResult := 36
  packet i := [0x01, 0x01, 0, 16, 0x21, 0x12, 0xa4, 0x42, 0, 0, 0, 0, 0, 0, 0, 0, 0, 0, 0, 0,
    0, 1, 0, 8, 0, 1, 0x12, 0x34, 203, 0, 113, 9, 0x80, 0x22, 0, 0].getD i 0

theorem emptySoftware_reports : emptySoftware.Reports [20, 32] := by
  refine ⟨?_, by decide, 20, List.mem_cons_self, Or.inl (by decide)⟩
  have hfirst : 20 + (4 + padded (ntohsAt emptySoftware.packet 22)) = 32 := by decide
  have hsecond : 32 + (4 + padded (ntohsAt emptySoftware.packet 34)) = 36 := by decide
  have hstop : 20 + ntohsAt emptySoftware.packet 2 = 36 := by decide
  have hsoftware : Fills emptySoftware.packet 36 32 [32] := .cons (hsecond ▸ .nil)
  rw [hstop]
  exact .cons (hfirst ▸ hsoftware)

/-- **An attribute without a value is called invalid, and the message accepted.** -/
theorem not_acceptsValid_emptySoftware :
    (ntohsAt emptySoftware.packet 2 : ℤ) = emptySoftware.receiveResult - 20 ∧
      ¬ AcceptsValid emptySoftware (fun _ => 0) 0 := by
  refine ⟨by decide, fun h => ?_⟩
  have hwhole : ¬ emptySoftware.Truncated := by
    unfold Response.Truncated
    decide
  have hreturned : (storeReceived emptySoftware (fun _ => 0) 0).2 = true :=
    (processReceivedPacket_iff _ hwhole _).mpr ⟨_, emptySoftware_reports⟩
  obtain ⟨as, has, hlengths⟩ := h.accepted.mp hreturned
  rw [has.fills.unique emptySoftware_reports.fills] at hlengths
  exact (hlengths 32 (by decide)).1 (by decide)

/-! ## What is left behind -/

/-- **A message that is refused leaves the structure as it was**, all its `n` bytes. -/
def Untouched (r : Response) (m : Memory) (address n : ℕ) : Prop :=
  (storeReceived r m address).2 = false →
    ∀ i < n, (storeReceived r m address).1 (address + i) = m (address + i)

/-- **The structure holds what is decoded into it already**: in each byte, what the last address to
reach it puts there. -/
def AlreadyHeld (r : Response) (m : Memory) (address n : ℕ) : Prop :=
  ∀ i < n, ∀ d ∈ ((addresses r.packet false
    (attributeOffsets r.packet 20 (ntohsAt r.packet 2))).filter (i < ·.size)).getLast?,
      d.sockaddr i = m (address + i)

/-- Addresses stored one over the other leave a byte as it was when the last one to reach it put there
what was there. -/
theorem foldl_storeSockaddr_iff (m : Memory) (address i : ℕ) (ds : List MappedAddress) :
    ds.foldl (fun m d => storeSockaddr m address d) m (address + i) = m (address + i) ↔
      ∀ d ∈ (ds.filter (i < ·.size)).getLast?, d.sockaddr i = m (address + i) := by
  have hw : ∀ (m : Memory) (d : MappedAddress), storeSockaddr m address d (address + i)
      = if decide (i < d.size) then d.sockaddr i else m (address + i) := fun m d => by
    rw [storeSockaddr_apply, Nat.add_sub_cancel_left]
    simp
  exact foldl_apply_eq_iff hw m ds

/-- **A message leaves the structure as it was, if it is refused, exactly when** it is truncated, or
accepted, or the structure holds already what is decoded into it. -/
theorem untouched_iff (r : Response) (m : Memory) (address n : ℕ) :
    Untouched r m address n ↔
      r.Truncated ∨ (∃ as, r.Reports as) ∨ AlreadyHeld r m address n := by
  by_cases htruncated : r.Truncated
  · refine iff_of_true (fun _ i _ => ?_) (Or.inl htruncated)
    have hreturned : storeReceived r m address = (m, false) := if_pos htruncated
    rw [hreturned]
  · have haccepted : (storeReceived r m address).2 = true ↔ ∃ as, r.Reports as :=
      processReceivedPacket_iff _ htruncated m
    rw [or_iff_right htruncated, ← haccepted]
    by_cases hreturned : (storeReceived r m address).2 = true
    · exact iff_of_true (fun hrefused => absurd (hreturned.symm.trans hrefused) (by decide))
        (Or.inl hreturned)
    · rw [or_iff_right hreturned, Untouched, forall_prop_of_true (Bool.eq_false_iff.mpr hreturned),
        storeReceived, processReceivedPacket_sink _ htruncated]
      exact forall₂_congr fun i _ => foldl_storeSockaddr_iff m address i _

/-- 203.0.113.9, then an error code. -/
def addressThenError : Response where
  receiveResult := 40
  packet i := [0x01, 0x11, 0, 20, 0x21, 0x12, 0xa4, 0x42, 0, 0, 0, 0, 0, 0, 0, 0, 0, 0, 0, 0,
    0, 1, 0, 8, 0, 1, 0x12, 0x34, 203, 0, 113, 9, 0, 9, 0, 4, 0, 0, 4, 0].getD i 0

/-- **It is refused, and its address stays.** -/
theorem not_untouched_addressThenError : ¬ Untouched addressThenError (fun _ => 0) 0 16 := by
  intro h
  have hwhole : ¬ addressThenError.Truncated := by
    unfold Response.Truncated
    decide
  have hlength : ntohsAt addressThenError.packet 2 = 20 := by decide
  have hfirst : increment addressThenError.packet 20 = 12 := by decide
  have hloop : storeReceived addressThenError (fun _ => 0) 0 =
      (storeSockaddr (fun _ => 0) 0 (decodeMappedAddress addressThenError.packet 20), false) := by
    rw [storeReceived, processReceivedPacket_eq _ hwhole, hlength, processAttributes,
      if_neg (by decide), if_neg (by decide), hfirst, if_neg (by decide), processAttributes,
      if_neg (by decide), if_pos (by decide)]
    rfl
  have hfamily := h (congrArg Prod.snd hloop) 1 (by decide)
  rw [hloop] at hfamily
  exact absurd hfamily (by decide)

end Stun
