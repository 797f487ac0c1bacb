import HtFirmware.Stun.Message

/-!
# Stun/Bounds — is what is read of a datagram received?

Three numbers bound the attributes of a datagram: how many bytes were received, the length in its
header, and each attribute's own length.  `packetReads` lists the bytes that `process_received_packet`
and its decoders read, and `receiveStunResponse_congr` says that no other byte matters.

The header's length is refused when it is *less* than what was received, so it may claim more; and an
attribute is decoded before its length is looked at, which is never compared with what its decoder
reads.  `readsReceived_iff` says what the attributes have to be for every byte read to have been
received.
-/

open Machinery

namespace Stun

/-! ## The bytes read -/

/-- What `decode_mapped_address` reads: the family, the port, and an address of that family. -/
def decodeMappedReads (packet : Memory) (a : ℕ) : List ℕ :=
  (a + 5) :: if packet (a + 5) = 1 then List.range' (a + 6) 6 else List.range' (a + 6) 18

/-- What `decode_xor_mapped_address` reads: for IPv6, the port is left out. -/
def decodeXorMappedReads (packet : Memory) (a : ℕ) : List ℕ :=
  (a + 5) :: if packet (a + 5) = 1 then List.range' (a + 6) 6 else List.range' (a + 8) 16

/-- What the loop reads of an attribute: its header, and what its decoder does. -/
def attributeReads (packet : Memory) (a : ℕ) (gotXorMappedAddress : Bool) : List ℕ :=
  List.range' a 4 ++
    if ntohsAt packet a = mappedAddress then
      if gotXorMappedAddress then [] else decodeMappedReads packet a
    else if ntohsAt packet a = xorMappedAddress then decodeXorMappedReads packet a
    else []

/-- The loop ends at this attribute: it is an error, or longer than what is left. -/
def EndsAt (packet : Memory) (a size : ℕ) : Prop :=
  ntohsAt packet a = errorCode ∨ size < increment packet a

instance (packet : Memory) (a size : ℕ) : Decidable (EndsAt packet a size) :=
  inferInstanceAs (Decidable (_ ∨ _))

/-- What the loop of `process_received_packet` reads. -/
def loopReads (packet : Memory) (a size : ℕ) (gotXorMappedAddress : Bool) : List ℕ :=
  if size = 0 then []
  else if EndsAt packet a size then attributeReads packet a gotXorMappedAddress
  else
    attributeReads packet a gotXorMappedAddress ++
      loopReads packet (a + increment packet a) (size - increment packet a)
        (gotXorMappedAddress || ntohsAt packet a == xorMappedAddress)
termination_by size
decreasing_by
  have := four_le_increment packet a
  omega

/-- What `process_received_packet` reads: the length in the header, then the attributes. -/
def packetReads (r : Response) : List ℕ :=
  [2, 3] ++
    if (ntohsAt r.packet 2 : ℤ) < r.receiveResult - 20 then []
    else loopReads r.packet 20 (ntohsAt r.packet 2) false

/-- **Every byte read of the datagram was received.** -/
def ReadsReceived (r : Response) : Prop := ∀ i ∈ packetReads r, i < r.receiveResult.toNat

/-! ## Nothing else matters -/

section Congr

variable {σ : Type} {packet packet' : Memory} {a size : ℕ}

theorem ntohsAt_congr {b : ℕ} (h₀ : packet' b = packet b) (h₁ : packet' (b + 1) = packet (b + 1)) :
    ntohsAt packet' b = ntohsAt packet b := by rw [ntohsAt, ntohsAt, h₀, h₁]

/-- A header is four bytes. -/
theorem header_congr (h : ∀ i ∈ List.range' a 4, packet' i = packet i) :
    ntohsAt packet' a = ntohsAt packet a ∧ increment packet' a = increment packet a := by
  have hbyte : ∀ k < 4, packet' (a + k) = packet (a + k) := fun k hk =>
    h (a + k) (by rw [List.mem_range'_1]; omega)
  have htype := ntohsAt_congr (hbyte 0 (by omega)) (hbyte 1 (by omega))
  have hlength := ntohsAt_congr (hbyte 2 (by omega)) (hbyte 3 (by omega))
  exact ⟨htype, by rw [increment, increment, hlength]⟩

theorem load_congr {n b : ℕ} (h : ∀ i, b ≤ i → i < b + n → packet' i = packet i) :
    load n packet' b = load n packet b := funext fun i => h (b + i) (by omega) (by omega)

theorem decodeMappedAddress_congr (h : ∀ i ∈ decodeMappedReads packet a, packet' i = packet i) :
    decodeMappedAddress packet' a = decodeMappedAddress packet a := by
  obtain ⟨h5, h⟩ := List.forall_mem_cons.mp h
  unfold decodeMappedAddress
  split_ifs at h with hfamily
  · simp only [List.mem_range'_1] at h
    rw [h5, if_pos hfamily, if_pos hfamily, load_congr fun i _ _ => h i (by omega),
      load_congr fun i _ _ => h i (by omega)]
  · simp only [List.mem_range'_1] at h
    rw [h5, if_neg hfamily, if_neg hfamily, load_congr fun i _ _ => h i (by omega),
      load_congr fun i _ _ => h i (by omega)]

theorem decodeXorMappedAddress_congr
    (h : ∀ i ∈ decodeXorMappedReads packet a, packet' i = packet i) :
    decodeXorMappedAddress packet' a = decodeXorMappedAddress packet a := by
  obtain ⟨h5, h⟩ := List.forall_mem_cons.mp h
  unfold decodeXorMappedAddress
  split_ifs at h with hfamily
  · simp only [List.mem_range'_1] at h
    have haddress : load 4 packet' (a + 8) = load 4 packet (a + 8) :=
      load_congr fun i _ _ => h i (by omega)
    rw [h5, if_pos hfamily, if_pos hfamily, h (a + 6) (by omega), h (a + 7) (by omega)]
    exact congrArg (fun b : Bytes 4 => MappedAddress.ip4 _ fun i => b i ^^^ stunMagic i) haddress
  · simp only [List.mem_range'_1] at h
    have haddress : load 16 packet' (a + 8) = load 16 packet (a + 8) :=
      load_congr fun i _ _ => h i (by omega)
    rw [h5, if_neg hfamily, if_neg hfamily]
    exact congrArg (fun b : Bytes 16 => MappedAddress.ip6 _ fun i => b i ^^^ stunMagic i) haddress

variable (decode : σ → MappedAddress → σ)

/-- One attribute is decoded from the bytes read of it. -/
theorem decodeAttribute_congr (s : Scan σ)
    (h : ∀ i ∈ attributeReads packet a s.gotXorMappedAddress, packet' i = packet i) :
    s.decodeAttribute decode packet' a = s.decodeAttribute decode packet a := by
  obtain ⟨hheader, hbody⟩ := List.forall_mem_append.mp h
  unfold Scan.decodeAttribute
  rw [(header_congr hheader).1]
  split_ifs at hbody ⊢
  · rfl
  · rw [decodeMappedAddress_congr hbody]
  · rw [decodeXorMappedAddress_congr hbody]
  · rfl

/-- What an attribute says about later ones. -/
theorem gotXor_decodeAttribute (s : Scan σ) :
    (s.decodeAttribute decode packet a).gotXorMappedAddress
      = (s.gotXorMappedAddress || ntohsAt packet a == xorMappedAddress) := by
  unfold Scan.decodeAttribute
  split_ifs with hmapped hgot hxor
  · rw [hgot, Bool.true_or]
  · rw [hmapped]
    exact (Bool.or_false _).symm
  · rw [hxor, beq_self_eq_true, Bool.or_true]
  · rw [beq_false_of_ne hxor, Bool.or_false]

/-- **The loop depends on the bytes it reads only.** -/
theorem processAttributes_congr (s : Scan σ)
    (h : ∀ i ∈ loopReads packet a size s.gotXorMappedAddress, packet' i = packet i) :
    processAttributes decode packet' a size s = processAttributes decode packet a size s := by
  fun_induction processAttributes decode packet a size s with
  | case1 a s => rw [processAttributes, if_pos rfl]
  | case2 a size s hsize herror =>
    rw [loopReads, if_neg hsize, if_pos (show EndsAt packet a size from Or.inl herror)] at h
    have hheader := header_congr (List.forall_mem_append.mp h).1
    rw [processAttributes, if_neg hsize, hheader.1, if_pos herror]
  | case3 a size s hsize herror hshort =>
    rw [loopReads, if_neg hsize, if_pos (show EndsAt packet a size from Or.inr hshort)] at h
    have hheader := header_congr (List.forall_mem_append.mp h).1
    rw [processAttributes, if_neg hsize, hheader.1, hheader.2, if_neg herror, if_pos hshort,
      decodeAttribute_congr decode s h]
  | case4 a size s hsize herror hshort ih =>
    rw [loopReads, if_neg hsize, if_neg (show ¬ EndsAt packet a size from not_or.mpr ⟨herror, hshort⟩)] at h
    obtain ⟨hattribute, hrest⟩ := List.forall_mem_append.mp h
    have hheader := header_congr (List.forall_mem_append.mp hattribute).1
    rw [processAttributes, if_neg hsize, hheader.1, hheader.2, if_neg herror, if_neg hshort,
      decodeAttribute_congr decode s hattribute]
    exact ih (by rwa [gotXor_decodeAttribute])

/-- **The receiving half depends on the bytes it reads only.** -/
theorem receiveStunResponse_congr {r r' : Response} (hreceived : r'.receiveResult = r.receiveResult)
    (h : ∀ i ∈ packetReads r, r'.packet i = r.packet i) (s : σ) :
    receiveStunResponse decode r' s = receiveStunResponse decode r s := by
  obtain ⟨hlength, hrest⟩ := List.forall_mem_append.mp h
  have hlength := ntohsAt_congr (hlength 2 (by decide)) (hlength 3 (by decide))
  unfold receiveStunResponse processReceivedPacket
  rw [hreceived, hlength]
  split_ifs at hrest ⊢
  · rfl
  · rfl
  · rfl
  · exact processAttributes_congr decode { sink := s } hrest

end Congr

/-! ## When it was received -/

/-- Where the attributes start that the loop comes to. -/
def attributeOffsets (packet : Memory) (a size : ℕ) : List ℕ :=
  if size = 0 then []
  else if EndsAt packet a size then [a]
  else a :: attributeOffsets packet (a + increment packet a) (size - increment packet a)
termination_by size
decreasing_by
  have := four_le_increment packet a
  omega

/-- The bytes of an address attribute, header included, for the family it claims. -/
def addressExtent (packet : Memory) (a : ℕ) : ℕ := if packet (a + 5) = 1 then 12 else 24

/-- **The attributes at the offsets lie within the first `n` bytes**: each one's header does, and the
whole of each address that is decoded, a MAPPED-ADDRESS not being so after an XOR-MAPPED-ADDRESS. -/
structure Fits (packet : Memory) (n : ℕ) (gotXorMappedAddress : Bool) (offsets : List ℕ) :
    Prop where
  header : ∀ a ∈ offsets, a + 4 ≤ n
  xorMapped : ∀ a ∈ offsets, ntohsAt packet a = xorMappedAddress → a + addressExtent packet a ≤ n
  mapped : gotXorMappedAddress = false → ∀ before a after, offsets = before ++ a :: after →
    ntohsAt packet a = mappedAddress → (∀ b ∈ before, ntohsAt packet b ≠ xorMappedAddress) →
    a + addressExtent packet a ≤ n

section Fits

variable {packet : Memory} {n a : ℕ} {got : Bool} {offsets : List ℕ}

theorem forall_range'_lt {b k : ℕ} (hk : 0 < k) :
    (∀ i ∈ List.range' b k, i < n) ↔ b + k ≤ n := by
  simp only [List.mem_range'_1]
  constructor
  · intro h
    have := h (b + k - 1) (by omega)
    omega
  · intro h i hi
    omega

theorem forall_decodeMappedReads :
    (∀ i ∈ decodeMappedReads packet a, i < n) ↔ a + addressExtent packet a ≤ n := by
  unfold decodeMappedReads addressExtent
  split_ifs
  · rw [List.forall_mem_cons, forall_range'_lt (by decide)]
    omega
  · rw [List.forall_mem_cons, forall_range'_lt (by decide)]
    omega

theorem forall_decodeXorMappedReads :
    (∀ i ∈ decodeXorMappedReads packet a, i < n) ↔ a + addressExtent packet a ≤ n := by
  unfold decodeXorMappedReads addressExtent
  split_ifs
  · rw [List.forall_mem_cons, forall_range'_lt (by decide)]
    omega
  · rw [List.forall_mem_cons, forall_range'_lt (by decide)]
    omega

/-- What is read of one attribute lies within the first `n` bytes when its header does, and the
address if one is decoded. -/
theorem forall_attributeReads :
    (∀ i ∈ attributeReads packet a got, i < n) ↔ a + 4 ≤ n ∧
      (ntohsAt packet a = xorMappedAddress → a + addressExtent packet a ≤ n) ∧
      (got = false → ntohsAt packet a = mappedAddress → a + addressExtent packet a ≤ n) := by
  have hdistinct : mappedAddress ≠ xorMappedAddress := by decide
  unfold attributeReads
  rw [List.forall_mem_append, forall_range'_lt (by decide)]
  refine and_congr_right fun _ => ?_
  split_ifs with hmapped hgot hxor
  · simp [hmapped, hdistinct, hgot]
  · rw [forall_decodeMappedReads]
    simp [hmapped, hdistinct, hgot]
  · rw [forall_decodeXorMappedReads]
    simp [hxor, hdistinct.symm]
  · simp [hmapped, hxor]

/-- **Offsets fit when the first one's attribute does, and the others after it.** -/
theorem fits_cons : Fits packet n got (a :: offsets) ↔
    (∀ i ∈ attributeReads packet a got, i < n) ∧
      Fits packet n (got || ntohsAt packet a == xorMappedAddress) offsets := by
  rw [forall_attributeReads]
  constructor
  · intro h
    refine ⟨⟨h.header a List.mem_cons_self, h.xorMapped a List.mem_cons_self, fun hgot htype =>
      h.mapped hgot [] a offsets rfl htype (List.forall_mem_nil _)⟩, ?_⟩
    refine ⟨fun b hb => h.header b (List.mem_cons_of_mem a hb),
      fun b hb => h.xorMapped b (List.mem_cons_of_mem a hb), ?_⟩
    rintro hgot before b after rfl htype hbefore
    obtain ⟨hgot, hne⟩ := Bool.or_eq_false_iff.mp hgot
    exact h.mapped hgot (a :: before) b after rfl htype
      (List.forall_mem_cons.mpr ⟨beq_eq_false_iff_ne.mp hne, hbefore⟩)
  · rintro ⟨⟨hheader, hxor, hmapped⟩, h⟩
    refine ⟨List.forall_mem_cons.mpr ⟨hheader, h.header⟩,
      List.forall_mem_cons.mpr ⟨hxor, h.xorMapped⟩, ?_⟩
    intro hgot before b after hsplit htype hbefore
    cases before with
    | nil =>
      obtain ⟨rfl, rfl⟩ := List.cons.inj hsplit
      exact hmapped hgot htype
    | cons c before =>
      obtain ⟨rfl, rfl⟩ := List.cons.inj hsplit
      obtain ⟨hne, hbefore⟩ := List.forall_mem_cons.mp hbefore
      exact h.mapped (Bool.or_eq_false_iff.mpr ⟨hgot, beq_eq_false_iff_ne.mpr hne⟩) before b after
        rfl htype hbefore

theorem fits_nil : Fits packet n got [] :=
  ⟨List.forall_mem_nil _, List.forall_mem_nil _, fun _ before a after h => by simp at h⟩

/-- **The loop reads within the first `n` bytes exactly when its attributes fit.** -/
theorem forall_loopReads (packet : Memory) (n a size : ℕ) (got : Bool) :
    (∀ i ∈ loopReads packet a size got, i < n) ↔
      Fits packet n got (attributeOffsets packet a size) := by
  fun_induction loopReads packet a size got with
  | case1 a got =>
    rw [attributeOffsets, if_pos rfl]
    exact iff_of_true (List.forall_mem_nil _) fits_nil
  | case2 a size got hsize hends =>
    rw [attributeOffsets, if_neg hsize, if_pos hends, fits_cons]
    exact (and_iff_left fits_nil).symm
  | case3 a size got hsize hends ih =>
    rw [attributeOffsets, if_neg hsize, if_neg hends, fits_cons, List.forall_mem_append, ih]

end Fits

/-- **Of a datagram that is long enough, only bytes received are read exactly when it is refused for
its length, or its attributes fit what was received.** -/
theorem readsReceived_iff {r : Response} (hreceived : 22 ≤ r.receiveResult) :
    ReadsReceived r ↔ (ntohsAt r.packet 2 : ℤ) < r.receiveResult - 20 ∨
      Fits r.packet r.receiveResult.toNat false
        (attributeOffsets r.packet 20 (ntohsAt r.packet 2)) := by
  unfold ReadsReceived packetReads
  rw [List.forall_mem_append]
  have hlength : ∀ i ∈ [2, 3], i < r.receiveResult.toNat := by
    intro i hi
    have : i ≤ 3 := by revert i; decide
    omega
  split_ifs with hrefused
  · exact iff_of_true ⟨hlength, List.forall_mem_nil _⟩ (Or.inl hrefused)
  · rw [and_iff_right hlength, forall_loopReads, or_iff_right hrefused]

/-- A datagram of 24 bytes: four bytes of attributes, an XOR-MAPPED-ADDRESS without a value. -/
def hollow : Response where
  receiveResult := 24
  packet i := [0x01, 0x01, 0, 4, 0x21, 0x12, 0xa4, 0x42, 0, 0, 0, 0, 0, 0, 0, 0, 0, 0, 0, 0, 0, 0x20,
    0, 0].getD i 0

theorem readsReceived_hollow : ReadsReceived hollow ↔
    (ntohsAt hollow.packet 2 : ℤ) < hollow.receiveResult - 20 ∨
      Fits hollow.packet hollow.receiveResult.toNat false
        (attributeOffsets hollow.packet 20 (ntohsAt hollow.packet 2)) :=
  readsReceived_iff (by decide)

/-- **Its address is read past the datagram's end.** -/
theorem not_readsReceived_hollow : (22 ≤ hollow.receiveResult ∧ hollow.receiveResult ≤ 1024) ∧
    ¬ ReadsReceived hollow := by
  refine ⟨by decide, fun h => ?_⟩
  have hread : 25 ∈ packetReads hollow := by
    have hlength : ntohsAt hollow.packet 2 = 4 := by decide
    unfold packetReads
    rw [hlength, if_neg (by decide), loopReads, if_neg (by decide), if_neg (by decide)]
    decide
  exact absurd (h 25 hread) (by decide)

end Stun
