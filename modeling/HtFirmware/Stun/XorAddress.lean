import HtFirmware.Stun.Message

/-!
# Stun/XorAddress — does decoding undo the encoding?

A server masks the address it reports: the port with the upper half of the magic cookie, an IPv4
address with the cookie, an IPv6 address with the cookie and the transaction id after it.
`encodeXorMappedAddress` writes such an attribute, and `Decodes` asks that what is decoded from it,
written as a socket address, is the address and the port reported.

`decode_xor_mapped_address` masks the port with the *lower* half of the cookie, and for IPv6 leaves
the port out and masks every word with the cookie.  So no IPv4 port is decoded right, and for IPv6
only port zero is, under a transaction id that repeats the cookie (`decodes_iff`).
-/

open Machinery

namespace Stun

/-! ## The encoding -/

/-- The magic cookie, as it is sent. -/
def magicCookie : Bytes 4 := ![0x21, 0x12, 0xa4, 0x42]

/-- The mask of a port, the cookie's upper half. -/
def portMask : Bytes 2 := fun i => magicCookie (i.castAdd 2)

/-- The mask of an IPv6 address. -/
def addressMask (transactionId : Bytes 12) : Bytes 16 := Fin.append magicCookie transactionId

/-- `attribute.family` of an address. -/
def MappedAddress.attributeFamily : MappedAddress → UInt8
  | .ip4 _ _ => 1
  | .ip6 _ _ => 2

/-- The address and the port, masked. -/
def MappedAddress.xor (transactionId : Bytes 12) : MappedAddress → MappedAddress
  | .ip4 port a => .ip4 (fun i => port i ^^^ portMask i) fun i => a i ^^^ magicCookie i
  | .ip6 port a =>
    .ip6 (fun i => port i ^^^ portMask i) fun i => a i ^^^ addressMask transactionId i

/-- An address attribute, written at an offset of a packet. -/
def storeAttribute (packet : Memory) (a : ℕ) (d : MappedAddress) : Memory :=
  let packet := store packet (a + 5) ![d.attributeFamily]
  match d with
  | .ip4 port address => store (store packet (a + 6) port) (a + 8) address
  | .ip6 port address => store (store packet (a + 6) port) (a + 8) address

/-- **The XOR-MAPPED-ADDRESS attribute of an address**, in a message with a transaction id. -/
def encodeXorMappedAddress (packet : Memory) (a : ℕ) (transactionId : Bytes 12)
    (d : MappedAddress) : Memory :=
  storeAttribute packet a (d.xor transactionId)

/-! ## Socket addresses -/

/-- The structure at an address is the socket address of `d`: the family, the port, the address. -/
def HoldsSockaddr (m : Memory) (address : ℕ) : MappedAddress → Prop
  | .ip4 port a =>
    m (address + 1) = afInet ∧ load 2 m (address + 2) = port ∧ load 4 m (address + 4) = a
  | .ip6 port a =>
    m (address + 1) = afInet6 ∧ load 2 m (address + 2) = port ∧ load 16 m (address + 8) = a

theorem afInet_ne_afInet6 : afInet ≠ afInet6 := by decide

/-- A byte, a port and an address, stored in this order, are each read back. -/
theorem load_fields {n : ℕ} (m : Memory) (family : UInt8) (port : Bytes 2) (a : Bytes n)
    {f p b : ℕ} (hfp : f < p) (hpb : p + 2 ≤ b) :
    store (store (store m f ![family]) p port) b a f = family ∧
      load 2 (store (store (store m f ![family]) p port) b a) p = port ∧
      load n (store (store (store m f ![family]) p port) b a) b = a := by
  refine ⟨?_, ?_, load_store a⟩
  · rw [store_of_outside _ (by omega), store_of_outside _ (by omega)]
    exact store_add ![family] 0
  · rw [load_of_outside _ (by omega), load_store]

/-- **A socket address that was stored is the one it was stored for.** -/
theorem holdsSockaddr_storeSockaddr (m : Memory) (address : ℕ) (d e : MappedAddress) :
    HoldsSockaddr (storeSockaddr m address d) address e ↔ d = e := by
  cases d with
  | ip4 port a =>
    obtain ⟨hfamily, hport, haddress⟩ : storeSockaddr m address (.ip4 port a) (address + 1) = afInet ∧
        load 2 (storeSockaddr m address (.ip4 port a)) (address + 2) = port ∧
        load 4 (storeSockaddr m address (.ip4 port a)) (address + 4) = a :=
      load_fields _ _ _ _ (by omega) (by omega)
    cases e with
    | ip4 port' a' => simp [HoldsSockaddr, hfamily, hport, haddress]
    | ip6 port' a' => simp [HoldsSockaddr, hfamily, afInet_ne_afInet6]
  | ip6 port a =>
    obtain ⟨hfamily, hport, haddress⟩ :
        storeSockaddr m address (.ip6 port a) (address + 1) = afInet6 ∧
        load 2 (storeSockaddr m address (.ip6 port a)) (address + 2) = port ∧
        load 16 (storeSockaddr m address (.ip6 port a)) (address + 8) = a :=
      load_fields _ _ _ _ (by omega) (by omega)
    cases e with
    | ip4 port' a' => simp [HoldsSockaddr, hfamily, afInet_ne_afInet6.symm]
    | ip6 port' a' => simp [HoldsSockaddr, hfamily, hport, haddress]

/-! ## Decoding -/

/-- **What is decoded from the attribute of an address is that address and that port.** -/
def Decodes (packet : Memory) (a : ℕ) (transactionId : Bytes 12) (d : MappedAddress) (m : Memory)
    (address : ℕ) : Prop :=
  HoldsSockaddr (storeSockaddr m address
    (decodeXorMappedAddress (encodeXorMappedAddress packet a transactionId d) a)) address d

/-- What the decoder makes of an attribute. -/
def MappedAddress.unmask : MappedAddress → MappedAddress
  | .ip4 port a =>
    .ip4 ![port 0 ^^^ stunMagic 2, port 1 ^^^ stunMagic 3] fun i => a i ^^^ stunMagic i
  | .ip6 _ a => .ip6 (fun _ => 0) fun i => a i ^^^ stunMagic i

theorem decode_storeAttribute (packet : Memory) (a : ℕ) (d : MappedAddress) :
    decodeXorMappedAddress (storeAttribute packet a d) a = d.unmask := by
  cases d with
  | ip4 port address =>
    obtain ⟨hfamily, hport, haddress⟩ : storeAttribute packet a (.ip4 port address) (a + 5) = 1 ∧
        load 2 (storeAttribute packet a (.ip4 port address)) (a + 6) = port ∧
        load 4 (storeAttribute packet a (.ip4 port address)) (a + 8) = address :=
      load_fields _ _ _ _ (by omega) (by omega)
    generalize storeAttribute packet a (.ip4 port address) = q at hfamily hport haddress ⊢
    subst hport haddress
    exact if_pos hfamily
  | ip6 port address =>
    obtain ⟨hfamily, -, haddress⟩ : storeAttribute packet a (.ip6 port address) (a + 5) = 2 ∧
        load 2 (storeAttribute packet a (.ip6 port address)) (a + 6) = port ∧
        load 16 (storeAttribute packet a (.ip6 port address)) (a + 8) = address :=
      load_fields _ _ _ _ (by omega) (by omega)
    generalize storeAttribute packet a (.ip6 port address) = q at hfamily haddress ⊢
    subst haddress
    exact if_neg (by rw [hfamily]; decide)

/-! ## When it does -/

/-- A mask undone by another one was the same mask. -/
theorem xor_xor_eq_iff (x y z : UInt8) : x ^^^ y ^^^ z = x ↔ y = z := by
  rw [UInt8.xor_assoc]
  constructor
  · intro h
    have hzero : y ^^^ z = 0 := by
      rw [← UInt8.zero_xor (a := y ^^^ z), ← UInt8.xor_self (a := x), UInt8.xor_assoc, h]
    rw [← UInt8.xor_zero (a := y), ← UInt8.xor_self (a := z), ← UInt8.xor_assoc, hzero,
      UInt8.zero_xor]
  · rintro rfl
    rw [UInt8.xor_self, UInt8.xor_zero]

/-- The transaction id repeats the cookie. -/
def RepeatsCookie (transactionId : Bytes 12) : Prop := ∀ i, transactionId i = stunMagic i

instance (transactionId : Bytes 12) : Decidable (RepeatsCookie transactionId) :=
  inferInstanceAs (Decidable (∀ _, _))

/-- **The mask of an IPv6 address is the cookie throughout exactly when the id repeats it.** -/
theorem addressMask_eq_iff (transactionId : Bytes 12) :
    (∀ i : Fin 16, addressMask transactionId i = stunMagic i) ↔ RepeatsCookie transactionId := by
  rw [Fin.forall_fin_add (m := 4) (n := 12)]
  constructor
  · rintro ⟨-, h⟩ i
    have hi := h i
    rw [addressMask, Fin.append_right] at hi
    rw [hi, Fin.val_natAdd, stunMagic, stunMagic, Nat.add_mod_left]
  · intro h
    refine ⟨fun i => ?_, fun i => ?_⟩
    · rw [addressMask, Fin.append_left]
      revert i
      decide
    · rw [addressMask, Fin.append_right, h i, Fin.val_natAdd, stunMagic, stunMagic,
        Nat.add_mod_left]

/-- **An address is decoded as it was encoded exactly when it is an IPv6 address with port zero, and
the transaction id repeats the cookie.** -/
theorem decodes_iff (packet : Memory) (a : ℕ) (transactionId : Bytes 12) (d : MappedAddress)
    (m : Memory) (address : ℕ) :
    Decodes packet a transactionId d m address ↔
      (∃ b, d = .ip6 (fun _ => 0) b) ∧ RepeatsCookie transactionId := by
  unfold Decodes encodeXorMappedAddress
  rw [holdsSockaddr_storeSockaddr, decode_storeAttribute]
  cases d with
  | ip4 port b =>
    refine iff_of_false ?_ (by rintro ⟨⟨_, ⟨⟩⟩, _⟩)
    intro h
    have hport : port 0 ^^^ portMask 0 ^^^ stunMagic 2 = port 0 :=
      congrFun (MappedAddress.ip4.inj h).1 0
    exact absurd ((xor_xor_eq_iff _ _ _).mp hport) (by decide)
  | ip6 port b =>
    have hmask : (fun i => b i ^^^ addressMask transactionId i ^^^ stunMagic i) = b ↔
        RepeatsCookie transactionId := by
      rw [← addressMask_eq_iff, funext_iff]
      exact forall_congr' fun i => xor_xor_eq_iff _ _ _
    constructor
    · intro h
      obtain ⟨hport, haddress⟩ := MappedAddress.ip6.inj h
      exact ⟨⟨b, congrArg (MappedAddress.ip6 · b) hport.symm⟩, hmask.mp haddress⟩
    · rintro ⟨⟨b', hb⟩, hid⟩
      obtain ⟨rfl, -⟩ := MappedAddress.ip6.inj hb
      exact congrArg (MappedAddress.ip6 _) (hmask.mpr hid)

/-- **The port of 203.0.113.9:7300 does not come out.** -/
theorem not_decodes_ip4 : ¬ Decodes (fun _ => 0) 20 (fun _ => 0)
    (.ip4 ![0x1c, 0x84] ![203, 0, 113, 9]) (fun _ => 0) 0 := by
  unfold Decodes
  rw [holdsSockaddr_storeSockaddr]
  decide

end Stun
