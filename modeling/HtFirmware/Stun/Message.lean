import HtFirmware.Machinery.Memory

/-!
# Stun/Message — decoding the answer of a STUN server

The receiving half of `stun.c`.  A packet is the memory from its first byte on, what lies past the
receive buffer included: the length that counts is the one in the packet's header.

What a decoded address is written to is a parameter `decode`, run once for each address in order.
`runStun_map` says that control does not depend on it, so that the same run can be read as what it
does to a memory (`storeSockaddr`) and as the list of the addresses it decodes.
-/

open Machinery

namespace Stun

/-! ## Packets -/

def mappedAddress : ℕ := 1
def errorCode : ℕ := 9
def xorMappedAddress : ℕ := 0x20

/-- `stun_magic` as it lies in memory, word after word. -/
def stunMagic (i : ℕ) : UInt8 := [0x21, 0x12, 0xa4, 0x42].getD (i % 4) 0

/-- `ntohs` of the 16-bit word at an address. -/
def ntohsAt (m : Memory) (a : ℕ) : ℕ := (m a).toNat * 256 + (m (a + 1)).toNat

/-- What `recvfrom` returned, and the packet it read. -/
structure Response where
  receiveResult : ℤ
  packet : Memory

/-- An address attribute, decoded. -/
inductive MappedAddress where
  | ip4 (port : Bytes 2) (address : Bytes 4)
  | ip6 (port : Bytes 2) (address : Bytes 16)
  deriving DecidableEq

/-- `decode_mapped_address`: what it reads from the attribute. -/
def decodeMappedAddress (packet : Memory) (a : ℕ) : MappedAddress :=
  if packet (a + 5) = 1 then
    .ip4 (load 2 packet (a + 6)) (load 4 packet (a + 8))
  else .ip6 (load 2 packet (a + 6)) (load 16 packet (a + 8))

/-- `decode_xor_mapped_address`: the port is combined with the high half of the magic word, and is
not decoded at all for IPv6; each word of the address is combined with the magic word. -/
def decodeXorMappedAddress (packet : Memory) (a : ℕ) : MappedAddress :=
  if packet (a + 5) = 1 then
    .ip4 ![packet (a + 6) ^^^ stunMagic 2, packet (a + 7) ^^^ stunMagic 3]
      fun i => packet (a + 8 + i) ^^^ stunMagic i
  else .ip6 (fun _ => 0) fun i => packet (a + 8 + i) ^^^ stunMagic i

/-! ## Socket addresses -/

def afInet : UInt8 := 2
def afInet6 : UInt8 := 10

/-- What both decoders write: `memset`, then the family, the port and the address of a `sockaddr_in`
or a `sockaddr_in6`. -/
def storeSockaddr (m : Memory) (address : ℕ) : MappedAddress → Memory
  | .ip4 port a =>
    let m := store m address (fun _ => 0 : Bytes 16)
    let m := store m (address + 1) ![afInet]
    let m := store m (address + 2) port
    store m (address + 4) a
  | .ip6 port a =>
    let m := store m address (fun _ => 0 : Bytes 28)
    let m := store m (address + 1) ![afInet6]
    let m := store m (address + 2) port
    store m (address + 8) a

/-! ## The attributes -/

variable {σ τ : Type}

/-- The loop state of `process_received_packet`. -/
structure Scan (σ : Type) where
  sink : σ
  gotXorMappedAddress : Bool := false
  gotAnAddress : Bool := false

/-- The `switch` of `process_received_packet`, for the attributes it goes on after. -/
def Scan.decodeAttribute (decode : σ → MappedAddress → σ) (packet : Memory) (a : ℕ) (s : Scan σ) :
    Scan σ :=
  if ntohsAt packet a = mappedAddress then
    if s.gotXorMappedAddress then s
    else { s with gotAnAddress := true, sink := decode s.sink (decodeMappedAddress packet a) }
  else if ntohsAt packet a = xorMappedAddress then
    { gotAnAddress := true, gotXorMappedAddress := true,
      sink := decode s.sink (decodeXorMappedAddress packet a) }
  else s

/-- The size of an attribute, its header and padding included. -/
def increment (packet : Memory) (a : ℕ) : ℕ :=
  let length := ntohsAt packet (a + 2)
  let odd := length % 4
  if odd = 0 then length + 4 else length + 4 + (4 - odd)

theorem four_le_increment (packet : Memory) (a : ℕ) : 4 ≤ increment packet a := by
  unfold increment
  dsimp only
  split_ifs <;> omega

/-- The loop of `process_received_packet`, and whether it returns zero.  An attribute is decoded
before its size is checked. -/
def processAttributes (decode : σ → MappedAddress → σ) (packet : Memory) (a size : ℕ)
    (s : Scan σ) : σ × Bool :=
  if size = 0 then (s.sink, s.gotAnAddress)
  else if ntohsAt packet a = errorCode then (s.sink, false)
  else if size < increment packet a then ((s.decodeAttribute decode packet a).sink, false)
  else
    processAttributes decode packet (a + increment packet a) (size - increment packet a)
      (s.decodeAttribute decode packet a)
termination_by size
decreasing_by
  have := four_le_increment packet a
  omega

/-- `process_received_packet`. -/
def processReceivedPacket (decode : σ → MappedAddress → σ) (r : Response) (s : σ) : σ × Bool :=
  if (ntohsAt r.packet 2 : ℤ) < r.receiveResult - 20 then (s, false)
  else processAttributes decode r.packet 20 (ntohsAt r.packet 2) { sink := s }

/-- `receive_stun_response`, but for the descriptor. -/
def receiveStunResponse (decode : σ → MappedAddress → σ) (r : Response) (s : σ) : σ × Bool :=
  if r.receiveResult < 22 then (s, false) else processReceivedPacket decode r s

/-! ## The handler -/

/-- Why the select task calls the handler: something arrived, perhaps with an exception; or only an
exception; or the time is up. -/
inductive Wakeup where
  | readable (r : Response) (exception : Bool)
  | exception
  | timeout

/-- What the handler decides: the answer is accepted, another request is sent, or that was the last
one. -/
inductive Verdict where
  | accepted
  | again
  | exhausted
  deriving DecidableEq

/-- `stun_receive`, but for the descriptor and the job queue. -/
def attempt (decode : σ → MappedAddress → σ) (tries : ℕ) (s : σ) (w : Wakeup) : σ × Verdict :=
  let received := match w with
    | .readable r _ => receiveStunResponse decode r s
    | .exception => (s, false)
    | .timeout => (s, false)
  (received.1, if received.2 then .accepted else if 5 ≤ tries then .exhausted else .again)

/-! ## A run -/

/-- A run between two calls of its handler; `result` is what its callback was told. -/
structure Progress (σ : Type) where
  sink : σ
  tries : ℕ := 0
  result : Option Bool := none

/-- One call of the handler.  Once its callback was called, a run is gone. -/
def Progress.wake (decode : σ → MappedAddress → σ) (s : Progress σ) (w : Wakeup) : Progress σ :=
  if s.result.isSome then s
  else
    let r := attempt decode s.tries s.sink w
    match r.2 with
    | .accepted => { s with sink := r.1, result := some true }
    | .exhausted => { s with sink := r.1, result := some false }
    | .again => { s with sink := r.1, tries := s.tries + 1 }

/-- A run, from its first request on. -/
def runStun (decode : σ → MappedAddress → σ) (s : σ) (ws : List Wakeup) : Progress σ :=
  ws.foldl (Progress.wake decode) { sink := s }

/-! ## Control does not depend on what addresses are written to -/

section Map

variable {decode : σ → MappedAddress → σ} {decode' : τ → MappedAddress → τ} {f : σ → τ}

/-- The loop state, its sink replaced. -/
def Scan.map (f : σ → τ) (s : Scan σ) : Scan τ where
  sink := f s.sink
  gotXorMappedAddress := s.gotXorMappedAddress
  gotAnAddress := s.gotAnAddress

/-- The run, its sink replaced. -/
def Progress.map (f : σ → τ) (s : Progress σ) : Progress τ where
  sink := f s.sink
  tries := s.tries
  result := s.result

theorem Scan.decodeAttribute_map (hf : ∀ s d, f (decode s d) = decode' (f s) d) (packet : Memory) (a : ℕ)
    (s : Scan σ) :
    (s.map f).decodeAttribute decode' packet a = (s.decodeAttribute decode packet a).map f := by
  unfold Scan.decodeAttribute Scan.map
  dsimp only
  split_ifs <;> simp [hf]

theorem processAttributes_map (hf : ∀ s d, f (decode s d) = decode' (f s) d) (packet : Memory)
    (a size : ℕ) (s : Scan σ) :
    processAttributes decode' packet a size (s.map f)
      = Prod.map f id (processAttributes decode packet a size s) := by
  fun_induction processAttributes decode packet a size s with
  | case1 a s => simp [processAttributes, Scan.map]
  | case2 a size s hsize herror => simp [processAttributes, hsize, herror, Scan.map]
  | case3 a size s hsize herror hshort =>
    rw [processAttributes, if_neg hsize, if_neg herror, if_pos hshort, Scan.decodeAttribute_map hf]
    rfl
  | case4 a size s hsize herror hshort ih =>
    rw [processAttributes, if_neg hsize, if_neg herror, if_neg hshort, Scan.decodeAttribute_map hf, ih]

theorem receiveStunResponse_map (hf : ∀ s d, f (decode s d) = decode' (f s) d) (r : Response)
    (s : σ) : receiveStunResponse decode' r (f s)
      = Prod.map f id (receiveStunResponse decode r s) := by
  unfold receiveStunResponse processReceivedPacket
  split_ifs
  · rfl
  · rfl
  · exact processAttributes_map hf r.packet 20 _ { sink := s }

theorem attempt_map (hf : ∀ s d, f (decode s d) = decode' (f s) d) (tries : ℕ) (s : σ)
    (w : Wakeup) :
    attempt decode' tries (f s) w = Prod.map f id (attempt decode tries s w) := by
  cases w with
  | readable r exception =>
    unfold attempt
    dsimp only
    rw [receiveStunResponse_map hf]
    rfl
  | exception => rfl
  | timeout => rfl

theorem Progress.wake_map (hf : ∀ s d, f (decode s d) = decode' (f s) d) (s : Progress σ)
    (w : Wakeup) : (s.map f).wake decode' w = (s.wake decode w).map f := by
  unfold Progress.wake
  change (if s.result.isSome then _ else _) = _
  split_ifs
  · rfl
  · dsimp only [Progress.map]
    rw [attempt_map hf]
    dsimp only [Prod.map, id]
    cases (attempt decode s.tries s.sink w).2 <;> rfl

/-- **Control does not depend on what addresses are written to.** -/
theorem runStun_map (hf : ∀ s d, f (decode s d) = decode' (f s) d) (s : σ) (ws : List Wakeup) :
    runStun decode' (f s) ws = (runStun decode s ws).map f := by
  unfold runStun
  have hfold : ∀ p : Progress σ, ws.foldl (Progress.wake decode') (p.map f)
      = (ws.foldl (Progress.wake decode) p).map f := by
    induction ws with
    | nil => intro p; rfl
    | cons w ws ih =>
      intro p
      rw [List.foldl_cons, List.foldl_cons, Progress.wake_map hf, ih]
  exact hfold { sink := s }

end Map

/-- The addresses a run decodes, in order. -/
def decoded (ws : List Wakeup) : List MappedAddress := (runStun (fun ds d => ds ++ [d]) [] ws).sink

/-- Whether, and how, a run ends. -/
def outcome (ws : List Wakeup) : Option Bool := (runStun (fun ds d => ds ++ [d]) [] ws).result

/-- **A run writes the addresses it decodes, one over the other.** -/
theorem runStun_sink (decode : σ → MappedAddress → σ) (s : σ) (ws : List Wakeup) :
    (runStun decode s ws).sink = (decoded ws).foldl decode s ∧
      (runStun decode s ws).result = outcome ws := by
  have hf : ∀ ds d, (ds ++ [d]).foldl decode s = decode (ds.foldl decode s) d := fun ds d => by
    rw [List.foldl_append, List.foldl_cons, List.foldl_nil]
  have hmap : runStun decode s ws = (runStun _ [] ws).map (List.foldl decode s) :=
    runStun_map hf [] ws
  rw [hmap]
  exact ⟨rfl, rfl⟩

end Stun
