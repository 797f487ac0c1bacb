import HtFirmware.Stun.Message
import HtFirmware.Machinery.Run

/-!
# Stun/Authentic — whose answer is accepted

A request carries the STUN cookie and a random transaction id, and the answer should repeat both.
The receiving half looks at neither, nor at the type of the message: it accepts a datagram for the
attributes it lists (`receiveStunResponse_iff`).  So a run reports success on nothing but genuine
answers exactly as long as nobody sends it anything else that lists an address
(`reports_genuine_iff`).

An `Exchange` is a run with the transaction id of its most recent request.  Each request is sent from
a socket of its own, which is given up whatever wakes the handler up.
-/

open Machinery

namespace Stun

/-! ## Genuine answers -/

/-- The type of a binding success response. -/
def bindingSuccessResponse : ℕ := 0x0101

/-- The answer to a request: a binding success response, with the cookie and the request's id. -/
structure Response.Genuine (r : Response) (transactionId : Bytes 12) : Prop where
  cookie : ∀ i < 4, r.packet (4 + i) = stunMagic i
  type : ntohsAt r.packet 0 = bindingSuccessResponse
  transactionId : load 12 r.packet 8 = transactionId

/-! ## What is accepted -/

/-- The types of the attributes, where they fill the size exactly. -/
def attributeTypes (packet : Memory) (a size : ℕ) : Option (List ℕ) :=
  if size = 0 then some []
  else if size < increment packet a then none
  else
    (attributeTypes packet (a + increment packet a) (size - increment packet a)).map
      (ntohsAt packet a :: ·)
termination_by size
decreasing_by
  have := four_le_increment packet a
  omega

/-- **The datagram lists an address**: it is long enough, its attributes fill the length in its header,
none of them reports an error, and one of them is an address. -/
structure Response.ListsAddress (r : Response) : Prop where
  received : 22 ≤ r.receiveResult
  length : r.receiveResult - 20 ≤ ntohsAt r.packet 2
  attributes : ∃ types, attributeTypes r.packet 20 (ntohsAt r.packet 2) = some types ∧
    errorCode ∉ types ∧ (mappedAddress ∈ types ∨ xorMappedAddress ∈ types)

section Accepts

variable {σ : Type}

/-- Decoding an attribute finds an address when its type says so. -/
theorem gotAnAddress_decodeAttribute (decode : σ → MappedAddress → σ) (packet : Memory) (a : ℕ)
    {s : Scan σ} (hs : s.gotXorMappedAddress = true → s.gotAnAddress = true) :
    ((s.decodeAttribute decode packet a).gotAnAddress = true ↔
      s.gotAnAddress = true ∨ ntohsAt packet a = mappedAddress ∨
        ntohsAt packet a = xorMappedAddress) ∧
    ((s.decodeAttribute decode packet a).gotXorMappedAddress = true →
      (s.decodeAttribute decode packet a).gotAnAddress = true) := by
  unfold Scan.decodeAttribute
  split_ifs with hmapped hxor hxorMapped
  · exact ⟨iff_of_true (hs hxor) (Or.inl (hs hxor)), hs⟩
  · exact ⟨iff_of_true rfl (Or.inr (Or.inl hmapped)), fun _ => rfl⟩
  · exact ⟨iff_of_true rfl (Or.inr (Or.inr hxorMapped)), fun _ => rfl⟩
  · exact ⟨by simp [hmapped, hxorMapped], hs⟩

/-- **The loop accepts** attributes that fill the size, without an error and with an address. -/
theorem processAttributes_iff (decode : σ → MappedAddress → σ) (packet : Memory) (a size : ℕ)
    (s : Scan σ) (hs : s.gotXorMappedAddress = true → s.gotAnAddress = true) :
    (processAttributes decode packet a size s).2 = true ↔
      ∃ types, attributeTypes packet a size = some types ∧ errorCode ∉ types ∧
        (s.gotAnAddress = true ∨ mappedAddress ∈ types ∨ xorMappedAddress ∈ types) := by
  fun_induction processAttributes decode packet a size s with
  | case1 a s => simp [attributeTypes]
  | case2 a size s hsize herror =>
    refine iff_of_false Bool.false_ne_true ?_
    rintro ⟨types, htypes, hno, -⟩
    rw [attributeTypes, if_neg hsize] at htypes
    split_ifs at htypes
    obtain ⟨rest, -, rfl⟩ := Option.map_eq_some_iff.mp htypes
    exact hno (herror ▸ List.mem_cons_self)
  | case3 a size s hsize herror hshort =>
    refine iff_of_false Bool.false_ne_true ?_
    rintro ⟨types, htypes, -⟩
    rw [attributeTypes, if_neg hsize, if_pos hshort] at htypes
    cases htypes
  | case4 a size s hsize herror hshort ih =>
    obtain ⟨hgot, hs'⟩ := gotAnAddress_decodeAttribute decode packet a hs
    have hstep : attributeTypes packet a size = (attributeTypes packet (a + increment packet a)
        (size - increment packet a)).map (ntohsAt packet a :: ·) := by
      rw [attributeTypes, if_neg hsize, if_neg hshort]
    rw [ih hs', hgot, hstep]
    constructor
    · rintro ⟨types, htypes, hno, haddress⟩
      refine ⟨_, Option.map_eq_some_iff.mpr ⟨types, htypes, rfl⟩, ?_, ?_⟩
      · simp only [List.mem_cons, not_or]
        exact ⟨Ne.symm herror, hno⟩
      · obtain (hgot | hmapped | hxor) | hmapped | hxor := haddress
        · exact Or.inl hgot
        · exact Or.inr (Or.inl (hmapped ▸ List.mem_cons_self))
        · exact Or.inr (Or.inr (hxor ▸ List.mem_cons_self))
        · exact Or.inr (Or.inl (List.mem_cons_of_mem _ hmapped))
        · exact Or.inr (Or.inr (List.mem_cons_of_mem _ hxor))
    · rintro ⟨types, htypes, hno, haddress⟩
      obtain ⟨rest, hrest, rfl⟩ := Option.map_eq_some_iff.mp htypes
      simp only [List.mem_cons, not_or] at hno haddress
      refine ⟨rest, hrest, hno.2, ?_⟩
      obtain hgot | (hmapped | hmapped) | hxor | hxor := haddress
      · exact Or.inl (Or.inl hgot)
      · exact Or.inl (Or.inr (Or.inl hmapped.symm))
      · exact Or.inr (Or.inl hmapped)
      · exact Or.inl (Or.inr (Or.inr hxor.symm))
      · exact Or.inr (Or.inr hxor)

/-- **What the receiving half accepts**: a datagram that lists an address. -/
theorem receiveStunResponse_iff (decode : σ → MappedAddress → σ) (r : Response) (s : σ) :
    (receiveStunResponse decode r s).2 = true ↔ r.ListsAddress := by
  unfold receiveStunResponse processReceivedPacket
  split_ifs with hreceived hlength
  · exact iff_of_false id fun h => absurd h.received (by omega)
  · exact iff_of_false id fun h => absurd h.length (by omega)
  · rw [processAttributes_iff decode r.packet 20 _ { sink := s } fun h => h]
    constructor
    · rintro ⟨types, htypes, hno, haddress⟩
      exact ⟨by omega, by omega, types, htypes, hno, haddress.resolve_left Bool.false_ne_true⟩
    · rintro ⟨-, -, types, htypes, hno, haddress⟩
      exact ⟨types, htypes, hno, Or.inr haddress⟩

end Accepts

/-! ## Exchanges -/

/-- A run, the id of its most recent request, and whether it waits for the answer. -/
structure Exchange where
  progress : Progress Memory
  transactionId : Bytes 12 := fun _ => 0
  waiting : Bool := false

namespace Exchange

inductive Event where
  /-- A request is sent, with an id at random. -/
  | request (transactionId : Bytes 12)
  /-- The handler is called; any host may have sent what it receives. -/
  | wake (w : Wakeup)

/-- An event of a run that writes what it decodes to an address: requests and calls of the handler
alternate, until the callback is called. -/
def next (address : ℕ) (x : Exchange) : Event → Option Exchange
  | .request transactionId =>
    if x.waiting || x.progress.result.isSome then none
    else some { x with transactionId := transactionId, waiting := true }
  | .wake w =>
    if x.waiting then
      some { x with
        progress := x.progress.wake (fun m d => storeSockaddr m address d) w
        waiting := false }
    else none

/-- A run from its first request on. -/
def start (m : Memory) : Exchange where progress := { sink := m }

/-- **Success is reported on a genuine answer only.** -/
def ReportsGenuine (address : ℕ) (x : Exchange) (e : Event) : Prop :=
  ∀ t, x.next address e = some t → t.progress.result = some true →
    ∃ r isException, e = .wake (.readable r isException) ∧ r.Genuine x.transactionId

/-- **What it takes**: while the run waits, what arrives lists an address only if it is genuine. -/
def Unforged (x : Exchange) (e : Event) : Prop :=
  x.waiting = true → ∀ r isException, e = .wake (.readable r isException) → r.ListsAddress →
    r.Genuine x.transactionId

/-- A run that waits has not ended. -/
def Pending (x : Exchange) : Prop := x.waiting = true → x.progress.result = none

theorem pending_of_next {address : ℕ} {x t : Exchange} {e : Event}
    (ht : x.next address e = some t) : Pending t := by
  cases e with
  | request transactionId =>
    unfold Exchange.next at ht
    dsimp only at ht
    split_ifs at ht with hbusy
    obtain rfl := Option.some.inj ht
    simp only [Bool.or_eq_true, not_or, Option.isSome_iff_ne_none, not_not] at hbusy
    exact fun _ => hbusy.2
  | wake w =>
    unfold Exchange.next at ht
    dsimp only at ht
    split_ifs at ht
    obtain rfl := Option.some.inj ht
    exact fun hwaiting => absurd hwaiting Bool.false_ne_true

/-- The handler accepts a datagram that lists an address. -/
theorem attempt_accepted_iff {σ : Type} (decode : σ → MappedAddress → σ) (tries : ℕ) (s : σ)
    (w : Wakeup) :
    (attempt decode tries s w).2 = .accepted ↔
      ∃ r isException, w = .readable r isException ∧ r.ListsAddress := by
  cases w with
  | readable r isException =>
    have haccepts := receiveStunResponse_iff decode r s
    unfold attempt
    dsimp only
    split_ifs with hreceived hexhausted
    · exact iff_of_true rfl ⟨r, isException, rfl, haccepts.mp hreceived⟩
    · refine iff_of_false (by decide) ?_
      rintro ⟨r', x, hr, hlists⟩
      obtain ⟨rfl, -⟩ := Wakeup.readable.inj hr
      exact hreceived (haccepts.mpr hlists)
    · refine iff_of_false (by decide) ?_
      rintro ⟨r', x, hr, hlists⟩
      obtain ⟨rfl, -⟩ := Wakeup.readable.inj hr
      exact hreceived (haccepts.mpr hlists)
  | exception =>
    refine iff_of_false ?_ (by rintro ⟨r, x, hr, -⟩; cases hr)
    unfold attempt
    dsimp only
    rw [if_neg Bool.false_ne_true]
    split_ifs <;> decide
  | timeout =>
    refine iff_of_false ?_ (by rintro ⟨r, x, hr, -⟩; cases hr)
    unfold attempt
    dsimp only
    rw [if_neg Bool.false_ne_true]
    split_ifs <;> decide

/-- **A call of the handler reports success** on a datagram that lists an address. -/
theorem wake_result_iff {σ : Type} (decode : σ → MappedAddress → σ) {p : Progress σ}
    (hp : p.result = none) (w : Wakeup) :
    (p.wake decode w).result = some true ↔
      ∃ r isException, w = .readable r isException ∧ r.ListsAddress := by
  rw [← attempt_accepted_iff decode p.tries p.sink w]
  unfold Progress.wake
  rw [if_neg (by rw [hp]; decide)]
  dsimp only
  cases (attempt decode p.tries p.sink w).2 with
  | accepted => exact iff_of_true rfl rfl
  | exhausted => exact iff_of_false (by simp) (by decide)
  | again => exact iff_of_false (by simp [hp]) (by decide)

/-- One step reports what it should exactly when what arrives is not forged. -/
theorem reportsGenuine_iff {address : ℕ} {x : Exchange} (h : Pending x) (e : Event) :
    ReportsGenuine address x e ↔ Unforged x e := by
  cases e with
  | request transactionId =>
    refine iff_of_true ?_ ?_
    · intro t ht hresult
      unfold Exchange.next at ht
      dsimp only at ht
      split_ifs at ht with hbusy
      obtain rfl := Option.some.inj ht
      simp only [Bool.or_eq_true, not_or] at hbusy
      exact absurd (congrArg Option.isSome hresult) hbusy.2
    · rintro - r isException he
      cases he
  | wake w =>
    by_cases hwaiting : x.waiting = true
    · have hnext : x.next address (.wake w) = some _ := if_pos hwaiting
      have hresult := wake_result_iff (fun m d => storeSockaddr m address d) (h hwaiting) w
      constructor
      · rintro hreports - r isException he hlists
        obtain rfl := Event.wake.inj he
        obtain ⟨r', x', he', hgenuine⟩ :=
          hreports _ hnext (hresult.mpr ⟨r, isException, rfl, hlists⟩)
        obtain ⟨rfl, -⟩ := Wakeup.readable.inj (Event.wake.inj he')
        exact hgenuine
      · intro hunforged t ht hreported
        obtain rfl := Option.some.inj (hnext.symm.trans ht)
        obtain ⟨r, isException, rfl, hlists⟩ := hresult.mp hreported
        exact ⟨r, isException, rfl, hunforged hwaiting r isException rfl hlists⟩
    · have hnext : x.next address (.wake w) = none := if_neg hwaiting
      refine iff_of_true (fun t ht => ?_) fun hw => absurd hw hwaiting
      rw [hnext] at ht
      cases ht

/-- **A run reports success on genuine answers only** exactly when, at every step, what arrives and
lists an address is genuine. -/
theorem reports_genuine_iff (address : ℕ) (m : Memory) (es : List Event) :
    (∀ v ∈ visits (next address) (start m) es, ReportsGenuine address v.1 v.2) ↔
      ∀ v ∈ visits (next address) (start m) es, Unforged v.1 v.2 :=
  forall_visits_iff (I := Pending) (fun _ e hs => reportsGenuine_iff hs e)
    (fun _ _ _ _ _ ht => pending_of_next ht) es (start m) fun hw => absurd hw Bool.false_ne_true

/-- A datagram without a cookie, a type or an id, which lists 1.2.3.4. -/
def forgedAnswer : Response where
  receiveResult := 32
  packet i := ([0, 0, 0, 12, 0, 0, 0, 0, 0, 0, 0, 0, 0, 0, 0, 0, 0, 0, 0, 0,
    0, 1, 0, 8, 0, 1, 0x1c, 0x84, 1, 2, 3, 4] : List UInt8).getD i 0

theorem forgedAnswer_listsAddress : forgedAnswer.ListsAddress := by
  refine ⟨by decide, by decide, [mappedAddress], ?_, by decide, Or.inl (by decide)⟩
  have hlength : ntohsAt forgedAnswer.packet 2 = 12 := by decide
  have hincrement : increment forgedAnswer.packet 20 = 12 := by decide
  have htype : ntohsAt forgedAnswer.packet 20 = mappedAddress := by decide
  rw [hlength, attributeTypes, if_neg (by decide), hincrement, if_neg (by decide), htype,
    attributeTypes, if_pos (by decide)]
  rfl

/-- A run takes it for the answer. -/
theorem forgedAnswer_accepted :
    ¬ ∀ (address : ℕ) (m : Memory) (es : List Event),
      ∀ v ∈ visits (next address) (start m) es, ReportsGenuine address v.1 v.2 := by
  intro h
  have hvisit : (_, Event.wake (.readable forgedAnswer false)) ∈ visits (next 0) _ _ :=
    mem_visits_of_foldlM [.request fun _ => 1] (start fun _ => 0) rfl
  have hunforged := (reportsGenuine_iff (fun _ => rfl) _).mp (h 0 _ _ _ hvisit)
  have hgenuine := hunforged rfl forgedAnswer false rfl forgedAnswer_listsAddress
  exact absurd (hgenuine.cookie 0 (by decide)) (by decide)

end Exchange

end Stun
