import HtFirmware.Ddns.DynamicDns
import HtFirmware.Machinery.Cells
import HtFirmware.Machinery.Memory

/-!
# Ddns/WebGet — the answer to a request

`event_handler` copies what it is given to the buffer of `gm_web_get`, as far as there is room, and ends
it with a null.  It writes nothing when there is nothing to copy, so a buffer that was not empty before
keeps what it held: `gm_public_ipv4_internal` parses a buffer of its stack.  `answered_iff` says when the
buffer holds the answer.
-/

open Machinery

namespace Ddns

/-! ## The functions -/

/-- `memcpy`. -/
def memcpy (m : Memory) (a : ℕ) (bytes : List UInt8) : Memory := store m a bytes.get

/-- What an event brings: its length is an `int`. -/
structure EventData where
  bytes : List UInt8
  length_lt : bytes.length < 2 ^ 31

/-- `esp_http_client_event_t`. -/
inductive HttpEvent where
  | onData (data : EventData)
  | other

/-- `struct user_data`, with the memory its buffer is in, and what its coroutine was called with. -/
structure UserData where
  memory : Memory
  data : ℕ := 0
  size : UInt32 := 0
  index : UInt32 := 0
  coroutine : Bool := false
  passed : List (List UInt8) := []

/-- `event_handler`. -/
def eventHandler (u : UserData) : HttpEvent → UserData
  | .other => u
  | .onData data =>
    if u.coroutine then { u with passed := u.passed ++ [data.bytes] }
    else
      let room := u.size - u.index - 1
      let dataLen := UInt32.ofNat data.bytes.length
      let size := if dataLen < room then dataLen else room
      if 0 < size then
        let memory := memcpy u.memory (u.data + u.index.toNat) (data.bytes.take size.toNat)
        { u with
          memory := memcpy memory (u.data + (u.index + size).toNat) [0]
          index := u.index + size }
      else u

/-- `gm_web_get_internal`, with the events of the request. -/
def gmWebGetInternal (http : Http) (events : List HttpEvent) (u : UserData) : ℤ × UserData :=
  (gmWebGet http, if http.client then events.foldl eventHandler u else u)

/-- `gm_web_get`, with what it leaves in memory. -/
def gmWebGetData (http : Http) (events : List HttpEvent) (memory : Memory) (data : ℕ) (size : UInt32) :
    ℤ × Memory :=
  let got := gmWebGetInternal http events { memory, data, size }
  (got.1, got.2.memory)

/-- `gm_web_get_with_coroutine`, with what the coroutine is called with. -/
def gmWebGetWithCoroutine (http : Http) (events : List HttpEvent) (memory : Memory) :
    ℤ × List (List UInt8) :=
  let got := gmWebGetInternal http events { memory, coroutine := true }
  (got.1, got.2.passed)

/-- `gm_public_ipv4_internal`, up to the buffer that is parsed. -/
def gmPublicIpv4Internal (http : Http) (events : List HttpEvent) (stack : Memory) (buffer : ℕ) :
    Option Memory :=
  let got := gmWebGetData http events stack buffer 1024
  if got.1 = 200 then some got.2 else none

/-! ## Memory that holds bytes -/

section Memory

variable {m : Memory} {a b : ℕ} {xs ys : List UInt8}

theorem holdsAt_memcpy (m : Memory) (a : ℕ) (xs : List UInt8) : HoldsAt (memcpy m a xs) a xs :=
  fun _ hi => store_of_lt xs.get hi

theorem memcpy_of_outside {j : ℕ} (h : j < a ∨ a + xs.length ≤ j) : memcpy m a xs j = m j :=
  store_of_outside xs.get h

/-- Bytes before what is copied stay. -/
theorem holdsAt_memcpy_of_before (h : HoldsAt m b ys) (hbefore : b + ys.length ≤ a)
    (xs : List UInt8) : HoldsAt (memcpy m a xs) b ys :=
  h.congr fun _ _ _ => memcpy_of_outside (.inl (by omega))

end Memory

/-! ## Events -/

/-- The bytes of an event. -/
def HttpEvent.bytes : HttpEvent → List UInt8
  | .onData data => data.bytes
  | .other => []

/-- The body that events deliver. -/
def body (events : List HttpEvent) : List UInt8 := events.flatMap HttpEvent.bytes

/-- What has been copied: some text that fits, with a null after it if it is anything, and nothing
else. -/
structure Copied (start u : UserData) (text : List UInt8) : Prop where
  fields : u.data = start.data ∧ u.size = start.size ∧ u.coroutine = start.coroutine
  fits : text.length < start.size.toNat
  index : u.index.toNat = text.length
  copied : HoldsAt u.memory start.data text
  ended : text ≠ [] → u.memory (start.data + text.length) = 0
  untouched : text = [] → u.memory = start.memory
  outside : ∀ a, a < start.data ∨ start.data + start.size.toNat ≤ a → u.memory a = start.memory a

section Events

variable {start u : UserData} {text : List UInt8}

/-- What an event adds: the first bytes of it that there is room for. -/
theorem take_append_room (text bytes : List UInt8) (n : ℕ) :
    (text ++ bytes).take n = text.take n ++ bytes.take (n - (text.take n).length) := by
  rw [List.take_append, List.length_take]
  by_cases h : text.length ≤ n
  · rw [Nat.min_eq_right h]
  · have hle : n ≤ text.length := Nat.le_of_not_le h
    rw [Nat.min_eq_left hle, Nat.sub_eq_zero_of_le hle, Nat.sub_self]

/-- The size of a copy. -/
theorem toNat_size (hindex : u.index < u.size) (data : EventData) :
    (if UInt32.ofNat data.bytes.length < u.size - u.index - 1
      then UInt32.ofNat data.bytes.length else u.size - u.index - 1).toNat
      = min data.bytes.length (u.size.toNat - 1 - u.index.toNat) := by
  have hlt := UInt32.lt_iff_toNat_lt.mp hindex
  have hleft : (u.size - u.index).toNat = u.size.toNat - u.index.toNat :=
    UInt32.toNat_sub_of_le _ _ (UInt32.le_iff_toNat_le.mpr hlt.le)
  have hone : 1 ≤ u.size - u.index := UInt32.le_iff_toNat_le.mpr (hleft ▸ Nat.sub_pos_of_lt hlt)
  have hroom : (u.size - u.index - 1).toNat = u.size.toNat - 1 - u.index.toNat := by
    rw [UInt32.toNat_sub_of_le _ _ hone, hleft]
    exact Nat.sub_right_comm ..
  have hlen : (UInt32.ofNat data.bytes.length).toNat = data.bytes.length := by
    have hfits := data.length_lt
    rw [UInt32.toNat_ofNat']
    omega
  split_ifs with hless
  · rw [UInt32.lt_iff_toNat_lt, hlen, hroom] at hless
    rw [hlen, Nat.min_eq_left hless.le]
  · rw [UInt32.lt_iff_toNat_lt, hlen, hroom] at hless
    rw [hroom, Nat.min_eq_right (Nat.not_lt.mp hless)]

/-- What there is no room for changes nothing. -/
theorem eventHandler_of_zero (hcoroutine : u.coroutine = false) (hindex : u.index < u.size)
    (data : EventData) (hzero : min data.bytes.length (u.size.toNat - 1 - u.index.toNat) = 0) :
    eventHandler u (.onData data) = u := by
  rw [eventHandler, if_neg (by rw [hcoroutine]; exact Bool.false_ne_true)]
  dsimp only
  rw [if_neg]
  rw [UInt32.lt_iff_toNat_lt, toNat_size hindex, hzero]
  exact Nat.lt_irrefl 0

/-- What there is room for is copied, and ended. -/
theorem eventHandler_of_pos (hcoroutine : u.coroutine = false) (hindex : u.index < u.size)
    (data : EventData) {n : ℕ} (hn : min data.bytes.length (u.size.toNat - 1 - u.index.toNat) = n)
    (hpos : 0 < n) : ∃ index : UInt32, index.toNat = u.index.toNat + n ∧
      eventHandler u (.onData data) = { u with
        memory := memcpy (memcpy u.memory (u.data + u.index.toNat) (data.bytes.take n))
          (u.data + (u.index.toNat + n)) [0]
        index } := by
  have hlt := UInt32.lt_iff_toNat_lt.mp hindex
  have hfits := u.size.toNat_lt
  have hsize := (toNat_size hindex data).trans hn
  rw [eventHandler, if_neg (by rw [hcoroutine]; exact Bool.false_ne_true)]
  dsimp only
  generalize (if UInt32.ofNat data.bytes.length < u.size - u.index - 1
      then UInt32.ofNat data.bytes.length else u.size - u.index - 1) = size at hsize ⊢
  have hsum : (u.index + size).toNat = u.index.toNat + n := by
    rw [UInt32.toNat_add, hsize]
    omega
  rw [if_pos (UInt32.lt_iff_toNat_lt.mpr (hsize ▸ hpos)), hsize, hsum]
  exact ⟨_, hsum, rfl⟩

/-- **An event is copied as far as there is room.** -/
theorem Copied.onData (h : Copied start u text) (hcoroutine : start.coroutine = false)
    (data : EventData) : Copied start (eventHandler u (.onData data))
      (text ++ data.bytes.take (start.size.toNat - 1 - text.length)) := by
  obtain ⟨⟨hdata, husize, hucoroutine⟩, hfits, hindex, hcopied, hended, huntouched, houtside⟩ := h
  have hroom : u.index < u.size := by rwa [UInt32.lt_iff_toNat_lt, husize, hindex]
  have hsize : min data.bytes.length (u.size.toNat - 1 - u.index.toNat)
      = (data.bytes.take (start.size.toNat - 1 - text.length)).length := by
    rw [husize, hindex, List.length_take, Nat.min_comm]
  have htake : data.bytes.take (data.bytes.take (start.size.toNat - 1 - text.length)).length
      = data.bytes.take (start.size.toNat - 1 - text.length) := by
    rw [List.length_take, List.take_eq_take_iff]
    omega
  have hshort := List.length_take_le (start.size.toNat - 1 - text.length) data.bytes
  generalize data.bytes.take (start.size.toNat - 1 - text.length) = more at *
  rcases Nat.eq_zero_or_pos more.length with hnone | hsome
  · rw [eventHandler_of_zero (hucoroutine.trans hcoroutine) hroom data (hsize.trans hnone),
      List.length_eq_zero_iff.mp hnone, List.append_nil]
    exact ⟨⟨hdata, husize, hucoroutine⟩, hfits, hindex, hcopied, hended, huntouched, houtside⟩
  · obtain ⟨index, hnext, hevent⟩ :=
      eventHandler_of_pos (hucoroutine.trans hcoroutine) hroom data hsize hsome
    rw [htake, hdata, hindex] at hevent
    rw [hindex] at hnext
    have hlength : (text ++ more).length = text.length + more.length := List.length_append
    rw [hevent]
    refine ⟨⟨rfl, husize, hucoroutine⟩, ?_, hnext.trans hlength.symm, ?_, fun _ => ?_,
      fun hnil => ?_, fun a ha => ?_⟩
    · omega
    · refine holdsAt_append.mpr ⟨holdsAt_memcpy_of_before
        (holdsAt_memcpy_of_before hcopied le_rfl more) ?_ _,
        holdsAt_memcpy_of_before (holdsAt_memcpy _ _ more) ?_ _⟩ <;> omega
    · rw [hlength]
      exact holdsAt_singleton.mp (holdsAt_memcpy _ _ [0])
    · rw [hnil] at hlength
      exact absurd hlength (by rw [List.length_nil]; omega)
    · dsimp only
      rw [memcpy_of_outside (by rw [List.length_singleton]; omega),
        memcpy_of_outside (by omega), houtside a ha]

/-- **All events are.** -/
theorem Copied.foldl (h : Copied start u (text.take (start.size.toNat - 1)))
    (hcoroutine : start.coroutine = false) (events : List HttpEvent) :
    Copied start (events.foldl eventHandler u) ((text ++ body events).take (start.size.toNat - 1)) := by
  induction events generalizing u text with
  | nil => exact (List.append_nil text).symm ▸ h
  | cons event events ih =>
    have hbody : text ++ body (event :: events) = (text ++ event.bytes) ++ body events := by
      rw [body, List.flatMap_cons, List.append_assoc, body]
    rw [hbody, List.foldl_cons]
    cases event with
    | onData data =>
      refine ih ?_
      rw [HttpEvent.bytes, take_append_room]
      exact h.onData hcoroutine data
    | other => exact ih ((List.append_nil text).symm ▸ h)

end Events

/-! ## Answers -/

/-- The buffer holds as much of a body as fits, with a null after it, and no other byte was written. -/
structure Answered (before after : Memory) (data : ℕ) (size : UInt32) (text : List UInt8) : Prop where
  holds : HoldsAt after data (text.take (size.toNat - 1) ++ [0])
  outside : ∀ a, a < data ∨ data + size.toNat ≤ a → after a = before a

/-- The string at an address is the body's, as far as the buffer of `gm_public_ipv4_internal` goes. -/
def Parses (after : Memory) (buffer : ℕ) (text : List UInt8) : Prop :=
  HoldsAt after buffer ((text.take 1023).takeWhile (· ≠ 0) ++ [0])

section Answers

variable {http : Http} {events : List HttpEvent} {memory : Memory} {data : ℕ} {size : UInt32}

/-- What a request leaves, once it was performed. -/
theorem copied_gmWebGetData (hclient : http.client = true) (events : List HttpEvent)
    (memory : Memory) (data : ℕ) (hsize : 0 < size) :
    ∃ u : UserData, (gmWebGetData http events memory data size).2 = u.memory ∧
      Copied { memory, data, size } u ((body events).take (size.toNat - 1)) := by
  have hpos : 0 < size.toNat := UInt32.lt_iff_toNat_lt.mp hsize
  have hstart : Copied { memory, data, size } { memory, data, size }
      (([] : List UInt8).take (size.toNat - 1)) := by
    rw [List.take_nil]
    exact ⟨⟨rfl, rfl, rfl⟩, hpos, rfl, holdsAt_nil, fun h => absurd rfl h, fun _ => rfl, fun _ _ => rfl⟩
  refine ⟨_, ?_, hstart.foldl rfl events⟩
  rw [gmWebGetData, gmWebGetInternal, if_pos hclient]

/-- A string ends at its first null, or at the one after it. -/
theorem takeWhile_prefix (xs : List UInt8) : (xs.takeWhile (· ≠ 0) ++ [0]) <+: xs ++ [0] := by
  induction xs with
  | nil => exact List.prefix_rfl
  | cons x xs ih =>
    by_cases hx : x = 0
    · rw [hx]
      exact (List.prefix_append [0] (xs ++ [0]))
    · rw [List.takeWhile_cons_of_pos (by simpa using hx)]
      exact (List.prefix_cons_inj x).mpr ih

/-- **The buffer holds the answer exactly when something was copied, or it was empty before.** -/
theorem gmWebGetData_iff (hclient : http.client = true) (hsize : 0 < size) :
    Answered memory (gmWebGetData http events memory data size).2 data size (body events) ↔
      (2 ≤ size.toNat ∧ body events ≠ []) ∨ memory data = 0 := by
  obtain ⟨u, hu, h⟩ := copied_gmWebGetData hclient events memory data hsize
  have hnothing : (body events).take (size.toNat - 1) = [] ↔ ¬ (2 ≤ size.toNat ∧ body events ≠ []) := by
    rw [List.take_eq_nil_iff, not_and_or, not_not]
    exact or_congr_left (by omega)
  rw [hu]
  by_cases hnil : (body events).take (size.toNat - 1) = []
  · rw [or_iff_right (hnothing.mp hnil), h.untouched hnil]
    constructor
    · intro hanswered
      have hheld := hanswered.holds
      rw [hnil, List.nil_append] at hheld
      exact holdsAt_singleton.mp hheld
    · intro hempty
      refine ⟨?_, fun _ _ => rfl⟩
      rw [hnil, List.nil_append]
      exact holdsAt_singleton.mpr hempty
  · refine iff_of_true ⟨?_, h.outside⟩ (.inl (not_not.mp (hnothing.not.mp hnil)))
    exact holdsAt_append.mpr ⟨h.copied, holdsAt_singleton.mpr (h.ended hnil)⟩

/-- **What is parsed is from the server exactly when it sent something, or the stack was empty.** -/
theorem gmPublicIpv4Internal_iff {after : Memory}
    (hafter : gmPublicIpv4Internal http events memory data = some after) :
    Parses after data (body events) ↔ body events ≠ [] ∨ memory data = 0 := by
  unfold gmPublicIpv4Internal at hafter
  dsimp only at hafter
  split_ifs at hafter with hstatus
  obtain rfl := Option.some.inj hafter
  have hclient : http.client = true := ((gmWebGet_eq_iff http).mp hstatus).1
  obtain ⟨u, hu, h⟩ := copied_gmWebGetData hclient events memory data (by decide : (0 : UInt32) < 1024)
  have hsize : (1024 : UInt32).toNat - 1 = 1023 := by decide
  rw [hsize] at h
  rw [hu, Parses]
  by_cases hbody : body events = []
  · rw [or_iff_right (not_not.mpr hbody), hbody, h.untouched (by rw [hbody, List.take_nil])]
    exact holdsAt_singleton
  · refine iff_of_true ?_ (.inl hbody)
    have hsome : (body events).take 1023 ≠ [] := by
      rw [ne_eq, List.take_eq_nil_iff, not_or]
      exact ⟨by decide, hbody⟩
    have hheld : HoldsAt u.memory data ((body events).take 1023 ++ [0]) :=
      holdsAt_append.mpr ⟨h.copied, holdsAt_singleton.mpr (h.ended hsome)⟩
    obtain ⟨rest, hrest⟩ := takeWhile_prefix ((body events).take 1023)
    rw [← hrest] at hheld
    exact (holdsAt_append.mp hheld).1

/-- A coroutine is called with the body, and the memory stays as it was. -/
theorem passed_gmWebGetInternal (hclient : http.client = true) (u : UserData)
    (hcoroutine : u.coroutine = true) :
    (gmWebGetInternal http events u).2.passed.flatten = u.passed.flatten ++ body events ∧
      (gmWebGetInternal http events u).2.memory = u.memory := by
  rw [gmWebGetInternal, if_pos hclient]
  dsimp only
  induction events generalizing u with
  | nil => exact ⟨(List.append_nil _).symm, rfl⟩
  | cons event events ih =>
    cases event with
    | other => exact ih u hcoroutine
    | onData data =>
      have hevent : eventHandler u (.onData data) = { u with passed := u.passed ++ [data.bytes] } :=
        if_pos hcoroutine
      obtain ⟨hpassed, hmemory⟩ := ih (eventHandler u (.onData data)) (hevent ▸ hcoroutine)
      rw [List.foldl_cons, hpassed, hmemory, hevent]
      exact ⟨by simp [body, HttpEvent.bytes], rfl⟩

/-- **The coroutine gets the whole body.** -/
theorem gmWebGetWithCoroutine_passed (hclient : http.client = true) :
    (gmWebGetWithCoroutine http events memory).2.flatten = body events :=
  (passed_gmWebGetInternal hclient { memory, coroutine := true } rfl).1

end Answers

/-- **When the buffer holds the answer**, and when what is parsed is from the server. -/
theorem answered_iff (http : Http) (events : List HttpEvent) (memory : Memory) (data : ℕ)
    (size : UInt32) (hclient : http.client = true) (hsize : 0 < size) :
    (Answered memory (gmWebGetData http events memory data size).2 data size (body events) ↔
      (2 ≤ size.toNat ∧ body events ≠ []) ∨ memory data = 0) ∧
    ∀ stack buffer after, gmPublicIpv4Internal http events stack buffer = some after →
      (Parses after buffer (body events) ↔ body events ≠ [] ∨ stack buffer = 0) :=
  ⟨gmWebGetData_iff hclient hsize, fun _ _ _ hafter => gmPublicIpv4Internal_iff hafter⟩

/-- An answer of one byte. -/
theorem answered_one :
    let events : List HttpEvent := [.onData ⟨[65], by decide⟩]
    let after := (gmWebGetData ⟨true, 0, 200⟩ events (fun _ => 7) 0 1024).2
    Answered (fun _ => 7) after 0 1024 (body events) ∧ Parses after 0 (body events) :=
  have hanswered := answered_iff ⟨true, 0, 200⟩ [.onData ⟨[65], by decide⟩] (fun _ => 7) 0 1024 rfl
    (by decide)
  ⟨hanswered.1.mpr (.inl ⟨by decide, List.cons_ne_nil _ _⟩),
    (hanswered.2 _ 0 _ rfl).mpr (.inl (List.cons_ne_nil _ _))⟩

/-- Without an answer the buffer is what it was, and that is parsed. -/
theorem not_answered :
    ¬ Answered (fun _ => 7) (gmWebGetData ⟨true, 0, 200⟩ [] (fun _ => 7) 0 1024).2 0 1024 (body []) ∧
    gmPublicIpv4Internal ⟨true, 0, 200⟩ [] (fun _ => 7) 0 = some (fun _ => 7) ∧
    ¬ Parses (fun _ => 7) 0 (body []) :=
  ⟨fun h => absurd (h.holds 0 Nat.one_pos) (by decide), rfl,
    fun h => absurd (h 0 Nat.one_pos) (by decide)⟩

end Ddns
