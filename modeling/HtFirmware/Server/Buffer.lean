import HtFirmware.Machinery.Fallible
import HtFirmware.Machinery.Run
import HtFirmware.Server.Reading

/-!
# Server/Buffer — the redirector's buffer, byte by byte

    | what was received | nulls ⋯ | null null |
    raw                 next                  sizeof(raw)

Here `struct request` is what it is in memory: `raw` is an array of some size, `next` a pointer into it,
and the functions for strings read on until there is a null.  None is written behind what is received.
The array is cleared to begin with, and again for the next request; what is received stays two bytes
short of its end; and what ends the host and the path are nulls.  So there is always a null behind
`next`, whatever the bytes are, and the pointers that are stored point before the first
(`sound_of_mem_reached`).
-/

open Machinery

namespace Server

/-! ## Memory -/

/-- The size of `raw`, a `size_t`: there are two bytes at least. -/
structure RawSize where
  bytes : ℕ
  two_le : 2 ≤ bytes
  small : bytes < 2 ^ 32

/-- What goes wrong: a null pointer is written through; something outside `raw` is read, or written; or
a pattern has no argument for a directive. -/
inductive Fault where
  | nullPointer
  | outside
  | noArgument

/-- `struct request`, its pointers being offsets in `raw`. -/
structure RawRequest where
  path : Option ℕ := none
  host : Option ℕ := none
  next : ℕ := 0
  «end» : Option ℕ := none
  keepAlive : Bool := false
  raw : List Char

/-- `memset` to zero, and `next` to the beginning. -/
def cleared (size : RawSize) : RawRequest where
  raw := List.replicate size.bytes '\x00'

/-- What a function for strings reads from a pointer on. -/
def stringAt (raw : List Char) (i : ℕ) : Except Fault CString :=
  if '\x00' ∈ raw.drop i then .ok (stringFrom raw i) else .error .outside

/-- Some bytes are received at a pointer. -/
def storeAt (raw : List Char) (i : ℕ) (bytes : List Char) : Except Fault (List Char) :=
  if i + bytes.length ≤ raw.length then .ok (raw.take i ++ bytes ++ raw.drop (i + bytes.length))
  else .error .outside

/-- A pointer that something is written through. -/
def notNull : Option ℕ → Except Fault ℕ
  | none => .error .nullPointer
  | some i => .ok i

/-! ## The parser -/

namespace RawRequest

/-- What a header line at `s` sets. -/
def parseHeader (r : RawRequest) (s : ℕ) (line : CString) (colonSpace lineEnd : ℕ) : RawRequest :=
  if strncasecmp line "Connection: keep-alive".toList lineEnd then { r with keepAlive := true }
  else if strncasecmp line "Host: ".toList 6 then { r with host := some (s + colonSpace + 2) }
  else r

theorem next_parseHeader (r : RawRequest) (s : ℕ) (line : CString) (colonSpace lineEnd : ℕ) :
    (r.parseHeader s line colonSpace lineEnd).next = r.next := by
  unfold parseHeader
  split_ifs <;> rfl

/-- The loop of `parse_request`, from the line at `s`. -/
def parseLines (s : ℕ) (r : RawRequest) : Except Fault RawRequest :=
  stringAt r.raw s >>= fun line =>
    if line = crlf then .ok { r with «end» := some s }
    else
      match strstr ": ".toList line with
      | none => .ok r
      | some colonSpace =>
        match strstr crlf (line.drop colonSpace) with
        | none => .ok r
        | some n =>
          let t := r.parseHeader s line colonSpace (colonSpace + n)
          if s + (colonSpace + n) + 2 < r.next then parseLines (s + (colonSpace + n) + 2) t else .ok t
termination_by r.next - s
decreasing_by
  rw [next_parseHeader]
  omega

/-- `parse_request`. -/
def parse (r : RawRequest) : Except Fault RawRequest :=
  stringAt r.raw 0 >>= fun text =>
    match strstr crlf text with
    | none => .ok r
    | some firstLine =>
      match strchr ' ' text with
      | none => .ok r
      | some firstSpace => parseLines (firstLine + 2) { r with path := some (firstSpace + 1) }

end RawRequest

/-! ## The handler -/

/-- A connection; with what `raw` held whenever a function for strings was called on it, and the request
whenever `parse_request` had returned. -/
structure RawConnection where
  request : RawRequest
  sent : CString := []
  registered : Bool := true
  searched : List (List Char) := []
  parsed : List RawRequest := []

/-- What the select task calls the handler for, and what `recv` then has: it fails, the peer has closed,
or there are some bytes. -/
structure RawEvent where
  readable : Bool
  isException : Bool
  timeout : Bool
  recv : Option CString

/-- `space`: a difference of pointers, as a `size_t`. -/
def space (size : RawSize) (r : RawRequest) : ℕ := (((size.bytes : ℤ) - 2 - r.next) % 2 ^ 32).toNat

namespace RawConnection

/-- A function for strings is called on `raw`. -/
def looked (c : RawConnection) : RawConnection :=
  { c with searched := c.searched ++ [c.request.raw] }

/-- The string that it is called on. -/
def string (c : RawConnection) (i : ℕ) : Except Fault (CString × RawConnection) :=
  stringAt c.request.raw i >>= fun s => .ok (s, c.looked)

/-- A null is written in `raw`. -/
def terminate (c : RawConnection) (i : ℕ) : RawConnection :=
  { c with request := { c.request with raw := c.request.raw.set i '\x00' } }

/-- `send_bad_request`, which prints `raw`. -/
def sendBadRequest (c : RawConnection) : Except Fault RawConnection :=
  c.string 0 >>= fun x => .ok { x.2 with sent := x.2.sent ++ badRequest }

/-- The end of `io_handler`. -/
def finish (c : RawConnection) : Except Fault RawConnection :=
  c.sendBadRequest >>= fun c => .ok { c with registered := false }

/-- `parse_request` is called. -/
def parse (c : RawConnection) : Except Fault RawConnection :=
  c.request.parse >>= fun r => .ok { c.looked with request := r, parsed := c.parsed ++ [r] }

/-- The answer is sent, if it fits. -/
def respond (size : RawSize) (c : RawConnection) (host path : CString) : Except Fault RawConnection :=
  let responseLength := host.length + path.length + (redirect.length + 1) - 5
  if responseLength < 256 then
    match vsnprintf 256 redirect [host, path] with
    | none => .error .noArgument
    | some response =>
      let c := { c with sent := c.sent ++ response.take responseLength }
      if c.request.keepAlive then .ok { c with request := cleared size } else c.finish
  else c.sendBadRequest >>= finish

/-- The answer to a request that is complete, and has these pointers. -/
def answer (size : RawSize) (c : RawConnection) (path host : ℕ) : Except Fault RawConnection :=
  c.string path >>= fun x =>
  notNull (strchr ' ' x.1) >>= fun pathEnd =>
  (x.2.terminate (path + pathEnd)).string host >>= fun x =>
  notNull (strstr crlf x.1) >>= fun hostEnd =>
  (x.2.terminate (host + hostEnd)).string host >>= fun x =>
  x.2.string path >>= fun y => y.2.respond size x.1 y.1

/-- What `io_handler` does with what was received. -/
def receive (size : RawSize) (c : RawConnection) (received : CString) : Except Fault RawConnection :=
  storeAt c.request.raw c.request.next received >>= fun raw =>
  { c with request := { c.request with
      raw := raw, next := c.request.next + received.length } }.parse >>= fun c =>
    if c.request.end.isSome then
      match c.request.path, c.request.host with
      | some path, some host => c.answer size path host
      | _, _ => c.sendBadRequest >>= finish
    else .ok c

/-- `io_handler`. -/
def ioHandler (size : RawSize) (c : RawConnection) (e : RawEvent) : Except Fault RawConnection :=
  if 0 < space size c.request ∧ e.readable ∧ !e.isException ∧ !e.timeout then
    match e.recv.map (·.take (space size c.request)) with
    | none => c.finish
    | some [] =>
      if c.request.next ≠ 0 ∧
          (c.request.end.isNone ∨ c.request.host.isNone ∨ c.request.path.isNone) then
        c.sendBadRequest >>= finish
      else c.finish
    | some received => c.receive size received
  else c.finish

/-- A connection that is closed is not called for. -/
def call (size : RawSize) (c : RawConnection) (e : RawEvent) : Except Fault RawConnection :=
  if c.registered then c.ioHandler size e else .ok c

/-- The run goes on as long as there is no fault. -/
def step (size : RawSize) (c : RawConnection) (e : RawEvent) : Option RawConnection :=
  (c.call size e).toOption

/-- `accept_handler`. -/
def accepted (size : RawSize) : RawConnection := { request := cleared size }

end RawConnection

/-! ## What holds of the buffer -/

/-- The last two bytes are null. -/
structure Terminated (size : RawSize) (raw : List Char) : Prop where
  length : raw.length = size.bytes
  last : raw[size.bytes - 1]? = some '\x00'
  before : raw[size.bytes - 2]? = some '\x00'

/-- Where the null is that the string in `raw` ends in. -/
def RawRequest.terminator (r : RawRequest) : ℕ := (stringFrom r.raw 0).length

/-- The pointers are not behind the terminating null. -/
structure Inside (r : RawRequest) : Prop where
  path : ∀ i ∈ r.path, i ≤ r.terminator
  host : ∀ i ∈ r.host, i ≤ r.terminator
  «end» : ∀ i ∈ r.end, i ≤ r.terminator

/-- **The buffer is sound**: `next` is in it, with two bytes behind; the space that is left is what it
says; the last two bytes were null whenever a function for strings was called; the pointers that
`parse_request` stored were not behind the null that it found, which is in the buffer; and nothing
outside is read or written next. -/
structure Sound (size : RawSize) (c : RawConnection) : Prop where
  next : c.request.next ≤ size.bytes - 2
  space : (space size c.request : ℤ) = size.bytes - 2 - c.request.next
  searched : ∀ raw ∈ c.searched, Terminated size raw
  parsed : ∀ r ∈ c.parsed, r.next ≤ size.bytes - 2 ∧ Terminated size r.raw ∧ Inside r ∧
    r.terminator < size.bytes ∧ r.raw[r.terminator]? = some '\x00'
  inside : ∀ e, c.call size e ≠ .error .outside

/-- The request when some bytes were received at `next`. -/
def RawRequest.received (r : RawRequest) (bytes : CString) : RawRequest :=
  { r with
    raw := r.raw.take r.next ++ bytes ++ r.raw.drop (r.next + bytes.length)
    next := r.next + bytes.length }

/-- What is behind `next` is null. -/
structure Cleared (size : RawSize) (r : RawRequest) : Prop where
  next : r.next + 2 ≤ size.bytes
  zeros : r.raw.drop r.next = List.replicate (size.bytes - r.next) '\x00'

/-- What is known of a connection while the handler runs. -/
structure Held (size : RawSize) (c : RawConnection) : Prop where
  cleared : Cleared size c.request
  searched : ∀ raw ∈ c.searched, Terminated size raw
  parsed : ∀ r ∈ c.parsed, Cleared size r ∧ Inside r

/-- **The invariant**: the pointers are those of a request that is not complete, as long as the
connection is open. -/
structure Kept (size : RawSize) (c : RawConnection) : Prop extends Held size c where
  pointers : c.registered = true → Inside c.request

/-! ## Strings in the buffer -/

section Strings

variable {size : RawSize} {raw : List Char} {r : RawRequest} {i n : ℕ}

/-- The null that a string ends in. -/
theorem getElem?_terminator (h : '\x00' ∈ raw.drop i) :
    raw[i + (stringFrom raw i).length]? = some '\x00' := by
  rw [← List.getElem?_drop, stringFrom]
  generalize raw.drop i = s at h
  induction s with
  | nil => cases h
  | cons c s ih =>
    by_cases hc : c = '\x00'
    · rw [List.takeWhile_cons_of_neg (by simpa using hc), hc]
      rfl
    · rw [List.takeWhile_cons_of_pos (by simpa using hc), List.length_cons, List.getElem?_cons_succ]
      exact ih ((List.mem_cons.mp h).resolve_left (Ne.symm hc))

theorem Terminated.null_mem (h : Terminated size raw) (hi : i < size.bytes) : '\x00' ∈ raw.drop i := by
  have hlast : (raw.drop i)[size.bytes - 1 - i]? = some '\x00' := by
    rw [List.getElem?_drop, Nat.add_sub_cancel' (Nat.le_sub_one_of_lt hi)]
    exact h.last
  exact List.mem_of_getElem? hlast

theorem Terminated.stringAt_eq (h : Terminated size raw) (hi : i < size.bytes) :
    stringAt raw i = .ok (stringFrom raw i) := if_pos (h.null_mem hi)

/-- The string ends in the buffer. -/
theorem Terminated.terminator_lt (h : Terminated size r.raw) :
    r.terminator < size.bytes ∧ r.raw[r.terminator]? = some '\x00' := by
  have hpos : 0 < size.bytes := Nat.lt_of_lt_of_le Nat.two_pos size.two_le
  have hnull := getElem?_terminator (h.null_mem hpos)
  rw [Nat.zero_add] at hnull
  exact ⟨h.length ▸ (List.getElem?_eq_some_iff.mp hnull).1, hnull⟩

theorem Cleared.length (h : Cleared size r) : r.raw.length = size.bytes := by
  have hlength := congrArg List.length h.zeros
  have hnext := h.next
  rw [List.length_drop, List.length_replicate] at hlength
  omega

theorem Cleared.getElem? (h : Cleared size r) (hlow : r.next ≤ i) (hhigh : i < size.bytes) :
    r.raw[i]? = some '\x00' := by
  have hzero : (r.raw.drop r.next)[i - r.next]? = some '\x00' := by
    rw [h.zeros, List.getElem?_replicate_of_lt (by omega)]
  rwa [List.getElem?_drop, Nat.add_sub_cancel' hlow] at hzero

/-- **Two bytes are left, and they are null.** -/
theorem Cleared.terminated (h : Cleared size r) : Terminated size r.raw where
  length := h.length
  last := h.getElem? (by have := h.next; omega) (by have := size.two_le; omega)
  before := h.getElem? (by have := h.next; omega) (by have := size.two_le; omega)

/-- The space that is left. -/
theorem Cleared.space_eq (h : Cleared size r) : space size r = size.bytes - 2 - r.next := by
  have hnext := h.next
  have hsmall := size.small
  unfold space
  omega

/-- A null that is written leaves the rest. -/
theorem Cleared.set (h : Cleared size r) (k : ℕ) :
    Cleared size { r with raw := r.raw.set k '\x00' } where
  next := h.next
  zeros := by
    change (r.raw.set k '\x00').drop r.next = _
    rw [List.drop_set]
    split_ifs
    · exact h.zeros
    · rw [h.zeros, List.set_replicate_self]

/-- What is received leaves the rest. -/
theorem Cleared.received (h : Cleared size r) {bytes : CString}
    (hroom : bytes.length ≤ size.bytes - 2 - r.next) :
    storeAt r.raw r.next bytes = .ok (r.received bytes).raw ∧ Cleared size (r.received bytes) := by
  have hnext := h.next
  have hlength := h.length
  have htake : (r.raw.take r.next ++ bytes).length = r.next + bytes.length := by
    rw [List.length_append, List.length_take]
    omega
  refine ⟨if_pos (by omega), ?_, ?_⟩
  · change r.next + bytes.length + 2 ≤ size.bytes
    omega
  · change (r.raw.take r.next ++ bytes ++ r.raw.drop (r.next + bytes.length)).drop
      (r.next + bytes.length) = List.replicate (size.bytes - (r.next + bytes.length)) '\x00'
    rw [← htake, List.drop_left, htake, ← List.drop_drop, h.zeros, List.drop_replicate, Nat.sub_sub]

/-- The string in the buffer is that of what was received. -/
theorem Cleared.stringFrom_take (h : Cleared size r) (i : ℕ) :
    stringFrom (r.raw.take r.next) i = stringFrom r.raw i := by
  have hraw : r.raw = r.raw.take r.next ++ List.replicate (size.bytes - r.next) '\x00' := by
    rw [← h.zeros, List.take_append_drop]
  have hcut : ∀ (s : List Char) (n : ℕ),
      (s ++ List.replicate n '\x00').takeWhile (· ≠ '\x00') = s.takeWhile (· ≠ '\x00') := by
    intro s n
    induction s with
    | nil =>
      cases n with
      | zero => rfl
      | succ n => rfl
    | cons c s ih =>
      rw [List.cons_append, List.takeWhile_cons, List.takeWhile_cons, ih]
  conv_rhs => rw [hraw]
  rw [stringFrom, stringFrom, List.drop_append, List.drop_replicate, hcut]

/-- More is received, and the null is not before where it was. -/
theorem Cleared.terminator_received (h : Cleared size r) (bytes : CString) :
    r.terminator ≤ (r.received bytes).terminator := by
  unfold RawRequest.terminator
  rw [← h.stringFrom_take, RawRequest.received, List.append_assoc, stringFrom, stringFrom,
    List.drop_zero, List.drop_zero]
  refine List.IsPrefix.length_le ?_
  rw [List.takeWhile_append]
  split_ifs
  · exact (List.takeWhile_prefix _).trans (List.prefix_append _ _)
  · exact List.prefix_rfl

/-- So the pointers are not behind it. -/
theorem Cleared.inside_received (h : Cleared size r) (hinside : Inside r) (bytes : CString) :
    Inside (r.received bytes) := by
  have hle := h.terminator_received bytes
  exact ⟨fun i hi => (hinside.path i hi).trans hle, fun i hi => (hinside.host i hi).trans hle,
    fun i hi => (hinside.end i hi).trans hle⟩

end Strings

/-! ## What the parser stores -/

section Parser

variable {size : RawSize} {r t : RawRequest} {s : ℕ} {F : Fault → Prop}

/-- **The parser stores pointers that are not behind the null**, and nothing else in memory. -/
structure ParsedFrom (r t : RawRequest) : Prop where
  raw : t.raw = r.raw
  next : t.next = r.next
  inside : Inside t

theorem ParsedFrom.terminator (h : ParsedFrom r t) : t.terminator = r.terminator :=
  congrArg (fun raw => (stringFrom raw 0).length) h.raw

theorem parsedFrom_parseHeader (h : Inside r) {line : CString} {colonSpace lineEnd : ℕ}
    (hs : s + colonSpace + 2 ≤ r.terminator) :
    ParsedFrom r (r.parseHeader s line colonSpace lineEnd) := by
  unfold RawRequest.parseHeader
  split_ifs
  · exact ⟨rfl, rfl, h.path, h.host, h.end⟩
  · refine ⟨rfl, rfl, h.path, fun i hi => ?_, h.end⟩
    obtain rfl := Option.some.inj hi
    exact hs
  · exact ⟨rfl, rfl, h⟩

/-- A line that begins before the null is read to it. -/
theorem stringFrom_eq_drop (hs : s ≤ r.terminator) :
    stringFrom r.raw s = (stringFrom r.raw 0).drop s := by
  have hdrop := stringFrom_add hs
  rwa [Nat.zero_add] at hdrop

/-- **The loop**, which has no faults. -/
theorem ends_parseLines (hterminated : Terminated size r.raw) (hinside : Inside r)
    (hs : s ≤ r.terminator) : Ends F (ParsedFrom r) (r.parseLines s) := by
  induction hleft : r.next - s using Nat.strong_induction_on generalizing s r with
  | h left ih =>
    have hread := hterminated.stringAt_eq (Nat.lt_of_le_of_lt hs hterminated.terminator_lt.1)
    have hline := stringFrom_eq_drop hs
    rw [RawRequest.parseLines]
    refine Ends.bind_of_eq hread ?_
    split_ifs with hcrlf
    · exact .ok ⟨rfl, rfl, hinside.path, hinside.host, fun i hi => Option.some.inj hi ▸ hs⟩
    · split
      · exact .ok ⟨rfl, rfl, hinside⟩
      · rename_i colonSpace hcolon
        split
        · exact .ok ⟨rfl, rfl, hinside⟩
        · rename_i n hend
          have hcolonLength := length_le_of_strstr hcolon
          have hendLength := length_le_of_strstr hend
          have htwo : (": ".toList).length = 2 := rfl
          have hcrlfLength : crlf.length = 2 := rfl
          rw [List.length_drop] at hendLength
          have hlength : (stringFrom r.raw s).length = r.terminator - s := by
            rw [hline, List.length_drop, RawRequest.terminator]
          have hparsed : ParsedFrom r
              (r.parseHeader s (stringFrom r.raw s) colonSpace (colonSpace + n)) :=
            parsedFrom_parseHeader hinside (by omega)
          dsimp only
          split_ifs with hmore
          · refine (ih _ ?_ ?_ hparsed.inside ?_ rfl).mono fun t ht =>
              ⟨ht.raw.trans hparsed.raw, ht.next.trans hparsed.next, ht.inside⟩
            · rw [hparsed.next]
              omega
            · rw [hparsed.raw]
              exact hterminated
            · rw [hparsed.terminator]
              omega
          · exact .ok hparsed

/-- **`parse_request`.** -/
theorem ends_parse (hterminated : Terminated size r.raw) (hinside : Inside r) :
    Ends F (ParsedFrom r) r.parse := by
  have hread := hterminated.stringAt_eq (Nat.lt_of_lt_of_le Nat.two_pos size.two_le)
  have hunchanged : ParsedFrom r r := ⟨rfl, rfl, hinside⟩
  refine Ends.bind_of_eq hread ?_
  split
  · exact .ok hunchanged
  · rename_i firstLine hfirstLine
    split
    · exact .ok hunchanged
    · rename_i firstSpace hfirstSpace
      have hlineLength := length_le_of_strstr hfirstLine
      have hcrlfLength : crlf.length = 2 := rfl
      obtain ⟨hspace, -⟩ := List.findIdx?_eq_some_iff_getElem.mp hfirstSpace
      have hpath : Inside { r with path := some (firstSpace + 1) } :=
        ⟨fun i hi => Option.some.inj hi ▸ hspace, hinside.host, hinside.end⟩
      have hstart : firstLine + 2 ≤ (stringFrom r.raw 0).length := by omega
      have hlines := ends_parseLines (r := { r with path := some (firstSpace + 1) }) (F := F)
        hterminated hpath hstart
      exact hlines.mono fun t ht => ⟨ht.raw, ht.next, ht.inside⟩

end Parser

/-! ## What the handler keeps -/

section Handler

variable {size : RawSize} {c : RawConnection} {i path host : ℕ}

theorem cleared_cleared (size : RawSize) : Cleared size (cleared size) where
  next := (Nat.zero_add 2).symm ▸ size.two_le
  zeros := rfl

theorem inside_cleared (size : RawSize) : Inside (cleared size) where
  path _ hi := by cases hi
  host _ hi := by cases hi
  «end» _ hi := by cases hi

theorem Held.looked (h : Held size c) : Held size c.looked where
  cleared := h.cleared
  searched raw hraw := by
    obtain hraw | hraw := List.mem_append.mp hraw
    · exact h.searched raw hraw
    · exact List.mem_singleton.mp hraw ▸ h.cleared.terminated
  parsed := h.parsed

theorem Held.terminate (h : Held size c) (i : ℕ) : Held size (c.terminate i) where
  cleared := h.cleared.set i
  searched := h.searched
  parsed := h.parsed

/-- A function for strings finds one. -/
theorem Held.string_eq (h : Held size c) (hi : i < size.bytes) :
    c.string i = .ok (stringFrom c.request.raw i, c.looked) := by
  rw [RawConnection.string, h.cleared.terminated.stringAt_eq hi]
  rfl

theorem Held.sendBadRequest_eq (h : Held size c) :
    c.sendBadRequest = .ok { c.looked with sent := c.sent ++ badRequest } := by
  rw [RawConnection.sendBadRequest, h.string_eq (Nat.lt_of_lt_of_le Nat.two_pos size.two_le)]
  rfl

theorem Held.finish_eq (h : Held size c) :
    c.finish = .ok { c.looked with sent := c.sent ++ badRequest, registered := false } := by
  rw [RawConnection.finish, h.sendBadRequest_eq]
  rfl

/-- What is sent does not matter. -/
theorem Held.send (h : Held size c) (text : CString) : Held size { c with sent := text } :=
  ⟨h.cleared, h.searched, h.parsed⟩

theorem Held.ends_finish (h : Held size c) : Ends (· = .nullPointer) (Kept size) c.finish := by
  rw [h.finish_eq]
  exact .ok ⟨⟨h.cleared, h.looked.searched, h.parsed⟩, fun hopen => absurd hopen Bool.false_ne_true⟩

/-- The request was bad. -/
theorem Held.ends_bad (h : Held size c) :
    Ends (· = .nullPointer) (Kept size) (c.sendBadRequest >>= RawConnection.finish) := by
  rw [h.sendBadRequest_eq]
  exact (h.looked.send _).ends_finish

/-- The answer is sent. -/
theorem Held.ends_respond (h : Held size c) (host path : CString) :
    Ends (· = .nullPointer) (Kept size) (c.respond size host path) := by
  unfold RawConnection.respond
  rw [← Connection.length_movedPermanently, vsnprintf, Connection.format_redirect, Option.map_some]
  by_cases hshort : (movedPermanently (host ++ '/' :: path)).length < 256
  · rw [if_pos hshort]
    dsimp only
    by_cases hkeepAlive : c.request.keepAlive = true
    · rw [if_pos hkeepAlive]
      exact .ok ⟨⟨cleared_cleared size, h.searched, h.parsed⟩, fun _ => inside_cleared size⟩
    · rw [if_neg hkeepAlive]
      exact (h.send _).ends_finish
  · rw [if_neg hshort]
    exact h.ends_bad

/-- **The answer.** -/
theorem Held.ends_answer (h : Held size c) (hpath : path < size.bytes) (hhost : host < size.bytes) :
    Ends (· = .nullPointer) (Kept size) (c.answer size path host) := by
  have hnotNull : ∀ found : Option ℕ, Ends (· = .nullPointer) (fun _ => True) (notNull found) := by
    intro found
    cases found with
    | none => exact .error rfl
    | some i => exact .ok trivial
  have hfirst := h.looked
  refine Ends.bind_of_eq (h.string_eq hpath) ((hnotNull _).bind fun pathEnd _ => ?_)
  have hsecond := (hfirst.terminate (path + pathEnd)).looked
  refine Ends.bind_of_eq ((hfirst.terminate _).string_eq hhost) ((hnotNull _).bind fun hostEnd _ => ?_)
  have hthird := (hsecond.terminate (host + hostEnd)).looked
  refine Ends.bind_of_eq ((hsecond.terminate _).string_eq hhost) ?_
  exact Ends.bind_of_eq (hthird.string_eq hpath) (hthird.looked.ends_respond _ _)

/-- `parse_request`, of a request that is held, has no faults. -/
theorem Held.parse_ok (h : Held size c) (hinside : Inside c.request) :
    ∃ d, c.parse = .ok d ∧ c.request.parse = .ok d.request ∧ d.sent = c.sent ∧
      d.registered = c.registered ∧ Held size d ∧ Inside d.request := by
  have hends := ends_parse (F := fun _ => False) h.cleared.terminated hinside
  cases hparse : c.request.parse with
  | error fault =>
    rw [hparse] at hends
    cases hends with
    | error hfault => exact hfault.elim
  | ok t =>
    rw [hparse] at hends
    cases hends with
    | ok ht =>
      have hcleared : Cleared size t :=
        ⟨ht.next ▸ h.cleared.next, by rw [ht.raw, ht.next]; exact h.cleared.zeros⟩
      refine ⟨{ c.looked with request := t, parsed := c.parsed ++ [t] }, ?_, rfl, rfl, rfl,
        ⟨hcleared, h.looked.searched, fun r hr => ?_⟩, ht.inside⟩
      · rw [RawConnection.parse, hparse]
        rfl
      · obtain hr | hr := List.mem_append.mp hr
        · exact h.parsed r hr
        · obtain rfl := List.mem_singleton.mp hr
          exact ⟨hcleared, ht.inside⟩

/-- **What was received.** -/
theorem Kept.ends_receive (h : Kept size c) (hopen : c.registered = true) {received : CString}
    (hroom : received.length ≤ space size c.request) :
    Ends (· = .nullPointer) (Kept size) (c.receive size received) := by
  rw [h.cleared.space_eq] at hroom
  obtain ⟨hstore, hcleared⟩ := h.cleared.received hroom
  have hinside := h.cleared.inside_received (h.pointers hopen) received
  have hheld : Held size { c with request := c.request.received received } :=
    ⟨hcleared, h.searched, h.parsed⟩
  obtain ⟨d, hparse, -, -, -, hd, hpointers⟩ := hheld.parse_ok hinside
  refine Ends.bind_of_eq hstore (Ends.bind_of_eq hparse ?_)
  have hsize : ∀ {i}, i ≤ d.request.terminator → i < size.bytes := fun hi =>
    Nat.lt_of_le_of_lt hi hd.cleared.terminated.terminator_lt.1
  split_ifs with hend
  · split
    · rename_i path host hpath hhost
      exact hd.ends_answer (hsize (hpointers.path path hpath)) (hsize (hpointers.host host hhost))
    · exact hd.ends_bad
  · exact .ok ⟨hd, fun _ => hpointers⟩

/-- **`io_handler`**, whatever it is called for. -/
theorem Kept.ends_ioHandler (h : Kept size c) (hopen : c.registered = true) (e : RawEvent) :
    Ends (· = .nullPointer) (Kept size) (c.ioHandler size e) := by
  unfold RawConnection.ioHandler
  split
  · cases e.recv with
    | none => exact h.ends_finish
    | some piece =>
      rw [Option.map_some]
      have hroom : (piece.take (space size c.request)).length ≤ space size c.request := by
        rw [List.length_take]
        exact Nat.min_le_left _ _
      cases hreceived : piece.take (space size c.request) with
      | nil =>
        dsimp only
        split_ifs
        · exact h.ends_bad
        · exact h.ends_finish
      | cons b received => exact h.ends_receive hopen (hreceived ▸ hroom)
  · exact h.ends_finish

/-- **One call.** -/
theorem Kept.ends_call (h : Kept size c) (e : RawEvent) :
    Ends (· = .nullPointer) (Kept size) (c.call size e) := by
  unfold RawConnection.call
  split_ifs with hopen
  · exact h.ends_ioHandler hopen e
  · exact .ok h

end Handler

/-! ## Runs -/

section Runs

variable {size : RawSize} {c : RawConnection}

theorem kept_accepted (size : RawSize) : Kept size (RawConnection.accepted size) where
  cleared := cleared_cleared size
  searched _ hraw := absurd hraw List.not_mem_nil
  parsed _ hr := absurd hr List.not_mem_nil
  pointers _ := inside_cleared size

theorem Kept.sound (h : Kept size c) : Sound size c where
  next := Nat.le_sub_of_add_le h.cleared.next
  space := by
    have hnext := h.cleared.next
    rw [h.cleared.space_eq]
    omega
  searched := h.searched
  parsed r hr := by
    obtain ⟨hcleared, hinside⟩ := h.parsed r hr
    exact ⟨Nat.le_sub_of_add_le hcleared.next, hcleared.terminated, hinside,
      hcleared.terminated.terminator_lt⟩
  inside e herror := by
    have hends := h.ends_call e
    rw [herror] at hends
    cases hends with
    | error hfault => cases hfault

/-- **The buffer is sound in every state of every run.** -/
theorem sound_of_mem_reached (size : RawSize) (events : List RawEvent) :
    ∀ c ∈ reached (RawConnection.step size) (RawConnection.accepted size) events, Sound size c := by
  intro c hc
  refine Kept.sound (forall_reached (I := Kept size) (C := fun _ _ => True) ?_ events _
    (kept_accepted size) (fun _ _ => trivial) c hc)
  intro s e t hs _ ht
  have hends := hs.ends_call e
  rw [RawConnection.step] at ht
  generalize s.call size e = x at hends ht
  cases hends with
  | ok hkept => exact Option.some.inj ht ▸ hkept
  | error => cases ht

/-- An array of sixteen bytes. -/
def sixteen : RawSize := ⟨16, by decide, by decide⟩

/-- More is received than there is room for. -/
def flood : RawEvent := ⟨true, false, false, some ("GET".toList ++ '\x00' :: List.replicate 20 'x')⟩

theorem sound_flood : Sound sixteen
    (((RawConnection.accepted sixteen).step sixteen flood).getD (RawConnection.accepted sixteen)) := by
  refine sound_of_mem_reached sixteen [flood] _ ?_
  have hsome : ((RawConnection.accepted sixteen).step sixteen flood).isSome = true := by decide
  obtain ⟨c, hc⟩ := Option.isSome_iff_exists.mp hsome
  rw [hc, reached_of_some hc]
  exact List.mem_cons_of_mem _ (mem_reached_self c [])

end Runs

end Server
