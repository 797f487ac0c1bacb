import HtFirmware.Server.Buffer

/-!
# Server/BufferList — the redirector's buffer, as the list of what was received

In `Server/Redirect` the buffer is a list, and a string ends where the list does.  In memory it ends at
the first null, and there is one behind `next` as long as the buffer is sound: so a handler call comes
to the same in both, or writes through a null pointer in both (`ioHandler_refines`).
-/

open Machinery

namespace Server

/-! ## The list of what was received -/

/-- The request, its buffer being the list of what was received. -/
def RawRequest.abstract (r : RawRequest) : Request :=
  ⟨r.path, r.host, r.end, r.keepAlive, r.raw.take r.next⟩

def RawConnection.abstract (c : RawConnection) : Connection :=
  ⟨c.request.abstract, c.sent, c.registered⟩

/-- A connection in memory, and one with the list: they have sent the same, and as long as they are open
the request is the same. -/
structure Stands (d : RawConnection) (e : Connection) : Prop where
  sent : e.sent = d.sent
  registered : e.registered = d.registered
  request : d.registered = true → e.request = d.request.abstract

section Refinement

variable {size : RawSize} {r t : RawRequest} {c d : RawConnection} {e : Connection} {s : ℕ}

theorem Cleared.length_abstract (h : Cleared size r) : r.abstract.raw.length = r.next := by
  have hnext := h.next
  have hlength := h.length
  exact List.length_take_of_le (by omega)

theorem stringAt_ok {raw : List Char} {i : ℕ} {line : CString} (h : stringAt raw i = .ok line) :
    line = stringFrom raw i := by
  unfold stringAt at h
  split_ifs at h
  exact (Except.ok.inj h).symm

theorem abstract_parseHeader (r : RawRequest) (s : ℕ) (line : CString) (colonSpace lineEnd : ℕ) :
    (r.parseHeader s line colonSpace lineEnd).abstract
      = parseHeader r.abstract s line colonSpace lineEnd := by
  unfold RawRequest.parseHeader parseHeader
  split_ifs <;> rfl

theorem Cleared.parseHeader (h : Cleared size r) (s : ℕ) (line : CString) (colonSpace lineEnd : ℕ) :
    Cleared size (r.parseHeader s line colonSpace lineEnd) := by
  unfold RawRequest.parseHeader
  split_ifs
  · exact ⟨h.next, h.zeros⟩
  · exact ⟨h.next, h.zeros⟩
  · exact h

/-- **The loop, over the list.** -/
theorem abstract_parseLines (h : Cleared size r) (ht : r.parseLines s = .ok t) :
    t.abstract = parseLines s r.abstract := by
  induction hleft : r.next - s using Nat.strong_induction_on generalizing s r with
  | h left ih =>
    have hlength := h.length_abstract
    rw [RawRequest.parseLines] at ht
    obtain ⟨line, hline, ht⟩ := bind_ok ht
    obtain rfl := stringAt_ok hline
    have hstring : stringFrom r.raw s = stringFrom r.abstract.raw s := (h.stringFrom_take s).symm
    rw [hstring] at ht
    rw [parseLines]
    dsimp only
    split_ifs at ht ⊢ with hcrlf
    · obtain rfl := Except.ok.inj ht
      rfl
    · cases hcolon : strstr ": ".toList (stringFrom r.abstract.raw s) with
      | none =>
        rw [hcolon] at ht
        obtain rfl := Except.ok.inj ht
        rfl
      | some colonSpace =>
        rw [hcolon] at ht
        dsimp only at ht ⊢
        cases hend : strstr crlf ((stringFrom r.abstract.raw s).drop colonSpace) with
        | none =>
          rw [hend] at ht
          obtain rfl := Except.ok.inj ht
          rfl
        | some n =>
          rw [hend] at ht
          dsimp only at ht ⊢
          rw [hlength, ← abstract_parseHeader]
          split_ifs at ht ⊢ with hmore
          · refine ih _ ?_ (h.parseHeader _ _ _ _) ht rfl
            rw [RawRequest.next_parseHeader]
            omega
          · obtain rfl := Except.ok.inj ht
            rfl

/-- **`parse_request`, over the list.** -/
theorem abstract_parse (h : Cleared size r) (ht : r.parse = .ok t) :
    t.abstract = parseRequest r.abstract := by
  rw [RawRequest.parse] at ht
  obtain ⟨text, htext, ht⟩ := bind_ok ht
  obtain rfl := stringAt_ok htext
  have hstring : stringFrom r.raw 0 = stringFrom r.abstract.raw 0 := (h.stringFrom_take 0).symm
  rw [hstring] at ht
  rw [parseRequest]
  cases hline : strstr crlf (stringFrom r.abstract.raw 0) with
  | none =>
    rw [hline] at ht
    obtain rfl := Except.ok.inj ht
    rfl
  | some firstLine =>
    rw [hline] at ht
    dsimp only at ht ⊢
    cases hspace : strchr ' ' (stringFrom r.abstract.raw 0) with
    | none =>
      rw [hspace] at ht
      obtain rfl := Except.ok.inj ht
      rfl
    | some firstSpace =>
      rw [hspace] at ht
      exact abstract_parseLines (r := { r with path := some (firstSpace + 1) }) ⟨h.next, h.zeros⟩ ht

theorem Held.stands_finish (h : Held size d) (hsent : e.sent = d.sent) :
    Simulates Stands d.finish (some e.finish) := by
  rw [h.finish_eq]
  exact .ok ⟨congrArg (· ++ badRequest) hsent, rfl, fun hopen => absurd hopen Bool.false_ne_true⟩

theorem Held.stands_bad (h : Held size d) (hsent : e.sent = d.sent) :
    Simulates Stands (d.sendBadRequest >>= RawConnection.finish) (some e.sendBadRequest.finish) :=
  Simulates.bind_of_eq h.sendBadRequest_eq
    ((h.looked.send _).stands_finish (congrArg (· ++ badRequest) hsent))

theorem Held.stands_respond (h : Held size d) (hsent : e.sent = d.sent)
    (hregistered : e.registered = d.registered)
    (hkeepAlive : e.request.keepAlive = d.request.keepAlive) (host path : CString) :
    Simulates Stands (d.respond size host path) (e.answer host path) := by
  unfold RawConnection.respond Connection.answer
  dsimp only
  rw [← Connection.length_movedPermanently, vsnprintf, Connection.format_redirect, Option.map_some,
    Option.map_some, hkeepAlive]
  by_cases hshort : (movedPermanently (host ++ '/' :: path)).length < 256
  · rw [if_pos hshort, if_pos hshort]
    dsimp only
    by_cases hkeep : d.request.keepAlive = true
    · rw [if_pos hkeep, if_pos hkeep]
      exact .ok ⟨congrArg (· ++ _) hsent, hregistered, fun _ => rfl⟩
    · rw [if_neg hkeep, if_neg hkeep]
      exact (h.send _).stands_finish (congrArg (· ++ _) hsent)
  · rw [if_neg hshort, if_neg hshort]
    exact h.stands_bad hsent

theorem simulates_notNull (found : Option ℕ) : Simulates (· = ·) (notNull found) found := by
  cases found with
  | none => exact .error
  | some i => exact .ok rfl

/-- **The answer, over the list.** -/
theorem Held.stands_answer (h : Held size d) {path host : ℕ} (hpath : path < size.bytes)
    (hhost : host < size.bytes) (hsent : e.sent = d.sent) (hregistered : e.registered = d.registered)
    (hkeepAlive : e.request.keepAlive = d.request.keepAlive) :
    Simulates Stands (d.answer size path host)
      ((target d.request.abstract.raw path host).bind fun found => e.answer found.1 found.2) := by
  have hfirst := h.cleared.stringFrom_take
  have hsecond : ∀ k i, stringFrom (d.request.abstract.raw.set k '\x00') i
      = stringFrom (d.request.raw.set k '\x00') i := by
    intro k i
    rw [RawRequest.abstract, ← List.take_set]
    exact (h.cleared.set k).stringFrom_take i
  have hthird : ∀ k l i, stringFrom ((d.request.abstract.raw.set k '\x00').set l '\x00') i
      = stringFrom ((d.request.raw.set k '\x00').set l '\x00') i := by
    intro k l i
    rw [RawRequest.abstract, ← List.take_set, ← List.take_set]
    exact ((h.cleared.set k).set l).stringFrom_take i
  have htarget : ∀ raw, target raw path host = (strchr ' ' (stringFrom raw path)).bind fun pathEnd =>
      (strstr crlf (stringFrom (raw.set (path + pathEnd) '\x00') host)).bind fun hostEnd =>
        some (stringFrom ((raw.set (path + pathEnd) '\x00').set (host + hostEnd) '\x00') host,
          stringFrom ((raw.set (path + pathEnd) '\x00').set (host + hostEnd) '\x00') path) :=
    fun raw => rfl
  rw [htarget, Option.bind_assoc]
  have hpathText : stringFrom d.request.abstract.raw path = stringFrom d.request.raw path := hfirst path
  rw [hpathText]
  refine Simulates.bind_of_eq (h.string_eq hpath) ((simulates_notNull _).bind ?_)
  rintro pathEnd _ rfl
  have hpathCut := h.looked.terminate (path + pathEnd)
  rw [Option.bind_assoc, hsecond]
  refine Simulates.bind_of_eq (hpathCut.string_eq hhost) ((simulates_notNull _).bind ?_)
  rintro hostEnd _ rfl
  have hhostCut := hpathCut.looked.terminate (host + hostEnd)
  rw [Option.bind_some, hthird, hthird]
  exact Simulates.bind_of_eq (hhostCut.string_eq hhost) (Simulates.bind_of_eq
    (hhostCut.looked.string_eq hpath)
    (hhostCut.looked.looked.stands_respond hsent hregistered hkeepAlive _ _))

/-- What the handler of `Server/Redirect` does with what was received. -/
theorem Connection.ioHandler_receive (c : Connection) {received : CString} (hsome : received ≠ [])
    (hspace : 0 < c.space size.bytes) :
    c.ioHandler size.bytes true false false (some received) =
      let r := parseRequest { c.request with raw := c.request.raw ++ received }
      if r.end.isSome then
        match r.path, r.host with
        | some path, some host =>
          (target r.raw path host).bind fun found =>
            Connection.answer { c with request := r } found.1 found.2
        | _, _ => some ({ c with request := r } : Connection).sendBadRequest.finish
      else some { c with request := r } := by
  obtain ⟨b, rest, rfl⟩ := List.exists_cons_of_ne_nil hsome
  exact if_pos ⟨hspace, rfl, rfl, rfl⟩

theorem Cleared.space_abstract (h : Cleared size c.request) :
    c.abstract.space size.bytes = space size c.request := by
  rw [h.space_eq, Connection.space, RawConnection.abstract, h.length_abstract]

theorem Cleared.abstract_received (h : Cleared size r) (bytes : CString) :
    (r.received bytes).abstract = { r.abstract with raw := r.abstract.raw ++ bytes } := by
  have hlength : (r.raw.take r.next ++ bytes).length = r.next + bytes.length := by
    rw [List.length_append]
    exact congrArg (· + bytes.length) h.length_abstract
  unfold RawRequest.abstract RawRequest.received
  dsimp only
  rw [← hlength, List.take_left]

/-- **What was received, over the list.** -/
theorem Kept.stands_receive (h : Kept size c) (hopen : c.registered = true) {received : CString}
    (hsome : received ≠ []) (hroom : received.length ≤ space size c.request) :
    Simulates Stands (c.receive size received)
      (c.abstract.ioHandler size.bytes true false false (some received)) := by
  have hspace : 0 < c.abstract.space size.bytes := by
    rw [h.cleared.space_abstract]
    exact Nat.lt_of_lt_of_le (List.length_pos_iff.mpr hsome) hroom
  rw [Connection.ioHandler_receive _ hsome hspace]
  rw [h.cleared.space_eq] at hroom
  obtain ⟨hstore, hcleared⟩ := h.cleared.received hroom
  have hinside := h.cleared.inside_received (h.pointers hopen) received
  have hheld : Held size { c with request := c.request.received received } :=
    ⟨hcleared, h.searched, h.parsed⟩
  obtain ⟨d, hparse, hrequest, hsent, hregistered, hd, hpointers⟩ := hheld.parse_ok hinside
  have hlist : d.request.abstract
      = parseRequest { c.abstract.request with raw := c.abstract.request.raw ++ received } := by
    rw [abstract_parse hcleared hrequest, h.cleared.abstract_received]
    rfl
  have hsize : ∀ {i}, i ≤ d.request.terminator → i < size.bytes := fun hi =>
    Nat.lt_of_le_of_lt hi hd.cleared.terminated.terminator_lt.1
  refine Simulates.bind_of_eq hstore (Simulates.bind_of_eq hparse ?_)
  rw [← hlist]
  dsimp only [RawRequest.abstract]
  by_cases hend : d.request.end.isSome = true
  · rw [if_pos hend, if_pos hend]
    cases hpath : d.request.path with
    | none => exact hd.stands_bad hsent.symm
    | some path =>
      cases hhost : d.request.host with
      | none => exact hd.stands_bad hsent.symm
      | some host =>
        exact hd.stands_answer (hsize (hpointers.path path hpath)) (hsize (hpointers.host host hhost))
          hsent.symm hregistered.symm rfl
  · rw [if_neg hend, if_neg hend]
    exact .ok ⟨hsent.symm, hregistered.symm, fun _ => rfl⟩

/-- **The handler does the same as over the list**, or faults where that one does. -/
theorem Kept.ioHandler_refines (h : Kept size c) (hopen : c.registered = true) (e : RawEvent) :
    Simulates Stands (c.ioHandler size e) (c.abstract.ioHandler size.bytes e.readable e.isException
      e.timeout (e.recv.map (·.take (space size c.request)))) := by
  have hspace := h.cleared.space_abstract
  have hempty : c.abstract.request.raw ≠ [] ↔ c.request.next ≠ 0 := by
    rw [Ne, ← List.length_eq_zero_iff]
    exact not_congr (by rw [RawConnection.abstract, h.cleared.length_abstract])
  unfold RawConnection.ioHandler
  by_cases hready : 0 < space size c.request ∧ e.readable = true ∧ (!e.isException) = true ∧
      (!e.timeout) = true
  · rw [if_pos hready]
    cases e.recv with
    | none =>
      rw [Option.map_none, Connection.ioHandler, hspace, if_pos hready]
      exact h.stands_finish rfl
    | some piece =>
      rw [Option.map_some]
      have hroom : (piece.take (space size c.request)).length ≤ space size c.request := by
        rw [List.length_take]
        exact Nat.min_le_left _ _
      cases hreceived : piece.take (space size c.request) with
      | nil =>
        rw [Connection.ioHandler, hspace, if_pos hready]
        dsimp only
        by_cases hbad : c.request.next ≠ 0 ∧ (c.request.end.isNone = true ∨
            c.request.host.isNone = true ∨ c.request.path.isNone = true)
        · rw [if_pos hbad, if_pos ⟨hempty.mpr hbad.1, hbad.2⟩]
          exact h.stands_bad rfl
        · rw [if_neg hbad, if_neg fun hlist => hbad ⟨hempty.mp hlist.1, hlist.2⟩]
          exact h.stands_finish rfl
      | cons b received =>
        obtain ⟨-, hreadable, hexception, htimeout⟩ := hready
        rw [hreadable, (Bool.not_eq_true' _).mp hexception, (Bool.not_eq_true' _).mp htimeout]
        exact h.stands_receive hopen (List.cons_ne_nil b received) (hreceived ▸ hroom)
  · unfold Connection.ioHandler
    rw [if_neg hready, hspace, if_neg hready]
    exact h.stands_finish rfl

end Refinement

end Server
