import HtFirmware.Machinery.Text
import Mathlib.Data.List.Infix
import Mathlib.Data.List.TakeWhile
import Mathlib.Data.Nat.Notation

/-!
# Server/Redirect — the redirector on the HTTP port

A connection collects what it receives until a request is complete, and answers with the address to go
to by HTTPS.  The address has a slash between the host and the path, which begins with one itself, so
no answer is right (`redirects_iff`); and whatever the handler closes a connection for, the last thing
it sends is that the request was bad (`badRequest_of_closed`).

Pointers into the buffer are offsets; what was received stands in the buffer, and nulls follow.
-/

open Machinery

namespace Server

/-! ## C strings -/

/-- The string at an offset. -/
def stringFrom (raw : List Char) (i : ℕ) : CString := (raw.drop i).takeWhile (· ≠ '\x00')

/-- `strstr`. -/
def strstr (needle : CString) : CString → Option ℕ
  | [] => if needle = [] then some 0 else none
  | c :: s => if needle <+: c :: s then some 0 else (strstr needle s).map (· + 1)

/-- `strchr`, for a character that is not null. -/
def strchr (c : Char) (s : CString) : Option ℕ := s.findIdx? (· = c)

/-- `strncasecmp` comes out as equal. -/
def strncasecmp (s t : CString) (n : ℕ) : Bool :=
  (s.take n).map Char.toLower = (t.take n).map Char.toLower

/-! ## The handler -/

def crlf : CString := "\r\n".toList

/-- The answer's first lines. -/
def statusLines : CString :=
  "HTTP/1.1 301 Moved Permanently\r\n".toList ++ ("Content-Length: 0\r\n".toList ++
    "Content-Type: text/html; charset=UTF-8\r\n".toList)

/-- `redirect`, the answer. -/
def redirect : CString := statusLines ++ "Location: https://%s/%s\r\n\r\n".toList

/-- `bad_request`. -/
def badRequest : CString := "HTTP/1.1 400 Bad Request\r\n\r\n".toList

/-- `struct request`; `next` is the end of what was received. -/
structure Request where
  path : Option ℕ := none
  host : Option ℕ := none
  «end» : Option ℕ := none
  keepAlive : Bool := false
  raw : List Char := []

/-- What a header line at `s` sets: `line` is the text from there on, up to `lineEnd` this line. -/
def parseHeader (r : Request) (s : ℕ) (line : CString) (colonSpace lineEnd : ℕ) : Request :=
  if strncasecmp line "Connection: keep-alive".toList lineEnd then { r with keepAlive := true }
  else if strncasecmp line "Host: ".toList 6 then { r with host := some (s + colonSpace + 2) }
  else r

@[simp] theorem raw_parseHeader (r : Request) (s : ℕ) (line : CString) (colonSpace lineEnd : ℕ) :
    (parseHeader r s line colonSpace lineEnd).raw = r.raw := by
  unfold parseHeader
  split_ifs <;> rfl

/-- The loop of `parse_request`, from the line at `s`. -/
def parseLines (s : ℕ) (r : Request) : Request :=
  let line := stringFrom r.raw s
  if line = crlf then { r with «end» := some s }
  else
    match strstr ": ".toList line with
    | none => r
    | some colonSpace =>
      match strstr crlf (line.drop colonSpace) with
      | none => r
      | some n =>
        let t := parseHeader r s line colonSpace (colonSpace + n)
        if s + (colonSpace + n) + 2 < r.raw.length then parseLines (s + (colonSpace + n) + 2) t else t
termination_by r.raw.length - s
decreasing_by
  rw [raw_parseHeader]
  omega

/-- `parse_request`. -/
def parseRequest (r : Request) : Request :=
  match strstr crlf (stringFrom r.raw 0) with
  | none => r
  | some firstLine =>
    match strchr ' ' (stringFrom r.raw 0) with
    | none => r
    | some firstSpace => parseLines (firstLine + 2) { r with path := some (firstSpace + 1) }

/-- The host and the path of a request that is complete.  The characters that end them become nulls;
where there is none, a null pointer is written through. -/
def target (raw : List Char) (path host : ℕ) : Option (CString × CString) := do
  let pathEnd ← strchr ' ' (stringFrom raw path)
  let raw := raw.set (path + pathEnd) '\x00'
  let hostEnd ← strstr crlf (stringFrom raw host)
  let raw := raw.set (host + hostEnd) '\x00'
  some (stringFrom raw host, stringFrom raw path)

/-- A connection: what it has been sent, and whether it is still registered, and open. -/
structure Connection where
  request : Request := {}
  sent : CString := []
  registered : Bool := true

namespace Connection

/-- `send_bad_request`. -/
def sendBadRequest (c : Connection) : Connection := { c with sent := c.sent ++ badRequest }

/-- The end of `io_handler`: the request was bad, and the connection is closed. -/
def finish (c : Connection) : Connection := { c.sendBadRequest with registered := false }

/-- The room left in a buffer of `size` bytes. -/
def space (size : ℕ) (c : Connection) : ℕ := size - 2 - c.request.raw.length

/-- The answer to a request that is complete, given its host and path. -/
def answer (c : Connection) (host path : CString) : Option Connection :=
  let responseLength := host.length + path.length + (redirect.length + 1) - 5
  if responseLength < 256 then
    (vsnprintf 256 redirect [host, path]).map fun response =>
      let c := { c with sent := c.sent ++ response.take responseLength }
      if c.request.keepAlive then { c with request := {} } else c.finish
  else some c.sendBadRequest.finish

/-- `io_handler`, where `recv` returns so many bytes, none if the peer has closed, or fails.  `none`
is a null pointer written through. -/
def ioHandler (size : ℕ) (c : Connection) (readable isException timeout : Bool)
    (recv : Option CString) : Option Connection :=
  if 0 < c.space size ∧ readable ∧ !isException ∧ !timeout then
    match recv with
    | none => some c.finish
    | some [] =>
      let r := c.request
      if r.raw ≠ [] ∧ (r.end.isNone ∨ r.host.isNone ∨ r.path.isNone) then
        some c.sendBadRequest.finish
      else some c.finish
    | some piece =>
      let r := parseRequest { c.request with raw := c.request.raw ++ piece }
      let c := { c with request := r }
      if r.end.isSome then
        match r.path, r.host with
        | some path, some host => (target r.raw path host).bind fun t => c.answer t.1 t.2
        | _, _ => some c.sendBadRequest.finish
      else some c
  else some c.finish

end Connection

/-! ## A connection's run -/

/-- A connection, and what its peer has sent that it has not received. -/
structure Session where
  connection : Connection := {}
  unread : CString

/-- The select task calls the handler when there are `n + 1` bytes more, or as many as there are. -/
def Session.call (size : ℕ) (x : Session) (n : ℕ) : Option Session :=
  if x.connection.registered ∧ x.unread ≠ [] then
    let received := min (n + 1) (x.connection.space size)
    (x.connection.ioHandler size true false false (some (x.unread.take received))).map fun c =>
      ⟨c, x.unread.drop received⟩
  else some x

/-! ## What a redirector should send -/

/-- A header line. -/
structure Header where
  name : CString
  gap : CString
  value : CString
  plain : '\r' ∉ name ++ ':' :: (gap ++ value)

def Header.text (h : Header) : CString := h.name ++ ':' :: (h.gap ++ h.value)

/-- The header's name is this one. -/
def Header.named (h : Header) (name : CString) : Bool := h.name.map Char.toLower = name

/-- A well-formed request, without a body: its host has no slash, and its path begins with one. -/
structure HttpRequest where
  method : CString
  path : CString
  version : CString
  headers : List Header
  host : CString
  methodPlain : ' ' ∉ method ∧ '\r' ∉ method
  pathPlain : ' ' ∉ path ∧ '\r' ∉ path ∧ '\x00' ∉ path
  versionPlain : ' ' ∉ version ∧ '\r' ∉ version
  rooted : path.head? = some '/'
  hosted : (headers.find? (·.named "host".toList)).map Header.value = some host
  hostPlain : '/' ∉ host

namespace HttpRequest

/-- How a request is written. -/
def text (r : HttpRequest) : CString :=
  (r.method ++ ' ' :: (r.path ++ ' ' :: r.version)) ++ crlf ++
    r.headers.flatMap (fun h => h.text ++ crlf) ++ crlf

/-- The request has "Connection: keep-alive". -/
def keepAlive (r : HttpRequest) : Bool :=
  r.headers.any fun h =>
    h.named "connection".toList && h.value.map Char.toLower = "keep-alive".toList

end HttpRequest

/-- The answer that sends the client to a host and a path. -/
def movedPermanently (location : CString) : CString :=
  statusLines ++ ("Location: https://".toList ++ (location ++ (crlf ++ crlf)))

/-- What should be sent: an answer to each request, as far as the first that does not keep the
connection alive. -/
def redirections : List HttpRequest → CString
  | [] => []
  | r :: rs => movedPermanently (r.host ++ r.path) ++
    if r.keepAlive then redirections rs else []

/-- **The requests are redirected**, however the stream of them is cut. -/
def Redirects (size : ℕ) (rs : List HttpRequest) (cuts : List ℕ) : Prop :=
  ∃ x, cuts.foldlM (Session.call size) ⟨{}, rs.flatMap HttpRequest.text⟩ = some x ∧
    x.connection.sent = redirections rs

/-! ## What a call does -/

namespace Connection

variable {c d : Connection} {size : ℕ}

theorem redirect_eq : redirect = (statusLines ++ "Location: https://".toList) ++
    ('%' :: 's' :: ('/' :: ('%' :: 's' :: (crlf ++ crlf)))) := by
  have hlocation : "Location: https://%s/%s\r\n\r\n".toList = "Location: https://".toList ++
      ('%' :: 's' :: ('/' :: ('%' :: 's' :: (crlf ++ crlf)))) := rfl
  rw [redirect, hlocation, List.append_assoc]

theorem plain_statusLines : '%' ∉ statusLines ++ "Location: https://".toList := by
  intro h
  rcases List.mem_append.mp h with h | h
  · rcases List.mem_append.mp h with h | h
    · exact absurd h (by decide)
    · rcases List.mem_append.mp h with h | h
      · exact absurd h (by decide)
      · exact absurd h (by decide)
  · exact absurd h (by decide)

/-- The answer's text. -/
theorem format_redirect (host path : CString) :
    format redirect [host, path] = some (movedPermanently (host ++ '/' :: path)) := by
  have hslash : format ('/' :: ('%' :: 's' :: (crlf ++ crlf))) [path]
      = some ('/' :: (path ++ (crlf ++ crlf))) := rfl
  rw [redirect_eq, format_append_of_plain _ _ plain_statusLines, format, hslash]
  simp only [movedPermanently, Option.map_some, List.append_assoc, List.cons_append]

/-- `response_length` is its length. -/
theorem length_movedPermanently (host path : CString) :
    (movedPermanently (host ++ '/' :: path)).length
      = host.length + path.length + (redirect.length + 1) - 5 := by
  simp only [redirect_eq, movedPermanently, List.length_append, List.length_cons]
  omega

/-- An answer is sent, or the request was bad. -/
theorem answer_cases {host path : CString} (h : c.answer host path = some d) :
    d = c.sendBadRequest.finish ∨ ∃ e : Connection, (d = e ∨ d = e.finish) ∧
      e.registered = c.registered ∧ e.sent = c.sent ++ movedPermanently (host ++ '/' :: path) := by
  unfold answer at h
  dsimp only at h
  rw [← length_movedPermanently, vsnprintf, format_redirect] at h
  by_cases hlength : (movedPermanently (host ++ '/' :: path)).length < 256
  · rw [if_pos hlength, Option.map_some, Option.map_some, List.take_take,
      Nat.min_eq_left (Nat.le_sub_one_of_lt hlength), List.take_length] at h
    refine Or.inr ?_
    obtain rfl := Option.some.inj h
    split_ifs
    · exact ⟨_, Or.inl rfl, rfl, rfl⟩
    · exact ⟨{ c with sent := c.sent ++ movedPermanently (host ++ '/' :: path) }, Or.inr rfl, rfl, rfl⟩
  · rw [if_neg hlength] at h
    exact Or.inl (Option.some.inj h).symm

/-- **What the handler does**: it finds the request bad, waits for the rest of it, or answers it. -/
theorem ioHandler_cases {readable isException timeout : Bool} {recv : Option CString}
    (h : c.ioHandler size readable isException timeout recv = some d) :
    (d = c.finish ∨ ∃ r, d = { c with request := r }.sendBadRequest.finish) ∨
      ∃ piece r, recv = some piece ∧
        r = parseRequest { c.request with raw := c.request.raw ++ piece } ∧
        ((r.end = none ∧ d = { c with request := r }) ∨
          ∃ path host t, r.path = some path ∧ r.host = some host ∧ target r.raw path host = some t ∧
            { c with request := r }.answer t.1 t.2 = some d) := by
  unfold ioHandler at h
  split_ifs at h with hspace
  · cases recv with
    | none => exact Or.inl (Or.inl (Option.some.inj h).symm)
    | some piece =>
      cases piece with
      | nil =>
        dsimp only at h
        split_ifs at h
        · exact Or.inl (Or.inr ⟨c.request, (Option.some.inj h).symm⟩)
        · exact Or.inl (Or.inl (Option.some.inj h).symm)
      | cons a piece =>
        dsimp only at h
        split_ifs at h with hend
        · split at h
          · rename_i path host hpath hhost
            obtain ⟨t, ht, hanswer⟩ := Option.bind_eq_some_iff.mp h
            exact Or.inr ⟨_, _, rfl, rfl, Or.inr ⟨path, host, t, hpath, hhost, ht, hanswer⟩⟩
          · exact Or.inl (Or.inr ⟨_, (Option.some.inj h).symm⟩)
        · exact Or.inr ⟨_, _, rfl, rfl, Or.inl ⟨Option.not_isSome_iff_eq_none.mp hend,
            (Option.some.inj h).symm⟩⟩
  · exact Or.inl (Or.inl (Option.some.inj h).symm)

/-- What was sent stays sent. -/
theorem sent_isPrefix {readable isException timeout : Bool} {recv : Option CString}
    (h : c.ioHandler size readable isException timeout recv = some d) : c.sent <+: d.sent := by
  have hbad : ∀ r, c.sent <+: ({ c with request := r } : Connection).sendBadRequest.finish.sent :=
    fun r => (List.prefix_append c.sent badRequest).trans (List.prefix_append _ badRequest)
  rcases ioHandler_cases h with (rfl | ⟨r, rfl⟩) | ⟨piece, r, -, -, ⟨-, rfl⟩ | ⟨_, _, t, -, -, -, hanswer⟩⟩
  · exact List.prefix_append c.sent badRequest
  · exact hbad r
  · exact List.prefix_rfl
  · rcases answer_cases hanswer with rfl | ⟨e, rfl | rfl, -, hsent⟩
    · exact hbad r
    · exact ⟨_, hsent.symm⟩
    · exact List.IsPrefix.trans ⟨_, hsent.symm⟩ (List.prefix_append e.sent badRequest)

/-! ### What closes a connection -/

theorem badRequest_of_finish (c : Connection) : badRequest <:+ c.finish.sent :=
  List.suffix_append c.sent badRequest

/-- **A connection that the handler closes was sent that its request was bad**, whatever it was closed
for: after an answer, too. -/
theorem badRequest_of_closed {readable isException timeout : Bool} {recv : Option CString}
    (h : c.ioHandler size readable isException timeout recv = some d) (hopen : c.registered = true)
    (hclosed : d.registered = false) : badRequest <:+ d.sent := by
  rcases ioHandler_cases h with (rfl | ⟨r, rfl⟩) | ⟨piece, r, -, -, ⟨-, rfl⟩ | ⟨_, _, t, -, -, -, hanswer⟩⟩
  · exact badRequest_of_finish c
  · exact badRequest_of_finish _
  · rw [show Connection.registered _ = c.registered from rfl, hopen] at hclosed
    cases hclosed
  · rcases answer_cases hanswer with rfl | ⟨e, rfl | rfl, hregistered, -⟩
    · exact badRequest_of_finish _
    · rw [hregistered, show Connection.registered _ = c.registered from rfl, hopen] at hclosed
      cases hclosed
    · exact badRequest_of_finish e

end Connection

/-! ## What an answer names -/

section Strings

variable {raw s t u needle : CString} {c : Char} {i j n : ℕ}

theorem getElem?_of_isPrefix (h : s <+: t) (hs : s[i]? = some c) : t[i]? = some c := by
  obtain ⟨rest, rfl⟩ := h
  rw [List.getElem?_append_left (List.getElem?_eq_some_iff.mp hs).1, hs]

theorem getElem?_stringFrom (h : (stringFrom raw i)[j]? = some c) :
    raw[i + j]? = some c ∧ c ≠ '\x00' := by
  have hdrop := getElem?_of_isPrefix (List.takeWhile_prefix _) h
  rw [List.getElem?_drop] at hdrop
  exact ⟨hdrop, fun heq => notMem_takeWhile_ne _ (heq ▸ List.mem_of_getElem? h)⟩

theorem pair_prefix_iff {a b : Char} :
    [a, b] <+: s.drop n ↔ s[n]? = some a ∧ s[n + 1]? = some b := by
  have hfirst : s[n]? = (s.drop n)[0]? := by rw [List.getElem?_drop, Nat.add_zero]
  have hsecond : s[n + 1]? = (s.drop n)[1]? := by rw [List.getElem?_drop]
  rw [hfirst, hsecond]
  match s.drop n with
  | [] => simp
  | [c] => simp [List.cons_prefix_cons]
  | c :: d :: rest => simp [List.cons_prefix_cons, eq_comm]

theorem crlf_prefix_iff : crlf <+: s.drop n ↔ s[n]? = some '\r' ∧ s[n + 1]? = some '\n' :=
  pair_prefix_iff

/-- `strstr` finds the needle, and nowhere before. -/
theorem of_strstr (h : strstr needle s = some n) :
    needle <+: s.drop n ∧ ∀ m < n, ¬ needle <+: s.drop m := by
  induction s generalizing n with
  | nil =>
    unfold strstr at h
    split_ifs at h with hneedle
    obtain rfl := Option.some.inj h
    exact ⟨hneedle ▸ List.nil_prefix, fun m hm => absurd hm (Nat.not_lt_zero m)⟩
  | cons c s ih =>
    unfold strstr at h
    split_ifs at h with hneedle
    · obtain rfl := Option.some.inj h
      exact ⟨hneedle, fun m hm => absurd hm (Nat.not_lt_zero m)⟩
    · obtain ⟨k, hk, rfl⟩ := Option.map_eq_some_iff.mp h
      obtain ⟨hfound, hfirst⟩ := ih hk
      refine ⟨hfound, fun m hm => ?_⟩
      cases m with
      | zero => exact hneedle
      | succ m => exact hfirst m (Nat.lt_of_succ_lt_succ hm)

/-- `strchr` finds the character after a text without it. -/
theorem strchr_of_isPrefix (hs : s <+: u ++ c :: t) (hu : c ∉ u) (h : strchr c s = some n) :
    n = u.length := by
  obtain ⟨hn, hfound, hfirst⟩ := List.findIdx?_eq_some_iff_getElem.mp h
  rcases Nat.lt_trichotomy n u.length with hlt | heq | hgt
  · have hmem := getElem?_of_isPrefix hs (List.getElem?_eq_getElem hn)
    rw [List.getElem?_append_left hlt, of_decide_eq_true hfound] at hmem
    exact absurd (List.mem_of_getElem? hmem) hu
  · exact heq
  · have hmem := getElem?_of_isPrefix hs (List.getElem?_eq_getElem (Nat.lt_trans hgt hn))
    rw [List.getElem?_append_right (Nat.le_refl _), Nat.sub_self] at hmem
    exact absurd (decide_eq_true (Option.some.inj hmem).symm) (hfirst _ hgt)

/-- Every carriage return begins a line end. -/
def Lines (s : CString) : Prop := ∀ i : ℕ, s[i]? = some '\r' → s[i + 1]? = some '\n'

theorem Lines.append (hs : Lines s) (ht : Lines t) : Lines (s ++ t) := by
  intro i hi
  by_cases hlt : i < s.length
  · rw [List.getElem?_append_left hlt] at hi
    have hnext := hs i hi
    rw [List.getElem?_append_left (List.getElem?_eq_some_iff.mp hnext).1, hnext]
  · rw [List.getElem?_append_right (Nat.le_of_not_lt hlt)] at hi
    rw [List.getElem?_append_right (by omega), Nat.sub_add_comm (Nat.le_of_not_lt hlt)]
    exact ht _ hi

theorem lines_line (hs : '\r' ∉ s) : Lines (s ++ crlf) := by
  intro i hi
  have hlt : ¬ i < s.length := fun hlt => by
    rw [List.getElem?_append_left hlt] at hi
    exact hs (List.mem_of_getElem? hi)
  rw [List.getElem?_append_right (Nat.le_of_not_lt hlt)] at hi
  rw [List.getElem?_append_right (by omega), Nat.sub_add_comm (Nat.le_of_not_lt hlt)]
  match i - s.length, hi with
  | 0, _ => rfl
  | 1, hi => exact absurd (Option.some.inj hi) (by decide)
  | n + 2, hi => cases hi

theorem lines_flatMap {α : Type} {f : α → CString} (h : ∀ a, Lines (f a)) (as : List α) :
    Lines (as.flatMap f) := by
  induction as with
  | nil => exact fun i hi => by cases hi
  | cons a as ih => exact (h a).append ih

/-- A string is what stands before the null. -/
theorem stringFrom_eq (hs : '\x00' ∉ s) (hchars : ∀ j < s.length, raw[i + j]? = s[j]?)
    (hend : raw[i + s.length]? = some '\x00') : stringFrom raw i = s := by
  have hdrop : raw.drop i = s ++ '\x00' :: raw.drop (i + s.length + 1) := by
    refine List.ext_getElem? fun j => ?_
    rw [List.getElem?_drop]
    rcases Nat.lt_trichotomy j s.length with hlt | rfl | hgt
    · rw [hchars j hlt, List.getElem?_append_left hlt]
    · rw [hend, List.getElem?_append_right (Nat.le_refl _), Nat.sub_self]
      rfl
    · obtain ⟨n, rfl⟩ := Nat.exists_eq_add_of_lt hgt
      rw [List.getElem?_append_right (by omega), Nat.add_assoc s.length, Nat.add_sub_cancel_left,
        List.getElem?_cons_succ, List.getElem?_drop]
      congr 1
      omega
  rw [stringFrom, hdrop, takeWhile_ne_cons hs]

/-- A string that is cut at its first line break is one line, where each carriage return begins a line
break. -/
theorem return_notMem_cut {t : List Char}
    (hlines : ∀ j d, t[j]? = some '\r' → t[j + 1]? = some d → d = '\n')
    (h : strstr crlf (stringFrom t i) = some n) :
    t[i + n]? = some '\r' ∧ '\r' ∉ stringFrom (t.set (i + n) '\x00') i := by
  obtain ⟨hfound, hfirst⟩ := of_strstr h
  obtain ⟨hreturn, hfeed⟩ := crlf_prefix_iff.mp hfound
  have hreturn' := (getElem?_stringFrom hreturn).1
  have hlength := (List.getElem?_eq_some_iff.mp hreturn').1
  refine ⟨hreturn', fun hmem => ?_⟩
  obtain ⟨j, hj⟩ := List.getElem?_of_mem hmem
  have hchar := (getElem?_stringFrom hj).1
  have hne : i + n ≠ i + j := fun heq => by
    rw [← heq, List.getElem?_set_self hlength] at hchar
    exact absurd (Option.some.inj hchar) (by decide)
  rw [List.getElem?_set_ne hne] at hchar
  have hbefore : j < n := by
    refine Nat.lt_of_le_of_ne (Nat.le_of_not_lt fun hlt => ?_) fun heq => hne (heq ▸ rfl)
    have hshort := Nat.lt_trans hlt (List.getElem?_eq_some_iff.mp hj).1
    obtain ⟨hnull, hne'⟩ := getElem?_stringFrom (List.getElem?_eq_getElem hshort)
    rw [List.getElem?_set_self hlength] at hnull
    exact hne' (Option.some.inj hnull).symm
  have hlast := (List.getElem?_eq_some_iff.mp hfeed).1
  have hone := List.getElem?_eq_getElem (Nat.lt_trans hbefore (Nat.lt_of_succ_lt hlast))
  have htwo := List.getElem?_eq_getElem (Nat.lt_trans (Nat.succ_lt_succ hbefore) hlast)
  have hone' := (getElem?_stringFrom hone).1.symm.trans hchar
  have htwo' := hlines _ _ hchar (getElem?_stringFrom htwo).1
  exact hfirst j hbefore (crlf_prefix_iff.mpr ⟨hone.trans hone', htwo.trans (congrArg some htwo')⟩)

/-- **The host that is sent is one line, and the path that of the request**, where what was received is
the beginning of a stream whose request line is `u`, the path, and more. -/
theorem target_spec {path stream rest : CString} {host : ℕ} {found : CString × CString}
    (hraw : raw <+: stream) (hlines : Lines stream)
    (hstream : stream = (u ++ [' ']) ++ (path ++ ' ' :: rest))
    (hu : '\r' ∉ u) (hpath : ' ' ∉ path ∧ '\r' ∉ path ∧ '\x00' ∉ path)
    (h : target raw (u.length + 1) host = some found) : '\r' ∉ found.1 ∧ found.2 = path := by
  obtain ⟨pathEnd, hpathEnd, h⟩ := Option.bind_eq_some_iff.mp h
  obtain ⟨hostEnd, hhostEnd, h⟩ := Option.bind_eq_some_iff.mp h
  obtain rfl := Option.some.inj h
  have hpathText : stringFrom raw (u.length + 1) <+: path ++ ' ' :: rest := by
    have hdrop := hraw.drop (u.length + 1)
    rw [hstream, List.drop_left' (by simp)] at hdrop
    exact (List.takeWhile_prefix _).trans hdrop
  obtain rfl := strchr_of_isPrefix hpathText hpath.1 hpathEnd
  generalize hk : u.length + 1 + path.length = k at hhostEnd ⊢
  have hspace : k < raw.length := by
    obtain ⟨hlength, -, -⟩ := List.findIdx?_eq_some_iff_getElem.mp hpathEnd
    have hchar := (getElem?_stringFrom (List.getElem?_eq_getElem hlength)).1
    exact hk ▸ (List.getElem?_eq_some_iff.mp hchar).1
  have hset : ∀ i, (raw.set k '\x00')[i]? = if k = i then some '\x00' else raw[i]? := fun i => by
    rw [List.getElem?_set]
    split_ifs <;> simp_all
  -- Before the null that ends the path there is no carriage return.
  have hlow : ∀ i, (raw.set k '\x00')[i]? = some '\r' → k < i ∧ raw[i]? = some '\r' := by
    intro i hi
    rw [hset] at hi
    split_ifs at hi with hik
    · exact absurd (Option.some.inj hi) (by decide)
    · refine ⟨Nat.lt_of_le_of_ne (Nat.le_of_not_lt fun hlt => ?_) hik, hi⟩
      have hmem := getElem?_of_isPrefix hraw hi
      rw [hstream, ← List.append_assoc, List.getElem?_append_left (by simp; omega)] at hmem
      simpa [hu, hpath.2.1] using List.mem_of_getElem? hmem
  have hbreaks : ∀ j d, (raw.set k '\x00')[j]? = some '\r' →
      (raw.set k '\x00')[j + 1]? = some d → d = '\n' := by
    intro j d hj hnext
    obtain ⟨hafter, hraw_j⟩ := hlow j hj
    rw [hset, if_neg (by omega)] at hnext
    have hfeed := hlines j (getElem?_of_isPrefix hraw hraw_j)
    exact Option.some.inj ((getElem?_of_isPrefix hraw hnext).symm.trans hfeed)
  obtain ⟨hreturn, hline⟩ := return_notMem_cut hbreaks hhostEnd
  have hend := (hlow _ hreturn).1
  refine ⟨hline, stringFrom_eq hpath.2.2 (fun j hj => ?_) ?_⟩
  · have hj' : u.length + 1 + j < raw.length := by omega
    have hchar := getElem?_of_isPrefix hraw (List.getElem?_eq_getElem hj')
    rw [List.getElem?_set_ne (by omega), hset, if_neg (by omega), List.getElem?_eq_getElem hj', ← hchar,
      hstream, List.getElem?_append_right (by simp), List.getElem?_append_left (by simp; omega)]
    congr 1
    simp
  · rw [List.getElem?_set_ne (by omega), hset, if_pos (by omega)]

end Strings

/-! ## The first answer -/

@[simp] theorem path_parseHeader (r : Request) (s : ℕ) (line : CString) (colonSpace lineEnd : ℕ) :
    (parseHeader r s line colonSpace lineEnd).path = r.path := by
  unfold parseHeader
  split_ifs <;> rfl

theorem parseLines_eq (s : ℕ) (r : Request) :
    (parseLines s r).raw = r.raw ∧ (parseLines s r).path = r.path := by
  fun_induction parseLines s r with
  | case1 | case2 | case3 => exact ⟨rfl, rfl⟩
  | case4 s r line hline colonSpace hcolon n hn t hlt ih =>
    exact ⟨ih.1.trans (raw_parseHeader r s line _ _), ih.2.trans (path_parseHeader r s line _ _)⟩
  | case5 s r line hline colonSpace hcolon n hn t hlt =>
    exact ⟨raw_parseHeader r s line _ _, path_parseHeader r s line _ _⟩

/-- Parsing finds the path behind the first space, or leaves it. -/
theorem parseRequest_eq (r : Request) : (parseRequest r).raw = r.raw ∧
    ((parseRequest r).path = r.path ∨
      ∃ n, strchr ' ' (stringFrom r.raw 0) = some n ∧ (parseRequest r).path = some (n + 1)) := by
  unfold parseRequest
  cases strstr crlf (stringFrom r.raw 0) with
  | none => exact ⟨rfl, Or.inl rfl⟩
  | some firstLine =>
    cases hspace : strchr ' ' (stringFrom r.raw 0) with
    | none => exact ⟨rfl, Or.inl rfl⟩
    | some n =>
      obtain ⟨hraw, hpath⟩ := parseLines_eq (firstLine + 2) { r with path := some (n + 1) }
      exact ⟨hraw, Or.inr ⟨n, rfl, hpath⟩⟩

namespace HttpRequest

variable (r : HttpRequest)

/-- What follows the path. -/
def afterPath : CString :=
  r.version ++ (crlf ++ (r.headers.flatMap (fun h => h.text ++ crlf) ++ crlf))

theorem text_eq : r.text = (r.method ++ [' ']) ++ (r.path ++ ' ' :: r.afterPath) := by
  simp [text, afterPath]

theorem lines_text : Lines r.text := by
  have hfirst : '\r' ∉ r.method ++ ' ' :: (r.path ++ ' ' :: r.version) := by
    simp [r.methodPlain.2, r.pathPlain.2.1, r.versionPlain.2]
  have hheaders := lines_flatMap (fun h : Header => lines_line h.plain) r.headers
  exact ((lines_line hfirst).append hheaders).append (lines_line (List.not_mem_nil))

end HttpRequest

/-- Nothing has been sent yet, and the path, if it was found, is the first request's. -/
structure Unanswered (r : HttpRequest) (stream : CString) (x : Session) : Prop where
  sent : x.connection.sent = []
  received : x.connection.request.raw ++ x.unread = stream
  path : ∀ p, x.connection.request.path = some p → p = r.method.length + 1

/-- The request was found bad, or the client was sent elsewhere. -/
def Misdirected (r : HttpRequest) (sent : CString) : Prop :=
  badRequest <+: sent ∨ ∃ host, '\r' ∉ host ∧ movedPermanently (host ++ '/' :: r.path) <+: sent

section Step

variable {r : HttpRequest} {stream rest : CString} {size n : ℕ} {x y : Session}

theorem sent_isPrefix_of_call (h : x.call size n = some y) :
    x.connection.sent <+: y.connection.sent := by
  unfold Session.call at h
  split_ifs at h
  · obtain ⟨d, hd, rfl⟩ := Option.map_eq_some_iff.mp h
    exact Connection.sent_isPrefix hd
  · exact Option.some.inj h ▸ List.prefix_rfl

/-- **The first answer misdirects.** -/
theorem Unanswered.call (hx : Unanswered r stream x)
    (hstream : stream = (r.method ++ [' ']) ++ (r.path ++ ' ' :: rest)) (hlines : Lines stream)
    (h : x.call size n = some y) :
    Unanswered r stream y ∨ Misdirected r y.connection.sent := by
  unfold Session.call at h
  split_ifs at h
  · obtain ⟨d, hd, rfl⟩ := Option.map_eq_some_iff.mp h
    have hbad : ∀ sent, x.connection.sent ++ badRequest <+: sent → Misdirected r sent := by
      intro sent hsent
      rw [hx.sent, List.nil_append] at hsent
      exact Or.inl hsent
    rcases Connection.ioHandler_cases hd with (rfl | ⟨t, rfl⟩) | ⟨piece, t, hpiece, ht, hd'⟩
    · exact Or.inr (hbad _ List.prefix_rfl)
    · exact Or.inr (hbad _ (List.prefix_append _ badRequest))
    obtain rfl := Option.some.inj hpiece
    obtain ⟨hraw, hpath⟩ := parseRequest_eq { x.connection.request with
      raw := x.connection.request.raw ++
        x.unread.take (min (n + 1) (x.connection.space size)) }
    rw [← ht] at hraw hpath
    have hreceived : t.raw ++ x.unread.drop (min (n + 1) (x.connection.space size)) = stream := by
      rw [hraw, List.append_assoc, List.take_append_drop, hx.received]
    have hprefix : t.raw <+: stream := ⟨_, hreceived⟩
    have hfirst : ∀ p, t.path = some p → p = r.method.length + 1 := by
      intro p hp
      rcases hpath with hpath | ⟨k, hk, hpath⟩
      · exact hx.path p (hpath.symm.trans hp)
      · have hstart : stringFrom t.raw 0 <+: r.method ++ ' ' :: (r.path ++ ' ' :: rest) := by
          have hstream' := hstream
          rw [List.append_assoc, List.singleton_append] at hstream'
          exact hstream' ▸ (List.takeWhile_prefix _).trans hprefix
        rw [← hraw] at hk
        rw [← strchr_of_isPrefix hstart r.methodPlain.1 hk]
        exact Option.some.inj (hp.symm.trans hpath)
    rcases hd' with ⟨-, rfl⟩ | ⟨path, host, found, htpath, -, hfound, hanswer⟩
    · exact Or.inl ⟨hx.sent, hreceived, hfirst⟩
    · obtain rfl := hfirst path htpath
      refine Or.inr ?_
      obtain ⟨hhost, hpathText⟩ := target_spec hprefix hlines hstream r.methodPlain.2 r.pathPlain hfound
      rw [hpathText] at hanswer
      rcases Connection.answer_cases hanswer with rfl | ⟨e, he, -, hsent⟩
      · exact hbad _ (List.prefix_append _ badRequest)
      have hmoved : e.sent = movedPermanently (found.1 ++ '/' :: r.path) :=
        hsent.trans (congrArg (· ++ movedPermanently (found.1 ++ '/' :: r.path)) hx.sent)
      refine Or.inr ⟨found.1, hhost, ?_⟩
      rcases he with rfl | rfl
      · exact hmoved ▸ List.prefix_rfl
      · exact hmoved ▸ List.prefix_append e.sent badRequest
  · exact Or.inl (Option.some.inj h ▸ hx)

/-- Every state of a run is unanswered or misdirected. -/
theorem misdirected_of_run (hstream : stream = (r.method ++ [' ']) ++ (r.path ++ ' ' :: rest))
    (hlines : Lines stream) : ∀ (cuts : List ℕ) {x y : Session},
    Unanswered r stream x ∨ Misdirected r x.connection.sent →
    cuts.foldlM (Session.call size) x = some y →
    Unanswered r stream y ∨ Misdirected r y.connection.sent := by
  intro cuts
  induction cuts with
  | nil => exact fun hx h => Option.some.inj h ▸ hx
  | cons n cuts ih =>
    intro x y hx h
    rw [List.foldlM_cons] at h
    obtain ⟨z, hz, h⟩ := Option.bind_eq_some_iff.mp h
    refine ih ?_ h
    rcases hx with hx | hbad | ⟨host, hhost, hmoved⟩
    · exact hx.call hstream hlines hz
    · exact Or.inr (Or.inl (hbad.trans (sent_isPrefix_of_call hz)))
    · exact Or.inr (Or.inr ⟨host, hhost, hmoved.trans (sent_isPrefix_of_call hz)⟩)

end Step

/-- Answers that begin one text name the same. -/
theorem location_unique {s t rest rest' : CString} (hs : '\r' ∉ s) (ht : '\r' ∉ t)
    (h : movedPermanently s ++ rest = movedPermanently t ++ rest') : s = t := by
  have hline : ∀ {u : CString}, '\r' ∉ u → ∀ more : CString,
      (u ++ (crlf ++ (crlf ++ more))).takeWhile (· ≠ '\r') = u := fun hu more =>
    takeWhile_ne_cons hu ('\n' :: (crlf ++ more))
  simp only [movedPermanently, List.append_assoc, List.append_cancel_left_eq] at h
  rw [← hline hs rest, h, hline ht rest']

theorem HttpRequest.return_notMem_host (r : HttpRequest) : '\r' ∉ r.host := by
  obtain ⟨h, -, hvalue⟩ := Option.map_eq_some_iff.mp r.hosted
  intro hmem
  exact h.plain (by simp [hvalue, hmem])

/-- **A misdirected client was not redirected.** -/
theorem Misdirected.ne_redirections {r : HttpRequest} {sent : CString} (h : Misdirected r sent)
    (rs : List HttpRequest) : sent ≠ redirections (r :: rs) := by
  rintro rfl
  rw [redirections] at h
  generalize (if r.keepAlive = true then redirections rs else []) = more at h
  rcases h with hbad | ⟨host, hhost, rest, hmoved⟩
  · have hstatus : statusLines[9]? = some '3' :=
      getElem?_of_isPrefix (List.prefix_append "HTTP/1.1 301 Moved Permanently\r\n".toList _) rfl
    have hstart : statusLines <+: movedPermanently (r.host ++ r.path) ++ more :=
      (List.prefix_append statusLines _).trans (List.prefix_append _ more)
    have hthree := getElem?_of_isPrefix hstart hstatus
    have hfour := getElem?_of_isPrefix hbad (show badRequest[9]? = some '4' from rfl)
    exact absurd (Option.some.inj (hthree.symm.trans hfour)) (by decide)
  · have hplain : '\r' ∉ host ++ '/' :: r.path := by simp [hhost, r.pathPlain.2.1]
    have hplain' : '\r' ∉ r.host ++ r.path := by simp [r.return_notMem_host, r.pathPlain.2.1]
    have hsame := location_unique hplain hplain' hmoved
    rw [← List.singleton_append, ← List.append_assoc] at hsame
    have hslash := List.append_cancel_right hsame
    exact r.hostPlain (hslash ▸ by simp)

theorem not_redirects_cons (size : ℕ) (r : HttpRequest) (rs : List HttpRequest) (cuts : List ℕ) :
    ¬ Redirects size (r :: rs) cuts := by
  rintro ⟨x, hx, hsent⟩
  have hstream : (r :: rs).flatMap HttpRequest.text
      = (r.method ++ [' ']) ++ (r.path ++ ' ' :: (r.afterPath ++ rs.flatMap HttpRequest.text)) := by
    simp [r.text_eq]
  have hstart : Unanswered r ((r :: rs).flatMap HttpRequest.text)
      ⟨{}, (r :: rs).flatMap HttpRequest.text⟩ := ⟨rfl, rfl, fun p hp => by cases hp⟩
  rcases misdirected_of_run hstream (lines_flatMap HttpRequest.lines_text (r :: rs)) cuts
    (Or.inl hstart) hx with hnone | hmisdirected
  · rw [hnone.sent] at hsent
    cases hsent
  · exact hmisdirected.ne_redirections rs hsent

/-- With nothing to read nothing happens. -/
theorem foldlM_call_of_read {size : ℕ} {x : Session} (hx : x.unread = []) :
    ∀ cuts : List ℕ, cuts.foldlM (Session.call size) x = some x := by
  intro cuts
  induction cuts with
  | nil => rfl
  | cons n cuts ih =>
    have hcall : x.call size n = some x := if_neg fun h => h.2 hx
    rw [List.foldlM_cons, hcall]
    exact ih

/-- **No request is redirected**, and nothing is sent without one, however the stream is cut. -/
theorem redirects_iff (size : ℕ) (rs : List HttpRequest) (cuts : List ℕ) :
    Redirects size rs cuts ↔ rs = [] := by
  cases rs with
  | nil => exact iff_of_true ⟨_, foldlM_call_of_read rfl cuts, rfl⟩ rfl
  | cons r rs => exact iff_of_false (not_redirects_cons size r rs cuts) (List.cons_ne_nil r rs)

/-- A request for the root of `h`. -/
def getRoot : HttpRequest where
  method := "GET".toList
  path := "/".toList
  version := "HTTP/1.1".toList
  headers := [⟨"Host".toList, " ".toList, "h".toList, by decide⟩]
  host := "h".toList
  methodPlain := by decide
  pathPlain := by decide
  versionPlain := by decide
  rooted := rfl
  hosted := rfl
  hostPlain := by decide

/-- It is sent to `https://h//`. -/
theorem getRoot_not_redirected :
    ¬ ∀ (size : ℕ) (rs : List HttpRequest) (cuts : List ℕ), Redirects size rs cuts :=
  fun h => not_redirects_cons 512 getRoot [] [26] (h 512 [getRoot] [26])

end Server
