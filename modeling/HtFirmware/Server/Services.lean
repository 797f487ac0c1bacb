import HtFirmware.Machinery.Descriptors
import HtFirmware.Machinery.Run
import Mathlib.Data.Int.Notation

/-!
# Server/Services — starting and stopping the services

The redirect server, the log server and the two sockets of the Port Control Protocol client each keep
their descriptor in a static variable, `none` where it is negative; the log server also diverts the
log to the last connection it accepted.

What the system answers is an argument: the number `socket` or `accept` returns, which is one that is
free, and whether `bind`, `listen` and the calls of `setsockopt` that are checked succeed.  They fail
for a negative descriptor.
-/

open Machinery

namespace Server

/-- What a descriptor was opened for. -/
inductive Role where
  | console
  | redirect
  | logServer
  | logConnection
  | pcpIpv4
  | pcpIpv6
  deriving DecidableEq

/-- The descriptors of the process, and what the services remember. -/
structure Services where
  fds : Descriptors Role :=
    ⟨fun fd => if fd ≤ 2 then some .console else none, fun _ => none⟩
  listener : Option ℕ := none
  server : Option ℕ := none
  ipv4Socket : Option ℕ := none
  ipv6Socket : Option ℕ := none
  logFd : ℕ := 2

/-- What the system answers to a start: the number `socket` returns, and whether `bind`, `listen`, and
the membership of the multicast group succeed. -/
structure Answers where
  number : Option ℕ
  bind : Bool
  listen : Bool
  membership : Bool

/-- `esp_err_t`, as far as it is returned. -/
inductive EspErr where
  | ok
  | fail
  deriving DecidableEq

namespace Services

/-- The number a call returns: one that is free. -/
def fresh (s : Services) (number : Option ℕ) : Option ℕ := number.filter fun fd => s.fds.Free fd

theorem owner_of_fresh {s : Services} {number : Option ℕ} {fd : ℕ} (h : s.fresh number = some fd) :
    s.fds.owner fd = none := by
  simp only [Services.fresh, Option.filter_eq_some_iff, decide_eq_true_eq] at h
  exact h.2

/-- `gm_fd_unregister`, then `close`. -/
def drop (s : Services) (fd : ℕ) : Services := { s with fds := (s.fds.unregister fd).closed fd }

/-! ## The redirect server -/

/-- `gm_start_redirect_to_https`. -/
def gmStartRedirectToHttps (s : Services) (a : Answers) : Services × EspErr :=
  if s.listener.isSome then (s, .ok)
  else
    match s.fresh a.number with
    | none => (s, .fail)
    | some fd =>
      let s := { s with fds := s.fds.opened fd .redirect, listener := some fd }
      if !a.bind then (s, .fail)
      else if !a.listen then (s, .fail)
      else ({ s with fds := s.fds.register fd .redirect }, .ok)

/-- `gm_stop_redirect_to_https`. -/
def gmStopRedirectToHttps (s : Services) : Services :=
  match s.listener with
  | none => s
  | some fd => { s.drop fd with listener := none }

/-! ## The log server -/

/-- `logging_connection_closed`; closing the file closes the descriptor. -/
def loggingConnectionClosed (s : Services) : Services :=
  if s.logFd = 2 then s else { s.drop s.logFd with logFd := 2 }

/-- `gm_log_server_start`.  A descriptor of zero counts as none, and where `listen` fails the socket is
closed and remembered. -/
def gmLogServerStart (s : Services) (a : Answers) : Services :=
  if s.server.any fun fd => 0 < fd then s
  else
    match s.fresh a.number with
    | none => { s with server := none }
    | some fd =>
      let s := { s with fds := s.fds.opened fd .logServer, server := some fd }
      if !a.bind then s
      else if !a.listen then { s with fds := s.fds.closed fd }
      else { s with fds := s.fds.register fd .logServer }

/-- `gm_log_server_stop`. -/
def gmLogServerStop (s : Services) : Services :=
  let s := s.loggingConnectionClosed
  match s.server with
  | none => s
  | some fd => { s.drop fd with server := none }

/-- `accept_handler`, `number` being what `accept` returns: it fails unless the socket is open. -/
def acceptHandler (s : Services) (sock : ℕ) (readable : Bool) (number : Option ℕ) : Services :=
  if readable then
    if s.fds.Free sock then s
    else
      match s.fresh number with
      | none => s
      | some connection =>
        { s with
          fds := (s.fds.opened connection .logConnection).register connection .logConnection
          logFd := connection }
  else s

/-- `socket_event_handler`, `received` being what `recv` returns.  The descriptor it is called for is
only read from. -/
def socketEventHandler (s : Services) (readable isException : Bool) (received : ℤ) : Services :=
  if isException then s.loggingConnectionClosed
  else if readable then
    if received = 0 then s.loggingConnectionClosed else s
  else s

/-! ## The Port Control Protocol client -/

/-- `gm_pcp_start_ipv4`. -/
def gmPcpStartIpv4 (s : Services) (a : Answers) : Services :=
  if s.ipv4Socket.isSome then s
  else
    match s.fresh a.number with
    | none => s
    | some fd =>
      let s := { s with fds := s.fds.opened fd .pcpIpv4, ipv4Socket := some fd }
      if !a.bind then s
      else if !a.membership then s
      else { s with fds := s.fds.register fd .pcpIpv4 }

/-- `gm_pcp_start_ipv6`; the interface may have no address that matches the router's. -/
def gmPcpStartIpv6 (s : Services) (matchingAddress : Bool) (a : Answers) : Services :=
  if s.ipv6Socket.isSome then s
  else if !matchingAddress then s
  else
    match s.fresh a.number with
    | none => s
    | some fd =>
      let s := { s with fds := s.fds.opened fd .pcpIpv6, ipv6Socket := some fd }
      if !a.bind then s
      else if !a.membership then s
      else { s with fds := s.fds.register fd .pcpIpv6 }

/-- `gm_pcp_stop`, but for the mappings. -/
def gmPcpStop (s : Services) : Services :=
  let s := match s.ipv4Socket with
    | none => s
    | some fd => { s.drop fd with ipv4Socket := none }
  match s.ipv6Socket with
  | none => s
  | some fd => { s.drop fd with ipv6Socket := none }

end Services

end Server
