import HtFirmware.Stun.Message
import HtFirmware.Machinery.Run

/-!
# Stun/Engine — the runs of `gm_stun`

A run is threaded through two places: the job queue of the event server, when a request is to be
sent, and the select task's table of handlers, when an answer is awaited.  All of this happens in
the select task, one handler or job at a time; `gm_stun` is called from anywhere.

What is not decided by the program is an argument of the event: whether a server's name is found,
which descriptor `socket` returns, whether the request is sent whole, and what wakes a handler up.
`Log` keeps what became of a run.
-/

open Machinery

namespace Stun

/-! ## The state -/

/-- A run (`struct stun_run`); `after` says whether there is a callback. -/
structure StunRun where
  address : ℕ := 0
  tries : ℕ := 0
  ipv6 : Bool := false
  after : Bool := false
  deriving DecidableEq

/-- What became of a run: the requests handed to `sendto`, whether an answer was accepted, what the
callback was told, and how often the run was freed. -/
structure Log where
  requests : ℕ := 0
  accepted : Bool := false
  calls : List Bool := []
  frees : ℕ := 0
  deriving DecidableEq

/-- A run is named by its allocation.  `stunSock` is `none` where `stun_sock` is negative, and
`handlers` gives the run a descriptor is registered for. -/
structure State where
  runs : ℕ → StunRun := fun _ => {}
  nextRun : ℕ := 0
  queue : List ℕ := []
  handlers : ℕ → Option ℕ := fun _ => none
  stunSock : Option ℕ := none
  openFds : List ℕ := []
  memory : Memory := fun _ => 0
  log : ℕ → Log := fun _ => {}

namespace State

/-- `close`. -/
def close (s : State) (fd : ℕ) : State := { s with openFds := s.openFds.filter (· ≠ fd) }

/-- The socket of the last request is closed, whether or not it is still registered. -/
def closeStunSock (s : State) : State :=
  match s.stunSock with
  | some fd => s.close fd
  | none => s

/-- `gm_fd_register`, with `stun_receive` as the handler. -/
def register (s : State) (fd r : ℕ) : State :=
  { s with handlers := Function.update s.handlers fd (some r) }

/-- `gm_fd_unregister`. -/
def unregister (s : State) (fd : ℕ) : State :=
  { s with handlers := Function.update s.handlers fd none }

/-- `gm_run`, with `stun_send` as the procedure. -/
def enqueue (s : State) (r : ℕ) : State := { s with queue := s.queue ++ [r] }

/-- Add to a run's log. -/
def logged (s : State) (r : ℕ) (f : Log → Log) : State :=
  { s with log := Function.update s.log r (f (s.log r)) }

theorem handlers_register (s : State) (fd r fd' : ℕ) :
    (s.register fd r).handlers fd' = if fd' = fd then some r else s.handlers fd' :=
  Function.update_apply ..

theorem handlers_unregister (s : State) (fd fd' : ℕ) :
    (s.unregister fd).handlers fd' = if fd' = fd then none else s.handlers fd' :=
  Function.update_apply ..

theorem log_logged (s : State) (r : ℕ) (f : Log → Log) (r' : ℕ) :
    (s.logged r f).log r' = if r' = r then f (s.log r) else s.log r' := Function.update_apply ..

end State

/-! ## Sending -/

/-- How a request goes. -/
structure SendOutcome where
  /-- `getaddrinfo` finds the server. -/
  found : Bool
  /-- The descriptor `socket` returns; it is one that is not open, or the call fails. -/
  socket : Option ℕ
  /-- `sendto` sends the whole request. -/
  sent : Bool

/-- `send_stun_request`, for a run, and the descriptor it returns. -/
def sendStunRequest (s : State) (r : ℕ) (o : SendOutcome) : State × Option ℕ :=
  if !o.found then (s, none)
  else
    let s := s.closeStunSock
    match o.socket.filter (· ∉ s.openFds) with
    | none => ({ s with stunSock := none }, none)
    | some fd =>
      let s := { s with stunSock := some fd, openFds := fd :: s.openFds }
      let s := s.logged r fun l => { l with requests := l.requests + 1 }
      if !o.sent then ({ s.close fd with stunSock := none }, none) else (s, some fd)

/-- `stun_send`. -/
def stunSend (s : State) (r : ℕ) (o : SendOutcome) : State :=
  match sendStunRequest s r o with
  | (s, none) => s
  | (s, some fd) => s.register fd r

/-! ## Receiving -/

/-- The descriptor is given up: unregistered and closed, and `stun_sock` reset, whichever socket it
was. -/
def State.drop (s : State) (fd : ℕ) : State :=
  { (s.unregister fd).close fd with stunSock := none }

/-- The callback is called, if there is one, and the run is freed. -/
def State.finish (s : State) (r : ℕ) (success : Bool) : State :=
  s.logged r fun l =>
    { l with
      calls := if (s.runs r).after then l.calls ++ [success] else l.calls
      frees := l.frees + 1 }

/-- Nothing can be received from a descriptor that is not open. -/
def Wakeup.at (w : Wakeup) (isOpen : Bool) : Wakeup :=
  match w with
  | .readable r isException =>
    if isOpen then w else .readable { r with receiveResult := -1 } isException
  | .exception => .exception
  | .timeout => .timeout

/-- `stun_receive`. -/
def stunReceive (s : State) (fd r : ℕ) (w : Wakeup) : State :=
  let received := attempt (fun m d => storeSockaddr m (s.runs r).address d) (s.runs r).tries s.memory
    (w.at (fd ∈ s.openFds))
  let s := { s with memory := received.1 }
  -- What `receive_stun_response` does to the descriptor.
  let s := match w with
    | .readable _ _ => s.drop fd
    | .exception => s
    | .timeout => s
  match received.2 with
  | .accepted =>
    ((s.drop fd).logged r fun l => { l with accepted := true }).finish r true
  | verdict =>
    let s := match w with
      | .readable _ false => s
      | .readable _ true => s.drop fd
      | .exception => s.drop fd
      | .timeout => s.drop fd
    match verdict with
    | .exhausted => s.finish r false
    | _ =>
      { s with runs := Function.update s.runs r { s.runs r with tries := (s.runs r).tries + 1 } }
        |>.enqueue r

/-! ## Events -/

inductive Event where
  /-- Some task calls `gm_stun`. -/
  | gmStun (ipv6 : Bool) (address : ℕ) (after mallocOk : Bool)
  /-- The event server takes a job off the queue. -/
  | job (o : SendOutcome)
  /-- The select task calls the handler of a descriptor. -/
  | wake (fd : ℕ) (w : Wakeup)
  /-- The select task looks whether a registered descriptor is still open. -/
  | sweep (fd : ℕ)

/-- `gm_stun`. -/
def gmStun (s : State) (ipv6 : Bool) (address : ℕ) (after mallocOk : Bool) : State :=
  if !mallocOk then s
  else
    { s with
      runs := Function.update s.runs s.nextRun
        { ipv6 := ipv6, address := address, tries := 0, after := after }
      nextRun := s.nextRun + 1 } |>.enqueue s.nextRun

/-- One event; a job without a queue, and a handler that is not registered, do nothing. -/
def step (s : State) : Event → State
  | .gmStun ipv6 address after mallocOk => gmStun s ipv6 address after mallocOk
  | .job o =>
    match s.queue with
    | [] => s
    | r :: queue => stunSend { s with queue := queue } r o
  | .wake fd w =>
    match s.handlers fd with
    | none => s
    | some r => stunReceive s fd r w
  | .sweep fd => if fd ∈ s.openFds then s else s.unregister fd

/-- The state after an event. -/
def next (s : State) (e : Event) : Option State := some (step s e)

end Stun
