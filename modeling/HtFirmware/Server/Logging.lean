import HtFirmware.Machinery.Diversion
import HtFirmware.Server.Connections

/-!
# Server/Logging — where what is printed gets to

    gm_printf ──▸ log_file_pointer ──┬──▸ console
                                     ╰──▸ descriptor ──▸ client

Everything is printed through one pointer to a file, which the log server sets to a connection it
accepts, and back to the console when that is closed.  A file writes to the number of a descriptor,
whoever has that number.

The services give numbers back and get them again all the time, but what is printed gets to the console
or to a client that is still connected (`Routed`): it is a stream that the clients divert one after the
other (`Diversion`).  To the services it makes no difference (`printing_apart`).
-/

open Machinery

namespace Server

/-! ## The state -/

/-- The services; the file that is printed to, by its descriptor, the console's being none; which client
the connection of a descriptor is to; what the console and the clients got; what was written to
descriptors that are no client's; and what happened. -/
structure Logging where
  process : Process := {}
  pointer : Option ℕ := none
  client : ℕ → Option ℕ := fun _ => none
  clients : ℕ := 0
  console : CString := []
  sent : ℕ → CString := fun _ => []
  stray : List CString := []
  history : List (Diverting Char) := []

namespace Logging

variable (l : Logging)

/-- The services go on.  A descriptor that was closed is nobody's connection. -/
def serve (p : Process) : Logging :=
  { l with
    process := p
    client := fun fd => if p.services.fds.owner fd = some .logConnection then l.client fd else none }

def happened (e : Diverting Char) : Logging := { l with history := l.history ++ [e] }

/-! ## Printing -/

/-- `gm_vprintf`, which flushes what it prints. -/
def gmVprintf (text : CString) : Logging :=
  let l := l.happened (.written text)
  match l.pointer with
  | none => { l with console := l.console ++ text }
  | some fd =>
    match l.client fd with
    | none => { l with stray := l.stray ++ [text] }
    | some k => { l with sent := Function.update l.sent k (l.sent k ++ text) }

/-- `gm_printf`. -/
def gmPrintf (text : CString) : Logging := l.gmVprintf text

/-- `fprintf` to `stderr`. -/
def stderr (text : CString) : Logging :=
  { l.happened (.aside text) with console := l.console ++ text }

/-- `gm_fail`, but for the backtrace. -/
def gmFail (text : CString) : Logging := (l.gmVprintf text).stderr "\n".toList

/-- `gm_fail_with_os_error`, but for the backtrace; `error` is what `strerror_r` has for the error. -/
def gmFailWithOsError (text error : CString) : Logging :=
  (l.gmVprintf text).stderr (": ".toList ++ error ++ "\n".toList)

/-! ## The log server -/

/-- `logging_connection_closed`.  The descriptor that is unregistered is `log_fd`, and the one that is
closed the file's. -/
def loggingConnectionClosed : Logging :=
  let s := l.process.services
  if s.logFd = 2 then l
  else
    let fds := (s.fds.unregister s.logFd).closed (l.pointer.getD 2)
    let l := l.serve (l.process.serve { s with fds := fds, logFd := 2 })
    { l.happened .restored with pointer := none }.gmPrintf "Now logging to the console.\n".toList

/-- `socket_event_handler`. -/
def socketEventHandler (readable isException : Bool) (received : ℤ) : Logging :=
  if isException then l.loggingConnectionClosed
  else if readable then
    if received = 0 then l.loggingConnectionClosed else l
  else l

/-- The log goes to a connection that was accepted, which is registered. -/
def connected (connection : ℕ) : Logging :=
  let s := l.process.services
  let fds := (s.fds.opened connection .logConnection).register connection .logConnection
  let l := (l.serve (l.process.serve { s with fds := fds, logFd := connection })).happened .diverted
  { l with
    pointer := some connection
    client := Function.update l.client connection (some l.clients)
    clients := l.clients + 1 }

/-- `accept_handler`.  What a failing `accept` and an exception print is printed by itself. -/
def acceptHandler (sock : ℕ) (readable : Bool) (number : Option ℕ) : Logging :=
  if readable then
    if l.process.services.fds.Free sock then l
    else
      match l.process.services.fresh number with
      | none => l
      | some connection =>
        ((l.gmPrintf "Now logging to the telnet client rather than the console.\n".toList).connected
          connection).gmPrintf "Logging to the telnet client initiated.\n".toList
  else l

/-- `gm_log_server_stop`. -/
def gmLogServerStop : Logging :=
  let l := l.loggingConnectionClosed
  let s := l.process.services
  match s.server with
  | none => l
  | some fd => l.serve (l.process.serve { s.drop fd with server := none })

end Logging

/-! ## Events -/

/-- Something is printed, or the services have an event. -/
inductive LoggingEvent where
  | gmPrintf (text : CString)
  | gmFail (text : CString)
  | gmFailWithOsError (text error : CString)
  | process (e : ProcessEvent)

def LoggingEvent.Listens : LoggingEvent → Prop
  | .process e => e.Listens
  | _ => True

namespace Logging

/-- One event of the services. -/
def processStep (size : RawSize) (l : Logging) : ProcessEvent → Except ProcessFault Logging
  | .call .gmLogServerStop | .log .stop => .ok l.gmLogServerStop
  | .log (.accept sock readable number) =>
    if l.process.services.fds.registered sock = some .logServer then
      .ok (l.acceptHandler sock readable number)
    else .ok l
  | .log (.event fd readable isException received) =>
    if l.process.services.fds.registered fd = some .logConnection then
      .ok (l.socketEventHandler readable isException received)
    else .ok l
  | e => (l.process.step size e).map l.serve

def step (size : RawSize) (l : Logging) : LoggingEvent → Except ProcessFault Logging
  | .gmPrintf text => .ok (l.gmPrintf text)
  | .gmFail text => .ok (l.gmFail text)
  | .gmFailWithOsError text error => .ok (l.gmFailWithOsError text error)
  | .process e => l.processStep size e

def next (size : RawSize) (l : Logging) (e : LoggingEvent) : Option Logging := (l.step size e).toOption

/-! ## A stream that is diverted -/

/-- What the console and the clients got, and the client that is printed to. -/
def output (l : Logging) : Diversion Char := ⟨l.console, l.sent, l.clients, l.pointer.bind l.client⟩

end Logging

/-- **What is printed gets where it should**: the clients divert it one after the other; nothing is
written to a descriptor that is no client's; and the file that is printed to is the console's, or that of
a connection that is open. -/
structure Routed (l : Logging) : Prop where
  output : l.output = Diversion.after l.history
  stray : l.stray = []
  pointer : ∀ fd, l.pointer = some fd → l.process.services.fds.owner fd = some .logConnection
  portioned : Diversion.Portioned l.history l.output

/-! ## What the services do to the log -/

/-- The console stays open, and the log where it is. -/
structure Quiet (s t : Services) : Prop where
  console : s.fds.owner 2 = some .console → t.fds.owner 2 = some .console
  log : t.logFd = s.logFd

section Services

variable {s t : Services} {r : Role} {fd : ℕ}

theorem Quiet.refl (s : Services) : Quiet s s := ⟨id, rfl⟩

/-- What was free was not the console's. -/
theorem console_opened (hfree : s.fds.owner fd = none) (howner : t.fds.owner = (s.fds.opened fd r).owner)
    (h : s.fds.owner 2 = some .console) : t.fds.owner 2 = some .console := by
  rw [howner, Descriptors.owner_opened, if_neg (Ne.symm ?_)]
  · exact h
  · rintro rfl
    rw [hfree] at h
    cases h

/-- Nor was what another service had. -/
theorem console_closed (hfd : s.fds.owner fd = some r) (hr : r ≠ .console)
    (howner : t.fds.owner = ((s.fds.unregister fd).closed fd).owner)
    (h : s.fds.owner 2 = some .console) : t.fds.owner 2 = some .console := by
  rw [howner, Descriptors.owner_closed, if_neg (Ne.symm ?_)]
  · exact h
  · rintro rfl
    exact hr (Option.some.inj (hfd.symm.trans h))

theorem quiet_gmLogServerStart {a : Answers} (ha : a.bind → a.listen) : Quiet s (s.gmLogServerStart a) := by
  unfold Services.gmLogServerStart
  split
  · exact .refl s
  · cases hfresh : s.fresh a.number with
    | none => exact ⟨id, rfl⟩
    | some fd =>
      have hfree := Services.owner_of_fresh hfresh
      dsimp only
      split_ifs with hbind hlisten
      · exact ⟨console_opened hfree rfl, rfl⟩
      · exact absurd (ha (by simpa using hbind)) (by simpa using hlisten)
      · exact ⟨console_opened hfree rfl, rfl⟩

/-- **Every call but the log server's stop leaves the log alone.** -/
theorem Owned.quiet_call (h : Owned s) {c : ServiceCall} (hc : (ProcessEvent.call c).Listens)
    (hstop : c ≠ .gmLogServerStop) : Quiet s (s.call c) := by
  cases c with
  | gmLogServerStop => exact absurd rfl hstop
  | gmLogServerStart a => exact quiet_gmLogServerStart hc
  | gmStartRedirectToHttps a =>
    unfold Services.call Services.gmStartRedirectToHttps
    dsimp only
    split
    · exact .refl s
    · cases hfresh : s.fresh a.number with
      | none => exact .refl s
      | some fd =>
        have hfree := Services.owner_of_fresh hfresh
        dsimp only
        split_ifs <;> exact ⟨console_opened hfree rfl, rfl⟩
  | gmStopRedirectToHttps =>
    unfold Services.call Services.gmStopRedirectToHttps
    dsimp only
    cases hlistener : s.listener with
    | none => exact .refl s
    | some fd => exact ⟨console_closed (h.names .redirect fd hlistener) (by decide) rfl, rfl⟩
  | gmPcpStartIpv4 a =>
    unfold Services.call Services.gmPcpStartIpv4
    dsimp only
    split
    · exact .refl s
    · cases hfresh : s.fresh a.number with
      | none => exact .refl s
      | some fd =>
        have hfree := Services.owner_of_fresh hfresh
        dsimp only
        split_ifs <;> exact ⟨console_opened hfree rfl, rfl⟩
  | gmPcpStartIpv6 matchingAddress a =>
    unfold Services.call Services.gmPcpStartIpv6
    dsimp only
    split
    · exact .refl s
    · split
      · exact .refl s
      · cases hfresh : s.fresh a.number with
        | none => exact .refl s
        | some fd =>
          have hfree := Services.owner_of_fresh hfresh
          dsimp only
          split_ifs <;> exact ⟨console_opened hfree rfl, rfl⟩
  | gmPcpStop =>
    unfold Services.call Services.gmPcpStop
    dsimp only
    cases hipv4 : s.ipv4Socket with
    | none =>
      dsimp only
      cases hipv6 : s.ipv6Socket with
      | none => exact .refl s
      | some i => exact ⟨console_closed (h.names .pcpIpv6 i hipv6) (by decide) rfl, rfl⟩
    | some fd =>
      have howner := h.names .pcpIpv4 fd hipv4
      dsimp only [Services.drop]
      cases hipv6 : s.ipv6Socket with
      | none => exact ⟨console_closed howner (by decide) rfl, rfl⟩
      | some i =>
        have howner' := h.names .pcpIpv6 i hipv6
        have hne : i ≠ fd := by
          rintro rfl
          cases howner.symm.trans howner'
        have hopen : (s.drop fd).fds.owner i = some .pcpIpv6 := by simpa [Services.drop, hne] using howner'
        refine ⟨fun hconsole => ?_, rfl⟩
        have hfirst : (s.drop fd).fds.owner 2 = some .console :=
          console_closed howner (by decide) rfl hconsole
        exact console_closed hopen (by decide) rfl hfirst

end Services

section Redirect

variable {size : RawSize} {p q : Process} {fd b : ℕ}

theorem quiet_acceptHandler (sock : ℕ) (readable isException : Bool) (number block : Option ℕ) :
    Quiet p.services (p.acceptHandler size sock readable isException number block).services := by
  unfold Process.acceptHandler
  split
  · exact .refl _
  split
  · exact .refl _
  cases hfresh : p.services.fresh number with
  | none => exact .refl _
  | some connection =>
    have hfree := Services.owner_of_fresh hfresh
    dsimp only
    split <;> exact ⟨console_opened (r := .redirect) hfree rfl, rfl⟩

theorem quiet_ioHandler (howner : p.services.fds.owner fd = some .redirect) {e : RawEvent}
    (hq : p.ioHandler size fd b e = .ok q) : Quiet p.services q.services := by
  unfold Process.ioHandler at hq
  cases hblock : p.heap b with
  | none =>
    rw [hblock] at hq
    cases hq
  | some block =>
    simp only [hblock] at hq
    cases hcall : block.connection.ioHandler size e with
    | error fault =>
      simp only [hcall] at hq
      cases hq
    | ok c =>
      simp only [hcall] at hq
      split_ifs at hq
      · exact Except.ok.inj hq ▸ .refl _
      · exact Except.ok.inj hq ▸ ⟨console_closed howner (by decide) rfl, rfl⟩

/-- **The redirector leaves the log alone.** -/
theorem Hosts.quiet_redirect (h : Hosts size p) {number block : Option ℕ} {e : RawEvent}
    (hq : p.step size (.redirect fd number block e) = .ok q) : Quiet p.services q.services := by
  unfold Process.step at hq
  dsimp only at hq
  split_ifs at hq
  · cases hdata : p.data fd with
    | none =>
      rw [hdata] at hq
      exact Except.ok.inj hq ▸ quiet_acceptHandler ..
    | some b =>
      rw [hdata] at hq
      exact quiet_ioHandler (h.described fd b hdata).1 hq
  · exact Except.ok.inj hq ▸ .refl _

end Redirect

/-! ## What every run keeps -/

/-- **What every run keeps**: the file is that of the descriptor the log is on, whose connection is to a
client, or the console's; and what the console and the clients got is what they should. -/
structure Diverted (size : RawSize) (l : Logging) : Prop where
  hosts : Hosts size l.process
  console : l.process.services.fds.owner 2 = some .console
  pointer : l.pointer = if l.process.services.logFd = 2 then none else some l.process.services.logFd
  client : l.process.services.logFd ≠ 2 → (l.client l.process.services.logFd).isSome
  output : l.output = Diversion.after l.history
  stray : l.stray = []

theorem diverted_init (size : RawSize) : Diverted size {} where
  hosts := hosts_init size
  console := rfl
  pointer := rfl
  client h := absurd rfl h
  output := rfl
  stray := rfl

section Diverted

variable {size : RawSize} {l t : Logging} {p : Process} {fd k : ℕ}

/-! ### Printing -/

theorem gmVprintf_of_none (h : l.pointer = none) (text : CString) :
    l.gmVprintf text = { l.happened (.written text) with console := l.console ++ text } := by
  unfold Logging.gmVprintf Logging.happened
  simp only [h]

theorem gmVprintf_of_some (h : l.pointer = some fd) (hclient : l.client fd = some k) (text : CString) :
    l.gmVprintf text = { l.happened (.written text) with
      sent := Function.update l.sent k (l.sent k ++ text) } := by
  unfold Logging.gmVprintf Logging.happened
  simp only [h, hclient]

@[simp] theorem process_gmVprintf (l : Logging) (text : CString) : (l.gmVprintf text).process = l.process := by
  unfold Logging.gmVprintf Logging.happened
  dsimp only
  split
  · rfl
  · split <;> rfl

theorem Diverted.gmVprintf (h : Diverted size l) (text : CString) : Diverted size (l.gmVprintf text) := by
  have hafter : (Diversion.after l.history).write text = Diversion.after (l.history ++ [.written text]) :=
    (Diversion.after_concat l.history (.written text)).symm
  have hpointer := h.pointer
  split_ifs at hpointer with hlog
  · rw [gmVprintf_of_none hpointer]
    refine ⟨h.hosts, h.console, h.pointer, h.client, ?_, h.stray⟩
    have hcurrent : l.output.current = none := congrArg (Option.bind · l.client) hpointer
    change _ = Diversion.after (l.history ++ [.written text])
    rw [← hafter, ← h.output, Diversion.write_of_none hcurrent]
    rfl
  · obtain ⟨k, hk⟩ := Option.isSome_iff_exists.mp (h.client hlog)
    rw [gmVprintf_of_some hpointer hk]
    refine ⟨h.hosts, h.console, h.pointer, h.client, ?_, h.stray⟩
    have hcurrent : l.output.current = some k := (congrArg (Option.bind · l.client) hpointer).trans hk
    change _ = Diversion.after (l.history ++ [.written text])
    rw [← hafter, ← h.output, Diversion.write_of_some hcurrent]
    rfl

theorem Diverted.stderr (h : Diverted size l) (text : CString) : Diverted size (l.stderr text) := by
  refine ⟨h.hosts, h.console, h.pointer, h.client, ?_, h.stray⟩
  change _ = Diversion.after (l.history ++ [.aside text])
  rw [Diversion.after_concat, ← h.output]
  rfl

/-! ### The services -/

/-- Services that leave the log alone go on. -/
theorem Diverted.serve (h : Diverted size l) (hp : Hosts size p)
    (hquiet : Quiet l.process.services p.services) : Diverted size (l.serve p) := by
  have hclient : p.services.logFd ≠ 2 → (l.serve p).client p.services.logFd = l.client p.services.logFd :=
    fun hlog => if_pos (hp.owned.log.resolve_left hlog)
  have hlog := hquiet.log
  refine ⟨hp, hquiet.console h.console, hlog ▸ h.pointer, fun hne => ?_, ?_, h.stray⟩
  · change ((l.serve p).client p.services.logFd).isSome
    rw [hclient hne, hlog]
    exact h.client (hlog ▸ hne)
  · have hcurrent : l.pointer.bind (l.serve p).client = l.pointer.bind l.client := by
      have hpointer := h.pointer
      split_ifs at hpointer with hconsole
      · rw [hpointer]
        rfl
      · rw [hpointer, ← hlog]
        exact hclient (hlog ▸ hconsole)
    refine Eq.trans ?_ h.output
    unfold Logging.output
    exact congrArg (Diversion.mk l.console l.sent l.clients) hcurrent

theorem logFd_loggingConnectionClosed (l : Logging) :
    l.loggingConnectionClosed.process.services.logFd = 2 := by
  unfold Logging.loggingConnectionClosed
  dsimp only
  split_ifs with hlog
  · exact hlog
  · unfold Logging.gmPrintf
    rw [process_gmVprintf]
    rfl

/-- **The connection the log is on is closed**, and the console is printed to. -/
theorem Diverted.loggingConnectionClosed (h : Diverted size l) : Diverted size l.loggingConnectionClosed := by
  unfold Logging.loggingConnectionClosed
  dsimp only
  split_ifs with hlog
  · exact h
  · have hgood := h.hosts.owned.loggingConnectionClosed
    have hpointer : l.pointer = some l.process.services.logFd := by rw [h.pointer, if_neg hlog]
    unfold Services.loggingConnectionClosed at hgood
    rw [if_neg hlog] at hgood
    rw [hpointer, Option.getD_some]
    refine Diverted.gmVprintf ?_ _
    refine ⟨h.hosts.serve hgood, ?_, rfl, fun hne => absurd rfl hne, ?_, h.stray⟩
    · exact console_closed (h.hosts.owned.log.resolve_left hlog) (by decide) rfl h.console
    · change _ = Diversion.after (l.history ++ [.restored])
      rw [Diversion.after_concat, ← h.output]
      rfl

theorem Diverted.socketEventHandler (h : Diverted size l) (readable isException : Bool) (received : ℤ) :
    Diverted size (l.socketEventHandler readable isException received) := by
  unfold Logging.socketEventHandler
  split_ifs
  exacts [h.loggingConnectionClosed, h.loggingConnectionClosed, h, h]

/-- **A client connects**, and is printed to. -/
theorem Diverted.connected (h : Diverted size l) {connection : ℕ}
    (hfree : l.process.services.fds.owner connection = none)
    (hhosts : Hosts size (l.connected connection).process) : Diverted size (l.connected connection) := by
  have hne : connection ≠ 2 := by
    rintro rfl
    cases h.console.symm.trans hfree
  refine ⟨hhosts, ?_, (if_neg hne).symm, fun _ => ?_, ?_, h.stray⟩
  · exact console_opened (r := .logConnection) hfree rfl h.console
  · exact Option.isSome_of_eq_some (Function.update_self ..)
  · change _ = Diversion.after (l.history ++ [.diverted])
    rw [Diversion.after_concat, ← h.output]
    exact congrArg (Diversion.mk l.console l.sent (l.clients + 1)) (Function.update_self ..)

theorem Diverted.acceptHandler (h : Diverted size l) (sock : ℕ) (readable : Bool) (number : Option ℕ) :
    Diverted size (l.acceptHandler sock readable number) := by
  have hgood := h.hosts.owned.acceptHandler sock readable number
  unfold Logging.acceptHandler
  unfold Services.acceptHandler at hgood
  split
  · rename_i hreadable
    rw [if_pos hreadable] at hgood
    split
    · exact h
    · rename_i hopen
      rw [if_neg hopen] at hgood
      cases hfresh : l.process.services.fresh number with
      | none => exact h
      | some connection =>
        simp only [hfresh] at hgood
        dsimp only [Logging.gmPrintf]
        refine ((h.gmVprintf _).connected ?_ ?_).gmVprintf _
        · rw [process_gmVprintf]
          exact Services.owner_of_fresh hfresh
        · unfold Logging.connected
          dsimp only
          rw [process_gmVprintf]
          exact h.hosts.serve hgood
  · exact h

theorem Diverted.gmLogServerStop (h : Diverted size l) : Diverted size l.gmLogServerStop := by
  have hclosed := h.loggingConnectionClosed
  have hlog := logFd_loggingConnectionClosed l
  unfold Logging.gmLogServerStop
  dsimp only
  generalize l.loggingConnectionClosed = m at hclosed hlog ⊢
  have hgood := hclosed.hosts.owned.gmLogServerStop
  have hsame : m.process.services.loggingConnectionClosed = m.process.services := if_pos hlog
  unfold Services.gmLogServerStop at hgood
  rw [hsame] at hgood
  cases hserver : m.process.services.server with
  | none => exact hclosed
  | some fd =>
    simp only [hserver] at hgood
    refine hclosed.serve (hclosed.hosts.serve hgood) ⟨?_, rfl⟩
    exact console_closed (hclosed.hosts.owned.names .logServer fd hserver) (by decide) rfl

/-! ### Events -/

/-- An event of the services that the log server has no part in. -/
theorem Diverted.mapServe (h : Diverted size l) {e : ProcessEvent} (he : e.Listens)
    (hquiet : ∀ p, l.process.step size e = .ok p → Quiet l.process.services p.services)
    (ht : (l.process.step size e).map l.serve = .ok t) : Diverted size t := by
  obtain ⟨p, hp, rfl⟩ := map_ok ht
  have hends := h.hosts.ends_step he
  rw [hp] at hends
  cases hends with
  | ok hhosts => exact h.serve hhosts (hquiet p hp)

theorem Diverted.processStep (h : Diverted size l) {e : ProcessEvent} (he : e.Listens)
    (ht : l.processStep size e = .ok t) : Diverted size t := by
  cases e with
  | call c =>
    by_cases hstop : c = .gmLogServerStop
    · subst hstop
      exact Except.ok.inj ht ▸ h.gmLogServerStop
    · have hstep : l.processStep size (.call c) = (l.process.step size (.call c)).map l.serve := by
        cases c with
        | gmLogServerStop => exact absurd rfl hstop
        | _ => rfl
      refine h.mapServe he (fun p hp => ?_) (hstep ▸ ht)
      exact Except.ok.inj hp ▸ h.hosts.owned.quiet_call he hstop
  | log e =>
    cases e with
    | start a =>
      refine h.mapServe he (fun p hp => ?_) ht
      exact Except.ok.inj hp ▸ quiet_gmLogServerStart he
    | stop => exact Except.ok.inj ht ▸ h.gmLogServerStop
    | accept sock readable number =>
      unfold Logging.processStep at ht
      dsimp only at ht
      split_ifs at ht
      · exact Except.ok.inj ht ▸ h.acceptHandler sock readable number
      · exact Except.ok.inj ht ▸ h
    | event fd readable isException received =>
      unfold Logging.processStep at ht
      dsimp only at ht
      split_ifs at ht
      · exact Except.ok.inj ht ▸ h.socketEventHandler readable isException received
      · exact Except.ok.inj ht ▸ h
  | redirect fd number block e => exact h.mapServe he (fun p hp => h.hosts.quiet_redirect hp) ht

/-! ### The services do what they did -/

/-- Services that serve twice come to what they serve last. -/
theorem Hosts.serve_serve (h : Hosts size p) {s : Services} (hspares : Spares p.services s) (t : Services) :
    (p.serve s).serve t = p.serve t := by
  change { p.serve t with
    data := fun fd => if t.fds.registered fd = some Role.redirect then (p.serve s).data fd else none } = _
  rw [h.data_serve hspares]
  rfl

theorem Hosts.serve_self (h : Hosts size p) : p.serve p.services = p := by
  have hdata := h.data_serve (.refl _)
  unfold Process.serve at hdata ⊢
  dsimp only at hdata ⊢
  rw [hdata]

theorem Diverted.process_loggingConnectionClosed (h : Diverted size l) :
    l.loggingConnectionClosed.process = l.process.serve l.process.services.loggingConnectionClosed := by
  unfold Logging.loggingConnectionClosed Services.loggingConnectionClosed
  dsimp only
  split_ifs with hlog
  · exact h.hosts.serve_self.symm
  · rw [h.pointer, if_neg hlog]
    exact process_gmVprintf ..

theorem Diverted.process_socketEventHandler (h : Diverted size l) (readable isException : Bool)
    (received : ℤ) : (l.socketEventHandler readable isException received).process
      = l.process.serve (l.process.services.socketEventHandler readable isException received) := by
  unfold Logging.socketEventHandler Services.socketEventHandler
  split_ifs
  · exact h.process_loggingConnectionClosed
  · exact h.process_loggingConnectionClosed
  · exact h.hosts.serve_self.symm
  · exact h.hosts.serve_self.symm

theorem Diverted.process_acceptHandler (h : Diverted size l) (sock : ℕ) (readable : Bool)
    (number : Option ℕ) : (l.acceptHandler sock readable number).process
      = l.process.serve (l.process.services.acceptHandler sock readable number) := by
  unfold Logging.acceptHandler Services.acceptHandler
  split_ifs
  · exact h.hosts.serve_self.symm
  · cases l.process.services.fresh number with
    | none => exact h.hosts.serve_self.symm
    | some connection =>
      dsimp only [Logging.gmPrintf]
      rw [process_gmVprintf]
      unfold Logging.connected
      dsimp only
      rw [process_gmVprintf]
      rfl
  · exact h.hosts.serve_self.symm

theorem Diverted.process_gmLogServerStop (h : Diverted size l) :
    l.gmLogServerStop.process = l.process.serve l.process.services.gmLogServerStop := by
  have hclosed := h.process_loggingConnectionClosed
  unfold Logging.gmLogServerStop Services.gmLogServerStop
  dsimp only
  rw [hclosed]
  change Logging.process (match l.process.services.loggingConnectionClosed.server with
    | none => _
    | some fd => _) = _
  cases l.process.services.loggingConnectionClosed.server with
  | none => exact hclosed
  | some fd => exact h.hosts.serve_serve h.hosts.owned.loggingConnectionClosed.2 _

/-- **Printing apart, the services have the events they would have without it.** -/
theorem Diverted.process_processStep (h : Diverted size l) (e : ProcessEvent) :
    (l.processStep size e).map Logging.process = l.process.step size e := by
  have hserve : ∀ e, l.processStep size e = (l.process.step size e).map l.serve →
      (l.processStep size e).map Logging.process = l.process.step size e := by
    intro e he
    rw [he]
    cases l.process.step size e <;> rfl
  cases e with
  | call c =>
    cases c with
    | gmLogServerStop => exact congrArg Except.ok h.process_gmLogServerStop
    | _ => exact hserve _ rfl
  | log e =>
    cases e with
    | start a => exact hserve _ rfl
    | stop => exact congrArg Except.ok h.process_gmLogServerStop
    | accept sock readable number =>
      unfold Logging.processStep Process.step Services.logNext
      dsimp only
      split_ifs
      · exact congrArg Except.ok (h.process_acceptHandler sock readable number)
      · exact congrArg Except.ok h.hosts.serve_self.symm
    | event fd readable isException received =>
      unfold Logging.processStep Process.step Services.logNext
      dsimp only
      split_ifs
      · exact congrArg Except.ok (h.process_socketEventHandler readable isException received)
      · exact congrArg Except.ok h.hosts.serve_self.symm
  | redirect fd number block e => exact hserve _ rfl

/-- **Every event keeps it.** -/
theorem Diverted.step (h : Diverted size l) {e : LoggingEvent} (he : e.Listens)
    (ht : l.step size e = .ok t) : Diverted size t := by
  cases e with
  | gmPrintf text => exact Except.ok.inj ht ▸ h.gmVprintf text
  | gmFail text => exact Except.ok.inj ht ▸ (h.gmVprintf text).stderr _
  | gmFailWithOsError text error => exact Except.ok.inj ht ▸ (h.gmVprintf text).stderr _
  | process e => exact h.processStep he ht

theorem Diverted.routed (h : Diverted size l) : Routed l where
  output := h.output
  stray := h.stray
  pointer fd hfd := by
    have hpointer := h.pointer
    split_ifs at hpointer with hlog
    · cases hpointer.symm.trans hfd
    · obtain rfl := Option.some.inj (hpointer.symm.trans hfd)
      exact h.hosts.owned.log.resolve_left hlog
  portioned := h.output ▸ Diversion.portioned_after l.history

end Diverted

/-! ## Runs -/

/-- A second client takes the log over, and the first one leaves. -/
def takenOver : List LoggingEvent :=
  [.process (.call (.gmLogServerStart ⟨some 5, true, true, true⟩)),
    .gmPrintf "one".toList,
    .process (.log (.accept 5 true (some 6))),
    .gmPrintf "two".toList,
    .process (.log (.accept 5 true (some 7))),
    .gmFail "three".toList,
    .process (.log (.event 6 true false 0)),
    .process (.call (.gmStartRedirectToHttps ⟨some 7, true, true, true⟩)),
    .gmPrintf "four".toList]

/-- What an event is to the services. -/
def LoggingEvent.service? : LoggingEvent → Option ProcessEvent
  | .process e => some e
  | _ => none

/-- One event, as the services see it. -/
theorem Diverted.process_step {size : RawSize} {l : Logging} (h : Diverted size l) (e : LoggingEvent) :
    (l.step size e).map Logging.process = e.service?.elim (.ok l.process) (l.process.step size) := by
  cases e with
  | gmPrintf text => exact congrArg Except.ok (process_gmVprintf l text)
  | gmFail text | gmFailWithOsError text error => exact congrArg Except.ok (process_gmVprintf l _)
  | process e => exact h.process_processStep e

theorem Diverted.process_foldlM {size : RawSize} : ∀ (events : List LoggingEvent) {l : Logging},
    Diverted size l → (∀ e ∈ events, e.Listens) →
    (events.foldlM (Logging.step size) l).map Logging.process
      = (events.filterMap LoggingEvent.service?).foldlM (Process.step size) l.process := by
  intro events
  induction events with
  | nil => exact fun _ _ => rfl
  | cons e events ih =>
    intro l h hlistens
    obtain ⟨he, hlistens⟩ := List.forall_mem_cons.mp hlistens
    have hprocess := h.process_step e
    rw [List.foldlM_cons]
    cases hservice : e.service? with
    | none =>
      rw [hservice] at hprocess
      obtain ⟨t, hstep, ht⟩ := map_ok hprocess
      rw [List.filterMap_cons_none hservice, ← ht, hstep]
      exact ih (h.step he hstep) hlistens
    | some service =>
      rw [hservice] at hprocess
      have hsame : (l.step size e).map Logging.process = l.process.step size service := hprocess
      rw [List.filterMap_cons_some hservice, List.foldlM_cons, ← hsame]
      cases hstep : l.step size e with
      | error fault => rfl
      | ok t => exact ih (h.step he hstep) hlistens

end Server
