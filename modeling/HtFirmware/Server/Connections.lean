import HtFirmware.Server.Buffer
import HtFirmware.Server.LogServer
import HtFirmware.Server.Startup

/-!
# Server/Connections — all connections of the redirector, among the other services

    data[fd] ──▸ block ──▸ a connection, and its events

The redirect server serves any number of connections at once: each has a descriptor, which the select
task calls `io_handler` for, and a block of memory that the handler is given.  The same select task
serves the log server and the Port Control Protocol client, whose descriptors are numbers like any
others; what one service gives back another may get.

A connection fares as if it were alone: its block is what the handler makes of its own events
(`Isolated`), whatever the other connections and the other services do.  Only the log server may spoil
this, which remembers a socket that it has closed where `listen` fails.
-/

open Machinery

namespace Server

/-! ## Memory and descriptors -/

/-- What `malloc` gave to a connection: the request with its connection, and the events that it was
called for. -/
structure Block where
  connection : RawConnection
  events : List RawEvent := []

/-- The descriptors of all services; what the select task has for the redirector's, which is null for
its listener; the blocks in use; the connections that came to an end; and the descriptors of those
there was no memory for, which are never given back. -/
structure Process where
  services : Services := {}
  data : ℕ → Option ℕ := fun _ => none
  heap : ℕ → Option Block := fun _ => none
  closed : List Block := []
  refused : List ℕ := []

/-- What goes wrong: something in the handler, or a block is used that was freed. -/
inductive ProcessFault where
  | handler (fault : Fault)
  | freed

namespace Process

/-- The other services are called.  What is registered no longer has no data. -/
def serve (p : Process) (services : Services) : Process :=
  { p with
    services := services
    data := fun fd => if services.fds.registered fd = some .redirect then p.data fd else none }

/-- `accept_handler`: `number` is what `accept` returns, which fails unless the listener is open, and
`block` what `malloc` does. -/
def acceptHandler (size : RawSize) (p : Process) (sock : ℕ) (readable isException : Bool)
    (number block : Option ℕ) : Process :=
  if !readable || isException then p
  else if p.services.fds.Free sock then p
  else
    match p.services.fresh number with
    | none => p
    | some connection =>
      let fds := p.services.fds.opened connection .redirect
      match block.filter fun b => (p.heap b).isNone with
      | none => { p with services := { p.services with fds := fds }, refused := connection :: p.refused }
      | some b =>
        { p with
          services := { p.services with fds := fds.register connection .redirect }
          data := Function.update p.data connection (some b)
          heap := Function.update p.heap b (some ⟨RawConnection.accepted size, []⟩) }

/-- `io_handler`, for a descriptor with a block.  One that is done was unregistered and closed, and its
block freed. -/
def ioHandler (size : RawSize) (p : Process) (fd b : ℕ) (e : RawEvent) : Except ProcessFault Process :=
  match p.heap b with
  | none => .error .freed
  | some block =>
    match block.connection.ioHandler size e with
    | .error fault => .error (.handler fault)
    | .ok c =>
      if c.registered then
        .ok { p with heap := Function.update p.heap b (some ⟨c, block.events ++ [e]⟩) }
      else
        .ok
          { p with
            services := p.services.drop fd
            data := Function.update p.data fd none
            heap := Function.update p.heap b none
            closed := p.closed ++ [⟨c, block.events ++ [e]⟩] }

end Process

/-! ## Events -/

inductive ProcessEvent where
  /-- A service is started or stopped. -/
  | call (c : ServiceCall)
  /-- The select task calls a handler of the log server. -/
  | log (e : LogEvent)
  /-- The select task calls the redirector's handler for a descriptor; what `accept` and `malloc` come
  to if it is the listener's, and what happened on it if it is a connection's. -/
  | redirect (fd : ℕ) (number block : Option ℕ) (e : RawEvent)

namespace Process

/-- One event.  The select task calls no handler for what is not registered. -/
def step (size : RawSize) (p : Process) : ProcessEvent → Except ProcessFault Process
  | .call c => .ok (p.serve (p.services.call c))
  | .log e => .ok (p.serve ((p.services.logNext e).getD p.services))
  | .redirect fd number block e =>
    if p.services.fds.registered fd = some .redirect then
      match p.data fd with
      | none => .ok (p.acceptHandler size fd e.readable e.isException number block)
      | some b => p.ioHandler size fd b e
    else .ok p

/-- The run goes on as long as there is no fault. -/
def next (size : RawSize) (p : Process) (e : ProcessEvent) : Option Process := (p.step size e).toOption

end Process

/-! ## Isolation -/

/-- A block is what the handler makes of its events, from a connection just accepted. -/
def Served (size : RawSize) (block : Block) : Prop :=
  block.events.foldlM (RawConnection.call size) (RawConnection.accepted size) = .ok block.connection

/-- **The connections are isolated.**  Each has an open descriptor, and a block of its own that is in
use, and is what it would be if there were no others; no block is lost; what came to an end did so on its
own events; the redirector's open descriptors are its listener, its connections, and those there was no
memory for; and whatever happens next, no block is used after it was freed, and nothing outside one. -/
structure Isolated (size : RawSize) (p : Process) : Prop where
  described : ∀ fd b, p.data fd = some b → p.services.fds.owner fd = some .redirect ∧
    p.services.fds.registered fd = some .redirect ∧ p.services.listener ≠ some fd
  live : ∀ fd b, p.data fd = some b →
    ∃ block, p.heap b = some block ∧ Served size block ∧ block.connection.registered = true
  own : ∀ fd i b, p.data fd = some b → p.data i = some b → fd = i
  kept : ∀ b, (p.heap b).isSome → ∃ fd, p.data fd = some b
  closed : ∀ block ∈ p.closed, Served size block ∧ block.connection.registered = false
  descriptors : ∀ fd, p.services.fds.owner fd = some .redirect ↔
    p.services.listener = some fd ∨ (p.data fd).isSome ∨ fd ∈ p.refused
  safe : ∀ e, p.step size e ≠ .error .freed ∧ p.step size e ≠ .error (.handler .outside)

/-- The log server's start does not fail at `listen`, where it would go on to remember the socket. -/
def ProcessEvent.Listens : ProcessEvent → Prop
  | .call (.gmLogServerStart a) => a.bind → a.listen
  | .log (.start a) => a.bind → a.listen
  | _ => True

/-! ## What the other services do -/

/-- Each service's descriptor is its own. -/
structure Owned (s : Services) : Prop where
  names : ∀ r fd, s.variable r = some fd → s.fds.owner fd = some r
  log : s.logFd = 2 ∨ s.fds.owner s.logFd = some .logConnection

/-- **The redirector's descriptors are spared**, but for its listener. -/
structure Spares (s t : Services) : Prop where
  connection : ∀ fd, s.fds.owner fd = some .redirect → s.listener ≠ some fd →
    t.fds.owner fd = some .redirect ∧ t.fds.registered fd = s.fds.registered fd ∧ t.listener ≠ some fd
  redirect : ∀ fd, t.fds.owner fd = some .redirect →
    t.listener = some fd ∨ s.fds.owner fd = some .redirect ∧ s.listener ≠ some fd

theorem owned_init : Owned {} where
  names r fd h := by cases r <;> cases h
  log := Or.inl rfl

section Services

variable {s t u : Services} {r : Role} {fd : ℕ}

theorem Spares.refl (s : Services) : Spares s s where
  connection _ howner hlistener := ⟨howner, rfl, hlistener⟩
  redirect fd howner := by
    by_cases hlistener : s.listener = some fd
    · exact Or.inl hlistener
    · exact Or.inr ⟨howner, hlistener⟩

theorem Spares.trans (hst : Spares s t) (htu : Spares t u) : Spares s u where
  connection fd howner hlistener := by
    obtain ⟨howner, hregistered, hlistener⟩ := hst.connection fd howner hlistener
    obtain ⟨howner, hregistered', hlistener⟩ := htu.connection fd howner hlistener
    exact ⟨howner, hregistered'.trans hregistered, hlistener⟩
  redirect fd howner := by
    obtain hlistener | ⟨howner, hlistener⟩ := htu.redirect fd howner
    · exact Or.inl hlistener
    · exact Or.inr ((hst.redirect fd howner).resolve_left hlistener)

/-- A call spares the redirector, and leaves each service its own. -/
def Good (s t : Services) : Prop := Owned t ∧ Spares s t

theorem Owned.good (h : Owned s) : Good s s := ⟨h, .refl s⟩

theorem Good.trans (hst : Good s t) (htu : Good t u) : Good s u := ⟨htu.1, hst.2.trans htu.2⟩

/-- A descriptor that was free is opened for a role, and one variable may get to name it. -/
theorem Owned.opens (h : Owned s) (hfree : s.fds.owner fd = none)
    (howner : t.fds.owner = (s.fds.opened fd r).owner)
    (hregistered : ∀ i, i ≠ fd → t.fds.registered i = s.fds.registered i)
    (hvariable : ∀ r', t.variable r' = s.variable r' ∨ r' = r ∧ t.variable r' = some fd)
    (hlog : t.logFd = s.logFd ∨ r = .logConnection ∧ t.logFd = fd)
    (hlistener : r = .redirect → s.listener = none ∧ t.listener = some fd) : Good s t := by
  have howner' : ∀ i, t.fds.owner i = if i = fd then some r else s.fds.owner i := by simp [howner]
  have hne : ∀ i r', s.fds.owner i = some r' → i ≠ fd := by
    rintro i r' hi rfl
    rw [hfree] at hi
    cases hi
  have hkept : ∀ i r', s.fds.owner i = some r' → t.fds.owner i = some r' := fun i r' hi => by
    rw [howner', if_neg (hne i r' hi), hi]
  have hsame : r ≠ .redirect → t.listener = s.listener := fun hr =>
    (hvariable .redirect).resolve_right fun h => hr h.1.symm
  refine ⟨⟨fun r' i hi => ?_, ?_⟩, fun i hi hlisten => ⟨hkept i _ hi, hregistered i (hne i _ hi), ?_⟩,
    fun i hi => ?_⟩
  · obtain hr' | ⟨rfl, hr'⟩ := hvariable r'
    · exact hkept i r' (h.names r' i (hr' ▸ hi))
    · obtain rfl := Option.some.inj (hr'.symm.trans hi)
      rw [howner', if_pos rfl]
  · obtain hlog | ⟨rfl, hlog⟩ := hlog
    · rw [hlog]
      exact h.log.imp_right (hkept _ _)
    · rw [hlog, howner', if_pos rfl]
      exact Or.inr rfl
  · by_cases hr : r = .redirect
    · rw [(hlistener hr).2]
      exact fun hfd => hne i _ hi (Option.some.inj hfd).symm
    · rw [hsame hr]
      exact hlisten
  · rw [howner'] at hi
    split_ifs at hi with hfd
    · exact Or.inl (hfd ▸ (hlistener (Option.some.inj hi)).2)
    · by_cases hr : r = .redirect
      · rw [(hlistener hr).1]
        exact Or.inr ⟨hi, fun h => by cases h⟩
      · rw [hsame hr]
        exact (Spares.refl s).redirect i hi

/-- A service gives its own descriptor back. -/
theorem Owned.closes (h : Owned s) (hfd : s.fds.owner fd = some r)
    (howner : t.fds.owner = ((s.fds.unregister fd).closed fd).owner)
    (hregistered : t.fds.registered = ((s.fds.unregister fd).closed fd).registered)
    (hvariable : ∀ r', r' ≠ r → t.variable r' = s.variable r') (hnone : t.variable r = none)
    (hlog : t.logFd = 2 ∨ t.logFd = s.logFd ∧ r ≠ .logConnection)
    (hlistener : r = .redirect → s.listener = some fd) : Good s t := by
  have howner' : ∀ i, i ≠ fd → t.fds.owner i = s.fds.owner i := fun i hi => by
    rw [howner, Descriptors.owner_closed, if_neg hi, Descriptors.owner_unregister]
  have hregistered' : ∀ i, i ≠ fd → t.fds.registered i = s.fds.registered i := fun i hi => by
    rw [hregistered, Descriptors.registered_closed, Descriptors.registered_unregister, if_neg hi]
  have hne : ∀ i r', s.fds.owner i = some r' → r' ≠ r → i ≠ fd := by
    rintro i r' hi hr' rfl
    exact hr' (Option.some.inj (hi.symm.trans hfd))
  have hfrom : ∀ r' i, t.variable r' = some i → s.variable r' = some i ∧ r' ≠ r := by
    intro r' i hi
    by_cases hr' : r' = r
    · rw [hr', hnone] at hi
      cases hi
    · exact ⟨hvariable r' hr' ▸ hi, hr'⟩
  refine ⟨⟨fun r' i hi => ?_, ?_⟩, fun i hi hlisten => ?_, fun i hi => ?_⟩
  · obtain ⟨hi, hr'⟩ := hfrom r' i hi
    have hown := h.names r' i hi
    rw [howner' i (hne i r' hown hr'), hown]
  · obtain hlog | ⟨hlog, hr⟩ := hlog
    · exact Or.inl hlog
    · rw [hlog]
      exact h.log.imp_right fun hown => (howner' _ (hne _ _ hown hr.symm)).trans hown
  · have hi' : i ≠ fd := by
      rintro rfl
      exact hlisten (hlistener (Option.some.inj (hfd.symm.trans hi)))
    exact ⟨(howner' i hi').trans hi, hregistered' i hi', fun hl => hlisten (hfrom .redirect i hl).1⟩
  · have hi' : i ≠ fd := by
      rintro rfl
      rw [howner, Descriptors.owner_closed, if_pos rfl] at hi
      cases hi
    rw [howner' i hi'] at hi
    by_cases hr : r = .redirect
    · rw [hlistener hr]
      exact Or.inr ⟨hi, fun hl => hi' (Option.some.inj hl).symm⟩
    · have hsame : t.listener = s.listener := hvariable .redirect (Ne.symm hr)
      rw [hsame]
      exact (Spares.refl s).redirect i hi

/-- A start that got a socket remembers it, however far it comes. -/
theorem Owned.starts (h : Owned s) (hfree : s.fds.owner fd = none)
    (howner : t.fds.owner = (s.fds.opened fd r).owner)
    (hregistered : t.fds.registered = s.fds.registered ∨
      t.fds.registered = ((s.fds.opened fd r).register fd r).registered)
    (hvariable : t.variable = Function.update s.variable r (some fd)) (hlog : t.logFd = s.logFd)
    (hlistener : r = .redirect → s.listener = none) : Good s t := by
  refine h.opens hfree howner (fun i hi => ?_) (fun r' => ?_) (Or.inl hlog) fun hr => ⟨hlistener hr, ?_⟩
  · obtain hregistered | hregistered := hregistered
    · rw [hregistered]
    · rw [hregistered, Descriptors.registered_register, if_neg hi, Descriptors.registered_opened]
  · rw [hvariable, Function.update_apply]
    split_ifs with hr
    · exact Or.inr ⟨hr, rfl⟩
    · exact Or.inl rfl
  · have hnames : t.variable .redirect = some fd := by rw [hvariable, hr, Function.update_self]
    exact hnames

theorem Owned.gmStartRedirectToHttps (h : Owned s) (a : Answers) :
    Good s (s.gmStartRedirectToHttps a).1 := by
  unfold Services.gmStartRedirectToHttps
  split
  · exact h.good
  · rename_i hrunning
    have hidle : s.listener = none := Option.not_isSome_iff_eq_none.mp hrunning
    cases hfresh : s.fresh a.number with
    | none => exact h.good
    | some fd =>
      have hfree := Services.owner_of_fresh hfresh
      dsimp only
      split_ifs
      · exact h.starts hfree rfl (Or.inl rfl) (by funext r; cases r <;> rfl) rfl fun _ => hidle
      · exact h.starts hfree rfl (Or.inl rfl) (by funext r; cases r <;> rfl) rfl fun _ => hidle
      · exact h.starts hfree rfl (Or.inr rfl) (by funext r; cases r <;> rfl) rfl fun _ => hidle

theorem Owned.gmStopRedirectToHttps (h : Owned s) : Good s s.gmStopRedirectToHttps := by
  unfold Services.gmStopRedirectToHttps
  cases hlistener : s.listener with
  | none => exact h.good
  | some fd =>
    refine h.closes (h.names .redirect fd hlistener) rfl rfl (fun r hr => ?_) rfl
      (Or.inr ⟨rfl, by decide⟩) fun _ => hlistener
    cases r with
    | redirect => exact absurd rfl hr
    | _ => rfl

/-- The log server's socket is closed only where `listen` fails. -/
theorem Owned.gmLogServerStart (h : Owned s) {a : Answers} (ha : a.bind → a.listen) :
    Good s (s.gmLogServerStart a) := by
  have hother : ∀ r : Role, .logServer = r → r = .redirect → s.listener = none := by
    rintro r rfl hr
    cases hr
  unfold Services.gmLogServerStart
  split
  · exact h.good
  · cases hfresh : s.fresh a.number with
    | none =>
      refine ⟨⟨fun r fd hr => ?_, h.log⟩, (Spares.refl s).connection, (Spares.refl s).redirect⟩
      cases r with
      | logServer => cases hr
      | redirect => exact h.names .redirect fd hr
      | pcpIpv4 => exact h.names .pcpIpv4 fd hr
      | pcpIpv6 => exact h.names .pcpIpv6 fd hr
      | console | logConnection => cases hr
    | some fd =>
      have hfree := Services.owner_of_fresh hfresh
      dsimp only
      split_ifs with hbind hlisten
      · exact h.starts hfree rfl (Or.inl rfl) (by funext r; cases r <;> rfl) rfl (hother _ rfl)
      · exact absurd (ha (by simpa using hbind)) (by simpa using hlisten)
      · exact h.starts hfree rfl (Or.inr rfl) (by funext r; cases r <;> rfl) rfl (hother _ rfl)

theorem Owned.loggingConnectionClosed (h : Owned s) : Good s s.loggingConnectionClosed := by
  unfold Services.loggingConnectionClosed
  split_ifs with hlog
  · exact h.good
  · exact h.closes (h.log.resolve_left hlog) rfl rfl (fun _ _ => rfl) rfl (Or.inl rfl)
      fun hr => by cases hr

theorem Owned.gmLogServerStop (h : Owned s) : Good s s.gmLogServerStop := by
  have hclosed := h.loggingConnectionClosed
  unfold Services.gmLogServerStop
  dsimp only
  cases hserver : s.loggingConnectionClosed.server with
  | none => exact hclosed
  | some fd =>
    refine hclosed.trans (hclosed.1.closes (hclosed.1.names .logServer fd hserver) rfl rfl
      (fun r hr => ?_) rfl (Or.inr ⟨rfl, by decide⟩) fun hr => by cases hr)
    cases r with
    | logServer => exact absurd rfl hr
    | _ => rfl

theorem Owned.gmPcpStartIpv4 (h : Owned s) (a : Answers) : Good s (s.gmPcpStartIpv4 a) := by
  have hother : ∀ r : Role, .pcpIpv4 = r → r = .redirect → s.listener = none := by
    rintro r rfl hr
    cases hr
  unfold Services.gmPcpStartIpv4
  split
  · exact h.good
  · cases hfresh : s.fresh a.number with
    | none => exact h.good
    | some fd =>
      have hfree := Services.owner_of_fresh hfresh
      dsimp only
      split_ifs
      · exact h.starts hfree rfl (Or.inl rfl) (by funext r; cases r <;> rfl) rfl (hother _ rfl)
      · exact h.starts hfree rfl (Or.inl rfl) (by funext r; cases r <;> rfl) rfl (hother _ rfl)
      · exact h.starts hfree rfl (Or.inr rfl) (by funext r; cases r <;> rfl) rfl (hother _ rfl)

theorem Owned.gmPcpStartIpv6 (h : Owned s) (matchingAddress : Bool) (a : Answers) :
    Good s (s.gmPcpStartIpv6 matchingAddress a) := by
  have hother : ∀ r : Role, .pcpIpv6 = r → r = .redirect → s.listener = none := by
    rintro r rfl hr
    cases hr
  unfold Services.gmPcpStartIpv6
  split
  · exact h.good
  · split
    · exact h.good
    · cases hfresh : s.fresh a.number with
      | none => exact h.good
      | some fd =>
        have hfree := Services.owner_of_fresh hfresh
        dsimp only
        split_ifs
        · exact h.starts hfree rfl (Or.inl rfl) (by funext r; cases r <;> rfl) rfl (hother _ rfl)
        · exact h.starts hfree rfl (Or.inl rfl) (by funext r; cases r <;> rfl) rfl (hother _ rfl)
        · exact h.starts hfree rfl (Or.inr rfl) (by funext r; cases r <;> rfl) rfl (hother _ rfl)

theorem Owned.gmPcpStop (h : Owned s) : Good s s.gmPcpStop := by
  have hfirst : ∃ t, Good s t ∧ s.gmPcpStop = match t.ipv6Socket with
      | none => t
      | some fd => { t.drop fd with ipv6Socket := none } := by
    unfold Services.gmPcpStop
    dsimp only
    cases hsocket : s.ipv4Socket with
    | none => exact ⟨s, h.good, rfl⟩
    | some fd =>
      refine ⟨{ s.drop fd with ipv4Socket := none }, ?_, rfl⟩
      refine h.closes (h.names .pcpIpv4 fd hsocket) rfl rfl (fun r hr => ?_) rfl
        (Or.inr ⟨rfl, by decide⟩) fun hr => by cases hr
      cases r with
      | pcpIpv4 => exact absurd rfl hr
      | _ => rfl
  obtain ⟨t, ht, hstop⟩ := hfirst
  rw [hstop]
  cases hsocket : t.ipv6Socket with
  | none => exact ht
  | some fd =>
    refine ht.trans (ht.1.closes (ht.1.names .pcpIpv6 fd hsocket) rfl rfl (fun r hr => ?_) rfl
      (Or.inr ⟨rfl, by decide⟩) fun hr => by cases hr)
    cases r with
    | pcpIpv6 => exact absurd rfl hr
    | _ => rfl

/-- **Every call spares the redirector.** -/
theorem Owned.call (h : Owned s) {c : ServiceCall} (hc : (ProcessEvent.call c).Listens) :
    Good s (s.call c) := by
  cases c with
  | gmStartRedirectToHttps a => exact h.gmStartRedirectToHttps a
  | gmStopRedirectToHttps => exact h.gmStopRedirectToHttps
  | gmLogServerStart a => exact h.gmLogServerStart hc
  | gmLogServerStop => exact h.gmLogServerStop
  | gmPcpStartIpv4 a => exact h.gmPcpStartIpv4 a
  | gmPcpStartIpv6 matchingAddress a => exact h.gmPcpStartIpv6 matchingAddress a
  | gmPcpStop => exact h.gmPcpStop

theorem Owned.acceptHandler (h : Owned s) (sock : ℕ) (readable : Bool) (number : Option ℕ) :
    Good s (s.acceptHandler sock readable number) := by
  unfold Services.acceptHandler
  split
  · split
    · exact h.good
    · cases hfresh : s.fresh number with
      | none => exact h.good
      | some fd =>
        exact h.opens (r := .logConnection) (Services.owner_of_fresh hfresh) rfl
          (fun i hi => by simp [hi]) (fun _ => Or.inl rfl) (Or.inr ⟨rfl, rfl⟩) fun hr => by cases hr
  · exact h.good

theorem Owned.socketEventHandler (h : Owned s) (readable isException : Bool) (received : ℤ) :
    Good s (s.socketEventHandler readable isException received) := by
  unfold Services.socketEventHandler
  split_ifs
  exacts [h.loggingConnectionClosed, h.loggingConnectionClosed, h.good, h.good]

/-- So does every event of the log server. -/
theorem Owned.logNext (h : Owned s) {e : LogEvent} (he : (ProcessEvent.log e).Listens) :
    Good s ((s.logNext e).getD s) := by
  cases e with
  | start a => exact h.gmLogServerStart he
  | stop => exact h.gmLogServerStop
  | accept sock readable number =>
    dsimp only [Services.logNext]
    split_ifs
    · exact h.acceptHandler sock readable number
    · exact h.good
  | event fd readable isException received =>
    dsimp only [Services.logNext]
    split_ifs
    · exact h.socketEventHandler readable isException received
    · exact h.good

end Services

/-! ## What every run keeps -/

/-- **What every run keeps**: of the redirector's descriptors, and of its blocks. -/
structure Hosts (size : RawSize) (p : Process) : Prop where
  owned : Owned p.services
  described : ∀ fd b, p.data fd = some b → p.services.fds.owner fd = some .redirect ∧
    p.services.fds.registered fd = some .redirect ∧ p.services.listener ≠ some fd
  live : ∀ fd b, p.data fd = some b → ∃ block, p.heap b = some block ∧ Served size block ∧
    block.connection.registered = true ∧ Kept size block.connection
  own : ∀ fd i b, p.data fd = some b → p.data i = some b → fd = i
  kept : ∀ b, (p.heap b).isSome → ∃ fd, p.data fd = some b
  closed : ∀ block ∈ p.closed, Served size block ∧ block.connection.registered = false
  refused : ∀ fd ∈ p.refused, p.services.fds.owner fd = some .redirect ∧
    p.services.listener ≠ some fd ∧ p.data fd = none
  descriptors : ∀ fd, p.services.fds.owner fd = some .redirect →
    p.services.listener = some fd ∨ (p.data fd).isSome ∨ fd ∈ p.refused

theorem hosts_init (size : RawSize) : Hosts size {} where
  owned := owned_init
  described _ _ h := by cases h
  live _ _ h := by cases h
  own _ _ _ h := by cases h
  kept _ h := by cases h
  closed _ h := absurd h List.not_mem_nil
  refused _ h := absurd h List.not_mem_nil
  descriptors fd h := by
    dsimp only at h
    split_ifs at h
    cases h

section Hosts

variable {size : RawSize} {p q : Process} {fd b : ℕ} {e : RawEvent}

/-- A connection served some more. -/
theorem Served.concat {block : Block} (h : Served size block) {c : RawConnection}
    (hc : block.connection.call size e = .ok c) : Served size ⟨c, block.events ++ [e]⟩ := by
  unfold Served at h ⊢
  rw [List.foldlM_append, h]
  change (block.connection.call size e >>= pure) = _
  rw [hc]
  rfl

/-- A descriptor that is free has no data. -/
theorem Hosts.data_of_free (h : Hosts size p) (hfree : p.services.fds.owner fd = none) :
    p.data fd = none := by
  cases hdata : p.data fd with
  | none => rfl
  | some b =>
    have howner := (h.described fd b hdata).1
    rw [hfree] at howner
    cases howner

/-- Where a connection is spared its data stays. -/
theorem Hosts.data_serve (h : Hosts size p) {services : Services} (hspares : Spares p.services services) :
    (p.serve services).data = p.data := by
  funext fd
  change (if services.fds.registered fd = some .redirect then p.data fd else none) = p.data fd
  cases hfd : p.data fd with
  | none => rw [ite_self]
  | some b =>
    obtain ⟨howner, hregistered, hlistener⟩ := h.described fd b hfd
    exact if_pos ((hspares.connection fd howner hlistener).2.1.trans hregistered)

/-- **The other services leave the connections alone.** -/
theorem Hosts.serve (h : Hosts size p) {services : Services} (hgood : Good p.services services) :
    Hosts size (p.serve services) := by
  obtain ⟨howned, hspares⟩ := hgood
  have hdata := h.data_serve hspares
  refine ⟨howned, ?_, ?_, ?_, ?_, h.closed, ?_, ?_⟩
  · intro fd b hb
    rw [hdata] at hb
    obtain ⟨howner, hregistered, hlistener⟩ := h.described fd b hb
    obtain ⟨howner, hsame, hlistener⟩ := hspares.connection fd howner hlistener
    exact ⟨howner, hsame.trans hregistered, hlistener⟩
  · rw [hdata]
    exact h.live
  · rw [hdata]
    exact h.own
  · rw [hdata]
    exact h.kept
  · intro fd hfd
    obtain ⟨howner, hlistener, hnone⟩ := h.refused fd hfd
    obtain ⟨howner, -, hlistener⟩ := hspares.connection fd howner hlistener
    exact ⟨howner, hlistener, hdata ▸ hnone⟩
  · rw [hdata]
    intro fd hfd
    obtain hlistener | ⟨howner, hlistener⟩ := hspares.redirect fd hfd
    · exact Or.inl hlistener
    · exact Or.inr ((h.descriptors fd howner).resolve_left hlistener)

section Free

variable {s : Services} {i : ℕ} {r : Role}

theorem ne_of_owner (hfree : s.fds.owner fd = none) (hi : s.fds.owner i = some r) : i ≠ fd := by
  rintro rfl
  rw [hfree] at hi
  cases hi

/-- What is open stays so when a connection is opened. -/
theorem owner_opened_of_owner (hfree : s.fds.owner fd = none) (hi : s.fds.owner i = some r) :
    (s.fds.opened fd .redirect).owner i = some r := by
  rw [Descriptors.owner_opened, if_neg (ne_of_owner hfree hi), hi]

/-- A connection is opened; the services keep their own. -/
theorem Owned.accepts (h : Owned s) (hfree : s.fds.owner fd = none) {fds : Descriptors Role}
    (howner : fds.owner = (s.fds.opened fd .redirect).owner) : Owned { s with fds := fds } where
  names r i hi := by
    rw [howner]
    exact owner_opened_of_owner hfree (h.names r i hi)
  log := by
    rw [howner]
    exact h.log.imp_right (owner_opened_of_owner hfree)

theorem Owned.listener_ne (h : Owned s) (hfree : s.fds.owner fd = none) : s.listener ≠ some fd := by
  intro hlistener
  have howner := h.names .redirect fd hlistener
  rw [hfree] at howner
  cases howner

end Free

/-- A connection is accepted that there is no memory for. -/
theorem Hosts.refuse (h : Hosts size p) (hfree : p.services.fds.owner fd = none) :
    Hosts size { p with
      services := { p.services with fds := p.services.fds.opened fd .redirect }
      refused := fd :: p.refused } where
  owned := h.owned.accepts hfree rfl
  described i b hi := by
    obtain ⟨howner, hregistered, hlistener⟩ := h.described i b hi
    exact ⟨owner_opened_of_owner hfree howner, hregistered, hlistener⟩
  live := h.live
  own := h.own
  kept := h.kept
  closed := h.closed
  refused i hi := by
    obtain rfl | hi := List.mem_cons.mp hi
    · exact ⟨by simp, h.owned.listener_ne hfree, h.data_of_free hfree⟩
    · obtain ⟨howner, hlistener, hnone⟩ := h.refused i hi
      exact ⟨owner_opened_of_owner hfree howner, hlistener, hnone⟩
  descriptors i hi := by
    rw [Descriptors.owner_opened] at hi
    split_ifs at hi with heq
    · exact Or.inr (Or.inr (List.mem_cons.mpr (Or.inl heq)))
    · exact (h.descriptors i hi).imp_right (Or.imp_right (List.mem_cons_of_mem _))

/-- A connection is accepted, with a block of its own. -/
theorem Hosts.admit (h : Hosts size p) (hfree : p.services.fds.owner fd = none)
    (hunused : p.heap b = none) :
    Hosts size { p with
      services :=
        { p.services with fds := (p.services.fds.opened fd .redirect).register fd .redirect }
      data := Function.update p.data fd (some b)
      heap := Function.update p.heap b (some ⟨RawConnection.accepted size, []⟩) } := by
  have hother : ∀ i b', p.data i = some b' → i ≠ fd ∧ b' ≠ b := by
    refine fun i b' hi => ⟨ne_of_owner hfree (h.described i b' hi).1, ?_⟩
    rintro rfl
    obtain ⟨block, hused, -⟩ := h.live i b' hi
    rw [hunused] at hused
    cases hused
  have hdata : ∀ i b', Function.update p.data fd (some b) i = some b' →
      i = fd ∧ b' = b ∨ p.data i = some b' := by
    intro i b' hi
    rw [Function.update_apply] at hi
    split_ifs at hi with heq
    · exact Or.inl ⟨heq, (Option.some.inj hi).symm⟩
    · exact Or.inr hi
  constructor
  case owned => exact h.owned.accepts hfree rfl
  case closed => exact h.closed
  case described =>
    intro i b' hi
    obtain ⟨rfl, rfl⟩ | hi := hdata i b' hi
    · exact ⟨by simp, by simp, h.owned.listener_ne hfree⟩
    · obtain ⟨howner, hregistered, hlistener⟩ := h.described i b' hi
      exact ⟨owner_opened_of_owner hfree howner, by simpa [(hother i b' hi).1] using hregistered,
        hlistener⟩
  case live =>
    intro i b' hi
    obtain ⟨rfl, rfl⟩ | hi := hdata i b' hi
    · exact ⟨_, Function.update_self _ _ _, rfl, rfl, kept_accepted size⟩
    · obtain ⟨block, hused, hblock⟩ := h.live i b' hi
      exact ⟨block, (Function.update_of_ne (hother i b' hi).2 _ _).trans hused, hblock⟩
  case own =>
    intro i j b' hi hj
    obtain ⟨rfl, rfl⟩ | hbefore := hdata i b' hi
    · obtain ⟨rfl, -⟩ | hbefore := hdata j b' hj
      · rfl
      · exact absurd rfl (hother j b' hbefore).2
    · obtain ⟨-, heq⟩ | hbefore' := hdata j b' hj
      · exact absurd heq (hother i b' hbefore).2
      · exact h.own i j b' hbefore hbefore'
  case kept =>
    intro b' hb'
    by_cases heq : b' = b
    · exact ⟨fd, heq ▸ Function.update_self _ _ _⟩
    · dsimp only at hb'
      rw [Function.update_of_ne heq] at hb'
      obtain ⟨i, hi⟩ := h.kept b' hb'
      exact ⟨i, (Function.update_of_ne (hother i b' hi).1 _ _).trans hi⟩
  case refused =>
    intro i hi
    obtain ⟨howner, hlistener, hnone⟩ := h.refused i hi
    exact ⟨owner_opened_of_owner hfree howner, hlistener,
      (Function.update_of_ne (ne_of_owner hfree howner) _ _).trans hnone⟩
  case descriptors =>
    intro i hi
    rw [Descriptors.owner_register, Descriptors.owner_opened] at hi
    split_ifs at hi with heq
    · exact Or.inr (Or.inl (by simp [heq]))
    · obtain hlistener | hsome | hrefused := h.descriptors i hi
      · exact Or.inl hlistener
      · refine Or.inr (Or.inl ?_)
        dsimp only
        rwa [Function.update_of_ne heq]
      · exact Or.inr (Or.inr hrefused)

/-- **A connection is accepted**, or is not. -/
theorem Hosts.acceptHandler (h : Hosts size p) (sock : ℕ) (readable isException : Bool)
    (number block : Option ℕ) :
    Hosts size (p.acceptHandler size sock readable isException number block) := by
  unfold Process.acceptHandler
  split
  · exact h
  split
  · exact h
  cases hfresh : p.services.fresh number with
  | none => exact h
  | some connection =>
    have hfree := Services.owner_of_fresh hfresh
    dsimp only
    cases hblock : block.filter fun b => (p.heap b).isNone with
    | none => exact h.refuse hfree
    | some b =>
      rw [Option.filter_eq_some_iff] at hblock
      exact h.admit hfree (Option.isNone_iff_eq_none.mp hblock.2)

section Called

variable {block : Block} {c : RawConnection}

/-- A connection goes on. -/
theorem Hosts.goesOn (h : Hosts size p) (hdata : p.data fd = some b) (hserved : Served size block)
    (hopen : block.connection.registered = true) (hkept : Kept size block.connection) :
    Hosts size { p with heap := Function.update p.heap b (some block) } where
  owned := h.owned
  described := h.described
  live i b' hi := by
    by_cases heq : b' = b
    · exact ⟨_, heq ▸ Function.update_self _ _ _, hserved, hopen, hkept⟩
    · obtain ⟨other, hother, hfine⟩ := h.live i b' hi
      exact ⟨other, (Function.update_of_ne heq _ _).trans hother, hfine⟩
  own := h.own
  kept b' hb' := by
    by_cases heq : b' = b
    · exact ⟨fd, heq ▸ hdata⟩
    · dsimp only at hb'
      rw [Function.update_of_ne heq] at hb'
      exact h.kept b' hb'
  closed := h.closed
  refused := h.refused
  descriptors := h.descriptors

/-- A connection comes to an end, and leaves nothing. -/
theorem Hosts.finishes (h : Hosts size p) (hdata : p.data fd = some b) (hserved : Served size block)
    (hdone : block.connection.registered = false) :
    Hosts size { p with
      services := p.services.drop fd
      data := Function.update p.data fd none
      heap := Function.update p.heap b none
      closed := p.closed ++ [block] } := by
  obtain ⟨howner, -, hlistener⟩ := h.described fd b hdata
  have howner' : ∀ i, i ≠ fd → (p.services.drop fd).fds.owner i = p.services.fds.owner i := by
    intro i hi
    simp [Services.drop, hi]
  have hdata' : ∀ i b', Function.update p.data fd none i = some b' → i ≠ fd ∧ p.data i = some b' := by
    intro i b' hi
    rw [Function.update_apply] at hi
    split_ifs at hi with heq
    exact ⟨heq, hi⟩
  constructor
  case owned =>
    refine ⟨fun r i hi => ?_, h.owned.log.imp_right fun hlog => ?_⟩
    · have hown := h.owned.names r i hi
      refine (howner' i ?_).trans hown
      rintro rfl
      obtain rfl := Option.some.inj (hown.symm.trans howner)
      exact hlistener hi
    · refine (howner' _ fun hfd => ?_).trans hlog
      have hlog' := (congrArg p.services.fds.owner hfd).symm.trans hlog
      rw [howner] at hlog'
      cases hlog'
  case described =>
    intro i b' hi
    obtain ⟨hne, hi⟩ := hdata' i b' hi
    obtain ⟨ho, hr, hl⟩ := h.described i b' hi
    exact ⟨(howner' i hne).trans ho, by simpa [Services.drop, hne] using hr, hl⟩
  case live =>
    intro i b' hi
    obtain ⟨hne, hi⟩ := hdata' i b' hi
    obtain ⟨other, hother, hfine⟩ := h.live i b' hi
    refine ⟨other, (Function.update_of_ne (fun heq => ?_) _ _).trans hother, hfine⟩
    exact hne (h.own i fd b' hi (heq ▸ hdata))
  case own =>
    intro i j b' hi hj
    exact h.own i j b' (hdata' i b' hi).2 (hdata' j b' hj).2
  case kept =>
    intro b' hb'
    dsimp only at hb'
    by_cases heq : b' = b
    · rw [heq, Function.update_self] at hb'
      cases hb'
    · rw [Function.update_of_ne heq] at hb'
      obtain ⟨i, hi⟩ := h.kept b' hb'
      refine ⟨i, (Function.update_of_ne ?_ _ _).trans hi⟩
      rintro rfl
      exact heq (Option.some.inj (hi.symm.trans hdata))
  case closed =>
    intro other hother
    obtain hother | hother := List.mem_append.mp hother
    · exact h.closed other hother
    · rw [List.mem_singleton.mp hother]
      exact ⟨hserved, hdone⟩
  case refused =>
    intro i hi
    obtain ⟨ho, hl, hnone⟩ := h.refused i hi
    have hne : i ≠ fd := by
      rintro rfl
      rw [hnone] at hdata
      cases hdata
    exact ⟨(howner' i hne).trans ho, hl, (Function.update_of_ne hne _ _).trans hnone⟩
  case descriptors =>
    intro i hi
    have hne : i ≠ fd := by
      rintro rfl
      simp [Services.drop] at hi
    obtain hl | hsome | hr := h.descriptors i ((howner' i hne).symm.trans hi)
    · exact Or.inl hl
    · refine Or.inr (Or.inl ?_)
      dsimp only
      rwa [Function.update_of_ne hne]
    · exact Or.inr (Or.inr hr)

/-- **A connection is called for**: its handler ends, or has a null pointer. -/
theorem Hosts.ends_ioHandler (h : Hosts size p) (hdata : p.data fd = some b) (e : RawEvent) :
    Ends (· = .handler .nullPointer) (Hosts size) (p.ioHandler size fd b e) := by
  obtain ⟨block, hused, hserved, hopen, hkept⟩ := h.live fd b hdata
  have hcall : block.connection.call size e = block.connection.ioHandler size e := if_pos hopen
  have hends := hkept.ends_ioHandler hopen e
  unfold Process.ioHandler
  simp only [hused]
  cases hc : block.connection.ioHandler size e with
  | error fault =>
    rw [hc] at hends
    cases hends with
    | error hfault => exact .error (congrArg ProcessFault.handler hfault)
  | ok c =>
    rw [hc] at hends
    have hmore : Served size ⟨c, block.events ++ [e]⟩ := hserved.concat (hcall.trans hc)
    cases hends with
    | ok hkept =>
      dsimp only
      split_ifs with hstays
      · exact .ok (h.goesOn hdata hmore hstays hkept)
      · exact .ok (h.finishes hdata hmore (by simpa using hstays))

end Called

/-- **Every event keeps it**, and is handled unless a null pointer is written through. -/
theorem Hosts.ends_step (h : Hosts size p) {e : ProcessEvent} (he : e.Listens) :
    Ends (· = .handler .nullPointer) (Hosts size) (p.step size e) := by
  cases e with
  | call c => exact .ok (h.serve (h.owned.call he))
  | log e => exact .ok (h.serve (h.owned.logNext he))
  | redirect fd number block e =>
    unfold Process.step
    dsimp only
    split_ifs
    · cases hdata : p.data fd with
      | none => exact .ok (h.acceptHandler fd e.readable e.isException number block)
      | some b => exact h.ends_ioHandler hdata e
    · exact .ok h

/-- No event finds a block that was freed, or leaves one. -/
theorem Hosts.safe (h : Hosts size p) (e : ProcessEvent) :
    p.step size e ≠ .error .freed ∧ p.step size e ≠ .error (.handler .outside) := by
  have hends : Ends (· = .handler .nullPointer) (fun _ => True) (p.step size e) := by
    cases e with
    | call c => exact .ok trivial
    | log e => exact .ok trivial
    | redirect fd number block e =>
      exact (h.ends_step (e := .redirect fd number block e) trivial).mono fun _ _ => trivial
  generalize p.step size e = x at hends
  cases hends with
  | ok _ =>
    refine ⟨fun hfault => ?_, fun hfault => ?_⟩
    · cases hfault
    · cases hfault
  | error hfault =>
    subst hfault
    refine ⟨fun hfault => ?_, fun hfault => ?_⟩
    · cases hfault
    · cases hfault

theorem Hosts.isolated (h : Hosts size p) : Isolated size p where
  described := h.described
  live fd b hdata := by
    obtain ⟨block, hused, hserved, hopen, -⟩ := h.live fd b hdata
    exact ⟨block, hused, hserved, hopen⟩
  own := h.own
  kept := h.kept
  closed := h.closed
  descriptors fd := by
    refine ⟨h.descriptors fd, ?_⟩
    rintro (hlistener | hsome | hrefused)
    · exact h.owned.names .redirect fd hlistener
    · obtain ⟨b, hdata⟩ := Option.isSome_iff_exists.mp hsome
      exact (h.described fd b hdata).1
    · exact (h.refused fd hrefused).1
  safe := h.safe

end Hosts

/-! ## Runs -/

/-- Two clients at once, and the log server between them; the first one's connection fails. -/
def twoClients : List ProcessEvent :=
  [.call (.gmStartRedirectToHttps ⟨some 5, true, true, true⟩),
    .redirect 5 (some 6) (some 0) ⟨true, false, false, none⟩,
    .call (.gmLogServerStart ⟨some 7, true, true, true⟩),
    .redirect 5 (some 8) (some 1) ⟨true, false, false, none⟩,
    .redirect 8 none none ⟨true, false, false, some "GET".toList⟩,
    .redirect 6 none none ⟨false, true, false, none⟩,
    .call .gmLogServerStop]

end Server
