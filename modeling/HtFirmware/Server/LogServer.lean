import HtFirmware.Server.Services

/-!
# Server/LogServer — the connections the log is diverted to

Each connection the log server accepts is registered, and the log is diverted to the last one.  The
handler of all of them closes that one, whichever connection the event was for: a connection whose log
was taken over by a later one closes the later one.

The log goes to the console or to a connection that is open and registered, and every open connection
is registered, in every state of every run (`LogSound`); but an event on a connection leaves the
others alone only if the log is on that connection or on the console (`own_events_iff`).
-/

open Machinery

namespace Server

/-! ## Events -/

inductive LogEvent where
  | start (a : Answers)
  | stop
  /-- The select task calls `accept_handler`. -/
  | accept (sock : ℕ) (readable : Bool) (number : Option ℕ)
  /-- The select task calls `socket_event_handler` for a connection. -/
  | event (fd : ℕ) (readable isException : Bool) (received : ℤ)

namespace Services

/-- The state after an event.  The select task only calls a handler for a descriptor that is
registered. -/
def logNext (s : Services) : LogEvent → Option Services
  | .start a => some (s.gmLogServerStart a)
  | .stop => some s.gmLogServerStop
  | .accept sock readable number =>
    if s.fds.registered sock = some .logServer then some (s.acceptHandler sock readable number)
    else none
  | .event fd readable isException received =>
    if s.fds.registered fd = some .logConnection then
      some (s.socketEventHandler readable isException received)
    else none

end Services

/-! ## What every run keeps -/

/-- The log goes to the console, or to a connection that is open and registered. -/
def LogOpen (s : Services) : Prop :=
  s.logFd = 2 ∨ s.fds.owner s.logFd = some .logConnection ∧
    s.fds.registered s.logFd = some .logConnection

/-- Every connection that is open is registered. -/
def ConnectionsRegistered (s : Services) : Prop :=
  ∀ fd, s.fds.owner fd = some .logConnection → s.fds.registered fd = some .logConnection

/-- **What every run keeps.** -/
structure LogSound (s : Services) : Prop where
  log : LogOpen s
  connections : ConnectionsRegistered s
  console : s.fds.owner 0 = some .console
  server : ∀ fd, s.server = some fd → fd ≠ 0 ∧ s.fds.owner fd ≠ some .logConnection
  listening : ∀ sock, s.fds.registered sock = some .logServer →
    s.server = some sock ∧ s.fds.owner sock = some .logServer

theorem logSound_init : LogSound {} where
  log := Or.inl rfl
  connections fd h := by
    simp only at h
    split_ifs at h
    cases h
  console := rfl
  server _ h := by cases h
  listening _ h := by cases h

section LogSound

variable {s t : Services} {fd : ℕ}

/-- A number that is not the console's may be given up, if it is forgotten. -/
theorem LogSound.of_drop (h : LogSound s) (hfd : fd ≠ 0)
    (hfds : t.fds = (s.fds.unregister fd).closed fd)
    (hlog : t.logFd = 2 ∨ t.logFd = s.logFd ∧ s.logFd ≠ fd)
    (hserver : t.server = s.server ∧ s.server ≠ some fd ∨ t.server = none ∧ s.server = some fd) :
    LogSound t := by
  have howner : ∀ i, t.fds.owner i = if i = fd then none else s.fds.owner i := by simp [hfds]
  have hregistered : ∀ i, t.fds.registered i = if i = fd then none else s.fds.registered i := by
    simp [hfds]
  refine ⟨?_, fun i hi => ?_, ?_, fun i hi => ?_, fun i hi => ?_⟩
  · rcases hlog with hlog | ⟨hlog, hne⟩
    · exact Or.inl hlog
    · rw [LogOpen, hlog, howner, hregistered, if_neg hne, if_neg hne]
      exact h.log
  · rw [howner] at hi
    split_ifs at hi with hne
    rw [hregistered, if_neg hne]
    exact h.connections i hi
  · rw [howner, if_neg (Ne.symm hfd)]
    exact h.console
  · rcases hserver with ⟨hserver, -⟩ | ⟨hserver, -⟩
    · rw [hserver] at hi
      refine ⟨(h.server i hi).1, ?_⟩
      rw [howner]
      split_ifs
      · exact fun hnone => by cases hnone
      · exact (h.server i hi).2
    · rw [hserver] at hi
      cases hi
  · rw [hregistered] at hi
    split_ifs at hi with hne
    obtain ⟨hsock, hopen⟩ := h.listening i hi
    rw [howner, if_neg hne]
    rcases hserver with ⟨hserver, -⟩ | ⟨-, hserver⟩
    · exact ⟨hserver.trans hsock, hopen⟩
    · exact absurd (Option.some.inj (hsock.symm.trans hserver)) hne

theorem LogSound.logFd_ne (h : LogSound s) (hlog : s.logFd ≠ 2) :
    s.fds.owner s.logFd = some .logConnection := (h.log.resolve_left hlog).1

theorem LogSound.loggingConnectionClosed (h : LogSound s) : LogSound s.loggingConnectionClosed := by
  unfold Services.loggingConnectionClosed
  split_ifs with hlog
  · exact h
  · have howner := h.logFd_ne hlog
    refine @LogSound.of_drop s _ s.logFd h ?_ rfl (Or.inl rfl) (Or.inl ⟨rfl, fun hserver => ?_⟩)
    · intro hzero
      rw [hzero, h.console] at howner
      cases howner
    · exact (h.server _ hserver).2 howner

theorem LogSound.gmLogServerStop (h : LogSound s) : LogSound s.gmLogServerStop := by
  have hclosed := h.loggingConnectionClosed
  unfold Services.gmLogServerStop
  dsimp only
  cases hserver : s.loggingConnectionClosed.server with
  | none => exact hclosed
  | some fd =>
    obtain ⟨hne, howner⟩ := hclosed.server fd hserver
    refine hclosed.of_drop hne rfl ?_ (Or.inr ⟨rfl, hserver⟩)
    rcases hclosed.log with hlog | ⟨hlog, -⟩
    · exact Or.inl hlog
    · exact Or.inr ⟨rfl, fun hfd => howner (hfd ▸ hlog)⟩

/-- A free number may be remembered for the server, if none listens yet. -/
theorem LogSound.of_start (h : LogSound s) (hidle : s.server = none)
    (hfree : s.fds.owner fd = none) (hserver : t.server = some fd) (hlog : t.logFd = s.logFd)
    (howner : t.fds.owner fd ≠ some .logConnection)
    (hregistered : t.fds.registered fd = some .logServer → t.fds.owner fd = some .logServer)
    (hother : ∀ i, i ≠ fd → t.fds.owner i = s.fds.owner i ∧
      t.fds.registered i = s.fds.registered i) : LogSound t := by
  have hopen : ∀ i r, s.fds.owner i = some r → i ≠ fd := by
    rintro i r hi rfl
    rw [hfree] at hi
    cases hi
  refine ⟨?_, fun i hi => ?_, ?_, fun i hi => ?_, fun i hi => ?_⟩
  · rw [LogOpen, hlog]
    refine h.log.imp_right fun ⟨hown, hreg⟩ => ?_
    obtain ⟨howner', hregistered'⟩ := hother s.logFd (hopen _ _ hown)
    exact ⟨howner'.trans hown, hregistered'.trans hreg⟩
  · have hne : i ≠ fd := fun hfd => howner (hfd ▸ hi)
    rw [(hother i hne).2]
    exact h.connections i ((hother i hne).1.symm.trans hi)
  · rw [(hother 0 (hopen _ _ h.console)).1]
    exact h.console
  · obtain rfl := Option.some.inj (hserver.symm.trans hi)
    exact ⟨Ne.symm (hopen _ _ h.console), howner⟩
  · by_cases hfd : i = fd
    · rw [hfd] at hi ⊢
      exact ⟨hserver, hregistered hi⟩
    · have hsock := (h.listening i ((hother i hfd).2.symm.trans hi)).1
      rw [hidle] at hsock
      cases hsock

theorem LogSound.gmLogServerStart (h : LogSound s) (a : Answers) :
    LogSound (s.gmLogServerStart a) := by
  unfold Services.gmLogServerStart
  by_cases hrunning : s.server.any fun fd => 0 < fd
  · rwa [if_pos hrunning]
  have hidle : s.server = none := by
    cases hserver : s.server with
    | none => rfl
    | some fd =>
      refine absurd ?_ hrunning
      rw [hserver]
      exact decide_eq_true (Nat.pos_of_ne_zero (h.server fd hserver).1)
  have hunlistened : ∀ sock, s.fds.registered sock ≠ some .logServer := fun sock hsock => by
    have hserver := (h.listening sock hsock).1
    rw [hidle] at hserver
    cases hserver
  rw [if_neg hrunning]
  cases hfresh : s.fresh a.number with
  | none =>
    dsimp only
    rw [← hidle]
    exact h
  | some fd =>
    have hfree := Services.owner_of_fresh hfresh
    dsimp only
    split_ifs
    · exact h.of_start hidle hfree rfl rfl (by simp) (fun hreg => absurd hreg (hunlistened fd))
        fun i hi => ⟨by simp [hi], rfl⟩
    · exact h.of_start hidle hfree rfl rfl (by simp) (fun hreg => absurd hreg (hunlistened fd))
        fun i hi => ⟨by simp [hi], rfl⟩
    · exact h.of_start hidle hfree rfl rfl (by simp) (fun _ => by simp)
        fun i hi => ⟨by simp [hi], by simp [hi]⟩

theorem LogSound.acceptHandler (h : LogSound s) {sock : ℕ}
    (hsock : s.fds.registered sock = some .logServer) (readable : Bool) (number : Option ℕ) :
    LogSound (s.acceptHandler sock readable number) := by
  unfold Services.acceptHandler
  by_cases hreadable : readable = true
  · obtain ⟨hserver, hopen⟩ := h.listening sock hsock
    have hlistens : ¬ s.fds.Free sock := fun hfree => by
      rw [show s.fds.owner sock = none from hfree] at hopen
      cases hopen
    rw [if_pos hreadable, if_neg hlistens]
    cases hfresh : s.fresh number with
    | none => exact h
    | some connection =>
      have hfree := Services.owner_of_fresh hfresh
      have hne : ∀ i r, s.fds.owner i = some r → i ≠ connection := by
        rintro i r hi rfl
        rw [hfree] at hi
        cases hi
      refine ⟨Or.inr (by simp), fun i hi => ?_, ?_, fun i hi => ?_, fun i hi => ?_⟩
      · simp only [Descriptors.owner_register, Descriptors.owner_opened,
          Descriptors.registered_register, Descriptors.registered_opened] at hi ⊢
        split_ifs at hi ⊢
        · rfl
        · exact h.connections i hi
      · simpa [hne 0 _ h.console] using h.console
      · obtain rfl := Option.some.inj (hserver.symm.trans hi)
        refine ⟨(h.server sock hi).1, ?_⟩
        simpa [hne sock _ hopen] using (h.server sock hi).2
      · simp only [Descriptors.registered_register, Descriptors.registered_opened] at hi
        split_ifs at hi with hconnection
        · cases hi
        · obtain ⟨hserver', hopen'⟩ := h.listening i hi
          refine ⟨hserver', ?_⟩
          simpa [hconnection] using hopen'
  · rwa [if_neg hreadable]

theorem LogSound.socketEventHandler (h : LogSound s) (readable isException : Bool) (received : ℤ) :
    LogSound (s.socketEventHandler readable isException received) := by
  unfold Services.socketEventHandler
  split_ifs
  exacts [h.loggingConnectionClosed, h.loggingConnectionClosed, h, h]

theorem LogSound.next (h : LogSound s) {e : LogEvent} (ht : s.logNext e = some t) : LogSound t := by
  cases e with
  | start a => exact Option.some.inj ht ▸ h.gmLogServerStart a
  | stop => exact Option.some.inj ht ▸ h.gmLogServerStop
  | accept sock readable number =>
    unfold Services.logNext at ht
    dsimp only at ht
    split_ifs at ht with hsock
    exact Option.some.inj ht ▸ h.acceptHandler hsock readable number
  | event fd readable isException received =>
    unfold Services.logNext at ht
    dsimp only at ht
    split_ifs at ht with hfd
    exact Option.some.inj ht ▸ h.socketEventHandler readable isException received

end LogSound

/-! ## Whose connection an event closes -/

/-- An event on a connection leaves the other descriptors alone. -/
def OwnOnly (s : Services) (e : LogEvent) : Prop :=
  ∀ fd readable isException received, e = .event fd readable isException received →
    ∀ t, s.logNext e = some t → ∀ i, i ≠ fd →
      t.fds.owner i = s.fds.owner i ∧ t.fds.registered i = s.fds.registered i

/-- **What it takes**: an exception, or a close by the peer, comes on the connection the log is on, or
while the log is on the console. -/
def OnLogConnection (s : Services) (e : LogEvent) : Prop :=
  ∀ fd readable isException received, e = .event fd readable isException received →
    s.fds.registered fd = some .logConnection → isException = true ∨ readable = true ∧ received = 0 →
      s.logFd = 2 ∨ s.logFd = fd

/-- The handler closes the connection the log is on, or does nothing. -/
theorem socketEventHandler_eq (s : Services) (readable isException : Bool) (received : ℤ) :
    s.socketEventHandler readable isException received
      = if isException = true ∨ readable = true ∧ received = 0 then s.loggingConnectionClosed
        else s := by
  unfold Services.socketEventHandler
  cases isException <;> cases readable <;> simp

/-- Closing the connection the log is on leaves all but one descriptor alone. -/
theorem loggingConnectionClosed_own_iff {s : Services} (h : LogSound s) (fd : ℕ) :
    (∀ i, i ≠ fd → s.loggingConnectionClosed.fds.owner i = s.fds.owner i ∧
      s.loggingConnectionClosed.fds.registered i = s.fds.registered i) ↔
      s.logFd = 2 ∨ s.logFd = fd := by
  unfold Services.loggingConnectionClosed
  split_ifs with hlog
  · exact iff_of_true (fun _ _ => ⟨rfl, rfl⟩) (Or.inl hlog)
  · have howner : ∀ i, (s.drop s.logFd).fds.owner i = if i = s.logFd then none else s.fds.owner i := by
      simp [Services.drop]
    have hregistered : ∀ i, (s.drop s.logFd).fds.registered i
        = if i = s.logFd then none else s.fds.registered i := by simp [Services.drop]
    simp only [howner, hregistered, hlog, false_or]
    constructor
    · intro hown
      by_contra hne
      have hgone := (hown s.logFd hne).1
      rw [if_pos rfl, h.logFd_ne hlog] at hgone
      cases hgone
    · rintro rfl i hi
      rw [if_neg hi, if_neg hi]
      exact ⟨rfl, rfl⟩

theorem ownOnly_iff {s : Services} (h : LogSound s) (e : LogEvent) :
    OwnOnly s e ↔ OnLogConnection s e := by
  cases e with
  | start a => exact iff_of_true (fun _ _ _ _ he => by cases he) fun _ _ _ _ he => by cases he
  | stop => exact iff_of_true (fun _ _ _ _ he => by cases he) fun _ _ _ _ he => by cases he
  | accept sock readable number =>
    exact iff_of_true (fun _ _ _ _ he => by cases he) fun _ _ _ _ he => by cases he
  | event fd readable isException received =>
    by_cases hfd : s.fds.registered fd = some .logConnection
    · have hnext : s.logNext (.event fd readable isException received)
          = some (s.socketEventHandler readable isException received) := if_pos hfd
      rw [socketEventHandler_eq] at hnext
      by_cases hcloses : isException = true ∨ readable = true ∧ received = 0
      · rw [if_pos hcloses] at hnext
        rw [OwnOnly, OnLogConnection]
        constructor
        · intro hown
          rintro _ _ _ _ ⟨⟩ - -
          exact (loggingConnectionClosed_own_iff h fd).mp (hown fd _ _ _ rfl _ hnext)
        · intro hlog
          rintro _ _ _ _ ⟨⟩ t ht
          obtain rfl := Option.some.inj (hnext.symm.trans ht)
          exact (loggingConnectionClosed_own_iff h fd).mpr (hlog fd _ _ _ rfl hfd hcloses)
      · rw [if_neg hcloses] at hnext
        refine iff_of_true ?_ ?_
        · rintro _ _ _ _ ⟨⟩ t ht
          obtain rfl := Option.some.inj (hnext.symm.trans ht)
          exact fun _ _ => ⟨rfl, rfl⟩
        · rintro _ _ _ _ ⟨⟩ - hcloses'
          exact absurd hcloses' hcloses
    · have hnext : s.logNext (.event fd readable isException received) = none := if_neg hfd
      refine iff_of_true ?_ ?_
      · rintro _ _ _ _ ⟨⟩ t ht
        rw [hnext] at ht
        cases ht
      · rintro _ _ _ _ ⟨⟩ hreg
        exact absurd hreg hfd

/-- **The log server keeps its connections apart**: in every state the log is on the console or on an
open connection, and every open connection is registered; and no event on a connection touches
another, exactly when those that close are on the connection the log is on. -/
theorem own_events_iff (es : List LogEvent) :
    ((∀ t ∈ reached Services.logNext ({} : Services) es, LogOpen t ∧ ConnectionsRegistered t) ∧
        ∀ v ∈ visits Services.logNext ({} : Services) es, OwnOnly v.1 v.2) ↔
      ∀ v ∈ visits Services.logNext ({} : Services) es, OnLogConnection v.1 v.2 := by
  have hsound : ∀ t ∈ reached Services.logNext ({} : Services) es, LogSound t :=
    forall_reached (I := LogSound) (C := fun _ _ => True) (fun _ _ _ hs _ hn => hs.next hn) es
      ({} : Services) logSound_init fun _ _ => trivial
  rw [and_iff_right fun t ht => ⟨(hsound t ht).log, (hsound t ht).connections⟩]
  exact forall₂_congr fun v hv => ownOnly_iff
    (hsound v.1 (mem_reached_of_mem_visits es ({} : Services) hv)) v.2

/-- Two connections, the first of which is closed by its peer. -/
theorem other_connection_closed :
    ¬ ∀ es : List LogEvent,
      (∀ t ∈ reached Services.logNext ({} : Services) es, LogOpen t ∧ ConnectionsRegistered t) ∧
        ∀ v ∈ visits Services.logNext ({} : Services) es, OwnOnly v.1 v.2 := by
  intro h
  have hvisit := @mem_visits_of_foldlM Services LogEvent Services.logNext (.event 4 true false 0) _
    [.start ⟨some 3, true, true, true⟩, .accept 3 true (some 4), .accept 3 true (some 5)] {} rfl
  have hown := (h _).2 _ hvisit 4 true false 0 rfl _ rfl 5 (by decide)
  exact absurd hown.1 (by decide)

end Server
