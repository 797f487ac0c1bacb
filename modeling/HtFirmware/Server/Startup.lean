import HtFirmware.Server.Services
import Mathlib.Data.Option.Basic

/-!
# Server/Startup — does a service know whether it is running?

Each service remembers its descriptor as soon as `socket` returns, and believes it is running while it
remembers one.  The steps after `socket` can fail, and then the descriptor is still remembered: the
socket is open but not set up, or, for the log server, closed.

`Truthful` is what the variables should say; it is kept by every call but the starts that fail after
`socket` succeeded (`recovers_iff`).
-/

open Machinery

namespace Server

/-! ## What the variables say -/

/-- The variable that remembers the descriptor of a service. -/
def Services.variable (s : Services) : Role → Option ℕ
  | .redirect => s.listener
  | .logServer => s.server
  | .pcpIpv4 => s.ipv4Socket
  | .pcpIpv6 => s.ipv6Socket
  | .console => none
  | .logConnection => none

/-- The roles of the four services. -/
def Role.isService : Role → Bool
  | redirect | logServer | pcpIpv4 | pcpIpv6 => true
  | console | logConnection => false

/-- A socket is open for a role, set up, and registered. -/
def Services.Running (s : Services) (r : Role) (fd : ℕ) : Prop :=
  s.fds.owner fd = some r ∧ s.fds.registered fd = some r

/-- **The variables tell the truth**: each names a running socket, or nothing; and no socket is open
that is not named. -/
structure Truthful (s : Services) : Prop where
  names : ∀ r fd, s.variable r = some fd → s.Running r fd
  named : ∀ r fd, r.isService = true → s.fds.owner fd = some r → s.variable r = some fd

/-! ## Calls -/

inductive ServiceCall where
  | gmStartRedirectToHttps (a : Answers)
  | gmStopRedirectToHttps
  | gmLogServerStart (a : Answers)
  | gmLogServerStop
  | gmPcpStartIpv4 (a : Answers)
  | gmPcpStartIpv6 (matchingAddress : Bool) (a : Answers)
  | gmPcpStop

/-- The state after a call. -/
def Services.call (s : Services) : ServiceCall → Services
  | .gmStartRedirectToHttps a => (s.gmStartRedirectToHttps a).1
  | .gmStopRedirectToHttps => s.gmStopRedirectToHttps
  | .gmLogServerStart a => s.gmLogServerStart a
  | .gmLogServerStop => s.gmLogServerStop
  | .gmPcpStartIpv4 a => s.gmPcpStartIpv4 a
  | .gmPcpStartIpv6 matchingAddress a => s.gmPcpStartIpv6 matchingAddress a
  | .gmPcpStop => s.gmPcpStop

def Services.callNext (s : Services) (c : ServiceCall) : Option Services := some (s.call c)

/-- **A call recovers**: after it the variables tell the truth, and `ESP_OK` means that the redirect
server listens. -/
def Recovers (s : Services) (c : ServiceCall) : Prop :=
  Truthful (s.call c) ∧ ∀ a, c = .gmStartRedirectToHttps a → (s.gmStartRedirectToHttps a).2 = .ok →
    ∃ fd, (s.call c).listener = some fd ∧ (s.call c).Running .redirect fd

/-- **What it takes**: once a start got a socket, no later step of it fails. -/
def SetsUp (s : Services) : ServiceCall → Prop
  | .gmStartRedirectToHttps a => s.listener = none → (s.fresh a.number).isSome → a.bind ∧ a.listen
  | .gmLogServerStart a => s.server = none → (s.fresh a.number).isSome → a.bind ∧ a.listen
  | .gmPcpStartIpv4 a => s.ipv4Socket = none → (s.fresh a.number).isSome → a.bind ∧ a.membership
  | .gmPcpStartIpv6 matchingAddress a => s.ipv6Socket = none → matchingAddress →
    (s.fresh a.number).isSome → a.bind ∧ a.membership
  | .gmStopRedirectToHttps => True
  | .gmLogServerStop => True
  | .gmPcpStop => True

/-! ## What the calls keep -/

/-- **What the calls keep** while they recover: the console is open, nobody accepted a connection, and
what is registered is open. -/
structure ServicesSound (s : Services) : Prop where
  truthful : Truthful s
  console : s.fds.owner 0 = some .console
  log : s.logFd = 2
  live : ∀ fd r, s.fds.registered fd = some r → s.fds.owner fd = some r

theorem servicesSound_init : ServicesSound {} where
  truthful := by
    refine ⟨fun r fd h => ?_, fun r fd hr h => ?_⟩
    · cases r <;> cases h
    · simp only at h
      split_ifs at h
      obtain rfl := Option.some.inj h
      cases hr
  console := rfl
  log := rfl
  live _ _ h := by cases h

section Sound

variable {s t : Services} {r : Role} {fd : ℕ}

/-- A variable that names what is not registered does not tell the truth. -/
theorem not_truthful (hvariable : t.variable r = some fd) (hregistered : t.fds.registered fd ≠ some r) :
    ¬ Truthful t := fun h => hregistered (h.names r fd hvariable).2

/-- A socket that was set up is remembered. -/
theorem ServicesSound.of_start (h : ServicesSound s) (hfree : s.fds.owner fd = none)
    (hidle : s.variable r = none) (hvariable : t.variable = Function.update s.variable r (some fd))
    (hfds : t.fds = (s.fds.opened fd r).register fd r) (hlog : t.logFd = s.logFd) :
    ServicesSound t := by
  have howner : ∀ i, t.fds.owner i = if i = fd then some r else s.fds.owner i := by simp [hfds]
  have hregistered : ∀ i, t.fds.registered i = if i = fd then some r else s.fds.registered i := by
    simp [hfds]
  have hne : ∀ i r', s.fds.owner i = some r' → i ≠ fd := by
    rintro i r' hi rfl
    rw [hfree] at hi
    cases hi
  refine ⟨⟨fun r' i hi => ?_, fun r' i hr' hi => ?_⟩, ?_, hlog.trans h.log, fun i r' hi => ?_⟩
  · rw [hvariable, Function.update_apply] at hi
    rw [Services.Running, howner, hregistered]
    split_ifs at hi with hr
    · rw [if_pos (Option.some.inj hi).symm, if_pos (Option.some.inj hi).symm, hr]
      exact ⟨rfl, rfl⟩
    · obtain ⟨hown, hreg⟩ := h.truthful.names r' i hi
      rw [if_neg (hne i r' hown), if_neg (hne i r' hown)]
      exact ⟨hown, hreg⟩
  · rw [howner] at hi
    rw [hvariable, Function.update_apply]
    split_ifs at hi with hfd
    · rw [if_pos (Option.some.inj hi).symm, hfd]
    · have hnamed := h.truthful.named r' i hr' hi
      rw [if_neg fun hr => by rw [hr, hidle] at hnamed; cases hnamed]
      exact hnamed
  · rw [howner, if_neg (hne 0 _ h.console)]
    exact h.console
  · rw [hregistered] at hi
    rw [howner]
    split_ifs at hi with hfd
    · rw [if_pos hfd]
      exact hi
    · rw [if_neg hfd]
      exact h.live i r' hi

/-- A socket that was given up is forgotten. -/
theorem ServicesSound.of_stop (h : ServicesSound s) (hnames : s.variable r = some fd)
    (hvariable : t.variable = Function.update s.variable r none)
    (hfds : t.fds = (s.fds.unregister fd).closed fd) (hlog : t.logFd = s.logFd) :
    ServicesSound t := by
  have howner : ∀ i, t.fds.owner i = if i = fd then none else s.fds.owner i := by simp [hfds]
  have hregistered : ∀ i, t.fds.registered i = if i = fd then none else s.fds.registered i := by
    simp [hfds]
  have hmine := h.truthful.names r fd hnames
  refine ⟨⟨fun r' i hi => ?_, fun r' i hr' hi => ?_⟩, ?_, hlog.trans h.log, fun i r' hi => ?_⟩
  · rw [hvariable, Function.update_apply] at hi
    split_ifs at hi with hr
    obtain ⟨hown, hreg⟩ := h.truthful.names r' i hi
    have hne : i ≠ fd := by
      rintro rfl
      exact hr (Option.some.inj (hown.symm.trans hmine.1))
    rw [Services.Running, howner, hregistered, if_neg hne, if_neg hne]
    exact ⟨hown, hreg⟩
  · rw [howner] at hi
    split_ifs at hi with hfd
    have hnamed := h.truthful.named r' i hr' hi
    rw [hvariable, Function.update_apply, if_neg]
    · exact hnamed
    · rintro rfl
      exact hfd (Option.some.inj (hnamed.symm.trans hnames))
  · rw [howner, if_neg]
    · exact h.console
    · rintro rfl
      obtain rfl := Option.some.inj (h.console.symm.trans hmine.1)
      cases hnames
  · rw [hregistered] at hi
    split_ifs at hi with hfd
    rw [howner, if_neg hfd]
    exact h.live i r' hi

/-- Nobody is registered for a free number. -/
theorem ServicesSound.unregistered (h : ServicesSound s) (hfree : s.fds.owner fd = none) :
    s.fds.registered fd = none := by
  cases hreg : s.fds.registered fd with
  | none => rfl
  | some r =>
    have hopen := h.live fd r hreg
    rw [hfree] at hopen
    cases hopen

/-! ### One call -/

/-- **One call**: the variables tell the truth after it exactly if its steps succeed, and then it keeps
what the calls keep. -/
def Decided (s : Services) (c : ServiceCall) : Prop :=
  (Truthful (s.call c) ↔ SetsUp s c) ∧ (SetsUp s c → ServicesSound (s.call c))

theorem decided_of_sound {c : ServiceCall} (hcall : ServicesSound (s.call c)) (hset : SetsUp s c) :
    Decided s c := ⟨iff_of_true hcall.truthful hset, fun _ => hcall⟩

/-- A start that got a socket: it is remembered, and registered only if the steps after it succeed. -/
theorem ServicesSound.decided_of_fresh (h : ServicesSound s) {c : ServiceCall} {failed : Services}
    {ok : Prop} [Decidable ok] (r : Role) (hidle : s.variable r = none)
    (hfree : s.fds.owner fd = none) (hcall : s.call c = if ok then t else failed)
    (hset : SetsUp s c ↔ ok) (hvariable : t.variable = Function.update s.variable r (some fd))
    (hfds : t.fds = (s.fds.opened fd r).register fd r) (hlog : t.logFd = s.logFd)
    (hnamed : failed.variable r = some fd)
    (hregistered : failed.fds.registered = s.fds.registered) : Decided s c := by
  rw [Decided, hset, hcall]
  split_ifs with hok
  · have hsound := h.of_start hfree hidle hvariable hfds hlog
    exact ⟨iff_of_true hsound.truthful hok, fun _ => hsound⟩
  · refine ⟨iff_of_false (not_truthful hnamed ?_) hok, fun hdone => absurd hdone hok⟩
    rw [hregistered, h.unregistered hfree]
    exact fun hnone => by cases hnone

/-- A start that is not needed, or that got no socket. -/
theorem ServicesSound.decided_of_unchanged (h : ServicesSound s) {c : ServiceCall}
    (hcall : s.call c = s) (hset : SetsUp s c) : Decided s c :=
  decided_of_sound (hcall.symm ▸ h) hset

/-! ### The starts -/

theorem ServicesSound.gmStartRedirectToHttps (h : ServicesSound s) (a : Answers) :
    Decided s (.gmStartRedirectToHttps a) := by
  cases hlistener : s.listener with
  | some fd =>
    exact h.decided_of_unchanged
      (by simp [Services.call, Services.gmStartRedirectToHttps, hlistener])
      (by simp [SetsUp, hlistener])
  | none =>
    cases hfresh : s.fresh a.number with
    | none =>
      exact h.decided_of_unchanged
        (by simp [Services.call, Services.gmStartRedirectToHttps, hlistener, hfresh])
        (by simp [SetsUp, hfresh])
    | some fd =>
      have hcall : s.call (.gmStartRedirectToHttps a) = if a.bind ∧ a.listen then
            { s with
              fds := (s.fds.opened fd .redirect).register fd .redirect
              listener := some fd }
          else { s with fds := s.fds.opened fd .redirect, listener := some fd } := by
        cases hbind : a.bind <;> cases hlisten : a.listen <;>
          simp [Services.call, Services.gmStartRedirectToHttps, hlistener, hfresh, hbind, hlisten]
      exact h.decided_of_fresh .redirect hlistener (Services.owner_of_fresh hfresh) hcall
        (by simp [SetsUp, hlistener, hfresh]) (funext fun r => by cases r <;> rfl) rfl rfl rfl rfl

theorem ServicesSound.gmLogServerStart (h : ServicesSound s) (a : Answers) :
    Decided s (.gmLogServerStart a) := by
  cases hserver : s.server with
  | some fd =>
    have hpos : 0 < fd := by
      refine Nat.pos_of_ne_zero fun hzero => ?_
      have howner := (h.truthful.names .logServer fd hserver).1
      rw [hzero, h.console] at howner
      cases howner
    exact h.decided_of_unchanged
      (by simp [Services.call, Services.gmLogServerStart, hserver, hpos])
      (by simp [SetsUp, hserver])
  | none =>
    cases hfresh : s.fresh a.number with
    | none =>
      have hcall : s.call (.gmLogServerStart a) = { s with server := none } := by
        simp [Services.call, Services.gmLogServerStart, hserver, hfresh]
      refine h.decided_of_unchanged ?_ (by simp [SetsUp, hfresh])
      rw [hcall, ← hserver]
    | some fd =>
      have hcall : s.call (.gmLogServerStart a) = if a.bind ∧ a.listen then
            { s with
              fds := (s.fds.opened fd .logServer).register fd .logServer
              server := some fd }
          else
            { s with
              fds := if a.bind then (s.fds.opened fd .logServer).closed fd
                else s.fds.opened fd .logServer
              server := some fd } := by
        cases hbind : a.bind <;> cases hlisten : a.listen <;>
          simp [Services.call, Services.gmLogServerStart, hserver, hfresh, hbind, hlisten]
      refine h.decided_of_fresh .logServer hserver (Services.owner_of_fresh hfresh) hcall
        (by simp [SetsUp, hserver, hfresh]) (funext fun r => by cases r <;> rfl) rfl rfl rfl ?_
      dsimp only
      split_ifs <;> rfl

theorem ServicesSound.gmPcpStartIpv4 (h : ServicesSound s) (a : Answers) :
    Decided s (.gmPcpStartIpv4 a) := by
  cases hsocket : s.ipv4Socket with
  | some fd =>
    exact h.decided_of_unchanged (by simp [Services.call, Services.gmPcpStartIpv4, hsocket])
      (by simp [SetsUp, hsocket])
  | none =>
    cases hfresh : s.fresh a.number with
    | none =>
      exact h.decided_of_unchanged
        (by simp [Services.call, Services.gmPcpStartIpv4, hsocket, hfresh])
        (by simp [SetsUp, hfresh])
    | some fd =>
      have hcall : s.call (.gmPcpStartIpv4 a) = if a.bind ∧ a.membership then
            { s with
              fds := (s.fds.opened fd .pcpIpv4).register fd .pcpIpv4
              ipv4Socket := some fd }
          else { s with fds := s.fds.opened fd .pcpIpv4, ipv4Socket := some fd } := by
        cases hbind : a.bind <;> cases hmembership : a.membership <;>
          simp [Services.call, Services.gmPcpStartIpv4, hsocket, hfresh, hbind, hmembership]
      exact h.decided_of_fresh .pcpIpv4 hsocket (Services.owner_of_fresh hfresh) hcall
        (by simp [SetsUp, hsocket, hfresh]) (funext fun r => by cases r <;> rfl) rfl rfl rfl rfl

theorem ServicesSound.gmPcpStartIpv6 (h : ServicesSound s) (matchingAddress : Bool) (a : Answers) :
    Decided s (.gmPcpStartIpv6 matchingAddress a) := by
  cases hsocket : s.ipv6Socket with
  | some fd =>
    exact h.decided_of_unchanged (by simp [Services.call, Services.gmPcpStartIpv6, hsocket])
      (by simp [SetsUp, hsocket])
  | none =>
    cases matchingAddress with
    | false =>
      exact h.decided_of_unchanged (by simp [Services.call, Services.gmPcpStartIpv6])
        (by simp [SetsUp])
    | true =>
      cases hfresh : s.fresh a.number with
      | none =>
        exact h.decided_of_unchanged
          (by simp [Services.call, Services.gmPcpStartIpv6, hsocket, hfresh])
          (by simp [SetsUp, hfresh])
      | some fd =>
        have hcall : s.call (.gmPcpStartIpv6 true a) = if a.bind ∧ a.membership then
              { s with
                fds := (s.fds.opened fd .pcpIpv6).register fd .pcpIpv6
                ipv6Socket := some fd }
            else { s with fds := s.fds.opened fd .pcpIpv6, ipv6Socket := some fd } := by
          cases hbind : a.bind <;> cases hmembership : a.membership <;>
            simp [Services.call, Services.gmPcpStartIpv6, hsocket, hfresh, hbind, hmembership]
        exact h.decided_of_fresh .pcpIpv6 hsocket (Services.owner_of_fresh hfresh) hcall
          (by simp [SetsUp, hsocket, hfresh]) (funext fun r => by cases r <;> rfl) rfl rfl rfl rfl

/-! ### The stops -/

theorem ServicesSound.gmStopRedirectToHttps (h : ServicesSound s) :
    ServicesSound s.gmStopRedirectToHttps := by
  unfold Services.gmStopRedirectToHttps
  cases hlistener : s.listener with
  | none => exact h
  | some fd =>
    exact h.of_stop (r := .redirect) hlistener (funext fun r => by cases r <;> rfl) rfl rfl

theorem ServicesSound.gmLogServerStop (h : ServicesSound s) : ServicesSound s.gmLogServerStop := by
  have hclosed : s.loggingConnectionClosed = s := if_pos h.log
  unfold Services.gmLogServerStop
  rw [hclosed]
  dsimp only
  cases hserver : s.server with
  | none => exact h
  | some fd =>
    exact h.of_stop (r := .logServer) hserver (funext fun r => by cases r <;> rfl) rfl rfl

theorem ServicesSound.gmPcpStop (h : ServicesSound s) : ServicesSound s.gmPcpStop := by
  have stop_ipv4 : ∀ {fd : ℕ}, s.ipv4Socket = some fd →
      ServicesSound { s.drop fd with ipv4Socket := none } := fun hsocket =>
    h.of_stop (r := .pcpIpv4) hsocket (funext fun r => by cases r <;> rfl) rfl rfl
  have stop_ipv6 : ∀ {s : Services} {fd : ℕ}, ServicesSound s → s.ipv6Socket = some fd →
      ServicesSound { s.drop fd with ipv6Socket := none } := fun h hsocket =>
    h.of_stop (r := .pcpIpv6) hsocket (funext fun r => by cases r <;> rfl) rfl rfl
  unfold Services.gmPcpStop
  cases hipv4 : s.ipv4Socket with
  | none =>
    cases hipv6 : s.ipv6Socket with
    | none => simpa only [hipv6] using h
    | some fd => simpa only [hipv6] using stop_ipv6 h hipv6
  | some fd =>
    cases hipv6 : s.ipv6Socket with
    | none => simpa only [Services.drop, hipv6] using stop_ipv4 hipv4
    | some fd' => simpa only [Services.drop, hipv6] using stop_ipv6 (stop_ipv4 hipv4) hipv6

theorem ServicesSound.call (h : ServicesSound s) (c : ServiceCall) : Decided s c := by
  cases c with
  | gmStartRedirectToHttps a => exact h.gmStartRedirectToHttps a
  | gmStopRedirectToHttps => exact decided_of_sound h.gmStopRedirectToHttps trivial
  | gmLogServerStart a => exact h.gmLogServerStart a
  | gmLogServerStop => exact decided_of_sound h.gmLogServerStop trivial
  | gmPcpStartIpv4 a => exact h.gmPcpStartIpv4 a
  | gmPcpStartIpv6 matchingAddress a => exact h.gmPcpStartIpv6 matchingAddress a
  | gmPcpStop => exact decided_of_sound h.gmPcpStop trivial

end Sound

/-! ## Recovery -/

/-- A start of the redirect server that succeeds remembers a descriptor. -/
theorem listener_of_ok {s : Services} {a : Answers} (hok : (s.gmStartRedirectToHttps a).2 = .ok) :
    ∃ fd, (s.gmStartRedirectToHttps a).1.listener = some fd := by
  unfold Services.gmStartRedirectToHttps at hok ⊢
  cases hlistener : s.listener with
  | some fd => exact ⟨fd, by simp [hlistener]⟩
  | none =>
    cases hfresh : s.fresh a.number with
    | none => simp [hlistener, hfresh] at hok
    | some fd =>
      refine ⟨fd, ?_⟩
      cases hbind : a.bind <;> cases hlisten : a.listen <;> simp

theorem recovers_iff_truthful (s : Services) (c : ServiceCall) :
    Recovers s c ↔ Truthful (s.call c) := by
  refine and_iff_left_of_imp fun htruthful => ?_
  rintro a rfl hok
  obtain ⟨fd, hlistener⟩ := listener_of_ok hok
  exact ⟨fd, hlistener, htruthful.names .redirect fd hlistener⟩

/-- **Starts that fail are recoverable**, exactly in the runs in which no start fails after it got its
socket. -/
theorem recovers_iff (cs : List ServiceCall) :
    (∀ v ∈ visits Services.callNext ({} : Services) cs, Recovers v.1 v.2) ↔
      ∀ v ∈ visits Services.callNext ({} : Services) cs, SetsUp v.1 v.2 :=
  forall_visits_iff (I := ServicesSound) (P := Recovers) (C := SetsUp)
    (fun s c hs => (recovers_iff_truthful s c).trans (hs.call c).1)
    (fun _ c _ hs hc hn => Option.some.inj hn ▸ (hs.call c).2 hc) cs {} servicesSound_init

/-- The redirect server gets a socket that cannot be bound. -/
theorem failed_bind_not_recovered : ¬ ∀ cs : List ServiceCall,
    ∀ v ∈ visits Services.callNext ({} : Services) cs, Recovers v.1 v.2 := by
  intro h
  have hrecovers := h [.gmStartRedirectToHttps ⟨some 3, false, true, true⟩] _ (List.mem_singleton_self _)
  have hnames := hrecovers.1.names .redirect 3 rfl
  exact absurd hnames.2 (by decide)

end Server
