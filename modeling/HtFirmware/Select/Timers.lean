import HtFirmware.Select.Loop

/-!
# Select/Timers — who is called for a timeout, and when

A handler is to be called for a timeout only if it has a timer, and only when that has run out since
its last call; and a pass is to call everybody whose timer had run out when it began.  The second
half always holds (`called_of_due`), and so does the first for the handlers that have a timer.

A handler without one has its expiration cleared when it is registered, but re-arming adds its
interval of zero to the reading of the pass: after its first event it is due at once, and the next
pass that has nothing for it calls it for a timeout (`keepsTimers_iff`).
-/

open Machinery

namespace Select

/-- The later of a registration's making and its last event. -/
def Registration.basis (r : Registration) : Timeval := r.last.getD r.since

/-- A timeout call is in order: there is a timer, and its interval has passed, but for ten
milliseconds. -/
def Registration.OnTime (r : Registration) (after : Timeval) : Prop :=
  r.seconds ≠ 0 ∧ r.basis.micros + r.seconds * 1000000 ≤ after.micros + 10000

/-- The step keeps the timers: a timeout call is on time, and at its end a pass has called whoever
was due and is still registered. -/
def KeepsTimers (s : State) : Event → Prop
  | .dispatch => ∀ p, s.phase = .passing p →
      (p.position < s.tables.fdLimit → ∀ c, s.tables.callAt p = some c → c.timeout = true →
        ∃ r, s.registrations p.position = some r ∧ r.OnTime p.after) ∧
      (s.tables.fdLimit ≤ p.position → ∀ fd r, p.due fd = some r →
        r.number ∈ p.called ∨ r.number ∈ s.ended)
  | _ => True

/-- The pass has readiness for the handler it meets, if that has no timer and has had an event
before the reading of the pass. -/
def MeetsNoIdle (s : State) : Event → Prop
  | .dispatch => ∀ p, s.phase = .passing p → p.position < s.tables.fdLimit →
      s.tables.monitoredFds p.position = true → ∀ r t, s.registrations p.position = some r →
        r.handler ≠ none → r.seconds = 0 → r.last = some t → Reached t p.after →
        p.sets.any p.position = true
  | _ => True

variable {s : State} {p : Pass}

/-- **A pass calls whoever is due**, unless the registration ends before its turn. -/
theorem called_of_due (h : Sound s) (hp : s.phase = .passing p) (hend : s.tables.fdLimit ≤ p.position)
    {fd : ℕ} {r : Registration} (hr : p.due fd = some r) : r.number ∈ p.called ∨ r.number ∈ s.ended := by
  obtain hc | he | ⟨hle, -, hm, -⟩ := h.owes p hp fd r hr
  · exact Or.inl hc
  · exact Or.inr he
  · have := h.bounded fd hm
    omega

/-- What a timeout call says of the descriptor. -/
theorem timeout_iff : (∃ c, s.tables.callAt p = some c ∧ c.timeout = true) ↔
    s.tables.monitoredFds p.position = true ∧ s.tables.handlers p.position ≠ none ∧
      Reached (s.tables.expirations p.position) p.after ∧ p.sets.any p.position = false := by
  constructor
  · rintro ⟨c, hc, ht⟩
    unfold Tables.callAt at hc
    split_ifs at hc with hevent
    obtain ⟨handler, hhandler, rfl⟩ := Option.map_eq_some_iff.mp hc
    rw [Tables.event, Bool.and_eq_true] at hevent
    rw [Bool.and_eq_true, Bool.not_eq_true', timedOut_iff] at ht
    exact ⟨hevent.1, hhandler ▸ Option.some_ne_none _, ht⟩
  · rintro ⟨hm, hh, hr, ha⟩
    obtain ⟨handler, hhandler⟩ := Option.ne_none_iff_exists'.mp hh
    have hevent : s.tables.event p = true := by
      rw [Tables.event, hm, timedOut_iff.mpr hr, Bool.or_true, Bool.and_true]
    refine ⟨_, by rw [Tables.callAt, if_pos hevent, hhandler, Option.map_some], ?_⟩
    rw [Bool.and_eq_true, Bool.not_eq_true']
    exact ⟨timedOut_iff.mpr hr, ha⟩

/-- A registration with a timer expires an interval after its basis. -/
theorem Registration.expires_of_timer {r : Registration} (h : r.seconds ≠ 0) :
    r.expires = r.basis.micros + r.seconds * 1000000 := by
  unfold expires basis
  cases r.last with
  | none => rw [if_neg h, Option.getD_none]
  | some t => rw [Option.getD_some]

/-- A registration without one never expires, before its first event. -/
theorem Registration.expires_of_no_timer {r : Registration} (h : r.seconds = 0) :
    r.expires = match r.last with
      | none => 0
      | some t => t.micros := by
  unfold expires
  cases r.last with
  | none => exact if_pos h
  | some t => simp [h]

/-- Every timeout call of the pass is on time exactly when it does not meet an idle handler without
a timer. -/
theorem onTime_iff (h : Sound s) :
    (∀ c, s.tables.callAt p = some c → c.timeout = true →
        ∃ r, s.registrations p.position = some r ∧ r.OnTime p.after) ↔
      (s.tables.monitoredFds p.position = true → ∀ r t, s.registrations p.position = some r →
        r.handler ≠ none → r.seconds = 0 → r.last = some t → Reached t p.after →
        p.sets.any p.position = true) := by
  constructor
  · intro hcalls hm r t hr hh hseconds hlast hreached
    by_contra hany
    have hexpires : (s.tables.expirations p.position).micros = t.micros := by
      rw [(h.holds _ r hr).expiration, Registration.expires_of_no_timer hseconds, hlast]
    obtain ⟨c, hc, ht⟩ := timeout_iff.mpr ⟨hm, (h.holds _ r hr).handler ▸ hh,
      by rw [Reached, hexpires]; exact hreached, Bool.not_eq_true _ ▸ hany⟩
    obtain ⟨r', hr', hne, -⟩ := hcalls c hc ht
    obtain rfl := Option.some.inj (hr.symm.trans hr')
    exact hne hseconds
  · intro hidle c hc ht
    obtain ⟨hm, hh, hreached, hany⟩ := timeout_iff.mp ⟨c, hc, ht⟩
    obtain ⟨r, hr⟩ := h.registered _ hm
    have hold := h.holds _ r hr
    rw [Reached, hold.expiration] at hreached
    by_cases hseconds : r.seconds = 0
    · rw [Registration.expires_of_no_timer hseconds] at hreached
      cases hlast : r.last with
      | none =>
        rw [hlast] at hreached
        exact absurd hreached.1 (Nat.lt_irrefl 0)
      | some t =>
        rw [hlast] at hreached
        rw [hidle hm r t hr (hold.handler ▸ hh) hseconds hlast hreached] at hany
        cases hany
    · rw [Registration.expires_of_timer hseconds] at hreached
      exact ⟨r, hr, hseconds, Nat.le_of_lt hreached.2⟩

theorem keepsTimers_step (h : Sound s) (e : Event) : KeepsTimers s e ↔ MeetsNoIdle s e := by
  cases e with
  | dispatch =>
    refine forall_congr' fun p => forall_congr' fun hp => ?_
    rw [onTime_iff h]
    exact and_iff_left fun hend fd r hr => called_of_due h hp hend hr
  | _ => exact Iff.rfl

/-- **The timers are kept over a run exactly when no pass meets an idle handler without a timer** —
one that has had an event, and for which `select` has reported nothing.  The time of a call is the reading
that its pass took. -/
theorem keepsTimers_iff (events : List Event) :
    (∀ v ∈ visits State.next {} events, KeepsTimers v.1 v.2) ↔
      ∀ v ∈ visits State.next {} events, MeetsNoIdle v.1 v.2 :=
  forall_visits_iff (fun _ e h => keepsTimers_step h e) (fun _ _ _ h _ hn => h.next hn) events {}
    sound_init

/-! ## The second pass over an idle descriptor -/

/-- A handler without a timer is registered, has an event at 1001 seconds, and then none: the next
pass is at 1030 seconds. -/
def idleAfterEvent : List Event :=
  [.register 0 (some 1) 0 ⟨true, false, true⟩ 0 (.ofSec 1000),
    .prepare (.ofSec 1000) fun _ => false,
    .select (.ready { read := fun fd => fd = 0 }) (.ofSec 1001), .dispatch, .dispatch,
    .prepare (.ofSec 1001) fun _ => false,
    .select (.ready {}) (.ofSec 1030)]

/-- It is called for a timeout. -/
theorem not_keepsTimers_idleAfterEvent :
    ¬ ∀ v ∈ visits State.next {} (idleAfterEvent ++ [.dispatch]), KeepsTimers v.1 v.2 := by
  intro h
  obtain ⟨s, p, hs, hp, hc⟩ : ∃ s p, idleAfterEvent.foldlM State.next {} = some s ∧
      s.phase = .passing p ∧ p.position < s.tables.fdLimit ∧
      (s.tables.callAt p).map Call.timeout = some true ∧
      (s.registrations p.position).map Registration.seconds = some 0 :=
    ⟨_, _, rfl, rfl, by decide, by decide, by decide⟩
  obtain ⟨hlt, hcall, hseconds⟩ := hc
  obtain ⟨c, hc, ht⟩ := Option.map_eq_some_iff.mp hcall
  obtain ⟨r, hr, hne, -⟩ := (h _ (mem_visits_of_foldlM _ _ hs) p hp).1 hlt c hc ht
  rw [hr] at hseconds
  exact hne (Option.some.inj hseconds)

end Select
