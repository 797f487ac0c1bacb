import HtFirmware.Machinery.Run
import HtFirmware.Select.Tables

/-!
# Select/Loop — the select task, one step at a time

The task copies the sets and sweeps the table (`prepare`), blocks in `select`, and then makes a pass
over the descriptors, one at a time (`dispatch`).  Registering and unregistering may come between
any two steps: from a handler the pass has called, or from another task.

A registration is numbered when it is made, and keeps the clock reading it was made at, and the
reading of the last pass that found it due.  `Sound` is what every state reached has: each monitored
descriptor belongs to a registration in force, whose handler, interval and expiration the tables
hold.
-/

open Machinery

namespace Select

/-! ## States -/

/-- A call of `gm_fd_register`, and the reading of the last pass with an event for it. -/
structure Registration where
  number : ℕ
  handler : Option ℕ
  data : ℕ
  seconds : ℕ
  since : Timeval
  last : Option Timeval := none

/-- What `select` comes back with: the sets it leaves, `EBADF`, or another error. -/
inductive SelectResult where
  | ready (sets : FdSets)
  | badFd
  | failed

/-- A pass over the descriptors: its position, the sets and the reading it works with, and, for the
record, what `select` came back with, how many registrations were made before the sets were copied,
whose expiration had been reached when `select` returned, and who has been called since. -/
structure Pass where
  position : ℕ := 0
  sets : FdSets
  after : Timeval
  result : SelectResult
  copied : ℕ
  due : ℕ → Option Registration
  called : List ℕ := []

/-- Where the task is. -/
inductive Phase where
  | top
  | selecting (sets : FdSets) (blocking : Timeval) (copied : ℕ)
  | passing (p : Pass)

/-- The tables, the task, the registrations in force, how many were made, and which have ended. -/
structure State where
  tables : Tables := {}
  phase : Phase := .top
  registrations : ℕ → Option Registration := fun _ => none
  count : ℕ := 0
  ended : List ℕ := []

/-! ## Registering -/

namespace State

/-- The registration of a descriptor ends. -/
def endAt (s : State) (fd : ℕ) : List ℕ :=
  match s.registrations fd with
  | some r => r.number :: s.ended
  | none => s.ended

def gmFdRegister (s : State) (fd : ℕ) (handler : Option ℕ) (d : ℕ) (w : Interest) (seconds : ℕ)
    (now : Timeval) : State where
  tables := s.tables.gmFdRegister fd handler d w seconds now
  phase := s.phase
  registrations := Function.update s.registrations fd (some ⟨s.count, handler, d, seconds, now, none⟩)
  count := s.count + 1
  ended := s.endAt fd

def gmFdUnregister (s : State) (fd : ℕ) : State where
  tables := s.tables.gmFdUnregister fd
  phase := s.phase
  registrations := Function.update s.registrations fd none
  count := s.count
  ended := s.endAt fd

/-! ## Before `select` -/

/-- The loop over the descriptors ahead of `select`: the closed ones are unregistered, and the
blocking interval is cut down to the nearest expiration; it stops at the first that has passed. -/
def sweep (before : Timeval) (closed : ℕ → Bool) : List ℕ → Timeval → State → Timeval × State
  | [], blocking, s => (blocking, s)
  | i :: is, blocking, s =>
    if i < s.tables.fdLimit then
      if s.tables.monitoredFds i then
        let s := if closed i then s.gmFdUnregister i else s
        let t := s.tables.expirations i
        if t.isSet then
          if t.lt before then (.clear, s)
          else sweep before closed is (if (t.sub before).lt blocking then t.sub before else blocking) s
        else sweep before closed is blocking s
      else sweep before closed is blocking s
    else (blocking, s)

/-- From the top of the loop to the call of `select`. -/
def prepare (s : State) (before : Timeval) (closed : ℕ → Bool) : State :=
  let swept := sweep before closed (List.range s.tables.fdLimit) (.ofSec (1 <<< 30)) s
  { swept.2 with phase := .selecting s.tables.sets swept.1 s.count }

end State

/-! ## After `select` -/

/-- The timer of a descriptor has run out, but for the granularity allowed. -/
def timedOut (t after : Timeval) : Bool :=
  if t.isSet then
    if t.lt after then true
    else (t.sub after).sec = 0 && decide ((t.sub after).usec < 10000)
  else false

/-- An expiration has been reached, or is less than ten milliseconds away. -/
def Reached (t after : Timeval) : Prop := 0 < t.micros ∧ t.micros < after.micros + 10000

instance (t after : Timeval) : Decidable (Reached t after) := inferInstanceAs (Decidable (_ ∧ _))

/-- The monitored descriptors with a handler whose expiration has been reached. -/
def State.dueAt (s : State) (after : Timeval) (fd : ℕ) : Option Registration :=
  if s.tables.monitoredFds fd ∧ s.tables.handlers fd ≠ none ∧ Reached (s.tables.expirations fd) after
  then s.registrations fd else none

/-- What `select` leaves of the sets it was called with. -/
def FdSets.inter (sets reported : FdSets) : FdSets where
  read fd := sets.read fd && reported.read fd
  write fd := sets.write fd && reported.write fd
  exception fd := sets.exception fd && reported.exception fd

/-- The pass that starts when `select` has returned. -/
def State.pass (s : State) (sets : FdSets) (copied : ℕ) (result : SelectResult) (after : Timeval) :
    Pass where
  sets := sets
  after := after
  result := result
  copied := copied
  due := s.dueAt after

/-- `select` returns.  On `EBADF` the loop starts again; on another error the pass goes ahead with
the sets as they were copied. -/
def State.selectReturns (s : State) (sets : FdSets) (copied : ℕ) (result : SelectResult)
    (after : Timeval) : State :=
  match result with
  | .badFd => { s with phase := .top }
  | .failed => { s with phase := .passing (s.pass sets copied .failed after) }
  | .ready reported =>
    { s with phase := .passing (s.pass (sets.inter reported) copied (.ready reported) after) }

/-- A handler's call. -/
structure Call where
  handler : ℕ
  fd : ℕ
  data : ℕ
  readable : Bool
  writable : Bool
  exception : Bool
  timeout : Bool
  deriving DecidableEq

/-- The pass has something for the descriptor it is at. -/
def Tables.event (t : Tables) (p : Pass) : Bool :=
  t.monitoredFds p.position && (p.sets.any p.position || timedOut (t.expirations p.position) p.after)

/-- The call the pass makes for the descriptor it is at. -/
def Tables.callAt (t : Tables) (p : Pass) : Option Call :=
  if t.event p then
    (t.handlers p.position).map fun handler =>
      { handler := handler, fd := p.position, data := t.data p.position
        readable := p.sets.read p.position, writable := p.sets.write p.position
        exception := p.sets.exception p.position
        timeout := timedOut (t.expirations p.position) p.after && !p.sets.any p.position }
  else none

/-- The expiration is set anew after an event. -/
def Tables.rearm (t : Tables) (fd : ℕ) (after : Timeval) : Tables :=
  { t with expirations := Function.update t.expirations fd ((t.intervals fd).add after) }

/-- The registration at the position of a pass that had an event for it. -/
def State.met (s : State) (p : Pass) : ℕ → Option Registration :=
  Function.update s.registrations p.position
    ((s.registrations p.position).map fun r => { r with last := some p.after })

/-- Who the pass has called, once it has been at its position. -/
def State.calledAfter (s : State) (p : Pass) : List ℕ :=
  match s.tables.callAt p, s.registrations p.position with
  | some _, some r => r.number :: p.called
  | _, _ => p.called

/-- One descriptor of the pass, or its end. -/
def State.dispatch (s : State) (p : Pass) : State :=
  if p.position < s.tables.fdLimit then
    if s.tables.event p then
      { s with
        tables := s.tables.rearm p.position p.after
        registrations := s.met p
        phase := .passing { p with position := p.position + 1, called := s.calledAfter p } }
    else { s with phase := .passing { p with position := p.position + 1 } }
  else { s with phase := .top }

/-! ## Runs -/

/-- A step of the task, or of whoever registers and unregisters. -/
inductive Event where
  | register (fd : ℕ) (handler : Option ℕ) (data : ℕ) (interest : Interest) (seconds : ℕ)
      (now : Timeval)
  | unregister (fd : ℕ)
  | prepare (before : Timeval) (closed : ℕ → Bool)
  | select (result : SelectResult) (after : Timeval)
  | dispatch

/-- The state after an event; `none` where the task is not at that step. -/
def State.next (s : State) : Event → Option State
  | .register fd handler d w seconds now => some (s.gmFdRegister fd handler d w seconds now)
  | .unregister fd => some (s.gmFdUnregister fd)
  | .prepare before closed =>
    match s.phase with
    | .top => some (s.prepare before closed)
    | _ => none
  | .select result after =>
    match s.phase with
    | .selecting sets _ copied => some (s.selectReturns sets copied result after)
    | _ => none
  | .dispatch =>
    match s.phase with
    | .passing p => some (s.dispatch p)
    | _ => none

/-! ## What every state reached has -/

/-- When the timer of a registration expires, in microseconds: its interval after the last event, or
after it was made; zero where there is no timer. -/
def Registration.expires (r : Registration) : ℕ :=
  match r.last with
  | some t => t.micros + r.seconds * 1000000
  | none => if r.seconds = 0 then 0 else r.since.micros + r.seconds * 1000000

/-- The tables hold a registration. -/
structure Tables.Holds (t : Tables) (fd : ℕ) (r : Registration) : Prop where
  handler : t.handlers fd = r.handler
  data : t.data fd = r.data
  interval : t.intervals fd = .ofSec r.seconds
  expiration : (t.expirations fd).micros = r.expires

/-- Somebody due in the pass has been called, is no longer registered, or is still ahead of it. -/
def Pass.Owes (p : Pass) (s : State) (fd : ℕ) (r : Registration) : Prop :=
  r.number ∈ p.called ∨ r.number ∈ s.ended ∨
    (p.position ≤ fd ∧ s.registrations fd = some r ∧ s.tables.monitoredFds fd = true ∧
      s.tables.handlers fd ≠ none ∧ Reached (s.tables.expirations fd) p.after)

/-- **What every state reached has**: the monitored descriptors are below the limit, and registered;
the tables hold the registrations in force; these have numbers of their own, which have not ended;
and the pass still owes whoever was due and has not been called. -/
structure Sound (s : State) : Prop where
  bounded : s.tables.Bounded
  registered : ∀ fd, s.tables.monitoredFds fd = true → ∃ r, s.registrations fd = some r
  holds : ∀ fd r, s.registrations fd = some r → s.tables.Holds fd r
  number_lt : ∀ fd r, s.registrations fd = some r → r.number < s.count
  number_inj : ∀ fd fd' r r', s.registrations fd = some r → s.registrations fd' = some r' →
    r.number = r'.number → fd = fd'
  not_ended : ∀ fd r, s.registrations fd = some r → r.number ∉ s.ended
  ended_lt : ∀ n ∈ s.ended, n < s.count
  owes : ∀ p, s.phase = .passing p → ∀ fd r, p.due fd = some r → p.Owes s fd r

theorem sound_init : Sound {} where
  bounded := Tables.bounded_init
  registered _ h := by cases h
  holds _ _ h := by cases h
  number_lt _ _ h := by cases h
  number_inj _ _ _ _ h := by cases h
  not_ended _ _ h := by cases h
  ended_lt _ h := by cases h
  owes _ h := by cases h

theorem mem_endAt {s : State} {fd n : ℕ} :
    n ∈ s.endAt fd ↔ n ∈ s.ended ∨ ∃ r, s.registrations fd = some r ∧ r.number = n := by
  unfold State.endAt
  cases s.registrations fd with
  | none => simp
  | some r => simp [or_comm, eq_comm]

/-! ## Registering, and what it leaves alone -/

/-- Only the entry of one descriptor changes, and its registration ends. -/
structure Changes (s : State) (fd : ℕ) (t : State) : Prop where
  phase : t.phase = s.phase
  ended : t.ended = s.endAt fd
  count_le : s.count ≤ t.count
  registrations : ∀ i, i ≠ fd → t.registrations i = s.registrations i
  monitored : ∀ i, i ≠ fd → t.tables.monitoredFds i = s.tables.monitoredFds i
  handlers : ∀ i, i ≠ fd → t.tables.handlers i = s.tables.handlers i
  data : ∀ i, i ≠ fd → t.tables.data i = s.tables.data i
  intervals : ∀ i, i ≠ fd → t.tables.intervals i = s.tables.intervals i
  expirations : ∀ i, i ≠ fd → t.tables.expirations i = s.tables.expirations i

theorem changes_gmFdRegister (s : State) (fd : ℕ) (handler : Option ℕ) (d : ℕ) (w : Interest)
    (seconds : ℕ) (now : Timeval) : Changes s fd (s.gmFdRegister fd handler d w seconds now) where
  phase := rfl
  ended := rfl
  count_le := Nat.le_succ _
  registrations _ hi := Function.update_of_ne hi _ _
  monitored i hi := by
    simp only [State.gmFdRegister, Tables.gmFdRegister]
    split_ifs
    exacts [Function.update_of_ne hi _ _, rfl]
  handlers _ hi := Function.update_of_ne hi _ _
  data _ hi := Function.update_of_ne hi _ _
  intervals _ hi := Function.update_of_ne hi _ _
  expirations _ hi := Function.update_of_ne hi _ _

theorem changes_gmFdUnregister (s : State) (fd : ℕ) : Changes s fd (s.gmFdUnregister fd) where
  phase := rfl
  ended := rfl
  count_le := Nat.le_refl _
  registrations _ hi := Function.update_of_ne hi _ _
  monitored _ hi := Function.update_of_ne hi _ _
  handlers _ hi := Function.update_of_ne hi _ _
  data _ hi := Function.update_of_ne hi _ _
  intervals _ hi := Function.update_of_ne hi _ _
  expirations _ hi := Function.update_of_ne hi _ _

section Changes

variable {s t : State} {fd : ℕ}

theorem Changes.ended_subset (hc : Changes s fd t) {n : ℕ} (hn : n ∈ s.ended) : n ∈ t.ended := by
  rw [hc.ended]
  exact mem_endAt.mpr (Or.inl hn)

/-- A registration in force before either ends, or stays. -/
theorem Changes.ends_or_stays (hc : Changes s fd t) {i : ℕ} {r : Registration}
    (hr : s.registrations i = some r) : (i = fd ∧ r.number ∈ t.ended) ∨
      i ≠ fd ∧ t.registrations i = some r := by
  by_cases hi : i = fd
  · subst hi
    rw [hc.ended]
    exact Or.inl ⟨rfl, mem_endAt.mpr (Or.inr ⟨r, hr, rfl⟩)⟩
  · exact Or.inr ⟨hi, (hc.registrations i hi).trans hr⟩

theorem Pass.Owes.changes (hc : Changes s fd t) {p : Pass} {i : ℕ} {r : Registration}
    (h : p.Owes s i r) : p.Owes t i r := by
  obtain h | h | ⟨hle, hr, hm, hh, he⟩ := h
  · exact Or.inl h
  · exact Or.inr (Or.inl (hc.ended_subset h))
  · obtain ⟨-, h⟩ | ⟨hi, h⟩ := hc.ends_or_stays hr
    · exact Or.inr (Or.inl h)
    · refine Or.inr (Or.inr ⟨hle, h, ?_, ?_, ?_⟩)
      · rw [hc.monitored i hi, hm]
      · rwa [hc.handlers i hi]
      · rwa [hc.expirations i hi]

/-- **A change of one entry is sound** where the entry is: it has the next number, if it is a
registration at all. -/
theorem Sound.changes (h : Sound s) (hc : Changes s fd t) (hbounded : t.tables.Bounded)
    (hregistered : t.tables.monitoredFds fd = true → ∃ r, t.registrations fd = some r)
    (hnew : ∀ r, t.registrations fd = some r →
      t.tables.Holds fd r ∧ r.number = s.count ∧ s.count < t.count) : Sound t := by
  have hold : ∀ i r, t.registrations i = some r →
      i = fd ∧ r.number = s.count ∧ s.count < t.count ∨ i ≠ fd ∧ s.registrations i = some r := by
    intro i r hr
    by_cases hi : i = fd
    · subst hi
      exact Or.inl ⟨rfl, (hnew r hr).2⟩
    · exact Or.inr ⟨hi, (hc.registrations i hi).symm.trans hr⟩
  have hended : ∀ n ∈ t.ended, n < s.count := by
    intro n hn
    rw [hc.ended] at hn
    obtain hn | ⟨r, hr, rfl⟩ := mem_endAt.mp hn
    · exact h.ended_lt n hn
    · exact h.number_lt _ r hr
  refine ⟨hbounded, ?_, ?_, ?_, ?_, ?_, ?_, ?_⟩
  · intro i hi
    by_cases hfd : i = fd
    · subst hfd
      exact hregistered hi
    · rw [hc.monitored i hfd] at hi
      rw [hc.registrations i hfd]
      exact h.registered i hi
  · intro i r hr
    by_cases hi : i = fd
    · subst hi
      exact (hnew r hr).1
    · have hs := h.holds i r ((hc.registrations i hi).symm.trans hr)
      exact ⟨(hc.handlers i hi).trans hs.handler, (hc.data i hi).trans hs.data,
        (hc.intervals i hi).trans hs.interval, (congrArg _ (hc.expirations i hi)).trans hs.expiration⟩
  · intro i r hr
    obtain ⟨-, hn, hlt⟩ | ⟨-, hr⟩ := hold i r hr
    · omega
    · exact Nat.lt_of_lt_of_le (h.number_lt i r hr) hc.count_le
  · intro i j r r' hr hr' heq
    obtain ⟨rfl, hn, -⟩ | ⟨-, hs⟩ := hold i r hr <;> obtain ⟨rfl, hn', -⟩ | ⟨-, hs'⟩ := hold j r' hr'
    · rfl
    · have := h.number_lt j r' hs'
      omega
    · have := h.number_lt i r hs
      omega
    · exact h.number_inj i j r r' hs hs' heq
  · intro i r hr hmem
    obtain ⟨-, hn, -⟩ | ⟨hi, hs⟩ := hold i r hr
    · have := hended _ hmem
      omega
    · rw [hc.ended] at hmem
      obtain hmem | ⟨r', hr', heq⟩ := mem_endAt.mp hmem
      · exact h.not_ended i r hs hmem
      · exact hi (h.number_inj i fd r r' hs hr' heq.symm)
  · intro n hn
    exact Nat.lt_of_lt_of_le (hended n hn) hc.count_le
  · intro p hp i r hr
    exact (h.owes p (hc.phase.symm.trans hp) i r hr).changes hc

end Changes

theorem Sound.gmFdRegister {s : State} (h : Sound s) (fd : ℕ) (handler : Option ℕ) (d : ℕ)
    (w : Interest) (seconds : ℕ) (now : Timeval) :
    Sound (s.gmFdRegister fd handler d w seconds now) := by
  have hself : (s.gmFdRegister fd handler d w seconds now).registrations fd
      = some ⟨s.count, handler, d, seconds, now, none⟩ := Function.update_self _ _ _
  refine h.changes (changes_gmFdRegister s fd handler d w seconds now)
    (h.bounded.gmFdRegister fd handler d w seconds now) (fun _ => ⟨_, hself⟩) ?_
  intro r hr
  obtain rfl := Option.some.inj (hself.symm.trans hr)
  refine ⟨⟨Function.update_self _ _ _, Function.update_self _ _ _, Function.update_self _ _ _, ?_⟩,
    rfl, Nat.lt_succ_self _⟩
  simp only [State.gmFdRegister, Tables.gmFdRegister, Function.update_self, Registration.expires]
  by_cases hseconds : seconds = 0
  · rw [if_neg (not_not.mpr hseconds), if_pos hseconds, Timeval.micros_clear]
  · rw [if_pos hseconds, if_neg hseconds]
    simp only [Timeval.micros]
    omega

theorem Sound.gmFdUnregister {s : State} (h : Sound s) (fd : ℕ) : Sound (s.gmFdUnregister fd) := by
  have hself : (s.gmFdUnregister fd).registrations fd = none := Function.update_self _ _ _
  refine h.changes (changes_gmFdUnregister s fd) (h.bounded.gmFdUnregister fd) ?_ ?_
  · intro hm
    rw [show (s.gmFdUnregister fd).tables.monitoredFds fd = false from Function.update_self _ _ _] at hm
    cases hm
  · intro r hr
    rw [hself] at hr
    cases hr

/-! ## The steps of the task -/

/-- A state is sound where its tables and registrations are, whatever the task is at. -/
theorem Sound.withPhase {s : State} (h : Sound s) {phase : Phase}
    (howes : ∀ p, phase = .passing p → ∀ fd r, p.due fd = some r → p.Owes s fd r) :
    Sound { s with phase := phase } where
  bounded := h.bounded
  registered := h.registered
  holds := h.holds
  number_lt := h.number_lt
  number_inj := h.number_inj
  not_ended := h.not_ended
  ended_lt := h.ended_lt
  owes := howes

theorem Sound.sweep (before : Timeval) (closed : ℕ → Bool) : ∀ (is : List ℕ) (blocking : Timeval)
    (s : State), Sound s → Sound (State.sweep before closed is blocking s).2 := by
  intro is
  induction is with
  | nil => exact fun _ _ h => h
  | cons i is ih =>
    intro blocking s h
    have hs : Sound (if closed i then s.gmFdUnregister i else s) := by
      split_ifs
      exacts [h.gmFdUnregister i, h]
    simp only [State.sweep]
    generalize (if closed i then s.gmFdUnregister i else s) = t at hs ⊢
    split_ifs
    exacts [hs, ih _ _ hs, ih _ _ hs, ih _ _ hs, ih _ _ h, h]

theorem Sound.prepare {s : State} (h : Sound s) (before : Timeval) (closed : ℕ → Bool) :
    Sound (s.prepare before closed) :=
  (Sound.sweep before closed _ _ s h).withPhase fun _ hp => by cases hp

/-- Whoever is due when `select` returns is owed a call. -/
theorem owes_pass (s : State) (sets : FdSets) (copied : ℕ) (result : SelectResult) (after : Timeval)
    {fd : ℕ} {r : Registration} (h : s.dueAt after fd = some r) :
    (s.pass sets copied result after).Owes s fd r := by
  unfold State.dueAt at h
  split_ifs at h with hdue
  exact Or.inr (Or.inr ⟨Nat.zero_le _, h, hdue⟩)

theorem Sound.selectReturns {s : State} (h : Sound s) (sets : FdSets) (copied : ℕ)
    (result : SelectResult) (after : Timeval) : Sound (s.selectReturns sets copied result after) := by
  cases result with
  | badFd => exact h.withPhase fun _ hp => by cases hp
  | failed =>
    refine h.withPhase fun p hp fd r hr => ?_
    cases hp
    exact owes_pass s sets copied .failed after hr
  | ready reported =>
    refine h.withPhase fun p hp fd r hr => ?_
    cases hp
    exact owes_pass s (sets.inter reported) copied (.ready reported) after hr

theorem timedOut_iff {t after : Timeval} : timedOut t after = true ↔ Reached t after := by
  unfold timedOut Reached
  rw [← Timeval.isSet_iff]
  by_cases hset : t.isSet = true
  · by_cases hlt : t.lt after = true
    · have := Timeval.lt_iff.mp hlt
      simp only [hset, hlt, if_true, true_and, true_iff]
      omega
    · have hle : after.micros ≤ t.micros := Nat.le_of_not_lt (mt Timeval.lt_iff.mpr hlt)
      rw [if_pos hset, if_neg hlt, Bool.and_eq_true, decide_eq_true_eq, decide_eq_true_eq,
        Timeval.sec_eq_zero_and_usec_lt (by omega), Timeval.micros_sub hle]
      simp only [hset, true_and]
      omega
  · simp [hset]

/-- The pass goes past a descriptor that nobody due is at. -/
theorem Pass.Owes.skip {p : Pass} {s : State} {fd : ℕ} {r : Registration} (h : p.Owes s fd r)
    (hevent : s.tables.event p = false) :
    Pass.Owes { p with position := p.position + 1 } s fd r := by
  obtain h | h | ⟨hle, hr, hm, hh, he⟩ := h
  · exact Or.inl h
  · exact Or.inr (Or.inl h)
  · refine Or.inr (Or.inr ⟨Nat.lt_of_le_of_ne hle ?_, hr, hm, hh, he⟩)
    rintro rfl
    rw [Tables.event, hm, timedOut_iff.mpr he, Bool.or_true] at hevent
    cases hevent

/-- The pass goes past a descriptor with an event, having called its handler. -/
theorem Pass.Owes.meet {p : Pass} {s : State} {fd : ℕ} {r : Registration} (h : p.Owes s fd r)
    (hevent : s.tables.event p = true) :
    Pass.Owes { p with position := p.position + 1, called := s.calledAfter p }
      { s with
        tables := s.tables.rearm p.position p.after
        registrations := s.met p
        phase := .passing { p with position := p.position + 1, called := s.calledAfter p } } fd r := by
  have hcalled : ∀ n ∈ p.called, n ∈ s.calledAfter p := by
    intro n hn
    unfold State.calledAfter
    split
    exacts [List.mem_cons_of_mem _ hn, hn]
  obtain h | h | ⟨hle, hr, hm, hh, he⟩ := h
  · exact Or.inl (hcalled _ h)
  · exact Or.inr (Or.inl h)
  · obtain heq | hlt := Nat.eq_or_lt_of_le hle
    · subst heq
      obtain ⟨handler, hhandler⟩ := Option.ne_none_iff_exists'.mp hh
      refine Or.inl ?_
      rw [State.calledAfter, Tables.callAt, if_pos hevent, hhandler, hr]
      exact List.mem_cons_self
    · have hne : fd ≠ p.position := Nat.ne_of_gt hlt
      refine Or.inr (Or.inr ⟨hlt, ?_, hm, hh, ?_⟩)
      · exact (Function.update_of_ne hne _ _).trans hr
      · rwa [show (s.tables.rearm p.position p.after).expirations fd = s.tables.expirations fd from
          Function.update_of_ne hne _ _]

/-- A registration in force after the pass has met one was in force before. -/
theorem State.met_cases {s : State} {p : Pass} {fd : ℕ} {r : Registration} (h : s.met p fd = some r) :
    fd = p.position ∧ (∃ r', s.registrations fd = some r' ∧ r = { r' with last := some p.after }) ∨
      fd ≠ p.position ∧ s.registrations fd = some r := by
  unfold State.met at h
  rw [Function.update_apply] at h
  split_ifs at h with hfd
  · subst hfd
    obtain ⟨r', hr', rfl⟩ := Option.map_eq_some_iff.mp h
    exact Or.inl ⟨rfl, r', hr', rfl⟩
  · exact Or.inr ⟨hfd, h⟩

/-- It has the number it had. -/
theorem State.met_number {s : State} {p : Pass} {fd : ℕ} {r : Registration}
    (h : s.met p fd = some r) : ∃ r', s.registrations fd = some r' ∧ r'.number = r.number := by
  obtain ⟨-, r', hr', rfl⟩ | ⟨-, hr⟩ := State.met_cases h
  exacts [⟨r', hr', rfl⟩, ⟨r, hr, rfl⟩]

theorem Sound.dispatch {s : State} (h : Sound s) {p : Pass} (hp : s.phase = .passing p) :
    Sound (s.dispatch p) := by
  unfold State.dispatch
  split_ifs with hlt hevent
  · refine ⟨h.bounded, ?_, ?_, ?_, ?_, ?_, h.ended_lt, ?_⟩
    · intro fd hm
      obtain ⟨r, hr⟩ := h.registered fd hm
      by_cases hfd : fd = p.position
      · subst hfd
        exact ⟨_, (Function.update_self _ _ _).trans (congrArg _ hr)⟩
      · exact ⟨r, (Function.update_of_ne hfd _ _).trans hr⟩
    · intro fd r hr
      obtain ⟨rfl, r', hr', rfl⟩ | ⟨hfd, hr⟩ := State.met_cases hr
      · have hold := h.holds _ r' hr'
        refine ⟨hold.handler, hold.data, hold.interval, ?_⟩
        simp only [Tables.rearm, Function.update_self, Timeval.micros_add, hold.interval,
          Timeval.micros_ofSec, Registration.expires]
        omega
      · have hold := h.holds fd r hr
        refine ⟨hold.handler, hold.data, hold.interval, ?_⟩
        rw [← hold.expiration]
        exact congrArg _ (Function.update_of_ne hfd _ _)
    · intro fd r hr
      obtain ⟨r', hr', hn⟩ := State.met_number hr
      exact hn ▸ h.number_lt fd r' hr'
    · intro fd fd' r₁ r₂ hr₁ hr₂ heq
      obtain ⟨r₁', hr₁', hn₁⟩ := State.met_number hr₁
      obtain ⟨r₂', hr₂', hn₂⟩ := State.met_number hr₂
      exact h.number_inj fd fd' r₁' r₂' hr₁' hr₂' (hn₁.trans (heq.trans hn₂.symm))
    · intro fd r hr
      obtain ⟨r', hr', hn⟩ := State.met_number hr
      exact hn ▸ h.not_ended fd r' hr'
    · intro q hq fd r hr
      cases hq
      exact (h.owes p hp fd r hr).meet hevent
  · refine h.withPhase fun q hq fd r hr => ?_
    cases hq
    exact (h.owes p hp fd r hr).skip (Bool.not_eq_true _ ▸ hevent)
  · exact h.withPhase fun _ hq => by cases hq

/-- **Every step keeps what every state reached has.** -/
theorem Sound.next {s t : State} (h : Sound s) {e : Event} (hn : s.next e = some t) : Sound t := by
  cases e with
  | register fd handler d w seconds now =>
    obtain rfl := Option.some.inj hn
    exact h.gmFdRegister fd handler d w seconds now
  | unregister fd =>
    obtain rfl := Option.some.inj hn
    exact h.gmFdUnregister fd
  | prepare before closed =>
    simp only [State.next] at hn
    split at hn
    · obtain rfl := Option.some.inj hn
      exact h.prepare before closed
    · cases hn
  | select result after =>
    simp only [State.next] at hn
    split at hn
    · obtain rfl := Option.some.inj hn
      exact h.selectReturns _ _ result after
    · cases hn
  | dispatch =>
    simp only [State.next] at hn
    split at hn
    next p hp =>
      obtain rfl := Option.some.inj hn
      exact h.dispatch hp
    · cases hn

end Select
