import HtFirmware.Machinery.Run
import HtFirmware.Select.Tables

/-!
# Select/Wakeup — other tasks change the tables while the select task is asleep

The loop again, in the steps that other tasks can come between: the sets are copied, closed
descriptors are swept out, `in_select` is set, `select` is called, it returns, `in_select` is
cleared.  Another task changes the tables, tests `in_select`, and sends a wakeup if it was set.

A task asleep with sets that are no longer those of the tables is to have a wakeup on its way
(`Awaited`).  But `in_select` is set long after the copy: a task that changes the tables and tests
it in between sends nothing.  Where nobody tests it there, no wakeup is lost
(`noLostWakeup_of_noEarlyTest`).
-/

open Machinery

namespace Select

namespace Wakeup

/-! ## States -/

/-- What is done to the tables. -/
inductive Change where
  | register (fd : ℕ) (handler : Option ℕ) (data : ℕ) (interest : Interest) (seconds : ℕ)
      (now : Timeval)
  | unregister (fd : ℕ)

/-- The tables after a change. -/
def Change.apply (t : Tables) : Change → Tables
  | .register fd handler d w seconds now => t.gmFdRegister fd handler d w seconds now
  | .unregister fd => t.gmFdUnregister fd

/-- Where the select task is: in a pass, or between two of its steps, with the sets it has copied
and the descriptors it has swept out since. -/
inductive Phase where
  | running
  | copied (sets : FdSets) (swept : List ℕ)
  | entering (sets : FdSets) (swept : List ℕ)
  | blocked (sets : FdSets)
  | returned

/-- `in_select`. -/
def Phase.inSelect : Phase → Bool
  | .running => false
  | .copied .. => false
  | .entering .. => true
  | .blocked _ => true
  | .returned => true

/-- Where another task is: outside, about to test `in_select`, or about to send a wakeup. -/
inductive Caller where
  | outside
  | updated
  | waking
  deriving DecidableEq

structure State where
  tables : Tables := {}
  phase : Phase := .running
  callers : ℕ → Caller := fun _ => .outside
  inFlight : ℕ := 0

/-! ## Steps -/

/-- A step of the select task, or of another.  `own` is a change made from a handler; `block` is
told which descriptors are open when `select` is called. -/
inductive Event where
  | own (change : Change)
  | receive
  | copy
  | sweep (fd : ℕ)
  | enter
  | block (isOpen : ℕ → Bool)
  | return
  | clear
  | update (task : ℕ) (change : Change)
  | test (task : ℕ)
  | send (task : ℕ)

/-- A descriptor in the sets is not open, which makes `select` fail with `EBADF` at once. -/
def bad (sets : FdSets) (isOpen : ℕ → Bool) (fdLimit : ℕ) : Bool :=
  (List.range fdLimit).any fun fd => sets.any fd && !isOpen fd

/-- The state after an event; `none` where nobody is at that step. -/
def State.next (s : State) : Event → Option State
  | .own change =>
    match s.phase with
    | .running => some { s with tables := change.apply s.tables }
    | _ => none
  | .receive =>
    match s.phase with
    | .running => if 0 < s.inFlight then some { s with inFlight := s.inFlight - 1 } else none
    | _ => none
  | .copy =>
    match s.phase with
    | .running => some { s with phase := .copied s.tables.sets [] }
    | _ => none
  | .sweep fd =>
    match s.phase with
    | .copied sets swept =>
      some { s with tables := s.tables.gmFdUnregister fd, phase := .copied sets (fd :: swept) }
    | _ => none
  | .enter =>
    match s.phase with
    | .copied sets swept => some { s with phase := .entering sets swept }
    | _ => none
  | .block isOpen =>
    match s.phase with
    | .entering sets _ =>
      some { s with
        phase := if bad sets isOpen s.tables.fdLimit then .returned
          else .blocked (sets.below s.tables.fdLimit) }
    | _ => none
  | .return =>
    match s.phase with
    | .blocked _ => some { s with phase := .returned }
    | _ => none
  | .clear =>
    match s.phase with
    | .returned => some { s with phase := .running }
    | _ => none
  | .update task change =>
    if s.callers task = .outside then
      some { s with
        tables := change.apply s.tables, callers := Function.update s.callers task .updated }
    else none
  | .test task =>
    if s.callers task = .updated then
      some { s with
        callers := Function.update s.callers task
          (if s.phase.inSelect then .waking else .outside) }
    else none
  | .send task =>
    if s.callers task = .waking then
      some { s with
        callers := Function.update s.callers task .outside, inFlight := s.inFlight + 1 }
    else none

/-! ## What is promised, and when it is kept -/

/-- A wakeup is in flight, or a task has changed the tables and is still to test or to send. -/
def Awaited (s : State) : Prop := (∃ task, s.callers task ≠ .outside) ∨ 0 < s.inFlight

/-- A task asleep with sets that are no longer those of the tables is about to be woken. -/
def NoLostWakeup (s : State) : Prop :=
  ∀ sets, s.phase = .blocked sets → sets ≠ s.tables.sets → Awaited s

/-- The tables are as they were copied, but for the descriptors swept out. -/
def Synced (sets : FdSets) (swept : List ℕ) (t : Tables) : Prop :=
  ∀ fd, sets.at fd = t.sets.at fd ∨ fd ∈ swept ∧ (t.sets.at fd).any = false

/-- Nobody tests `in_select` between the copy and the setting of it, the tables having changed,
unless somebody else is still to test or to send; and the descriptors swept out are still closed
when `select` is called. -/
def NoEarlyTest (s : State) : Event → Prop
  | .test task => ∀ sets swept, s.phase = .copied sets swept → Synced sets swept s.tables ∨
      (∃ other, other ≠ task ∧ s.callers other ≠ .outside) ∨ 0 < s.inFlight
  | .block isOpen => ∀ sets swept, s.phase = .entering sets swept → ∀ fd ∈ swept, isOpen fd = false
  | _ => True

/-- **What every state reached has**: the tables are in order, and a task past its copy either has
the sets of the tables, or is about to be woken. -/
structure Sound (s : State) : Prop where
  bounded : s.tables.Bounded
  covered : s.tables.Covered
  copied : ∀ sets swept, s.phase = .copied sets swept → Synced sets swept s.tables ∨ Awaited s
  entering : ∀ sets swept, s.phase = .entering sets swept → Synced sets swept s.tables ∨ Awaited s
  blocked : NoLostWakeup s

theorem sound_init : Sound {} where
  bounded := Tables.bounded_init
  covered := Tables.covered_init
  copied _ _ h := by cases h
  entering _ _ h := by cases h
  blocked _ h := by cases h

variable {s t : State}

theorem Change.bounded_apply (change : Change) {t : Tables} (h : t.Bounded) :
    (change.apply t).Bounded := by
  cases change with
  | register fd handler d w seconds now => exact h.gmFdRegister fd handler d w seconds now
  | unregister fd => exact h.gmFdUnregister fd

theorem Change.covered_apply (change : Change) {t : Tables} (h : t.Covered) :
    (change.apply t).Covered := by
  cases change with
  | register fd handler d w seconds now => exact h.gmFdRegister fd handler d w seconds now
  | unregister fd => exact h.gmFdUnregister fd

/-- A state with a wakeup to come is sound, whatever the task is at. -/
theorem sound_of_awaited (hb : s.tables.Bounded) (hc : s.tables.Covered) (h : Awaited s) :
    Sound s where
  bounded := hb
  covered := hc
  copied _ _ _ := Or.inr h
  entering _ _ _ := Or.inr h
  blocked _ _ _ := h

/-- A state is sound where the task is in a pass, or out of `select`. -/
theorem sound_of_awake (hb : s.tables.Bounded) (hc : s.tables.Covered)
    (h : s.phase = .running ∨ s.phase = .returned) : Sound s where
  bounded := hb
  covered := hc
  copied _ _ hp := by obtain h | h := h <;> cases h.symm.trans hp
  entering _ _ hp := by obtain h | h := h <;> cases h.symm.trans hp
  blocked _ hp := by obtain h | h := h <;> cases h.symm.trans hp

theorem synced_self (t : Tables) : Synced t.sets [] t := fun _ => Or.inl rfl

theorem Synced.sweep {sets : FdSets} {swept : List ℕ} {t : Tables} (h : Synced sets swept t)
    (fd : ℕ) : Synced sets (fd :: swept) (t.gmFdUnregister fd) := by
  intro i
  by_cases hi : i = fd
  · subst hi
    refine Or.inr ⟨List.mem_cons_self, ?_⟩
    simp [FdSets.at, Tables.sets, Tables.gmFdUnregister, Interest.any]
  · have hat : (t.gmFdUnregister fd).sets.at i = t.sets.at i := by
      simp [FdSets.at, Tables.sets, Tables.gmFdUnregister, Function.update_of_ne hi]
    rw [hat]
    exact (h i).imp_right (And.imp_left (List.mem_cons_of_mem _))

/-- **What `select` is called with is what the tables have**, where it does not fail at once. -/
theorem Synced.below_eq {sets : FdSets} {swept : List ℕ} {t : Tables} (h : Synced sets swept t)
    (hb : t.Bounded) (hc : t.Covered) {isOpen : ℕ → Bool}
    (hswept : ∀ fd ∈ swept, isOpen fd = false) (hbad : bad sets isOpen t.fdLimit = false) :
    sets.below t.fdLimit = t.sets := by
  refine FdSets.ext_at fun fd => ?_
  rw [FdSets.at_below]
  split_ifs with hlt
  · obtain heq | ⟨hmem, hnone⟩ := h fd
    · exact heq
    · have hany := List.any_eq_false.mp hbad fd (List.mem_range.mpr hlt)
      rw [hswept fd hmem, Bool.not_false, Bool.and_true, ← FdSets.any_at] at hany
      have hleft : sets.at fd = ⟨false, false, false⟩ :=
        Interest.eq_of_not_any (Bool.not_eq_true _ ▸ hany)
      rw [hleft, Interest.eq_of_not_any hnone]
  · refine (Interest.eq_of_not_any ?_).symm
    rw [← Bool.not_eq_true, FdSets.any_at]
    exact fun hany => hlt (hc.lt_fdLimit hb hany)

/-- Somebody who is not outside is still to test or to send. -/
theorem awaited_update {task : ℕ} {c : Caller} (hc : c ≠ .outside) {tables : Tables} {phase : Phase}
    {callers : ℕ → Caller} {n : ℕ} :
    Awaited ⟨tables, phase, Function.update callers task c, n⟩ :=
  Or.inl ⟨task, fun heq => hc ((Function.update_self task c callers).symm.trans heq)⟩

theorem Sound.block (h : Sound s) {isOpen : ℕ → Bool} (hcheck : NoEarlyTest s (.block isOpen))
    {sets : FdSets} {swept : List ℕ} (hp : s.phase = .entering sets swept) :
    Sound { s with
      phase := if bad sets isOpen s.tables.fdLimit then .returned
        else .blocked (sets.below s.tables.fdLimit) } := by
  split_ifs with hbad
  · exact sound_of_awake h.bounded h.covered (Or.inr rfl)
  · refine ⟨h.bounded, h.covered, fun _ _ hq => ?_, fun _ _ hq => ?_, fun below hq hne => ?_⟩
    · cases hq
    · cases hq
    · cases hq
      obtain hsynced | hawaited := h.entering sets swept hp
      · exact absurd (hsynced.below_eq h.bounded h.covered (hcheck sets swept hp)
          (Bool.not_eq_true _ ▸ hbad)) hne
      · exact hawaited

theorem Sound.test (h : Sound s) {task : ℕ} (hcheck : NoEarlyTest s (.test task)) :
    Sound { s with
      callers := Function.update s.callers task
        (if s.phase.inSelect then .waking else .outside) } := by
  split_ifs with hin
  · exact sound_of_awaited h.bounded h.covered (awaited_update (by decide))
  · refine ⟨h.bounded, h.covered, fun sets swept hp => ?_, fun _ _ hp => ?_, fun _ hp => ?_⟩
    · obtain hsynced | ⟨other, hne, hother⟩ | hflight := hcheck sets swept hp
      · exact Or.inl hsynced
      · exact Or.inr (Or.inl ⟨other, fun heq =>
          hother ((Function.update_of_ne hne _ s.callers).symm.trans heq)⟩)
      · exact Or.inr (Or.inr hflight)
    · rw [show s.phase = _ from hp] at hin
      exact absurd rfl hin
    · rw [show s.phase = _ from hp] at hin
      exact absurd rfl hin

/-- **A step that meets the condition loses no wakeup.** -/
theorem Sound.next (h : Sound s) {e : Event} (hcheck : NoEarlyTest s e) (hn : s.next e = some t) :
    Sound t := by
  cases e with
  | own change =>
    simp only [State.next] at hn
    split at hn
    next hp =>
      obtain rfl := Option.some.inj hn
      exact sound_of_awake (change.bounded_apply h.bounded) (change.covered_apply h.covered)
        (Or.inl hp)
    · cases hn
  | receive =>
    simp only [State.next] at hn
    split at hn
    next hp =>
      split_ifs at hn
      obtain rfl := Option.some.inj hn
      exact sound_of_awake h.bounded h.covered (Or.inl hp)
    · cases hn
  | copy =>
    simp only [State.next] at hn
    split at hn
    · obtain rfl := Option.some.inj hn
      refine ⟨h.bounded, h.covered, fun sets swept hp => ?_, fun _ _ hp => ?_, fun _ hp => ?_⟩
      · cases hp
        exact Or.inl (synced_self s.tables)
      · cases hp
      · cases hp
    · cases hn
  | sweep fd =>
    simp only [State.next] at hn
    split at hn
    next sets swept hp =>
      obtain rfl := Option.some.inj hn
      refine ⟨h.bounded.gmFdUnregister fd, h.covered.gmFdUnregister fd, fun _ _ hq => ?_,
        fun _ _ hq => ?_, fun _ hq => ?_⟩
      · cases hq
        exact (h.copied sets swept hp).imp_left (Synced.sweep · fd)
      · cases hq
      · cases hq
    · cases hn
  | enter =>
    simp only [State.next] at hn
    split at hn
    next sets swept hp =>
      obtain rfl := Option.some.inj hn
      refine ⟨h.bounded, h.covered, fun _ _ hq => ?_, fun _ _ hq => ?_, fun _ hq => ?_⟩
      · cases hq
      · cases hq
        exact h.copied sets swept hp
      · cases hq
    · cases hn
  | block isOpen =>
    simp only [State.next] at hn
    split at hn
    next sets swept hp =>
      obtain rfl := Option.some.inj hn
      exact h.block hcheck hp
    · cases hn
  | «return» =>
    simp only [State.next] at hn
    split at hn
    · obtain rfl := Option.some.inj hn
      exact sound_of_awake h.bounded h.covered (Or.inr rfl)
    · cases hn
  | clear =>
    simp only [State.next] at hn
    split at hn
    · obtain rfl := Option.some.inj hn
      exact sound_of_awake h.bounded h.covered (Or.inl rfl)
    · cases hn
  | update task change =>
    simp only [State.next] at hn
    split_ifs at hn
    obtain rfl := Option.some.inj hn
    exact sound_of_awaited (change.bounded_apply h.bounded) (change.covered_apply h.covered)
      (awaited_update (by decide))
  | test task =>
    rw [State.next] at hn
    split at hn
    · obtain rfl := Option.some.inj hn
      exact h.test hcheck
    · cases hn
  | send task =>
    simp only [State.next] at hn
    split_ifs at hn
    obtain rfl := Option.some.inj hn
    exact sound_of_awaited h.bounded h.covered (Or.inr (Nat.succ_pos _))

/-- **Where nobody tests `in_select` too early, no wakeup is lost.** -/
theorem noLostWakeup_of_noEarlyTest (events : List Event)
    (h : ∀ v ∈ visits State.next {} events, NoEarlyTest v.1 v.2) :
    ∀ s ∈ reached State.next {} events, NoLostWakeup s := fun s hs =>
  (forall_reached (I := Sound) (fun _ _ _ hs hcheck hn => hs.next hcheck hn) events {} sound_init h
    s hs).blocked

/-! ## A descriptor registered before the select task falls asleep -/

/-- A task registers a descriptor to read from. -/
def registering : Event := .update 0 (.register 0 (some 1) 0 ⟨true, false, true⟩ 0 (.ofSec 1000))

/-- It tests `in_select` once that is set, and sends a wakeup. -/
def testedLate : List Event :=
  [.copy, registering, .enter, .block fun _ => true, .test 0, .send 0]

theorem noLostWakeup_testedLate : (testedLate.foldlM State.next {}).isSome ∧
    ∀ s ∈ reached State.next {} testedLate, NoLostWakeup s := by
  refine ⟨rfl, noLostWakeup_of_noEarlyTest testedLate ?_⟩
  refine List.forall_mem_cons.mpr ⟨trivial, List.forall_mem_cons.mpr ⟨trivial,
    List.forall_mem_cons.mpr ⟨trivial, List.forall_mem_cons.mpr ⟨fun _ _ hp fd hfd => ?_,
      List.forall_mem_cons.mpr ⟨fun _ _ hp => (by cases hp), List.forall_mem_cons.mpr ⟨trivial,
        List.forall_mem_nil _⟩⟩⟩⟩⟩⟩
  cases hp
  cases hfd

/-- It tests `in_select` before that is set. -/
def testedEarly : List Event := [.copy, registering, .test 0, .enter, .block fun _ => true]

/-- **The select task is asleep, and nobody is going to wake it.** -/
theorem not_noLostWakeup_testedEarly :
    ¬ ∀ s ∈ reached State.next {} testedEarly, NoLostWakeup s := by
  intro h
  obtain ⟨s, sets, hs, hp, hsets, htables, hcallers, hflight⟩ : ∃ s sets,
      testedEarly.foldlM State.next {} = some s ∧ s.phase = .blocked sets ∧
        sets.read 0 = false ∧ s.tables.sets.read 0 = true ∧ s.callers = Function.update
          (Function.update (fun _ => .outside) 0 .updated) 0 .outside ∧ s.inFlight = 0 :=
    ⟨_, _, rfl, rfl, by decide, by decide, rfl, rfl⟩
  have hne : sets ≠ s.tables.sets := by
    rintro rfl
    exact Bool.false_ne_true (hsets.symm.trans htables)
  obtain ⟨task, htask⟩ | hsent := h s (mem_reached_of_foldlM _ _ hs) sets hp hne
  · rw [hcallers, Function.update_idem, Function.update_eq_self] at htask
    exact htask rfl
  · omega

end Wakeup

end Select
