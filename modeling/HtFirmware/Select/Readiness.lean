import HtFirmware.Select.Loop

/-!
# Select/Readiness — whose readiness a handler is told of

A handler is to be told of readiness only if `select` reported it, and for the registration that was
in force when the sets were copied: `Fresh`.  The handler called is always the one in force
(`current_of_callAt`), so no registration that has ended is called again.

What it is told may be stale.  An error other than `EBADF` leaves the copied sets to be read as if
they had been reported; and a descriptor registered after the copy, its number having been in the
sets, is told of its predecessor's readiness.  Without these, every call is fresh
(`fresh_of_heedful`).
-/

open Machinery

namespace Select

/-- A call is as it should be: its handler belongs to a registration in force, and what it is told,
`select` reported of that registration's descriptor. -/
structure Fresh (s : State) (p : Pass) (c : Call) : Prop where
  current : ∃ r, s.registrations c.fd = some r ∧ r.handler = some c.handler ∧ r.data = c.data ∧
    r.number ∉ s.ended
  ready : c.readable = true ∨ c.writable = true ∨ c.exception = true →
    (∃ reported, p.result = .ready reported ∧ (c.readable = true → reported.read c.fd = true) ∧
      (c.writable = true → reported.write c.fd = true) ∧
      (c.exception = true → reported.exception c.fd = true)) ∧
    ∀ r, s.registrations c.fd = some r → r.number < p.copied

/-- The step makes no call but a fresh one. -/
def CallsFresh (s : State) : Event → Prop
  | .dispatch => ∀ p, s.phase = .passing p → p.position < s.tables.fdLimit →
      ∀ c, s.tables.callAt p = some c → Fresh s p c
  | _ => True

/-- The step does not lead to a stale call: `select` does not fail on a set with a monitored
descriptor in it, and reports none that was registered after the copy; and nobody registers, in a
pass, a descriptor that is in its sets and still ahead of it. -/
def Heedful (s : State) : Event → Prop
  | .select .failed _ => ∀ sets blocking copied, s.phase = .selecting sets blocking copied →
      ∀ fd, s.tables.monitoredFds fd = true → sets.any fd = false
  | .select (.ready reported) _ => ∀ sets blocking copied, s.phase = .selecting sets blocking copied →
      ∀ fd r, (sets.inter reported).any fd = true → s.registrations fd = some r → r.number < copied
  | .register fd .. => ∀ p, s.phase = .passing p → p.sets.any fd = true → fd < p.position
  | _ => True

/-- What a pass knows of a descriptor it is told of. -/
structure Pass.Knows (p : Pass) (s : State) (fd : ℕ) : Prop where
  reported : ∃ reported, p.result = .ready reported ∧ ∃ sets, p.sets = FdSets.inter sets reported
  copied : ∀ r, s.registrations fd = some r → r.number < p.copied

/-- A pass knows the monitored descriptors that are in its sets and ahead of it. -/
def Aware (s : State) : Prop :=
  ∀ p, s.phase = .passing p → ∀ fd, p.position ≤ fd → p.sets.any fd = true →
    s.tables.monitoredFds fd = true → p.Knows s fd

variable {s t : State} {p : Pass}

theorem aware_of_not_passing (h : ∀ p, s.phase ≠ .passing p) : Aware s := fun p hp => absurd hp (h p)

/-- A change of one entry keeps the pass aware, where the entry is none of its own. -/
theorem Aware.changes (h : Aware s) {fd : ℕ} (hc : Changes s fd t)
    (hfd : ∀ p, s.phase = .passing p → p.position ≤ fd → p.sets.any fd = true →
      t.tables.monitoredFds fd = false) : Aware t := by
  intro p hp i hle hany hm
  rw [hc.phase] at hp
  by_cases hi : i = fd
  · subst hi
    rw [hfd p hp hle hany] at hm
    cases hm
  · rw [hc.monitored i hi] at hm
    obtain ⟨hreported, hcopied⟩ := h p hp i hle hany hm
    refine ⟨hreported, fun r hr => hcopied r ?_⟩
    rwa [← hc.registrations i hi]

theorem Aware.gmFdRegister (h : Aware s) {fd : ℕ} {handler : Option ℕ} {d : ℕ} {w : Interest}
    {seconds : ℕ} {now : Timeval} (hheed : Heedful s (.register fd handler d w seconds now)) :
    Aware (s.gmFdRegister fd handler d w seconds now) := by
  refine h.changes (changes_gmFdRegister s fd handler d w seconds now) fun p hp hle hany => ?_
  have := hheed p hp hany
  omega

theorem Aware.gmFdUnregister (h : Aware s) (fd : ℕ) : Aware (s.gmFdUnregister fd) :=
  h.changes (changes_gmFdUnregister s fd) fun _ _ _ _ => Function.update_self _ _ _

theorem Aware.selectReturns {sets : FdSets} {blocking : Timeval} {copied : ℕ}
    (hp : s.phase = .selecting sets blocking copied) {result : SelectResult} {after : Timeval}
    (hheed : Heedful s (.select result after)) : Aware (s.selectReturns sets copied result after) := by
  cases result with
  | badFd => exact aware_of_not_passing fun p hq => by cases hq
  | failed =>
    intro p hq fd _ hany hm
    cases hq
    exact absurd ((hheed sets blocking copied hp fd hm).symm.trans hany) Bool.false_ne_true
  | ready reported =>
    intro p hq fd _ hany _
    cases hq
    exact ⟨⟨reported, rfl, sets, rfl⟩, fun r hr => hheed sets blocking copied hp fd r hany hr⟩

theorem Aware.dispatch (h : Aware s) (hp : s.phase = .passing p) : Aware (s.dispatch p) := by
  unfold State.dispatch
  split_ifs
  · intro q hq fd hle hany hm
    cases hq
    obtain ⟨hreported, hcopied⟩ := h p hp fd (Nat.le_of_succ_le hle) hany hm
    refine ⟨hreported, fun r hr => ?_⟩
    obtain ⟨r', hr', hn⟩ := State.met_number hr
    exact hn ▸ hcopied r' hr'
  · intro q hq fd hle hany hm
    cases hq
    obtain ⟨hreported, hcopied⟩ := h p hp fd (Nat.le_of_succ_le hle) hany hm
    exact ⟨hreported, hcopied⟩
  · exact aware_of_not_passing fun _ hq => by cases hq

/-- **A heedful step keeps the pass aware.** -/
theorem Aware.next (h : Aware s) {e : Event} (hheed : Heedful s e) (hn : s.next e = some t) :
    Aware t := by
  cases e with
  | register fd handler d w seconds now =>
    obtain rfl := Option.some.inj hn
    exact h.gmFdRegister hheed
  | unregister fd =>
    obtain rfl := Option.some.inj hn
    exact h.gmFdUnregister fd
  | prepare before closed =>
    simp only [State.next] at hn
    split at hn
    · obtain rfl := Option.some.inj hn
      exact aware_of_not_passing fun _ hq => by cases hq
    · cases hn
  | select result after =>
    simp only [State.next] at hn
    split at hn
    next hp =>
      obtain rfl := Option.some.inj hn
      exact Aware.selectReturns hp hheed
    · cases hn
  | dispatch =>
    simp only [State.next] at hn
    split at hn
    next hp =>
      obtain rfl := Option.some.inj hn
      exact h.dispatch hp
    · cases hn

/-- A call is what the tables have for the descriptor, which is monitored. -/
theorem callAt_eq_some {c : Call} (hc : s.tables.callAt p = some c) :
    s.tables.monitoredFds p.position = true ∧ s.tables.handlers p.position = some c.handler ∧
      c.fd = p.position ∧ c.data = s.tables.data p.position ∧
      c.readable = p.sets.read p.position ∧ c.writable = p.sets.write p.position ∧
      c.exception = p.sets.exception p.position := by
  unfold Tables.callAt at hc
  split_ifs at hc with hevent
  obtain ⟨handler, hhandler, rfl⟩ := Option.map_eq_some_iff.mp hc
  rw [Tables.event, Bool.and_eq_true] at hevent
  exact ⟨hevent.1, hhandler, rfl, rfl, rfl, rfl, rfl⟩

/-- **The handler called is that of the registration in force**, whatever the pass has been told. -/
theorem current_of_callAt (h : Sound s) {c : Call} (hc : s.tables.callAt p = some c) :
    ∃ r, s.registrations c.fd = some r ∧ r.handler = some c.handler ∧ r.data = c.data ∧
      r.number ∉ s.ended := by
  obtain ⟨hm, hhandler, hfd, hdata, -⟩ := callAt_eq_some hc
  obtain ⟨r, hr⟩ := h.registered _ hm
  have hold := h.holds _ r hr
  exact ⟨r, hfd ▸ hr, hold.handler.symm.trans hhandler, hold.data.symm.trans hdata.symm,
    h.not_ended _ r hr⟩

/-- An aware pass makes none but fresh calls. -/
theorem Aware.fresh (haware : Aware s) (h : Sound s) (hp : s.phase = .passing p) {c : Call}
    (hc : s.tables.callAt p = some c) : Fresh s p c := by
  refine ⟨current_of_callAt h hc, fun hready => ?_⟩
  obtain ⟨hm, -, hfd, -, hread, hwrite, hexception⟩ := callAt_eq_some hc
  rw [hfd]
  rw [hread, hwrite, hexception] at hready ⊢
  have hany : p.sets.any p.position = true := by
    rw [FdSets.any, Bool.or_eq_true, Bool.or_eq_true]
    exact or_assoc.mpr hready
  obtain ⟨⟨reported, hresult, sets, hsets⟩, hcopied⟩ :=
    haware p hp p.position (Nat.le_refl _) hany hm
  refine ⟨⟨reported, hresult, ?_⟩, hcopied⟩
  rw [hsets]
  simp only [FdSets.inter, Bool.and_eq_true]
  exact ⟨And.right, And.right, And.right⟩

/-- **Where every step is heedful, no readiness is stale.** -/
theorem fresh_of_heedful (events : List Event)
    (h : ∀ v ∈ visits State.next {} events, Heedful v.1 v.2) :
    ∀ v ∈ visits State.next {} events, CallsFresh v.1 v.2 := by
  have hinv : ∀ s ∈ reached State.next {} events, Sound s ∧ Aware s :=
    forall_reached (I := fun s => Sound s ∧ Aware s)
      (fun _ _ _ hs hheed hn => ⟨hs.1.next hn, hs.2.next hheed hn⟩) events {}
      ⟨sound_init, aware_of_not_passing fun _ hq => by cases hq⟩ h
  rintro ⟨s, e⟩ hv
  obtain ⟨hs, haware⟩ := hinv s (mem_reached_of_mem_visits _ _ hv)
  cases e with
  | dispatch => exact fun p hp _ c hc => haware.fresh hs hp hc
  | _ => trivial

/-! ## Three runs of a handler that reads -/

/-- A handler that reads is registered for descriptor 0, and the sets are copied. -/
def oneReader : List Event :=
  [.register 0 (some 1) 0 ⟨true, false, true⟩ 0 (.ofSec 1000), .prepare (.ofSec 1000) fun _ => false]

/-- There is something to read. -/
def somethingToRead : List Event :=
  oneReader ++ [.select (.ready { read := fun fd => fd = 0 }) (.ofSec 1001), .dispatch]

theorem callsFresh_somethingToRead : (somethingToRead.foldlM State.next {}).isSome ∧
    ∀ v ∈ visits State.next {} somethingToRead, CallsFresh v.1 v.2 := by
  refine ⟨rfl, fresh_of_heedful somethingToRead ?_⟩
  refine List.forall_mem_cons.mpr ⟨fun p hp => (by cases hp), ?_⟩
  refine List.forall_mem_cons.mpr ⟨trivial, ?_⟩
  refine List.forall_mem_cons.mpr ⟨fun sets blocking copied hp fd r _ hr => ?_, ?_⟩
  · cases hp
    exact ((sound_init.gmFdRegister 0 (some 1) 0 ⟨true, false, true⟩ 0 (.ofSec 1000)).prepare
      (.ofSec 1000) fun _ => false).number_lt fd r hr
  · exact List.forall_mem_cons.mpr ⟨trivial, List.forall_mem_nil _⟩

/-- `select` fails, and not with `EBADF`. -/
def failedSelect : List Event := oneReader ++ [.select .failed (.ofSec 1001)]

/-- There is something to read, but the descriptor has gone to another registration, as when its
connection was closed, and the next one accepted, while `select` was returning. -/
def reusedDescriptor : List Event :=
  oneReader ++ [.select (.ready { read := fun fd => fd = 0 }) (.ofSec 1001), .unregister 0,
    .register 0 (some 2) 0 ⟨true, false, true⟩ 0 (.ofSec 1001)]

/-- A run that ends in a call that claims readiness, though `select` failed or the registration came
after the copy. -/
def EndsStale (events : List Event) : Prop :=
  ∃ s p c, events.foldlM State.next {} = some s ∧ s.phase = .passing p ∧
    p.position < s.tables.fdLimit ∧ s.tables.callAt p = some c ∧ c.readable = true ∧
    ((match p.result with | .ready _ => false | _ => true) = true ∨
      (s.registrations c.fd).any (fun r => decide (p.copied ≤ r.number)) = true)

theorem EndsStale.not_callsFresh {events : List Event} (h : EndsStale events) :
    ¬ ∀ v ∈ visits State.next {} (events ++ [.dispatch]), CallsFresh v.1 v.2 := by
  obtain ⟨s, p, c, hs, hp, hlt, hc, hreadable, hstale⟩ := h
  intro hall
  obtain ⟨⟨reported, hresult, -⟩, hcopied⟩ :=
    (hall _ (mem_visits_of_foldlM _ _ hs) p hp hlt c hc).ready (Or.inl hreadable)
  obtain hfailed | hlate := hstale
  · rw [hresult] at hfailed
    cases hfailed
  · obtain ⟨r, hr, hle⟩ := (Option.any_eq_true _ _).mp hlate
    have := hcopied r hr
    have := of_decide_eq_true hle
    omega

/-- **A failed `select`, and a descriptor used again, both lead to a call for stale readiness.** -/
theorem not_callsFresh_stale :
    (¬ ∀ v ∈ visits State.next {} (failedSelect ++ [.dispatch]), CallsFresh v.1 v.2) ∧
      ¬ ∀ v ∈ visits State.next {} (reusedDescriptor ++ [.dispatch]), CallsFresh v.1 v.2 :=
  ⟨EndsStale.not_callsFresh ⟨_, _, _, rfl, rfl, by decide, rfl, rfl, Or.inl rfl⟩,
    EndsStale.not_callsFresh ⟨_, _, _, rfl, rfl, by decide, rfl, rfl, Or.inr (by decide)⟩⟩

end Select
