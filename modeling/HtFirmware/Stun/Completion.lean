import HtFirmware.Stun.Engine

/-!
# Stun/Completion — does every run of `gm_stun` end?

A run that is neither queued nor registered will never be touched again.  By then its callback
should have been called once, with whether an answer was accepted, and the run freed once
(`Settled`); and no run should send more than six requests.

A run vanishes where a request fails before its descriptor is registered, where the descriptor it
is registered under is given to another run, and where it is closed and swept away.
`settled_iff_carries` says that nothing else goes wrong.
-/

open Machinery

namespace Stun

/-! ## Settled runs -/

/-- A run with a job in the queue, or a descriptor registered. -/
def Placed (s : State) (r : ℕ) : Prop := r ∈ s.queue ∨ ∃ fd, s.handlers fd = some r

/-- How a run should end. -/
def Ended (run : StunRun) (log : Log) : Prop :=
  log.calls = (if run.after then [log.accepted] else []) ∧ log.frees = 1

/-- **Every run is settled**: it sent at most six requests, and has ended if it is nowhere. -/
def Settled (s : State) : Prop :=
  ∀ r < s.nextRun, (s.log r).requests ≤ 6 ∧ (¬ Placed s r → Ended (s.runs r) (s.log r))

/-- The descriptor a request is sent from, if it is sent whole: one that is not open, or that of the
last request, which is closed first. -/
def sentFrom (s : State) (o : SendOutcome) : Option ℕ :=
  if o.found && o.sent then
    o.socket.filter fun fd => fd ∉ s.openFds ∨ s.stunSock = some fd
  else none

/-- **What it takes**: each job sends its request whole, from a descriptor no other run is registered
under, and no registered descriptor is found closed. -/
def Carries (s : State) (e : Event) : Prop :=
  match e with
  | .job o => s.queue ≠ [] → ∃ fd, sentFrom s o = some fd ∧ s.handlers fd = none
  | .sweep fd => fd ∉ s.openFds → s.handlers fd = none
  | _ => True

/-! ## What every run keeps -/

/-- **What every run keeps**, lost ones included. -/
structure Sound (s : State) : Prop where
  nodup : s.queue.Nodup
  apart : ∀ fd r, s.handlers fd = some r → r ∉ s.queue
  inj : ∀ fd fd' r, s.handlers fd = some r → s.handlers fd' = some r → fd = fd'
  bound : ∀ r, Placed s r → r < s.nextRun
  live : ∀ r, Placed s r → (s.log r).frees = 0
  tries : ∀ r, (s.runs r).tries ≤ 5
  requests : ∀ r, (s.log r).requests ≤ (s.runs r).tries + if r ∈ s.queue then 0 else 1
  ended : ∀ r, (s.log r).frees = 0 ∧ (s.log r).calls = [] ∧ (s.log r).accepted = false ∨
    Ended (s.runs r) (s.log r)
  fresh : ∀ r, s.nextRun ≤ r → s.log r = {}

theorem sound_init : Sound {} where
  nodup := List.nodup_nil
  apart _ _ h := by cases h
  inj _ _ _ h := by cases h
  bound _ h := by rcases h with h | ⟨_, h⟩ <;> cases h
  live _ _ := rfl
  tries _ := Nat.zero_le 5
  requests _ := Nat.zero_le _
  ended _ := Or.inl ⟨rfl, rfl, rfl⟩
  fresh _ _ := rfl

section Sound

variable {s t : State} {r fd : ℕ}

/-- A sound state is settled when no run is lost. -/
theorem Sound.settled_iff (h : Sound s) :
    Settled s ↔ ∀ r < s.nextRun, (s.log r).frees = 0 → Placed s r := by
  constructor
  · intro hs r hr hlive
    by_contra hplaced
    have hended := (hs r hr).2 hplaced
    rw [hended.2] at hlive
    cases hlive
  · intro hs r hr
    refine ⟨?_, fun hplaced => ?_⟩
    · have hrequests := h.requests r
      have htries := h.tries r
      split_ifs at hrequests <;> omega
    · exact (h.ended r).resolve_left fun hlive => hplaced (hs r hr hlive.1)

/-- Nothing became yet of a run that was not freed. -/
theorem Sound.unfinished (h : Sound s) (hlive : (s.log r).frees = 0) :
    (s.log r).calls = [] ∧ (s.log r).accepted = false := by
  refine ((h.ended r).resolve_right fun hended => ?_).2
  rw [hended.2] at hlive
  cases hlive

/-- A live run that is nowhere is lost. -/
theorem Sound.not_settled (h : Sound s) (hr : r < s.nextRun) (hlive : (s.log r).frees = 0)
    (hplaced : ¬ Placed s r) : ¬ Settled s :=
  fun hs => hplaced (h.settled_iff.mp hs r hr hlive)

end Sound

/-! ## What a step does to the runs -/

/-- Two states with the same runs: they differ in open descriptors and in the memory. -/
structure SameRuns (s t : State) : Prop where
  queue : t.queue = s.queue
  handlers : t.handlers = s.handlers
  nextRun : t.nextRun = s.nextRun
  runs : t.runs = s.runs
  log : t.log = s.log

section Cases

variable {s t : State} {r fd : ℕ} {o : SendOutcome}

theorem Sound.of_sameRuns (h : Sound s) (hst : SameRuns s t) : Sound t := by
  obtain ⟨runs, nextRun, queue, handlers, stunSock, openFds, memory, log⟩ := t
  obtain ⟨hq, hh, hn, hr, hl⟩ := hst
  subst hq hh hn hr hl
  exact ⟨h.nodup, h.apart, h.inj, h.bound, h.live, h.tries, h.requests, h.ended, h.fresh⟩

theorem placed_of_sameRuns (hst : SameRuns s t) : Placed t r ↔ Placed s r := by
  rw [Placed, Placed, hst.queue, hst.handlers]

theorem settled_of_sameRuns (hst : SameRuns s t) : Settled t ↔ Settled s := by
  obtain ⟨runs, nextRun, queue, handlers, stunSock, openFds, memory, log⟩ := t
  obtain ⟨hq, hh, hn, hr, hl⟩ := hst
  subst hq hh hn hr hl
  exact Iff.rfl

/-- One more request. -/
def Log.request (l : Log) : Log := { l with requests := l.requests + 1 }

/-- The end of a run. -/
def Log.finish (run : StunRun) (success : Bool) (l : Log) : Log :=
  { l with
    accepted := success
    calls := if run.after then l.calls ++ [success] else l.calls
    frees := l.frees + 1 }

/-- A run that will send another request. -/
def State.retry (s : State) (r : ℕ) : State :=
  { s with runs := Function.update s.runs r { s.runs r with tries := (s.runs r).tries + 1 } }.enqueue r

theorem sameRuns_closeStunSock (s : State) : SameRuns s s.closeStunSock := by
  unfold State.closeStunSock
  split
  exacts [⟨rfl, rfl, rfl, rfl, rfl⟩, ⟨rfl, rfl, rfl, rfl, rfl⟩]

theorem mem_openFds_closeStunSock :
    fd ∉ s.closeStunSock.openFds ↔ fd ∉ s.openFds ∨ s.stunSock = some fd := by
  unfold State.closeStunSock
  cases s.stunSock with
  | none => simp
  | some old =>
    have hmem : fd ∈ (s.close old).openFds ↔ fd ∈ s.openFds ∧ fd ≠ old := by simp [State.close]
    dsimp only
    rw [hmem, not_and_or, not_not, Option.some_inj, eq_comm]

/-- **What a job does**: the run is registered if its request is sent whole, else dropped. -/
theorem stunSend_cases (s : State) (r : ℕ) (o : SendOutcome) :
    match sentFrom s o with
    | some fd => SameRuns ((s.logged r Log.request).register fd r) (stunSend s r o)
    | none => SameRuns s (stunSend s r o) ∨ SameRuns (s.logged r Log.request) (stunSend s r o) := by
  obtain ⟨hq, hh, hn, hr, hl⟩ := sameRuns_closeStunSock s
  have hlog : Function.update s.closeStunSock.log r (s.closeStunSock.log r).request
      = Function.update s.log r (s.log r).request := by rw [hl]
  have hregister : ∀ fd, Function.update s.closeStunSock.handlers fd (some r)
      = Function.update s.handlers fd (some r) := fun fd => by rw [hh]
  obtain ⟨found, socket, sent⟩ := o
  have hfilter : (socket.filter fun fd => decide (fd ∉ s.closeStunSock.openFds))
      = socket.filter fun fd => decide (fd ∉ s.openFds ∨ s.stunSock = some fd) := by
    simp only [mem_openFds_closeStunSock]
  unfold stunSend sendStunRequest sentFrom
  dsimp only
  rw [hfilter]
  cases found with
  | false => exact Or.inl ⟨rfl, rfl, rfl, rfl, rfl⟩
  | true =>
    cases socket.filter fun fd => decide (fd ∉ s.openFds ∨ s.stunSock = some fd) with
    | none =>
      rw [ite_self]
      exact Or.inl ⟨hq, hh, hn, hr, hl⟩
    | some fd =>
      cases sent with
      | false => exact Or.inr ⟨hq, hh, hn, hr, hlog⟩
      | true => exact ⟨hq, hregister fd, hn, hr, hlog⟩

/-- Giving a descriptor up, once or twice, unregisters it. -/
theorem sameRuns_drop (s : State) (fd : ℕ) (m : Memory) :
    SameRuns (s.unregister fd) (State.drop { s with memory := m } fd) :=
  ⟨rfl, rfl, rfl, rfl, rfl⟩

theorem sameRuns_drop_drop (s : State) (fd : ℕ) (m : Memory) :
    SameRuns (s.unregister fd) (State.drop (State.drop { s with memory := m } fd) fd) :=
  ⟨rfl, Function.update_idem .., rfl, rfl, rfl⟩

theorem SameRuns.logged (h : SameRuns s t) {f g : Log → Log} (hfg : g (s.log r) = f (s.log r)) :
    SameRuns (s.logged r f) (t.logged r g) where
  queue := h.queue
  handlers := h.handlers
  nextRun := h.nextRun
  runs := h.runs
  log := by rw [State.logged, State.logged, h.log, hfg]

/-- A run whose tries are used up ends with a failure. -/
theorem SameRuns.exhausted (h : SameRuns s t) (haccepted : (s.log r).accepted = false) :
    SameRuns (s.logged r (Log.finish (s.runs r) false)) (t.finish r false) := by
  refine h.logged ?_
  rw [h.runs, Log.finish, ← haccepted]

/-- A run whose answer was accepted ends with a success. -/
theorem SameRuns.accepted (h : SameRuns s t) :
    SameRuns (s.logged r (Log.finish (s.runs r) true))
      ((t.logged r fun l => { l with accepted := true }).finish r true) := by
  obtain ⟨hq, hh, hn, hr, hl⟩ := h
  refine ⟨hq, hh, hn, hr, ?_⟩
  simp only [State.finish, State.logged, Function.update_self, Function.update_idem, hr, hl,
    Log.finish]

theorem SameRuns.retry (h : SameRuns s t) : SameRuns (s.retry r) (t.retry r) := by
  obtain ⟨hq, hh, hn, hr, hl⟩ := h
  refine ⟨?_, hh, hn, ?_, hl⟩
  · simp only [State.retry, State.enqueue, hq]
  · simp only [State.retry, State.enqueue, hr]

/-- Another request is only sent while there are tries left. -/
theorem lt_of_attempt_again {decode : Memory → MappedAddress → Memory} {tries : ℕ} {m : Memory}
    {w : Wakeup} (h : (attempt decode tries m w).2 = .again) : tries < 5 := by
  unfold attempt at h
  dsimp only at h
  split_ifs at h
  omega

/-- **What a handler does**: the descriptor is given up, and the run ends or is queued again. -/
theorem stunReceive_cases (haccepted : (s.log r).accepted = false) (fd : ℕ) (w : Wakeup) :
    (∃ success, SameRuns
      ((s.unregister fd).logged r (Log.finish (s.runs r) success)) (stunReceive s fd r w)) ∨
    (s.runs r).tries < 5 ∧ SameRuns ((s.unregister fd).retry r) (stunReceive s fd r w) := by
  unfold stunReceive
  dsimp only
  generalize hattempt : attempt _ _ _ _ = received
  obtain ⟨m, verdict⟩ := received
  have h1 := sameRuns_drop s fd m
  have h2 := sameRuns_drop_drop s fd m
  cases verdict with
  | accepted =>
    refine Or.inl ⟨true, ?_⟩
    cases w with
    | readable response isException => exact h2.accepted
    | exception => exact h1.accepted
    | timeout => exact h1.accepted
  | exhausted =>
    refine Or.inl ⟨false, ?_⟩
    cases w with
    | readable response isException =>
      cases isException
      exacts [h1.exhausted haccepted, h2.exhausted haccepted]
    | exception => exact h1.exhausted haccepted
    | timeout => exact h1.exhausted haccepted
  | again =>
    refine Or.inr ⟨lt_of_attempt_again (congrArg Prod.snd hattempt), ?_⟩
    cases w with
    | readable response isException =>
      cases isException
      exacts [h1.retry, h2.retry]
    | exception => exact h1.retry
    | timeout => exact h1.retry

end Cases

/-! ## Every step is sound -/

section Step

variable {s t : State} {r fd : ℕ} {q : List ℕ}

theorem placed_unregister (h : Placed (s.unregister fd) r) : Placed s r := by
  rcases h with h | ⟨fd', h⟩
  · exact Or.inl h
  · rw [State.handlers_unregister] at h
    split_ifs at h
    exact Or.inr ⟨fd', h⟩

/-- Whatever is unregistered. -/
theorem Sound.unregister (h : Sound s) (fd : ℕ) : Sound (s.unregister fd) := by
  have hh : ∀ {fd' r}, (s.unregister fd).handlers fd' = some r → s.handlers fd' = some r := by
    intro fd' r hr
    rw [State.handlers_unregister] at hr
    split_ifs at hr
    exact hr
  exact ⟨h.nodup, fun fd' r hr => h.apart fd' r (hh hr), fun _ _ r hr hr' => h.inj _ _ r (hh hr) (hh hr'),
    fun r hr => h.bound r (placed_unregister hr), fun r hr => h.live r (placed_unregister hr),
    h.tries, h.requests, h.ended, h.fresh⟩

/-- The run registered under a descriptor is nowhere once it is unregistered. -/
theorem Sound.not_placed_unregister (h : Sound s) (hr : s.handlers fd = some r) :
    ¬ Placed (s.unregister fd) r := by
  rintro (hq | ⟨fd', hr'⟩)
  · exact h.apart fd r hr hq
  · rw [State.handlers_unregister] at hr'
    split_ifs at hr' with hfd
    exact hfd (h.inj fd' fd r hr' hr)

/-- A run taken off the queue is nowhere, and may send one more request. -/
theorem Sound.pop (h : Sound s) (hq : s.queue = r :: q) :
    Sound { s with queue := q } ∧ ¬ Placed { s with queue := q } r ∧
      (s.log r).requests ≤ (s.runs r).tries := by
  have hnodup := h.nodup
  rw [hq, List.nodup_cons] at hnodup
  have hsub : ∀ {r'}, r' ∈ q → r' ∈ s.queue := fun hr => hq ▸ List.mem_cons_of_mem _ hr
  have hplaced : ∀ {r'}, Placed { s with queue := q } r' → Placed s r' := fun hr => hr.imp_left hsub
  refine ⟨⟨hnodup.2, fun fd r' hr hmem => h.apart fd r' hr (hsub hmem), h.inj,
    fun r' hr => h.bound r' (hplaced hr), fun r' hr => h.live r' (hplaced hr), h.tries,
    fun r' => (h.requests r').trans (Nat.add_le_add_left ?_ _), h.ended, h.fresh⟩, ?_, ?_⟩
  · dsimp only
    split_ifs with h1 h2 h2
    exacts [Nat.zero_le _, Nat.zero_le _, absurd (hsub h2) h1, le_rfl]
  · rintro (hr | ⟨fd, hr⟩)
    · exact hnodup.1 hr
    · exact h.apart fd r hr (hq ▸ List.mem_cons_self)
  · have hrequests := h.requests r
    rwa [if_pos (hq ▸ List.mem_cons_self)] at hrequests

/-- A log may grow, as long as it says what is true. -/
theorem Sound.logged (h : Sound s) (hr : r < s.nextRun) {f : Log → Log}
    (hrequests : (f (s.log r)).requests ≤ (s.runs r).tries + if r ∈ s.queue then 0 else 1)
    (hlive : Placed s r → (f (s.log r)).frees = 0)
    (hended : (f (s.log r)).frees = 0 ∧ (f (s.log r)).calls = [] ∧ (f (s.log r)).accepted = false ∨
      Ended (s.runs r) (f (s.log r))) : Sound (s.logged r f) := by
  refine ⟨h.nodup, h.apart, h.inj, h.bound, ?_, h.tries, ?_, ?_, ?_⟩
  · exact (Function.forall_update_iff s.log fun r' l => Placed s r' → l.frees = 0).mpr
      ⟨hlive, fun r' _ => h.live r'⟩
  · exact (Function.forall_update_iff s.log fun r' l =>
      l.requests ≤ (s.runs r').tries + if r' ∈ s.queue then 0 else 1).mpr
        ⟨hrequests, fun r' _ => h.requests r'⟩
  · exact (Function.forall_update_iff s.log fun r' l =>
      l.frees = 0 ∧ l.calls = [] ∧ l.accepted = false ∨ Ended (s.runs r') l).mpr
        ⟨hended, fun r' _ => h.ended r'⟩
  · exact (Function.forall_update_iff s.log fun r' l => s.nextRun ≤ r' → l = {}).mpr
      ⟨fun hle => absurd hr hle.not_gt, fun r' _ => h.fresh r'⟩

/-- A run that is nowhere may be registered. -/
theorem Sound.register (h : Sound s) (hr : r < s.nextRun) (hplaced : ¬ Placed s r)
    (hlive : (s.log r).frees = 0) (fd : ℕ) : Sound (s.register fd r) := by
  have hh : ∀ {fd' r'}, (s.register fd r).handlers fd' = some r' →
      s.handlers fd' = some r' ∨ fd' = fd ∧ r' = r := by
    intro fd' r' hr'
    rw [State.handlers_register] at hr'
    split_ifs at hr' with hfd
    exacts [Or.inr ⟨hfd, (Option.some.inj hr').symm⟩, Or.inl hr']
  have hcases : ∀ {r'}, Placed (s.register fd r) r' → Placed s r' ∨ r' = r := by
    rintro r' (hq | ⟨fd', hr'⟩)
    · exact Or.inl (Or.inl hq)
    · exact (hh hr').imp (fun hr' => Or.inr ⟨fd', hr'⟩) And.right
  refine ⟨h.nodup, fun fd' r' hr' => ?_, fun fd₁ fd₂ r' h₁ h₂ => ?_, fun r' hr' => ?_,
    fun r' hr' => ?_, h.tries, h.requests, h.ended, h.fresh⟩
  · obtain hr' | ⟨-, rfl⟩ := hh hr'
    exacts [h.apart fd' r' hr', fun hq => hplaced (Or.inl hq)]
  · obtain hfd₁ | ⟨hfd₁, hr₁⟩ := hh h₁ <;> obtain hfd₂ | ⟨hfd₂, hr₂⟩ := hh h₂
    · exact h.inj fd₁ fd₂ r' hfd₁ hfd₂
    · exact absurd (Or.inr ⟨fd₁, hr₂ ▸ hfd₁⟩) hplaced
    · exact absurd (Or.inr ⟨fd₂, hr₁ ▸ hfd₂⟩) hplaced
    · exact hfd₁.trans hfd₂.symm
  · obtain hr' | rfl := hcases hr'
    exacts [h.bound r' hr', hr]
  · obtain hr' | rfl := hcases hr'
    exacts [h.live r' hr', hlive]

/-- A run that is nowhere may be queued. -/
theorem Sound.enqueue (h : Sound s) (hr : r < s.nextRun) (hplaced : ¬ Placed s r)
    (hlive : (s.log r).frees = 0) (hrequests : (s.log r).requests ≤ (s.runs r).tries) :
    Sound (s.enqueue r) := by
  have hmem : ∀ {r'}, r' ∈ (s.enqueue r).queue ↔ r' ∈ s.queue ∨ r' = r := by
    intro r'
    rw [State.enqueue, List.mem_append, List.mem_singleton]
  have hcases : ∀ {r'}, Placed (s.enqueue r) r' → Placed s r' ∨ r' = r := by
    rintro r' (hq | hr')
    exacts [(hmem.mp hq).imp_left Or.inl, Or.inl (Or.inr hr')]
  refine ⟨?_, fun fd r' hr' hq => ?_, h.inj, fun r' hr' => ?_, fun r' hr' => ?_, h.tries,
    fun r' => ?_, h.ended, h.fresh⟩
  · refine List.nodup_append.mpr ⟨h.nodup, List.nodup_singleton r, fun a ha b hb hab => ?_⟩
    exact hplaced (Or.inl (List.mem_singleton.mp hb ▸ hab ▸ ha))
  · obtain hq | rfl := hmem.mp hq
    exacts [h.apart fd r' hr' hq, hplaced (Or.inr ⟨fd, hr'⟩)]
  · obtain hr' | rfl := hcases hr'
    exacts [h.bound r' hr', hr]
  · obtain hr' | rfl := hcases hr'
    exacts [h.live r' hr', hlive]
  · split_ifs with hq
    · obtain hq | rfl := hmem.mp hq
      · have := h.requests r'
        rwa [if_pos hq] at this
      · exact hrequests
    · have := h.requests r'
      rwa [if_neg fun hq' => hq (hmem.mpr (Or.inl hq'))] at this

/-- A run may be written anew, as long as its log remains true of it. -/
theorem Sound.rewrite (h : Sound s) {run : StunRun} (htries : run.tries ≤ 5)
    (hrequests : (s.log r).requests ≤ run.tries + if r ∈ s.queue then 0 else 1)
    (hlive : (s.log r).frees = 0) : Sound { s with runs := Function.update s.runs r run } := by
  refine ⟨h.nodup, h.apart, h.inj, h.bound, h.live, ?_, ?_, ?_, h.fresh⟩
  · exact (Function.forall_update_iff s.runs fun _ run => run.tries ≤ 5).mpr
      ⟨htries, fun r' _ => h.tries r'⟩
  · exact (Function.forall_update_iff s.runs fun r' run =>
      (s.log r').requests ≤ run.tries + if r' ∈ s.queue then 0 else 1).mpr
        ⟨hrequests, fun r' _ => h.requests r'⟩
  · exact (Function.forall_update_iff s.runs fun r' run => (s.log r').frees = 0 ∧
      (s.log r').calls = [] ∧ (s.log r').accepted = false ∨ Ended run (s.log r')).mpr
        ⟨Or.inl ⟨hlive, h.unfinished hlive⟩, fun r' _ => h.ended r'⟩

/-- A run that is nowhere may be sent again, while it has tries left. -/
theorem Sound.retry (h : Sound s) (hr : r < s.nextRun) (hplaced : ¬ Placed s r)
    (hlive : (s.log r).frees = 0) (htries : (s.runs r).tries < 5) : Sound (s.retry r) := by
  have hrequests := h.requests r
  rw [if_neg fun hq => hplaced (Or.inl hq)] at hrequests
  have hrewrite : Sound { s with
      runs := Function.update s.runs r { s.runs r with tries := (s.runs r).tries + 1 } } := by
    refine h.rewrite htries (hrequests.trans (Nat.le_add_right _ _)) hlive
  refine hrewrite.enqueue hr hplaced hlive ?_
  simpa only [Function.update_self] using hrequests

/-- A new run may be queued. -/
theorem sound_gmStun (h : Sound s) (ipv6 : Bool) (address : ℕ) (after mallocOk : Bool) :
    Sound (gmStun s ipv6 address after mallocOk) := by
  have hfresh := h.fresh s.nextRun le_rfl
  have hplaced : ¬ Placed s s.nextRun := fun hp => (h.bound _ hp).false
  have hlive : (s.log s.nextRun).frees = 0 := by rw [hfresh]
  have hrequests : (s.log s.nextRun).requests = 0 := by rw [hfresh]
  unfold gmStun
  split_ifs
  · exact h
  · have hnew : Sound { s with
        runs := Function.update s.runs s.nextRun
          { ipv6 := ipv6, address := address, tries := 0, after := after } } :=
      h.rewrite (Nat.zero_le 5) (hrequests.trans_le (Nat.zero_le _)) hlive
    have hnext : Sound { s with
        runs := Function.update s.runs s.nextRun
          { ipv6 := ipv6, address := address, tries := 0, after := after }
        nextRun := s.nextRun + 1 } :=
      ⟨hnew.nodup, hnew.apart, hnew.inj, fun r hr => (hnew.bound r hr).trans (Nat.lt_succ_self _),
        hnew.live, hnew.tries, hnew.requests, hnew.ended, fun r hr => hnew.fresh r (by
          have : s.nextRun + 1 ≤ r := hr
          exact (Nat.le_succ _).trans this)⟩
    refine hnext.enqueue (Nat.lt_succ_self _) hplaced hlive ?_
    exact hrequests.trans_le (Nat.zero_le _)

/-- A run taken off the queue may send its request. -/
theorem Sound.requested (h : Sound s) (hq : s.queue = r :: q) :
    Sound (State.logged { s with queue := q } r Log.request) := by
  obtain ⟨hpop, hplaced, hrequests⟩ := h.pop hq
  have hr : r < s.nextRun := h.bound r (Or.inl (hq ▸ List.mem_cons_self))
  refine hpop.logged hr ?_ (fun hp => absurd hp hplaced) ?_
  · rw [if_neg fun hr => hplaced (Or.inl hr)]
    exact Nat.succ_le_succ hrequests
  · exact hpop.ended r

/-- The run at the head of the queue is live. -/
theorem Sound.head_live (h : Sound s) (hq : s.queue = r :: q) :
    r < s.nextRun ∧ (s.log r).frees = 0 :=
  have hplaced : Placed s r := Or.inl (hq ▸ List.mem_cons_self)
  ⟨h.bound r hplaced, h.live r hplaced⟩

/-- It may be registered then, under any descriptor. -/
theorem Sound.registered (h : Sound s) (hq : s.queue = r :: q) (fd : ℕ) :
    Sound ((State.logged { s with queue := q } r Log.request).register fd r) := by
  obtain ⟨hr, hlive⟩ := h.head_live hq
  refine (h.requested hq).register hr (h.pop hq).2.1 ?_ fd
  rw [State.log_logged, if_pos rfl]
  exact hlive

theorem sound_stunSend (h : Sound s) (hq : s.queue = r :: q) (o : SendOutcome) :
    Sound (stunSend { s with queue := q } r o) := by
  have hcases := stunSend_cases { s with queue := q } r o
  cases hfd : sentFrom { s with queue := q } o with
  | none =>
    rw [hfd] at hcases
    obtain hst | hst := hcases
    exacts [(h.pop hq).1.of_sameRuns hst, (h.requested hq).of_sameRuns hst]
  | some fd =>
    rw [hfd] at hcases
    exact (h.registered hq fd).of_sameRuns hcases

theorem sound_stunReceive (h : Sound s) (hr : s.handlers fd = some r) (w : Wakeup) :
    Sound (stunReceive s fd r w) := by
  have hplaced : Placed s r := Or.inr ⟨fd, hr⟩
  have hbound := h.bound r hplaced
  have hlive := h.live r hplaced
  obtain ⟨hcalls, haccepted⟩ := h.unfinished hlive
  obtain ⟨success, hst⟩ | ⟨htries, hst⟩ := stunReceive_cases haccepted fd w
  · refine ((h.unregister fd).logged hbound ?_ (fun hp => ?_) (Or.inr ⟨?_, ?_⟩)).of_sameRuns hst
    · exact h.requests r
    · exact absurd hp (h.not_placed_unregister hr)
    · change (if (s.runs r).after then (s.log r).calls ++ [success] else (s.log r).calls) = _
      rw [hcalls]
      rfl
    · exact congrArg (· + 1) hlive
  · exact ((h.unregister fd).retry hbound (h.not_placed_unregister hr) hlive htries).of_sameRuns hst

theorem step_job_nil (hq : s.queue = []) (o : SendOutcome) : step s (.job o) = s := by
  unfold step
  simp only [hq]

theorem step_job_cons (hq : s.queue = r :: q) (o : SendOutcome) :
    step s (.job o) = stunSend { s with queue := q } r o := by
  unfold step
  simp only [hq]

theorem step_wake_none (hr : s.handlers fd = none) (w : Wakeup) : step s (.wake fd w) = s := by
  unfold step
  simp only [hr]

theorem step_wake_some (hr : s.handlers fd = some r) (w : Wakeup) :
    step s (.wake fd w) = stunReceive s fd r w := by
  unfold step
  simp only [hr]

theorem step_sweep (s : State) (fd : ℕ) :
    step s (.sweep fd) = if fd ∈ s.openFds then s else s.unregister fd := rfl

/-- **Every step is sound.** -/
theorem sound_step (h : Sound s) (e : Event) : Sound (step s e) := by
  cases e with
  | gmStun ipv6 address after mallocOk => exact sound_gmStun h ipv6 address after mallocOk
  | job o =>
    cases hq : s.queue with
    | nil => rwa [step_job_nil hq]
    | cons r q =>
      rw [step_job_cons hq]
      exact sound_stunSend h hq o
  | wake fd w =>
    cases hr : s.handlers fd with
    | none => rwa [step_wake_none hr]
    | some r =>
      rw [step_wake_some hr]
      exact sound_stunReceive h hr w
  | sweep fd =>
    rw [step_sweep]
    split_ifs
    exacts [h, h.unregister fd]

end Step

/-! ## Where runs are lost -/

section Settled

variable {s : State} {r fd : ℕ} {q : List ℕ} {o : SendOutcome}

/-- A new run is queued. -/
theorem Sound.settled_gmStun (h : Sound s) (hs : Settled s) (ipv6 : Bool) (address : ℕ)
    (after mallocOk : Bool) : Settled (gmStun s ipv6 address after mallocOk) := by
  rw [(sound_gmStun h ipv6 address after mallocOk).settled_iff]
  have hall := h.settled_iff.mp hs
  unfold gmStun
  split_ifs
  · exact hall
  · intro r hr hlive
    obtain hr | rfl := Nat.lt_succ_iff_lt_or_eq.mp hr
    · exact (hall r hr hlive).imp_left (List.mem_append_left _)
    · exact Or.inl (List.mem_append_right _ (List.mem_singleton_self _))

/-- A job loses its run when the request is not sent whole. -/
theorem Sound.not_settled_stunSend (h : Sound s) (hq : s.queue = r :: q)
    (hfd : sentFrom s o = none) : ¬ Settled (stunSend { s with queue := q } r o) := by
  obtain ⟨hr, hlive⟩ := h.head_live hq
  have hcases := stunSend_cases { s with queue := q } r o
  rw [show sentFrom { s with queue := q } o = none from hfd] at hcases
  obtain hst | hst := hcases
  · rw [settled_of_sameRuns hst]
    exact (h.pop hq).1.not_settled hr hlive (h.pop hq).2.1
  · rw [settled_of_sameRuns hst]
    refine (h.requested hq).not_settled hr ?_ (h.pop hq).2.1
    rw [State.log_logged, if_pos rfl]
    exact hlive

/-- A job loses the run whose descriptor it takes over, and no other. -/
theorem Sound.settled_stunSend_iff (h : Sound s) (hs : Settled s) (hq : s.queue = r :: q)
    (hfd : sentFrom s o = some fd) :
    Settled (stunSend { s with queue := q } r o) ↔ s.handlers fd = none := by
  have hcases := stunSend_cases { s with queue := q } r o
  rw [show sentFrom { s with queue := q } o = some fd from hfd] at hcases
  rw [settled_of_sameRuns hcases]
  have hlog : ∀ r', ((State.logged { s with queue := q } r Log.request).register fd r).log r'
      = if r' = r then (s.log r).request else s.log r' := State.log_logged _ _ _
  have hregistered := h.registered hq fd
  constructor
  · intro ht
    by_contra hne
    obtain ⟨r', hr'⟩ := Option.ne_none_iff_exists'.mp hne
    have hnr : r' ≠ r := fun heq => h.apart fd r' hr' (hq ▸ heq ▸ List.mem_cons_self)
    have hplaced : Placed s r' := Or.inr ⟨fd, hr'⟩
    refine hregistered.not_settled (h.bound r' hplaced) ?_ ?_ ht
    · rw [hlog, if_neg hnr]
      exact h.live r' hplaced
    · rintro (hmem | ⟨fd', hfd'⟩)
      · exact h.apart fd r' hr' (hq ▸ List.mem_cons_of_mem r hmem)
      · rw [State.handlers_register] at hfd'
        split_ifs at hfd' with heq
        · exact hnr (Option.some.inj hfd').symm
        · exact heq (h.inj fd' fd r' hfd' hr')
  · intro hnone
    refine hregistered.settled_iff.mpr fun r' hr' hlive' => ?_
    by_cases heq : r' = r
    · exact Or.inr ⟨fd, by rw [State.handlers_register, if_pos rfl, heq]⟩
    · rw [hlog, if_neg heq] at hlive'
      obtain hmem | ⟨fd', hfd'⟩ := h.settled_iff.mp hs r' hr' hlive'
      · rw [hq] at hmem
        exact Or.inl ((List.mem_cons.mp hmem).resolve_left heq)
      · refine Or.inr ⟨fd', ?_⟩
        rw [State.handlers_register, if_neg fun heq => by rw [heq, hnone] at hfd'; cases hfd']
        exact hfd'

/-- Unregistering a descriptor loses its run, and no other. -/
theorem placed_unregister_of_ne {r' : ℕ} (hr : s.handlers fd = some r)
    (hne : r' ≠ r) (hp : Placed s r') : Placed (s.unregister fd) r' := by
  obtain hq | ⟨fd', hfd'⟩ := hp
  · exact Or.inl hq
  · refine Or.inr ⟨fd', ?_⟩
    rw [State.handlers_unregister, if_neg fun heq => hne ?_]
    · exact hfd'
    · rw [heq, hr] at hfd'
      exact (Option.some.inj hfd').symm

/-- A handler loses no run. -/
theorem Sound.settled_stunReceive (h : Sound s) (hs : Settled s) (hr : s.handlers fd = some r)
    (w : Wakeup) : Settled (stunReceive s fd r w) := by
  have hplaced : Placed s r := Or.inr ⟨fd, hr⟩
  have haccepted := (h.unfinished (h.live r hplaced)).2
  refine (sound_stunReceive h hr w).settled_iff.mpr fun r' hr' hlive => ?_
  obtain ⟨success, hst⟩ | ⟨-, hst⟩ := stunReceive_cases haccepted fd w
  · rw [hst.nextRun] at hr'
    rw [hst.log, State.log_logged] at hlive
    rw [placed_of_sameRuns hst]
    split_ifs at hlive with heq
    · cases hlive
    · exact placed_unregister_of_ne hr heq (h.settled_iff.mp hs r' hr' hlive)
  · rw [hst.nextRun] at hr'
    rw [hst.log] at hlive
    rw [placed_of_sameRuns hst]
    by_cases heq : r' = r
    · exact Or.inl (List.mem_append_right _ (List.mem_singleton.mpr heq))
    · refine (placed_unregister_of_ne hr heq (h.settled_iff.mp hs r' hr' hlive)).imp_left ?_
      exact List.mem_append_left _

/-- A sweep loses the run whose descriptor it finds closed. -/
theorem Sound.settled_unregister_iff (h : Sound s) (hs : Settled s) :
    Settled (s.unregister fd) ↔ s.handlers fd = none := by
  constructor
  · intro ht
    by_contra hne
    obtain ⟨r, hr⟩ := Option.ne_none_iff_exists'.mp hne
    have hplaced : Placed s r := Or.inr ⟨fd, hr⟩
    exact (h.unregister fd).not_settled (h.bound r hplaced) (h.live r hplaced)
      (h.not_placed_unregister hr) ht
  · intro hnone
    have hsame : s.unregister fd = s := by
      rw [State.unregister, Function.update_eq_self_iff.mpr hnone.symm]
    rwa [hsame]

/-- A job loses no run exactly when its request goes out, on a descriptor of its own. -/
theorem Sound.settled_job_iff (h : Sound s) (hs : Settled s) (o : SendOutcome) :
    Settled (step s (.job o)) ↔ Carries s (.job o) := by
  unfold Carries
  cases hq : s.queue with
  | nil =>
    rw [step_job_nil hq]
    exact iff_of_true hs fun hne => absurd rfl hne
  | cons r q =>
    rw [step_job_cons hq]
    cases hfd : sentFrom s o with
    | none =>
      refine iff_of_false (h.not_settled_stunSend hq hfd) fun hc => ?_
      obtain ⟨fd, hsome, -⟩ := hc (List.cons_ne_nil _ _)
      rw [hfd] at hsome
      cases hsome
    | some fd =>
      rw [h.settled_stunSend_iff hs hq hfd]
      constructor
      · exact fun hnone _ => ⟨fd, hfd, hnone⟩
      · intro hc
        obtain ⟨fd', hsome, hnone⟩ := hc (List.cons_ne_nil _ _)
        exact Option.some.inj (hfd.symm.trans hsome) ▸ hnone

/-- **A step loses no run exactly when it carries them all on.** -/
theorem settled_step_iff (h : Sound s) (hs : Settled s) (e : Event) :
    Settled (step s e) ↔ Carries s e := by
  cases e with
  | gmStun ipv6 address after mallocOk =>
    exact iff_of_true (h.settled_gmStun hs ipv6 address after mallocOk) trivial
  | job o => exact h.settled_job_iff hs o
  | wake fd w =>
    refine iff_of_true ?_ trivial
    cases hr : s.handlers fd with
    | none => rwa [step_wake_none hr]
    | some r =>
      rw [step_wake_some hr]
      exact h.settled_stunReceive hs hr w
  | sweep fd =>
    rw [step_sweep]
    unfold Carries
    split_ifs with hopen
    · exact iff_of_true hs fun hclosed => absurd hopen hclosed
    · rw [h.settled_unregister_iff hs]
      exact ⟨fun hnone _ => hnone, fun hc => hc hopen⟩

end Settled

theorem settled_init : Settled {} := fun _ hr => absurd hr (Nat.not_lt_zero _)

/-- **The runs of `gm_stun` are settled exactly when every step carries them on.** -/
theorem settled_iff_carries (events : List Event) :
    (∀ s ∈ reached next {} events, Settled s) ↔ ∀ v ∈ visits next {} events, Carries v.1 v.2 :=
  forall_reached_iff (I := Sound)
    (fun _ e _ h hs ht => Option.some.inj ht ▸ settled_step_iff h hs e)
    (fun _ _ _ _ ht => by cases ht)
    (fun _ e _ h ht => Option.some.inj ht ▸ sound_step h e) events {} sound_init settled_init

/-- A run whose server is not found. -/
def unreachable : List Event := [.gmStun false 0 true true, .job ⟨false, none, false⟩]

/-- **A run whose server is not found is never heard of again.** -/
theorem not_settled_unreachable : ¬ ∀ s ∈ reached next {} unreachable, Settled s := by
  intro h
  have hlost : step (step {} (.gmStun false 0 true true)) (.job ⟨false, none, false⟩) ∈
      reached next {} unreachable :=
    List.mem_cons_of_mem _ (List.mem_cons_of_mem _ List.mem_cons_self)
  refine absurd ((h _ hlost 0 (by decide)).2 ?_).2 (by decide)
  rintro (hq | ⟨fd, hfd⟩)
  · cases hq
  · cases hfd

end Stun
