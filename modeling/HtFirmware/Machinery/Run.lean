import Mathlib.Data.List.Basic

/-!
# Machinery/Run — the runs of a fallible transition function

A system is a function `next : σ → ε → Option σ`: the state after an event, or `none` when no state
follows.  `visits` lists the states of a run, each with the event about to be taken there;
`reached` lists every state the run passes through.  Two rules carry every result about runs:

* `forall_reached` — an invariant the admitted steps keep holds of every state reached.
* `forall_visits_iff` / `forall_reached_iff` — where a property and a condition on steps agree
  *under the invariant the condition keeps*, they agree over whole runs: the first step to break
  one is the first to break the other.
-/

namespace Machinery

variable {σ ε : Type*} (next : σ → ε → Option σ)

/-! ## The states of a run -/

/-- The states a run meets, each with the event about to be taken there.  The run ends at the first
event no state follows. -/
def visits : σ → List ε → List (σ × ε)
  | _, [] => []
  | s, e :: es => (s, e) :: ((next s e).map fun t => visits t es).getD []

/-- Every state a run passes through, the first one included. -/
def reached : σ → List ε → List σ
  | s, [] => [s]
  | s, e :: es => s :: ((next s e).map fun t => reached t es).getD []

variable {next}

@[simp] theorem visits_nil (s : σ) : visits next s [] = [] := rfl

@[simp] theorem reached_nil (s : σ) : reached next s [] = [s] := rfl

theorem visits_of_some {s t : σ} {e : ε} (h : next s e = some t) (es : List ε) :
    visits next s (e :: es) = (s, e) :: visits next t es := by simp [visits, h]

theorem visits_of_none {s : σ} {e : ε} (h : next s e = none) (es : List ε) :
    visits next s (e :: es) = [(s, e)] := by simp [visits, h]

theorem reached_of_some {s t : σ} {e : ε} (h : next s e = some t) (es : List ε) :
    reached next s (e :: es) = s :: reached next t es := by simp [reached, h]

theorem reached_of_none {s : σ} {e : ε} (h : next s e = none) (es : List ε) :
    reached next s (e :: es) = [s] := by simp [reached, h]

/-- A run passes through the state it starts from. -/
theorem mem_reached_self (s : σ) : ∀ es : List ε, s ∈ reached next s es
  | [] => List.mem_singleton_self s
  | _ :: _ => List.mem_cons_self

/-- A run passes through every state it meets. -/
theorem mem_reached_of_mem_visits {v : σ × ε} :
    ∀ (es : List ε) (s : σ), v ∈ visits next s es → v.1 ∈ reached next s es := by
  intro es
  induction es with
  | nil => intro s h; simp at h
  | cons e es ih =>
    intro s h
    cases hs : next s e with
    | none =>
      rw [visits_of_none hs, List.mem_singleton] at h
      exact h ▸ mem_reached_self s (e :: es)
    | some w =>
      rw [visits_of_some hs] at h
      rw [reached_of_some hs]
      rcases List.mem_cons.mp h with rfl | h
      · exact List.mem_cons_self
      · exact List.mem_cons_of_mem _ (ih w h)

/-- The events a run meets are its own. -/
theorem mem_of_mem_visits {v : σ × ε} :
    ∀ (es : List ε) (s : σ), v ∈ visits next s es → v.2 ∈ es := by
  intro es
  induction es with
  | nil => intro s h; simp at h
  | cons e es ih =>
    intro s h
    cases hs : next s e with
    | none =>
      rw [visits_of_none hs, List.mem_singleton] at h
      exact h ▸ List.mem_cons_self
    | some w =>
      rw [visits_of_some hs] at h
      rcases List.mem_cons.mp h with rfl | h
      · exact List.mem_cons_self
      · exact List.mem_cons_of_mem _ (ih w h)

/-- A run passes through the state each of its steps leads to. -/
theorem mem_reached_of_visit {e : ε} {t u : σ} (hn : next t e = some u) :
    ∀ (es : List ε) (s : σ), (t, e) ∈ visits next s es → u ∈ reached next s es := by
  intro es
  induction es with
  | nil => intro s h; simp at h
  | cons e' es ih =>
    intro s h
    cases hs : next s e' with
    | none =>
      rw [visits_of_none hs, List.mem_singleton, Prod.mk.injEq] at h
      obtain ⟨rfl, rfl⟩ := h
      rw [hn] at hs
      cases hs
    | some w =>
      rw [visits_of_some hs] at h
      rw [reached_of_some hs]
      rcases List.mem_cons.mp h with heq | h
      · obtain ⟨rfl, rfl⟩ := Prod.mk.injEq .. ▸ heq
        obtain rfl : w = u := Option.some.inj (hs.symm.trans hn)
        exact List.mem_cons_of_mem _ (mem_reached_self w es)
      · exact List.mem_cons_of_mem _ (ih w h)

/-- A run meets the state its first events lead to, with the event after them. -/
theorem mem_visits_of_foldlM {e : ε} {t : σ} : ∀ (es : List ε) (s : σ),
    es.foldlM next s = some t → (t, e) ∈ visits next s (es ++ [e]) := by
  intro es
  induction es with
  | nil =>
    rintro s h
    obtain rfl := Option.some.inj h
    exact List.mem_cons_self
  | cons e' es ih =>
    intro s h
    cases hs : next s e' with
    | none =>
      rw [List.foldlM_cons, hs] at h
      cases h
    | some w =>
      rw [List.foldlM_cons, hs] at h
      rw [List.cons_append, visits_of_some hs]
      exact List.mem_cons_of_mem _ (ih w h)

/-- A run passes through the state all its events lead to. -/
theorem mem_reached_of_foldlM {t : σ} : ∀ (es : List ε) (s : σ),
    es.foldlM next s = some t → t ∈ reached next s es := by
  intro es
  induction es with
  | nil =>
    rintro s h
    obtain rfl := Option.some.inj h
    exact List.mem_singleton_self s
  | cons e es ih =>
    intro s h
    cases hs : next s e with
    | none =>
      rw [List.foldlM_cons, hs] at h
      cases h
    | some w =>
      rw [List.foldlM_cons, hs] at h
      rw [reached_of_some hs]
      exact List.mem_cons_of_mem _ (ih w h)

/-- **A run passes through its first state, and through what its steps lead to.** -/
theorem forall_reached_iff_visits {Q : σ → Prop} : ∀ (es : List ε) (s : σ),
    (∀ t ∈ reached next s es, Q t) ↔
      Q s ∧ ∀ v ∈ visits next s es, ∀ t, next v.1 v.2 = some t → Q t := by
  intro es
  induction es with
  | nil => intro s; simp
  | cons e es ih =>
    intro s
    cases hn : next s e with
    | none => simp [visits_of_none hn, reached_of_none hn, hn]
    | some u =>
      simp only [visits_of_some hn, reached_of_some hn, List.forall_mem_cons, hn,
        Option.some.injEq, forall_eq', ih u]

/-! ## Invariants -/

section Invariant

variable {I : σ → Prop} {C : σ → ε → Prop}

/-- **The invariant rule.**  An invariant kept by every step that meets `C` holds of every state of
a run whose steps all meet `C`. -/
theorem forall_reached (hstep : ∀ s e t, I s → C s e → next s e = some t → I t) :
    ∀ (es : List ε) (s : σ), I s → (∀ v ∈ visits next s es, C v.1 v.2) →
      ∀ t ∈ reached next s es, I t := by
  intro es
  induction es with
  | nil =>
    intro s hs _ t ht
    rwa [reached_nil, List.mem_singleton.mp ht] at *
  | cons e es ih =>
    intro s hs hC t ht
    cases hn : next s e with
    | none =>
      rw [reached_of_none hn] at ht
      rwa [List.mem_singleton.mp ht]
    | some u =>
      rw [reached_of_some hn] at ht
      rw [visits_of_some hn] at hC
      rcases List.mem_cons.mp ht with rfl | ht
      · exact hs
      · exact ih u (hstep s e u hs (hC _ List.mem_cons_self) hn)
          (fun v hv => hC v (List.mem_cons_of_mem _ hv)) t ht

variable {P : σ → ε → Prop}

/-- **Two step conditions that agree under the invariant agree over runs.**  The invariant need only
survive the steps that meet them. -/
theorem forall_visits_iff (hPC : ∀ s e, I s → (P s e ↔ C s e))
    (hstep : ∀ s e t, I s → C s e → next s e = some t → I t) :
    ∀ (es : List ε) (s : σ), I s →
      ((∀ v ∈ visits next s es, P v.1 v.2) ↔ ∀ v ∈ visits next s es, C v.1 v.2) := by
  intro es
  induction es with
  | nil => intro s _; simp
  | cons e es ih =>
    intro s hs
    cases hn : next s e with
    | none => simp [visits_of_none hn, hPC s e hs]
    | some u =>
      simp only [visits_of_some hn, List.forall_mem_cons, hPC s e hs]
      exact and_congr_right fun hC => ih u (hstep s e u hs hC hn)

/-- **A step property that comes down to a condition on the event holds along a run exactly when
every event meets it**: an admitted event is followed by another state. -/
theorem forall_visits_iff_forall_mem {D : ε → Prop} (hPD : ∀ s e, I s → (P s e ↔ D e))
    (hnext : ∀ s e, I s → D e → ∃ t, next s e = some t ∧ I t) :
    ∀ (es : List ε) (s : σ), I s →
      ((∀ v ∈ visits next s es, P v.1 v.2) ↔ ∀ e ∈ es, D e) := by
  intro es
  induction es with
  | nil => intro s _; simp
  | cons e es ih =>
    intro s hs
    by_cases he : D e
    · obtain ⟨t, hn, ht⟩ := hnext s e hs he
      rw [visits_of_some hn, List.forall_mem_cons, List.forall_mem_cons, hPD s e hs, ih t ht]
    · refine iff_of_false (fun h => he ?_) fun h => he (h e List.mem_cons_self)
      exact (hPD s e hs).mp (h (s, e) List.mem_cons_self)

/-- **A state property and the step condition that keeps it agree over runs**: the states reached
all have `Q` exactly when the steps taken all meet `C`.  A step no state follows has to meet `C`. -/
theorem forall_reached_iff {Q : σ → Prop}
    (hsome : ∀ s e t, I s → Q s → next s e = some t → (Q t ↔ C s e))
    (hnone : ∀ s e, I s → Q s → next s e = none → C s e)
    (hstep : ∀ s e t, I s → next s e = some t → I t) :
    ∀ (es : List ε) (s : σ), I s → Q s →
      ((∀ t ∈ reached next s es, Q t) ↔ ∀ v ∈ visits next s es, C v.1 v.2) := by
  intro es
  induction es with
  | nil => intro s _ hQ; simpa using hQ
  | cons e es ih =>
    intro s hs hQ
    cases hn : next s e with
    | none => simpa [visits_of_none hn, reached_of_none hn, hQ] using hnone s e hs hQ hn
    | some u =>
      simp only [visits_of_some hn, reached_of_some hn, List.forall_mem_cons, hQ, true_and]
      have hiff := hsome s e u hs hQ hn
      constructor
      · intro h
        have hu : Q u := h u (mem_reached_self u es)
        exact ⟨hiff.mp hu, (ih u (hstep s e u hs hn) hu).mp h⟩
      · rintro ⟨hC, h⟩
        exact (ih u (hstep s e u hs hn) (hiff.mpr hC)).mpr h

end Invariant

end Machinery
