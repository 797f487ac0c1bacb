import Mathlib.Data.List.Induction
import Mathlib.Data.List.MinMax
import Mathlib.Order.Nat

/-!
# Machinery/FirstBest — the first of the best

A loop that keeps the best element so far, and takes another only if it is better, ends with the first
of those that are as good as any — or with what it began with, if none is worth anything.
-/

namespace Machinery

variable {α β : Type*} (f : α → ℕ)

/-- The first element that is worth something, and as much as any. -/
def firstBest (l : List α) : Option α := l.find? fun a => 0 < f a ∧ ∀ b ∈ l, f b ≤ f a

/-- One turn of the loop. -/
def better (keep : α → β) (best : β × ℕ) (a : α) : β × ℕ :=
  if best.2 < f a then (keep a, f a) else best

variable {f} {l : List α} {a : α}

theorem firstBest_eq_some : firstBest f l = some a ↔ 0 < f a ∧ (∀ b ∈ l, f b ≤ f a) ∧
    ∃ before after, l = before ++ a :: after ∧ ∀ b ∈ before, f b < f a := by
  rw [firstBest, List.find?_eq_some_iff_append]
  simp only [decide_eq_true_eq, Bool.not_eq_true', decide_eq_false_iff_not]
  constructor
  · rintro ⟨⟨hpos, hmax⟩, before, after, hl, hbefore⟩
    refine ⟨hpos, hmax, before, after, hl, fun b hb => ?_⟩
    have hle := hmax b (hl ▸ List.mem_append_left _ hb)
    refine lt_of_le_of_ne hle fun heq => hbefore b hb ⟨heq ▸ hpos, fun c hc => heq ▸ hmax c hc⟩
  · rintro ⟨hpos, hmax, before, after, hl, hbefore⟩
    refine ⟨⟨hpos, hmax⟩, before, after, hl, fun b hb h => ?_⟩
    exact absurd (h.2 a (hl ▸ List.mem_append_right _ List.mem_cons_self)) (hbefore b hb).not_ge

/-- What comes before it is worth less, what comes after it no more. -/
theorem firstBest_eq_some_iff : firstBest f l = some a ↔ 0 < f a ∧
    ∃ before after, l = before ++ a :: after ∧ (∀ b ∈ before, f b < f a) ∧ ∀ b ∈ after, f b ≤ f a := by
  rw [firstBest_eq_some]
  constructor
  · rintro ⟨hpos, hmax, before, after, rfl, hbefore⟩
    exact ⟨hpos, before, after, rfl, hbefore, fun b hb =>
      hmax b (List.mem_append_right _ (List.mem_cons_of_mem a hb))⟩
  · rintro ⟨hpos, before, after, rfl, hbefore, hafter⟩
    refine ⟨hpos, fun b hb => ?_, before, after, rfl, hbefore⟩
    rcases List.mem_append.mp hb with hb | hb
    · exact (hbefore b hb).le
    · rcases List.mem_cons.mp hb with rfl | hb
      · exact le_rfl
      · exact hafter b hb

/-- Nothing is found where nothing is worth anything. -/
theorem firstBest_eq_none : firstBest f l = none ↔ ∀ a ∈ l, f a = 0 := by
  rw [firstBest, List.find?_eq_none]
  simp only [decide_eq_true_eq]
  constructor
  · intro h a ha
    cases hmax : l.argmax f with
    | none =>
      rw [List.argmax_eq_none.mp hmax] at ha
      exact absurd ha List.not_mem_nil
    | some m =>
      have hle : ∀ b ∈ l, f b ≤ f m := fun b hb => List.le_of_mem_argmax hb hmax
      have hm : f m = 0 := by
        by_contra hne
        exact h m (List.argmax_mem hmax) ⟨Nat.pos_of_ne_zero hne, hle⟩
      exact Nat.le_zero.mp (hm ▸ hle a ha)
  · intro h a ha hbest
    exact hbest.1.ne' (h a ha)

/-- What is found is worth as much as anything. -/
theorem le_firstBest (h : a ∈ l) : f a ≤ (firstBest f l).elim 0 f := by
  cases hbest : firstBest f l with
  | none => exact (firstBest_eq_none.mp hbest a h).le
  | some b => exact (firstBest_eq_some.mp hbest).2.1 a h

/-- It is worth the maximum. -/
theorem elim_firstBest (f : α → ℕ) (l : List α) :
    (firstBest f l).elim 0 f = (l.map f).foldr max 0 := by
  refine le_antisymm ?_ (List.max_le_of_forall_le (l.map f) _ fun n hn => ?_)
  · cases hbest : firstBest f l with
    | none => exact Nat.zero_le _
    | some a =>
      obtain ⟨-, -, before, after, rfl, -⟩ := firstBest_eq_some.mp hbest
      exact List.le_max_of_le (List.mem_map_of_mem (List.mem_append_right _ List.mem_cons_self)) le_rfl
  · obtain ⟨a, ha, rfl⟩ := List.mem_map.mp hn
    exact le_firstBest ha

theorem firstBest_concat (l : List α) (a : α) : firstBest f (l ++ [a])
    = if (firstBest f l).elim 0 f < f a then some a else firstBest f l := by
  split_ifs with hless
  · have hbetter : ∀ b ∈ l, f b < f a := fun b hb => (le_firstBest hb).trans_lt hless
    refine firstBest_eq_some.mpr ⟨Nat.zero_lt_of_lt hless, ?_, l, [], rfl, hbetter⟩
    intro b hb
    rcases List.mem_append.mp hb with hb | hb
    · exact (hbetter b hb).le
    · rw [List.mem_singleton.mp hb]
  · have hle : f a ≤ (firstBest f l).elim 0 f := Nat.le_of_not_lt hless
    cases hbest : firstBest f l with
    | none =>
      rw [hbest] at hle
      refine firstBest_eq_none.mpr fun b hb => ?_
      rcases List.mem_append.mp hb with hb | hb
      · exact firstBest_eq_none.mp hbest b hb
      · rw [List.mem_singleton.mp hb]
        exact Nat.le_zero.mp hle
    | some m =>
      rw [hbest] at hle
      obtain ⟨hpos, hmax, before, after, rfl, hbefore⟩ := firstBest_eq_some.mp hbest
      refine firstBest_eq_some.mpr ⟨hpos, fun b hb => ?_, before, after ++ [a], ?_, hbefore⟩
      · rcases List.mem_append.mp hb with hb | hb
        · exact hmax b hb
        · rw [List.mem_singleton.mp hb]
          exact hle
      · rw [List.append_assoc, List.cons_append]

/-- **The loop ends with the first of the best.** -/
theorem foldl_better (f : α → ℕ) (keep : α → β) (d : β) (l : List α) :
    l.foldl (better f keep) (d, 0)
      = ((firstBest f l).elim d keep, (firstBest f l).elim 0 f) := by
  induction l using List.reverseRecOn with
  | nil => rfl
  | append_singleton l a ih =>
    rw [List.foldl_append, ih, List.foldl_cons, List.foldl_nil, firstBest_concat, better]
    split_ifs <;> rfl

end Machinery
