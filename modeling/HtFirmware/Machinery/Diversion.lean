import Mathlib.Data.List.Basic
import Mathlib.Data.List.Infix
import Mathlib.Data.Nat.Notation
import Mathlib.Logic.Function.Basic

/-!
# Machinery/Diversion — a stream that is diverted

    home  ──┬───────────────┬──────────┬──▸
            ╰── branch 0 ── ┴─ ▸       ╰── branch 1 ──▸

What is written goes home, or to a branch while the stream is diverted there.  Each diversion makes a
branch of its own, so a branch gets one run of what is written and no more (`Portioned.contiguous`), the
branches have it in the order it was written in (`Portioned.sublist`), and home and branches have all of
it between them (`Portioned.perm`).
-/

namespace Machinery

variable {α : Type*}

/-- What happens to a stream: something is written, or written at home whatever it is diverted to, or
the stream is diverted to a new branch, or goes home again. -/
inductive Diverting (α : Type*) where
  | written (text : List α)
  | aside (text : List α)
  | diverted
  | restored

namespace Diverting

/-- What is written, in order. -/
def text : Diverting α → List α
  | .written text => text
  | _ => []

/-- What is written, at home or not. -/
def everything : Diverting α → List α
  | .written text | .aside text => text
  | _ => []

end Diverting

/-- What came home and to the branches, and the branch the stream is diverted to. -/
@[ext] structure Diversion (α : Type*) where
  home : List α := []
  branch : ℕ → List α := fun _ => []
  branches : ℕ := 0
  current : Option ℕ := none

namespace Diversion

/-- What all branches got. -/
def carried (d : Diversion α) : List α := (List.range d.branches).flatMap d.branch

def write (d : Diversion α) (text : List α) : Diversion α :=
  match d.current with
  | none => { d with home := d.home ++ text }
  | some k => { d with branch := Function.update d.branch k (d.branch k ++ text) }

def next (d : Diversion α) : Diverting α → Diversion α
  | .written text => d.write text
  | .aside text => { d with home := d.home ++ text }
  | .diverted => { d with branches := d.branches + 1, current := some d.branches }
  | .restored => { d with current := none }

/-- A stream that was at home first, after what happened. -/
def after (es : List (Diverting α)) : Diversion α := es.foldl next {}

theorem after_concat (es : List (Diverting α)) (e : Diverting α) : after (es ++ [e]) = (after es).next e := by
  rw [after, List.foldl_append]
  rfl

theorem write_of_none {d : Diversion α} (h : d.current = none) (text : List α) :
    d.write text = { d with home := d.home ++ text } := by
  obtain ⟨home, branch, branches, current⟩ := d
  subst (h : current = none)
  rfl

theorem write_of_some {d : Diversion α} {k : ℕ} (h : d.current = some k) (text : List α) :
    d.write text = { d with branch := Function.update d.branch k (d.branch k ++ text) } := by
  obtain ⟨home, branch, branches, current⟩ := d
  subst (h : current = some k)
  rfl

/-! ## Who gets what -/

/-- **What is written is portioned out.**  The stream is diverted to the latest branch or to none; a
branch has one run of what was written, up to its end if the stream is diverted there; the branches have
theirs one after the other; and nothing is lost or doubled. -/
structure Portioned (es : List (Diverting α)) (d : Diversion α) : Prop where
  latest : ∀ k, d.current = some k → k + 1 = d.branches
  unused : ∀ k, d.branches ≤ k → d.branch k = []
  suffix : ∀ k, d.current = some k → d.branch k <:+ es.flatMap Diverting.text
  contiguous : ∀ k, d.branch k <:+: es.flatMap Diverting.text
  sublist : d.carried.Sublist (es.flatMap Diverting.text)
  perm : (d.home ++ d.carried).Perm (es.flatMap Diverting.everything)

section Portioned

variable {es : List (Diverting α)} {d : Diversion α} {k : ℕ}

theorem flatMap_concat {β : Type*} (f : Diverting α → List β) (es : List (Diverting α)) (e : Diverting α) :
    (es ++ [e]).flatMap f = es.flatMap f ++ f e := by
  rw [List.flatMap_append, List.flatMap_singleton]

theorem portioned_init : Portioned [] ({} : Diversion α) where
  latest _ h := by cases h
  unused _ _ := rfl
  suffix _ h := by cases h
  contiguous _ := List.infix_rfl
  sublist := List.Sublist.refl []
  perm := List.Perm.refl []

/-- Only the latest branch grows, at the end of what the branches got. -/
theorem carried_update (hk : k + 1 = d.branches) (text : List α) :
    (List.range d.branches).flatMap (Function.update d.branch k (d.branch k ++ text)) = d.carried ++ text := by
  have hbefore : (List.range k).flatMap (Function.update d.branch k (d.branch k ++ text))
      = (List.range k).flatMap d.branch := by
    refine List.flatMap_congr fun i hi => Function.update_of_ne ?_ _ _
    exact (List.mem_range.mp hi).ne
  rw [carried, ← hk, List.range_succ, List.flatMap_append, List.flatMap_append, hbefore,
    List.flatMap_singleton, List.flatMap_singleton, Function.update_self, List.append_assoc]

theorem Portioned.write (h : Portioned es d) (text : List α) :
    Portioned (es ++ [Diverting.written text]) (d.write text) := by
  have htext : (es ++ [Diverting.written text]).flatMap Diverting.text = es.flatMap Diverting.text ++ text :=
    flatMap_concat ..
  have hall : (es ++ [Diverting.written text]).flatMap Diverting.everything
      = es.flatMap Diverting.everything ++ text := flatMap_concat ..
  cases hcurrent : d.current with
  | none =>
    rw [write_of_none hcurrent]
    refine ⟨h.latest, h.unused, fun k hk => ?_, fun k => ?_, ?_, ?_⟩
    · cases hcurrent.symm.trans hk
    · exact htext ▸ (h.contiguous k).trans (List.infix_append' [] _ text)
    · exact htext ▸ h.sublist.trans (List.sublist_append_left _ _)
    · rw [hall]
      refine List.Perm.trans ?_ (h.perm.append_right text)
      simp only [carried, List.append_assoc]
      exact List.perm_append_comm.append_left _
  | some k =>
    rw [write_of_some hcurrent]
    have hk := h.latest k hcurrent
    have hgrown : d.branch k ++ text <:+ (es ++ [Diverting.written text]).flatMap Diverting.text := by
      obtain ⟨before, hbefore⟩ := h.suffix k hcurrent
      exact ⟨before, by rw [htext, ← hbefore, List.append_assoc]⟩
    refine ⟨h.latest, fun i hi => ?_, fun i hi => ?_, fun i => ?_, ?_, ?_⟩
    · have hne : i ≠ k := by
        dsimp only at hi
        omega
      exact (Function.update_of_ne hne _ _).trans (h.unused i hi)
    · obtain rfl := Option.some.inj (hcurrent.symm.trans hi)
      dsimp only
      rwa [Function.update_self]
    · dsimp only
      rw [Function.update_apply]
      split_ifs
      · exact hgrown.isInfix
      · exact htext ▸ (h.contiguous i).trans (List.infix_append' [] _ text)
    · change ((List.range d.branches).flatMap _).Sublist _
      rw [carried_update hk, htext]
      exact h.sublist.append_right text
    · change (d.home ++ (List.range d.branches).flatMap _).Perm _
      rw [carried_update hk, hall, ← List.append_assoc]
      exact h.perm.append_right text

theorem Portioned.aside (h : Portioned es d) (text : List α) :
    Portioned (es ++ [Diverting.aside text]) { d with home := d.home ++ text } := by
  have htext : (es ++ [Diverting.aside text]).flatMap Diverting.text = es.flatMap Diverting.text :=
    (flatMap_concat ..).trans (List.append_nil _)
  refine ⟨h.latest, h.unused, htext ▸ h.suffix, htext ▸ h.contiguous, htext ▸ h.sublist, ?_⟩
  rw [flatMap_concat]
  refine List.Perm.trans ?_ (h.perm.append_right text)
  simp only [carried, List.append_assoc]
  exact List.perm_append_comm.append_left _

theorem Portioned.diverted (h : Portioned es d) :
    Portioned (es ++ [Diverting.diverted]) { d with branches := d.branches + 1, current := some d.branches } := by
  have htext : (es ++ [Diverting.diverted]).flatMap Diverting.text = es.flatMap Diverting.text :=
    (flatMap_concat ..).trans (List.append_nil _)
  have hall : (es ++ [Diverting.diverted]).flatMap Diverting.everything = es.flatMap Diverting.everything :=
    (flatMap_concat ..).trans (List.append_nil _)
  have hnew : d.branch d.branches = [] := h.unused _ le_rfl
  have hcarried : (List.range (d.branches + 1)).flatMap d.branch = d.carried := by
    rw [List.range_succ, List.flatMap_append, List.flatMap_singleton, hnew, List.append_nil, carried]
  refine ⟨fun k hk => ?_, fun k hk => h.unused k (Nat.le_of_succ_le hk), fun k hk => ?_, ?_, ?_, ?_⟩
  · obtain rfl := Option.some.inj hk
    rfl
  · obtain rfl := Option.some.inj hk
    dsimp only
    rw [hnew]
    exact List.nil_suffix
  · exact htext ▸ h.contiguous
  · change ((List.range (d.branches + 1)).flatMap d.branch).Sublist _
    rw [hcarried, htext]
    exact h.sublist
  · change (d.home ++ (List.range (d.branches + 1)).flatMap d.branch).Perm _
    rw [hcarried, hall]
    exact h.perm

theorem Portioned.restored (h : Portioned es d) :
    Portioned (es ++ [Diverting.restored]) { d with current := none } := by
  have htext : (es ++ [Diverting.restored]).flatMap Diverting.text = es.flatMap Diverting.text :=
    (flatMap_concat ..).trans (List.append_nil _)
  have hall : (es ++ [Diverting.restored]).flatMap Diverting.everything = es.flatMap Diverting.everything :=
    (flatMap_concat ..).trans (List.append_nil _)
  refine ⟨fun k hk => ?_, h.unused, fun k hk => ?_, htext ▸ h.contiguous, htext ▸ h.sublist, hall ▸ h.perm⟩
  · cases hk
  · cases hk

end Portioned

/-- **Whatever happens, what is written is portioned out.** -/
theorem portioned_after (es : List (Diverting α)) : Portioned es (after es) := by
  induction es using List.reverseRecOn with
  | nil => exact portioned_init
  | append_singleton es e ih =>
    rw [after_concat]
    cases e with
    | written text => exact ih.write text
    | aside text => exact ih.aside text
    | diverted => exact ih.diverted
    | restored => exact ih.restored

end Diversion

end Machinery
