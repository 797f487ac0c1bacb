import Mathlib.Data.List.Induction
import Mathlib.Data.List.Nodup

/-!
# Machinery/TailQueue — linked lists with a pointer to their last pointer

    first ──▸ n₁ ──next──▸ n₂ ──next──▸ null
                               ▴
    last ──────────────────────┘

The nodes belong to whoever appends them, and have the pointer in them: appending needs no memory.  A
queue keeps its first pointer, and where its last one is: its own, or one in a node.

Several queues share the nodes.  As long as each node is appended once, to one of them, a walk along the
pointers sees what was appended, in that order (`holds_appendAll`).
-/

namespace Machinery

/-! ## Pointers -/

/-- Where a pointer to a node is. -/
inductive Place (κ ν : Type*) where
  | first (k : κ)
  | next (n : ν)
  deriving DecidableEq

/-- Queues, with all their pointers null to begin with. -/
structure TailQueues (κ ν : Type*) where
  pointer : Place κ ν → Option ν := fun _ => none
  last : κ → Place κ ν := .first

namespace TailQueues

variable {κ ν : Type*}

/-- A walk from a place to another, over some nodes. -/
inductive Leads (pointer : Place κ ν → Option ν) : Place κ ν → List ν → Place κ ν → Prop
  | here (p : Place κ ν) : Leads pointer p [] p
  | step {p e : Place κ ν} {n : ν} {ns : List ν} (h : pointer p = some n)
    (hrest : Leads pointer (.next n) ns e) : Leads pointer p (n :: ns) e

/-- The first node of a walk that is looked for.  The fuel runs out where the walk has no end. -/
def find (q : TailQueues κ ν) (wanted : ν → Bool) : ℕ → Place κ ν → Option (Option ν)
  | 0, _ => none
  | fuel + 1, p =>
    match q.pointer p with
    | none => some none
    | some n => if wanted n then some (some n) else find q wanted fuel (.next n)

/-- **A walk that ends finds** the first of its nodes that is looked for. -/
theorem find_of_leads {q : TailQueues κ ν} (wanted : ν → Bool) {p e : Place κ ν} {ns : List ν}
    (h : Leads q.pointer p ns e) (hend : q.pointer e = none) :
    ∀ {fuel : ℕ}, ns.length < fuel → q.find wanted fuel p = some (ns.find? wanted) := by
  induction h with
  | here p =>
    intro fuel hfuel
    obtain ⟨fuel, rfl⟩ := Nat.exists_eq_add_one_of_ne_zero (Nat.ne_of_gt hfuel)
    simp only [find, hend, List.find?_nil]
  | @step p e n ns hp _ ih =>
    intro fuel hfuel
    obtain ⟨fuel, rfl⟩ := Nat.exists_eq_add_one_of_ne_zero (Nat.ne_of_gt (Nat.zero_lt_of_lt hfuel))
    simp only [find, hp, List.find?_cons]
    cases wanted n with
    | true => rfl
    | false => exact ih hend (Nat.lt_of_succ_lt_succ hfuel)

theorem Leads.concat {pointer : Place κ ν → Option ν} {p e : Place κ ν} {n : ν} {ns : List ν}
    (h : Leads pointer p ns e) (hn : pointer e = some n) : Leads pointer p (ns ++ [n]) (.next n) := by
  induction h with
  | here p => exact .step hn (.here _)
  | step hp _ ih => exact .step hp (ih hn)

/-- **The queues hold lists of nodes**: each walk goes over its list and ends at the last pointer, no two
queues have the same one, and the nodes of no list are at nobody's end. -/
structure Holds (q : TailQueues κ ν) (lists : κ → List ν) : Prop where
  leads : ∀ k, Leads q.pointer (.first k) (lists k) (q.last k)
  ends : ∀ k, q.pointer (q.last k) = none
  apart : Function.Injective q.last
  unused : ∀ n, (∀ k, n ∉ lists k) → q.pointer (.next n) = none ∧ ∀ k, q.last k ≠ .next n

theorem holds_init : Holds ({} : TailQueues κ ν) fun _ => [] where
  leads k := .here _
  ends _ := rfl
  apart _ _ h := Place.first.inj h
  unused _ _ := ⟨rfl, fun _ h => by cases h⟩

/-! ## Appending -/

section

variable [DecidableEq κ]

/-- The nodes appended to a queue. -/
def queue (entries : List (κ × ν)) (k : κ) : List ν :=
  (entries.filter fun e => e.1 = k).map Prod.snd

theorem queue_concat (entries : List (κ × ν)) (k : κ) (n : ν) : queue (entries ++ [(k, n)])
    = Function.update (queue entries) k (queue entries k ++ [n]) := by
  funext k'
  rw [Function.update_apply]
  split_ifs with hk
  · simp [queue, hk]
  · simp [queue, Ne.symm hk]

theorem mem_queue {entries : List (κ × ν)} {k : κ} {n : ν} : n ∈ queue entries k ↔ (k, n) ∈ entries := by
  simp [queue]

end

section

variable [DecidableEq κ] [DecidableEq ν]

/-- A null pointer that is written is none of those walked along. -/
theorem Leads.update {pointer : Place κ ν → Option ν} {p e c : Place κ ν} {ns : List ν}
    (h : Leads pointer p ns e) (hc : pointer c = none) (value : Option ν) :
    Leads (Function.update pointer c value) p ns e := by
  induction h with
  | here p => exact .here p
  | @step p e n ns hp _ ih =>
    have hne : p ≠ c := fun heq => by rw [heq, hc] at hp; cases hp
    exact .step ((Function.update_of_ne hne _ _).trans hp) ih

/-- A node is appended. -/
def append (q : TailQueues κ ν) (k : κ) (n : ν) : TailQueues κ ν where
  pointer := Function.update q.pointer (q.last k) (some n)
  last := Function.update q.last k (.next n)

/-- Nodes are appended, each to a queue. -/
def appendAll (entries : List (κ × ν)) : TailQueues κ ν :=
  entries.foldl (fun q e => q.append e.1 e.2) {}

/-- **A node that is in no queue is appended to one.** -/
theorem Holds.append {q : TailQueues κ ν} {lists : κ → List ν} (h : Holds q lists) (k : κ) {n : ν}
    (hn : ∀ k, n ∉ lists k) :
    Holds (q.append k n) (Function.update lists k (lists k ++ [n])) := by
  obtain ⟨hnull, hlast⟩ := h.unused n hn
  have hmore : ∀ {m k'}, m ∉ Function.update lists k (lists k ++ [n]) k' → m ∉ lists k' := by
    intro m k' hm hmem
    rw [Function.update_apply] at hm
    split_ifs at hm with hk
    · exact hm (List.mem_append_left _ (hk ▸ hmem))
    · exact hm hmem
  constructor
  case leads =>
    intro k'
    have hwalk := (h.leads k').update (h.ends k) (some n)
    by_cases hk : k' = k
    · subst hk
      simp only [TailQueues.append, Function.update_self]
      exact hwalk.concat (Function.update_self _ _ _)
    · simp only [TailQueues.append, Function.update_of_ne hk]
      exact hwalk
  case ends =>
    intro k'
    by_cases hk : k' = k
    · subst hk
      simp only [TailQueues.append, Function.update_self]
      exact (Function.update_of_ne (hlast k').symm _ _).trans hnull
    · simp only [TailQueues.append, Function.update_of_ne hk]
      exact (Function.update_of_ne (fun heq => hk (h.apart heq)) _ _).trans (h.ends k')
  case apart =>
    intro i j hij
    simp only [TailQueues.append, Function.update_apply] at hij
    split_ifs at hij with hi hj hj
    · exact hi.trans hj.symm
    · exact absurd hij.symm (hlast j)
    · exact absurd hij (hlast i)
    · exact h.apart hij
  case unused =>
    intro m hm
    have hne : m ≠ n := by
      rintro rfl
      exact hm k (by simp)
    obtain ⟨hnull', hlast'⟩ := h.unused m fun k' => hmore (hm k')
    refine ⟨(Function.update_of_ne (hlast' k).symm _ _).trans hnull', fun k' => ?_⟩
    simp only [TailQueues.append, Function.update_apply]
    split_ifs
    · exact fun heq => hne (Place.next.inj heq).symm
    · exact hlast' k'

/-- **The queues hold what was appended to them**, when no node was appended twice. -/
theorem holds_appendAll {entries : List (κ × ν)} (hnodup : (entries.map Prod.snd).Nodup) :
    Holds (appendAll entries) (queue entries) := by
  induction entries using List.reverseRecOn with
  | nil => exact holds_init
  | append_singleton entries e ih =>
    rw [List.map_append, List.nodup_append] at hnodup
    obtain ⟨hentries, -, hapart⟩ := hnodup
    rw [appendAll, List.foldl_append, queue_concat]
    refine (ih hentries).append e.1 fun k hk => ?_
    have hmem : e.2 ∈ entries.map Prod.snd := List.mem_map.mpr ⟨(k, e.2), mem_queue.mp hk, rfl⟩
    exact hapart e.2 hmem e.2 (List.mem_singleton_self _) rfl

end

end TailQueues

end Machinery
