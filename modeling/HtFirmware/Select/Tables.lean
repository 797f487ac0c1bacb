import HtFirmware.Machinery.Timeval
import Mathlib.Data.List.Induction
import Mathlib.Logic.Function.Basic
import Mathlib.Order.Bounds.Defs

/-!
# Select/Tables — what is registered with the select task

The tables of `select_task.c`, indexed by descriptor, and the two functions that change them.  A
descriptor set is its membership test, and a null handler is `none`.

`fdLimit` is one more than the highest monitored descriptor, or higher (`Bounded`), and whatever is
in a set is monitored (`Covered`): both functions keep both.  From the initial tables on, calls that
register for something leave exactly what the last call on each descriptor wrote
(`entry_foldl_operate`), and the limit exact (`reflects_operations`).
-/

open Machinery

namespace Select

/-- A descriptor set (`fd_set`). -/
abbrev FdSet := ℕ → Bool

/-- The three sets `select` is called with. -/
structure FdSets where
  read : FdSet := fun _ => false
  write : FdSet := fun _ => false
  exception : FdSet := fun _ => false

/-- The descriptor is in one of the sets. -/
def FdSets.any (s : FdSets) (fd : ℕ) : Bool := s.read fd || s.write fd || s.exception fd

/-- The sets, up to a limit. -/
def FdSets.below (s : FdSets) (n : ℕ) : FdSets where
  read fd := decide (fd < n) && s.read fd
  write fd := decide (fd < n) && s.write fd
  exception fd := decide (fd < n) && s.exception fd

/-- The static variables of the source. -/
structure Tables where
  readFds : FdSet := fun _ => false
  writeFds : FdSet := fun _ => false
  exceptionFds : FdSet := fun _ => false
  monitoredFds : FdSet := fun _ => false
  fdLimit : ℕ := 0
  handlers : ℕ → Option ℕ := fun _ => none
  data : ℕ → ℕ := fun _ => 0
  intervals : ℕ → Timeval := fun _ => .clear
  expirations : ℕ → Timeval := fun _ => .clear

/-- The sets the select task copies. -/
def Tables.sets (t : Tables) : FdSets := ⟨t.readFds, t.writeFds, t.exceptionFds⟩

/-- What a handler waits for. -/
structure Interest where
  readable : Bool
  writable : Bool
  exception : Bool
  deriving DecidableEq

/-- It waits for something. -/
def Interest.any (w : Interest) : Bool := w.readable || w.writable || w.exception

/-- What the sets have of a descriptor. -/
def FdSets.at (s : FdSets) (fd : ℕ) : Interest := ⟨s.read fd, s.write fd, s.exception fd⟩

theorem FdSets.any_at (s : FdSets) (fd : ℕ) : (s.at fd).any = s.any fd := rfl

theorem FdSets.ext_at {s t : FdSets} (h : ∀ fd, s.at fd = t.at fd) : s = t := by
  obtain ⟨read, write, exception⟩ := s
  obtain ⟨read', write', exception'⟩ := t
  simp only [FdSets.at, Interest.mk.injEq] at h
  obtain rfl : read = read' := funext fun fd => (h fd).1
  obtain rfl : write = write' := funext fun fd => (h fd).2.1
  obtain rfl : exception = exception' := funext fun fd => (h fd).2.2
  rfl

theorem FdSets.at_below (s : FdSets) (n fd : ℕ) :
    (s.below n).at fd = if fd < n then s.at fd else ⟨false, false, false⟩ := by
  simp only [FdSets.at, FdSets.below]
  split_ifs with h <;> simp [h]

theorem Interest.eq_of_not_any {w : Interest} (h : w.any = false) : w = ⟨false, false, false⟩ := by
  obtain ⟨r, w, x⟩ := w
  revert r w x
  decide

namespace Tables

/-- `gm_fd_register`, but for the wakeup. -/
def gmFdRegister (t : Tables) (fd : ℕ) (handler : Option ℕ) (d : ℕ) (w : Interest) (seconds : ℕ)
    (now : Timeval) : Tables where
  fdLimit := max t.fdLimit (fd + 1)
  data := Function.update t.data fd d
  intervals := Function.update t.intervals fd (.ofSec seconds)
  expirations := Function.update t.expirations fd
    (if seconds ≠ 0 then ⟨now.sec + seconds, now.usec, now.usec_lt⟩ else .clear)
  monitoredFds := if w.any then Function.update t.monitoredFds fd true else t.monitoredFds
  readFds := if w.any then Function.update t.readFds fd w.readable else t.readFds
  writeFds := if w.any then Function.update t.writeFds fd w.writable else t.writeFds
  exceptionFds := if w.any then Function.update t.exceptionFds fd w.exception else t.exceptionFds
  handlers := Function.update t.handlers fd handler

/-- One more than the highest descriptor below `n` in a set, or zero. -/
def highest (s : FdSet) : ℕ → ℕ
  | 0 => 0
  | n + 1 => if s n then n + 1 else highest s n

/-- `gm_fd_unregister`, but for the wakeup. -/
def gmFdUnregister (t : Tables) (fd : ℕ) : Tables where
  handlers := Function.update t.handlers fd none
  data := Function.update t.data fd 0
  expirations := Function.update t.expirations fd .clear
  intervals := Function.update t.intervals fd .clear
  readFds := Function.update t.readFds fd false
  writeFds := Function.update t.writeFds fd false
  exceptionFds := Function.update t.exceptionFds fd false
  monitoredFds := Function.update t.monitoredFds fd false
  fdLimit := if t.fdLimit = fd + 1 then highest (Function.update t.monitoredFds fd false) fd
    else t.fdLimit

/-! ## What both functions keep -/

/-- Every monitored descriptor is below the limit. -/
def Bounded (t : Tables) : Prop := ∀ fd, t.monitoredFds fd = true → fd < t.fdLimit

theorem bounded_init : Bounded {} := fun _ h => by cases h

theorem lt_highest {s : FdSet} {fd : ℕ} (hs : s fd = true) : ∀ n, fd < n → fd < highest s n := by
  intro n
  induction n with
  | zero => exact fun h => absurd h (Nat.not_lt_zero fd)
  | succ n ih =>
    intro h
    rw [highest]
    split_ifs with hn
    · exact h
    · refine ih (Nat.lt_of_le_of_ne (Nat.lt_succ_iff.mp h) ?_)
      rintro rfl
      exact hn hs

theorem Bounded.gmFdRegister {t : Tables} (h : Bounded t) (fd : ℕ) (handler : Option ℕ) (d : ℕ)
    (w : Interest) (seconds : ℕ) (now : Timeval) :
    Bounded (t.gmFdRegister fd handler d w seconds now) := by
  intro i hi
  have hcases : i = fd ∨ t.monitoredFds i = true := by
    simp only [Tables.gmFdRegister] at hi
    split_ifs at hi
    · rw [Function.update_apply] at hi
      split_ifs at hi with hfd
      exacts [Or.inl hfd, Or.inr hi]
    · exact Or.inr hi
  obtain rfl | hi := hcases
  · exact Nat.lt_of_lt_of_le (Nat.lt_succ_self _) (Nat.le_max_right _ _)
  · exact Nat.lt_of_lt_of_le (h i hi) (Nat.le_max_left _ _)

theorem Bounded.gmFdUnregister {t : Tables} (h : Bounded t) (fd : ℕ) :
    Bounded (t.gmFdUnregister fd) := by
  intro i hi
  have hmonitored : Function.update t.monitoredFds fd false i = true := hi
  have hlt : i ≠ fd ∧ i < t.fdLimit := by
    rw [Function.update_apply] at hmonitored
    split_ifs at hmonitored with hfd
    exact ⟨hfd, h i hmonitored⟩
  simp only [Tables.gmFdUnregister]
  split_ifs with hlimit
  · exact lt_highest hmonitored fd (by omega)
  · exact hlt.2

/-- Whatever is in a set is monitored. -/
def Covered (t : Tables) : Prop := ∀ fd, t.sets.any fd = true → t.monitoredFds fd = true

theorem covered_init : Covered {} := fun _ h => by cases h

theorem Covered.gmFdRegister {t : Tables} (h : Covered t) (fd : ℕ) (handler : Option ℕ) (d : ℕ)
    (w : Interest) (seconds : ℕ) (now : Timeval) :
    Covered (t.gmFdRegister fd handler d w seconds now) := by
  intro i hi
  simp only [Tables.gmFdRegister, Tables.sets, FdSets.any] at hi ⊢
  by_cases hw : w.any = true
  · simp only [if_pos hw, Function.update_apply] at hi ⊢
    split_ifs at hi ⊢
    exacts [rfl, h i hi]
  · simp only [if_neg hw] at hi ⊢
    exact h i hi

theorem Covered.gmFdUnregister {t : Tables} (h : Covered t) (fd : ℕ) :
    Covered (t.gmFdUnregister fd) := by
  intro i hi
  simp only [Tables.gmFdUnregister, Tables.sets, FdSets.any, Function.update_apply] at hi ⊢
  split_ifs at hi ⊢
  exacts [absurd hi (by decide), h i hi]

/-- What is in a set is below the limit. -/
theorem Covered.lt_fdLimit {t : Tables} (h : Covered t) (hb : Bounded t) {fd : ℕ}
    (hfd : t.sets.any fd = true) : fd < t.fdLimit := hb fd (h fd hfd)

/-! ## What a run of operations leaves

What the tables hold of one descriptor is its `Entry`.  Each function writes one entry and leaves
the others, so an entry is what the last call on its descriptor wrote. -/

/-- What the tables hold of a descriptor. -/
structure Entry where
  monitored : Bool := false
  interest : Interest := ⟨false, false, false⟩
  handler : Option ℕ := none
  data : ℕ := 0
  interval : Timeval := .clear
  expiration : Timeval := .clear

/-- A descriptor's entry. -/
def entry (t : Tables) (fd : ℕ) : Entry where
  monitored := t.monitoredFds fd
  interest := t.sets.at fd
  handler := t.handlers fd
  data := t.data fd
  interval := t.intervals fd
  expiration := t.expirations fd

/-- The arguments of `gm_fd_register`, which waits for something. -/
structure Arguments where
  handler : Option ℕ
  data : ℕ
  interest : Interest
  seconds : ℕ
  now : Timeval
  waits : interest.any = true

/-- The entry they make. -/
def Arguments.entry (r : Arguments) : Entry where
  monitored := true
  interest := r.interest
  handler := r.handler
  data := r.data
  interval := .ofSec r.seconds
  expiration := if r.seconds ≠ 0 then ⟨r.now.sec + r.seconds, r.now.usec, r.now.usec_lt⟩ else .clear

/-- The size of the arrays. -/
def numberOfFds : ℕ := 100

/-- A call of one of the two functions. -/
inductive Operation
  | register (fd : Fin numberOfFds) (r : Arguments)
  | unregister (fd : Fin numberOfFds)

namespace Operation

/-- The descriptor a call is about. -/
def fd : Operation → ℕ
  | register fd _ => fd
  | unregister fd => fd

/-- The entry a call writes. -/
def entry : Operation → Entry
  | register _ r => r.entry
  | unregister _ => {}

/-- The last operation on a descriptor. -/
def lastOn (ops : List Operation) (fd : ℕ) : Option Operation := (ops.filter (·.fd = fd)).getLast?

theorem lastOn_append_singleton (ops : List Operation) (c : Operation) :
    lastOn (ops ++ [c]) = Function.update (lastOn ops) c.fd (some c) := by
  funext fd
  rw [lastOn, List.filter_append, Function.update_apply]
  split_ifs with h
  · rw [List.filter_cons_of_pos (by simpa using h.symm), List.filter_nil, List.getLast?_concat]
  · rw [List.filter_cons_of_neg (by simpa using Ne.symm h), List.filter_nil, List.append_nil,
      lastOn]

end Operation

/-- The tables after a call. -/
def operate (t : Tables) : Operation → Tables
  | .register fd r => t.gmFdRegister fd r.handler r.data r.interest r.seconds r.now
  | .unregister fd => t.gmFdUnregister fd

theorem entry_gmFdRegister (t : Tables) (fd : ℕ) (r : Arguments) :
    (t.gmFdRegister fd r.handler r.data r.interest r.seconds r.now).entry =
      Function.update t.entry fd r.entry := by
  funext i
  rw [Function.update_apply]
  split_ifs with h
  · simp [Tables.entry, Tables.gmFdRegister, Arguments.entry, Tables.sets, FdSets.at, h,
      r.waits]
  · simp [Tables.entry, Tables.gmFdRegister, Tables.sets, FdSets.at, h, r.waits]

theorem entry_gmFdUnregister (t : Tables) (fd : ℕ) :
    (t.gmFdUnregister fd).entry = Function.update t.entry fd {} := by
  funext i
  rw [Function.update_apply]
  split_ifs with h
  · simp [Tables.entry, Tables.gmFdUnregister, Tables.sets, FdSets.at, h]
  · simp [Tables.entry, Tables.gmFdUnregister, Tables.sets, FdSets.at, h]

/-- **A call writes the entry of its descriptor and no other.** -/
theorem entry_operate (t : Tables) (c : Operation) :
    (t.operate c).entry = Function.update t.entry c.fd c.entry := by
  cases c with
  | register fd r => exact entry_gmFdRegister t fd r
  | unregister fd => exact entry_gmFdUnregister t fd

/-- **An entry is what the last call on its descriptor wrote**, and blank without one. -/
theorem entry_foldl_operate (ops : List Operation) (fd : ℕ) :
    (ops.foldl operate {}).entry fd = ((Operation.lastOn ops fd).map Operation.entry).getD {} := by
  induction ops using List.reverseRecOn generalizing fd with
  | nil => rfl
  | append_singleton ops c ih =>
    rw [List.foldl_append, List.foldl_cons, List.foldl_nil, entry_operate,
      Operation.lastOn_append_singleton, Function.update_apply, Function.update_apply]
    split_ifs with h
    · rfl
    · exact ih fd

/-- A call that leaves its descriptor unmonitored writes a blank entry. -/
theorem Operation.entry_of_not_monitored {c : Operation} (h : c.entry.monitored = false) :
    c.entry = {} := by
  cases c with
  | register fd r => exact absurd h (by simp [Operation.entry, Arguments.entry])
  | unregister fd => rfl

/-- **What is not monitored is blank.** -/
theorem entry_of_not_monitored {ops : List Operation} {fd : ℕ}
    (h : (ops.foldl operate {}).monitoredFds fd = false) : (ops.foldl operate {}).entry fd = {} := by
  have hentry := entry_foldl_operate ops fd
  cases hc : Operation.lastOn ops fd with
  | none => rw [hentry, hc]; rfl
  | some c =>
    have hwrote : (ops.foldl operate {}).entry fd = c.entry := by rw [hentry, hc]; rfl
    rw [hwrote]
    refine Operation.entry_of_not_monitored ?_
    rw [← hwrote]
    exact h

/-- **A descriptor is monitored exactly when the last call on it registered it.** -/
theorem monitored_iff {ops : List Operation} {fd : ℕ} :
    (ops.foldl operate {}).monitoredFds fd = true ↔
      ∃ i r, Operation.lastOn ops fd = some (.register i r) := by
  have h : (ops.foldl operate {}).monitoredFds fd = _ :=
    congrArg Entry.monitored (entry_foldl_operate ops fd)
  rw [h]
  rcases Operation.lastOn ops fd with _ | ⟨i, r⟩ | i
  · simp
  · simp [Operation.entry, Arguments.entry]
  · simp [Operation.entry]

/-! ## The limit -/

/-- The limit is one more than the highest descriptor of a set, or zero when there is none. -/
def IsLimit (s : FdSet) (n : ℕ) : Prop :=
  (∀ fd, s fd = true → fd < n) ∧ ∀ m, n = m + 1 → s m = true

theorem highest_eq_succ {s : FdSet} : ∀ {n m : ℕ}, highest s n = m + 1 → s m = true
  | 0, m, h => absurd h.symm (Nat.succ_ne_zero m)
  | n + 1, m, h => by
    rw [highest] at h
    split_ifs at h with hn
    · rwa [← Nat.succ.inj h]
    · exact highest_eq_succ h

/-- **Both functions keep the limit exact.** -/
theorem isLimit_operate {t : Tables} (h : IsLimit t.monitoredFds t.fdLimit) (c : Operation) :
    IsLimit (t.operate c).monitoredFds (t.operate c).fdLimit := by
  cases c with
  | register fd r =>
    refine ⟨Bounded.gmFdRegister h.1 fd r.handler r.data r.interest r.seconds r.now, fun m hm => ?_⟩
    simp only [operate, Tables.gmFdRegister, if_pos r.waits, Function.update_apply] at hm ⊢
    split_ifs with hfd
    · rfl
    · exact h.2 m (by omega)
  | unregister fd =>
    refine ⟨Bounded.gmFdUnregister h.1 fd, fun m hm => ?_⟩
    simp only [operate, Tables.gmFdUnregister] at hm ⊢
    split_ifs at hm with hfd
    · exact highest_eq_succ hm
    · rw [Function.update_of_ne (by omega)]
      exact h.2 m hm

theorem isLimit_foldl_operate (ops : List Operation) :
    IsLimit (ops.foldl operate {}).monitoredFds (ops.foldl operate {}).fdLimit := by
  induction ops using List.reverseRecOn with
  | nil => exact ⟨bounded_init, fun m h => absurd h.symm (Nat.succ_ne_zero m)⟩
  | append_singleton ops c ih =>
    rw [List.foldl_append]
    exact isLimit_operate ih c

theorem IsLimit.greatest {s : FdSet} {n : ℕ} (h : IsLimit s n) :
    ((∀ fd, s fd = false) ∧ n = 0) ∨ ∃ fd, IsGreatest {i | s i = true} fd ∧ n = fd + 1 := by
  cases n with
  | zero =>
    exact Or.inl ⟨fun fd => Bool.eq_false_iff.mpr fun hs => Nat.not_lt_zero fd (h.1 fd hs), rfl⟩
  | succ n => exact Or.inr ⟨n, ⟨h.2 n rfl, fun fd hs => Nat.lt_succ_iff.mp (h.1 fd hs)⟩, rfl⟩

/-! ## The tables, by their history -/

/-- The tables are what their history says. -/
structure Reflects (t : Tables) (ops : List Operation) : Prop where
  monitored : ∀ fd, t.monitoredFds fd = true ↔ ∃ i r, Operation.lastOn ops fd = some (.register i r)
  interest : ∀ fd i r, Operation.lastOn ops fd = some (.register i r) → t.sets.at fd = r.interest
  subset : ∀ fd, t.sets.any fd = true → t.monitoredFds fd = true
  cleared : ∀ fd, t.monitoredFds fd = false →
    t.handlers fd = none ∧ t.data fd = 0 ∧ t.intervals fd = .clear ∧ t.expirations fd = .clear
  limit : ((∀ fd, t.monitoredFds fd = false) ∧ t.fdLimit = 0) ∨
    ∃ fd, IsGreatest {i | t.monitoredFds i = true} fd ∧ t.fdLimit = fd + 1

/-- **After any operations the tables are what their history says**: a descriptor is monitored exactly
when the last call on it registered it, with the interests it was registered for, nothing is left
of the others, and the limit is exact. -/
theorem reflects_operations (ops : List Operation) : Reflects (ops.foldl operate {}) ops where
  monitored _ := monitored_iff
  interest fd i r hc := by
    have h := congrArg Entry.interest (entry_foldl_operate ops fd)
    rwa [hc] at h
  subset fd hany := by
    by_contra hmonitored
    have hblank := entry_of_not_monitored (Bool.eq_false_iff.mpr hmonitored)
    have hat : (ops.foldl operate {}).sets.at fd = ⟨false, false, false⟩ :=
      congrArg Entry.interest hblank
    rw [← FdSets.any_at, hat] at hany
    exact absurd hany (by decide)
  cleared fd hmonitored := by
    have hblank := entry_of_not_monitored hmonitored
    exact ⟨congrArg Entry.handler hblank, congrArg Entry.data hblank,
      congrArg Entry.interval hblank, congrArg Entry.expiration hblank⟩
  limit := (isLimit_foldl_operate ops).greatest

end Tables

end Select
