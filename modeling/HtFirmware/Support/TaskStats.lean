import HtFirmware.Machinery.Text
import Mathlib.Algebra.Group.Nat.Defs
import Mathlib.Data.List.Nodup

/-!
# Support/TaskStats — what the tasks did in a second

    before   a  b  c
    after       b  c  d      a was deleted, b and c ran, d was created

`print_real_time_stats` takes the state of all tasks twice and matches the two by the tasks' handles.  It
overwrites the handles that it has matched, in both arrays, and tells by those that are left which tasks
were deleted and created.

All tasks are told of, each once.  The times are 32 bits wide, and so is a hundred times one: a percentage
is right exactly when the task ran for less than 2³² hundredths (`stats_iff`).
-/

open Machinery

namespace Support

/-! ## The function -/

/-- `TaskStatus_t`, as far as it is looked at. -/
structure TaskStatus where
  xHandle : Option ℕ
  pcTaskName : CString
  ulRunTimeCounter : UInt32

/-- What `uxTaskGetSystemState` stores: no tasks where the array is too small. -/
structure SystemState where
  tasks : List TaskStatus
  runTime : UInt32

/-- What `print_real_time_stats` returns. -/
inductive StatsResult where
  | ok
  | noMem
  | invalidSize
  | invalidState
  deriving DecidableEq

/-- A line that is printed: a task with its run time and percentage, as `%d` has them; one that was
deleted; or one that was created. -/
inductive StatsLine where
  | ran (name : CString) (elapsed percentage : ℤ)
  | deleted (name : CString)
  | created (name : CString)

/-- The task is marked as matched. -/
def TaskStatus.matched (t : TaskStatus) : TaskStatus := { t with xHandle := none }

/-- The inner loop: the first task with the handle, and the array with its handle overwritten. -/
def matchTask (handle : Option ℕ) : List TaskStatus → Option (TaskStatus × List TaskStatus)
  | [] => none
  | t :: ts =>
    if handle = t.xHandle then some (t, t.matched :: ts)
    else (matchTask handle ts).map fun found => (found.1, t :: found.2)

/-- What the outer loop comes to: the tasks that match, in order, and the two arrays. -/
structure Matched where
  pairs : List (TaskStatus × TaskStatus)
  start : List TaskStatus
  finish : List TaskStatus

/-- The outer loop. -/
def matchTasks : List TaskStatus → List TaskStatus → Matched
  | [], finish => ⟨[], [], finish⟩
  | s :: start, finish =>
    match matchTask s.xHandle finish with
    | none => let m := matchTasks start finish; { m with start := s :: m.start }
    | some (t, finish) =>
      let m := matchTasks start finish
      { m with pairs := (s, t) :: m.pairs, start := s.matched :: m.start }

/-- The line of a task that was matched, unless it is divided by zero. -/
def taskLine (processors total : UInt32) (pair : TaskStatus × TaskStatus) : Option StatsLine :=
  let elapsed := pair.2.ulRunTimeCounter - pair.1.ulRunTimeCounter
  if total * processors = 0 then none
  else some (.ran pair.1.pcTaskName elapsed.toInt32.toInt
    (elapsed * 100 / (total * processors)).toInt32.toInt)

/-- `print_real_time_stats`, given whether there is memory for the arrays: its result, and the lines that
it prints. -/
def printRealTimeStats (processors : UInt32) (startMemory finishMemory : Bool)
    (start finish : SystemState) : Option (StatsResult × List StatsLine) :=
  if !startMemory then some (.noMem, [])
  else if start.tasks.length = 0 then some (.invalidSize, [])
  else if !finishMemory then some (.noMem, [])
  else if finish.tasks.length = 0 then some (.invalidSize, [])
  else
    let total := finish.runTime - start.runTime
    if total = 0 then some (.invalidState, [])
    else
      let m := matchTasks start.tasks finish.tasks
      (m.pairs.mapM (taskLine processors total)).map fun lines =>
        (.ok, lines ++ (m.start.filter fun s => s.xHandle ≠ none).map (.deleted ·.pcTaskName) ++
          (m.finish.filter fun t => t.xHandle ≠ none).map (.created ·.pcTaskName))

/-! ## What it is to tell -/

/-- A task, and how long it has run. -/
structure Task where
  handle : ℕ
  name : CString
  time : ℕ

/-- What `uxTaskGetSystemState` stores of it. -/
def Task.status (t : Task) : TaskStatus := ⟨some t.handle, t.name, .ofNat t.time⟩

/-- The tasks at a time. -/
structure Tasks where
  tasks : List Task
  time : ℕ

def Tasks.state (t : Tasks) : SystemState := ⟨t.tasks.map Task.status, .ofNat t.time⟩

/-- The task that has the handle. -/
def Tasks.task? (t : Tasks) (handle : ℕ) : Option Task := t.tasks.find? fun task => task.handle = handle

/-- A task's share of the time, in percent, where there are some processors. -/
def share (processors total elapsed : ℕ) : ℕ := elapsed * 100 / (total * processors)

/-- **The lines that are to be printed.** -/
def stats (processors : ℕ) (before after : Tasks) : List StatsLine :=
  (before.tasks.filterMap fun s => (after.task? s.handle).map fun t =>
      .ran s.name (t.time - s.time : ℕ) (share processors (after.time - before.time) (t.time - s.time))) ++
    (before.tasks.filter fun s => after.task? s.handle = none).map (.deleted ·.name) ++
    (after.tasks.filter fun t => before.task? t.handle = none).map (.created ·.name)

/-- A line without its numbers. -/
def StatsLine.untimed : StatsLine → StatsLine
  | .ran name _ _ => .ran name 0 0
  | line => line

/-- Tasks at two times: there are some, each time no two have one handle, and in between none runs longer
than the time that passes, which the counters can hold. -/
structure Observed (processors : ℕ) (before after : Tasks) : Prop where
  some_before : before.tasks ≠ []
  some_after : after.tasks ≠ []
  nodup_before : (before.tasks.map Task.handle).Nodup
  nodup_after : (after.tasks.map Task.handle).Nodup
  some_processor : 0 < processors
  passes : before.time < after.time
  small : (after.time - before.time) * processors < 2 ^ 32
  runs : ∀ s ∈ before.tasks, ∀ t ∈ after.tasks, s.handle = t.handle → s.time ≤ t.time ∧
    t.time - s.time ≤ after.time - before.time

/-! ## Matching -/

/-- The task as it is in the array when some handles were matched. -/
def Task.seen (matched : List ℕ) (t : Task) : TaskStatus :=
  if t.handle ∈ matched then t.status.matched else t.status

section Matching

variable {before after : List Task} {matched : List ℕ} {h : ℕ}

theorem seen_cons_of_ne {t : Task} (hne : t.handle ≠ h) : t.seen (h :: matched) = t.seen matched := by
  simp only [Task.seen, List.mem_cons, hne, false_or]

/-- A handle that no task has makes no difference. -/
theorem map_seen_cons (hnone : ∀ t ∈ after, t.handle ≠ h) :
    after.map (Task.seen (h :: matched)) = after.map (Task.seen matched) :=
  List.map_congr_left fun t ht => seen_cons_of_ne (hnone t ht)

/-- **The inner loop finds the task with the handle**, and marks it. -/
theorem matchTask_seen (hafter : (after.map Task.handle).Nodup) (hh : h ∉ matched) :
    matchTask (some h) (after.map (Task.seen matched))
      = (after.find? fun t => t.handle = h).map fun t =>
        (t.status, after.map (Task.seen (h :: matched))) := by
  induction after with
  | nil => rfl
  | cons t ts ih =>
    obtain ⟨hnot, hts⟩ := List.nodup_cons.mp hafter
    by_cases heq : t.handle = h
    · subst heq
      have hrest : ∀ t' ∈ ts, t'.handle ≠ t.handle := fun t' ht' hsame =>
        hnot (List.mem_map.mpr ⟨t', ht', hsame⟩)
      have hseen : t.seen matched = t.status := if_neg hh
      have hmarked : t.seen (t.handle :: matched) = t.status.matched := if_pos List.mem_cons_self
      rw [List.map_cons, List.map_cons, hseen, hmarked, matchTask,
        if_pos (show some t.handle = t.status.xHandle from rfl), map_seen_cons hrest,
        List.find?_cons_of_pos (by simp)]
      rfl
    · have hhandle : some h ≠ (t.seen matched).xHandle := by
        unfold Task.seen
        split_ifs
        · exact fun hnone => by cases hnone
        · exact fun hsome => heq (Option.some.inj hsome).symm
      rw [List.map_cons, List.map_cons, matchTask, if_neg hhandle, ih hts, seen_cons_of_ne heq,
        List.find?_cons_of_neg (by simpa using heq), Option.map_map]
      rfl

theorem seen_congr {matched' : List ℕ} (h : ∀ i, i ∈ matched ↔ i ∈ matched') :
    Task.seen matched = Task.seen matched' := by
  funext t
  simp only [Task.seen, h]

/-- The task with a handle among some. -/
def lookup (tasks : List Task) (handle : ℕ) : Option Task := tasks.find? fun t => t.handle = handle

/-- **The outer loop matches each task with the one that has its handle**, and marks both. -/
theorem matchTasks_seen (hafter : (after.map Task.handle).Nodup) :
    ∀ {before : List Task} {matched : List ℕ}, (before.map Task.handle).Nodup →
    (∀ s ∈ before, s.handle ∉ matched) →
    matchTasks (before.map Task.status) (after.map (Task.seen matched))
      = ⟨before.filterMap fun s => (lookup after s.handle).map fun t => (s.status, t.status),
        before.map fun s => if (lookup after s.handle).isSome then s.status.matched else s.status,
        after.map (Task.seen (before.map Task.handle ++ matched))⟩ := by
  intro before
  induction before with
  | nil => exact fun _ _ => rfl
  | cons s ss ih =>
    intro matched hbefore hmatched
    obtain ⟨hnot, hss⟩ := List.nodup_cons.mp hbefore
    obtain ⟨hs, hrest⟩ := List.forall_mem_cons.mp hmatched
    have hrest' : ∀ s' ∈ ss, s'.handle ∉ s.handle :: matched := by
      refine fun s' hs' hmem => ?_
      obtain hsame | hmem := List.mem_cons.mp hmem
      · exact hnot (List.mem_map.mpr ⟨s', hs', hsame⟩)
      · exact hrest s' hs' hmem
    have hseen : Task.seen (ss.map Task.handle ++ s.handle :: matched)
        = Task.seen ((s :: ss).map Task.handle ++ matched) :=
      seen_congr fun i => by simp [or_left_comm]
    have hfound : matchTask s.status.xHandle (after.map (Task.seen matched))
        = (lookup after s.handle).map fun t =>
          (t.status, after.map (Task.seen (s.handle :: matched))) := matchTask_seen hafter hs
    rw [List.map_cons, matchTasks, hfound]
    cases hlookup : lookup after s.handle with
    | none =>
      have hnone : ∀ t ∈ after, t.handle ≠ s.handle := by
        simpa [lookup] using hlookup
      have hsame : after.map (Task.seen matched) = after.map (Task.seen (s.handle :: matched)) :=
        (map_seen_cons hnone).symm
      simp only [Option.map_none, hsame, ih hss hrest', hseen]
      simp [hlookup]
    | some t =>
      simp only [Option.map_some, ih hss hrest', hseen]
      simp [hlookup]

end Matching

/-! ## The lines -/

section Lines

variable {processors : ℕ} {before after : Tasks}

theorem Observed.positive (h : Observed processors before after) :
    0 < (after.time - before.time) * processors :=
  Nat.mul_pos (Nat.sub_pos_of_lt h.passes) h.some_processor

theorem ofNat_ne_zero {n : ℕ} (hpositive : 0 < n) (hsmall : n < 2 ^ 32) : UInt32.ofNat n ≠ 0 := by
  intro hzero
  have hnat := congrArg UInt32.toNat hzero
  rw [UInt32.toNat_ofNat', Nat.mod_eq_of_lt hsmall] at hnat
  exact Nat.ne_of_gt hpositive hnat

/-- A percentage, as it is computed. -/
def computedShare (processors total elapsed : ℕ) : ℕ := elapsed * 100 % 2 ^ 32 / (total * processors)

/-- The line of a task that is printed. -/
def printedLine (processors : ℕ) (before after : Tasks) (s t : Task) : StatsLine :=
  .ran s.name (Int32.ofNat (t.time - s.time)).toInt
    (Int32.ofNat (computedShare processors (after.time - before.time) (t.time - s.time))).toInt

theorem taskLine_eq (h : Observed processors before after) {s t : Task} (hs : s ∈ before.tasks)
    (ht : t ∈ after.tasks) (hst : s.handle = t.handle) :
    taskLine (.ofNat processors) (UInt32.ofNat after.time - UInt32.ofNat before.time)
      (s.status, t.status) = some (printedLine processors before after s t) := by
  have htotal : (UInt32.ofNat after.time - UInt32.ofNat before.time) * UInt32.ofNat processors
      = UInt32.ofNat ((after.time - before.time) * processors) := by
    rw [UInt32.ofNat_mul, UInt32.ofNat_sub (Nat.le_of_lt h.passes)]
  have helapsed : UInt32.ofNat t.time - UInt32.ofNat s.time = UInt32.ofNat (t.time - s.time) :=
    (UInt32.ofNat_sub (h.runs s hs t ht hst).1).symm
  have hne := ofNat_ne_zero h.positive h.small
  have hshare : UInt32.ofNat (t.time - s.time) * 100
      / UInt32.ofNat ((after.time - before.time) * processors)
      = UInt32.ofNat (computedShare processors (after.time - before.time) (t.time - s.time)) := by
    refine UInt32.toNat_inj.mp ?_
    have hmod : (t.time - s.time) * 100 % 2 ^ 32 < 2 ^ 32 := Nat.mod_lt _ (by decide)
    have hlt : computedShare processors (after.time - before.time) (t.time - s.time) < 2 ^ 32 :=
      Nat.lt_of_le_of_lt (Nat.div_le_self _ _) hmod
    have hhundred : (100 : UInt32).toNat = 100 := rfl
    rw [UInt32.toNat_div, UInt32.toNat_mul, UInt32.toNat_ofNat', UInt32.toNat_ofNat', hhundred,
      UInt32.toNat_ofNat', Nat.mod_eq_of_lt h.small, Nat.mod_eq_of_lt hlt, Nat.mod_mul_mod]
    rfl
  unfold taskLine Task.status
  simp only [htotal, helapsed, if_neg hne, hshare]
  rfl

/-- A percentage is computed right as long as a hundred times the time fits. -/
theorem computedShare_eq_iff {total elapsed : ℕ} (hpositive : 0 < total * processors)
    (hsmall : total * processors < 2 ^ 32) :
    computedShare processors total elapsed = share processors total elapsed ↔ elapsed * 100 < 2 ^ 32 := by
  unfold computedShare share
  refine ⟨fun heq => ?_, fun hlt => by rw [Nat.mod_eq_of_lt hlt]⟩
  by_contra hge
  have hsplit := Nat.mod_add_div (elapsed * 100) (2 ^ 32)
  have hquotient : 1 ≤ elapsed * 100 / 2 ^ 32 := (Nat.one_le_div_iff (by decide)).mpr (by omega)
  -- what is lost is at least the divisor, so it counts at least one percent
  have hmore : elapsed * 100 % 2 ^ 32 + total * processors ≤ elapsed * 100 := by omega
  have hdiv := Nat.div_le_div_right (c := total * processors) hmore
  rw [Nat.add_div_right _ hpositive] at hdiv
  omega

/-- What is printed with `%d` is right when it is small. -/
theorem printedLine_eq_iff (h : Observed processors before after) {s t : Task} (hs : s ∈ before.tasks)
    (ht : t ∈ after.tasks) (hst : s.handle = t.handle) :
    printedLine processors before after s t
      = .ran s.name (t.time - s.time : ℕ)
        (share processors (after.time - before.time) (t.time - s.time) : ℕ)
      ↔ (t.time - s.time) * 100 < 2 ^ 32 := by
  obtain ⟨-, hruns⟩ := h.runs s hs t ht hst
  have hiff := @computedShare_eq_iff processors (after.time - before.time) (t.time - s.time)
    h.positive h.small
  have htotal : after.time - before.time ≤ (after.time - before.time) * processors :=
    Nat.le_mul_of_pos_right _ h.some_processor
  have hshare : share processors (after.time - before.time) (t.time - s.time) ≤ 100 :=
    Nat.div_le_of_le_mul (by omega)
  have hcomputed : computedShare processors (after.time - before.time) (t.time - s.time)
      ≤ share processors (after.time - before.time) (t.time - s.time) :=
    Nat.div_le_div_right (Nat.mod_le _ _)
  have hprinted : (Int32.ofNat (computedShare processors (after.time - before.time)
      (t.time - s.time))).toInt = computedShare processors (after.time - before.time) (t.time - s.time) :=
    Int32.toInt_ofNat_of_lt (by omega)
  unfold printedLine
  rw [hprinted, ← hiff]
  refine ⟨fun heq => Int.ofNat_inj.mp (StatsLine.ran.inj heq).2.2, fun heq => ?_⟩
  have hlt := hiff.mp heq
  rw [heq, Int32.toInt_ofNat_of_lt (by omega)]

/-! ## The whole table -/

/-- Members that are left out, and a map of the others that may fail. -/
theorem mapM_filterMap {α β γ : Type} {k : α → Option β} {f : β → Option γ} {g : α → Option γ} :
    ∀ {l : List α}, (∀ a ∈ l, (k a).map f = (g a).map some) →
      (l.filterMap k).mapM f = some (l.filterMap g) := by
  intro l
  induction l with
  | nil => exact fun _ => rfl
  | cons a l ih =>
    intro h
    obtain ⟨ha, hl⟩ := List.forall_mem_cons.mp h
    cases hk : k a with
    | none =>
      have hg : g a = none := by simpa [hk] using ha.symm
      rw [List.filterMap_cons_none hk, List.filterMap_cons_none hg, ih hl]
    | some b =>
      obtain ⟨c, hg, hf⟩ : ∃ c, g a = some c ∧ some c = f b := by simpa [hk] using ha.symm
      rw [List.filterMap_cons_some hk, List.filterMap_cons_some hg, List.mapM_cons, ← hf, ih hl]
      rfl

/-- Two maps of a list, which leave out the same, agree exactly when they do member by member. -/
theorem filterMap_eq_iff {α β : Type} {f g : α → Option β} : ∀ {l : List α},
    (∀ a ∈ l, (f a).isSome = (g a).isSome) → (l.filterMap f = l.filterMap g ↔ ∀ a ∈ l, f a = g a) := by
  intro l
  induction l with
  | nil => exact fun _ => iff_of_true rfl (List.forall_mem_nil _)
  | cons a l ih =>
    intro h
    obtain ⟨ha, hl⟩ := List.forall_mem_cons.mp h
    rw [List.forall_mem_cons, ← ih hl]
    cases hf : f a with
    | none =>
      have hg : g a = none := Option.not_isSome_iff_eq_none.mp (by rw [← ha, hf]; exact Bool.false_ne_true)
      rw [List.filterMap_cons_none hf, List.filterMap_cons_none hg, hg]
      exact (and_iff_right rfl).symm
    | some b =>
      obtain ⟨c, hg⟩ := Option.isSome_iff_exists.mp (show (g a).isSome = true by rw [← ha, hf]; rfl)
      rw [List.filterMap_cons_some hf, List.filterMap_cons_some hg, hg, List.cons.injEq,
        Option.some_inj]

/-- The lines that are printed. -/
def printedLines (processors : ℕ) (before after : Tasks) : List StatsLine :=
  (before.tasks.filterMap fun s => (after.task? s.handle).map (printedLine processors before after s)) ++
    (before.tasks.filter fun s => after.task? s.handle = none).map (.deleted ·.name) ++
    (after.tasks.filter fun t => before.task? t.handle = none).map (.created ·.name)

theorem task?_eq_some {t : Task} {handle : ℕ} (h : after.task? handle = some t) :
    t ∈ after.tasks ∧ t.handle = handle :=
  ⟨List.mem_of_find?_eq_some h, by simpa using List.find?_some h⟩

theorem task?_eq_none {handle : ℕ} :
    before.task? handle = none ↔ handle ∉ before.tasks.map Task.handle := by
  simp [Tasks.task?, List.find?_eq_none]

/-- The tasks that are not marked as matched. -/
theorem map_filter_marked {f : Task → TaskStatus} {p : Task → Prop} [DecidablePred p]
    {g : TaskStatus → StatsLine} {l : List Task} (h : ∀ t ∈ l, (f t).xHandle ≠ none ↔ p t) :
    ((l.map f).filter fun t => t.xHandle ≠ none).map g = (l.filter fun t => p t).map fun t => g (f t) := by
  rw [List.filter_map, List.map_map]
  refine congrArg _ (List.filter_congr fun t ht => ?_)
  exact decide_eq_decide.mpr (h t ht)

/-- **What is printed.** -/
theorem printRealTimeStats_eq (h : Observed processors before after) :
    printRealTimeStats (.ofNat processors) true true before.state after.state
      = some (.ok, printedLines processors before after) := by
  have hseen : after.tasks.map Task.status = after.tasks.map (Task.seen []) :=
    List.map_congr_left fun t _ => (if_neg List.not_mem_nil).symm
  have hmatched := @matchTasks_seen _ h.nodup_after before.tasks [] h.nodup_before fun _ _ =>
    List.not_mem_nil
  have hbefore : before.state.tasks.length ≠ 0 := by simpa [Tasks.state] using h.some_before
  have hafter : after.state.tasks.length ≠ 0 := by simpa [Tasks.state] using h.some_after
  have htotal : UInt32.ofNat after.time - UInt32.ofNat before.time ≠ 0 := by
    have hle := Nat.le_mul_of_pos_right (after.time - before.time) h.some_processor
    rw [← UInt32.ofNat_sub (Nat.le_of_lt h.passes)]
    exact ofNat_ne_zero (Nat.sub_pos_of_lt h.passes) (Nat.lt_of_le_of_lt hle h.small)
  have hdeleted : ∀ s ∈ before.tasks, (if (lookup after.tasks s.handle).isSome then s.status.matched
      else s.status).xHandle ≠ none ↔ after.task? s.handle = none := by
    intro s _
    have hfound : lookup after.tasks s.handle = after.task? s.handle := rfl
    rw [hfound]
    cases after.task? s.handle <;> simp [TaskStatus.matched, Task.status]
  have hname : ∀ s : Task, (if (lookup after.tasks s.handle).isSome then s.status.matched
      else s.status).pcTaskName = s.name := fun s => by split_ifs <;> rfl
  have hcreated : ∀ t ∈ after.tasks, (t.seen (before.tasks.map Task.handle ++ [])).xHandle ≠ none ↔
      before.task? t.handle = none := by
    intro t _
    rw [task?_eq_none, List.append_nil, Task.seen]
    split_ifs with hmem <;> simp [TaskStatus.matched, Task.status, hmem]
  have hseenName : ∀ t : Task, (t.seen (before.tasks.map Task.handle ++ [])).pcTaskName = t.name :=
    fun t => by unfold Task.seen; split_ifs <;> rfl
  have hlines := mapM_filterMap (l := before.tasks)
    (k := fun s => (lookup after.tasks s.handle).map fun t => (s.status, t.status))
    (f := taskLine (.ofNat processors) (UInt32.ofNat after.time - UInt32.ofNat before.time))
    (g := fun s => (after.task? s.handle).map (printedLine processors before after s)) (by
      intro s hs
      cases hfound : after.task? s.handle with
      | none =>
        have hnone : lookup after.tasks s.handle = none := hfound
        simp only [hnone, Option.map_none]
      | some t =>
        have hsome : lookup after.tasks s.handle = some t := hfound
        obtain ⟨ht, hst⟩ := task?_eq_some hfound
        simp only [hsome, Option.map_some, taskLine_eq h hs ht hst.symm])
  unfold printRealTimeStats
  rw [if_neg (by decide), if_neg hbefore, if_neg (by decide), if_neg hafter]
  simp only [Tasks.state, if_neg htotal, hseen, hmatched, hlines, Option.map_some, printedLines,
    map_filter_marked hdeleted, map_filter_marked hcreated, hname, hseenName]

theorem task?_of_mem {t : Task} (hnodup : (after.tasks.map Task.handle).Nodup) (ht : t ∈ after.tasks) :
    after.task? t.handle = some t := by
  cases hfound : after.task? t.handle with
  | none => exact absurd (List.mem_map_of_mem ht) (task?_eq_none.mp hfound)
  | some t' =>
    obtain ⟨ht', hsame⟩ := task?_eq_some hfound
    exact congrArg some (List.inj_on_of_nodup_map hnodup ht' ht hsame)

theorem untimed_printedLines :
    (printedLines processors before after).map StatsLine.untimed
      = (stats processors before after).map StatsLine.untimed := by
  have hran : ∀ s ∈ before.tasks,
      ((after.task? s.handle).map (printedLine processors before after s)).map StatsLine.untimed
        = ((after.task? s.handle).map fun t => StatsLine.ran s.name (t.time - s.time : ℕ)
          (share processors (after.time - before.time) (t.time - s.time) : ℕ)).map StatsLine.untimed := by
    intro s _
    cases after.task? s.handle <;> rfl
  simp only [printedLines, stats, List.map_append, List.map_filterMap, List.filterMap_congr hran]

theorem printedLines_eq_iff (h : Observed processors before after) :
    printedLines processors before after = stats processors before after ↔
      ∀ s ∈ before.tasks, ∀ t ∈ after.tasks, s.handle = t.handle →
        (t.time - s.time) * 100 < 2 ^ 32 := by
  unfold printedLines stats
  rw [List.append_left_inj, List.append_left_inj, filterMap_eq_iff]
  · refine forall₂_congr fun s hs => ⟨fun heq t ht hst => ?_, fun hsmall => ?_⟩
    · have hfound : after.task? s.handle = some t := hst ▸ task?_of_mem h.nodup_after ht
      rw [hfound] at heq
      exact (printedLine_eq_iff h hs ht hst).mp (Option.some.inj heq)
    · cases hfound : after.task? s.handle with
      | none => rfl
      | some t =>
        obtain ⟨ht, hst⟩ := task?_eq_some hfound
        exact congrArg some ((printedLine_eq_iff h hs ht hst.symm).mpr (hsmall t ht hst.symm))
  · intro s _
    simp only [Option.isSome_map]

end Lines

/-- One task is deleted, one is created, and one runs for half a second on one of two processors. -/
def someTasks : Tasks × Tasks :=
  (⟨[⟨1, "idle".toList, 10⟩, ⟨2, "web".toList, 20⟩], 100⟩,
    ⟨[⟨3, "stun".toList, 0⟩, ⟨1, "idle".toList, 500010⟩], 1000100⟩)

theorem observed_someTasks : Observed 2 someTasks.1 someTasks.2 where
  some_before := List.cons_ne_nil _ _
  some_after := List.cons_ne_nil _ _
  nodup_before := by decide
  nodup_after := by decide
  some_processor := by decide
  passes := by decide
  small := by decide
  runs := by decide

end Support
