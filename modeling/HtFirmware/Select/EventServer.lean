import HtFirmware.Machinery.Run
import HtFirmware.Machinery.Memory

/-!
# Select/EventServer — jobs sent to the select task over a loopback connection

`gm_select_wakeup` writes a frame of eight bytes, a fast `gm_run` one of sixteen; `event_handler`
reads a header of eight bytes and, if it names a size, that many more, and runs what it has read.

A read may return any part of what is there.  The handler gives up what a short read has returned, so
the rest of a frame is read as the start of another.  Where no read breaks up a job's frame, the jobs
run are those posted, in order (`inOrder_of_readsWhole`).
-/

open Machinery

namespace EventServer

/-! ## Frames -/

def gmEventWakeSelect : UInt32 := 1

def gmEventRun : UInt32 := 2

/-- The size of the handler's buffer. -/
def bufferSize : ℕ := 128

/-- A procedure and its argument, as pointers. -/
structure Job where
  procedure : UInt32
  data : UInt32
  deriving DecidableEq

/-- A byte on its way, and whether it belongs to a job's frame. -/
structure Cell where
  byte : UInt8
  run : Bool

/-- A frame written by `gm_select_wakeup`. -/
def wakeFrame : List Cell := (bytes32 gmEventWakeSelect ++ bytes32 0).map fun b => ⟨b, false⟩

/-- The header of a frame written by a fast `gm_run`. -/
def runHeader : List Cell := (bytes32 gmEventRun ++ bytes32 8).map fun b => ⟨b, true⟩

/-- The rest of it. -/
def runBody (job : Job) : List Cell :=
  (bytes32 job.procedure ++ bytes32 job.data).map fun b => ⟨b, true⟩

/-! ## States and steps -/

/-- Where the handler is: outside, or waiting for the rest of an event whose header is in its
buffer. -/
inductive Reader where
  | idle
  | body (buffer : Memory)

/-- The bytes on their way, the handler, and the jobs posted and run. -/
structure State where
  stream : List Cell := []
  reader : Reader := .idle
  posted : List Job := []
  executed : List Job := []

/-- The first `k` bytes on their way. -/
def State.taken (s : State) (k : ℕ) : List UInt8 := (s.stream.take k).map Cell.byte

/-- The `switch` on the operation. -/
def State.operate (s : State) (buffer : Memory) : State :=
  if loadWord buffer 0 = gmEventRun then
    { s with executed := s.executed ++ [⟨loadWord buffer 8, loadWord buffer 12⟩] }
  else s

/-- What follows the read of a header. -/
def State.readHeader (s : State) (k : ℕ) (stack : Memory) : State :=
  let buffer := store stack 0 (s.taken k).get
  let t := { s with stream := s.stream.drop k }
  if k ≠ 8 then t
  else if 0 < loadWord buffer 4 then
    if bufferSize - 8 < (loadWord buffer 4).toNat then t
    else { t with reader := .body buffer }
  else t.operate buffer

/-- What follows the read of the rest. -/
def State.readBody (s : State) (k : ℕ) (buffer : Memory) : State :=
  let buffer' := store buffer 8 (s.taken k).get
  let t := { s with stream := s.stream.drop k, reader := .idle }
  if k ≠ (loadWord buffer 4).toNat then t else t.operate buffer'

/-- A write, or a read by the handler: how many bytes it returns and, for the first, what the
handler's buffer holds when it is called. -/
inductive Event where
  | wakeup
  | run (job : Job)
  | header (k : ℕ) (stack : Memory)
  | body (k : ℕ)

/-- The state after an event.  A read returns at least one byte, and no more than it asked for or
than there are. -/
def State.next (s : State) : Event → Option State
  | .wakeup => some { s with stream := s.stream ++ wakeFrame }
  | .run job =>
    some { s with stream := s.stream ++ (runHeader ++ runBody job), posted := s.posted ++ [job] }
  | .header k stack =>
    match s.reader with
    | .idle => if 0 < k ∧ k ≤ 8 ∧ k ≤ s.stream.length then some (s.readHeader k stack) else none
    | .body _ => none
  | .body k =>
    match s.reader with
    | .idle => none
    | .body buffer =>
      if 0 < k ∧ k ≤ (loadWord buffer 4).toNat ∧ k ≤ s.stream.length then some (s.readBody k buffer)
      else none

/-! ## What is promised, and when it is kept -/

/-- The jobs run are the first of those posted, and all of them once everything has been read. -/
def InOrder (s : State) : Prop :=
  s.executed <+: s.posted ∧ (s.stream = [] → s.reader = .idle → s.executed = s.posted)

/-- A read that returns bytes of a job's frame returns its whole header, or its whole body. -/
def ReadsWhole (s : State) : Event → Prop
  | .header k _ => (∀ c ∈ s.stream.take k, c.run = false) ∨
      k = 8 ∧ ∃ c ∈ s.stream.head?, c.run = true
  | .body k => ∀ buffer, s.reader = .body buffer → (∀ c ∈ s.stream.take k, c.run = false) ∨
      k = 8 ∧ loadWord buffer 0 = gmEventRun
  | _ => True

/-- Bytes that are bytes of wakeups and, in order, the frames of some jobs. -/
inductive Framed : List Cell → List Job → Prop
  | nil : Framed [] []
  | wake {b : UInt8} {cells : List Cell} {jobs : List Job} :
      b ≤ 1 → Framed cells jobs → Framed (⟨b, false⟩ :: cells) jobs
  | run (job : Job) {cells : List Cell} {jobs : List Job} :
      Framed cells jobs → Framed (runHeader ++ runBody job ++ cells) (job :: jobs)

/-- The jobs posted are those run and those on their way. -/
def Accounted (s : State) (cells : List Cell) (pending : List Job) : Prop :=
  ∃ jobs, Framed cells jobs ∧ s.posted = s.executed ++ (pending ++ jobs)

/-- **What every state reached has**: no frame of a job on its way is broken up, but for the one
whose header has been read. -/
def Sound (s : State) : Prop :=
  match s.reader with
  | .idle => Accounted s s.stream []
  | .body buffer =>
    loadWord buffer 0 ≠ gmEventRun ∧ Accounted s s.stream [] ∨
      loadWord buffer 0 = gmEventRun ∧ loadWord buffer 4 = 8 ∧
        ∃ job cells, s.stream = runBody job ++ cells ∧ Accounted s cells [job]

theorem Framed.append_wake {cells : List Cell} {jobs : List Job} (h : Framed cells jobs) :
    Framed (cells ++ wakeFrame) jobs := by
  induction h with
  | nil => repeat' first | exact .nil | refine .wake (by decide) ?_
  | wake hb _ ih => exact .wake hb ih
  | run job _ ih =>
    rw [List.append_assoc]
    exact .run job ih

theorem Framed.append_run {cells : List Cell} {jobs : List Job} (h : Framed cells jobs) (job : Job) :
    Framed (cells ++ (runHeader ++ runBody job)) (jobs ++ [job]) := by
  induction h with
  | nil =>
    have h := Framed.run job .nil
    rwa [List.append_nil] at h
  | wake hb _ ih => exact .wake hb ih
  | run job' _ ih =>
    rw [List.append_assoc]
    exact .run job' ih

/-- Bytes of wakeups may be dropped. -/
theorem Framed.drop {cells : List Cell} {jobs : List Job} (h : Framed cells jobs) : ∀ {k : ℕ},
    (∀ c ∈ cells.take k, c.run = false) →
      Framed (cells.drop k) jobs ∧ ∀ c ∈ cells.take k, c.byte ≤ 1 := by
  induction h with
  | nil => simpa using .nil
  | wake hb hcells ih =>
    intro k hk
    cases k with
    | zero => simpa using .wake hb hcells
    | succ k =>
      rw [List.take_succ_cons, List.forall_mem_cons] at hk ⊢
      obtain ⟨hdrop, hbytes⟩ := ih hk.2
      exact ⟨hdrop, hb, hbytes⟩
  | run job hcells =>
    intro k hk
    cases k with
    | zero => simpa using .run job hcells
    | succ k => exact absurd (hk _ List.mem_cons_self) (by decide)

/-- Bytes that begin within a job's frame begin with that frame. -/
theorem Framed.run_of_head {cells : List Cell} {jobs : List Job} (h : Framed cells jobs)
    (hhead : ∃ c ∈ cells.head?, c.run = true) : ∃ job rest jobs',
      cells = runHeader ++ (runBody job ++ rest) ∧ jobs = job :: jobs' ∧ Framed rest jobs' := by
  obtain ⟨c, hc, hrun⟩ := hhead
  cases h with
  | nil => cases hc
  | wake hb _ =>
    cases hc
    cases hrun
  | run job hcells => exact ⟨job, _, _, List.append_assoc _ _ _, rfl, hcells⟩

/-! ## The steps -/

theorem sound_init : Sound {} := ⟨[], .nil, rfl⟩

variable {s t : State} {k : ℕ} {stack buffer : Memory} {cells : List Cell} {pending : List Job}

/-- Writing does not disturb the bytes already on their way. -/
theorem Accounted.wakeup (h : Accounted s cells pending) :
    Accounted { s with stream := s.stream ++ wakeFrame } (cells ++ wakeFrame) pending := by
  obtain ⟨jobs, hframed, hposted⟩ := h
  exact ⟨jobs, hframed.append_wake, hposted⟩

theorem Accounted.run (h : Accounted s cells pending) (job : Job) :
    Accounted { s with
        stream := s.stream ++ (runHeader ++ runBody job), posted := s.posted ++ [job] }
      (cells ++ (runHeader ++ runBody job)) pending := by
  obtain ⟨jobs, hframed, hposted⟩ := h
  refine ⟨jobs ++ [job], hframed.append_run job, ?_⟩
  simp only [hposted, List.append_assoc]

theorem Sound.wakeup (h : Sound s) : Sound { s with stream := s.stream ++ wakeFrame } := by
  unfold Sound at h ⊢
  cases hr : s.reader with
  | idle =>
    rw [hr] at h
    exact h.wakeup
  | body buffer =>
    rw [hr] at h
    obtain ⟨hop, h⟩ | ⟨hop, hsize, job, cells, hstream, h⟩ := h
    · exact Or.inl ⟨hop, h.wakeup⟩
    · exact Or.inr ⟨hop, hsize, job, cells ++ wakeFrame, by rw [hstream, List.append_assoc], h.wakeup⟩

theorem Sound.run (h : Sound s) (job : Job) : Sound { s with
    stream := s.stream ++ (runHeader ++ runBody job), posted := s.posted ++ [job] } := by
  unfold Sound at h ⊢
  cases hr : s.reader with
  | idle =>
    rw [hr] at h
    exact h.run job
  | body buffer =>
    rw [hr] at h
    obtain ⟨hop, h⟩ | ⟨hop, hsize, job', cells, hstream, h⟩ := h
    · exact Or.inl ⟨hop, h.run job⟩
    · exact Or.inr ⟨hop, hsize, job', cells ++ (runHeader ++ runBody job),
        by rw [hstream, List.append_assoc], h.run job⟩

/-- The operation a full header names, in bytes of wakeups, is not to run anything. -/
theorem loadWord_ne_run (hlength : (s.taken k).length = 8)
    (hbytes : ∀ c ∈ s.stream.take k, c.byte ≤ 1) :
    loadWord (store stack 0 (s.taken k).get) 0 ≠ gmEventRun := by
  have hword := loadWord_of_lt (m := stack) (a := 0) (s.taken k).get (i := 0) (by omega)
  intro heq
  have hbyte : (s.taken k).get ⟨0, by omega⟩ = gmEventRun.toUInt8 := by
    rw [← heq, show loadWord (store stack 0 (s.taken k).get) 0 = _ from hword, toUInt8_load32]
  obtain ⟨c, hc, hcb⟩ := List.mem_map.mp (List.get_mem (s.taken k) ⟨0, by omega⟩)
  have hle := hbytes c hc
  rw [hcb, hbyte] at hle
  exact absurd hle (by decide)

theorem sound_of_idle (hr : s.reader = .idle) (h : Accounted s s.stream []) : Sound s := by
  rwa [Sound, hr]

theorem operate_of_ne (h : loadWord buffer 0 ≠ gmEventRun) : s.operate buffer = s := if_neg h

/-- The header of a job's frame asks for its body to be run. -/
theorem loadWord_runHeader (stack : Memory) (h : s.taken 8 = bytes32 gmEventRun ++ bytes32 8) :
    loadWord (store stack 0 (s.taken 8).get) 0 = gmEventRun ∧
      loadWord (store stack 0 (s.taken 8).get) 4 = 8 := by
  rw [h]
  exact ⟨(loadWord_of_lt (a := 0) _ (i := 0) (by decide)).trans (load32_bytes gmEventRun),
    (loadWord_of_lt (a := 0) _ (i := 4) (by decide)).trans (load32_bytes 8)⟩

/-- The body of a job's frame is its procedure and its argument. -/
theorem loadWord_runBody (buffer : Memory) {job : Job}
    (h : s.taken 8 = bytes32 job.procedure ++ bytes32 job.data) :
    loadWord (store buffer 8 (s.taken 8).get) 8 = job.procedure ∧
      loadWord (store buffer 8 (s.taken 8).get) 12 = job.data := by
  rw [h]
  exact ⟨(loadWord_of_lt (a := 8) _ (i := 0) (Nat.lt_of_sub_eq_succ rfl)).trans (load32_bytes _),
    (loadWord_of_lt (a := 8) _ (i := 4) (Nat.lt_of_sub_eq_succ rfl)).trans (load32_bytes _)⟩

theorem Sound.header (h : Sound s) (hr : s.reader = .idle) (hk : k ≤ s.stream.length)
    (hwhole : ReadsWhole s (.header k stack)) : Sound (s.readHeader k stack) := by
  rw [Sound, hr] at h
  obtain ⟨jobs, hframed, hposted⟩ := h
  obtain hwake | ⟨rfl, hhead⟩ := hwhole
  · obtain ⟨hdrop, hbytes⟩ := hframed.drop hwake
    have ht : Accounted { s with stream := s.stream.drop k } (s.stream.drop k) [] :=
      ⟨jobs, hdrop, hposted⟩
    unfold State.readHeader
    dsimp only
    split_ifs
    · exact sound_of_idle hr ht
    · exact sound_of_idle hr ht
    · exact Or.inl ⟨loadWord_ne_run (by rw [State.taken, List.length_map, List.length_take]; omega)
        hbytes, ht⟩
    · rw [operate_of_ne (loadWord_ne_run
        (by rw [State.taken, List.length_map, List.length_take]; omega) hbytes)]
      exact sound_of_idle hr ht
  · obtain ⟨job, rest, jobs', hstream, rfl, hrest⟩ := hframed.run_of_head hhead
    have htaken : s.taken 8 = bytes32 gmEventRun ++ bytes32 8 := by
      rw [State.taken, hstream]
      rfl
    obtain ⟨hop, hsize⟩ := loadWord_runHeader stack htaken
    have hbody : s.readHeader 8 stack = { s with
        stream := s.stream.drop 8, reader := .body (store stack 0 (s.taken 8).get) } := by
      rw [State.readHeader, if_neg (by decide), if_pos (by rw [hsize]; decide),
        if_neg (by rw [hsize]; decide)]
    rw [hbody]
    refine Or.inr ⟨hop, hsize, job, rest, ?_, jobs', hrest, hposted⟩
    rw [hstream]
    rfl

theorem Sound.body (h : Sound s) (hr : s.reader = .body buffer) (hpos : 0 < k)
    (hwhole : ReadsWhole s (.body k)) : Sound (s.readBody k buffer) := by
  rw [Sound, hr] at h
  obtain ⟨hop, jobs, hframed, hposted⟩ | ⟨hop, hsize, job, cells, hstream, jobs, hframed, hposted⟩ := h
  · obtain hwake | ⟨-, hrun⟩ := hwhole buffer hr
    · have ht : Accounted { s with stream := s.stream.drop k, reader := .idle }
          (s.stream.drop k) [] := ⟨jobs, (hframed.drop hwake).1, hposted⟩
      unfold State.readBody
      split_ifs
      · exact sound_of_idle rfl ht
      · rw [operate_of_ne (by rwa [loadWord_of_outside _ (Or.inl (by decide))])]
        exact sound_of_idle rfl ht
    · exact absurd hrun hop
  · obtain hwake | ⟨rfl, -⟩ := hwhole buffer hr
    · obtain ⟨k, rfl⟩ := Nat.exists_eq_succ_of_ne_zero (Nat.ne_of_gt hpos)
      rw [hstream] at hwake
      cases hwake _ List.mem_cons_self
    · have htaken : s.taken 8 = bytes32 job.procedure ++ bytes32 job.data := by
        rw [State.taken, hstream]
        rfl
      obtain ⟨hprocedure, hdata⟩ := loadWord_runBody buffer htaken
      have hran : s.readBody 8 buffer = { s with
          stream := s.stream.drop 8, reader := .idle, executed := s.executed ++ [job] } := by
        rw [State.readBody, if_neg (by rw [hsize]; decide), State.operate,
          if_pos (by rwa [loadWord_of_outside _ (Or.inl (by decide))]), hprocedure, hdata]
      rw [hran]
      refine sound_of_idle rfl ⟨jobs, ?_, ?_⟩
      · rw [hstream]
        exact hframed
      · rw [hposted, List.append_assoc, List.nil_append]

theorem Sound.next (h : Sound s) {e : Event} (hwhole : ReadsWhole s e) (hn : s.next e = some t) :
    Sound t := by
  cases e with
  | wakeup =>
    obtain rfl := Option.some.inj hn
    exact h.wakeup
  | run job =>
    obtain rfl := Option.some.inj hn
    exact h.run job
  | header k stack =>
    simp only [State.next] at hn
    split at hn
    next hr =>
      split_ifs at hn with hk
      obtain rfl := Option.some.inj hn
      exact h.header hr hk.2.2 hwhole
    · cases hn
  | body k =>
    simp only [State.next] at hn
    split at hn
    · cases hn
    next hr =>
      split_ifs at hn with hk
      obtain rfl := Option.some.inj hn
      exact h.body hr hk.1 hwhole

/-- What is run has been posted, in order. -/
theorem Sound.inOrder (h : Sound s) : InOrder s := by
  unfold Sound at h
  cases hr : s.reader with
  | idle =>
    rw [hr] at h
    obtain ⟨jobs, hframed, hposted⟩ := h
    refine ⟨⟨jobs, hposted.symm⟩, fun hempty _ => ?_⟩
    rw [hempty] at hframed
    cases hframed
    rw [hposted, List.append_nil, List.append_nil]
  | body buffer =>
    rw [hr] at h
    obtain ⟨-, jobs, -, hposted⟩ | ⟨-, -, job, cells, -, jobs, -, hposted⟩ := h
    · exact ⟨⟨jobs, hposted.symm⟩, fun _ hidle => (by cases hr.symm.trans hidle)⟩
    · exact ⟨⟨[job] ++ jobs, hposted.symm⟩, fun _ hidle => (by cases hr.symm.trans hidle)⟩

/-- **Where no read breaks up a job's frame, the jobs are run as they were posted.** -/
theorem inOrder_of_readsWhole (events : List Event)
    (h : ∀ v ∈ visits State.next {} events, ReadsWhole v.1 v.2) :
    ∀ s ∈ reached State.next {} events, InOrder s := fun s hs =>
  (forall_reached (I := Sound) (fun _ _ _ hs hwhole hn => hs.next hwhole hn) events {} sound_init h
    s hs).inOrder

/-! ## One job, read whole and in halves -/

/-- A job, as a procedure in flash and its argument in RAM. -/
def someJob : Job := ⟨0x400d1234, 0x3ffb5678⟩

/-- A wakeup is read in two pieces, and the job after it whole. -/
def readWhole : List Event :=
  [.wakeup, .run someJob, .header 3 fun _ => 0, .header 5 fun _ => 0, .header 8 fun _ => 0, .body 8]

theorem inOrder_readWhole : (readWhole.foldlM State.next {}).isSome ∧
    ∀ s ∈ reached State.next {} readWhole, InOrder s := by
  refine ⟨rfl, inOrder_of_readsWhole readWhole ?_⟩
  refine List.forall_mem_cons.mpr ⟨trivial, List.forall_mem_cons.mpr ⟨trivial, ?_⟩⟩
  refine List.forall_mem_cons.mpr ⟨Or.inl (by decide), ?_⟩
  refine List.forall_mem_cons.mpr ⟨Or.inl (by decide), ?_⟩
  refine List.forall_mem_cons.mpr ⟨Or.inr ⟨rfl, ⟨_, rfl, rfl⟩⟩, ?_⟩
  exact List.forall_mem_cons.mpr ⟨fun _ hr => Or.inr ⟨rfl, by cases hr; decide +kernel⟩,
    List.forall_mem_nil _⟩

/-- The job's frame is read four bytes at a time. -/
def readInPieces : List Event :=
  [.run someJob, .header 4 fun _ => 0, .header 4 fun _ => 0, .header 4 fun _ => 0,
    .header 4 fun _ => 0]

/-- **Everything has been read, and the job is gone.** -/
theorem not_inOrder_readInPieces : ¬ ∀ s ∈ reached State.next {} readInPieces, InOrder s := by
  intro h
  obtain ⟨s, hs, hstream, hreader, hexecuted, hposted⟩ : ∃ s,
      readInPieces.foldlM State.next {} = some s ∧ s.stream = [] ∧ s.reader = .idle ∧
        s.executed = [] ∧ s.posted = [someJob] := ⟨_, rfl, rfl, rfl, rfl, rfl⟩
  have hall := (h s (mem_reached_of_foldlM _ _ hs)).2 hstream hreader
  rw [hexecuted, hposted] at hall
  cases hall

end EventServer
