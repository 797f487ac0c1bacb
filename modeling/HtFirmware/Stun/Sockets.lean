import HtFirmware.Machinery.Descriptors
import HtFirmware.Machinery.Run
import HtFirmware.Stun.Authentic

/-!
# Stun/Sockets — whose descriptors the STUN client closes

The socket of a request is known to `stun_sock`, to the select task's table, and to the handler that
is called with it; each of `send_stun_request`, `receive_stun_response`, `stun_receive` and
`gm_stun_stop` closes it on some paths.  Here each of them is the list of the operations it performs
on descriptors, and other tasks may act before any of these.

Every operation should be on a descriptor that the client opened and has not closed, and none should
be closed while it is registered (`AllProper`).  That is so as long as no request is sent while
another waits, no answer is accepted, and no exception comes with a datagram (`tidy_iff_careful`).
-/

open Machinery

namespace Stun

/-- Who opens descriptors. -/
inductive Owner where
  | stun
  | other
  deriving DecidableEq

/-- The descriptors of the process, and `stun_sock`, `none` where it is negative. -/
structure Sockets where
  fds : Descriptors Owner := ⟨fun _ => none, fun _ => none⟩
  stunSock : Option ℕ := none

/-! ## Operations -/

/-- What the client does to descriptors.  Where `stun_sock` is negative, nothing is done with it. -/
inductive Op where
  | closeSock
  /-- `stun_sock = socket(..)`: the number it returns is one that is free, or the call fails. -/
  | socket (number : Option ℕ)
  /-- `gm_fd_register`, with `stun_receive` as the handler. -/
  | registerSock
  | unregisterSock
  | unregister (fd : ℕ)
  | close (fd : ℕ)
  /-- `stun_sock = -1`. -/
  | reset

/-- What another task does, to descriptors of its own; and the select task, which unregisters the
ones it finds closed. -/
inductive Act where
  | opens (fd : ℕ)
  | closes (fd : ℕ)
  | registers (fd : ℕ)
  | unregisters (fd : ℕ)
  | sweeps (fd : ℕ)

namespace Sockets

/-- The state after an operation. -/
def perform (s : Sockets) : Op → Sockets
  | .closeSock =>
    match s.stunSock with
    | some fd => { s with fds := s.fds.closed fd }
    | none => s
  | .socket number =>
    match number.filter fun fd => s.fds.Free fd with
    | some fd => { fds := s.fds.opened fd .stun, stunSock := some fd }
    | none => { s with stunSock := none }
  | .registerSock =>
    match s.stunSock with
    | some fd => { s with fds := s.fds.register fd .stun }
    | none => s
  | .unregisterSock =>
    match s.stunSock with
    | some fd => { s with fds := s.fds.unregister fd }
    | none => s
  | .unregister fd => { s with fds := s.fds.unregister fd }
  | .close fd => { s with fds := s.fds.closed fd }
  | .reset => { s with stunSock := none }

/-- The state after somebody else's act. -/
def act (s : Sockets) : Act → Sockets
  | .opens fd => if s.fds.Free fd then { s with fds := s.fds.opened fd .other } else s
  | .closes fd => if s.fds.owner fd = some .other then { s with fds := s.fds.closed fd } else s
  | .registers fd =>
    if s.fds.owner fd = some .other then { s with fds := s.fds.register fd .other } else s
  | .unregisters fd =>
    if s.fds.owner fd = some .other then { s with fds := s.fds.unregister fd } else s
  | .sweeps fd => if s.fds.Free fd then { s with fds := s.fds.unregister fd } else s

theorem perform_closeSock {s : Sockets} {fd : ℕ} (h : s.stunSock = some fd) :
    s.perform .closeSock = s.perform (.close fd) := by simp [perform, h]

theorem perform_unregisterSock {s : Sockets} {fd : ℕ} (h : s.stunSock = some fd) :
    s.perform .unregisterSock = s.perform (.unregister fd) := by simp [perform, h]

/-- Without a socket there is nothing to do. -/
theorem perform_of_none {s : Sockets} (h : s.stunSock = none) {op : Op}
    (hop : op = .closeSock ∨ op = .registerSock ∨ op = .unregisterSock) : s.perform op = s := by
  rcases hop with rfl | rfl | rfl <;> simp [perform, h]

end Sockets

/-! ## The functions -/

/-- `send_stun_request` and `stun_send`: the server is found or not, `socket` returns a number, and the
request is sent whole or not. -/
def sendOps (found : Bool) (number : Option ℕ) (sent : Bool) : List Op :=
  if found then
    [.closeSock, .socket number] ++ if sent then [.registerSock] else [.closeSock, .reset]
  else []

/-- What gives a descriptor up. -/
def dropOps (fd : ℕ) : List Op := [.unregister fd, .close fd, .reset]

/-- `stun_receive`: `receive_stun_response` gives the descriptor up, and so does the handler. -/
def receiveOps (fd : ℕ) : Wakeup → List Op
  | .readable r isException =>
    dropOps fd ++
      if (receiveStunResponse (fun _ _ => ()) r ()).2 || isException then dropOps fd else []
  | .exception => dropOps fd
  | .timeout => dropOps fd

/-- `gm_stun_stop`. -/
def stopOps : List Op := [.unregisterSock, .closeSock, .reset]

/-! ## Runs -/

/-- A function is called, and others act before each of its operations; or others act alone. -/
inductive SocketEvent where
  | send (found : Bool) (number : Option ℕ) (sent : Bool) (meanwhile : List (List Act))
  | receive (fd : ℕ) (w : Wakeup) (meanwhile : List (List Act))
  | stop (meanwhile : List (List Act))
  | others (acts : List Act)

/-- The state after some operations, others acting before each. -/
def Sockets.run (s : Sockets) : List Op → List (List Act) → Sockets
  | [], _ => s
  | op :: ops, meanwhile =>
    (((meanwhile.headD []).foldl act s).perform op).run ops meanwhile.tail

/-- The operations of an event.  The select task only calls a handler that is registered. -/
def SocketEvent.ops (s : Sockets) : SocketEvent → List Op
  | send found number sent _ => sendOps found number sent
  | receive fd w _ => if s.fds.registered fd = some .stun then receiveOps fd w else []
  | stop _ => stopOps
  | others _ => []

/-- The acts before each operation. -/
def SocketEvent.meanwhile : SocketEvent → List (List Act)
  | send _ _ _ meanwhile | receive _ _ meanwhile | stop meanwhile => meanwhile
  | others _ => []

/-- The state after an event. -/
def Sockets.next (s : Sockets) (e : SocketEvent) : Option Sockets :=
  match e with
  | .others acts => some (acts.foldl act s)
  | e => some (s.run (e.ops s) e.meanwhile)

/-! ## Proper operations -/

/-- The descriptor an operation unregisters. -/
def Op.unregisters (s : Sockets) : Op → Option ℕ
  | unregisterSock => s.stunSock
  | unregister fd => some fd
  | _ => none

/-- The descriptor an operation closes. -/
def Op.closes (s : Sockets) : Op → Option ℕ
  | closeSock => s.stunSock
  | close fd => some fd
  | _ => none

/-- **What is closed or unregistered is the client's own**, and what is closed is no longer
registered. -/
structure Op.Proper (s : Sockets) (op : Op) : Prop where
  unregisters : ∀ fd ∈ op.unregisters s, s.fds.owner fd = some .stun
  closes : ∀ fd ∈ op.closes s, s.fds.owner fd = some .stun ∧ s.fds.registered fd ≠ some .stun

/-- What neither closes nor unregisters is proper. -/
theorem Op.proper_of_none {s : Sockets} {op : Op} (hunregisters : op.unregisters s = none)
    (hcloses : op.closes s = none) : op.Proper s := by
  refine ⟨fun fd hfd => ?_, fun fd hfd => ?_⟩
  · rw [hunregisters] at hfd
    cases hfd
  · rw [hcloses] at hfd
    cases hfd

/-- Every operation is proper, when its turn comes. -/
def AllProper (s : Sockets) : List Op → List (List Act) → Prop
  | [], _ => True
  | op :: ops, meanwhile =>
    op.Proper ((meanwhile.headD []).foldl Sockets.act s) ∧
      AllProper (((meanwhile.headD []).foldl Sockets.act s).perform op) ops meanwhile.tail

/-- The operations of an event are proper. -/
def Tidy (s : Sockets) (e : SocketEvent) : Prop := AllProper s (e.ops s) e.meanwhile

/-- **What it takes**: no request is sent while another waits, no answer is accepted, and no exception
comes with a datagram. -/
def Careful (s : Sockets) : SocketEvent → Prop
  | .send found _ _ _ => found = true → s.stunSock = none
  | .receive fd w _ => s.fds.registered fd = some .stun →
    ∀ r isException, w = .readable r isException → ¬ r.ListsAddress ∧ isException = false
  | .stop _ => True
  | .others _ => True

/-! ## What the client owns -/

/-- The one descriptor the client owns, and the one it is registered for. -/
structure Owns (s : Sockets) (ours registered : Option ℕ) : Prop where
  owner : ∀ i, s.fds.owner i = some .stun ↔ ours = some i
  registered : ∀ i, s.fds.registered i = some .stun ↔ registered = some i

/-- Between events the client owns its socket, and is registered for it. -/
def Kept (s : Sockets) : Prop := Owns s s.stunSock s.stunSock

theorem kept_init : Kept {} := ⟨fun _ => by simp, fun _ => by simp⟩

section Owns

variable {s t : Sockets} {ours registered : Option ℕ} {fd : ℕ}

/-- **What another task does** is done to one descriptor, if to any, that is not the client's and does
not become it. -/
theorem Sockets.act_cases (s : Sockets) (a : Act) : (s.act a).stunSock = s.stunSock ∧
    (s.act a = s ∨ ∃ fd, s.fds.owner fd ≠ some .stun ∧ (s.act a).fds.owner fd ≠ some .stun ∧
      ((s.act a).fds.registered fd = some .stun → s.fds.registered fd = some .stun) ∧
      ∀ i, i ≠ fd → (s.act a).fds.owner i = s.fds.owner i ∧
        (s.act a).fds.registered i = s.fds.registered i) := by
  have hfree : ∀ fd, s.fds.Free fd → s.fds.owner fd ≠ some .stun := fun fd hfd => by
    rw [show s.fds.owner fd = none from hfd]
    decide
  have hother : ∀ fd, s.fds.owner fd = some .other → s.fds.owner fd ≠ some .stun := fun fd hfd => by
    rw [hfd]
    decide
  cases a with
  | opens fd =>
    unfold Sockets.act
    dsimp only
    split_ifs with hfd
    · exact ⟨rfl, Or.inr ⟨fd, hfree fd hfd, by simp, id, fun i hi => ⟨by simp [hi], rfl⟩⟩⟩
    · exact ⟨rfl, Or.inl rfl⟩
  | closes fd =>
    unfold Sockets.act
    dsimp only
    split_ifs with hfd
    · exact ⟨rfl, Or.inr ⟨fd, hother fd hfd, by simp, id, fun i hi => ⟨by simp [hi], rfl⟩⟩⟩
    · exact ⟨rfl, Or.inl rfl⟩
  | registers fd =>
    unfold Sockets.act
    dsimp only
    split_ifs with hfd
    · exact ⟨rfl, Or.inr ⟨fd, hother fd hfd, hother fd hfd, by simp,
        fun i hi => ⟨rfl, by simp [hi]⟩⟩⟩
    · exact ⟨rfl, Or.inl rfl⟩
  | unregisters fd =>
    unfold Sockets.act
    dsimp only
    split_ifs with hfd
    · exact ⟨rfl, Or.inr ⟨fd, hother fd hfd, hother fd hfd, by simp,
        fun i hi => ⟨rfl, by simp [hi]⟩⟩⟩
    · exact ⟨rfl, Or.inl rfl⟩
  | sweeps fd =>
    unfold Sockets.act
    dsimp only
    split_ifs with hfd
    · exact ⟨rfl, Or.inr ⟨fd, hfree fd hfd, hfree fd hfd, by simp,
        fun i hi => ⟨rfl, by simp [hi]⟩⟩⟩
    · exact ⟨rfl, Or.inl rfl⟩

/-- Others leave alone what the client owns, and what it is registered for if it owns it. -/
theorem Owns.act (h : Owns s ours registered) (hreg : registered = none ∨ registered = ours)
    (a : Act) : Owns (s.act a) ours registered ∧ (s.act a).stunSock = s.stunSock := by
  have hmine : ∀ i, s.fds.registered i = some .stun → s.fds.owner i = some .stun := by
    intro i hi
    rw [h.registered i] at hi
    rcases hreg with rfl | rfl
    · cases hi
    · exact (h.owner i).mpr hi
  obtain ⟨hsock, hsame | ⟨fd, hs, howner, hregistered, hother⟩⟩ := s.act_cases a
  · exact ⟨hsame.symm ▸ h, hsock⟩
  · refine ⟨⟨fun i => ?_, fun i => ?_⟩, hsock⟩
    · rw [← h.owner i]
      by_cases hi : i = fd
      · rw [hi]
        exact iff_of_false howner hs
      · rw [(hother i hi).1]
    · rw [← h.registered i]
      by_cases hi : i = fd
      · rw [hi]
        exact ⟨hregistered, fun hreg => absurd (hmine fd hreg) hs⟩
      · rw [(hother i hi).2]

theorem Owns.acts (hreg : registered = none ∨ registered = ours) : ∀ (as : List Act) {s : Sockets},
    Owns s ours registered →
    Owns (as.foldl Sockets.act s) ours registered ∧ (as.foldl Sockets.act s).stunSock = s.stunSock
  | [], _, h => ⟨h, rfl⟩
  | a :: as, s, h => by
    obtain ⟨ha, hsock⟩ := h.act hreg a
    obtain ⟨has, hsocks⟩ := Owns.acts hreg as ha
    exact ⟨has, hsocks.trans hsock⟩

/-- An operation of the client, others acting before it. -/
theorem Owns.step (h : Owns s ours registered)
    (hreg : registered = none ∨ registered = ours) (op : Op) (ops : List Op)
    (meanwhile : List (List Act)) :
    ∃ t, Owns t ours registered ∧ t.stunSock = s.stunSock ∧
      (AllProper s (op :: ops) meanwhile ↔
        op.Proper t ∧ AllProper (t.perform op) ops meanwhile.tail) ∧
      s.run (op :: ops) meanwhile = (t.perform op).run ops meanwhile.tail := by
  obtain ⟨ht, hsock⟩ := h.acts hreg (meanwhile.headD [])
  exact ⟨_, ht, hsock, Iff.rfl, rfl⟩

/-! ### One operation -/

theorem Owns.unregister (h : Owns s ours (some fd)) :
    Owns (s.perform (.unregister fd)) ours none := by
  refine ⟨h.owner, fun i => ?_⟩
  simp only [Sockets.perform, Descriptors.registered_unregister]
  split_ifs with hi
  · simp
  · rw [h.registered i]
    simp [Ne.symm hi]

theorem Owns.close (h : Owns s (some fd) none) : Owns (s.perform (.close fd)) none none := by
  refine ⟨fun i => ?_, h.registered⟩
  simp only [Sockets.perform, Descriptors.owner_closed]
  split_ifs with hi
  · simp
  · rw [h.owner i]
    simp [Ne.symm hi]

theorem Owns.reset (h : Owns s ours registered) : Owns (s.perform .reset) ours registered :=
  ⟨h.owner, h.registered⟩

/-- The number `socket` returns becomes the client's, if it returns one. -/
theorem Owns.socket (h : Owns s none none) (number : Option ℕ) :
    Owns (s.perform (.socket number)) (s.perform (.socket number)).stunSock none := by
  cases hnumber : number.filter fun fd => decide (s.fds.Free fd) with
  | none =>
    have hperform : s.perform (.socket number) = { s with stunSock := none } := by
      simp only [Sockets.perform, hnumber]
    rw [hperform]
    exact ⟨h.owner, h.registered⟩
  | some fd =>
    have hperform : s.perform (.socket number)
        = { fds := s.fds.opened fd .stun, stunSock := some fd } := by
      simp only [Sockets.perform, hnumber]
    rw [hperform]
    refine ⟨fun i => ?_, h.registered⟩
    simp only [Descriptors.owner_opened]
    split_ifs with hi
    · simp [hi]
    · rw [h.owner i]
      simp [Ne.symm hi]

theorem Owns.registerSock (h : Owns s s.stunSock none) : Kept (s.perform .registerSock) := by
  cases hsock : s.stunSock with
  | none =>
    rw [Sockets.perform_of_none hsock (Or.inr (Or.inl rfl)), Kept, hsock]
    rwa [hsock] at h
  | some fd =>
    have hperform : s.perform .registerSock = { s with fds := s.fds.register fd .stun } := by
      simp only [Sockets.perform, hsock]
    rw [hperform, Kept]
    refine ⟨h.owner, fun i => ?_⟩
    simp only [Descriptors.registered_register, hsock]
    split_ifs with hi
    · simp [hi]
    · rw [h.registered i]
      simp [Ne.symm hi]

theorem Owns.closeSock (h : Owns s s.stunSock none) : Owns (s.perform .closeSock) none none := by
  cases hsock : s.stunSock with
  | none =>
    rw [hsock] at h
    rwa [Sockets.perform_of_none hsock (Or.inl rfl)]
  | some fd =>
    rw [hsock] at h
    rw [Sockets.perform_closeSock hsock]
    exact h.close

theorem Owns.unregisterSock (h : Kept s) :
    Owns (s.perform .unregisterSock) s.stunSock none ∧
      (s.perform .unregisterSock).stunSock = s.stunSock := by
  cases hsock : s.stunSock with
  | none =>
    rw [Sockets.perform_of_none hsock (Or.inr (Or.inr rfl))]
    rw [Kept, hsock] at h
    exact ⟨h, hsock⟩
  | some fd =>
    rw [Kept, hsock] at h
    rw [Sockets.perform_unregisterSock hsock]
    exact ⟨h.unregister, hsock⟩

/-! ### Whole functions -/

/-- Giving up the descriptor the client is registered for is proper, and leaves it none. -/
theorem Owns.drop (h : Owns s (some fd) (some fd)) (ops : List Op) (meanwhile : List (List Act)) :
    ∃ t rest, Owns t none none ∧ t.stunSock = none ∧
      (AllProper s (dropOps fd ++ ops) meanwhile ↔ AllProper t ops rest) ∧
      s.run (dropOps fd ++ ops) meanwhile = t.run ops rest := by
  obtain ⟨t₁, h₁, -, hproper₁, hrun₁⟩ := h.step (Or.inr rfl) (.unregister fd)
    (.close fd :: .reset :: ops) meanwhile
  obtain ⟨t₂, h₂, -, hproper₂, hrun₂⟩ := h₁.unregister.step (Or.inl rfl) (.close fd)
    (.reset :: ops) meanwhile.tail
  obtain ⟨t₃, h₃, -, hproper₃, hrun₃⟩ := h₂.close.step (Or.inl rfl) .reset ops meanwhile.tail.tail
  refine ⟨t₃.perform .reset, meanwhile.tail.tail.tail, h₃.reset, rfl, ?_,
    hrun₁.trans (hrun₂.trans hrun₃)⟩
  have hown₁ : Op.Proper t₁ (.unregister fd) := by
    refine ⟨?_, fun _ hfd => (by cases hfd)⟩
    rintro i ⟨⟩
    exact (h₁.owner fd).mpr rfl
  have hown₂ : Op.Proper t₂ (.close fd) := by
    refine ⟨fun _ hfd => (by cases hfd), ?_⟩
    rintro i ⟨⟩
    refine ⟨(h₂.owner fd).mpr rfl, fun hreg => ?_⟩
    cases (h₂.registered fd).mp hreg
  have hown₃ : Op.Proper t₃ .reset := Op.proper_of_none rfl rfl
  exact hproper₁.trans ((and_iff_right hown₁).trans (hproper₂.trans ((and_iff_right hown₂).trans
    (hproper₃.trans (and_iff_right hown₃)))))

/-- A descriptor cannot be given up by a client that owns none. -/
theorem Owns.not_allProper_drop (h : Owns s none none) (fd : ℕ) (meanwhile : List (List Act)) :
    ¬ AllProper s (dropOps fd) meanwhile := by
  obtain ⟨t, ht, -, hproper, -⟩ := h.step (Or.inl rfl) (.unregister fd) [.close fd, .reset] meanwhile
  intro hall
  have howner := (hproper.mp hall).1.unregisters fd rfl
  cases (ht.owner fd).mp howner

/-- Closing `stun_sock` is proper once it is no longer registered. -/
theorem Owns.proper_closeSock (h : Owns s s.stunSock none) : Op.Proper s .closeSock := by
  refine ⟨fun _ hfd => (by cases hfd), fun i hi => ⟨(h.owner i).mpr hi, fun hreg => ?_⟩⟩
  cases (h.registered i).mp hreg

/-- **A request is proper when no other waits.** -/
theorem Owns.request (h : Owns s none none) (hsock : s.stunSock = none) (number : Option ℕ)
    (sent : Bool) (meanwhile : List (List Act)) :
    AllProper s (sendOps true number sent) meanwhile ∧
      Kept (s.run (sendOps true number sent) meanwhile) := by
  unfold sendOps
  rw [if_pos rfl]
  obtain ⟨t₁, h₁, hsock₁, hproper₁, hrun₁⟩ := h.step (Or.inl rfl) .closeSock
    (.socket number :: if sent then [.registerSock] else [.closeSock, .reset]) meanwhile
  rw [hsock] at hsock₁
  rw [Sockets.perform_of_none hsock₁ (Or.inl rfl)] at hproper₁ hrun₁
  have hown₁ : Op.Proper t₁ .closeSock := (hsock₁ ▸ h₁ : Owns t₁ t₁.stunSock none).proper_closeSock
  obtain ⟨t₂, h₂, -, hproper₂, hrun₂⟩ := h₁.step (Or.inl rfl) (.socket number)
    (if sent then [.registerSock] else [.closeSock, .reset]) meanwhile.tail
  have hown₂ : Op.Proper t₂ (.socket number) := Op.proper_of_none rfl rfl
  have hopened := h₂.socket number
  refine ⟨hproper₁.mpr ⟨hown₁, hproper₂.mpr ⟨hown₂, ?_⟩⟩, ?_⟩
  · cases sent with
    | true =>
      obtain ⟨t₃, h₃, -, hproper₃, -⟩ := hopened.step (Or.inl rfl) .registerSock []
        meanwhile.tail.tail
      exact hproper₃.mpr ⟨Op.proper_of_none rfl rfl, trivial⟩
    | false =>
      obtain ⟨t₃, h₃, hsock₃, hproper₃, -⟩ := hopened.step (Or.inl rfl) .closeSock [.reset]
        meanwhile.tail.tail
      rw [← hsock₃] at h₃
      exact hproper₃.mpr ⟨h₃.proper_closeSock, Op.proper_of_none rfl rfl, trivial⟩
  · have hrun : s.run ([.closeSock, .socket number] ++
        if sent then [.registerSock] else [.closeSock, .reset]) meanwhile = _ := hrun₁.trans hrun₂
    rw [hrun]
    cases sent with
    | true =>
      obtain ⟨t₃, h₃, hsock₃, -, hrun₃⟩ := hopened.step (Or.inl rfl) .registerSock []
        meanwhile.tail.tail
      rw [← hsock₃] at h₃
      exact hrun₃ ▸ h₃.registerSock
    | false =>
      obtain ⟨t₃, h₃, hsock₃, -, hrun₃⟩ := hopened.step (Or.inl rfl) .closeSock [.reset]
        meanwhile.tail.tail
      rw [← hsock₃] at h₃
      obtain ⟨t₄, h₄, -, -, hrun₄⟩ := h₃.closeSock.step (Or.inl rfl) .reset []
        meanwhile.tail.tail.tail
      exact (hrun₃.trans hrun₄) ▸ h₄.reset

/-- A request is not proper while another waits: its socket is closed while it is registered. -/
theorem Owns.not_allProper_request (h : Kept s) (hsock : s.stunSock = some fd) (number : Option ℕ)
    (sent : Bool) (meanwhile : List (List Act)) :
    ¬ AllProper s (sendOps true number sent) meanwhile := by
  unfold sendOps
  rw [if_pos rfl]
  obtain ⟨t, ht, hsock', hproper, -⟩ := Owns.step h (Or.inr rfl) .closeSock
    (.socket number :: if sent then [.registerSock] else [.closeSock, .reset]) meanwhile
  intro hall
  rw [hsock] at ht hsock'
  exact ((hproper.mp hall).1.closes fd hsock').2 ((ht.registered fd).mpr rfl)

/-- **Stopping is proper.** -/
theorem Kept.stop (h : Kept s) (meanwhile : List (List Act)) :
    AllProper s stopOps meanwhile ∧ Kept (s.run stopOps meanwhile) := by
  obtain ⟨t₁, h₁, hsock₁, hproper₁, hrun₁⟩ := Owns.step h (Or.inr rfl) .unregisterSock
    [.closeSock, .reset] meanwhile
  rw [← hsock₁] at h₁
  obtain ⟨hunregistered, hsame⟩ := Owns.unregisterSock h₁
  obtain ⟨t₂, h₂, hsock₂, hproper₂, hrun₂⟩ := hunregistered.step (Or.inl rfl) .closeSock [.reset]
    meanwhile.tail
  rw [← hsame, ← hsock₂] at h₂
  obtain ⟨t₃, h₃, -, hproper₃, hrun₃⟩ := h₂.closeSock.step (Or.inl rfl) .reset []
    meanwhile.tail.tail
  refine ⟨hproper₁.mpr ⟨?_, hproper₂.mpr ⟨h₂.proper_closeSock, hproper₃.mpr
    ⟨Op.proper_of_none rfl rfl, trivial⟩⟩⟩, ?_⟩
  · exact ⟨fun i hi => (h₁.owner i).mpr hi, fun _ hfd => (by cases hfd)⟩
  · exact (hrun₁.trans (hrun₂.trans hrun₃)) ▸ h₃.reset

/-- **A handler is proper** unless it accepts the answer, or sees an exception with it. -/
theorem Kept.receive (h : Kept s) (hfd : s.fds.registered fd = some .stun) (w : Wakeup)
    (meanwhile : List (List Act)) :
    (AllProper s (receiveOps fd w) meanwhile ↔
      ∀ r isException, w = .readable r isException → ¬ r.ListsAddress ∧ isException = false) ∧
    (AllProper s (receiveOps fd w) meanwhile → Kept (s.run (receiveOps fd w) meanwhile)) := by
  have hsock : s.stunSock = some fd := (h.registered fd).mp hfd
  have howns : Owns s (some fd) (some fd) := hsock ▸ h
  have hdrop : AllProper s (dropOps fd) meanwhile ∧ Kept (s.run (dropOps fd) meanwhile) := by
    obtain ⟨t, rest, ht, hnone, hproper, hrun⟩ := howns.drop [] meanwhile
    rw [List.append_nil] at hproper hrun
    refine ⟨hproper.mpr trivial, ?_⟩
    rw [hrun, Kept]
    change Owns t t.stunSock t.stunSock
    rwa [hnone]
  cases w with
  | readable r isException =>
    have haccepts := receiveStunResponse_iff (fun (_ : Unit) _ => ()) r ()
    unfold receiveOps
    dsimp only
    by_cases hagain : ((receiveStunResponse (fun (_ : Unit) _ => ()) r ()).2 || isException) = true
    · rw [if_pos hagain]
      obtain ⟨t, rest, ht, -, hproper, -⟩ := howns.drop (dropOps fd) meanwhile
      have hnot : ¬ AllProper s (dropOps fd ++ dropOps fd) meanwhile := fun hall =>
        ht.not_allProper_drop fd rest (hproper.mp hall)
      refine ⟨iff_of_false hnot fun hcareful => ?_, fun hall => absurd hall hnot⟩
      obtain ⟨hlists, rfl⟩ := hcareful r isException rfl
      rw [Bool.or_false] at hagain
      exact hlists (haccepts.mp hagain)
    · rw [if_neg hagain, List.append_nil]
      refine ⟨iff_of_true hdrop.1 ?_, fun _ => hdrop.2⟩
      rintro r' x hr
      obtain ⟨rfl, rfl⟩ := Wakeup.readable.inj hr
      simp only [Bool.or_eq_true, not_or, Bool.not_eq_true] at hagain
      refine ⟨fun hlists => ?_, hagain.2⟩
      rw [haccepts.mpr hlists] at hagain
      cases hagain.1
  | exception => exact ⟨iff_of_true hdrop.1 fun _ _ hw => (by cases hw), fun _ => hdrop.2⟩
  | timeout => exact ⟨iff_of_true hdrop.1 fun _ _ hw => (by cases hw), fun _ => hdrop.2⟩

/-- One event is tidy exactly when it is careful, and then the client keeps what it owns. -/
theorem Kept.step (h : Kept s) (e : SocketEvent) :
    (Tidy s e ↔ Careful s e) ∧ (Careful s e → ∀ t, s.next e = some t → Kept t) := by
  cases e with
  | send found number sent meanwhile =>
    cases found with
    | false => exact ⟨iff_of_true trivial fun hf => absurd hf Bool.false_ne_true, fun _ t ht =>
        Option.some.inj ht ▸ h⟩
    | true =>
      cases hsock : s.stunSock with
      | none =>
        obtain ⟨hall, hkept⟩ := (hsock ▸ h : Owns s none none).request hsock number sent meanwhile
        exact ⟨iff_of_true hall fun _ => hsock, fun _ t ht => Option.some.inj ht ▸ hkept⟩
      | some fd =>
        have hnot := Owns.not_allProper_request h hsock number sent meanwhile
        have hwaits : ¬ Careful s (.send true number sent meanwhile) := fun hcareful => by
          rw [hcareful rfl] at hsock
          cases hsock
        exact ⟨iff_of_false hnot hwaits, fun hcareful => absurd hcareful hwaits⟩
  | receive fd w meanwhile =>
    by_cases hfd : s.fds.registered fd = some .stun
    · have hops : (SocketEvent.receive fd w meanwhile).ops s = receiveOps fd w := if_pos hfd
      obtain ⟨hiff, hkept⟩ := h.receive hfd w meanwhile
      have hcareful : Careful s (.receive fd w meanwhile) ↔ _ := forall_prop_of_true hfd
      rw [Tidy, hops, hcareful]
      refine ⟨hiff, fun hc t ht => ?_⟩
      have hnext : s.next (.receive fd w meanwhile) = some (s.run (receiveOps fd w) meanwhile) :=
        congrArg (fun ops => some (s.run ops meanwhile)) hops
      exact Option.some.inj (hnext.symm.trans ht) ▸ hkept (hiff.mpr hc)
    · have hops : (SocketEvent.receive fd w meanwhile).ops s = [] := if_neg hfd
      rw [Tidy, hops]
      refine ⟨iff_of_true trivial fun hreg => absurd hreg hfd, fun _ t ht => ?_⟩
      have hnext : s.next (.receive fd w meanwhile) = some s :=
        congrArg (fun ops => some (s.run ops meanwhile)) hops
      exact Option.some.inj (hnext.symm.trans ht) ▸ h
  | stop meanwhile =>
    obtain ⟨hall, hkept⟩ := h.stop meanwhile
    exact ⟨iff_of_true hall trivial, fun _ t ht => Option.some.inj ht ▸ hkept⟩
  | others acts =>
    obtain ⟨hacts, hsock⟩ := Owns.acts (Or.inr rfl) acts h
    refine ⟨iff_of_true trivial trivial, fun _ t ht => ?_⟩
    rw [← Option.some.inj ht, Kept, hsock]
    exact hacts

end Owns

/-- **The client only closes and unregisters its own descriptors, and only closes what it has
unregistered**, exactly in the runs whose events are careful. -/
theorem tidy_iff_careful (es : List SocketEvent) :
    (∀ v ∈ visits Sockets.next ({} : Sockets) es, Tidy v.1 v.2) ↔
      ∀ v ∈ visits Sockets.next ({} : Sockets) es, Careful v.1 v.2 :=
  forall_visits_iff (I := Kept) (fun _ e hs => (hs.step e).1)
    (fun _ e t hs hc ht => (hs.step e).2 hc t ht) es {} kept_init

/-- A request is sent, and its answer is accepted, while another task opens a descriptor. -/
theorem accepted_answer_not_tidy :
    ¬ ∀ es : List SocketEvent, ∀ v ∈ visits Sockets.next ({} : Sockets) es, Tidy v.1 v.2 := by
  intro h
  have hvisit := @mem_visits_of_foldlM Sockets SocketEvent Sockets.next
    (.receive 3 (.readable Exchange.forgedAnswer false) [[], [], [], [.opens 3]]) _
    [.send true (some 3) true []] {} rfl
  have hkept : Kept (({} : Sockets).run (sendOps true (some 3) true) []) :=
    (kept_init.step (.send true (some 3) true [])).2 (fun _ => rfl) _ rfl
  have hcareful := ((hkept.step _).1.mp (h _ _ hvisit)) rfl _ _ rfl
  exact hcareful.1 Exchange.forgedAnswer_listsAddress

end Stun
