import HtFirmware.Radio.Cache

/-!
# Radio/Store — the channel parameters as a store

`radio_set` and `radio_get` should be the write and the read of a store of channels: `ChannelStore`
is that store, a function of the channel, and `Respects` compares one call with it.  A call past the
last channel is to be refused without a command.

`radio_get` checks its channel and `radio_set` does not, so a set past the last channel reads outside
the array, and a run is respected up to the first such set (`respects_iff_inRange`).
-/

open Machinery

namespace Radio

/-! ## The store -/

/-- What the channels hold. -/
abbrev ChannelStore := ℕ → RadioChannelData

namespace ChannelStore

/-- The parameters of a channel, if there are so many. -/
def get (s : ChannelStore) (n channel : ℕ) : Option RadioChannelData :=
  if channel < n then some (s channel) else none

/-- A set that succeeds replaces the parameters of its channel. -/
def set (s : ChannelStore) (channel : ℕ) (p : RadioChannelData) (ok : Bool) : ChannelStore :=
  if ok then Function.update s channel p else s

theorem get_set_ok {s : ChannelStore} {n channel : ℕ} (h : channel < n) (p : RadioChannelData) :
    (s.set channel p true).get n channel = some p := by
  simp [get, set, h]

theorem get_set_of_ne {s : ChannelStore} {n channel other : ℕ} (h : other ≠ channel)
    (p : RadioChannelData) (ok : Bool) : (s.set channel p ok).get n other = s.get n other := by
  cases ok <;> simp [get, set, Function.update_of_ne h]

end ChannelStore

/-! ## Runs of calls -/

/-- A call of `radio_set`, with the platform's answers, or of `radio_get`. -/
inductive StoreCall where
  | set (p : RadioChannelData) (channel : ℕ) (a : SetAnswers)
  | get (channel : ℕ)

/-- A context, and the store its calls have made. -/
structure Stored where
  radio : RadioModule
  store : ChannelStore

namespace Stored

/-- What follows a call; nothing follows a read outside the channel array. -/
def next (w : Stored) : StoreCall → Option Stored
  | .set p channel a =>
    (sa818Set w.radio p channel a).map fun r => ⟨r.2, w.store.set channel p r.1⟩
  | .get channel => (sa818Get w.radio channel).map fun _ => w

/-- **The call does to the context what it does to the store**: a set leaves every channel, its own
included, as the store has it.  Past the last channel a get fails, and a set fails without a command
or a write, but for a message. -/
def Respects (w : Stored) : StoreCall → Prop
  | .set p channel a =>
    ∃ ok c, sa818Set w.radio p channel a = some (ok, c) ∧
      if channel < w.radio.numberOfChannels then
        ∀ other, sa818Get c other
          = some ((w.store.set channel p ok).get w.radio.numberOfChannels other)
      else ok = false ∧ c = { w.radio with errorMessage := c.errorMessage }
  | .get channel => sa818Get w.radio channel = some (w.store.get w.radio.numberOfChannels channel)

/-- The channel array is the store, and the I/O buffer is there. -/
structure InPlace (n : ℕ) (w : Stored) : Prop where
  numberOfChannels : w.radio.numberOfChannels = n
  buffer : w.radio.device.buffer = true
  channels : ∃ l, w.radio.device.channels = some l ∧ l.length = n ∧
    ∀ channel, l[channel]? = w.store.get n channel

end Stored

/-- The set names a channel there is. -/
def StoreCall.InRange (n : ℕ) : StoreCall → Prop
  | .set _ channel _ => channel < n
  | .get _ => True

/-! ## What a set does -/

/-- Two contexts with the same channel array, neither written to. -/
structure SameChannels (c c' : RadioModule) : Prop where
  numberOfChannels : c'.numberOfChannels = c.numberOfChannels
  buffer : c'.device.buffer = c.device.buffer
  bufferSize : c'.device.bufferSize = c.device.bufferSize
  channels : c'.device.channels = c.device.channels

section SameChannels

variable {c c' c'' : RadioModule}

theorem SameChannels.refl (c : RadioModule) : SameChannels c c := ⟨rfl, rfl, rfl, rfl⟩

theorem SameChannels.trans (h : SameChannels c c') (h' : SameChannels c' c'') :
    SameChannels c c'' where
  numberOfChannels := h'.numberOfChannels.trans h.numberOfChannels
  buffer := h'.buffer.trans h.buffer
  bufferSize := h'.bufferSize.trans h.bufferSize
  channels := h'.channels.trans h.channels

variable (c)

theorem sameChannels_sa818Command (command : Command) (a : Answer) :
    SameChannels c (sa818Command c command a).2 := by
  unfold sa818Command
  split_ifs
  · cases reply c.device.bufferSize command a <;> exact ⟨rfl, rfl, rfl, rfl⟩
  · exact SameChannels.refl c

theorem sameChannels_sendIf (due : Bool) (command : Command) (a : Answer) :
    SameChannels c (sendIf due c command a).2 := by
  cases due
  · exact SameChannels.refl c
  · exact sameChannels_sa818Command c command a

/-- **What the commands of a set do to the channels**: nothing where one fails, and otherwise the set
stores its parameters. -/
theorem setCommands_cases (p o : RadioChannelData) (channel : ℕ) (a : SetAnswers) :
    ∃ c', SameChannels c c' ∧
      (setCommands c p o channel a = (false, c') ∨
        setCommands c p o channel a = (true, c'.store channel p)) := by
  have hgroup := sameChannels_sendIf c (groupDue p o) (.setGroup (groupArgs p)) a.group
  unfold setCommands
  generalize sendIf (groupDue p o) c (.setGroup (groupArgs p)) a.group = r₁ at hgroup ⊢
  obtain ⟨_ | _, c₁⟩ := r₁
  · exact ⟨c₁, hgroup, Or.inl rfl⟩
  · have hfilter := sameChannels_sendIf c₁ (filterDue p o) (.setFilter (filterArgs p)) a.filter
    dsimp only
    generalize sendIf (filterDue p o) c₁ (.setFilter (filterArgs p)) a.filter = r₂ at hfilter ⊢
    obtain ⟨_ | _, c₂⟩ := r₂
    · exact ⟨c₂, hgroup.trans hfilter, Or.inl rfl⟩
    · have htail := sameChannels_sendIf c₂ (tailDue p o) (.setTail (!p.tailTone)) a.tail
      dsimp only
      generalize sendIf (tailDue p o) c₂ (.setTail (!p.tailTone)) a.tail = r₃ at htail ⊢
      obtain ⟨_ | _, c₃⟩ := r₃
      · exact ⟨c₃, (hgroup.trans hfilter).trans htail, Or.inl rfl⟩
      · exact ⟨c₃, (hgroup.trans hfilter).trans htail, Or.inr rfl⟩

end SameChannels

namespace Stored

variable {n : ℕ} {w : Stored}

/-- **The cache is the store.** -/
theorem InPlace.sa818Get_eq (h : InPlace n w) (channel : ℕ) :
    sa818Get w.radio channel = some (w.store.get n channel) := by
  obtain ⟨l, hl, -, hget⟩ := h.channels
  rw [sa818Get, h.numberOfChannels, hl, Option.bind_some, hget, ChannelStore.get]
  by_cases hchannel : channel < n
  · rw [if_neg (Nat.not_le.mpr hchannel), if_pos hchannel]
    rfl
  · rw [if_pos (Nat.not_lt.mp hchannel), if_neg hchannel]

/-- Past the last channel, a set reads outside the array. -/
theorem InPlace.sa818Set_eq_none (h : InPlace n w) {channel : ℕ} (hchannel : ¬ channel < n)
    (p : RadioChannelData) (a : SetAnswers) : sa818Set w.radio p channel a = none := by
  obtain ⟨l, hl, -, hget⟩ := h.channels
  rw [sa818Set, hl, Option.bind_some, hget, ChannelStore.get, if_neg hchannel]
  rfl

/-- **A set within range is a write of the store.** -/
theorem InPlace.set (h : InPlace n w) {channel : ℕ} (hchannel : channel < n)
    (p : RadioChannelData) (a : SetAnswers) :
    ∃ ok c, sa818Set w.radio p channel a = some (ok, c) ∧
      InPlace n ⟨c, w.store.set channel p ok⟩ := by
  obtain ⟨l, hl, hlength, hget⟩ := h.channels
  have hset : sa818Set w.radio p channel a
      = some (setCommands w.radio p (w.store channel) channel a) := by
    rw [sa818Set, hl, Option.bind_some, hget, ChannelStore.get, if_pos hchannel]
    rfl
  obtain ⟨c', hsame, hfail | hdone⟩ :=
    setCommands_cases w.radio p (w.store channel) channel a
  · refine ⟨false, c', hset.trans (congrArg some hfail), hsame.numberOfChannels.trans
      h.numberOfChannels, hsame.buffer.trans h.buffer, l, hsame.channels.trans hl, hlength, hget⟩
  · refine ⟨true, c'.store channel p, hset.trans (congrArg some hdone),
      hsame.numberOfChannels.trans h.numberOfChannels, hsame.buffer.trans h.buffer,
      l.set channel p, ?_, ?_, fun other => ?_⟩
    · change Option.map _ c'.device.channels = _
      rw [hsame.channels, hl]
      rfl
    · rw [List.length_set, hlength]
    · by_cases hother : other = channel
      · rw [hother, List.getElem?_set_self (hlength ▸ hchannel),
          ChannelStore.get_set_ok hchannel]
      · rw [List.getElem?_set_ne (Ne.symm hother), hget, ChannelStore.get_set_of_ne hother]

/-- **A call respects the store exactly when it is in range.** -/
theorem InPlace.respects_iff (h : InPlace n w) (call : StoreCall) :
    w.Respects call ↔ call.InRange n := by
  cases call with
  | set p channel a =>
    unfold Respects StoreCall.InRange
    dsimp only
    rw [h.numberOfChannels]
    constructor
    · rintro ⟨ok, c, hset, -⟩
      by_contra hchannel
      rw [h.sa818Set_eq_none hchannel] at hset
      cases hset
    · intro hchannel
      obtain ⟨ok, c, hset, hc⟩ := h.set hchannel p a
      refine ⟨ok, c, hset, ?_⟩
      rw [if_pos hchannel]
      exact hc.sa818Get_eq
  | get channel =>
    refine iff_of_true ?_ trivial
    unfold Respects
    rw [h.numberOfChannels]
    exact h.sa818Get_eq channel

/-- A call in range keeps everything in place. -/
theorem InPlace.next (h : InPlace n w) {call : StoreCall} (hcall : call.InRange n) :
    ∃ t, w.next call = some t ∧ InPlace n t := by
  cases call with
  | set p channel a =>
    obtain ⟨ok, c, hset, hc⟩ := h.set hcall p a
    exact ⟨_, congrArg (Option.map _) hset, hc⟩
  | get channel => exact ⟨w, congrArg (Option.map _) (h.sa818Get_eq channel), h⟩

/-- **Exactly the runs whose sets are all in range respect the store.** -/
theorem respects_iff_inRange (h : InPlace n w) (calls : List StoreCall) :
    (∀ v ∈ visits next w calls, v.1.Respects v.2) ↔ ∀ call ∈ calls, call.InRange n :=
  forall_visits_iff_forall_mem (P := Respects) (fun _ call hs => hs.respects_iff call)
    (fun _ _ hs hcall => hs.next hcall) calls w h

/-- A one-channel module, and its store. -/
def simplexStore : Stored := ⟨onSimplex, fun _ => simplex⟩

theorem inPlace_simplexStore : InPlace 1 simplexStore where
  numberOfChannels := rfl
  buffer := rfl
  channels := by
    refine ⟨[simplex], rfl, rfl, fun channel => ?_⟩
    cases channel with
    | zero => rfl
    | succ channel => exact (if_neg (by omega)).symm

theorem respects_simplexStore :
    (∀ v ∈ visits next simplexStore [.set simplex 0 retune.answers, .get 7], v.1.Respects v.2) ↔
      ∀ call ∈ [StoreCall.set simplex 0 retune.answers, .get 7], call.InRange 1 :=
  respects_iff_inRange inPlace_simplexStore _

/-- **On a one-channel module, a set of channel 1 reads outside the array.** -/
theorem not_respects_simplexStore : InPlace 1 simplexStore ∧
    ¬ ∀ v ∈ visits next simplexStore [.set simplex 1 retune.answers], v.1.Respects v.2 := by
  refine ⟨inPlace_simplexStore, fun h => ?_⟩
  obtain ⟨ok, c, hset, -⟩ := h (simplexStore, .set simplex 1 retune.answers) List.mem_cons_self
  rw [inPlace_simplexStore.sa818Set_eq_none (by decide)] at hset
  cases hset

end Stored

end Radio
