import HtFirmware.Radio.Store

/-!
# Radio/Failures — does a failed operation say why?

The radio API promises that an operation which returns false has set the error message.  `Explains`
asks it of one call, whatever message an earlier failure left: the message afterwards describes what
went wrong in this one (`Describes`, for a command).

Only `sa818_command` sets a message.  What fails without a command fails silently: a change of
channel, a get of a channel there is not, a GPIO write (`explains_iff_heeded`).
-/

open Machinery

namespace Radio

/-! ## What can go wrong with a command -/

/-- **The message describes what went wrong with the command**: it was not written whole, no response
came that is long enough, or the response is another one. -/
inductive Describes (bufferSize : ℕ) (command : Command) (a : Answer) : String → Prop
  | write (h : a.written ≠ (command.text bufferSize).length) :
      Describes bufferSize command a "Write failed."
  | read (hwritten : a.written = (command.text bufferSize).length)
      (h : ∀ r, a.received = some r → (r.take (bufferSize - 1)).length < command.response.length) :
      Describes bufferSize command a "Read failed."
  | refused (hwritten : a.written = (command.text bufferSize).length) (r : CString)
      (hr : a.received = some r) (hlong : command.response.length ≤ (r.take (bufferSize - 1)).length)
      (h : ¬ command.response <+: r.take (bufferSize - 1)) :
      Describes bufferSize command a "The radio module indicated failure."

/-- The driver's message describes what went wrong. -/
theorem describes_of_reply {bufferSize : ℕ} {command : Command} {a : Answer} {message : String}
    (h : reply bufferSize command a = .error message) : Describes bufferSize command a message := by
  unfold reply at h
  split_ifs at h with hwritten
  · cases hreceived : a.received with
    | none =>
      rw [hreceived] at h
      obtain rfl : "Read failed." = message := Except.error.inj h
      refine .read hwritten fun r hr => ?_
      rw [hreceived] at hr
      cases hr
    | some r =>
      rw [hreceived] at h
      dsimp only [Option.map_some] at h
      split_ifs at h with hlong hprefix
      · obtain rfl := Except.error.inj h
        refine .refused hwritten r hreceived hlong fun hresponse => hprefix ?_
        rw [← List.prefix_iff_eq_take.mp hresponse]
      · obtain rfl := Except.error.inj h
        refine .read hwritten fun r' hr' => ?_
        obtain rfl : r = r' := Option.some.inj (hreceived.symm.trans hr')
        exact Nat.lt_of_not_le hlong
  · obtain rfl := Except.error.inj h
    exact .write hwritten

/-! ## Operations -/

/-- A call of the radio API, with the behaviour of the platform it meets. -/
inductive Operation where
  | channel (channel : ℕ)
  | frequencyRssi (frequency : ℚ) (a : Answer)
  | get (channel : ℕ)
  | heartbeat (a : Answer)
  | receive (gpioOk : Bool)
  | rssi (a : Answer)
  | set (p : RadioChannelData) (channel : ℕ) (a : SetAnswers)
  | transmit (gpioOk : Bool)

namespace Operation

/-- Whether the call succeeds, and the context after it; `none` is a read outside the channel
array. -/
def run (c : RadioModule) : Operation → Option (Bool × RadioModule)
  | .channel k => some (sa818Channel c k)
  | .frequencyRssi frequency a =>
    some ((sa818FrequencyRssi c frequency a).1.isSome, (sa818FrequencyRssi c frequency a).2)
  | .get k => (sa818Get c k).map fun params => (params.isSome, c)
  | .heartbeat a => some (sa818Heartbeat c a)
  | .receive gpioOk => some (sa818Receive c gpioOk)
  | .rssi a => some ((sa818Rssi c a).1.isSome, (sa818Rssi c a).2)
  | .set p k a => sa818Set c p k a
  | .transmit gpioOk => some (sa818Transmit c gpioOk)

/-- The context after a call. -/
def next (c : RadioModule) (op : Operation) : Option RadioModule := (op.run c).map Prod.snd

/-- The message describes a failure of the call.  The source has no text for the failures no command
is behind, so any text does for those. -/
def Describes (bufferSize : ℕ) (message : String) : Operation → Prop
  | .channel _ | .get _ | .receive _ | .transmit _ => message ≠ ""
  | .frequencyRssi frequency a => Radio.Describes bufferSize (.scan frequency) a message
  | .heartbeat a | .rssi a => Radio.Describes bufferSize .rssi a message
  | .set p _ a =>
    Radio.Describes bufferSize (.setGroup (groupArgs p)) a.group message ∨
      Radio.Describes bufferSize (.setFilter (filterArgs p)) a.filter message ∨
      Radio.Describes bufferSize (.setTail (!p.tailTone)) a.tail message

/-- **A call that fails has set a message that describes its failure**, whatever message there was
before. -/
def Explains (c : RadioModule) (op : Operation) : Prop :=
  ∀ stale, ∃ ok c', op.run { c with errorMessage := stale } = some (ok, c') ∧
    (ok = false → ∃ message, c'.errorMessage = some message ∧
      op.Describes c.device.bufferSize message)

/-- The call changes no channel, names a channel there is, and does not lose its GPIO write. -/
def Heeded (n : ℕ) : Operation → Prop
  | .channel _ => False
  | .frequencyRssi _ _ | .heartbeat _ | .rssi _ => True
  | .get k | .set _ k _ => k < n
  | .receive gpioOk | .transmit gpioOk => gpioOk = true

end Operation

/-- A context with its I/O buffer and its channel array. -/
structure Equipped (n : ℕ) (c : RadioModule) : Prop where
  numberOfChannels : c.numberOfChannels = n
  buffer : c.device.buffer = true
  channels : ∃ l, c.device.channels = some l ∧ l.length = n

/-! ## Commands explain themselves -/

section Commands

theorem eq_none_of_isSome {α : Type} {o : Option α} (h : o.isSome = false) : o = none :=
  Option.isNone_iff_eq_none.mp (Option.isSome_eq_false_iff.mp h)

variable {n : ℕ} {c c' : RadioModule}

theorem Equipped.of_same (h : Equipped n c) (hsame : SameChannels c c') : Equipped n c' where
  numberOfChannels := hsame.numberOfChannels.trans h.numberOfChannels
  buffer := hsame.buffer.trans h.buffer
  channels := by
    obtain ⟨l, hl, hlength⟩ := h.channels
    exact ⟨l, hsame.channels.trans hl, hlength⟩

theorem Equipped.store (h : Equipped n c) (channel : ℕ) (p : RadioChannelData) :
    Equipped n (c.store channel p) where
  numberOfChannels := h.numberOfChannels
  buffer := h.buffer
  channels := by
    obtain ⟨l, hl, hlength⟩ := h.channels
    exact ⟨l.set channel p, congrArg (Option.map _) hl, List.length_set.trans hlength⟩

/-- **A command that fails says why.** -/
theorem message_sa818Command (hbuffer : c.device.buffer = true) (command : Command) (a : Answer)
    (hfail : (sa818Command c command a).1 = none) :
    ∃ message, (sa818Command c command a).2.errorMessage = some message ∧
      Describes c.device.bufferSize command a message := by
  unfold sa818Command at hfail ⊢
  rw [if_pos hbuffer] at hfail ⊢
  cases hreply : reply c.device.bufferSize command a with
  | ok result =>
    rw [hreply] at hfail
    cases hfail
  | error message => exact ⟨message, rfl, describes_of_reply hreply⟩

theorem message_sendIf (hbuffer : c.device.buffer = true) (due : Bool) (command : Command)
    (a : Answer) (hfail : (sendIf due c command a).1 = false) :
    ∃ message, (sendIf due c command a).2.errorMessage = some message ∧
      Describes c.device.bufferSize command a message := by
  cases due with
  | false => cases hfail
  | true =>
    have hnone : (sa818Command c command a).1 = none := eq_none_of_isSome hfail
    exact message_sa818Command hbuffer command a hnone

/-- **So does a set**, which stops at the first command that fails. -/
theorem message_setCommands (hbuffer : c.device.buffer = true) (p o : RadioChannelData)
    (channel : ℕ) (a : SetAnswers) (hfail : (setCommands c p o channel a).1 = false) :
    ∃ message, (setCommands c p o channel a).2.errorMessage = some message ∧
      (Operation.set p channel a).Describes c.device.bufferSize message := by
  have hgroup := sameChannels_sendIf c (groupDue p o) (.setGroup (groupArgs p)) a.group
  have hgroup' := message_sendIf hbuffer (groupDue p o) (.setGroup (groupArgs p)) a.group
  unfold setCommands at hfail ⊢
  generalize sendIf (groupDue p o) c (.setGroup (groupArgs p)) a.group = r₁
    at hgroup hgroup' hfail ⊢
  obtain ⟨_ | _, c₁⟩ := r₁
  · obtain ⟨message, hm, hd⟩ := hgroup' rfl
    exact ⟨message, hm, Or.inl hd⟩
  · dsimp only at hgroup hfail ⊢
    have hfilter := sameChannels_sendIf c₁ (filterDue p o) (.setFilter (filterArgs p)) a.filter
    have hfilter' := message_sendIf (hgroup.buffer.trans hbuffer) (filterDue p o)
      (.setFilter (filterArgs p)) a.filter
    rw [hgroup.bufferSize] at hfilter'
    generalize sendIf (filterDue p o) c₁ (.setFilter (filterArgs p)) a.filter = r₂
      at hfilter hfilter' hfail ⊢
    obtain ⟨_ | _, c₂⟩ := r₂
    · obtain ⟨message, hm, hd⟩ := hfilter' rfl
      exact ⟨message, hm, Or.inr (Or.inl hd)⟩
    · dsimp only at hfilter hfail ⊢
      have htail' := message_sendIf ((hgroup.trans hfilter).buffer.trans hbuffer) (tailDue p o)
        (.setTail (!p.tailTone)) a.tail
      rw [(hgroup.trans hfilter).bufferSize] at htail'
      generalize sendIf (tailDue p o) c₂ (.setTail (!p.tailTone)) a.tail = r₃ at htail' hfail ⊢
      obtain ⟨_ | _, c₃⟩ := r₃
      · obtain ⟨message, hm, hd⟩ := htail' rfl
        exact ⟨message, hm, Or.inr (Or.inr hd)⟩
      · cases hfail

theorem Equipped.setCommands (h : Equipped n c) (p o : RadioChannelData) (channel : ℕ)
    (a : SetAnswers) : Equipped n (setCommands c p o channel a).2 := by
  obtain ⟨c', hsame, hfail | hdone⟩ := setCommands_cases c p o channel a
  · rw [hfail]
    exact h.of_same hsame
  · rw [hdone]
    exact (h.of_same hsame).store channel p

theorem sameChannels_sa818FrequencyRssi (c : RadioModule) (f : ℚ) (a : Answer) :
    SameChannels c (sa818FrequencyRssi c f a).2 := by
  have hcommand := sameChannels_sa818Command c (.scan f) a
  unfold sa818FrequencyRssi
  generalize sa818Command c (.scan f) a = r at hcommand ⊢
  obtain ⟨_ | result, c'⟩ := r <;> exact hcommand

theorem sameChannels_sa818Rssi (c : RadioModule) (a : Answer) :
    SameChannels c (sa818Rssi c a).2 := by
  have hcommand := sameChannels_sa818Command c .rssi a
  unfold sa818Rssi
  generalize sa818Command c .rssi a = r at hcommand ⊢
  obtain ⟨_ | result, c'⟩ := r <;>
    exact ⟨hcommand.numberOfChannels, hcommand.buffer, hcommand.bufferSize, hcommand.channels⟩

/-- A scan that fails says why. -/
theorem message_sa818FrequencyRssi (hbuffer : c.device.buffer = true) {f : ℚ} {a : Answer}
    (hfail : (sa818FrequencyRssi c f a).1 = none) :
    ∃ message, (sa818FrequencyRssi c f a).2.errorMessage = some message ∧
      Describes c.device.bufferSize (.scan f) a message := by
  have hcommand := message_sa818Command hbuffer (.scan f) a
  unfold sa818FrequencyRssi at hfail ⊢
  generalize sa818Command c (.scan f) a = r at hcommand hfail ⊢
  obtain ⟨_ | result, c'⟩ := r
  · exact hcommand rfl
  · cases hfail

/-- A signal strength that cannot be read says why. -/
theorem message_sa818Rssi (hbuffer : c.device.buffer = true) {a : Answer}
    (hfail : (sa818Rssi c a).1 = none) :
    ∃ message, (sa818Rssi c a).2.errorMessage = some message ∧
      Describes c.device.bufferSize .rssi a message := by
  have hcommand := message_sa818Command hbuffer .rssi a
  unfold sa818Rssi at hfail ⊢
  generalize sa818Command c .rssi a = r at hcommand hfail ⊢
  obtain ⟨_ | result, c'⟩ := r
  · exact hcommand rfl
  · cases hfail

end Commands

/-! ## Runs -/

namespace Operation

variable {n : ℕ} {c : RadioModule}

/-- **A heeded call returns, explains itself, and leaves the equipment in place.** -/
theorem run_heeded (h : Equipped n c) {op : Operation} (hop : op.Heeded n) :
    ∃ ok c', op.run c = some (ok, c') ∧ Equipped n c' ∧
      (ok = false → ∃ message, c'.errorMessage = some message ∧
        op.Describes c.device.bufferSize message) := by
  cases op with
  | channel k => exact hop.elim
  | frequencyRssi f a =>
    refine ⟨_, _, rfl, h.of_same (sameChannels_sa818FrequencyRssi c f a), fun hfail => ?_⟩
    exact message_sa818FrequencyRssi h.buffer (eq_none_of_isSome hfail)
  | get k =>
    obtain ⟨l, hl, hlength⟩ := h.channels
    have hk : k < l.length := hlength ▸ hop
    refine ⟨true, c, ?_, h, fun hfail => by cases hfail⟩
    rw [run, sa818Get, h.numberOfChannels, if_neg (Nat.not_le.mpr hop), hl, Option.bind_some,
      List.getElem?_eq_getElem hk]
    rfl
  | heartbeat a =>
    refine ⟨_, _, rfl, h.of_same (sameChannels_sa818Rssi c a), fun hfail => ?_⟩
    exact message_sa818Rssi h.buffer (eq_none_of_isSome hfail)
  | receive gpioOk =>
    obtain rfl : gpioOk = true := hop
    exact ⟨true, _, rfl, ⟨h.numberOfChannels, h.buffer, h.channels⟩, fun hfail => by cases hfail⟩
  | rssi a =>
    refine ⟨_, _, rfl, h.of_same (sameChannels_sa818Rssi c a), fun hfail => ?_⟩
    exact message_sa818Rssi h.buffer (eq_none_of_isSome hfail)
  | set p k a =>
    obtain ⟨l, hl, hlength⟩ := h.channels
    have hk : k < l.length := hlength ▸ hop
    have hset : sa818Set c p k a = some (setCommands c p l[k] k a) := by
      rw [sa818Set, hl, Option.bind_some, List.getElem?_eq_getElem hk]
      rfl
    exact ⟨(setCommands c p l[k] k a).1, (setCommands c p l[k] k a).2, hset,
      h.setCommands p l[k] k a, message_setCommands h.buffer p l[k] k a⟩
  | transmit gpioOk =>
    obtain rfl : gpioOk = true := hop
    exact ⟨true, _, rfl, ⟨h.numberOfChannels, h.buffer, h.channels⟩, fun hfail => by cases hfail⟩

/-- A call that is not heeded fails without a word, or reads outside the channel array. -/
theorem heeded_of_explains (h : Equipped n c) {op : Operation} (hexplains : Explains c op) :
    op.Heeded n := by
  obtain ⟨ok, c', hrun, hmessage⟩ := hexplains none
  cases op with
  | channel k =>
    obtain ⟨rfl, rfl⟩ := Prod.mk.inj (Option.some.inj hrun)
    obtain ⟨message, hm, -⟩ := hmessage rfl
    cases hm
  | frequencyRssi f a => trivial
  | get k =>
    by_contra hk
    rw [run, sa818Get, if_pos (by exact h.numberOfChannels ▸ Nat.not_lt.mp hk)] at hrun
    obtain ⟨rfl, rfl⟩ := Prod.mk.inj (Option.some.inj hrun)
    obtain ⟨message, hm, -⟩ := hmessage rfl
    cases hm
  | heartbeat a => trivial
  | receive gpioOk =>
    obtain ⟨rfl, rfl⟩ := Prod.mk.inj (Option.some.inj hrun)
    by_contra hok
    obtain ⟨message, hm, -⟩ := hmessage (Bool.eq_false_of_not_eq_true hok)
    cases hm
  | rssi a => trivial
  | set p k a =>
    by_contra hk
    obtain ⟨l, hl, hlength⟩ := h.channels
    have hnone : l[k]? = none := List.getElem?_eq_none (hlength ▸ Nat.not_lt.mp hk)
    rw [run, sa818Set] at hrun
    change Option.map _ (c.device.channels.bind _) = _ at hrun
    rw [hl, Option.bind_some, hnone] at hrun
    cases hrun
  | transmit gpioOk =>
    obtain ⟨rfl, rfl⟩ := Prod.mk.inj (Option.some.inj hrun)
    by_contra hok
    obtain ⟨message, hm, -⟩ := hmessage (Bool.eq_false_of_not_eq_true hok)
    cases hm

/-- **A call explains itself exactly when it is heeded.** -/
theorem explains_iff (h : Equipped n c) (op : Operation) : Explains c op ↔ op.Heeded n := by
  constructor
  · exact heeded_of_explains h
  · intro hop stale
    have hstale : Equipped n { c with errorMessage := stale } :=
      ⟨h.numberOfChannels, h.buffer, h.channels⟩
    obtain ⟨ok, c', hrun, -, hmessage⟩ := run_heeded hstale hop
    exact ⟨ok, c', hrun, hmessage⟩

/-- **Every call of a run explains itself exactly when every call is heeded.** -/
theorem explains_iff_heeded (h : Equipped n c) (ops : List Operation) :
    (∀ v ∈ visits next c ops, Explains v.1 v.2) ↔ ∀ op ∈ ops, op.Heeded n := by
  refine forall_visits_iff_forall_mem (P := Explains) (fun _ op hs => explains_iff hs op) ?_ ops c h
  intro s op hs hop
  obtain ⟨ok, t, hrun, ht, -⟩ := run_heeded hs hop
  exact ⟨t, congrArg (Option.map Prod.snd) hrun, ht⟩

theorem equipped_onSimplex : Equipped 1 onSimplex := ⟨rfl, rfl, [simplex], rfl, rfl⟩

theorem explains_onSimplex :
    (∀ v ∈ visits next onSimplex [.rssi ⟨0, none⟩, .get 0], Explains v.1 v.2) ↔
      ∀ op ∈ [Operation.rssi ⟨0, none⟩, .get 0], op.Heeded 1 :=
  explains_iff_heeded equipped_onSimplex _

/-- **A change of channel fails without a word.** -/
theorem not_explains_channel : Equipped 1 onSimplex ∧
    ¬ ∀ v ∈ visits next onSimplex [.channel 0], Explains v.1 v.2 := by
  refine ⟨equipped_onSimplex, fun h => ?_⟩
  obtain ⟨ok, c', hrun, hmessage⟩ := h (onSimplex, .channel 0) List.mem_cons_self none
  obtain ⟨rfl, rfl⟩ := Prod.mk.inj (Option.some.inj hrun)
  obtain ⟨message, hm, -⟩ := hmessage rfl
  cases hm

end Operation

end Radio
