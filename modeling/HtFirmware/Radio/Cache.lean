import HtFirmware.Radio.Sa818
import HtFirmware.Machinery.Run

/-!
# Radio/Cache — does the cached channel say what the module was told?

`radio_get` answers from a cache, so the cache has to hold what the module last acknowledged.
`ModuleSettings` is that: for each of the three commands, the values carried by the last one
acknowledged, read off the serial line.  `Agrees` compares it with the cache at the precision of the
commands.

The driver breaks it in three ways: a set whose frequency, bandwidth, tone or squelch changes sends
no group command; a group command always carries 25 kHz and no tone or code; and the cache is
written only after all three commands, so a refusal leaves it behind the ones acknowledged before.
`reliable_iff_sparedAt` says exactly which runs are spared.
-/

open Machinery

namespace Radio

/-! ## Settings -/

/-- What the group command covers, at its precision: four decimals of a frequency, eighths of the
squelch. -/
structure GroupSettings where
  wide : Bool
  transmitFrequency : ℤ
  receiveFrequency : ℤ
  transmitTone : ℚ
  transmitCode : UInt16
  receiveTone : ℚ
  receiveCode : UInt16
  squelch : ℤ
  deriving DecidableEq

/-- What the filter command covers. -/
structure FilterSettings where
  preemphasisDeemphasis : Bool
  highPassFilter : Bool
  lowPassFilter : Bool
  deriving DecidableEq

/-- The settings a module acknowledged, `none` where the text acknowledged carried none. -/
structure ModuleSettings where
  group : Option GroupSettings
  filter : Option FilterSettings
  tail : Option Bool
  deriving DecidableEq

namespace RadioChannelData

def group (o : RadioChannelData) : GroupSettings where
  wide := decide (|o.bandwidth - 25| < fltEpsilon)
  transmitFrequency := tenThousandths o.transmitFrequency
  receiveFrequency := tenThousandths o.receiveFrequency
  transmitTone := o.transmitSubaudibleTone
  transmitCode := o.transmitDigitalCode
  receiveTone := o.receiveSubaudibleTone
  receiveCode := o.receiveDigitalCode
  squelch := roundf (o.squelchLevel * 8)

def filter (o : RadioChannelData) : FilterSettings where
  preemphasisDeemphasis := o.preemphasisDeemphasis
  highPassFilter := o.highPassFilter
  lowPassFilter := o.lowPassFilter

/-- What a channel's parameters ask of the module. -/
def settings (o : RadioChannelData) : ModuleSettings := ⟨some o.group, some o.filter, some o.tailTone⟩

end RadioChannelData

/-- The values a group command carries; `0000` is no tone and no code. -/
def GroupArgs.settings (g : GroupArgs) : Option GroupSettings :=
  if g.receiveSubaudioOrCode = "0000".toList ∧ g.transmitSubaudioOrCode = "0000".toList then
    some ⟨g.bandwidth = 1, tenThousandths g.transmitFrequency, tenThousandths g.receiveFrequency,
      0, 0, 0, 0, g.squelch⟩
  else none

def FilterArgs.settings (f : FilterArgs) : FilterSettings := ⟨!f.noEmphasis, !f.noHighPass, !f.noLowPass⟩

/-- The settings after one more exchange.  A text the buffer cut carries no values. -/
def ModuleSettings.acknowledge (m : ModuleSettings) (x : Exchange) : ModuleSettings :=
  let whole := decide (x.text = x.command.format)
  if x.acknowledged then
    match x.command with
    | .setGroup g => { m with group := if whole then g.settings else none }
    | .setFilter f => { m with filter := if whole then some f.settings else none }
    | .setTail t => { m with tail := if whole then some (!t) else none }
    | .connect | .version | .rssi | .scan _ => m
  else m

/-- The settings of a module that had `m₀` when the line was clear. -/
def moduleSettings (m₀ : ModuleSettings) (c : RadioModule) : ModuleSettings :=
  c.device.platform.line.foldl ModuleSettings.acknowledge m₀

/-- The cached parameters of channel 0. -/
def cached (c : RadioModule) : Option RadioChannelData := c.device.channels.bind (·[0]?)

/-- **The cache holds what the module acknowledged**, for each of the three commands. -/
def Agrees (m₀ : ModuleSettings) (c : RadioModule) : Prop :=
  ∀ o, cached c = some o → moduleSettings m₀ c = o.settings

/-- A one-channel context with everything in place, `o` being cached. -/
structure Ready (c : RadioModule) (o : RadioChannelData) : Prop where
  numberOfChannels : c.numberOfChannels = 1
  buffer : c.device.buffer = true
  bufferSize : c.device.bufferSize = 120
  channels : c.device.channels = some [o]

theorem Ready.cached {c : RadioModule} {o : RadioChannelData} (h : Ready c o) :
    cached c = some o := by simp [Radio.cached, h.channels]

/-- One call of `radio_set` on channel 0, with the platform's answers. -/
structure SetCall where
  params : RadioChannelData
  answers : SetAnswers

/-- The context after a call. -/
def radioSet (c : RadioModule) (call : SetCall) : Option RadioModule :=
  (sa818Set c call.params 0 call.answers).map Prod.snd

/-! ## What one set does -/

/-- The source's comparison of two channels comes down to their digital codes. -/
theorem groupDue_eq (p o : RadioChannelData) : groupDue p o
    = (p.transmitDigitalCode != o.transmitDigitalCode
      || p.receiveDigitalCode != o.receiveDigitalCode) := by simp [groupDue]

theorem filterDue_eq_false {p o : RadioChannelData} :
    filterDue p o = false ↔ p.filter = o.filter := by
  simp [filterDue, RadioChannelData.filter]
  tauto

theorem tailDue_eq_false {p o : RadioChannelData} :
    tailDue p o = false ↔ p.tailTone = o.tailTone := by simp [tailDue]

/-- The group command of `p` fits the I/O buffer of a one-channel module. -/
def Fits (p : RadioChannelData) : Prop := (Command.setGroup (groupArgs p)).format.length < 120

instance (p : RadioChannelData) : Decidable (Fits p) := inferInstanceAs (Decidable (_ < _))

/-- The values the group command of `p` carries: always 25 kHz, never a tone or a code. -/
def carriedGroup (p : RadioChannelData) : GroupSettings where
  wide := true
  transmitFrequency := tenThousandths p.transmitFrequency
  receiveFrequency := tenThousandths p.receiveFrequency
  transmitTone := 0
  transmitCode := 0
  receiveTone := 0
  receiveCode := 0
  squelch := roundf (p.squelchLevel * 8)

theorem settings_groupArgs (p : RadioChannelData) :
    (groupArgs p).settings = some (carriedGroup p) := by
  simp [GroupArgs.settings, groupArgs, carriedGroup]

theorem settings_filterArgs (p : RadioChannelData) : (filterArgs p).settings = p.filter := by
  simp [FilterArgs.settings, filterArgs, RadioChannelData.filter]

theorem snprintf_eq_self {size : ℕ} (hsize : 0 < size) {text : CString} :
    snprintf size text = text ↔ text.length < size := by
  rw [snprintf, List.take_eq_self_iff]
  omega

/-- A filter command is never cut. -/
theorem text_setFilter (f : FilterArgs) :
    (Command.setFilter f).text 120 = (Command.setFilter f).format := by
  obtain ⟨a, b, c⟩ := f
  cases a <;> cases b <;> cases c <;> decide

/-- A tail command is never cut. -/
theorem text_setTail (t : Bool) :
    (Command.setTail t).text 120 = (Command.setTail t).format := by cases t <;> decide

section Step

variable (m₀ : ModuleSettings) {c : RadioModule} {o : RadioChannelData}

/-- The settings after a command, with a buffer in place. -/
theorem moduleSettings_exchange (c : RadioModule) (command : Command) (a : Answer) :
    moduleSettings m₀ (c.exchange command a) = (moduleSettings m₀ c).acknowledge
      ⟨command, command.text c.device.bufferSize,
        acknowledges c.device.bufferSize command a⟩ := by
  simp [moduleSettings, RadioModule.exchange]

/-- **What a command that is sent only if due does**: it succeeds unless due and refused, and where
it is due the line has one more exchange. -/
theorem sendIf_eq (h : Ready c o) (due : Bool) (command : Command) (a : Answer) :
    ∃ c', sendIf due c command a = (!due || acknowledges 120 command a, c') ∧ Ready c' o ∧
      moduleSettings m₀ c' = if due then (moduleSettings m₀ c).acknowledge
        ⟨command, command.text 120, acknowledges 120 command a⟩ else moduleSettings m₀ c := by
  cases due with
  | false => exact ⟨c, rfl, h, rfl⟩
  | true =>
    have hs := moduleSettings_exchange m₀ c command a
    rw [h.bufferSize] at hs
    simp only [sendIf, if_true, sa818Command, h.buffer, h.bufferSize, acknowledges, Bool.not_true,
      Bool.false_or]
    rw [acknowledges] at hs
    cases hr : reply 120 command a with
    | ok result =>
      rw [hr] at hs
      exact ⟨_, rfl, ⟨h.numberOfChannels, h.buffer, h.bufferSize, h.channels⟩, hs⟩
    | error message =>
      rw [hr] at hs
      exact ⟨_, rfl, ⟨h.numberOfChannels, h.buffer, h.bufferSize, h.channels⟩, hs⟩

/-- What the module makes of an acknowledged group command of `p`. -/
def groupAfter (p : RadioChannelData) : Option GroupSettings :=
  if Fits p then some (carriedGroup p) else none

theorem acknowledge_setGroup (m : ModuleSettings) (p : RadioChannelData) (ok : Bool) :
    m.acknowledge ⟨.setGroup (groupArgs p), (Command.setGroup (groupArgs p)).text 120, ok⟩
      = { m with group := if ok then groupAfter p else m.group } := by
  have hfits : snprintf 120 (Command.setGroup (groupArgs p)).format
      = (Command.setGroup (groupArgs p)).format ↔ Fits p := snprintf_eq_self (by decide)
  cases ok <;>
    simp [ModuleSettings.acknowledge, Command.text, hfits, groupAfter, settings_groupArgs]

theorem acknowledge_setFilter (m : ModuleSettings) (p : RadioChannelData) (ok : Bool) :
    m.acknowledge ⟨.setFilter (filterArgs p), (Command.setFilter (filterArgs p)).text 120, ok⟩
      = { m with filter := if ok then some p.filter else m.filter } := by
  rw [text_setFilter]
  cases ok <;> simp [ModuleSettings.acknowledge, settings_filterArgs]

theorem acknowledge_setTail (m : ModuleSettings) (p : RadioChannelData) (ok : Bool) :
    m.acknowledge ⟨.setTail (!p.tailTone), (Command.setTail (!p.tailTone)).text 120, ok⟩
      = { m with tail := if ok then some p.tailTone else m.tail } := by
  rw [text_setTail]
  cases ok <;> simp [ModuleSettings.acknowledge]

/-- The answer acknowledges the group command of `p`. -/
def ackGroup (p : RadioChannelData) (a : SetAnswers) : Bool :=
  acknowledges 120 (.setGroup (groupArgs p)) a.group

def ackFilter (p : RadioChannelData) (a : SetAnswers) : Bool :=
  acknowledges 120 (.setFilter (filterArgs p)) a.filter

def ackTail (p : RadioChannelData) (a : SetAnswers) : Bool :=
  acknowledges 120 (.setTail (!p.tailTone)) a.tail

/-- The set reaches its filter command. -/
def groupPassed (p o : RadioChannelData) (a : SetAnswers) : Bool := !groupDue p o || ackGroup p a

/-- The filter command, if due, is acknowledged. -/
def filterPassed (p o : RadioChannelData) (a : SetAnswers) : Bool :=
  !filterDue p o || ackFilter p a

def tailPassed (p o : RadioChannelData) (a : SetAnswers) : Bool := !tailDue p o || ackTail p a

/-- A command that stops the set changed nothing. -/
theorem not_sent {due ack : Bool} (h : (!due || ack) = false) : (due && ack) = false := by
  rw [Bool.or_eq_false_iff] at h
  rw [h.2, Bool.and_false]

theorem moduleSettings_store (c : RadioModule) (channel : ℕ) (p : RadioChannelData) :
    moduleSettings m₀ (c.store channel p) = moduleSettings m₀ c := rfl

/-- The group step of a set: the module's group changes if the command is due and acknowledged. -/
theorem sendGroup_eq (h : Ready c o) (p : RadioChannelData) (a : SetAnswers) :
    ∃ c', sendIf (groupDue p o) c (.setGroup (groupArgs p)) a.group
        = (groupPassed p o a, c') ∧ Ready c' o ∧
      moduleSettings m₀ c' = { moduleSettings m₀ c with
        group := if groupDue p o && ackGroup p a then groupAfter p
          else (moduleSettings m₀ c).group } := by
  obtain ⟨c', hc, h', hs⟩ :=
    sendIf_eq m₀ h (groupDue p o) (.setGroup (groupArgs p)) a.group
  refine ⟨c', hc, h', ?_⟩
  rw [hs, acknowledge_setGroup]
  cases groupDue p o <;> rfl

theorem sendFilter_eq (h : Ready c o) (p : RadioChannelData) (a : SetAnswers) :
    ∃ c', sendIf (filterDue p o) c (.setFilter (filterArgs p)) a.filter
        = (filterPassed p o a, c') ∧ Ready c' o ∧
      moduleSettings m₀ c' = { moduleSettings m₀ c with
        filter := if filterDue p o && ackFilter p a then some p.filter
          else (moduleSettings m₀ c).filter } := by
  obtain ⟨c', hc, h', hs⟩ :=
    sendIf_eq m₀ h (filterDue p o) (.setFilter (filterArgs p)) a.filter
  refine ⟨c', hc, h', ?_⟩
  rw [hs, acknowledge_setFilter]
  cases filterDue p o <;> rfl

theorem sendTail_eq (h : Ready c o) (p : RadioChannelData) (a : SetAnswers) :
    ∃ c', sendIf (tailDue p o) c (.setTail (!p.tailTone)) a.tail
        = (tailPassed p o a, c') ∧ Ready c' o ∧
      moduleSettings m₀ c' = { moduleSettings m₀ c with
        tail := if tailDue p o && ackTail p a then some p.tailTone
          else (moduleSettings m₀ c).tail } := by
  obtain ⟨c', hc, h', hs⟩ :=
    sendIf_eq m₀ h (tailDue p o) (.setTail (!p.tailTone)) a.tail
  refine ⟨c', hc, h', ?_⟩
  rw [hs, acknowledge_setTail]
  cases tailDue p o <;> rfl

/-- Storing parameters in the cache tells the module nothing. -/
theorem Ready.store (h : Ready c o) (p : RadioChannelData) : Ready (c.store 0 p) p where
  numberOfChannels := h.numberOfChannels
  buffer := h.buffer
  bufferSize := h.bufferSize
  channels := by simp [RadioModule.store, h.channels]

/-- No command of the set is refused. -/
def accepted (p o : RadioChannelData) (a : SetAnswers) : Bool :=
  groupPassed p o a && filterPassed p o a && tailPassed p o a

/-- The settings after a set of `p` over a cached `o`: each command counts if it was due, reached
and acknowledged. -/
def settingsAfter (m : ModuleSettings) (p o : RadioChannelData) (a : SetAnswers) :
    ModuleSettings where
  group := if groupDue p o && ackGroup p a then groupAfter p else m.group
  filter := if groupPassed p o a && (filterDue p o && ackFilter p a) then some p.filter
    else m.filter
  tail := if groupPassed p o a && filterPassed p o a && (tailDue p o && ackTail p a) then
    some p.tailTone else m.tail

/-- **The specification of `radio_set`** on a one-channel context: it succeeds unless a command is
refused, the cache is replaced only then, and the module has what it acknowledged. -/
theorem sa818Set_eq (h : Ready c o) (p : RadioChannelData) (a : SetAnswers) :
    ∃ c', sa818Set c p 0 a = some (accepted p o a, c') ∧
      Ready c' (if accepted p o a then p else o) ∧
      moduleSettings m₀ c' = settingsAfter (moduleSettings m₀ c) p o a := by
  have hset : sa818Set c p 0 a = some (setCommands c p o 0 a) := by
    simp only [sa818Set, h.channels, Option.bind_some, List.getElem?_cons_zero, Option.map_some]
  obtain ⟨c₁, hc₁, h₁, hs₁⟩ := sendGroup_eq m₀ h p a
  obtain ⟨c₂, hc₂, h₂, hs₂⟩ := sendFilter_eq m₀ h₁ p a
  obtain ⟨c₃, hc₃, h₃, hs₃⟩ := sendTail_eq m₀ h₂ p a
  rw [hset]
  unfold setCommands accepted settingsAfter
  rw [hc₁]
  cases hg : groupPassed p o a with
  | false =>
    have hdue : (groupDue p o && ackGroup p a) = false := not_sent hg
    exact ⟨c₁, rfl, h₁, by rw [hs₁, hdue]; rfl⟩
  | true =>
    dsimp only
    rw [hc₂]
    cases hf : filterPassed p o a with
    | false =>
      have hdue : (filterDue p o && ackFilter p a) = false := not_sent hf
      exact ⟨c₂, rfl, h₂, by rw [hs₂, hs₁, hdue]; rfl⟩
    | true =>
      dsimp only
      rw [hc₃]
      cases ht : tailPassed p o a with
      | false =>
        have hdue : (tailDue p o && ackTail p a) = false := not_sent ht
        exact ⟨c₃, rfl, h₃, by rw [hs₃, hs₂, hs₁, hdue]; rfl⟩
      | true => exact ⟨c₃.store 0 p, rfl, h₃.store p, by rw [moduleSettings_store, hs₃, hs₂, hs₁]; rfl⟩

end Step

/-! ## Runs -/

section Runs

variable {m₀ : ModuleSettings} {c : RadioModule} {o : RadioChannelData}

/-- **The cache can be relied on throughout a run**: it holds what the module acknowledged in every
state, and what was asked whenever a set succeeded. -/
def Reliable (m₀ : ModuleSettings) (c : RadioModule) (calls : List SetCall) : Prop :=
  (∀ t ∈ reached radioSet c calls, Agrees m₀ t) ∧
    ∀ v ∈ visits radioSet c calls, ∀ t,
      sa818Set v.1 v.2.params 0 v.2.answers = some (true, t) →
        moduleSettings m₀ t = v.2.params.settings

/-- **A set of `p` over the cached `o` that the driver's three slips do not reach.**  Its first
command is refused; or nothing is, and the group command, if sent, carries `p` as it is, and if not
sent had nothing to carry; or a later command is, and what was sent before changed nothing. -/
def Spared (o p : RadioChannelData) (a : SetAnswers) : Prop :=
  groupPassed p o a = true →
    if filterPassed p o a && tailPassed p o a then
      if groupDue p o then Fits p ∧ carriedGroup p = p.group else o.group = p.group
    else
      (groupDue p o = true → Fits p ∧ carriedGroup p = o.group) ∧
        (filterPassed p o a = true → filterDue p o = false)

theorem groupAfter_eq {p : RadioChannelData} {g : GroupSettings} :
    groupAfter p = some g ↔ Fits p ∧ carriedGroup p = g := by
  unfold groupAfter
  split_ifs with hfit <;> simp [hfit]

/-- A command that is due and reached was acknowledged. -/
theorem due_and_ack {due ack : Bool} (h : (!due || ack) = true) : (due && ack) = due := by
  cases due
  · rfl
  · exact h

/-- A filter command left out as not due would have changed nothing. -/
theorem filterSent_params (p o : RadioChannelData) :
    (if filterDue p o = true then some p.filter else some o.filter) = some p.filter := by
  split_ifs with hdue
  · rfl
  · rw [filterDue_eq_false.mp (Bool.eq_false_of_not_eq_true hdue)]

/-- A filter command that is due changes the filter. -/
theorem filterDue_imp (p o : RadioChannelData) :
    (filterDue p o = true → p.filter = o.filter) ↔ filterDue p o = false := by
  rw [← filterDue_eq_false]
  cases filterDue p o <;> simp

theorem tailSent_params (p o : RadioChannelData) :
    (if tailDue p o = true then some p.tailTone else some o.tailTone) = some p.tailTone := by
  split_ifs with hdue
  · rfl
  · rw [tailDue_eq_false.mp (Bool.eq_false_of_not_eq_true hdue)]

/-- The settings after a set are those of the cache exactly when the set is spared. -/
theorem settingsAfter_iff (p o : RadioChannelData) (a : SetAnswers) :
    settingsAfter o.settings p o a = (if accepted p o a then p else o).settings ↔
      Spared o p a := by
  unfold Spared settingsAfter accepted RadioChannelData.settings
  rw [ModuleSettings.mk.injEq]
  cases hg : groupPassed p o a with
  | false => simp [not_sent hg]
  | true =>
    rw [due_and_ack hg]
    cases hf : filterPassed p o a with
    | false =>
      rw [not_sent hf]
      cases groupDue p o <;> simp [groupAfter_eq]
    | true =>
      rw [due_and_ack hf]
      cases ht : tailPassed p o a with
      | false =>
        rw [not_sent ht]
        cases groupDue p o <;> simp [groupAfter_eq, filterDue_imp]
      | true =>
        rw [due_and_ack ht]
        cases groupDue p o <;> simp [groupAfter_eq, filterSent_params, tailSent_params]

/-- **One call**: the context is still ready, and agrees exactly when the call was spared. -/
theorem radioSet_step (m₀ : ModuleSettings) (h : Ready c o) (call : SetCall) :
    ∃ t, radioSet c call = some t ∧
      Ready t (if accepted call.params o call.answers then call.params else o) ∧
      moduleSettings m₀ t = settingsAfter (moduleSettings m₀ c) call.params o call.answers := by
  obtain ⟨t, ht, hr, hs⟩ := sa818Set_eq m₀ h call.params call.answers
  exact ⟨t, congrArg (Option.map Prod.snd) ht, hr, hs⟩

/-- Over a ready context, agreement is an equation. -/
theorem Ready.agrees_iff (h : Ready c o) : Agrees m₀ c ↔ moduleSettings m₀ c = o.settings :=
  ⟨fun h' => h' o h.cached, fun h' o' ho' => by
    rwa [← Option.some.inj (h.cached.symm.trans ho')]⟩

/-- The call was spared, whatever the cache held. -/
def SparedAt (c : RadioModule) (call : SetCall) : Prop :=
  ∀ o, cached c = some o → Spared o call.params call.answers

theorem Ready.sparedAt_iff (h : Ready c o) (call : SetCall) :
    SparedAt c call ↔ Spared o call.params call.answers :=
  ⟨fun h' => h' o h.cached, fun h' o' ho' => by
    rwa [← Option.some.inj (h.cached.symm.trans ho')]⟩

/-- **One call keeps the agreement exactly when it is spared.** -/
theorem agrees_radioSet (h : Ready c o) (hm : Agrees m₀ c) {call : SetCall} {t : RadioModule}
    (ht : radioSet c call = some t) : Agrees m₀ t ↔ SparedAt c call := by
  obtain ⟨t', ht', hr, hs⟩ := radioSet_step m₀ h call
  obtain rfl : t = t' := Option.some.inj (ht.symm.trans ht')
  rw [hr.agrees_iff, h.sparedAt_iff, hs, h.agrees_iff.mp hm, settingsAfter_iff]

/-- A call leaves a ready context. -/
theorem ready_radioSet (h : Ready c o) {call : SetCall} {t : RadioModule}
    (ht : radioSet c call = some t) : ∃ o', Ready t o' := by
  obtain ⟨t', ht', hr, -⟩ := radioSet_step ⟨none, none, none⟩ h call
  obtain rfl : t = t' := Option.some.inj (ht.symm.trans ht')
  exact ⟨_, hr⟩

/-- A call on a ready context reads within the channel array. -/
theorem radioSet_ne_none (h : Ready c o) (call : SetCall) : radioSet c call ≠ none := by
  obtain ⟨t, ht, -⟩ := radioSet_step ⟨none, none, none⟩ h call
  simp [ht]

/-- The states of a run agree exactly when its calls are spared. -/
theorem forall_agrees_iff (h : Ready c o) (hm : Agrees m₀ c) (calls : List SetCall) :
    (∀ t ∈ reached radioSet c calls, Agrees m₀ t) ↔
      ∀ v ∈ visits radioSet c calls, SparedAt v.1 v.2 := by
  refine forall_reached_iff (I := fun t => ∃ o', Ready t o') ?_ ?_ ?_ calls c ⟨o, h⟩ hm
  · rintro s call t ⟨o', hs⟩ hms ht
    exact agrees_radioSet hs hms ht
  · rintro s call ⟨o', hs⟩ - hn
    exact absurd hn (radioSet_ne_none hs call)
  · rintro s call t ⟨o', hs⟩ ht
    exact ready_radioSet hs ht

/-- The contexts a run calls are ready. -/
theorem ready_of_visit (h : Ready c o) (calls : List SetCall) :
    ∀ v ∈ visits radioSet c calls, ∃ o', Ready v.1 o' := by
  intro v hv
  refine forall_reached (I := fun t => ∃ o', Ready t o') (C := fun _ _ => True) ?_ calls c ⟨o, h⟩
    (fun _ _ => trivial) v.1 (mem_reached_of_mem_visits calls c hv)
  rintro s call t ⟨o', hs⟩ - ht
  exact ready_radioSet hs ht

/-- A set that succeeds caches its parameters. -/
theorem cached_of_sa818Set (h : Ready c o) {p : RadioChannelData} {a : SetAnswers}
    {t : RadioModule} (ht : sa818Set c p 0 a = some (true, t)) : cached t = some p := by
  obtain ⟨t', ht', hr, -⟩ := sa818Set_eq ⟨none, none, none⟩ h p a
  have heq := Option.some.inj (ht.symm.trans ht')
  have hacc : accepted p o a = true := (congrArg Prod.fst heq).symm
  obtain rfl : t = t' := congrArg Prod.snd heq
  rw [hacc, if_pos rfl] at hr
  exact hr.cached

/-- **Exactly the runs of spared sets keep the cache reliable.** -/
theorem reliable_iff_sparedAt (h : Ready c o) (hm : Agrees m₀ c) (calls : List SetCall) :
    Reliable m₀ c calls ↔ ∀ v ∈ visits radioSet c calls, SparedAt v.1 v.2 := by
  rw [← forall_agrees_iff h hm calls]
  refine ⟨And.left, fun hall => ⟨hall, fun v hv t ht => ?_⟩⟩
  obtain ⟨o', hv'⟩ := ready_of_visit h calls v hv
  have hnext : radioSet v.1 v.2 = some t := congrArg (Option.map Prod.snd) ht
  exact hall t (mem_reached_of_visit hnext calls c hv) _ (cached_of_sa818Set hv' ht)

/-- A channel set to 146.52 MHz, without tones. -/
def simplex : RadioChannelData where
  bandwidth := 25
  transmitPower := 1
  transmitFrequency := 14652 / 100
  receiveFrequency := 14652 / 100
  transmitSubaudibleTone := 0
  receiveSubaudibleTone := 0
  transmitDigitalCode := 0
  receiveDigitalCode := 0
  squelchLevel := 1 / 2
  volume := 1
  preemphasisDeemphasis := true
  lowPassFilter := true
  highPassFilter := true
  tailTone := true

/-- A one-channel module on that channel, with a clear line. -/
def onSimplex : RadioModule where
  numberOfChannels := 1
  device := { platform := {}, channels := some [simplex], buffer := true, bufferSize := 120 }

theorem ready_onSimplex : Ready onSimplex simplex := ⟨rfl, rfl, rfl, rfl⟩

theorem agrees_onSimplex : Agrees simplex.settings onSimplex :=
  ready_onSimplex.agrees_iff.mpr rfl

/-- A set that moves the transmitter to 147 MHz, every command being answered. -/
def retune : SetCall where
  params := { simplex with transmitFrequency := 147 }
  answers := ⟨⟨45, some "+DMOSETGROUP:0\r\n".toList⟩, ⟨22, some "+DMOSETFILTER:0\r\n".toList⟩,
    ⟨16, some "+DMOSETTAIL:0\r\n".toList⟩⟩

/-- No command is due, so the set succeeds. -/
theorem sa818Set_retune :
    sa818Set onSimplex retune.params 0 retune.answers
      = some (true, onSimplex.store 0 retune.params) := by decide +kernel

theorem reliable_onSimplex : Reliable simplex.settings onSimplex [retune, retune] ↔
    ∀ v ∈ visits radioSet onSimplex [retune, retune], SparedAt v.1 v.2 :=
  reliable_iff_sparedAt ready_onSimplex agrees_onSimplex [retune, retune]

/-- **A retuned transmitter is reported but never told to the module.** -/
theorem not_reliable_retune : Ready onSimplex simplex ∧ Agrees simplex.settings onSimplex ∧
    ¬ Reliable simplex.settings onSimplex [retune] := by
  refine ⟨ready_onSimplex, agrees_onSimplex, fun hr => ?_⟩
  have hset := hr.2 (onSimplex, retune) List.mem_cons_self _ sa818Set_retune
  have hgroup : some simplex.group = some retune.params.group :=
    congrArg ModuleSettings.group hset
  revert hgroup
  decide +kernel

end Runs

end Radio
