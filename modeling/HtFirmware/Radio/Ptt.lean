import HtFirmware.Radio.Sa818
import HtFirmware.Machinery.Run

/-!
# Radio/Ptt — who keyed the transmitter?

A session is the life of one context: `sa818` makes it, the radio API is called on it, `radio_end`
frees it.  The transmitter should be keyed only on request: `Asked` says that a GPIO word which keys
it stands only while a `radio_transmit` has not been undone.

The calls keep it, with one exception (`asked_of_reached`): `radio_end` ignores a GPIO write that
fails.  Initialization does not keep it at all: it powers the module up with the PTT bit set, and
then fails (`asked_iff_not_powersUp`).
-/

open Machinery

namespace Radio

/-! ## Sessions -/

/-- A call of the radio API, with what the platform does in it. -/
inductive Call where
  | channel (channel : ℕ)
  | «end» (gpioOk : Bool)
  | frequencyRssi (frequency : ℚ) (a : Answer)
  | get (channel : ℕ)
  | heartbeat (a : Answer)
  | receive (gpioOk : Bool)
  | rssi (a : Answer)
  | set (p : RadioChannelData) (channel : ℕ) (a : SetAnswers)
  | transmit (gpioOk : Bool)
  deriving DecidableEq

/-- The context, `none` for null, and the platform once there is none.  `transmitting` records the
request: a `radio_transmit` was called, and no `radio_receive` or `radio_end` succeeded since. -/
structure Session where
  context : Option RadioModule
  platform : PlatformContext
  transmitting : Bool
  deriving DecidableEq

/-- The last value written successfully to the GPIO. -/
def Session.gpio (s : Session) : Option (BitVec 32) :=
  (s.context.elim s.platform fun c => c.device.platform).gpio

/-- The session `sa818` opens. -/
def opened (platform : PlatformContext) (e : Startup) : Session where
  context := (sa818 platform e).1
  platform := (sa818 platform e).2
  transmitting := false

/-- A session whose context has become `c`. -/
def Session.within (s : Session) (c : RadioModule) (transmitting : Bool) : Session :=
  { s with context := some c, transmitting }

/-- One call, `none` where it goes through a null context or reads outside the channel array. -/
def call (s : Session) (k : Call) : Option Session :=
  s.context.bind fun c =>
    match k with
    | .channel n => some (s.within (sa818Channel c n).2 s.transmitting)
    | .end ok => some
      { context := none, platform := (sa818End c ok).2
        transmitting := s.transmitting && !(sa818End c ok).1 }
    | .frequencyRssi f a => some (s.within (sa818FrequencyRssi c f a).2 s.transmitting)
    | .get n => (sa818Get c n).map fun _ => s
    | .heartbeat a => some (s.within (sa818Heartbeat c a).2 s.transmitting)
    | .receive ok => some
      (s.within (sa818Receive c ok).2 (s.transmitting && !(sa818Receive c ok).1))
    | .rssi a => some (s.within (sa818Rssi c a).2 s.transmitting)
    | .set p n a => (sa818Set c p n a).map fun r => s.within r.2 s.transmitting
    | .transmit ok => some (s.within (sa818Transmit c ok).2 true)

/-- **The transmitter is keyed only on request.** -/
def Asked (s : Session) : Prop := ∀ bits, s.gpio = some bits → Keyed bits → s.transmitting = true

/-! ## What the calls write -/

section Calls

variable (c : RadioModule)

/-- Serial commands leave the GPIO alone. -/
theorem gpio_sa818Command (command : Command) (a : Answer) :
    (sa818Command c command a).2.device.platform.gpio = c.device.platform.gpio := by
  unfold sa818Command
  split_ifs
  · cases reply c.device.bufferSize command a <;> rfl
  · rfl

theorem gpio_sa818FrequencyRssi (f : ℚ) (a : Answer) :
    (sa818FrequencyRssi c f a).2.device.platform.gpio = c.device.platform.gpio := by
  have hcommand := gpio_sa818Command c (.scan f) a
  unfold sa818FrequencyRssi
  generalize sa818Command c (.scan f) a = r at hcommand ⊢
  obtain ⟨_ | result, c'⟩ := r <;> exact hcommand

theorem gpio_sa818Rssi (a : Answer) :
    (sa818Rssi c a).2.device.platform.gpio = c.device.platform.gpio := by
  have hcommand := gpio_sa818Command c .rssi a
  unfold sa818Rssi
  generalize sa818Command c .rssi a = r at hcommand ⊢
  obtain ⟨_ | result, c'⟩ := r <;> exact hcommand

theorem gpio_sendIf (due : Bool) (command : Command) (a : Answer) :
    (sendIf due c command a).2.device.platform.gpio = c.device.platform.gpio := by
  cases due
  · rfl
  · exact gpio_sa818Command c command a

theorem gpio_setCommands (p o : RadioChannelData) (channel : ℕ) (a : SetAnswers) :
    (setCommands c p o channel a).2.device.platform.gpio = c.device.platform.gpio := by
  have hgroup := gpio_sendIf c (groupDue p o) (.setGroup (groupArgs p)) a.group
  unfold setCommands
  generalize sendIf (groupDue p o) c (.setGroup (groupArgs p)) a.group = r₁ at hgroup ⊢
  obtain ⟨_ | _, c₁⟩ := r₁
  · exact hgroup
  · have hfilter := gpio_sendIf c₁ (filterDue p o) (.setFilter (filterArgs p)) a.filter
    dsimp only
    generalize sendIf (filterDue p o) c₁ (.setFilter (filterArgs p)) a.filter = r₂ at hfilter ⊢
    obtain ⟨_ | _, c₂⟩ := r₂
    · exact hfilter.trans hgroup
    · have htail := gpio_sendIf c₂ (tailDue p o) (.setTail (!p.tailTone)) a.tail
      dsimp only
      generalize sendIf (tailDue p o) c₂ (.setTail (!p.tailTone)) a.tail = r₃ at htail ⊢
      obtain ⟨_ | _, c₃⟩ := r₃ <;> exact htail.trans (hfilter.trans hgroup)

end Calls

/-- A set leaves the GPIO alone. -/
theorem gpio_sa818Set {c c' : RadioModule} {p : RadioChannelData} {channel : ℕ} {a : SetAnswers}
    {ok : Bool} (h : sa818Set c p channel a = some (ok, c')) :
    c'.device.platform.gpio = c.device.platform.gpio := by
  obtain ⟨o, -, ho⟩ := Option.map_eq_some_iff.mp h
  rw [← gpio_setCommands c p o channel a, ho]

/-- A GPIO write leaves its word, or the old one. -/
theorem gpio_writeGpio (w : PlatformContext) (bits : BitVec 32) (ok : Bool) :
    (w.writeGpio bits ok).gpio = if ok then some bits else w.gpio := by
  unfold PlatformContext.writeGpio
  split_ifs <;> rfl

/-! ## Sessions keep the promise -/

/-- **What a call does to the GPIO and to the request**: nothing, or what `radio_receive`,
`radio_transmit` and `radio_end` are for. -/
theorem call_cases {s t : Session} {k : Call} (h : call s k = some t) :
    (t.gpio = s.gpio ∧ t.transmitting = s.transmitting) ∨
    (∃ ok, k = .receive ok ∧ t.transmitting = (s.transmitting && !ok) ∧
      t.gpio = if ok then some (sa818EnableBit ||| sa818HighPowerBit) else s.gpio) ∨
    (∃ ok, k = .transmit ok ∧ t.transmitting = true) ∨
    (∃ ok, k = .end ok ∧ t.transmitting = false ∧ t.gpio = if ok then some 0 else s.gpio) := by
  obtain ⟨c, hc, h⟩ := Option.bind_eq_some_iff.mp h
  have hgpio : s.gpio = c.device.platform.gpio := by rw [Session.gpio, hc]; rfl
  rw [hgpio]
  cases k with
  | channel n => exact Or.inl (Option.some.inj h ▸ ⟨rfl, rfl⟩)
  | «end» ok =>
    refine Or.inr (Or.inr (Or.inr ⟨ok, rfl, ?_⟩))
    exact Option.some.inj h ▸ ⟨Bool.and_false _, gpio_writeGpio ..⟩
  | frequencyRssi f a => exact Or.inl (Option.some.inj h ▸ ⟨gpio_sa818FrequencyRssi c f a, rfl⟩)
  | get n =>
    obtain ⟨-, -, rfl⟩ := Option.map_eq_some_iff.mp h
    exact Or.inl ⟨hgpio, rfl⟩
  | heartbeat a => exact Or.inl (Option.some.inj h ▸ ⟨gpio_sa818Rssi c a, rfl⟩)
  | receive ok =>
    exact Or.inr (Or.inl ⟨ok, rfl, Option.some.inj h ▸ ⟨rfl, gpio_writeGpio ..⟩⟩)
  | rssi a => exact Or.inl (Option.some.inj h ▸ ⟨gpio_sa818Rssi c a, rfl⟩)
  | set p n a =>
    obtain ⟨⟨ok, c'⟩, hset, rfl⟩ := Option.map_eq_some_iff.mp h
    exact Or.inl ⟨gpio_sa818Set hset, rfl⟩
  | transmit ok => exact Or.inr (Or.inr (Or.inl ⟨ok, rfl, Option.some.inj h ▸ rfl⟩))

/-- Every call keeps the promise, but a `radio_end` whose GPIO write fails. -/
theorem asked_call {s t : Session} {k : Call} (hs : Asked s) (hk : k ≠ .end false)
    (h : call s k = some t) : Asked t := by
  intro bits hbits hkeyed
  obtain ⟨hgpio, htx⟩ | ⟨ok, -, htx, hgpio⟩ | ⟨ok, -, htx⟩ | ⟨ok, rfl, -, hgpio⟩ := call_cases h
  · rw [htx]
    exact hs bits (hgpio.symm.trans hbits) hkeyed
  · cases ok with
    | false =>
      rw [htx, Bool.not_false, Bool.and_true]
      exact hs bits (hgpio.symm.trans hbits) hkeyed
    | true =>
      obtain rfl := Option.some.inj (hbits.symm.trans hgpio)
      exact absurd hkeyed (by decide)
  · exact htx
  · cases ok with
    | false => exact absurd rfl hk
    | true =>
      obtain rfl := Option.some.inj (hbits.symm.trans hgpio)
      exact absurd hkeyed (by decide)

/-- **The calls of a session keep the transmitter to what was asked**, as long as no `radio_end`
loses its GPIO write. -/
theorem asked_of_reached {s : Session} (hs : Asked s) (calls : List Call)
    (hend : ∀ v ∈ visits call s calls, v.2 ≠ .end false) : ∀ t ∈ reached call s calls, Asked t :=
  forall_reached (C := fun _ k => k ≠ .end false) (fun _ _ _ => asked_call) calls s hs hend

/-! ## Initialization does not -/

/-- What `sa818` leaves: no context, and the transmitter keyed if it was powered up. -/
theorem asked_opened {platform : PlatformContext} (hp : ∀ bits ∈ platform.gpio, ¬ Keyed bits)
    (e : Startup) : Asked (opened platform e) ↔ e.powersUp = false := by
  have hgpio : (opened platform e).gpio = (sa818 platform e).2.gpio := by
    rw [Session.gpio, opened, sa818_fst]
    rfl
  unfold Asked
  rw [hgpio, gpio_sa818]
  cases e.powersUp with
  | false => exact iff_of_true (fun bits hbits hkeyed => absurd hkeyed (hp bits hbits)) rfl
  | true =>
    refine iff_of_false (fun h => ?_) (by decide)
    exact Bool.false_ne_true (h startupBits rfl (by decide))

/-- Without a context, a session goes nowhere. -/
theorem reached_opened (platform : PlatformContext) (e : Startup) (calls : List Call) :
    reached call (opened platform e) calls = [opened platform e] := by
  have hnone : (opened platform e).context = none := sa818_fst platform e
  cases calls with
  | nil => rfl
  | cons k ks => exact reached_of_none (by rw [call, hnone]; rfl) ks

/-- **A session asks before it transmits exactly when `sa818` never powered the module up** — an
allocation before the GPIO write failed, or the write did. -/
theorem asked_iff_not_powersUp {platform : PlatformContext}
    (hp : ∀ bits ∈ platform.gpio, ¬ Keyed bits) (e : Startup) (calls : List Call) :
    (∀ t ∈ reached call (opened platform e) calls, Asked t) ↔ e.powersUp = false := by
  rw [reached_opened, List.forall_mem_singleton, asked_opened hp]

/-- A channel of zeroes. -/
def zeroChannel : RadioChannelData where
  bandwidth := 0
  transmitPower := 0
  transmitFrequency := 0
  receiveFrequency := 0
  transmitSubaudibleTone := 0
  receiveSubaudibleTone := 0
  transmitDigitalCode := 0
  receiveDigitalCode := 0
  squelchLevel := 0
  volume := 0
  preemphasisDeemphasis := false
  lowPassFilter := false
  highPassFilter := false
  tailTone := false

/-- A start at which nothing fails, before a module that would answer `AT+DMOCONNECT`. -/
def goodStart : Startup where
  mallocModule := true
  mallocDevice := true
  mallocBandLimits := true
  mallocChannels := true
  mallocBuffer := true
  gpio := true
  connect := ⟨15, some "+DMOCONNECT:0\r\n".toList⟩
  version := ⟨12, some "+VERSION:SA-818".toList⟩
  scan134 := ⟨12, some "S=0".toList⟩
  scan400 := ⟨12, some "S=0".toList⟩
  scan320 := ⟨12, some "S=0".toList⟩
  channels := fun _ => zeroChannel

/-- Keeping the module in standby keeps the promise. -/
theorem asked_standby :
    (∀ t ∈ reached call (opened {} { goodStart with gpio := false }) [.transmit true], Asked t) ↔
      { goodStart with gpio := false }.powersUp = false :=
  asked_iff_not_powersUp (fun _ h => by cases h) _ _

/-- **A good start leaves the transmitter keyed**, with no context to unkey it. -/
theorem not_asked_goodStart : ¬ ∀ t ∈ reached call (opened {} goodStart) [], Asked t := by
  intro h
  exact Bool.false_ne_true (h _ (mem_reached_self _ []) startupBits (by decide) (by decide))

end Radio
