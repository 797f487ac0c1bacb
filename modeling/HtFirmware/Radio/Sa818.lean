import HtFirmware.Radio.Module

/-!
# Radio/Sa818 — the driver of the SA-818 family

Every operation of `sa818.c`, over the context of `Radio/Module`.  Two facts about it shape all that
follows: `floatEqual` holds of any two numbers (`floatEqual_eq_true`), so a set compares only the
digital codes; and the connect command is sent while the I/O buffer is still null, so `sa818` never
returns a context (`sa818_fst`).
-/

namespace Radio

/-! ## GPIO words -/

def sa818EnableBit : BitVec 32 := 1 <<< 0
def sa818PttBit : BitVec 32 := 1 <<< 1
def sa818HighPowerBit : BitVec 32 := 1 <<< 2

/-- The word keys the transmitter. -/
def Keyed (bits : BitVec 32) : Prop := bits &&& sa818PttBit ≠ 0

instance (bits : BitVec 32) : Decidable (Keyed bits) := inferInstanceAs (Decidable (_ ≠ _))

/-! ## Comparing floats -/

/-- `FLT_EPSILON` of an IEEE single. -/
def fltEpsilon : ℚ := 1 / 2 ^ 23

/-- The source's comparison: the two tests are joined by *or*. -/
def floatEqual (a b : ℚ) : Bool :=
  decide (a - b < fltEpsilon) || decide (-(a - b) < fltEpsilon)

theorem fltEpsilon_pos : 0 < fltEpsilon := by norm_num [fltEpsilon]

/-- **`float_equal` never tells two numbers apart** — one of the two differences is not positive. -/
@[simp] theorem floatEqual_eq_true (a b : ℚ) : floatEqual a b = true := by
  rw [floatEqual, Bool.or_eq_true, decide_eq_true_eq, decide_eq_true_eq]
  rcases le_total (a - b) 0 with hab | hab
  · exact Or.inl (hab.trans_lt fltEpsilon_pos)
  · exact Or.inr ((neg_nonpos.mpr hab).trans_lt fltEpsilon_pos)

/-! ## One command -/

/-- What the driver makes of an answer: the rest of the response, or the message it reports.  At
most `bufferSize - 1` bytes are read. -/
def reply (bufferSize : ℕ) (command : Command) (a : Answer) : Except String CString :=
  if a.written = (command.text bufferSize).length then
    match a.received.map fun r => r.take (bufferSize - 1) with
    | none => .error "Read failed."
    | some r =>
      if command.response.length ≤ r.length then
        if r.take command.response.length = command.response then
          .ok ((r.drop command.response.length).takeWhile (· ≠ '\x00'))
        else .error "The radio module indicated failure."
      else .error "Read failed."
  else .error "Write failed."

/-- The module acknowledged the command. -/
def acknowledges (bufferSize : ℕ) (command : Command) (a : Answer) : Bool :=
  (reply bufferSize command a).isOk

/-- The line with one more exchange on it. -/
def RadioModule.exchange (c : RadioModule) (command : Command) (a : Answer) : RadioModule :=
  { c with device := { c.device with platform := { c.device.platform with
      line := c.device.platform.line ++
        [⟨command, command.text c.device.bufferSize,
          acknowledges c.device.bufferSize command a⟩] } } }

/-- `sa818_command`: the result is `none` where the source returns false.  Without a buffer nothing
is sent, and no message is set. -/
def sa818Command (c : RadioModule) (command : Command) (a : Answer) :
    Option CString × RadioModule :=
  if c.device.buffer then
    match reply c.device.bufferSize command a with
    | .ok result => (some result, c.exchange command a)
    | .error message => (none, { c.exchange command a with errorMessage := some message })
  else (none, c)

/-! ## The operations -/

/-- Not written yet in the source: every channel change fails. -/
def sa818Channel (c : RadioModule) (_channel : ℕ) : Bool × RadioModule := (false, c)

/-- The context after a GPIO write. -/
def RadioModule.writeGpio (c : RadioModule) (bits : BitVec 32) (ok : Bool) : RadioModule :=
  { c with device := { c.device with platform := c.device.platform.writeGpio bits ok } }

/-- Standby, then everything is freed.  The result of the GPIO write is ignored. -/
def sa818End (c : RadioModule) (gpioOk : Bool) : Bool × PlatformContext :=
  (true, c.device.platform.writeGpio 0 gpioOk)

def sa818FrequencyRssi (c : RadioModule) (frequency : ℚ) (a : Answer) :
    Option ℚ × RadioModule :=
  match sa818Command c (.scan frequency) a with
  | (some result, c) => (some (if result.head? = some '0' then 255 else 0), c)
  | (none, c) => (none, c)

/-- The cached parameters of a channel.  The inner `none` is a failure; the outer one is a read
outside the channel array. -/
def sa818Get (c : RadioModule) (channel : ℕ) : Option (Option RadioChannelData) :=
  if c.numberOfChannels ≤ channel then some none
  else (c.device.channels.bind (·[channel]?)).map some

def sa818Receive (c : RadioModule) (gpioOk : Bool) : Bool × RadioModule :=
  (gpioOk, c.writeGpio (sa818EnableBit ||| sa818HighPowerBit) gpioOk)

def sa818Rssi (c : RadioModule) (a : Answer) : Option ℚ × RadioModule :=
  match sa818Command c .rssi a with
  | (some result, c) => (some (atoi result), { c with lastRssi := atoi result })
  | (none, c) => (none, { c with lastRssi := 0 })

def sa818Heartbeat (c : RadioModule) (a : Answer) : Bool × RadioModule :=
  ((sa818Rssi c a).1.isSome, (sa818Rssi c a).2)

def sa818Transmit (c : RadioModule) (gpioOk : Bool) : Bool × RadioModule :=
  (gpioOk, c.writeGpio (sa818PttBit ||| sa818EnableBit ||| sa818HighPowerBit) gpioOk)

/-! ## Setting a channel -/

/-- The requested parameters `p` differ from the cached `o` in what the group command covers, as the
source compares them. -/
def groupDue (p o : RadioChannelData) : Bool :=
  !floatEqual p.bandwidth o.bandwidth
    || !floatEqual p.transmitFrequency o.transmitFrequency
    || !floatEqual p.receiveFrequency o.receiveFrequency
    || !floatEqual p.transmitSubaudibleTone o.transmitSubaudibleTone
    || !floatEqual p.receiveSubaudibleTone o.receiveSubaudibleTone
    || p.transmitDigitalCode != o.transmitDigitalCode
    || p.receiveDigitalCode != o.receiveDigitalCode
    || !floatEqual p.squelchLevel o.squelchLevel

def filterDue (p o : RadioChannelData) : Bool :=
  p.lowPassFilter != o.lowPassFilter
    || p.highPassFilter != o.highPassFilter
    || p.preemphasisDeemphasis != o.preemphasisDeemphasis

def tailDue (p o : RadioChannelData) : Bool := p.tailTone != o.tailTone

/-- The group command of `p`.  Tones and codes are always sent as `0000`. -/
def groupArgs (p : RadioChannelData) : GroupArgs where
  bandwidth := (floatEqual p.bandwidth 25).toInt
  transmitFrequency := p.transmitFrequency
  receiveFrequency := p.receiveFrequency
  receiveSubaudioOrCode := "0000".toList
  squelch := roundf (p.squelchLevel * 8)
  transmitSubaudioOrCode := "0000".toList

def filterArgs (p : RadioChannelData) : FilterArgs where
  noEmphasis := !p.preemphasisDeemphasis
  noHighPass := !p.highPassFilter
  noLowPass := !p.lowPassFilter

/-- How the platform answers the commands of one set, each asked only if its command is sent. -/
structure SetAnswers where
  group : Answer
  filter : Answer
  tail : Answer
  deriving DecidableEq

/-- Send a command if it is due; a command that is not due succeeds. -/
def sendIf (due : Bool) (c : RadioModule) (command : Command) (a : Answer) : Bool × RadioModule :=
  if due then ((sa818Command c command a).1.isSome, (sa818Command c command a).2) else (true, c)

/-- Store the current radio settings: the cache of a channel is overwritten. -/
def RadioModule.store (c : RadioModule) (channel : ℕ) (p : RadioChannelData) : RadioModule :=
  { c with device := { c.device with channels := c.device.channels.map (·.set channel p) } }

/-- The commands of a set of `p` over the cached `o`, then the cache. -/
def setCommands (c : RadioModule) (p o : RadioChannelData) (channel : ℕ) (a : SetAnswers) :
    Bool × RadioModule :=
  match sendIf (groupDue p o) c (.setGroup (groupArgs p)) a.group with
  | (false, c) => (false, c)
  | (true, c) =>
    match sendIf (filterDue p o) c (.setFilter (filterArgs p)) a.filter with
    | (false, c) => (false, c)
    | (true, c) =>
      match sendIf (tailDue p o) c (.setTail (!p.tailTone)) a.tail with
      | (false, c) => (false, c)
      | (true, c) => (true, c.store channel p)

/-- `sa818_set`, `none` for a read outside the channel array. -/
def sa818Set (c : RadioModule) (p : RadioChannelData) (channel : ℕ) (a : SetAnswers) :
    Option (Bool × RadioModule) :=
  (c.device.channels.bind (·[channel]?)).map fun o => setCommands c p o channel a

/-! ## Initialization -/

/-- What `sa818` meets: whether each allocation and the first GPIO write succeed, the answers to its
commands, and what the channel array holds when it is allocated. -/
structure Startup where
  mallocModule : Bool
  mallocDevice : Bool
  mallocBandLimits : Bool
  mallocChannels : Bool
  mallocBuffer : Bool
  gpio : Bool
  connect : Answer
  version : Answer
  scan134 : Answer
  scan400 : Answer
  scan320 : Answer
  channels : ℕ → RadioChannelData

def sa808Name : CString := "SA-808".toList
def sa868Name : CString := "SA-868".toList

/-- The band limits of the first band, in the source's order, whose probe is answered. -/
def probeBands (c : RadioModule) (e : Startup) : RadioModule :=
  match sa818FrequencyRssi c 134 e.scan134 with
  | (some _, c) => { c with bandLimits := ⟨134, 174⟩ }
  | (none, c) =>
    match sa818FrequencyRssi c 400 e.scan400 with
    | (some _, c) => { c with bandLimits := ⟨400, 480⟩ }
    | (none, c) =>
      match sa818FrequencyRssi c 320 e.scan320 with
      | (some _, c) => { c with bandLimits := ⟨320, 400⟩ }
      | (none, c) => c

/-- The device name, and the number of channels it stands for. -/
def identify (c : RadioModule) (e : Startup) : RadioModule :=
  match sa818Command c .version e.version with
  | (some result, c) =>
    { c with
      deviceName := some result
      numberOfChannels := if result = sa868Name then 16 else c.numberOfChannels }
  | (none, c) => { c with deviceName := some sa808Name }

/-- The GPIO word `sa818` powers the module up with. -/
def startupBits : BitVec 32 := sa818EnableBit ||| sa818PttBit ||| sa818HighPowerBit

/-- The context once the module has been powered up: everything but the call table is zero. -/
def poweredUp (platform : PlatformContext) : RadioModule where
  numberOfChannels := 1
  device := { platform := platform.writeGpio startupBits true }

/-- The GPIO write of `sa818` is reached and succeeds. -/
def Startup.powersUp (e : Startup) : Bool :=
  e.mallocModule && e.mallocDevice && e.mallocBandLimits && e.gpio

/-- `sa818`: the context, or `none` for null, and the platform as it leaves it. -/
def sa818 (platform : PlatformContext) (e : Startup) : Option RadioModule × PlatformContext :=
  if !e.mallocModule then (none, platform)
  else if !e.mallocDevice then (none, platform)
  else if !e.mallocBandLimits then (none, platform)
  else if !e.gpio then (none, platform.writeGpio startupBits false)
  else
    match sa818Command (poweredUp platform) .connect e.connect with
    | (none, c) => (none, c.device.platform)
    | (some _, c) =>
      let c := identify c e
      if !e.mallocChannels then (none, c.device.platform)
      else
        let c := { c with device := { c.device with
          channels := some ((List.range c.numberOfChannels).map e.channels) } }
        if !e.mallocBuffer then (none, c.device.platform)
        else
          let c := { c with device := { c.device with
            bufferSize := 100 + 20 * c.numberOfChannels, buffer := true } }
          let c := probeBands c e
          (some c, c.device.platform)

/-- **`sa818` never returns a context** — `sa818_command` refuses the connect command, the I/O
buffer being allocated only after it. -/
theorem sa818_fst (platform : PlatformContext) (e : Startup) : (sa818 platform e).1 = none := by
  have hconnect : sa818Command (poweredUp platform) .connect e.connect
      = (none, poweredUp platform) := rfl
  unfold sa818
  rw [hconnect]
  split_ifs <;> rfl

/-- What `sa818` leaves on the GPIO: its power-up word, if it got to write it. -/
theorem gpio_sa818 (platform : PlatformContext) (e : Startup) :
    (sa818 platform e).2.gpio = if e.powersUp then some startupBits else platform.gpio := by
  have hconnect : sa818Command (poweredUp platform) .connect e.connect
      = (none, poweredUp platform) := rfl
  unfold sa818 Startup.powersUp
  rw [hconnect]
  cases e.mallocModule <;> cases e.mallocDevice <;> cases e.mallocBandLimits <;> cases e.gpio <;>
    rfl

end Radio
