import HtFirmware.Radio.Format

/-!
# Radio/Module — the radio API's context, and the platform under it

`RadioModule` is the context `radio.h` hands to every call, with the driver's private part in
`device`.  The platform is two things a driver can act on: a GPIO word, of which the model keeps the
last value written successfully, and a serial line, of which it keeps every command written and
whether the module acknowledged it.  What the platform does with a call is an input of the model.
-/

namespace Radio

/-! ## Channel parameters -/

/-- The parameters of a channel (`radio_channel_data`). -/
structure RadioChannelData where
  bandwidth : ℚ
  transmitPower : ℚ
  transmitFrequency : ℚ
  receiveFrequency : ℚ
  transmitSubaudibleTone : ℚ
  receiveSubaudibleTone : ℚ
  transmitDigitalCode : UInt16
  receiveDigitalCode : UInt16
  squelchLevel : ℚ
  volume : ℚ
  preemphasisDeemphasis : Bool
  lowPassFilter : Bool
  highPassFilter : Bool
  tailTone : Bool
  deriving DecidableEq

/-- The edges of a band (`radio_band_limits`). -/
structure RadioBandLimits where
  low : ℚ
  high : ℚ
  deriving DecidableEq

/-! ## Commands -/

/-- The arguments of `AT+DMOSETGROUP`. -/
structure GroupArgs where
  bandwidth : ℤ
  transmitFrequency : ℚ
  receiveFrequency : ℚ
  receiveSubaudioOrCode : CString
  squelch : ℤ
  transmitSubaudioOrCode : CString
  deriving DecidableEq

/-- The arguments of `AT+DMOSETFILTER`, each printed as `0` or `1`. -/
structure FilterArgs where
  noEmphasis : Bool
  noHighPass : Bool
  noLowPass : Bool
  deriving DecidableEq

/-- The commands the driver writes. -/
inductive Command where
  | connect
  | version
  | setGroup (g : GroupArgs)
  | setFilter (f : FilterArgs)
  | setTail (noTail : Bool)
  | rssi
  | scan (frequency : ℚ)
  deriving DecidableEq

namespace Command

/-- The text of a command before `snprintf` cuts it to a buffer. -/
def format : Command → CString
  | connect => "AT+DMOCONNECT\r\n".toList
  | version => "AT+VERSION\r\n".toList
  | setGroup g =>
    "AT+DMOSETGROUP=".toList ++ decimal g.bandwidth ++ [','] ++ fixed4 g.transmitFrequency ++ [',']
      ++ fixed4 g.receiveFrequency ++ [','] ++ g.receiveSubaudioOrCode ++ [',']
      ++ decimal g.squelch ++ [','] ++ g.transmitSubaudioOrCode ++ "\r\n".toList
  | setFilter f =>
    "AT+DMOSETFILTER=".toList ++ decimal f.noEmphasis.toInt ++ [','] ++ decimal f.noHighPass.toInt
      ++ [','] ++ decimal f.noLowPass.toInt ++ "\r\n".toList
  | setTail t => "AT+DMOSETTAIL=".toList ++ decimal t.toInt ++ "\r\n".toList
  | rssi => "RSSI?\r\n".toList
  | scan f => "S+".toList ++ fixed4 f ++ "\r\n".toList

/-- The text written: channel settings are printed into the I/O buffer, a scan into 50 bytes. -/
def text (bufferSize : ℕ) (c : Command) : CString :=
  match c with
  | setGroup _ | setFilter _ | setTail _ => snprintf bufferSize c.format
  | scan _ => snprintf 50 c.format
  | connect | version | rssi => c.format

/-- What a successful response starts with. -/
def response : Command → CString
  | connect => "+DMOCONNECT:0\r\n".toList
  | version => "+VERSION:".toList
  | setGroup _ => "+DMOSETGROUP:0\r\n".toList
  | setFilter _ => "+DMOSETFILTER:0\r\n".toList
  | setTail _ => "+DMOSETTAIL:0\r\n".toList
  | rssi => "RSSI=".toList
  | scan _ => "S=".toList

end Command

/-! ## The platform -/

/-- What the platform does with one command: the value `write` returns, then what `read` stores,
`none` when it fails. -/
structure Answer where
  written : ℤ
  received : Option CString
  deriving DecidableEq

/-- A command on the line, as written, and whether the module acknowledged it. -/
structure Exchange where
  command : Command
  text : CString
  acknowledged : Bool
  deriving DecidableEq

/-- The platform a driver acts on (`platform_context`). -/
structure PlatformContext where
  gpio : Option (BitVec 32) := none
  line : List Exchange := []
  deriving DecidableEq

/-- A GPIO write that fails leaves the last value in place. -/
def PlatformContext.writeGpio (w : PlatformContext) (bits : BitVec 32) (ok : Bool) :
    PlatformContext :=
  if ok then { w with gpio := some bits } else w

/-! ## The context -/

/-- The driver's private context (`sa818_module`).  `buffer` says whether the I/O buffer is
allocated; `channels` is `none` until the channel array is. -/
structure Sa818Module where
  platform : PlatformContext
  channels : Option (List RadioChannelData) := none
  buffer : Bool := false
  bufferSize : ℕ := 0
  deriving DecidableEq

/-- The context of the radio API (`radio_module`), its call table being the driver's. -/
structure RadioModule where
  errorMessage : Option String := none
  lastRssi : ℚ := 0
  deviceName : Option CString := none
  bandLimits : RadioBandLimits := ⟨0, 0⟩
  numberOfChannels : ℕ
  device : Sa818Module
  deriving DecidableEq

end Radio
