import HtFirmware.Radio.Sa818

/-!
# Radio/Startup — does `sa818` set a module up?

A module that answers as its protocol says should come out of `sa818` as a context: sixteen channels
for an SA-868 and one for the others, the limits of the first band whose probe it accepts, an I/O
buffer that holds its commands (`SetUp`).

No module does.  The connect command goes through `sa818_command`, which refuses to work without
the I/O buffer, and the buffer is allocated once the connect command was answered
(`sa818_fst`).  Were the buffer there, an SA-868 would still be taken for a module of one channel:
what it reports is its name and a line end, and the whole of that is compared with the name
(`numberOfChannels_identify`).
-/

namespace Radio

/-! ## What the module answers -/

/-- The command is written whole, and a response comes that starts as the protocol says. -/
def Accepts (command : Command) (a : Answer) : Prop :=
  a.written = command.format.length ∧ ∃ rest, a.received = some (command.response ++ rest)

/-- Every allocation and the GPIO write succeed, and the module answers as its protocol says. -/
structure AnswersWell (e : Startup) : Prop where
  mallocs : (e.mallocModule && e.mallocDevice && e.mallocBandLimits && e.mallocChannels
    && e.mallocBuffer) = true
  gpio : e.gpio = true
  connect : Accepts .connect e.connect
  version : Accepts .version e.version
  not134_400 : ¬ (Accepts (.scan 134) e.scan134 ∧ Accepts (.scan 400) e.scan400)
  not134_320 : ¬ (Accepts (.scan 134) e.scan134 ∧ Accepts (.scan 320) e.scan320)
  not400_320 : ¬ (Accepts (.scan 400) e.scan400 ∧ Accepts (.scan 320) e.scan320)

/-- The version the module reports starts with SA-868. -/
def ReportsSa868 (e : Startup) : Prop :=
  ∃ rest, e.version.received = some (Command.version.response ++ (sa868Name ++ rest))

/-! ## A context set up -/

/-- What the context of a module should be. -/
structure SetUp (e : Startup) (c : RadioModule) : Prop where
  channels : ∃ l, c.device.channels = some l ∧ l.length = c.numberOfChannels
  sixteen : c.numberOfChannels = 16 ↔ ReportsSa868 e
  one : c.numberOfChannels = 1 ↔ ¬ ReportsSa868 e
  band134 : Accepts (.scan 134) e.scan134 → c.bandLimits = ⟨134, 174⟩
  band400 : ¬ Accepts (.scan 134) e.scan134 → Accepts (.scan 400) e.scan400 →
    c.bandLimits = ⟨400, 480⟩
  band320 : ¬ Accepts (.scan 134) e.scan134 → ¬ Accepts (.scan 400) e.scan400 →
    Accepts (.scan 320) e.scan320 → c.bandLimits = ⟨320, 400⟩
  buffer : c.device.buffer = true
  bufferSize : 100 + 20 * c.numberOfChannels ≤ c.device.bufferSize

/-- `sa818` returns a context, set up for the module. -/
def Initialises (platform : PlatformContext) (e : Startup) : Prop :=
  ∃ c, (sa818 platform e).1 = some c ∧ SetUp e c

/-- **No module is ever set up**, however it answers. -/
theorem not_initialises (platform : PlatformContext) (e : Startup) : ¬ Initialises platform e := by
  rintro ⟨c, hc, -⟩
  rw [sa818_fst] at hc
  cases hc

/-- An SA-868 for 134 MHz that answers everything. -/
def answering : Startup where
  mallocModule := true
  mallocDevice := true
  mallocBandLimits := true
  mallocChannels := true
  mallocBuffer := true
  gpio := true
  connect := ⟨15, some "+DMOCONNECT:0\r\n".toList⟩
  version := ⟨12, some "+VERSION:SA-868\r\n".toList⟩
  scan134 := ⟨12, some "S=1\r\n".toList⟩
  scan400 := ⟨12, some "\r\n".toList⟩
  scan320 := ⟨12, some "\r\n".toList⟩
  channels := fun _ => ⟨25, 1, 134, 134, 0, 0, 0, 0, 0, 1, false, false, false, false⟩

/-- A response that is too short is not accepted. -/
theorem not_accepts_scan (f : ℚ) (written : ℤ) :
    ¬ Accepts (.scan f) ⟨written, some "\r\n".toList⟩ := by
  rintro ⟨-, rest, hrest⟩
  have hresponse : (Command.scan f).response = ['S', '='] := by
    change "S=".toList = _
    decide
  have hsent : "\r\n".toList = ['\r', '\n'] := by decide
  rw [hresponse, hsent] at hrest
  have hhead : '\r' = 'S' := (List.cons.inj (Option.some.inj hrest)).1
  exact absurd hhead (by decide)

theorem answersWell_answering : AnswersWell answering where
  mallocs := by decide
  gpio := rfl
  connect := ⟨by decide, [], by decide⟩
  version := ⟨by decide, "SA-868\r\n".toList, by decide⟩
  not134_400 h := not_accepts_scan _ _ h.2
  not134_320 h := not_accepts_scan _ _ h.2
  not400_320 h := not_accepts_scan _ _ h.2

/-- **A module that answers everything is refused.** -/
theorem answering_not_initialised : AnswersWell answering ∧ ¬ Initialises {} answering := by
  refine ⟨answersWell_answering, ?_⟩
  rintro ⟨c, hc, -⟩
  rw [sa818_fst] at hc
  cases hc

/-! ## The version report -/

/-- **With a buffer in place, the number of channels becomes sixteen only if what the module reports
is the name and nothing else**, so never where the line end is part of it. -/
theorem numberOfChannels_identify {c : RadioModule} {e : Startup} {report : CString}
    (hbuffer : c.device.buffer = true)
    (hreport : reply c.device.bufferSize .version e.version = .ok report) :
    (identify c e).numberOfChannels = if report = sa868Name then 16 else c.numberOfChannels := by
  have hcommand : sa818Command c .version e.version
      = (some report, c.exchange .version e.version) := by
    rw [sa818Command, if_pos hbuffer, hreport]
  rw [identify, hcommand]
  rfl

example : (identify { poweredUp {} with device := { platform := {}, buffer := true, bufferSize := 120 } }
    answering).numberOfChannels = 1 := by decide +kernel

end Radio
