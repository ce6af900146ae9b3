import RtStopwatch.Ui

/-!
# The buzzer and the light sensor

`applications/notifier_buzzer.c` and `applications/sensor_light.c`. The light thread keeps two counters of its own, which its loop
passes on from round to round.
-/

namespace RtStopwatch

open Lib Code

/-- `notifier_beep_enable`. -/
def notifierBeepEnable (enable : Bool) : Code Unit := do
  store .sBeepEnabled enable
  let on : Bool ← load .sBeepEnabled
  when (!on) (buzSet false)

/-- The beep itself: the caller sleeps while it sounds. -/
def beep (ms : UInt16) : Code Unit := do
  buzSet true
  mdelay ms
  buzSet false

/-- `notifier_beep_once`. -/
def notifierBeepOnce (ms : UInt16) : Code Unit := do
  let on : Bool ← load .sBeepEnabled
  when on (beep ms)

/-- `read_do`: whether it is dark. A low pin means dark, unless inverted. -/
def readDo : Code Bool := do
  let v : Bool ← pinRead
  let invert : Bool ← load .sInvert
  pure (if invert then v else !v)

/-- What `apply_state` does in the dark. -/
def applyDark : Code Unit := do
  notifierBeepEnable false
  uiOledSetRefreshMs 300
  logI "env=dark -> beep=off, oled=300ms".toList

/-- What `apply_state` does in the light. -/
def applyLight : Code Unit := do
  notifierBeepEnable true
  uiOledSetRefreshMs 10
  logI "env=light -> beep=on, oled=10ms".toList

/-- `apply_state`. -/
def applyState (dark : Bool) : Code Unit := do
  store .sDark dark
  let isDark : Bool ← load .sDark
  if isDark then applyDark else applyLight

/-- The counters of `light_thread_entry`: how many samples in a row were dark, and how many light. They have 8 bits. -/
structure LightCounts where
  darkCnt : UInt8
  lightCnt : UInt8
  deriving DecidableEq, Repr

/-- One sample counted. -/
def LightCounts.add (n : LightCounts) (darkNow : Bool) : LightCounts :=
  if darkNow then { darkCnt := n.darkCnt + 1, lightCnt := 0 } else { darkCnt := 0, lightCnt := n.lightCnt + 1 }

/-- The hysteresis: three samples in a row against the state change it. The state is read again for each of the two tests. -/
def lightSwitch (n : LightCounts) : Code Unit := do
  let dark : Bool ← load .sDark
  if !dark && n.darkCnt ≥ 3 then applyState true
  else do
    let dark : Bool ← load .sDark
    when (dark && n.lightCnt ≥ 3) (applyState false)

/-- One sample of the light. -/
def lightSample (n : LightCounts) : Code LightCounts := do
  let darkNow ← readDo
  lightSwitch (n.add darkNow)
  pure (n.add darkNow)

/-- One sample of the light, when the linkage is enabled. -/
def lightIfEnabled (n : LightCounts) : Code LightCounts := do
  let enabled : Bool ← load .sEnabled
  if enabled then lightSample n else pure n

/-- One round of the loop of `light_thread_entry`, with the counters before and after it. -/
def lightThreadEntry (n : LightCounts) : Code LightCounts := do
  let n ← lightIfEnabled n
  mdelay 50
  pure n

/-- `sensor_light_init`, up to the start of its thread: the light is applied as it is. -/
def sensorLightInit : Code Unit := do
  let dark ← readDo
  applyState dark

/-- `sensor_light_enable`. -/
def sensorLightEnable (enable : Bool) : Code Unit := store .sEnabled enable

/-- `sensor_light_set_invert`. -/
def sensorLightSetInvert (invert : Bool) : Code Unit := store .sInvert invert

end RtStopwatch
