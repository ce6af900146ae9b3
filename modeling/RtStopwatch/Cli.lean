import RtStopwatch.Light

/-!
# The shell commands

`applications/stopwatch_cli.c`: the commands that drive the stopwatch, the pages and the settings. A command's argument is the
text after its name, or nothing; of a number only the value `atoi` gives it matters.
-/

namespace RtStopwatch

open Lib Code

/-- `cmd_sw_start`. -/
def cmdSwStart : Code Unit := do
  call .start
  kprintf "sw: start\n".toList
  notifierBeepOnce 50

/-- `cmd_sw_stop`. -/
def cmdSwStop : Code Unit := do
  call .stop
  kprintf "sw: stop\n".toList
  notifierBeepOnce 100

/-- `cmd_sw_reset`. -/
def cmdSwReset : Code Unit := do
  call .reset
  kprintf "sw: reset\n".toList
  notifierBeepOnce 30

/-- What `cmd_sw_lap` prints. The minutes are reduced to two digits. -/
def lapText (lapMs : UInt32) : List Char :=
  "sw: lap=".toList ++ fmt0U 2 (lapMs / 60000 % 100).toNat ++ ':' :: fmt0U 2 (lapMs / 1000 % 60).toNat ++
    '.' :: fmt0U 2 (lapMs / 10 % 100).toNat ++ ['\n']

/-- `cmd_sw_lap`. -/
def cmdSwLap : Code Unit := do
  let r : RtErr × Option UInt32 ← call .lap
  match r.1 with
  | .eok => do
    kprintf (lapText (r.2.getD 0))
    notifierBeepOnce 40
  | .enomem => kprintf "sw: lap failed\n".toList

/-- `cmd_sw_clear_laps`. -/
def cmdSwClearLaps : Code Unit := do
  call .clearLaps
  kprintf "sw: clear laps\n".toList

/-- The name of a state in the report. -/
def stateName : StopwatchState → List Char
  | .running => "RUNNING".toList
  | .paused => "PAUSED".toList
  | .idle => "IDLE".toList

/-- A line of the report: a value in milliseconds and in human form. -/
def msLine (label : List Char) (v : UInt32) : List Char :=
  label ++ fmtU v.toNat ++ " ms (".toList ++ formatTime v 24 ++ ")\n".toList

/-- The lines of the report on the laps. -/
def printLapStats (st : LapStats) (cnt : UInt16) : Code Unit := do
  kprintf (msLine "min:   ".toList st.minMs)
  kprintf (msLine "max:   ".toList st.maxMs)
  kprintf (msLine "avg:   ".toList (st.sumMs / cnt.toUInt32))

/-- `cmd_sw_status`. -/
def cmdSwStatus : Code Unit := do
  let s : StopwatchState ← call .getState
  let total : UInt32 ← call .getTotalMs
  let cnt : UInt16 ← call .getLapCount
  let st ← readLapStats cnt.toNat 0 LapStats.init
  kprintf ("state: ".toList ++ stateName s ++ ['\n'])
  kprintf (msLine "total: ".toList total)
  kprintf ("laps:  ".toList ++ fmtU cnt.toNat ++ ['\n'])
  when (0 < cnt) (printLapStats st cnt)

/-- `cmd_sw_oled_rate`. `ms` is what `atoi` gives; its low 16 bits are passed on. -/
def cmdSwOledRate : Option Int32 → Code Unit
  | none => kprintf "usage: sw_oled_rate <ms>\n".toList
  | some n => do
    let ms := if n < 10 then 10 else n
    uiOledSetRefreshMs ms.toUInt32.toUInt16
    kprintf ("sw_oled_rate: ".toList ++ fmtD ms.toInt ++ " ms\n".toList)

/-- `cmd_sw_page`. -/
def cmdSwPage (arg : Option (List Char)) : Code Unit :=
  if arg = some "main".toList then do
    uiOledSetPage 0
    kprintf "sw_page: main\n".toList
  else if arg = some "laps".toList then do
    uiOledSetPage 1
    kprintf "sw_page: laps\n".toList
  else kprintf "usage: sw_page main|laps\n".toList

/-- The commands with an argument `on` or `off`: what they do with it, and their name in what they print. -/
def cmdSwitch (name : List Char) (set : Bool → Code Unit) (arg : Option (List Char)) : Code Unit :=
  if arg = some "on".toList then do
    set true
    kprintf (name ++ ": on\n".toList)
  else if arg = some "off".toList then do
    set false
    kprintf (name ++ ": off\n".toList)
  else kprintf ("usage: ".toList ++ name ++ " on|off\n".toList)

/-- `cmd_sw_beep`. -/
def cmdSwBeep : Option (List Char) → Code Unit := cmdSwitch "sw_beep".toList notifierBeepEnable

/-- `cmd_sw_light`. -/
def cmdSwLight : Option (List Char) → Code Unit := cmdSwitch "sw_light".toList sensorLightEnable

/-- `cmd_sw_light_invert`. -/
def cmdSwLightInvert : Option (List Char) → Code Unit := cmdSwitch "sw_light_invert".toList sensorLightSetInvert

/-- `cmd_sw_laps_prev`. -/
def cmdSwLapsPrev : Code Unit := do
  uiOledLapsPrev
  kprintf "sw_laps_prev\n".toList

/-- `cmd_sw_laps_next`. -/
def cmdSwLapsNext : Code Unit := do
  uiOledLapsNext
  kprintf "sw_laps_next\n".toList

/-- A command line. -/
inductive Cmd where
  | swStart | swStop | swReset | swLap | swClearLaps | swStatus
  | swOledRate (ms : Option Int32)
  | swPage (arg : Option (List Char))
  | swBeep (arg : Option (List Char))
  | swLight (arg : Option (List Char))
  | swLightInvert (arg : Option (List Char))
  | swLapsPrev | swLapsNext
  deriving DecidableEq, Repr

/-- The code the shell runs for a command line. -/
def Cmd.code : Cmd → Code Unit
  | .swStart => cmdSwStart
  | .swStop => cmdSwStop
  | .swReset => cmdSwReset
  | .swLap => cmdSwLap
  | .swClearLaps => cmdSwClearLaps
  | .swStatus => cmdSwStatus
  | .swOledRate ms => cmdSwOledRate ms
  | .swPage arg => cmdSwPage arg
  | .swBeep arg => cmdSwBeep arg
  | .swLight arg => cmdSwLight arg
  | .swLightInvert arg => cmdSwLightInvert arg
  | .swLapsPrev => cmdSwLapsPrev
  | .swLapsNext => cmdSwLapsNext

end RtStopwatch
