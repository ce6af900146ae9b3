import RtStopwatch.Lib.Machine
import RtStopwatch.Stopwatch
import RtStopwatch.Text

/-!
# The CSV stream

The CSV part of `applications/stopwatch_cli.c`: the timer callback that prints a row, and the commands that switch it. Its static
variables are used by nothing else, so its functions pass them on explicitly. Beside the new values they give the texts they print
and the calls they make to the kernel's timers, in order. Last, the stream as it leaves the board.
-/

namespace RtStopwatch

/-- The static variables. `csv_timer` is null, or the timer with the ticks it was last given. -/
structure Csv where
  csvTimer : Option UInt32
  csvPeriodMs : UInt32
  csvHeader : Bool
  csvHuman : Bool
  deriving DecidableEq, Repr

/-- Their initial values. -/
def Csv.boot : Csv := { csvTimer := none, csvPeriodMs := 200, csvHeader := false, csvHuman := false }

/-- A row in milliseconds. -/
def csvRowMs (t : UInt32) (n : UInt16) (lap : UInt32) : List Char :=
  fmtU t.toNat ++ ',' :: fmtU n.toNat ++ ',' :: fmtU lap.toNat ++ ',' :: fmtU t.toNat ++ ['\n']

/-- A row in human form: the lap count stays a number. -/
def csvRowHuman (t : UInt32) (n : UInt16) (lap : UInt32) : List Char :=
  formatTime t 24 ++ ',' :: fmtU n.toNat ++ ',' :: formatTime lap 24 ++ ',' :: formatTime t 24 ++ ['\n']

/-- The header. -/
def csvHeaderText : List Char := "t,lap_idx,lap_ms,total\n".toList

/-- `csv_timer_cb`, when `stopwatch_get_total_ms`, `stopwatch_get_lap_count` and `stopwatch_get_latest_lap_ms` return `t`, `n` and
`latest`; the last is only called when there are laps. -/
def csvTimerCb (s : Csv) (t : UInt32) (n : UInt16) (latest : UInt32) : List (List Char) × Csv :=
  let lap := if n > 0 then latest else 0
  let header := if s.csvHeader then [csvHeaderText] else []
  let row := if !s.csvHuman then csvRowMs t n lap else csvRowHuman t n lap
  (header ++ [row], { s with csvHeader := false })

/-- What the commands do: print, or call the kernel's timer functions on `csv_timer`. -/
inductive CsvAct where
  | kprintf (text : List Char)
  | timerCreate (ticks : UInt32)
  | timerSetTime (ticks : UInt32)
  | timerStart
  | timerStop
  deriving DecidableEq, Repr

/-- `ms_to_ticks`: rounded up in 64 bits, never 0, then cut to 32 bits. -/
def msToTicks (ms : UInt32) : UInt32 :=
  let ticks := (ms.toUInt64 * rtTickPerSecond + 999) / 1000
  (if ticks = 0 then 1 else ticks).toUInt32

/-- The period that `sw_csv on` sets: what `atoi` gives of the argument, as an unsigned number and at least 10. -/
def csvPeriod (atoi : Option Int32) (periodMs : UInt32) : UInt32 :=
  match atoi with
  | some n => if n.toUInt32 < 10 then 10 else n.toUInt32
  | none => periodMs

/-- `sw_csv on`. `heap` says whether `rt_timer_create` finds memory. -/
def csvOn (atoi : Option Int32) (heap : Bool) (s : Csv) : List CsvAct × Csv :=
  let s := { s with csvPeriodMs := csvPeriod atoi s.csvPeriodMs }
  let t := msToTicks s.csvPeriodMs
  let started := [.timerStart, .kprintf ("sw.csv: on, ".toList ++ fmtU s.csvPeriodMs.toNat ++ " ms\n".toList)]
  match s.csvTimer with
  | none =>
    if heap then (.timerCreate t :: started, { s with csvTimer := some t })
    else ([.timerCreate t, .kprintf "sw.csv: create timer failed\n".toList], s)
  | some _ => (.timerSetTime t :: started, { s with csvTimer := some t })

/-- `cmd_sw_csv`, with its first argument and what `atoi` gives of its second. -/
def cmdSwCsv (arg : Option (List Char)) (atoi : Option Int32) (heap : Bool) (s : Csv) : List CsvAct × Csv :=
  if arg = some "on".toList then csvOn atoi heap s
  else if arg = some "off".toList then
    ((if s.csvTimer.isSome then [.timerStop] else []) ++ [.kprintf "sw.csv: off\n".toList], s)
  else ([.kprintf "usage: sw.csv on [period_ms]|off\n".toList], s)

/-- `cmd_sw_csv_header`. -/
def cmdSwCsvHeader (arg : Option (List Char)) (s : Csv) : List CsvAct × Csv :=
  if arg = some "on".toList then ([.kprintf "sw_csv_header: on\n".toList], { s with csvHeader := true })
  else if arg = some "off".toList then ([.kprintf "sw_csv_header: off\n".toList], { s with csvHeader := false })
  else ([.kprintf "usage: sw_csv_header on|off\n".toList], s)

/-- `cmd_sw_timefmt`. -/
def cmdSwTimefmt (arg : Option (List Char)) (s : Csv) : List CsvAct × Csv :=
  if arg = some "human".toList then ([.kprintf "sw_timefmt: human\n".toList], { s with csvHuman := true })
  else if arg = some "ms".toList then ([.kprintf "sw_timefmt: ms\n".toList], { s with csvHuman := false })
  else ([.kprintf "usage: sw_timefmt human|ms\n".toList], s)

/-! ## The stream -/

/-- What happens to the stream: `sw_csv_header on`, or the timer fires and finds `t`, `n` and `latest`. -/
inductive CsvEvent where
  | headerOn
  | tick (t : UInt32) (n : UInt16) (latest : UInt32)
  deriving DecidableEq, Repr

/-- The machine that prints the stream. The line that the command itself prints is no part of it. -/
def csvMachine : Lib.Machine Csv CsvEvent (List (List Char)) where
  step s
    | .headerOn => ([], (cmdSwCsvHeader (some "on".toList) s).2)
    | .tick t n latest => csvTimerCb s t n latest

/-- A text on the wire. The serial driver may put a CR in front of each LF. -/
def wireBytes (crlf : Bool) (text : List Char) : List UInt8 :=
  text.flatMap fun ch => if ch = '\n' ∧ crlf = true then [0x0D, 0x0A] else [UInt8.ofNat ch.toNat]

/-- Texts on the wire, one after the other; `crlf k` says how the lines of the `k`-th one end. -/
def wire (crlf : ℕ → Bool) (texts : List (List Char)) : List UInt8 := (texts.mapIdx fun k text => wireBytes (crlf k) text).flatten

end RtStopwatch
