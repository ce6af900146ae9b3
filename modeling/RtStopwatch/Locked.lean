import RtStopwatch.Mutex
import RtStopwatch.Stopwatch

/-!
# The stopwatch, access by access

`applications/stopwatch.c` and `timebase_get_us` again, now as the accesses the functions make to `g_sw`, to the statics of
`timebase.c`, to the cycle counter and to the kernel tick, one after another, between `rt_mutex_take` and `rt_mutex_release`. Another
thread may run between any two of them. `g_inited` is read before the mutex is taken; `main` has set it before the threads start.
-/

namespace RtStopwatch

open Lib

/-- The variables of `stopwatch.c` and `timebase.c`. -/
inductive SwVar where
  | gInited
  | state | stateStartTick | accumulatedMs | stateStartUs | lastLapTotalMs | lapDurationsMs (i : ℕ) | lapCount
  | cpuHz | dwtOk | lastCyc | totalCyc
  deriving DecidableEq, Repr

/-- Their types. -/
@[reducible] def SwVar.Ty : SwVar → Type
  | .gInited | .dwtOk => Bool
  | .state => StopwatchState
  | .stateStartTick | .accumulatedMs | .lastLapTotalMs | .lapDurationsMs _ | .cpuHz | .lastCyc => UInt32
  | .stateStartUs | .totalCyc => UInt64
  | .lapCount => UInt16

/-- What they hold. -/
structure SwMem (c : Config) where
  sw : Stopwatch c
  tb : Timebase
  deriving DecidableEq, Repr

variable {c : Config}

/-- The value of a variable. -/
@[reducible] def SwMem.load (m : SwMem c) : (v : SwVar) → v.Ty
  | .gInited => m.sw.gInited
  | .state => m.sw.state
  | .stateStartTick => m.sw.stateStartTick
  | .accumulatedMs => m.sw.accumulatedMs
  | .stateStartUs => m.sw.stateStartUs
  | .lastLapTotalMs => m.sw.lastLapTotalMs
  | .lapDurationsMs i => m.sw.slot i
  | .lapCount => m.sw.lapCount
  | .cpuHz => m.tb.cpuHz
  | .dwtOk => m.tb.dwtOk
  | .lastCyc => m.tb.lastCyc
  | .totalCyc => m.tb.totalCyc

/-- An assignment to a variable. The code never writes past the lap array. -/
def SwMem.store (m : SwMem c) : (v : SwVar) → v.Ty → SwMem c
  | .gInited, x => { m with sw := { m.sw with gInited := x } }
  | .state, x => { m with sw := { m.sw with state := x } }
  | .stateStartTick, x => { m with sw := { m.sw with stateStartTick := x } }
  | .accumulatedMs, x => { m with sw := { m.sw with accumulatedMs := x } }
  | .stateStartUs, x => { m with sw := { m.sw with stateStartUs := x } }
  | .lastLapTotalMs, x => { m with sw := { m.sw with lastLapTotalMs := x } }
  | .lapDurationsMs i, x => { m with sw := { m.sw with lapDurationsMs := m.sw.lapDurationsMs.setIfInBounds i x } }
  | .lapCount, x => { m with sw := { m.sw with lapCount := x } }
  | .cpuHz, x => { m with tb := { m.tb with cpuHz := x } }
  | .dwtOk, x => { m with tb := { m.tb with dwtOk := x } }
  | .lastCyc, x => { m with tb := { m.tb with lastCyc := x } }
  | .totalCyc, x => { m with tb := { m.tb with totalCyc := x } }

/-- The accesses: to a variable, to `DWT->CYCCNT`, to the kernel tick; and `stopwatch_init` as a whole, which the calls make only
before `main` has made it. -/
inductive Access where
  | load (v : SwVar)
  | store (v : SwVar) (x : v.Ty)
  | cyccnt
  | rtTickGet
  | stopwatchInit

/-- What they result in. -/
@[reducible] def Access.Result : Access → Type
  | .load v => v.Ty
  | .store _ _ => Unit
  | .cyccnt | .rtTickGet => UInt32
  | .stopwatchInit => RtErr

/-- What an access does at an instant, on some hardware. -/
def Access.perform (hw : Hw) (t : Instant) (a : Access) (m : SwMem c) : a.Result × SwMem c :=
  match a with
  | .load v => (m.load v, m)
  | .store v x => ((), m.store v x)
  | .cyccnt => ((hw.moveTo t).cyccnt, m)
  | .rtTickGet => ((hw.moveTo t).rtTick, m)
  | .stopwatchInit =>
    let (e, sw, b) := RtStopwatch.stopwatchInit boardPlatform m.sw { tb := m.tb, hw := hw.moveTo t }
    (e, { sw := sw, tb := b.tb })

/-- The code of a call. -/
abbrev LockedCode (α : Type) : Type := LockProg Access Access.Result α

namespace Locked

/-- The read of a variable. -/
def load (v : SwVar) : LockedCode v.Ty := .act (.access (.load v)) .pure

/-- The write of a variable. -/
def store (v : SwVar) (x : v.Ty) : LockedCode Unit := .act (.access (.store v x)) .pure

/-- `DWT->CYCCNT`. -/
def cyccnt : LockedCode UInt32 := .act (.access .cyccnt) .pure

/-- `rt_tick_get`. -/
def rtTickGet : LockedCode UInt32 := .act (.access .rtTickGet) .pure

/-- `rt_mutex_take(g_sw.lock, RT_WAITING_FOREVER)`. -/
def take : LockedCode Unit :=
  .act .enter fun (got : Bool) => if got then .pure () else .act .resume fun _ => .pure ()

/-- `rt_mutex_release(g_sw.lock)`. -/
def release : LockedCode Unit := .act .leave .pure

/-- `timebase_get_us`. -/
def timebaseGetUs : LockedCode UInt64 := do
  let dwtOk : Bool ← load .dwtOk
  if dwtOk then
    let cur ← cyccnt
    let lastCyc : UInt32 ← load .lastCyc
    let delta := cur - lastCyc
    store .lastCyc cur
    let totalCyc : UInt64 ← load .totalCyc
    store .totalCyc (totalCyc + delta.toUInt64)
    let totalCyc : UInt64 ← load .totalCyc
    let cpuHz : UInt32 ← load .cpuHz
    pure (totalCyc * 1000000 / cpuHz.toUInt64)
  else
    let ticks ← rtTickGet
    pure (ticks.toUInt64 * 1000000 / rtTickPerSecond)

/-- `get_now_total_ms_unsafe`. -/
def getNowTotalMsUnsafe : LockedCode UInt32 := do
  let state : StopwatchState ← load .state
  let startUs : UInt64 ← load .stateStartUs
  if state = .running ∧ startUs ≠ 0 then
    let nowUs ← timebaseGetUs
    let startUs : UInt64 ← load .stateStartUs
    let deltaUs := nowUs - startUs
    let accumulatedMs : UInt32 ← load .accumulatedMs
    pure (accumulatedMs + (deltaUs / 1000).toUInt32)
  else load .accumulatedMs

/-- `memset(g_sw.lap_durations_ms, 0, ..)`, from slot `i` on. -/
def clearLaps : ℕ → ℕ → LockedCode Unit
  | 0, _ => pure ()
  | n + 1, i => do
    store (.lapDurationsMs i) (0 : UInt32)
    clearLaps n (i + 1)

/-- The `memmove` of `stopwatch_lap`, from slot `i` on. -/
def moveLaps : ℕ → ℕ → LockedCode Unit
  | 0, _ => pure ()
  | n + 1, i => do
    let x : UInt32 ← load (.lapDurationsMs (i + 1))
    store (.lapDurationsMs i) x
    moveLaps n (i + 1)

/-- The first line of a command: `if (!g_inited) { if (stopwatch_init() != RT_EOK) return; }`. -/
def whenInited (failed : RtErr → Ret) (body : LockedCode Ret) : LockedCode Ret := do
  let gInited : Bool ← load .gInited
  if gInited then body
  else
    let r ← (.act (.access .stopwatchInit) .pure : LockedCode RtErr)
    match r with
    | .eok => body
    | .enomem => pure (failed r)

/-- The first line of a query: `if (!g_inited) { return v; }`. -/
def ifInited (v : Ret) (body : LockedCode Ret) : LockedCode Ret := do
  let gInited : Bool ← load .gInited
  if gInited then body else pure v

/-- `stopwatch_start`. -/
def stopwatchStart : LockedCode Ret :=
  whenInited (fun _ => .done) do
    take
    let state : StopwatchState ← load .state
    if state = .running then
      release
      pure .done
    else
      let tick ← rtTickGet
      store .stateStartTick tick
      let us ← timebaseGetUs
      store .stateStartUs us
      store .state StopwatchState.running
      release
      pure .done

/-- What `stopwatch_stop` does to a running segment: the time since its start is accumulated. -/
def accumulate : LockedCode Unit := do
  let nowUs ← timebaseGetUs
  let startUs : UInt64 ← load .stateStartUs
  let accumulatedMs : UInt32 ← load .accumulatedMs
  store .accumulatedMs (accumulatedMs + ((nowUs - startUs) / 1000).toUInt32)
  store .stateStartUs (0 : UInt64)

/-- `stopwatch_stop` under the mutex. -/
def stopBody : LockedCode Unit := do
  let state : StopwatchState ← load .state
  if state = .running then
    let startUs : UInt64 ← load .stateStartUs
    if startUs ≠ 0 then accumulate else pure ()
    store .state StopwatchState.paused
  else pure ()

/-- `stopwatch_stop`. -/
def stopwatchStop : LockedCode Ret :=
  whenInited (fun _ => .done) do
    take
    stopBody
    release
    pure .done

/-- `stopwatch_reset` under the mutex. -/
def resetBody (c : Config) : LockedCode Unit := do
  store .accumulatedMs (0 : UInt32)
  store .lastLapTotalMs (0 : UInt32)
  store .lapCount (0 : UInt16)
  clearLaps c.maxLaps 0
  let state : StopwatchState ← load .state
  if state = .running then
    let tick ← rtTickGet
    store .stateStartTick tick
    let us ← timebaseGetUs
    store .stateStartUs us
  else
    store .state StopwatchState.idle
    store .stateStartUs (0 : UInt64)

/-- `stopwatch_reset`. -/
def stopwatchReset (c : Config) : LockedCode Ret :=
  whenInited (fun _ => .done) do
    take
    resetBody c
    release
    pure .done

/-- The lap array after a lap: appended, or, when the array is full, the oldest lap dropped. -/
def storeLap (c : Config) (lapMs : UInt32) : LockedCode Unit := do
  let lapCount : UInt16 ← load .lapCount
  if lapCount.toNat < c.maxLaps then
    store (.lapDurationsMs lapCount.toNat) lapMs
    store .lapCount (lapCount + 1)
  else
    moveLaps (c.maxLaps - 1) 0
    store (.lapDurationsMs (c.maxLaps - 1)) lapMs

/-- `stopwatch_lap` under the mutex. -/
def lapBody (c : Config) : LockedCode UInt32 := do
  let totalMs ← getNowTotalMsUnsafe
  let lastLapTotalMs : UInt32 ← load .lastLapTotalMs
  let lapMs := totalMs - lastLapTotalMs
  storeLap c lapMs
  store .lastLapTotalMs totalMs
  pure lapMs

/-- `stopwatch_lap`. -/
def stopwatchLap (c : Config) : LockedCode Ret :=
  whenInited (fun r => .lap r none) do
    take
    let lapMs ← lapBody c
    release
    pure (.lap .eok (some lapMs))

/-- `stopwatch_get_state`. -/
def stopwatchGetState : LockedCode Ret :=
  ifInited (.state .idle) do
    take
    let s : StopwatchState ← load .state
    release
    pure (.state s)

/-- `stopwatch_get_total_ms`. -/
def stopwatchGetTotalMs : LockedCode Ret :=
  ifInited (.ms 0) do
    take
    let v ← getNowTotalMsUnsafe
    release
    pure (.ms v)

/-- `stopwatch_get_lap_count`. -/
def stopwatchGetLapCount : LockedCode Ret :=
  ifInited (.count 0) do
    take
    let n : UInt16 ← load .lapCount
    release
    pure (.count n)

/-- `stopwatch_get_lap_ms` under the mutex. -/
def lapMsBody (index : UInt16) : LockedCode UInt32 := do
  let lapCount : UInt16 ← load .lapCount
  if index < lapCount then load (.lapDurationsMs index.toNat) else pure 0

/-- `stopwatch_get_lap_ms`. -/
def stopwatchGetLapMs (index : UInt16) : LockedCode Ret :=
  ifInited (.ms 0) do
    take
    let v ← lapMsBody index
    release
    pure (.ms v)

/-- `stopwatch_get_latest_lap_ms` under the mutex. -/
def latestLapBody : LockedCode UInt32 := do
  let lapCount : UInt16 ← load .lapCount
  if 0 < lapCount then
    let lapCount : UInt16 ← load .lapCount
    load (.lapDurationsMs (lapCount.toNat - 1))
  else pure 0

/-- `stopwatch_get_latest_lap_ms`. -/
def stopwatchGetLatestLapMs : LockedCode Ret :=
  ifInited (.ms 0) do
    take
    let v ← latestLapBody
    release
    pure (.ms v)

/-- `stopwatch_clear_laps` under the mutex. -/
def clearLapsBody (c : Config) : LockedCode Unit := do
  store .lapCount (0 : UInt16)
  let totalMs ← getNowTotalMsUnsafe
  store .lastLapTotalMs totalMs
  clearLaps c.maxLaps 0

/-- `stopwatch_clear_laps`. -/
def stopwatchClearLaps (c : Config) : LockedCode Ret :=
  ifInited .done do
    take
    clearLapsBody c
    release
    pure .done

/-- The code of each call. -/
def code (c : Config) : Op → LockedCode Ret
  | .start => stopwatchStart
  | .stop => stopwatchStop
  | .reset => stopwatchReset c
  | .lap => stopwatchLap c
  | .clearLaps => stopwatchClearLaps c
  | .getState => stopwatchGetState
  | .getTotalMs => stopwatchGetTotalMs
  | .getLapCount => stopwatchGetLapCount
  | .getLapMs index => stopwatchGetLapMs index
  | .getLatestLapMs => stopwatchGetLatestLapMs

end Locked

/-- The threads that call the stopwatch, over its mutex: any threads, any calls, any schedule. -/
def lockedMachine (ι : Type) [DecidableEq ι] (c : Config) (hw : Hw) :
    Machine (Threads ι (Ipc ι) (SwMem c) Op Access Access.Result Ret) (Sched ι Op × Instant) (Option (Op × Ret)) :=
  threadsMachine (mutexLock ι) (Access.perform hw) (Locked.code c)

end RtStopwatch
