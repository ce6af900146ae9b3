import RtStopwatch.Timebase

/-!
# The stopwatch

`applications/stopwatch.c`, function by function. The context `g_sw` and the flag `g_inited` are one record, the lock is what
makes each call one step, and what the code calls outside itself (the time base, the kernel tick, the mutex) is a `Platform`:
the board in the firmware, or a clock that answers with readings given from outside.
-/

namespace RtStopwatch

/-- `STOPWATCH_MAX_LAPS`, which the build may redefine. The lap counter has 16 bits, and the array must have a slot. -/
structure Config where
  maxLaps : Nat
  maxLaps_pos : 1 ≤ maxLaps
  maxLaps_le : maxLaps ≤ 65535

/-- The configuration of `stopwatch.h`: twenty laps. -/
def Config.standard : Config := { maxLaps := 20, maxLaps_pos := by decide, maxLaps_le := by decide }

/-- `stopwatch_state_t`. -/
inductive StopwatchState where
  | idle | running | paused
  deriving DecidableEq, Repr

/-- The `rt_err_t` values `stopwatch.c` returns. -/
inductive RtErr where
  | eok | enomem
  deriving DecidableEq, Repr

/-- What `stopwatch.c` calls outside itself, over a state `τ` of the platform that moves with the instants `ι`. -/
structure Platform (ι τ : Type) where
  moveTo : ι → τ → τ
  timebaseInit : τ → τ
  timebaseGetUs : τ → UInt64 × τ
  rtTickGet : τ → UInt32
  rtMutexCreate : τ → Bool

/-- `stopwatch_ctx_t` and `g_inited`. `stateStartTick` is written and never read. -/
structure Stopwatch (c : Config) where
  state : StopwatchState
  stateStartTick : UInt32
  accumulatedMs : UInt32
  stateStartUs : UInt64
  lastLapTotalMs : UInt32
  lapDurationsMs : Vector UInt32 c.maxLaps
  lapCount : UInt16
  gInited : Bool
  deriving DecidableEq, Repr

variable {c : Config} {ι τ : Type}

/-- The context after `memset`, not initialised. -/
def Stopwatch.zeroed (c : Config) : Stopwatch c :=
  { state := .idle, stateStartTick := 0, accumulatedMs := 0, stateStartUs := 0, lastLapTotalMs := 0,
    lapDurationsMs := Vector.replicate c.maxLaps 0, lapCount := 0, gInited := false }

/-- The stopwatch `stopwatch_init` leaves. -/
def Stopwatch.fresh (c : Config) : Stopwatch c := { Stopwatch.zeroed c with gInited := true }

/-- `get_now_total_ms_unsafe`. -/
def getNowTotalMsUnsafe (P : Platform ι τ) (s : Stopwatch c) (t : τ) : UInt32 × τ :=
  if s.state = .running ∧ s.stateStartUs ≠ 0 then
    let (nowUs, t) := P.timebaseGetUs t
    let deltaUs := nowUs - s.stateStartUs
    (s.accumulatedMs + (deltaUs / 1000).toUInt32, t)
  else (s.accumulatedMs, t)

/-- `stopwatch_init`. -/
def stopwatchInit (P : Platform ι τ) (s : Stopwatch c) (t : τ) : RtErr × Stopwatch c × τ :=
  if s.gInited then (.eok, s, t)
  else if P.rtMutexCreate t then (.eok, Stopwatch.fresh c, P.timebaseInit t)
  else (.enomem, Stopwatch.zeroed c, t)

/-- The first line of each command: `if (!g_inited) { if (stopwatch_init() != RT_EOK) return; }`. -/
def ensureInit (P : Platform ι τ) (s : Stopwatch c) (t : τ) : RtErr × Stopwatch c × τ :=
  if s.gInited then (.eok, s, t) else stopwatchInit P s t

/-- `stopwatch_start`. -/
def stopwatchStart (P : Platform ι τ) (s : Stopwatch c) (t : τ) : Stopwatch c × τ :=
  match ensureInit P s t with
  | (.eok, s, t) =>
    if s.state = .running then (s, t)
    else
      let tick := P.rtTickGet t
      let (us, t) := P.timebaseGetUs t
      ({ s with stateStartTick := tick, stateStartUs := us, state := .running }, t)
  | (.enomem, s, t) => (s, t)

/-- `stopwatch_stop`. -/
def stopwatchStop (P : Platform ι τ) (s : Stopwatch c) (t : τ) : Stopwatch c × τ :=
  match ensureInit P s t with
  | (.eok, s, t) =>
    if s.state = .running then
      if s.stateStartUs ≠ 0 then
        let (nowUs, t) := P.timebaseGetUs t
        ({ s with
            accumulatedMs := s.accumulatedMs + ((nowUs - s.stateStartUs) / 1000).toUInt32
            stateStartUs := 0
            state := .paused }, t)
      else ({ s with state := .paused }, t)
    else (s, t)
  | (.enomem, s, t) => (s, t)

/-- `stopwatch_reset`. -/
def stopwatchReset (P : Platform ι τ) (s : Stopwatch c) (t : τ) : Stopwatch c × τ :=
  match ensureInit P s t with
  | (.eok, s, t) =>
    let s := { s with
      accumulatedMs := 0
      lastLapTotalMs := 0
      lapCount := 0
      lapDurationsMs := Vector.replicate c.maxLaps 0 }
    if s.state = .running then
      let tick := P.rtTickGet t
      let (us, t) := P.timebaseGetUs t
      ({ s with stateStartTick := tick, stateStartUs := us }, t)
    else ({ s with state := .idle, stateStartUs := 0 }, t)
  | (.enomem, s, t) => (s, t)

/-- The `memmove` of `stopwatch_lap`: every slot but the last takes the value of the next one. -/
def shiftDown {n : Nat} (v : Vector UInt32 n) : Vector UInt32 n :=
  Vector.ofFn fun i => if h : i.val + 1 < n then v[i.val + 1] else v[i]

/-- The lap array after a lap: appended, or, when the array is full, the oldest lap dropped. -/
def Stopwatch.storeLap (s : Stopwatch c) (lapMs : UInt32) : Stopwatch c :=
  if h : s.lapCount.toNat < c.maxLaps then
    { s with lapDurationsMs := s.lapDurationsMs.set s.lapCount.toNat lapMs h, lapCount := s.lapCount + 1 }
  else
    { s with
      lapDurationsMs := (shiftDown s.lapDurationsMs).set (c.maxLaps - 1) lapMs (Nat.sub_lt c.maxLaps_pos Nat.one_pos) }

/-- `stopwatch_lap`. The lap time is returned through `out_lap_ms`, which stays as it was when the initialisation fails. -/
def stopwatchLap (P : Platform ι τ) (s : Stopwatch c) (t : τ) : (RtErr × Option UInt32) × Stopwatch c × τ :=
  match ensureInit P s t with
  | (.eok, s, t) =>
    let (totalMs, t) := getNowTotalMsUnsafe P s t
    let lapMs := totalMs - s.lastLapTotalMs
    ((.eok, some lapMs), { s.storeLap lapMs with lastLapTotalMs := totalMs }, t)
  | (.enomem, s, t) => ((.enomem, none), s, t)

/-- `stopwatch_get_state`. -/
def stopwatchGetState (s : Stopwatch c) : StopwatchState :=
  if s.gInited then s.state else .idle

/-- `stopwatch_get_total_ms`. -/
def stopwatchGetTotalMs (P : Platform ι τ) (s : Stopwatch c) (t : τ) : UInt32 × τ :=
  if s.gInited then getNowTotalMsUnsafe P s t else (0, t)

/-- `stopwatch_get_lap_count`. -/
def stopwatchGetLapCount (s : Stopwatch c) : UInt16 :=
  if s.gInited then s.lapCount else 0

/-- The slot of the lap array, where there is one: the code never reads past the array (`Stopwatch.Inv`). -/
def Stopwatch.slot (s : Stopwatch c) (i : Nat) : UInt32 := s.lapDurationsMs[i]?.getD 0

/-- `stopwatch_get_lap_ms`. -/
def stopwatchGetLapMs (s : Stopwatch c) (index : UInt16) : UInt32 :=
  if s.gInited then
    if index < s.lapCount then s.slot index.toNat else 0
  else 0

/-- `stopwatch_get_latest_lap_ms`. -/
def stopwatchGetLatestLapMs (s : Stopwatch c) : UInt32 :=
  if s.gInited then
    if 0 < s.lapCount then s.slot (s.lapCount.toNat - 1) else 0
  else 0

/-- `stopwatch_clear_laps`. -/
def stopwatchClearLaps (P : Platform ι τ) (s : Stopwatch c) (t : τ) : Stopwatch c × τ :=
  if s.gInited then
    let s := { s with lapCount := 0 }
    let (totalMs, t) := getNowTotalMsUnsafe P s t
    ({ s with lastLapTotalMs := totalMs, lapDurationsMs := Vector.replicate c.maxLaps 0 }, t)
  else (s, t)

/-! ## The calls as events -/

/-- The public calls of `stopwatch.h`, `stopwatch_init` apart. -/
inductive Op where
  | start | stop | reset | lap | clearLaps
  | getState | getTotalMs | getLapCount | getLapMs (index : UInt16) | getLatestLapMs
  deriving DecidableEq, Repr

/-- The type of what a call returns; a lap, its error code and what it wrote through `out_lap_ms`. -/
def Op.Result : Op → Type
  | .start | .stop | .reset | .clearLaps => Unit
  | .lap => RtErr × Option UInt32
  | .getState => StopwatchState
  | .getTotalMs | .getLapMs _ | .getLatestLapMs => UInt32
  | .getLapCount => UInt16

/-- A call, on the stopwatch and the platform. -/
def Op.call (P : Platform ι τ) (op : Op) (s : Stopwatch c) (t : τ) : op.Result × Stopwatch c × τ :=
  match op with
  | .start => ((), stopwatchStart P s t)
  | .stop => ((), stopwatchStop P s t)
  | .reset => ((), stopwatchReset P s t)
  | .lap => stopwatchLap P s t
  | .clearLaps => ((), stopwatchClearLaps P s t)
  | .getState => (stopwatchGetState s, s, t)
  | .getTotalMs =>
    let (v, t) := stopwatchGetTotalMs P s t
    (v, s, t)
  | .getLapCount => (stopwatchGetLapCount s, s, t)
  | .getLapMs i => (stopwatchGetLapMs s i, s, t)
  | .getLatestLapMs => (stopwatchGetLatestLapMs s, s, t)

/-- What any of the calls may return. -/
inductive Ret where
  | done
  | lap (err : RtErr) (outLapMs : Option UInt32)
  | state (s : StopwatchState)
  | ms (v : UInt32)
  | count (v : UInt16)
  deriving DecidableEq, Repr

/-- What a call returned, as one of them. -/
def Op.ret (op : Op) : op.Result → Ret :=
  match op with
  | .start | .stop | .reset | .clearLaps => fun _ => .done
  | .lap => fun r => .lap r.1 r.2
  | .getState => .state
  | .getTotalMs | .getLapMs _ | .getLatestLapMs => .ms
  | .getLapCount => .count

/-- A call, its result as a `Ret`. -/
def Op.run (P : Platform ι τ) (op : Op) (s : Stopwatch c) (t : τ) : Ret × Stopwatch c × τ :=
  let (r, w) := op.call P s t
  (op.ret r, w)

/-- The stopwatch on a platform: an event is a call and the instant it is made at. -/
def Platform.machine (P : Platform ι τ) (c : Config) : Lib.Machine (Stopwatch c × τ) (Op × ι) Ret where
  step w e := e.1.run P w.1 (P.moveTo e.2 w.2)

/-- The platform of the firmware: the board, on which the mutex could be created. -/
def boardPlatform : Platform Instant Board where
  moveTo := Board.moveTo
  timebaseInit := Board.init
  timebaseGetUs := Board.getUs
  rtTickGet b := b.hw.rtTick
  rtMutexCreate _ := true

/-- What the platform answers at one moment: the microseconds of `timebase_get_us` and the kernel tick. -/
structure Reading where
  us : UInt64
  tick : UInt32
  deriving DecidableEq, Repr

/-- The platform that answers with the readings it is given: any clock. -/
def oracle : Platform Reading Reading where
  moveTo r _ := r
  timebaseInit r := r
  timebaseGetUs r := (r.us, r)
  rtTickGet r := r.tick
  rtMutexCreate _ := true

/-- A call at a reading. -/
def Stopwatch.step (s : Stopwatch c) (op : Op) (r : Reading) : Ret × Stopwatch c :=
  let (ret, s', _) := op.run oracle s r
  (ret, s')

/-- The stopwatch under any clock: an event is a call and the reading the clock gives at it. -/
def stopwatchMachine (c : Config) : Lib.Machine (Stopwatch c) (Op × Reading) Ret where
  step s e := s.step e.1 e.2

end RtStopwatch
