import Mathlib.Data.UInt
import RtStopwatch.Lib.Machine

/-!
# The time base

`applications/timebase.c`: the cycle counter of the core (`DWT->CYCCNT`, 32 bits) is accumulated into 64 bits at each call of
`timebase_get_us`, and where the core has no such counter the kernel tick is converted instead. The hardware and the kernel
are a `Hw`: what the code reads from them at the moment it runs. Time passes by moving the `Hw` to an `Instant`, whose counts
are the true ones, unbounded; the registers hold them modulo `2 ^ 32`.
-/

namespace RtStopwatch

/-- The true counts at a moment: core cycles since the counter was enabled, and kernel ticks since boot. -/
structure Instant where
  cyc : Nat
  tick : Nat
  deriving DecidableEq, Repr

/-- What `timebase.c` reads outside itself. `hasDwt` says whether the enable bit written to `DWT->CTRL` reads back as set. -/
structure Hw where
  cyccnt : UInt32
  rtTick : UInt32
  systemCoreClock : UInt32
  hasDwt : Bool
  deriving DecidableEq, Repr

/-- The counters at an instant: the true counts modulo `2 ^ 32`. -/
def Hw.moveTo (i : Instant) (h : Hw) : Hw :=
  { h with cyccnt := UInt32.ofNat i.cyc, rtTick := UInt32.ofNat i.tick }

/-- The statics of `timebase.c`. -/
structure Timebase where
  cpuHz : UInt32
  dwtOk : Bool
  lastCyc : UInt32
  totalCyc : UInt64
  deriving DecidableEq, Repr

/-- `RT_TICK_PER_SECOND` of `rtconfig.h`. -/
def rtTickPerSecond : UInt64 := 1000

/-- The statics at boot: `cpu_hz` has its default of 72 MHz. -/
def Timebase.boot : Timebase := { cpuHz := 72000000, dwtOk := false, lastCyc := 0, totalCyc := 0 }

/-- `dwt_init`: clear the cycle counter, enable it, and read back whether it is there. -/
def dwtInit (b : Timebase) (h : Hw) : Timebase × Hw :=
  ({ b with dwtOk := h.hasDwt }, { h with cyccnt := 0 })

/-- `timebase_init`. -/
def timebaseInit (b : Timebase) (h : Hw) : Timebase × Hw :=
  let b := if h.systemCoreClock ≠ 0 then { b with cpuHz := h.systemCoreClock } else b
  let (b, h) := dwtInit b h
  (if b.dwtOk then { b with lastCyc := h.cyccnt, totalCyc := 0 } else b, h)

/-- `timebase_get_us`. All the arithmetic is that of the code: the difference of the counters wraps at 32 bits, the sum and
the product at 64. -/
def timebaseGetUs (b : Timebase) (h : Hw) : UInt64 × Timebase :=
  if b.dwtOk then
    let cur := h.cyccnt
    let delta := cur - b.lastCyc
    let totalCyc := b.totalCyc + delta.toUInt64
    (totalCyc * 1000000 / b.cpuHz.toUInt64, { b with lastCyc := cur, totalCyc := totalCyc })
  else
    let ticks := h.rtTick
    (ticks.toUInt64 * 1000000 / rtTickPerSecond, b)

/-- The time base and the hardware under it. -/
structure Board where
  tb : Timebase
  hw : Hw
  deriving DecidableEq, Repr

/-- The board after boot, on a core clocked at `hz`, with or without a cycle counter. -/
def Board.boot (hz : UInt32) (hasDwt : Bool) : Board :=
  { tb := Timebase.boot, hw := { cyccnt := 0, rtTick := 0, systemCoreClock := hz, hasDwt := hasDwt } }

/-- Time passes on the board. -/
def Board.moveTo (i : Instant) (b : Board) : Board := { b with hw := b.hw.moveTo i }

/-- `timebase_init` on the board. -/
def Board.init (b : Board) : Board :=
  let (tb, hw) := timebaseInit b.tb b.hw
  { tb := tb, hw := hw }

/-- `timebase_get_us` on the board. -/
def Board.getUs (b : Board) : UInt64 × Board :=
  let (us, tb) := timebaseGetUs b.tb b.hw
  (us, { b with tb := tb })

/-- The board that only reads the time: an event is the instant of a call of `timebase_get_us`, its output what the call
returns. -/
def timebaseMachine : Lib.Machine Board Instant UInt64 where
  step b i := (b.moveTo i).getUs

end RtStopwatch
