import Mathlib.Data.List.Sort
import Mathlib.Data.UInt
import Mathlib.Logic.Function.Basic
import RtStopwatch.Lib.Machine

/-!
# The software timers of the kernel

`rt-thread/src/timer.c`: `rt_timer_start`, `rt_timer_stop`, `rt_timer_control`, and `rt_soft_timer_check`, which calls the functions of
the timers whose time has come. The skip list has one level (`RT_TIMER_SKIP_LIST_LEVEL`): it is a list. The check lets other threads run
while it calls a function, so it is two steps, up to the call and from its return on.

What the code does with ticks is a `TickArith`: `wrapping` is the code's own, on a counter of 32 bits; `exact` does the same on true
counts, and is there to be compared with it.
-/

namespace RtStopwatch

/-- `RT_TICK_MAX`, as a tick. -/
def tickMax : UInt32 := 0xFFFFFFFF

/-- What `timer.c` does with ticks of a type `τ`: read the tick, add a duration to it, ask whether a timer goes before another in the
list, and whether the tick has reached a timeout. -/
structure TickArith (τ : Type) where
  rtTickGet : ℕ → τ
  add : τ → UInt32 → τ
  goesBefore : τ → τ → Bool
  reached : τ → τ → Bool

/-- The arithmetic of the code. -/
def TickArith.wrapping : TickArith UInt32 where
  rtTickGet now := UInt32.ofNat now
  add t d := t + d
  goesBefore timer t := t - timer ≠ 0 && t - timer < tickMax / 2
  reached current timeout := current - timeout < tickMax / 2

/-- The same on true counts. -/
def TickArith.exact : TickArith ℕ where
  rtTickGet now := now
  add t d := t + d.toNat
  goesBefore timer t := timer < t
  reached current timeout := timeout ≤ current

/-- `struct rt_timer`: the flags that matter, and the ticks. -/
structure RtTimer (τ : Type) where
  activated : Bool
  periodic : Bool
  initTick : UInt32
  timeoutTick : τ
  deriving DecidableEq, Repr

/-- The timers, `rt_soft_timer_list`, and `rt_soft_timer_check`: the timer whose function it is calling, and its local list. -/
structure Timers (ι τ : Type) where
  timer : ι → RtTimer τ
  softTimerList : List ι
  calling : Option ι
  list : List ι

variable {ι τ : Type} [DecidableEq ι]

namespace Timers

/-- Timers just created, with `rt_timer_create`. -/
def create (K : TickArith τ) (periodic : ι → Bool) (time : ι → UInt32) : Timers ι τ :=
  { timer := fun i => { activated := false, periodic := periodic i, initTick := time i, timeoutTick := K.rtTickGet 0 }
    softTimerList := [], calling := none, list := [] }

/-- A change to one timer. -/
def modify (x : Timers ι τ) (i : ι) (f : RtTimer τ → RtTimer τ) : Timers ι τ :=
  { x with timer := Function.update x.timer i (f (x.timer i)) }

/-- `_rt_timer_remove`: out of whichever list it is in. -/
def remove (x : Timers ι τ) (i : ι) : Timers ι τ :=
  { x with softTimerList := x.softTimerList.erase i, list := x.list.erase i }

/-- `rt_timer_start`, or nothing when its assertion fails, which halts the system. -/
def rtTimerStart (K : TickArith τ) (now : ℕ) (x : Timers ι τ) (i : ι) : Option (Timers ι τ) :=
  let x := (x.remove i).modify i fun t => { t with activated := false }
  if (x.timer i).initTick < tickMax / 2 then
    let x := x.modify i fun t => { t with timeoutTick := K.add (K.rtTickGet now) t.initTick }
    let x := { x with
      softTimerList := x.softTimerList.orderedInsert
        (fun a b => K.goesBefore (x.timer a).timeoutTick (x.timer b).timeoutTick = true) i }
    some (x.modify i fun t => { t with activated := true })
  else none

/-- `rt_timer_stop`. -/
def rtTimerStop (x : Timers ι τ) (i : ι) : Timers ι τ :=
  if (x.timer i).activated then (x.remove i).modify i fun t => { t with activated := false } else x

/-- `rt_soft_timer_check`, up to the call of the function of the first timer, if its time has come. -/
def checkCall (K : TickArith τ) (now : ℕ) (x : Timers ι τ) : Option ι × Timers ι τ :=
  match x.softTimerList with
  | t :: _ =>
    if K.reached (K.rtTickGet now) (x.timer t).timeoutTick then
      let x := x.remove t
      let x := if !(x.timer t).periodic then x.modify t fun t => { t with activated := false } else x
      (some t, { x with list := t :: x.list, calling := some t })
    else (none, x)
  | [] => (none, x)

/-- `rt_soft_timer_check`, when the function of `t` has returned: the timer is started again if it is periodic, unless it has been
stopped or started meanwhile. -/
def checkReturn (K : TickArith τ) (now : ℕ) (x : Timers ι τ) (t : ι) : Option (Timers ι τ) :=
  let x := { x with calling := none }
  if x.list.isEmpty then some x
  else
    let x := { x with list := x.list.erase t }
    if (x.timer t).periodic && (x.timer t).activated then
      (x.modify t fun t => { t with activated := false }).rtTimerStart K now t
    else some x

end Timers

/-- What may happen: a timer is started, stopped or controlled (`RT_TIMER_CTRL_SET_TIME`, `RT_TIMER_CTRL_SET_ONESHOT`,
`RT_TIMER_CTRL_SET_PERIODIC`), the timer thread checks the list, or the function it has called returns. -/
inductive TimerEvent (ι : Type) where
  | start (i : ι)
  | stop (i : ι)
  | setTime (i : ι) (ticks : UInt32)
  | setPeriodic (i : ι) (periodic : Bool)
  | check
  | ret
  deriving DecidableEq, Repr

/-- The timers as a machine, its events at true ticks. The output is the timer whose function is called. An assertion that fails halts
the system: no state is left. -/
def timerMachine (ι : Type) [DecidableEq ι] (K : TickArith τ) : Lib.Machine (Option (Timers ι τ)) (TimerEvent ι × ℕ) (Option ι) where
  step
    | none, _ => (none, none)
    | some x, (.start i, now) => (none, x.rtTimerStart K now i)
    | some x, (.stop i, _) => (none, some (x.rtTimerStop i))
    | some x, (.setTime i ticks, _) => (none, some (x.modify i fun t => { t with initTick := ticks }))
    | some x, (.setPeriodic i p, _) => (none, some (x.modify i fun t => { t with periodic := p }))
    | some x, (.check, now) =>
      match x.calling with
      | none =>
        let (t, x) := x.checkCall K now
        (t, some x)
      | some _ => (none, some x)
    | some x, (.ret, now) =>
      match x.calling with
      | none => (none, some x)
      | some t => (none, x.checkReturn K now t)

end RtStopwatch
