import RtStopwatch.Cli

/-!
# The firmware

The UI thread, the light thread and the shell, over the world they share. An event is one step of one of them at an instant: the
scheduler may pick any thread that is not asleep, and any thread may be preempted between two of its actions. A thread whose round
is over starts its loop again; the shell takes a command when it is idle.
-/

namespace RtStopwatch

open Lib

variable {c : Config} {α : Type}

/-- A thread: the rest of the round it is in, and the tick it sleeps until. -/
structure Thread (α : Type) where
  code : Code α
  wake : ℕ

/-- The stopwatch call an action makes, and what it returned. -/
def Act.answer (a : Act) : a.Result → Option (Op × Ret) :=
  match a with
  | .call op => fun r => some (op, op.ret r)
  | .load _ | .store _ _ | .oled _ | .kprintf _ | .logI _ | .pinRead | .buzSet _ | .mdelay _ => fun _ => none

/-- The tick a thread sleeps until after an action: only `rt_thread_mdelay` puts it to sleep, for as many ticks as milliseconds. -/
def Act.sleepUntil (now wake : ℕ) : Act → ℕ
  | .mdelay ms => now + ms.toNat
  | .call _ | .load _ | .store _ _ | .oled _ | .kprintf _ | .logI _ | .pinRead | .buzSet _ => wake

/-- One step of a thread, if it is awake: its next action, or the start of its next round. -/
def Thread.step (loop : α → Code α) (th : Thread α) (now : ℕ) (w : World c) : Option (Op × Ret) × Thread α × World c :=
  if now < th.wake then (none, th, w)
  else
    match th.code with
    | .pure x => (none, { th with code := loop x }, w)
    | .act a k =>
      let (r, w) := a.perform w
      (a.answer r, { code := k r, wake := a.sleepUntil now th.wake }, w)

/-- The threads and their world. -/
structure System (c : Config) where
  world : World c
  ui : Thread Unit
  light : Thread LightCounts
  shell : Thread Unit

/-- What may happen: a step of a thread, a command line given to the shell, a change of the light at the sensor's pin. -/
inductive Event where
  | ui | light | shell
  | command (cmd : Cmd)
  | pin (level : Bool)
  deriving DecidableEq, Repr

/-- The shell takes a command when it has none. -/
def System.take (S : System c) (cmd : Cmd) : System c :=
  match S.shell.code with
  | .pure _ => { S with shell := { S.shell with code := cmd.code } }
  | .act _ _ => S

/-- An event at an instant. -/
def System.step (S : System c) (e : Event) (t : Instant) : Option (Op × Ret) × System c :=
  let S := { S with world := S.world.moveTo t }
  match e with
  | .ui =>
    let (r, th, w) := S.ui.step (fun _ => uiEntry) t.tick S.world
    (r, { S with ui := th, world := w })
  | .light =>
    let (r, th, w) := S.light.step lightThreadEntry t.tick S.world
    (r, { S with light := th, world := w })
  | .shell =>
    let (r, th, w) := S.shell.step (fun _ => pure ()) t.tick S.world
    (r, { S with shell := th, world := w })
  | .command cmd => (none, S.take cmd)
  | .pin level => (none, { S with world := { S.world with doPin := level } })

/-- The firmware as a machine. Its output is the stopwatch call an event made, if it made one, and what that returned. -/
def systemMachine (c : Config) : Machine (System c) (Event × Instant) (Option (Op × Ret)) where
  step S e := S.step e.1 e.2

/-- The firmware after `stopwatch_init` on a core with a cycle counter, the threads about to start their loops. -/
def System.boot (c : Config) (hz : UInt32) (vars : Statics) (doPin : Bool) : System c :=
  { world :=
      { sw := Stopwatch.fresh c, board := (Board.boot hz true).init, vars := vars, doPin := doPin }
    ui := { code := .pure (), wake := 0 }
    light := { code := .pure { darkCnt := 0, lightCnt := 0 }, wake := 0 }
    shell := { code := .pure (), wake := 0 } }

end RtStopwatch
