import RtStopwatch.Stopwatch
import RtStopwatch.Lib.Prog

/-!
# The world the threads share

What the threads of `applications/` read and write: the stopwatch and the board, the static variables of the modules, the OLED, the
console and the pins. Each access is an `Act`, one step that nothing interrupts: a locked stopwatch call, one read or write of a
static variable, one call of the OLED driver. A thread is a `Code`, a program of such actions.
-/

namespace RtStopwatch

open Lib

variable {c : Config}

/-- The static variables: those of `ui_oled.c`, of `notifier_buzzer.c` and of `sensor_light.c`. -/
inductive Static where
  | sOledEnabled | sRefreshMs | sPageDrawn | sLapsOffset | sPage
  | sBeepEnabled
  | sEnabled | sDark | sInvert
  deriving DecidableEq, Repr

/-- Their types. -/
def Static.Ty : Static → Type
  | .sRefreshMs | .sLapsOffset => UInt16
  | .sPageDrawn | .sPage => UInt8
  | .sOledEnabled | .sBeepEnabled | .sEnabled | .sDark | .sInvert => Bool

/-- Their values. -/
structure Statics where
  sOledEnabled : Bool
  sRefreshMs : UInt16
  sPageDrawn : UInt8
  sLapsOffset : UInt16
  sPage : UInt8
  sBeepEnabled : Bool
  sEnabled : Bool
  sDark : Bool
  sInvert : Bool
  deriving DecidableEq, Repr

/-- Their initial values. -/
def Statics.boot : Statics :=
  { sOledEnabled := true, sRefreshMs := 10, sPageDrawn := 0, sLapsOffset := 0, sPage := 0
    sBeepEnabled := true
    sEnabled := true, sDark := false, sInvert := true }

/-- The value of a variable. -/
def Statics.load (m : Statics) : (v : Static) → v.Ty
  | .sOledEnabled => m.sOledEnabled
  | .sRefreshMs => m.sRefreshMs
  | .sPageDrawn => m.sPageDrawn
  | .sLapsOffset => m.sLapsOffset
  | .sPage => m.sPage
  | .sBeepEnabled => m.sBeepEnabled
  | .sEnabled => m.sEnabled
  | .sDark => m.sDark
  | .sInvert => m.sInvert

/-- An assignment to a variable. -/
def Statics.store (m : Statics) : (v : Static) → v.Ty → Statics
  | .sOledEnabled, x => { m with sOledEnabled := x }
  | .sRefreshMs, x => { m with sRefreshMs := x }
  | .sPageDrawn, x => { m with sPageDrawn := x }
  | .sLapsOffset, x => { m with sLapsOffset := x }
  | .sPage, x => { m with sPage := x }
  | .sBeepEnabled, x => { m with sBeepEnabled := x }
  | .sEnabled, x => { m with sEnabled := x }
  | .sDark, x => { m with sDark := x }
  | .sInvert, x => { m with sInvert := x }

/-- The fonts of the OLED driver: `OLED_8X16` and `OLED_6X8`. -/
inductive Font where
  | f8x16 | f6x8
  deriving DecidableEq, Repr

/-- The calls of `OLED.h` the application makes. -/
inductive OledCall where
  | clear
  | update
  | clearArea (x y : Int16) (width height : UInt8)
  | updateArea (x y : Int16) (width height : UInt8)
  | showString (x y : Int16) (text : List Char) (font : Font)
  deriving DecidableEq, Repr

/-- The atomic actions of the threads. `pinRead` reads the light sensor's pin, `buzSet` drives the buzzer's. -/
inductive Act where
  | call (op : Op)
  | load (v : Static)
  | store (v : Static) (x : v.Ty)
  | oled (call : OledCall)
  | kprintf (text : List Char)
  | logI (text : List Char)
  | pinRead
  | buzSet (on : Bool)
  | mdelay (ms : UInt16)

/-- What an action results in. -/
def Act.Result : Act → Type
  | .call op => op.Result
  | .load v => v.Ty
  | .pinRead => Bool
  | .store _ _ | .oled _ | .kprintf _ | .logI _ | .buzSet _ | .mdelay _ => Unit

/-- What the threads share. The OLED, the console and the buzzer only receive: what they are sent is in the actions. -/
structure World (c : Config) where
  sw : Stopwatch c
  board : Board
  vars : Statics
  doPin : Bool
  deriving DecidableEq, Repr

/-- The world after `stopwatch_init` on a core with a cycle counter, the light sensor's pin low. -/
def World.boot (c : Config) (hz : UInt32) : World c :=
  { sw := Stopwatch.fresh c, board := (Board.boot hz true).init, vars := Statics.boot, doPin := false }

/-- Time passes. -/
def World.moveTo (t : Instant) (w : World c) : World c := { w with board := w.board.moveTo t }

/-- What an action does. -/
def Act.perform (a : Act) (w : World c) : a.Result × World c :=
  match a with
  | .call op =>
    let (r, sw, board) := op.call boardPlatform w.sw w.board
    (r, { w with sw := sw, board := board })
  | .load v => (w.vars.load v, w)
  | .store v x => ((), { w with vars := w.vars.store v x })
  | .pinRead => (w.doPin, w)
  | .oled _ | .kprintf _ | .logI _ | .buzSet _ | .mdelay _ => ((), w)

/-- What is printed on the console in the course of some actions, call by call. -/
def printed (as : List Act) : List (List Char) :=
  as.filterMap fun
    | .kprintf text => some text
    | _ => none

/-- The code of a thread, or of a function it calls. -/
abbrev Code (α : Type) : Type := Prog Act Act.Result α

namespace Code

/-- A locked stopwatch call. -/
def call (op : Op) : Code op.Result := .act (.call op) .pure

/-- The read of a static variable. -/
def load (v : Static) : Code v.Ty := .act (.load v) .pure

/-- The write of a static variable. -/
def store (v : Static) (x : v.Ty) : Code Unit := .act (.store v x) .pure

/-- A call of the OLED driver. -/
def oled (call : OledCall) : Code Unit := .act (.oled call) .pure

/-- `rt_kprintf`. -/
def kprintf (text : List Char) : Code Unit := .act (.kprintf text) .pure

/-- `LOG_I`. -/
def logI (text : List Char) : Code Unit := .act (.logI text) .pure

/-- `rt_pin_read` of the light sensor's pin. -/
def pinRead : Code Bool := .act .pinRead .pure

/-- `buz_set`. -/
def buzSet (on : Bool) : Code Unit := .act (.buzSet on) .pure

/-- `rt_thread_mdelay`. -/
def mdelay (ms : UInt16) : Code Unit := .act (.mdelay ms) .pure

/-- An `if` without an `else`. -/
def when (p : Prop) [Decidable p] (body : Code Unit) : Code Unit := if p then body else pure ()

end Code

end RtStopwatch
