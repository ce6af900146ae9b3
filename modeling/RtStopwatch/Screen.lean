import RtStopwatch.Lib.Interference
import RtStopwatch.Oled
import RtStopwatch.Ui

/-!
# The UI thread and its screen

The loop of `ui_entry` over the static variables, the frame buffer and the panel. The stopwatch's answers are arbitrary at every
call, and between any two actions the shell may set the page; the other variables may change at any time as well. A call of the driver
is one action: it touches none of the variables, so a page set in the middle of it is as good as one set right after it.
-/

namespace RtStopwatch

open Lib

/-- What the queries of the main page returned last; only there to be spoken of. -/
structure Reads where
  total : UInt32
  cnt : UInt16
  latest : UInt32
  deriving DecidableEq, Repr

/-- The answer of a query is remembered. -/
def Reads.note (m : Reads) : (op : Op) → op.Result → Reads
  | .getTotalMs, r => { m with total := r }
  | .getLapCount, r => { m with cnt := r }
  | .getLatestLapMs, r => { m with latest := r }
  | _, _ => m

/-- What the UI thread works on. -/
structure Screen where
  vars : Statics
  oled : Oled
  reads : Reads

/-- What an action of the UI thread does. `answer` is what the stopwatch returns, and what the pin reads. -/
def Act.performOn (fuel : ℕ) (beyond : ℕ → UInt8) (answer : (a : Act) → a.Result) (a : Act) (s : Screen) :
    Option (a.Result × Screen) :=
  match a with
  | .call op => some (answer (.call op), { s with reads := s.reads.note op (answer (.call op)) })
  | .load v => some (s.vars.load v, s)
  | .store v x => some ((), { s with vars := s.vars.store v x })
  | .oled c => (c.perform fuel beyond s.oled).map fun oled => ((), { s with oled := oled })
  | .pinRead => some (answer .pinRead, s)
  | .kprintf _ | .logI _ | .buzSet _ | .mdelay _ => some ((), s)

/-- What the others do: a whole call of `ui_oled_set_page`, or changes of variables other than `s_page` and `s_page_drawn`. -/
inductive ScreenEvent where
  | setPage (page : UInt8)
  | others (vars : Statics)
  deriving DecidableEq, Repr

/-- `ui_oled_set_page`, on the variables. -/
def Statics.setPage (vars : Statics) (page : UInt8) : Statics :=
  { vars with sPage := if page ≠ 0 then 1 else 0, sPageDrawn := 0 }

/-- It is what the code of the function does. -/
theorem exec_uiOledSetPage {c : Config} (page : UInt8) (w : World c) :
    ((uiOledSetPage page).exec Act.perform w).2 = { w with vars := w.vars.setPage page } := rfl

/-- What they leave. -/
def ScreenEvent.apply (s : Screen) : ScreenEvent → Screen
  | .setPage page => { s with vars := s.vars.setPage page }
  | .others vars => { s with vars := { vars with sPage := s.vars.sPage, sPageDrawn := s.vars.sPageDrawn } }

/-- The UI thread, every interleaving with the others. -/
def screenMachine (fuel : ℕ) (beyond : ℕ → UInt8) :
    Machine (Option (Code Unit × Screen)) (Turn ((a : Act) → a.Result) ScreenEvent) (Option Act) :=
  loopMachine (Act.performOn fuel beyond) (fun e s => e.apply s) uiEntry

/-- The thread about to start its loop. -/
def Screen.start (s : Screen) : Option (Code Unit × Screen) := some (.pure (), s)

end RtStopwatch
