import RtStopwatch.Lemmas.Refine
import RtStopwatch.Lemmas.Timebase

/-!
# The stopwatch on the board

A call on the board is a step of the stopwatch at the board's reading. Beside the code runs a ghost: the instant of the last call of
`timebase_get_us` (`readMachine`), in which the conditions on how often the clock is read are stated.
-/

namespace RtStopwatch

open Lib

variable {c : Config}

/-- What the board answers. -/
def Board.reading (b : Board) : Reading := { us := b.getUs.1, tick := b.hw.rtTick }

/-- What the board answers at an instant. -/
def Board.readingAt (b : Board) (i : Instant) : Reading := (b.moveTo i).reading

/-- A call on the board is the step at its reading, and moves the time base exactly when it reads the clock. -/
theorem board_step_eq {w : Stopwatch c × Board} (hs : w.1.gInited = true) (e : Op × Instant) :
    (boardPlatform.machine c).step w e =
      ((w.1.step e.1 (w.2.readingAt e.2)).1, (w.1.step e.1 (w.2.readingAt e.2)).2,
        if e.1.Reads w.1 then ((w.2.moveTo e.2).getUs).2 else w.2.moveTo e.2) :=
  Op.run_eq boardPlatform e.1 w.1 (w.2.moveTo e.2) hs

/-- The stopwatch and the board as `stopwatch_init` leaves them, on a core clocked at `hz`. -/
def initialised (c : Config) (hz : UInt32) (hasDwt : Bool) : Stopwatch c × Board :=
  (Stopwatch.fresh c, (Board.boot hz hasDwt).init)

/-- `stopwatch_init` after boot. -/
theorem stopwatchInit_boot (c : Config) (hz : UInt32) (hasDwt : Bool) :
    stopwatchInit boardPlatform (Stopwatch.zeroed c) (Board.boot hz hasDwt) = (.eok, initialised c hz hasDwt) :=
  stopwatchInit_fresh boardPlatform _ _ rfl rfl

/-- The calls of `timebase_get_us` in a run: the instant of each, and the microseconds it returned. -/
def clockReads (w : Stopwatch c × Board) : List (Op × Instant) → List (Instant × UInt64)
  | [] => []
  | e :: es =>
    let rest := clockReads ((boardPlatform.machine c).step w e).2 es
    if e.1.Reads w.1 then (e.2, (w.2.readingAt e.2).us) :: rest else rest

/-- The stopwatch on the board, beside it the instant of the last call of `timebase_get_us`. -/
def readMachine (c : Config) : Machine ((Stopwatch c × Board) × Instant) (Op × Instant) Ret where
  step w e :=
    let (ret, w') := (boardPlatform.machine c).step w.1 e
    (ret, w', if e.1.Reads w.1.1 then e.2 else w.2)

/-- The ghost does not change the code. -/
theorem readMachine_run_fst (w : (Stopwatch c × Board) × Instant) (es : List (Op × Instant)) :
    ((readMachine c).run w es).1 = (boardPlatform.machine c).run w.1 es :=
  Machine.run_map (f := Prod.fst) (fun _ _ => rfl) w es

/-- A guard on the code is met beside the ghost too. -/
theorem meets_readMachine {G : Stopwatch c × Board → Op × Instant → Prop} {w : Stopwatch c × Board}
    {es : List (Op × Instant)} (h : (boardPlatform.machine c).Meets G w es) (last : Instant) :
    (readMachine c).Meets (fun w e => G w.1 e) (w, last) es :=
  (Machine.meets_map (M := boardPlatform.machine c) (f := Prod.fst) (fun _ _ => rfl) (w, last) es).mpr h

/-- What every two consecutive calls of `timebase_get_us` satisfy is met at every call, against the ghost. -/
theorem meets_of_clockReads {R : Instant → Instant → Prop} {w : Stopwatch c × Board} {last : Instant}
    {es : List (Op × Instant)} (h : (last :: (clockReads w es).map Prod.fst).IsChain R) :
    (readMachine c).Meets (fun w e => e.1.Reads w.1.1 → R w.2 e.2) (w, last) es := by
  induction es generalizing w last with
  | nil => trivial
  | cons e es ih =>
    by_cases hr : e.1.Reads w.1
    · simp only [clockReads, hr, if_true, List.map_cons, List.isChain_cons_cons] at h
      refine ⟨fun _ => h.1, ?_⟩
      have := ih h.2
      simpa only [readMachine, hr, if_true] using this
    · simp only [clockReads, hr, if_false] at h
      refine ⟨fun hr' => absurd hr' hr, ?_⟩
      have := ih h
      simpa only [readMachine, hr, if_false] using this

end RtStopwatch
