import RtStopwatch.Stopwatch

/-!
# The ideal stopwatch

What the stopwatch is for, over any kind of time `T`: it keeps the segments it ran since the last reset, each with the instants
it was opened and closed at, and answers with any measure of them. Nothing is rounded, truncated or reduced. The code is
compared with it over microseconds, over true cycles and over true ticks.
-/

namespace RtStopwatch

/-- An ideal stopwatch: its state, the segments closed since the last reset, and when the open one began. -/
structure Ideal (T : Type) where
  state : StopwatchState
  closed : List (T × T)
  since : T
  deriving DecidableEq, Repr

namespace Ideal

variable {T : Type}

/-- A new ideal stopwatch. -/
def init (t₀ : T) : Ideal T := { state := .idle, closed := [], since := t₀ }

/-- The ideal machine: a start opens a segment, a stop closes it, a reset forgets every segment and, when RUNNING, opens a new
one; the other calls leave it alone. -/
def step (i : Ideal T) (op : Op) (now : T) : Ideal T :=
  match op with
  | .start => if i.state = .running then i else { i with state := .running, since := now }
  | .stop =>
    if i.state = .running then { i with state := .paused, closed := i.closed ++ [(i.since, now)] } else i
  | .reset =>
    if i.state = .running then { i with closed := [], since := now } else { i with state := .idle, closed := [] }
  | .lap | .clearLaps | .getState | .getTotalMs | .getLapCount | .getLapMs _ | .getLatestLapMs => i

/-- The segments run since the last reset, as of `now`: the closed ones, and the open one up to `now`. -/
def segments (i : Ideal T) (now : T) : List (T × T) :=
  if i.state = .running then i.closed ++ [(i.since, now)] else i.closed

/-- The sum over the segments of a length of theirs. -/
def measure (i : Ideal T) (len : T → T → ℕ) (now : T) : ℕ := ((i.segments now).map fun p => len p.1 p.2).sum

/-- The time spent RUNNING since the last reset. -/
def elapsed (i : Ideal ℕ) (now : ℕ) : ℕ := i.measure (fun a b => b - a) now

/-- The time spent RUNNING since the last reset, each segment of microseconds rounded down to milliseconds. -/
def totalMs (i : Ideal ℕ) (now : ℕ) : ℕ := i.measure (fun a b => (b - a) / 1000) now

/-- The number of segments since the last reset. -/
def count (i : Ideal T) (now : T) : ℕ := (i.segments now).length

/-- The same stopwatch on another clock. -/
def map {U : Type} (f : T → U) (i : Ideal T) : Ideal U :=
  { state := i.state, closed := i.closed.map (Prod.map f f), since := f i.since }

/-- The ideal stopwatch driven by the calls made to the code, at the times `time` gives them. -/
def machine {ι : Type} (time : ι → T) : Lib.Machine (Ideal T) (Op × ι) Unit where
  step i e := ((), i.step e.1 (time e.2))

end Ideal

end RtStopwatch
