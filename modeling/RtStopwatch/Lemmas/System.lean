import RtStopwatch.Lemmas.Board
import RtStopwatch.System

/-!
# The events of the firmware

Of everything an event can do, the stopwatch and the board see at most one call (`System.step_cases`): whatever the threads draw,
print or sleep, a run of the firmware is a run of calls at the instants of its events.
-/

namespace RtStopwatch

open Lib

variable {c : Config} {α : Type}

/-- A step of a thread makes no stopwatch call, or one. -/
theorem Thread.step_cases (loop : α → Code α) (th : Thread α) (now : ℕ) (w : World c) :
    ((th.step loop now w).1 = none ∧ (th.step loop now w).2.2.sw = w.sw ∧ (th.step loop now w).2.2.board = w.board) ∨
    ∃ op, (th.step loop now w).1 = some (op, (op.run boardPlatform w.sw w.board).1) ∧
      ((th.step loop now w).2.2.sw, (th.step loop now w).2.2.board) = (op.run boardPlatform w.sw w.board).2 := by
  unfold Thread.step
  split
  · exact Or.inl ⟨rfl, rfl, rfl⟩
  · match th.code with
    | .pure x => exact Or.inl ⟨rfl, rfl, rfl⟩
    | .act (.call op) k => exact Or.inr ⟨op, rfl, rfl⟩
    | .act (.load v) k => exact Or.inl ⟨rfl, rfl, rfl⟩
    | .act (.store v x) k => exact Or.inl ⟨rfl, rfl, rfl⟩
    | .act (.oled x) k => exact Or.inl ⟨rfl, rfl, rfl⟩
    | .act (.kprintf x) k => exact Or.inl ⟨rfl, rfl, rfl⟩
    | .act (.logI x) k => exact Or.inl ⟨rfl, rfl, rfl⟩
    | .act .pinRead k => exact Or.inl ⟨rfl, rfl, rfl⟩
    | .act (.buzSet on) k => exact Or.inl ⟨rfl, rfl, rfl⟩
    | .act (.mdelay ms) k => exact Or.inl ⟨rfl, rfl, rfl⟩

/-- The stopwatch and the board of a system. -/
def System.core (S : System c) : Stopwatch c × Board := (S.world.sw, S.world.board)

/-- An event makes no stopwatch call, or one, at its instant. -/
theorem System.step_cases (S : System c) (e : Event) (t : Instant) :
    ((S.step e t).1 = none ∧ (S.step e t).2.core = (S.world.sw, S.world.board.moveTo t)) ∨
    ∃ op, (S.step e t).1 = some (op, ((boardPlatform.machine c).step S.core (op, t)).1) ∧
      (S.step e t).2.core = ((boardPlatform.machine c).step S.core (op, t)).2 := by
  cases e with
  | ui =>
    rcases S.ui.step_cases (fun _ => uiEntry) t.tick (S.world.moveTo t) with ⟨h1, h2, h3⟩ | h
    · exact Or.inl ⟨h1, Prod.ext h2 h3⟩
    · exact Or.inr h
  | light =>
    rcases S.light.step_cases lightThreadEntry t.tick (S.world.moveTo t) with ⟨h1, h2, h3⟩ | h
    · exact Or.inl ⟨h1, Prod.ext h2 h3⟩
    · exact Or.inr h
  | shell =>
    rcases S.shell.step_cases (fun _ => pure ()) t.tick (S.world.moveTo t) with ⟨h1, h2, h3⟩ | h
    · exact Or.inl ⟨h1, Prod.ext h2 h3⟩
    · exact Or.inr h
  | command cmd =>
    refine Or.inl ⟨rfl, ?_⟩
    show (System.take _ cmd).core = _
    unfold System.take
    split <;> rfl
  | pin level => exact Or.inl ⟨rfl, rfl⟩

end RtStopwatch
