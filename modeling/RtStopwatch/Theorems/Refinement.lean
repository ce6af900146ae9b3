import RtStopwatch.Lemmas.Refine

/-!
# The stopwatch against the ideal one

Over every run of calls under a clock that never goes back: the state and the total are the ideal ones
(`stopwatch_refines_ideal`), provided no reading is zero; and a zero reading at the opening of a segment is exactly what makes
the code drop that segment (`running_total_iff`).
-/

namespace RtStopwatch

open Lib

variable {c : Config}

/-- The stopwatch after a run of calls from `stopwatch_init`. -/
def Stopwatch.after (c : Config) (es : List (Op × Reading)) : Stopwatch c :=
  (stopwatchMachine c).run (Stopwatch.fresh c) es

/-- The ideal stopwatch after the same calls, in microseconds. -/
def Ideal.after (es : List (Op × Reading)) : Ideal ℕ := (Ideal.machine fun r : Reading => r.us.toNat).run (Ideal.init 0) es

/-- The run lemma of `Counts`. -/
theorem counts_after {es : List (Op × Reading)} (hclock : Clocked (fun e => e.2.us.toNat) es) {now : ℕ}
    (hnow : ∀ e ∈ es, e.2.us.toNat ≤ now) : Counts (Stopwatch.after c es) (Ideal.after es) now := by
  have h := ((stopwatchMachine c).prod (Ideal.machine fun r : Reading => r.us.toNat)).run_clocked
    (fun e => e.2.us.toNat) (G := fun _ _ => True) (I := fun w t => Counts w.1 w.2 t)
    (fun _ _ _ hle h => h.mono hle) (fun _ e _ h => h.step e.1) (s := (Stopwatch.fresh c, Ideal.init 0)) (Counts.fresh 0)
    (Machine.meets_of_forall _ (fun _ _ _ => trivial) _) hclock (fun _ _ => Nat.zero_le _) (Nat.zero_le now) hnow
  rw [Machine.run_prod] at h
  exact h

/-- Every segment is opened at the reading of some call of the run. -/
theorem openedAt_after {Q : ℕ → Prop} {es : List (Op × Reading)} (hq : ∀ e ∈ es, Q e.2.us.toNat) :
    (Ideal.after es).OpenedAt Q := by
  unfold Ideal.after
  generalize hi : Ideal.init 0 = i
  have h : i.OpenedAt Q := hi ▸ Ideal.openedAt_init 0
  clear hi
  induction es generalizing i with
  | nil => exact h
  | cons e es ih => exact ih (fun e' he' => hq e' (by simp [he'])) _ (h.step e.1 (hq e (by simp)))

/-- The stopwatch refines the ideal one. After any run of calls under a clock that never goes back and never reads zero: the
state is the ideal one's; a start while RUNNING and a stop while not RUNNING change nothing; and at any reading from then on the
total is the sum over the segments since the last reset of their microseconds, each rounded down to milliseconds, modulo
`2 ^ 32`. So, while the segments hold less than `2 ^ 32` ms, the total is short of them by at most 999 us a segment. -/
theorem stopwatch_refines_ideal (c : Config) (es : List (Op × Reading)) (hclock : Clocked (fun e => e.2.us.toNat) es)
    (hpos : ∀ e ∈ es, e.2.us ≠ 0) :
    (∀ now, ((Stopwatch.after c es).step .getState now).1 = .state (Ideal.after es).state) ∧
    (∀ now, (Ideal.after es).state = .running →
      (Stopwatch.after c es).step .start now = (.done, Stopwatch.after c es)) ∧
    (∀ now, (Ideal.after es).state ≠ .running →
      (Stopwatch.after c es).step .stop now = (.done, Stopwatch.after c es)) ∧
    ∀ now : Reading, (∀ e ∈ es, e.2.us.toNat ≤ now.us.toNat) →
      ∃ total : UInt32, ((Stopwatch.after c es).step .getTotalMs now).1 = .ms total ∧
        total.toNat = (Ideal.after es).totalMs now.us.toNat % 2 ^ 32 ∧
        ((Ideal.after es).elapsed now.us.toNat < 1000 * 2 ^ 32 →
          1000 * total.toNat ≤ (Ideal.after es).elapsed now.us.toNat ∧
          (Ideal.after es).elapsed now.us.toNat - 1000 * total.toNat ≤ 999 * (Ideal.after es).count now.us.toNat) := by
  obtain ⟨m, hm⟩ : ∃ m, ∀ e ∈ es, e.2.us.toNat ≤ m := ⟨2 ^ 64, fun e _ => Nat.le_of_lt e.2.us.toNat_lt⟩
  have h0 := counts_after (c := c) hclock hm
  have hs := h0.gInited
  refine ⟨?_, ?_, ?_, ?_⟩
  · intro now
    rw [step_getState hs, h0.state]
  · intro now hr
    exact step_start_of_running hs now (h0.state.trans hr)
  · intro now hr
    exact step_stop_of_not_running hs now (h0.state ▸ hr)
  · intro now hnow
    have h := counts_after (c := c) hclock hnow
    have hopen : (Ideal.after es).OpenedAt (· ≠ 0) :=
      openedAt_after fun e he h0 => hpos e he (UInt64.toNat_inj.mp h0)
    have ht : ((Stopwatch.after c es).totalAt now.us).toNat = (Ideal.after es).totalMs now.us.toNat % 2 ^ 32 := by
      rw [h.totalAt, Ideal.countedMs_eq_totalMs (hopen.segments _), UInt32.toNat_ofNat']
    refine ⟨_, by rw [step_getTotalMs hs], ht, ?_⟩
    intro hlt
    obtain ⟨h1, h2⟩ := (Ideal.after es).totalMs_bounds now.us.toNat
    have hsmall : (Ideal.after es).totalMs now.us.toNat < 2 ^ 32 := by omega
    rw [ht, Nat.mod_eq_of_lt hsmall]
    omega

/-- A run with a pause, a redundant start and a reset while RUNNING satisfies the hypotheses. -/
theorem stopwatch_refines_ideal_run :
    ((Stopwatch.after Config.standard [(.start, ⟨5, 0⟩), (.start, ⟨900, 1⟩), (.stop, ⟨2500, 3⟩), (.start, ⟨9000, 9⟩),
      (.reset, ⟨9500, 10⟩)]).step .getState ⟨9500, 10⟩).1 = .state .running :=
  (stopwatch_refines_ideal Config.standard
    [(.start, ⟨5, 0⟩), (.start, ⟨900, 1⟩), (.stop, ⟨2500, 3⟩), (.start, ⟨9000, 9⟩), (.reset, ⟨9500, 10⟩)]
    (by unfold Clocked; decide) (by decide)).1 ⟨9500, 10⟩

/-! ## A segment opened at zero -/

/-- After any run of calls under a clock that never goes back, in a RUNNING state whose segment was opened at reading `r`
(`Ideal.since`): at every later reading `now` the total is `accumulated_ms + (now - r) / 1000` modulo `2 ^ 32` and a stop
leaves exactly that in `accumulated_ms`, if and only if `r` is not zero. -/
theorem running_total_iff (c : Config) (es : List (Op × Reading)) (hclock : Clocked (fun e => e.2.us.toNat) es)
    (hrun : (Stopwatch.after c es).state = .running) :
    (∀ now : Reading, (∀ e ∈ es, e.2.us.toNat ≤ now.us.toNat) →
      ((Stopwatch.after c es).step .getTotalMs now).1 =
        .ms ((Stopwatch.after c es).accumulatedMs +
          UInt32.ofNat ((now.us.toNat - (Ideal.after es).since) / 1000)) ∧
      ((Stopwatch.after c es).step .stop now).2.accumulatedMs =
        (Stopwatch.after c es).accumulatedMs + UInt32.ofNat ((now.us.toNat - (Ideal.after es).since) / 1000)) ↔
    (Ideal.after es).since ≠ 0 := by
  have hmax : ∀ e ∈ es, e.2.us.toNat ≤ (18446744073709551615 : UInt64).toNat := by
    intro e _
    have := e.2.us.toNat_lt
    have : (18446744073709551615 : UInt64).toNat = 2 ^ 64 - 1 := by decide
    omega
  have h0 := counts_after (c := c) hclock hmax
  have hs := h0.gInited
  have hsince := h0.since hrun
  constructor
  · intro h hz
    -- at the last reading of all, `2 ^ 64 - 1`, the milliseconds since zero are not a multiple of `2 ^ 32`
    have hl : ¬(Stopwatch.after c es).Live := by
      intro hl
      apply hl.2
      rw [← UInt64.toNat_inj, hsince, hz]
      rfl
    have h1 := (h ⟨18446744073709551615, 0⟩ hmax).1
    rw [step_getTotalMs hs, Stopwatch.totalAt, if_neg hl, hz, Ret.ms.injEq, left_eq_add] at h1
    exact absurd h1 (by decide)
  · intro hz now hnow
    have h := counts_after (c := c) hclock hnow
    have hl : (Stopwatch.after c es).Live := by
      refine ⟨hrun, ?_⟩
      intro h0
      apply hz
      rw [← hsince, h0]
      rfl
    have hle : (Stopwatch.after c es).stateStartUs.toNat ≤ now.us.toNat := by
      rw [hsince]
      exact h.since_le hrun
    have ht : (Stopwatch.after c es).totalAt now.us =
        (Stopwatch.after c es).accumulatedMs + UInt32.ofNat ((now.us.toNat - (Ideal.after es).since) / 1000) := by
      rw [Stopwatch.totalAt, if_pos hl, msSince_eq hle, hsince]
    constructor
    · rw [step_getTotalMs hs, ht]
    · rw [step_stop hs now hrun]
      exact ht

/-- A segment opened at reading 1: the hypotheses of `running_total_iff` hold, and so does its condition. -/
theorem running_total_iff_from_one :
    ((Stopwatch.after Config.standard [(.start, ⟨1, 0⟩)]).step .getTotalMs ⟨5000001, 5000⟩).1 = .ms 5000 :=
  (((running_total_iff Config.standard [(.start, ⟨1, 0⟩)] (by unfold Clocked; decide) rfl).mpr (by decide))
    ⟨5000001, 5000⟩ (by decide)).1

/-- A start at reading zero: five seconds later the total still reads 0 and a stop adds nothing, where 5000 ms have passed since
the reading that opened the segment. -/
theorem segment_opened_at_zero_dropped :
    (Stopwatch.after Config.standard [(.start, ⟨0, 0⟩)]).state = .running ∧
    ¬(((Stopwatch.after Config.standard [(.start, ⟨0, 0⟩)]).step .getTotalMs ⟨5000000, 5000⟩).1 =
        .ms ((Stopwatch.after Config.standard [(.start, ⟨0, 0⟩)]).accumulatedMs + UInt32.ofNat ((5000000 - 0) / 1000)) ∧
      ((Stopwatch.after Config.standard [(.start, ⟨0, 0⟩)]).step .stop ⟨5000000, 5000⟩).2.accumulatedMs =
        (Stopwatch.after Config.standard [(.start, ⟨0, 0⟩)]).accumulatedMs + UInt32.ofNat ((5000000 - 0) / 1000)) := by
  decide

end RtStopwatch
