import RtStopwatch.Lemmas.Board

/-!
# Queries and laps only observe

Every call that reads the clock moves the statics of the time base, so two runs with the same starts, stops and resets but other
queries and laps go through different states of it. What they share is a `Course`: what the starts, stops and resets alone
determine, on a time base that counts every cycle between two of them while RUNNING, and the gap modulo `2 ^ 32` over a pause, where
nothing polls. Every run that polls often enough while RUNNING is on its course (`OnCourse`).
-/

namespace RtStopwatch

open Lib

variable {c : Config}

/-- What the starts, stops and resets of a run determine: the stopwatch's part of the time, the cycles the time base has counted
and the true count up to which it counted them. -/
structure Course where
  state : StopwatchState
  accumulatedMs : UInt32
  stateStartUs : UInt64
  counted : ℕ
  last : ℕ
  deriving DecidableEq, Repr

namespace Course

/-- The course of a stopwatch just initialised. -/
def init : Course := { state := .idle, accumulatedMs := 0, stateStartUs := 0, counted := 0, last := 0 }

/-- The cycles counted up to a true count: every cycle while RUNNING, and over a pause the gap modulo `2 ^ 32`. -/
def countAt (k : Course) (cyc : ℕ) : ℕ :=
  if k.state = .running then k.counted + (cyc - k.last) else k.counted + (cyc - k.last) % 2 ^ 32

/-- The total at a true count. -/
def totalAt (hz : UInt32) (k : Course) (cyc : ℕ) : UInt32 :=
  if k.state = .running ∧ k.stateStartUs ≠ 0 then
    k.accumulatedMs + ((usOfCyc hz (k.countAt cyc) - k.stateStartUs) / 1000).toUInt32
  else k.accumulatedMs

/-- The course after a call at a true count: only starts, stops and resets change it. -/
def step (hz : UInt32) (k : Course) (op : Op) (cyc : ℕ) : Course :=
  match op with
  | .start =>
    if k.state = .running then k
    else { k with state := .running, stateStartUs := usOfCyc hz (k.countAt cyc), counted := k.countAt cyc, last := cyc }
  | .stop =>
    if k.state = .running then
      if k.stateStartUs ≠ 0 then
        { state := .paused, accumulatedMs := k.totalAt hz cyc, stateStartUs := 0, counted := k.countAt cyc, last := cyc }
      else { k with state := .paused }
    else k
  | .reset =>
    if k.state = .running then
      { k with accumulatedMs := 0, stateStartUs := usOfCyc hz (k.countAt cyc), counted := k.countAt cyc, last := cyc }
    else { k with state := .idle, accumulatedMs := 0, stateStartUs := 0 }
  | .lap | .clearLaps | .getState | .getTotalMs | .getLapCount | .getLapMs _ | .getLatestLapMs => k

/-- The course driven by the calls made to the code. -/
def machine (hz : UInt32) : Machine Course (Op × Instant) Unit where
  step k e := ((), k.step hz e.1 e.2.cyc)

end Course

/-- The starts, stops and resets of a run, with the true counts they are made at. -/
def controls (es : List (Op × Instant)) : List (Op × ℕ) :=
  (es.filter fun e => ¬e.1.Observes).map fun e => (e.1, e.2.cyc)

/-- The course of a run is that of its starts, stops and resets. -/
theorem course_run_eq (hz : UInt32) (k : Course) (es : List (Op × Instant)) :
    (Course.machine hz).run k es = (controls es).foldl (fun k e => k.step hz e.1 e.2) k := by
  induction es generalizing k with
  | nil => rfl
  | cons e es ih =>
    rw [Machine.run_cons, ih]
    by_cases ho : e.1.Observes
    · have hk : k.step hz e.1 e.2.cyc = k := by
        unfold Course.step
        revert ho
        cases e.1 <;> simp [Op.Observes]
      simp [controls, ho, Course.machine, hk]
    · simp [controls, ho, Course.machine]

/-- The stopwatch on the board is on its course: the time base, last read at the true count `seen`, has counted every cycle
since the course's own last read, and reads nothing between two while no segment counts. -/
structure OnCourse (hz : UInt32) (k : Course) (w : Stopwatch c × Board) (seen now : ℕ) : Prop where
  gInited : w.1.gInited = true
  state : w.1.state = k.state
  accumulatedMs : w.1.accumulatedMs = k.accumulatedMs
  stateStartUs : w.1.stateStartUs = k.stateStartUs
  synced : Synced hz (k.counted + (seen - k.last)) seen w.2
  last_le : k.last ≤ seen
  stopped : ¬w.1.Live → seen = k.last
  seen_le : seen ≤ now

theorem OnCourse.init (hz : UInt32) : OnCourse (bootHz hz) Course.init (initialised c hz true) 0 0 where
  gInited := rfl
  state := rfl
  accumulatedMs := rfl
  stateStartUs := rfl
  synced := synced_init hz
  last_le := Nat.le_refl _
  stopped _ := rfl
  seen_le := Nat.le_refl _

section OnCourse

variable {hz : UInt32} {k : Course} {w : Stopwatch c × Board} {seen : ℕ}

theorem OnCourse.mono {now now' : ℕ} (hle : now ≤ now') (h : OnCourse hz k w seen now) : OnCourse hz k w seen now' :=
  { h with seen_le := h.seen_le.trans hle }

theorem OnCourse.live {now : ℕ} (h : OnCourse hz k w seen now) : w.1.Live ↔ k.state = .running ∧ k.stateStartUs ≠ 0 := by
  unfold Stopwatch.Live
  rw [h.state, h.stateStartUs]

/-- A call that reads the clock, soon enough when RUNNING: the time base has counted what the course counts. -/
theorem OnCourse.read {t : Instant} (h : OnCourse hz k w seen t.cyc)
    (hpoll : w.1.state = .running → t.cyc < seen + 2 ^ 32) :
    (w.2.readingAt t).us = usOfCyc hz (k.countAt t.cyc) ∧ Synced hz (k.countAt t.cyc) t.cyc ((w.2.moveTo t).getUs).2 := by
  have hle := h.seen_le
  have hl := h.last_le
  unfold Course.countAt
  by_cases hr : k.state = .running
  · have hg := h.synced.getUs_of_lt hle (hpoll (h.state.trans hr))
    have hsum : k.counted + (seen - k.last) + (t.cyc - seen) = k.counted + (t.cyc - k.last) := by omega
    rw [if_pos hr]
    rwa [hsum] at hg
  · have hst : seen = k.last := h.stopped fun hlive => hr (h.state ▸ hlive.1)
    have hg := h.synced.getUs hle
    rw [if_neg hr]
    rwa [hst, Nat.sub_self, Nat.add_zero] at hg

/-- The total is the course's. -/
theorem OnCourse.totalAt {t : Instant} (h : OnCourse hz k w seen t.cyc)
    (hpoll : w.1.Live → t.cyc < seen + 2 ^ 32) : w.1.totalAt (w.2.readingAt t).us = k.totalAt hz t.cyc := by
  unfold Stopwatch.totalAt Course.totalAt
  by_cases hl : w.1.Live
  · rw [if_pos hl, if_pos (h.live.mp hl), (h.read fun _ => hpoll hl).1, h.accumulatedMs, h.stateStartUs]
  · rw [if_neg hl, if_neg (fun hk => hl (h.live.mpr hk)), h.accumulatedMs]

/-- A call that leaves the time alone and does not read the clock stays on the course. -/
theorem OnCourse.skip {t : Instant} {s' : Stopwatch c} (h : OnCourse hz k w seen t.cyc) (he : SameTime w.1 s') :
    OnCourse hz k (s', w.2.moveTo t) seen t.cyc where
  gInited := he.gInited.trans h.gInited
  state := he.state.trans h.state
  accumulatedMs := he.accumulatedMs.trans h.accumulatedMs
  stateStartUs := he.stateStartUs.trans h.stateStartUs
  synced := h.synced.moveTo t
  last_le := h.last_le
  stopped hn := h.stopped fun hl => hn (he.live.mpr hl)
  seen_le := h.seen_le

/-- A call that leaves the time alone but reads the clock, which it does only when a segment counts, stays on the course. -/
theorem OnCourse.observe {t : Instant} {s' : Stopwatch c} (h : OnCourse hz k w seen t.cyc) (he : SameTime w.1 s')
    (hl : w.1.Live) (hpoll : t.cyc < seen + 2 ^ 32) : OnCourse hz k (s', ((w.2.moveTo t).getUs).2) t.cyc t.cyc where
  gInited := he.gInited.trans h.gInited
  state := he.state.trans h.state
  accumulatedMs := he.accumulatedMs.trans h.accumulatedMs
  stateStartUs := he.stateStartUs.trans h.stateStartUs
  synced := by
    have hs := (h.read fun _ => hpoll).2
    rwa [Course.countAt, if_pos (h.state ▸ hl.1)] at hs
  last_le := h.last_le.trans h.seen_le
  stopped hn := absurd (he.live.mpr hl) hn
  seen_le := Nat.le_refl _

/-- A start, stop or reset that reads the clock moves the course's own last read there. -/
theorem OnCourse.control {t : Instant} {k' : Course} {s' : Stopwatch c} (h : OnCourse hz k w seen t.cyc)
    (hpoll : w.1.state = .running → t.cyc < seen + 2 ^ 32) (hg : s'.gInited = true) (hst : s'.state = k'.state)
    (hacc : s'.accumulatedMs = k'.accumulatedMs) (hus : s'.stateStartUs = k'.stateStartUs)
    (hcount : k'.counted = k.countAt t.cyc) (hlast : k'.last = t.cyc) :
    OnCourse hz k' (s', ((w.2.moveTo t).getUs).2) t.cyc t.cyc where
  gInited := hg
  state := hst
  accumulatedMs := hacc
  stateStartUs := hus
  synced := by
    rw [hcount, hlast, Nat.sub_self, Nat.add_zero]
    exact (h.read hpoll).2
  last_le := hlast.le
  stopped _ := hlast.symm
  seen_le := Nat.le_refl _

/-- The step lemma: a call keeps the stopwatch on its course, provided the calls that read the clock while RUNNING come soon
enough. -/
theorem OnCourse.step {op : Op} {t : Instant} (h : OnCourse hz k w seen t.cyc)
    (hpoll : w.1.state = .running → op.Reads w.1 → t.cyc < seen + 2 ^ 32) :
    OnCourse hz (k.step hz op t.cyc) ((boardPlatform.machine c).step w (op, t)).2
      (if op.Reads w.1 then t.cyc else seen) t.cyc := by
  have hs := h.gInited
  rw [board_step_eq hs (op, t)]
  cases op with
  | start =>
    by_cases hr : w.1.state = .running
    · have hn : ¬Op.start.Reads w.1 := fun hn => hn hr
      rw [if_neg hn, if_neg hn, step_start_of_running hs _ hr, Course.step, if_pos (h.state ▸ hr)]
      exact h.skip (SameTime.refl w.1)
    · have hy : Op.start.Reads w.1 := hr
      rw [if_pos hy, if_pos hy, step_start hs _ hr, Course.step, if_neg (h.state ▸ hr)]
      exact h.control (fun hr' => absurd hr' hr) hs rfl h.accumulatedMs (h.read fun hr' => absurd hr' hr).1 rfl rfl
  | stop =>
    by_cases hr : w.1.state = .running
    · rw [step_stop hs _ hr, Course.step, if_pos (h.state ▸ hr)]
      by_cases hl : w.1.Live
      · have hy : Op.stop.Reads w.1 := hl
        rw [if_pos hy, if_pos hy, if_pos (h.live.mp hl).2]
        exact h.control (fun hr => hpoll hr hy) hs rfl (h.totalAt fun _ => hpoll hr hy) rfl rfl rfl
      · -- opened at reading zero: the stop does not read the clock
        have hn : ¬Op.stop.Reads w.1 := hl
        have h0 : k.stateStartUs = 0 := by
          by_contra h0
          exact hl (h.live.mpr ⟨h.state ▸ hr, h0⟩)
        rw [if_neg hn, if_neg hn, if_neg (not_not.mpr h0), Stopwatch.totalAt, if_neg hl]
        exact ⟨hs, rfl, h.accumulatedMs, h0.symm, h.synced.moveTo t, h.last_le, fun _ => h.stopped hl, h.seen_le⟩
    · have hn : ¬Op.stop.Reads w.1 := fun hl => hr hl.1
      rw [if_neg hn, if_neg hn, step_stop_of_not_running hs _ hr, Course.step, if_neg (h.state ▸ hr)]
      exact h.skip (SameTime.refl w.1)
  | reset =>
    by_cases hr : w.1.state = .running
    · have hy : Op.reset.Reads w.1 := hr
      rw [if_pos hy, if_pos hy, step_reset_of_running hs _ hr, Course.step, if_pos (h.state ▸ hr)]
      exact h.control (fun hr => hpoll hr hy) hs h.state rfl (h.read fun hr => hpoll hr hy).1 rfl rfl
    · have hn : ¬Op.reset.Reads w.1 := hr
      have hl : ¬w.1.Live := fun hl => hr hl.1
      rw [if_neg hn, if_neg hn, step_reset_of_not_running hs _ hr, Course.step, if_neg (h.state ▸ hr)]
      exact ⟨hs, rfl, rfl, rfl, h.synced.moveTo t, h.last_le, fun _ => h.stopped hl, h.seen_le⟩
  | lap | clearLaps | getTotalMs =>
    split
    · rename_i hl
      exact h.observe (step_sameTime hs (by trivial) _) hl (hpoll hl.1 hl)
    · exact h.skip (step_sameTime hs (by trivial) _)
  | getState | getLapCount | getLapMs | getLatestLapMs =>
    exact h.skip (step_sameTime hs (by trivial) _)

end OnCourse

/-! ## Two runs -/

/-- A call of `timebase_get_us` made while RUNNING comes less than `2 ^ 32` cycles after the last one; the start or reset that opened
the segment made the first. -/
def PolledWhileRunning (w : (Stopwatch c × Board) × Instant) (e : Op × Instant) : Prop :=
  w.1.1.state = .running → e.1.Reads w.1.1 → e.2.cyc < w.2.cyc + 2 ^ 32

/-- The run lemma: a run that polls often enough while RUNNING is on the course of its starts, stops and resets. -/
theorem onCourse_after {hz : UInt32} {es : List (Op × Instant)} (hclock : Clocked (fun e => e.2.cyc) es)
    (hpoll : (readMachine c).Meets PolledWhileRunning (initialised c hz true, ⟨0, 0⟩) es) {now : ℕ}
    (hnow : ∀ e ∈ es, e.2.cyc ≤ now) :
    OnCourse (bootHz hz) ((controls es).foldl (fun k e => k.step (bootHz hz) e.1 e.2) Course.init)
      ((boardPlatform.machine c).run (initialised c hz true) es)
      ((readMachine c).run (initialised c hz true, ⟨0, 0⟩) es).2.cyc now := by
  have hg := (Machine.meets_map (M := readMachine c) (N := (readMachine c).prod (Course.machine (bootHz hz)))
    (f := Prod.fst) (fun _ _ => rfl) ((initialised c hz true, ⟨0, 0⟩), Course.init) es).mpr hpoll
  have h := ((readMachine c).prod (Course.machine (bootHz hz))).run_clocked (fun e => e.2.cyc)
    (I := fun w t => OnCourse (bootHz hz) w.2 w.1.1 w.1.2.cyc t)
    (fun _ _ _ hle h => h.mono hle)
    (fun w e hg h => by
      have hs := h.step hg
      rw [← apply_ite Instant.cyc] at hs
      exact hs)
    (OnCourse.init hz) hg hclock (fun _ _ => Nat.zero_le _) (Nat.zero_le now) hnow
  rw [Machine.run_prod, course_run_eq] at h
  rw [← readMachine_run_fst (initialised c hz true, ⟨0, 0⟩)]
  exact h

/-- What such a run answers at an instant is what its course says. -/
theorem answers_of_course {hz : UInt32} {es : List (Op × Instant)} {now : Instant}
    (hclock : Clocked (fun e => e.2.cyc) (es ++ [(.getTotalMs, now)]))
    (hpoll : (readMachine c).Meets PolledWhileRunning (initialised c hz true, ⟨0, 0⟩) (es ++ [(.getTotalMs, now)])) :
    ((boardPlatform.machine c).step ((boardPlatform.machine c).run (initialised c hz true) es) (.getState, now)).1 =
      .state ((controls es).foldl (fun k e => k.step (bootHz hz) e.1 e.2) Course.init).state ∧
    ((boardPlatform.machine c).step ((boardPlatform.machine c).run (initialised c hz true) es) (.getTotalMs, now)).1 =
      .ms (((controls es).foldl (fun k e => k.step (bootHz hz) e.1 e.2) Course.init).totalAt (bootHz hz) now.cyc) := by
  obtain ⟨hpre, hlast⟩ := hpoll.at_step
  obtain ⟨hclock', hnow⟩ := hclock.at_step
  have h := onCourse_after hclock' hpre hnow
  rw [board_step_eq h.gInited, board_step_eq h.gInited, step_getState h.gInited, step_getTotalMs h.gInited, h.state]
  refine ⟨rfl, ?_⟩
  rw [h.totalAt]
  intro hl
  unfold PolledWhileRunning at hlast
  rw [readMachine_run_fst] at hlast
  exact hlast hl.1 hl

/-- Queries and laps only observe. Take two runs after `stopwatch_init` with the same starts, stops and resets at the same true
counts, and any other calls between them. When in each run, up to and with a query of the total at `now`, the calls of
`timebase_get_us` made while RUNNING are less than `2 ^ 32` cycles apart, the state and the total at `now` are the same in both. -/
theorem queries_and_laps_observe (c : Config) (hz : UInt32) (es es' : List (Op × Instant)) (now : Instant)
    (hsame : controls es = controls es')
    (hclock : Clocked (fun e => e.2.cyc) (es ++ [(.getTotalMs, now)]))
    (hclock' : Clocked (fun e => e.2.cyc) (es' ++ [(.getTotalMs, now)]))
    (hpoll : (readMachine c).Meets PolledWhileRunning (initialised c hz true, ⟨0, 0⟩) (es ++ [(.getTotalMs, now)]))
    (hpoll' : (readMachine c).Meets PolledWhileRunning (initialised c hz true, ⟨0, 0⟩) (es' ++ [(.getTotalMs, now)])) :
    ((boardPlatform.machine c).step ((boardPlatform.machine c).run (initialised c hz true) es) (.getState, now)).1 =
      ((boardPlatform.machine c).step ((boardPlatform.machine c).run (initialised c hz true) es') (.getState, now)).1 ∧
    ((boardPlatform.machine c).step ((boardPlatform.machine c).run (initialised c hz true) es) (.getTotalMs, now)).1 =
      ((boardPlatform.machine c).step ((boardPlatform.machine c).run (initialised c hz true) es') (.getTotalMs, now)).1 := by
  obtain ⟨h1, h2⟩ := answers_of_course hclock hpoll
  obtain ⟨h1', h2'⟩ := answers_of_course hclock' hpoll'
  rw [h1, h2, h1', h2', hsame]
  exact ⟨rfl, rfl⟩

/-- A segment of five million cycles, queried and lapped in one run and left alone in the other, satisfies the hypotheses. -/
theorem queries_and_laps_observe_segment :
    ((boardPlatform.machine Config.standard).step ((boardPlatform.machine Config.standard).run
      (initialised Config.standard 72000000 true)
      [(.start, ⟨72, 0⟩), (.lap, ⟨1000000, 13⟩), (.getTotalMs, ⟨2000000, 27⟩), (.clearLaps, ⟨2000000, 27⟩)])
      (.getTotalMs, ⟨5000000, 69⟩)).1 =
    ((boardPlatform.machine Config.standard).step ((boardPlatform.machine Config.standard).run
      (initialised Config.standard 72000000 true) [(.start, ⟨72, 0⟩)]) (.getTotalMs, ⟨5000000, 69⟩)).1 :=
  (queries_and_laps_observe Config.standard 72000000
    [(.start, ⟨72, 0⟩), (.lap, ⟨1000000, 13⟩), (.getTotalMs, ⟨2000000, 27⟩), (.clearLaps, ⟨2000000, 27⟩)]
    [(.start, ⟨72, 0⟩)] ⟨5000000, 69⟩ (by decide) (by unfold Clocked; decide) (by unfold Clocked; decide)
    ⟨fun _ _ => by decide, fun _ _ => by decide, fun _ _ => by decide, fun _ _ => by decide, fun _ _ => by decide, trivial⟩
    ⟨fun _ _ => by decide, fun _ _ => by decide, trivial⟩).2

end RtStopwatch
