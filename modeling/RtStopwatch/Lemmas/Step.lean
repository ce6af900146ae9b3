import RtStopwatch.Stopwatch

/-!
# What each call does

One equation for each call of an initialised stopwatch, at a reading of the clock, and `Op.run_eq`: on any platform a call is
that step at the platform's reading, and the platform moves by one `timebase_get_us` exactly when the call reads the clock.
-/

namespace RtStopwatch

variable {c : Config} {ι τ : Type}

/-- The segment being run counts: RUNNING, with a start reading that is not the `not started` zero. -/
def Stopwatch.Live (s : Stopwatch c) : Prop := s.state = .running ∧ s.stateStartUs ≠ 0

instance (s : Stopwatch c) : Decidable s.Live := inferInstanceAs (Decidable (_ ∧ _))

/-- The total as of a reading: what `stopwatch_get_total_ms` returns there. -/
def Stopwatch.totalAt (s : Stopwatch c) (us : UInt64) : UInt32 :=
  if s.Live then s.accumulatedMs + ((us - s.stateStartUs) / 1000).toUInt32 else s.accumulatedMs

/-- The call reads the clock. -/
def Op.Reads (s : Stopwatch c) : Op → Prop
  | .start => s.state ≠ .running
  | .reset => s.state = .running
  | .stop | .lap | .clearLaps | .getTotalMs => s.Live
  | .getState | .getLapCount | .getLapMs _ | .getLatestLapMs => False

instance (s : Stopwatch c) (op : Op) : Decidable (op.Reads s) :=
  match op with
  | .start => inferInstanceAs (Decidable (s.state ≠ .running))
  | .reset => inferInstanceAs (Decidable (s.state = .running))
  | .stop | .lap | .clearLaps | .getTotalMs => inferInstanceAs (Decidable s.Live)
  | .getState | .getLapCount | .getLapMs _ | .getLatestLapMs => inferInstanceAs (Decidable False)

/-- `stopwatch_init` succeeds where the mutex can be created, and leaves a fresh stopwatch. -/
theorem stopwatchInit_fresh (P : Platform ι τ) (s : Stopwatch c) (t : τ) (hs : s.gInited = false)
    (hm : P.rtMutexCreate t = true) : stopwatchInit P s t = (.eok, Stopwatch.fresh c, P.timebaseInit t) := by
  simp [stopwatchInit, hs, hm]

theorem ensureInit_of_inited (P : Platform ι τ) (s : Stopwatch c) (t : τ) (hs : s.gInited = true) :
    ensureInit P s t = (.eok, s, t) := by
  simp [ensureInit, hs]

theorem getNowTotalMsUnsafe_eq (P : Platform ι τ) (s : Stopwatch c) (t : τ) :
    getNowTotalMsUnsafe P s t =
      (s.totalAt (P.timebaseGetUs t).1, if s.Live then (P.timebaseGetUs t).2 else t) := by
  by_cases h : s.Live
  · simp only [Stopwatch.totalAt, if_pos h]
    exact if_pos h
  · simp only [Stopwatch.totalAt, if_neg h]
    exact if_neg h

/-! ## Each call at a reading -/

section Step

variable {s : Stopwatch c} (hs : s.gInited = true) (r : Reading)
include hs

theorem step_start_of_running (h : s.state = .running) : s.step .start r = (.done, s) := by
  simp [Stopwatch.step, Op.run, Op.call, Op.ret, stopwatchStart, ensureInit_of_inited, hs, h]

theorem step_start (h : s.state ≠ .running) :
    s.step .start r = (.done, { s with stateStartTick := r.tick, stateStartUs := r.us, state := .running }) := by
  simp [Stopwatch.step, Op.run, Op.call, Op.ret, stopwatchStart, ensureInit_of_inited, hs, h, oracle]

theorem step_stop_of_not_running (h : s.state ≠ .running) : s.step .stop r = (.done, s) := by
  simp [Stopwatch.step, Op.run, Op.call, Op.ret, stopwatchStop, ensureInit_of_inited, hs, h]

theorem step_stop (h : s.state = .running) :
    s.step .stop r =
      (.done, { s with accumulatedMs := s.totalAt r.us, stateStartUs := 0, state := .paused }) := by
  by_cases h0 : s.stateStartUs = 0
  · have hl : ¬s.Live := fun hl => hl.2 h0
    simp only [Stopwatch.step, Op.run, Op.call, Op.ret, stopwatchStop, ensureInit_of_inited _ _ _ hs, h, h0, Stopwatch.totalAt, hl]
    simp [← h0]
  · have hl : s.Live := ⟨h, h0⟩
    simp [Stopwatch.step, Op.run, Op.call, Op.ret, stopwatchStop, ensureInit_of_inited, hs, h, h0, Stopwatch.totalAt, hl, oracle]

theorem step_reset_of_running (h : s.state = .running) :
    s.step .reset r =
      (.done, { s with
        accumulatedMs := 0, lastLapTotalMs := 0, lapCount := 0, lapDurationsMs := Vector.replicate c.maxLaps 0
        stateStartTick := r.tick, stateStartUs := r.us }) := by
  simp [Stopwatch.step, Op.run, Op.call, Op.ret, stopwatchReset, ensureInit_of_inited, hs, h, oracle]

theorem step_reset_of_not_running (h : s.state ≠ .running) :
    s.step .reset r =
      (.done, { s with
        accumulatedMs := 0, lastLapTotalMs := 0, lapCount := 0, lapDurationsMs := Vector.replicate c.maxLaps 0
        state := .idle, stateStartUs := 0 }) := by
  simp [Stopwatch.step, Op.run, Op.call, Op.ret, stopwatchReset, ensureInit_of_inited, hs, h]

theorem step_lap :
    s.step .lap r =
      (.lap .eok (some (s.totalAt r.us - s.lastLapTotalMs)),
        { s.storeLap (s.totalAt r.us - s.lastLapTotalMs) with lastLapTotalMs := s.totalAt r.us }) := by
  simp [Stopwatch.step, Op.run, Op.call, Op.ret, stopwatchLap, ensureInit_of_inited, hs, getNowTotalMsUnsafe_eq, oracle]

theorem step_clearLaps :
    s.step .clearLaps r =
      (.done, { s with
        lapCount := 0, lastLapTotalMs := s.totalAt r.us, lapDurationsMs := Vector.replicate c.maxLaps 0 }) := by
  simp only [Stopwatch.step, Op.run, Op.call, Op.ret, stopwatchClearLaps, hs, if_true, getNowTotalMsUnsafe_eq, oracle]
  rfl

theorem step_getState : s.step .getState r = (.state s.state, s) := by
  simp [Stopwatch.step, Op.run, Op.call, Op.ret, stopwatchGetState, hs]

theorem step_getTotalMs : s.step .getTotalMs r = (.ms (s.totalAt r.us), s) := by
  simp [Stopwatch.step, Op.run, Op.call, Op.ret, stopwatchGetTotalMs, hs, getNowTotalMsUnsafe_eq, oracle]

theorem step_getLapCount : s.step .getLapCount r = (.count s.lapCount, s) := by
  simp [Stopwatch.step, Op.run, Op.call, Op.ret, stopwatchGetLapCount, hs]

theorem step_getLapMs (i : UInt16) :
    s.step (.getLapMs i) r = (.ms (if i < s.lapCount then s.slot i.toNat else 0), s) := by
  simp [Stopwatch.step, Op.run, Op.call, Op.ret, stopwatchGetLapMs, hs]

theorem step_getLatestLapMs :
    s.step .getLatestLapMs r = (.ms (if 0 < s.lapCount then s.slot (s.lapCount.toNat - 1) else 0), s) := by
  simp [Stopwatch.step, Op.run, Op.call, Op.ret, stopwatchGetLatestLapMs, hs]

end Step

/-! ## On any platform -/

/-- On any platform, a call of an initialised stopwatch is the step at the platform's reading; the platform moves by one
`timebase_get_us` when the call reads the clock, and not at all otherwise. -/
theorem Op.run_eq (P : Platform ι τ) (op : Op) (s : Stopwatch c) (t : τ) (hs : s.gInited = true) :
    op.run P s t =
      ((s.step op ⟨(P.timebaseGetUs t).1, P.rtTickGet t⟩).1, (s.step op ⟨(P.timebaseGetUs t).1, P.rtTickGet t⟩).2,
        if op.Reads s then (P.timebaseGetUs t).2 else t) := by
  cases op with
  | start =>
    by_cases h : s.state = .running
    · simp [step_start_of_running hs _ h, Op.run, Op.call, Op.ret, Op.Reads, stopwatchStart, ensureInit_of_inited, hs, h]
    · simp [step_start hs _ h, Op.run, Op.call, Op.ret, Op.Reads, stopwatchStart, ensureInit_of_inited, hs, h]
  | stop =>
    by_cases h : s.state = .running
    · by_cases h0 : s.stateStartUs = 0
      · have hl : ¬s.Live := fun hl => hl.2 h0
        simp only [step_stop hs _ h, Op.run, Op.call, Op.ret, Op.Reads, stopwatchStop, ensureInit_of_inited _ _ _ hs, h,
          Stopwatch.totalAt, hl]
        simp [h0]
      · have hl : s.Live := ⟨h, h0⟩
        simp [step_stop hs _ h, Op.run, Op.call, Op.ret, Op.Reads, stopwatchStop, ensureInit_of_inited, hs, h, h0, Stopwatch.totalAt, hl]
    · have hl : ¬s.Live := fun hl => h hl.1
      simp [step_stop_of_not_running hs _ h, Op.run, Op.call, Op.ret, Op.Reads, stopwatchStop, ensureInit_of_inited, hs, h, hl]
  | reset =>
    by_cases h : s.state = .running
    · simp [step_reset_of_running hs _ h, Op.run, Op.call, Op.ret, Op.Reads, stopwatchReset, ensureInit_of_inited, hs, h]
    · simp [step_reset_of_not_running hs _ h, Op.run, Op.call, Op.ret, Op.Reads, stopwatchReset, ensureInit_of_inited, hs, h]
  | lap =>
    simp only [step_lap hs, Op.run, Op.call, Op.ret, stopwatchLap, ensureInit_of_inited _ _ _ hs, getNowTotalMsUnsafe_eq]
    rfl
  | clearLaps =>
    simp only [step_clearLaps hs, Op.run, Op.call, Op.ret, stopwatchClearLaps, hs, if_true, getNowTotalMsUnsafe_eq]
    rfl
  | getState => simp [step_getState hs, Op.run, Op.call, Op.ret, Op.Reads, stopwatchGetState, hs]
  | getTotalMs =>
    simp only [step_getTotalMs hs, Op.run, Op.call, Op.ret, stopwatchGetTotalMs, hs, if_true, getNowTotalMsUnsafe_eq]
    rfl
  | getLapCount => simp [step_getLapCount hs, Op.run, Op.call, Op.ret, Op.Reads, stopwatchGetLapCount, hs]
  | getLapMs i => simp [step_getLapMs hs, Op.run, Op.call, Op.ret, Op.Reads, stopwatchGetLapMs, hs]
  | getLatestLapMs => simp [step_getLatestLapMs hs, Op.run, Op.call, Op.ret, Op.Reads, stopwatchGetLatestLapMs, hs]

end RtStopwatch
