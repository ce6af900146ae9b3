import RtStopwatch.Lemmas.Refine

/-!
# A reset stopwatch is a fresh one

On any platform: nothing a stopwatch did before a reset can be told from what it answers after it. The two stopwatches compared
differ at most in `state_start_tick`, which no call reads.
-/

namespace RtStopwatch

open Lib

variable {c : Config} {ι τ : Type}

/-- The stopwatch without the field that no call reads. -/
def Stopwatch.eraseTick (s : Stopwatch c) : Stopwatch c := { s with stateStartTick := 0 }

theorem eraseTick_reads (s : Stopwatch c) (op : Op) : op.Reads s.eraseTick ↔ op.Reads s := by
  cases op <;> exact Iff.rfl

theorem eraseTick_storeLap (s : Stopwatch c) (x : UInt32) : s.eraseTick.storeLap x = (s.storeLap x).eraseTick := by
  unfold Stopwatch.storeLap
  by_cases h : s.lapCount.toNat < c.maxLaps
  · rw [dif_pos h, dif_pos (show s.eraseTick.lapCount.toNat < c.maxLaps from h)]
    rfl
  · rw [dif_neg h, dif_neg (show ¬s.eraseTick.lapCount.toNat < c.maxLaps from h)]
    rfl

/-- A call answers alike with the field erased, and leaves stopwatches that differ in it alone. -/
theorem step_eraseTick {s : Stopwatch c} (hs : s.gInited = true) (op : Op) (r : Reading) :
    (s.eraseTick.step op r).1 = (s.step op r).1 ∧ (s.eraseTick.step op r).2.eraseTick = (s.step op r).2.eraseTick := by
  have hs' : s.eraseTick.gInited = true := hs
  cases op with
  | start =>
    by_cases h : s.state = .running
    · rw [step_start_of_running hs r h, step_start_of_running hs' r h]
      exact ⟨rfl, rfl⟩
    · rw [step_start hs r h, step_start hs' r h]
      exact ⟨rfl, rfl⟩
  | stop =>
    by_cases h : s.state = .running
    · rw [step_stop hs r h, step_stop hs' r h]
      exact ⟨rfl, rfl⟩
    · rw [step_stop_of_not_running hs r h, step_stop_of_not_running hs' r h]
      exact ⟨rfl, rfl⟩
  | reset =>
    by_cases h : s.state = .running
    · rw [step_reset_of_running hs r h, step_reset_of_running hs' r h]
      exact ⟨rfl, rfl⟩
    · rw [step_reset_of_not_running hs r h, step_reset_of_not_running hs' r h]
      exact ⟨rfl, rfl⟩
  | lap =>
    rw [step_lap hs, step_lap hs', eraseTick_storeLap]
    exact ⟨rfl, rfl⟩
  | clearLaps => rw [step_clearLaps hs, step_clearLaps hs']; exact ⟨rfl, rfl⟩
  | getState => rw [step_getState hs, step_getState hs']; exact ⟨rfl, rfl⟩
  | getTotalMs => rw [step_getTotalMs hs, step_getTotalMs hs']; exact ⟨rfl, rfl⟩
  | getLapCount => rw [step_getLapCount hs, step_getLapCount hs']; exact ⟨rfl, rfl⟩
  | getLapMs i => rw [step_getLapMs hs, step_getLapMs hs']; exact ⟨rfl, rfl⟩
  | getLatestLapMs => rw [step_getLatestLapMs hs, step_getLatestLapMs hs']; exact ⟨rfl, rfl⟩

/-- Two worlds that differ at most in `state_start_tick`. -/
def SameButTick (w w' : Stopwatch c × τ) : Prop :=
  w.1.gInited = true ∧ w'.1.gInited = true ∧ w.1.eraseTick = w'.1.eraseTick ∧ w.2 = w'.2

/-- Such worlds answer every call alike and stay such, on any platform. -/
theorem SameButTick.step (P : Platform ι τ) {w w' : Stopwatch c × τ} (h : SameButTick w w') (e : Op × ι) :
    ((P.machine c).step w e).1 = ((P.machine c).step w' e).1 ∧
      SameButTick ((P.machine c).step w e).2 ((P.machine c).step w' e).2 := by
  obtain ⟨s, t⟩ := w
  obtain ⟨s', t'⟩ := w'
  obtain ⟨op, i⟩ := e
  obtain ⟨hs, hs', he, ht⟩ := h
  simp only at hs hs' he ht
  subst ht
  simp only [Platform.machine, Op.run_eq P op _ _ hs, Op.run_eq P op _ _ hs']
  generalize (⟨(P.timebaseGetUs (P.moveTo i t)).1, P.rtTickGet (P.moveTo i t)⟩ : Reading) = r
  obtain ⟨h1, h2⟩ := step_eraseTick hs op r
  obtain ⟨h1', h2'⟩ := step_eraseTick hs' op r
  have hreads : op.Reads s ↔ op.Reads s' := by rw [← eraseTick_reads s, he, eraseTick_reads s']
  refine ⟨by rw [← h1, he, h1'], step_gInited hs op r, step_gInited hs' op r, by rw [← h2, he, h2'], ?_⟩
  simp only [hreads]

/-- A reset of an initialised stopwatch leaves, but for `state_start_tick`, a fresh one: just started if it was RUNNING, and left
alone otherwise. -/
theorem reset_sameButTick (P : Platform ι τ) {s : Stopwatch c} (hs : s.gInited = true) (t : τ) :
    SameButTick (stopwatchReset P s t)
      (if s.state = .running then stopwatchStart P (Stopwatch.fresh c) t else (Stopwatch.fresh c, t)) := by
  by_cases h : s.state = .running
  · have hf : (Stopwatch.fresh c).state ≠ .running := nofun
    simp only [stopwatchReset, stopwatchStart, ensureInit_of_inited _ _ _ hs, h, if_true,
      ensureInit_of_inited P (Stopwatch.fresh c) t rfl, if_neg hf]
    refine ⟨hs, rfl, ?_, rfl⟩
    simp [Stopwatch.eraseTick, Stopwatch.fresh, Stopwatch.zeroed, hs]
  · simp only [stopwatchReset, ensureInit_of_inited _ _ _ hs, if_neg h]
    refine ⟨hs, rfl, ?_, rfl⟩
    simp [Stopwatch.eraseTick, Stopwatch.fresh, Stopwatch.zeroed, hs]

/-- A reset equals a fresh stopwatch. On every platform (whatever its clock does), after every run `pre` from `stopwatch_init` and a
reset at any instant `i`, every continuation returns the values it returns on a fresh stopwatch that shares the platform as it
is, on which `stopwatch_start` was called at the instant of the reset if and only if the state before it was RUNNING. -/
theorem reset_equals_fresh (P : Platform ι τ) (c : Config) (t₀ : τ) (pre : List (Op × ι)) (i : ι) (es : List (Op × ι)) :
    (P.machine c).outs
        (stopwatchReset P ((P.machine c).run (Stopwatch.fresh c, t₀) pre).1
          (P.moveTo i ((P.machine c).run (Stopwatch.fresh c, t₀) pre).2)) es =
      (P.machine c).outs
        (if ((P.machine c).run (Stopwatch.fresh c, t₀) pre).1.state = .running then
          stopwatchStart P (Stopwatch.fresh c) (P.moveTo i ((P.machine c).run (Stopwatch.fresh c, t₀) pre).2)
        else (Stopwatch.fresh c, P.moveTo i ((P.machine c).run (Stopwatch.fresh c, t₀) pre).2)) es :=
  (P.machine c).outs_eq_of_bisim (fun _ _ e h => h.step P e)
    (reset_sameButTick P (machine_run_gInited P rfl pre) _) es

end RtStopwatch
