import RtStopwatch.Lemmas.Step
import RtStopwatch.Lemmas.Ideal

/-!
# The stopwatch follows the ideal one

`Tracks` holds under any clock that never goes back: the state is the ideal one's, and while RUNNING the start reading is the
reading the open segment began at. `Counts` adds the accumulated milliseconds: those of every closed segment, but for the ones
opened at reading zero, since the code takes a start reading of zero for `not started`.
-/

namespace RtStopwatch

variable {c : Config}

/-! ## Frames -/

section StoreLap

variable (s : Stopwatch c) (x : UInt32)

@[simp] theorem storeLap_state : (s.storeLap x).state = s.state := by
  unfold Stopwatch.storeLap; split <;> rfl

@[simp] theorem storeLap_accumulatedMs : (s.storeLap x).accumulatedMs = s.accumulatedMs := by
  unfold Stopwatch.storeLap; split <;> rfl

@[simp] theorem storeLap_stateStartUs : (s.storeLap x).stateStartUs = s.stateStartUs := by
  unfold Stopwatch.storeLap; split <;> rfl

@[simp] theorem storeLap_gInited : (s.storeLap x).gInited = s.gInited := by
  unfold Stopwatch.storeLap; split <;> rfl

end StoreLap

/-- The calls that are not start, stop or reset. -/
def Op.Observes : Op → Prop
  | .start | .stop | .reset => False
  | .lap | .clearLaps | .getState | .getTotalMs | .getLapCount | .getLapMs _ | .getLatestLapMs => True

instance (op : Op) : Decidable op.Observes :=
  match op with
  | .start | .stop | .reset => inferInstanceAs (Decidable False)
  | .lap | .clearLaps | .getState | .getTotalMs | .getLapCount | .getLapMs _ | .getLatestLapMs =>
    inferInstanceAs (Decidable True)

/-- Two stopwatches agree on what the time depends on. -/
structure SameTime (s s' : Stopwatch c) : Prop where
  gInited : s'.gInited = s.gInited
  state : s'.state = s.state
  accumulatedMs : s'.accumulatedMs = s.accumulatedMs
  stateStartUs : s'.stateStartUs = s.stateStartUs

theorem SameTime.refl (s : Stopwatch c) : SameTime s s := ⟨rfl, rfl, rfl, rfl⟩

theorem SameTime.live {s s' : Stopwatch c} (h : SameTime s s') : s'.Live ↔ s.Live := by
  unfold Stopwatch.Live
  rw [h.state, h.stateStartUs]

theorem SameTime.totalAt {s s' : Stopwatch c} (h : SameTime s s') (us : UInt64) : s'.totalAt us = s.totalAt us := by
  simp only [Stopwatch.totalAt, h.live, h.accumulatedMs, h.stateStartUs]

/-- The calls that are not start, stop or reset leave the time alone. -/
theorem step_sameTime {s : Stopwatch c} (hs : s.gInited = true) {op : Op} (ho : op.Observes) (r : Reading) :
    SameTime s (s.step op r).2 := by
  cases op with
  | start => exact ho.elim
  | stop => exact ho.elim
  | reset => exact ho.elim
  | lap =>
    rw [step_lap hs]
    exact ⟨storeLap_gInited s _, storeLap_state s _, storeLap_accumulatedMs s _, storeLap_stateStartUs s _⟩
  | clearLaps => rw [step_clearLaps hs]; exact ⟨rfl, rfl, rfl, rfl⟩
  | getState => rw [step_getState hs]; exact SameTime.refl s
  | getTotalMs => rw [step_getTotalMs hs]; exact SameTime.refl s
  | getLapCount => rw [step_getLapCount hs]; exact SameTime.refl s
  | getLapMs i => rw [step_getLapMs hs]; exact SameTime.refl s
  | getLatestLapMs => rw [step_getLatestLapMs hs]; exact SameTime.refl s

/-- Everything a call can do to the time, on the code and on an ideal stopwatch in the same state: nothing (the calls that only
observe, and the redundant starts and stops), open a segment, close it, forget the segments and open a new one, or forget the
segments and fall idle. -/
theorem step_cases {T : Type} {s : Stopwatch c} {i : Ideal T} (hs : s.gInited = true) (hst : s.state = i.state) (op : Op)
    (r : Reading) (now : T) :
    (SameTime s (s.step op r).2 ∧ i.step op now = i) ∨
    (op = .start ∧ s.state ≠ .running ∧
      (s.step op r).2 = { s with stateStartTick := r.tick, stateStartUs := r.us, state := .running } ∧
      i.step op now = { i with state := .running, since := now }) ∨
    (op = .stop ∧ s.state = .running ∧
      (s.step op r).2 = { s with accumulatedMs := s.totalAt r.us, stateStartUs := 0, state := .paused } ∧
      i.step op now = { i with state := .paused, closed := i.closed ++ [(i.since, now)] }) ∨
    (op = .reset ∧ s.state = .running ∧
      (s.step op r).2 = { s with
        accumulatedMs := 0, lastLapTotalMs := 0, lapCount := 0, lapDurationsMs := Vector.replicate c.maxLaps 0
        stateStartTick := r.tick, stateStartUs := r.us } ∧
      i.step op now = { i with closed := [], since := now }) ∨
    (op = .reset ∧ s.state ≠ .running ∧
      (s.step op r).2 = { s with
        accumulatedMs := 0, lastLapTotalMs := 0, lapCount := 0, lapDurationsMs := Vector.replicate c.maxLaps 0
        state := .idle, stateStartUs := 0 } ∧
      i.step op now = { i with state := .idle, closed := [] }) := by
  cases op with
  | start =>
    by_cases h : s.state = .running
    · left
      rw [step_start_of_running hs r h]
      exact ⟨SameTime.refl s, if_pos (hst ▸ h)⟩
    · exact Or.inr (Or.inl ⟨rfl, h, by rw [step_start hs r h], if_neg (hst ▸ h)⟩)
  | stop =>
    by_cases h : s.state = .running
    · exact Or.inr (Or.inr (Or.inl ⟨rfl, h, by rw [step_stop hs r h], if_pos (hst ▸ h)⟩))
    · left
      rw [step_stop_of_not_running hs r h]
      exact ⟨SameTime.refl s, if_neg (hst ▸ h)⟩
  | reset =>
    by_cases h : s.state = .running
    · exact Or.inr (Or.inr (Or.inr (Or.inl ⟨rfl, h, by rw [step_reset_of_running hs r h], if_pos (hst ▸ h)⟩)))
    · exact Or.inr (Or.inr (Or.inr (Or.inr ⟨rfl, h, by rw [step_reset_of_not_running hs r h], if_neg (hst ▸ h)⟩)))
  | _ => exact Or.inl ⟨step_sameTime hs (by trivial) r, rfl⟩

/-- No call uninitialises the stopwatch. -/
theorem step_gInited {s : Stopwatch c} (hs : s.gInited = true) (op : Op) (r : Reading) :
    (s.step op r).2.gInited = true := by
  rcases step_cases (i := { Ideal.init 0 with state := s.state }) hs rfl op r 0 with
    ⟨he, -⟩ | ⟨-, -, he, -⟩ | ⟨-, -, he, -⟩ | ⟨-, -, he, -⟩ | ⟨-, -, he, -⟩
  · exact he.gInited.trans hs
  all_goals
    rw [he]
    exact hs

/-- Every state of a run from `stopwatch_init` is initialised. -/
theorem machine_run_gInited {ι τ : Type} (P : Platform ι τ) {w : Stopwatch c × τ} (h : w.1.gInited = true) (es : List (Op × ι)) :
    ((P.machine c).run w es).1.gInited = true := by
  refine (P.machine c).run_invariant (I := fun w => w.1.gInited = true) (fun w e h => ?_) h es
  simp only [Platform.machine, Op.run_eq P e.1 _ _ h]
  exact step_gInited h e.1 _

/-! ## Any clock that never goes back -/

/-- The stopwatch follows the ideal one, as of `now`: the states agree, and the start reading is the opening of the segment
that runs, or zero when none runs. -/
structure Tracks (s : Stopwatch c) (i : Ideal ℕ) (now : ℕ) : Prop where
  gInited : s.gInited = true
  state : s.state = i.state
  since : s.state = .running → s.stateStartUs.toNat = i.since
  since_le : s.state = .running → i.since ≤ now
  stopped : s.state ≠ .running → s.stateStartUs = 0

theorem Tracks.fresh (now : ℕ) : Tracks (Stopwatch.fresh c) (Ideal.init 0) now := by
  constructor <;> simp [Stopwatch.fresh, Stopwatch.zeroed, Ideal.init]

theorem Tracks.mono {s : Stopwatch c} {i : Ideal ℕ} {now now' : ℕ} (hle : now ≤ now') (h : Tracks s i now) :
    Tracks s i now' :=
  { h with since_le := fun hr => (h.since_le hr).trans hle }

theorem Tracks.of_sameTime {s s' : Stopwatch c} {i : Ideal ℕ} {now : ℕ} (h : Tracks s i now) (he : SameTime s s') :
    Tracks s' i now where
  gInited := he.gInited.trans h.gInited
  state := he.state.trans h.state
  since hr := by rw [he.stateStartUs]; exact h.since (he.state ▸ hr)
  since_le hr := h.since_le (he.state ▸ hr)
  stopped hr := by rw [he.stateStartUs]; exact h.stopped (he.state ▸ hr)

/-- The step lemma: a call at a reading keeps the stopwatch on the ideal one. -/
theorem Tracks.step {s : Stopwatch c} {i : Ideal ℕ} {r : Reading} (h : Tracks s i r.us.toNat) (op : Op) :
    Tracks (s.step op r).2 (i.step op r.us.toNat) r.us.toNat := by
  have hs := h.gInited
  rcases step_cases hs h.state op r r.us.toNat with
    ⟨he, hi⟩ | ⟨-, -, he, hi⟩ | ⟨-, -, he, hi⟩ | ⟨-, hr, he, hi⟩ | ⟨-, -, he, hi⟩
  · rw [hi]
    exact h.of_sameTime he
  · rw [he, hi]
    exact ⟨hs, rfl, fun _ => rfl, fun _ => Nat.le_refl _, fun hn => absurd rfl hn⟩
  · rw [he, hi]
    exact ⟨hs, rfl, nofun, nofun, fun _ => rfl⟩
  · rw [he, hi]
    exact ⟨hs, h.state, fun _ => rfl, fun _ => Nat.le_refl _, fun hn => absurd hr hn⟩
  · rw [he, hi]
    exact ⟨hs, rfl, nofun, nofun, fun _ => rfl⟩

/-! ## The milliseconds -/

/-- The call opens a segment: a start that is not redundant, or a reset while RUNNING. -/
def Op.Opens (s : Stopwatch c) : Op → Prop
  | .start => s.state ≠ .running
  | .reset => s.state = .running
  | .stop | .lap | .clearLaps | .getState | .getTotalMs | .getLapCount | .getLapMs _ | .getLatestLapMs => False

instance (s : Stopwatch c) (op : Op) : Decidable (op.Opens s) :=
  match op with
  | .start => inferInstanceAs (Decidable (s.state ≠ .running))
  | .reset => inferInstanceAs (Decidable (s.state = .running))
  | .stop | .lap | .clearLaps | .getState | .getTotalMs | .getLapCount | .getLapMs _ | .getLatestLapMs =>
    inferInstanceAs (Decidable False)

/-- The milliseconds between two readings, in 32 bits, when the clock did not go back between them. -/
theorem msSince_eq {start us : UInt64} (h : start.toNat ≤ us.toNat) :
    ((us - start) / 1000).toUInt32 = UInt32.ofNat ((us.toNat - start.toNat) / 1000) := by
  have hd : ((us - start) / 1000).toNat = (us.toNat - start.toNat) / 1000 := by
    rw [UInt64.toNat_div, UInt64.toNat_sub_of_le us start (UInt64.le_iff_toNat_le.mpr h)]
    rfl
  rw [← UInt32.ofNat_uInt64ToNat, hd]

/-- The milliseconds the code counts for a segment: those of its microseconds, rounded down, and none when it was opened at
reading zero. -/
def segmentMs (a b : ℕ) : ℕ := if a = 0 then 0 else (b - a) / 1000

theorem segmentMs_mono (a : ℕ) {b b' : ℕ} (h : b ≤ b') : segmentMs a b ≤ segmentMs a b' := by
  unfold segmentMs
  split
  · exact Nat.le_refl _
  · exact Nat.div_le_div_right (Nat.sub_le_sub_right h a)

theorem segmentMs_self (a : ℕ) : segmentMs a a = 0 := by
  simp [segmentMs]

/-- The milliseconds the code counts for the segments since the last reset, unbounded. -/
def Ideal.countedMs (i : Ideal ℕ) (now : ℕ) : ℕ := i.measure segmentMs now

/-- Where no segment was opened at zero, the code counts them all. -/
theorem Ideal.countedMs_eq_totalMs {i : Ideal ℕ} {now : ℕ} (h : ∀ p ∈ i.segments now, p.1 ≠ 0) :
    i.countedMs now = i.totalMs now := by
  unfold Ideal.countedMs Ideal.totalMs Ideal.measure
  congr 1
  apply List.map_congr_left
  intro p hp
  exact if_neg (h p hp)

/-- The stopwatch holds the milliseconds of the closed segments, modulo `2 ^ 32`. -/
structure Counts (s : Stopwatch c) (i : Ideal ℕ) (now : ℕ) : Prop extends Tracks s i now where
  accumulatedMs : s.accumulatedMs = UInt32.ofNat (i.closedMeasure segmentMs)

theorem Counts.fresh (now : ℕ) : Counts (Stopwatch.fresh c) (Ideal.init 0) now where
  toTracks := Tracks.fresh now
  accumulatedMs := rfl

theorem Counts.mono {s : Stopwatch c} {i : Ideal ℕ} {now now' : ℕ} (hle : now ≤ now') (h : Counts s i now) :
    Counts s i now' :=
  { h with toTracks := h.toTracks.mono hle }

theorem Counts.of_sameTime {s s' : Stopwatch c} {i : Ideal ℕ} {now : ℕ} (h : Counts s i now) (he : SameTime s s') :
    Counts s' i now where
  toTracks := h.toTracks.of_sameTime he
  accumulatedMs := he.accumulatedMs.trans h.accumulatedMs

/-- The total is what the code counts for the segments, modulo `2 ^ 32`. -/
theorem Counts.totalAt {s : Stopwatch c} {i : Ideal ℕ} {us : UInt64} (h : Counts s i us.toNat) :
    s.totalAt us = UInt32.ofNat (i.countedMs us.toNat) := by
  by_cases hr : s.state = .running
  · rw [Ideal.countedMs, Ideal.measure_of_running (h.state ▸ hr), Stopwatch.totalAt, h.accumulatedMs, UInt32.ofNat_add]
    by_cases h0 : s.stateStartUs = 0
    · have hz : i.since = 0 := by rw [← h.since hr, h0]; rfl
      rw [if_neg (fun hl : s.Live => hl.2 h0), segmentMs, if_pos hz]
      exact (add_zero _).symm
    · have hz : i.since ≠ 0 := fun hz => h0 (UInt64.toNat_inj.mp ((h.since hr).trans hz))
      have hle : s.stateStartUs.toNat ≤ us.toNat := by rw [h.since hr]; exact h.since_le hr
      rw [if_pos ⟨hr, h0⟩, segmentMs, if_neg hz, msSince_eq hle, h.since hr]
  · rw [Ideal.countedMs, Ideal.measure_of_not_running (h.state ▸ hr), Stopwatch.totalAt,
      if_neg (fun hl : s.Live => hr hl.1), h.accumulatedMs]

/-- The step lemma: every call keeps the milliseconds. -/
theorem Counts.step {s : Stopwatch c} {i : Ideal ℕ} {r : Reading} (h : Counts s i r.us.toNat) (op : Op) :
    Counts (s.step op r).2 (i.step op r.us.toNat) r.us.toNat := by
  have ht := h.toTracks.step op
  rcases step_cases h.gInited h.state op r r.us.toNat with
    ⟨he, hi⟩ | ⟨-, -, he, hi⟩ | ⟨-, hr, he, hi⟩ | ⟨-, -, he, hi⟩ | ⟨-, -, he, hi⟩
  · rw [hi]
    exact h.of_sameTime he
  · rw [he, hi] at ht ⊢
    exact ⟨ht, h.accumulatedMs⟩
  · rw [he, hi] at ht ⊢
    refine ⟨ht, ?_⟩
    show s.totalAt r.us = _
    rw [h.totalAt, Ideal.countedMs, Ideal.measure_of_running (h.state ▸ hr), Ideal.closedMeasure_append]
  · rw [he, hi] at ht ⊢
    exact ⟨ht, rfl⟩
  · rw [he, hi] at ht ⊢
    exact ⟨ht, rfl⟩

end RtStopwatch
