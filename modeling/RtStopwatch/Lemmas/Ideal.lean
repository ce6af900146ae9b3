import RtStopwatch.Ideal
import RtStopwatch.Lib.Floor

/-!
# The ideal stopwatch, measured

Sums over the segments of an ideal stopwatch: how they split into the closed segments and the open one, how they move with the
time and with the calls, and what is lost by rounding each segment down.
-/

namespace RtStopwatch

namespace Ideal

variable {T : Type}

/-! ## Sums over the segments -/

/-- The closed segments of an ideal stopwatch, measured. -/
def closedMeasure (i : Ideal T) (len : T → T → ℕ) : ℕ := (i.closed.map fun p => len p.1 p.2).sum

theorem measure_of_running {i : Ideal T} (h : i.state = .running) (len : T → T → ℕ) (now : T) :
    i.measure len now = i.closedMeasure len + len i.since now := by
  simp [measure, segments, h, closedMeasure]

theorem measure_of_not_running {i : Ideal T} (h : i.state ≠ .running) (len : T → T → ℕ) (now : T) :
    i.measure len now = i.closedMeasure len := by
  simp [measure, segments, h, closedMeasure]

/-- A stop adds the segment it closes. -/
theorem closedMeasure_append (i : Ideal T) (st : StopwatchState) (len : T → T → ℕ) (a b : T) :
    closedMeasure { i with state := st, closed := i.closed ++ [(a, b)] } len = i.closedMeasure len + len a b := by
  simp [closedMeasure]

/-- A length that grows with the end of the segment grows as time passes. -/
theorem measure_mono [Preorder T] (i : Ideal T) {len : T → T → ℕ} (hlen : ∀ a b b', b ≤ b' → len a b ≤ len a b') {now now' : T}
    (h : now ≤ now') : i.measure len now ≤ i.measure len now' := by
  by_cases hr : i.state = .running
  · rw [measure_of_running hr, measure_of_running hr]
    exact Nat.add_le_add_left (hlen _ _ _ h) _
  · rw [measure_of_not_running hr, measure_of_not_running hr]

/-- Where an empty segment measures nothing, only a reset changes the sum at the moment of the call. -/
theorem measure_step (i : Ideal T) {len : T → T → ℕ} (hlen : ∀ a, len a a = 0) {op : Op} (ho : op ≠ .reset) (now : T) :
    (i.step op now).measure len now = i.measure len now := by
  cases op with
  | start =>
    simp only [step]
    split
    · rfl
    · rename_i hr
      rw [measure_of_running rfl, measure_of_not_running hr, hlen]
      rfl
  | stop =>
    simp only [step]
    split
    · rename_i hr
      rw [measure_of_running hr, measure_of_not_running (by simp), closedMeasure_append]
    · rfl
  | reset => exact absurd rfl ho
  | _ => rfl

/-- What rounding each segment down to milliseconds loses: nothing is gained, and less than a millisecond a segment is lost. -/
theorem totalMs_bounds (i : Ideal ℕ) (now : ℕ) :
    1000 * i.totalMs now ≤ i.elapsed now ∧ i.elapsed now ≤ 1000 * i.totalMs now + 999 * i.count now := by
  have e : i.totalMs now = (((i.segments now).map fun p => p.2 - p.1).map (· / 1000)).sum := by
    simp [totalMs, measure, Function.comp_def]
  rw [e]
  constructor
  · exact Lib.mul_sum_div_le 1000 _
  · have h := Lib.sum_le_mul_sum_div 1000 (by decide) ((i.segments now).map fun p => p.2 - p.1)
    rw [List.length_map] at h
    exact h

/-! ## Two clocks -/

/-- The ideal stopwatch on another clock takes the same steps. -/
theorem map_step {U : Type} (f : T → U) (i : Ideal T) (op : Op) (now : T) :
    (i.step op now).map f = (i.map f).step op (f now) := by
  cases op with
  | start =>
    by_cases hr : i.state = .running <;> simp [step, map, hr]
  | stop =>
    by_cases hr : i.state = .running <;> simp [step, map, hr]
  | reset =>
    by_cases hr : i.state = .running <;> simp [step, map, hr]
  | _ => rfl

theorem segments_map {U : Type} (f : T → U) (i : Ideal T) (now : T) :
    (i.map f).segments (f now) = (i.segments now).map (Prod.map f f) := by
  by_cases hr : i.state = .running <;> simp [segments, map, hr]

theorem measure_map {U : Type} (f : T → U) (i : Ideal T) (len : U → U → ℕ) (now : T) :
    (i.map f).measure len (f now) = ((i.segments now).map fun p => len (f p.1) (f p.2)).sum := by
  rw [measure, segments_map, List.map_map]
  rfl

theorem count_map {U : Type} (f : T → U) (i : Ideal T) (now : T) : (i.map f).count (f now) = i.count now := by
  rw [count, count, segments_map, List.length_map]

/-- What holds of the closed segments and of the open one holds of all segments. -/
theorem forall_mem_segments {P : T × T → Prop} {i : Ideal T} {now : T} (hclosed : ∀ p ∈ i.closed, P p)
    (hopen : i.state = .running → P (i.since, now)) : ∀ p ∈ i.segments now, P p := by
  unfold Ideal.segments
  split
  · rename_i hr
    exact List.forall_mem_append.mpr ⟨hclosed, List.forall_mem_singleton.mpr (hopen hr)⟩
  · exact hclosed

/-! ## Where the segments were opened -/

/-- Every segment was opened at a time of which `Q` holds. -/
def OpenedAt (Q : T → Prop) (i : Ideal T) : Prop :=
  (∀ p ∈ i.closed, Q p.1) ∧ (i.state = .running → Q i.since)

theorem openedAt_init {Q : T → Prop} (t₀ : T) : (init t₀).OpenedAt Q :=
  ⟨nofun, nofun⟩

theorem OpenedAt.segments {Q : T → Prop} {i : Ideal T} (h : i.OpenedAt Q) (now : T) :
    ∀ p ∈ i.segments now, Q p.1 :=
  forall_mem_segments h.1 h.2

/-- A call that opens a segment only at such a time keeps it so. -/
theorem OpenedAt.step {Q : T → Prop} {i : Ideal T} (h : i.OpenedAt Q) (op : Op) {now : T} (hq : Q now) :
    (i.step op now).OpenedAt Q := by
  cases op with
  | start =>
    simp only [Ideal.step]
    split
    · exact h
    · exact ⟨h.1, fun _ => hq⟩
  | stop =>
    simp only [Ideal.step]
    split
    · rename_i hr
      exact ⟨List.forall_mem_append.mpr ⟨h.1, List.forall_mem_singleton.mpr (h.2 hr)⟩, nofun⟩
    · exact h
  | reset =>
    simp only [Ideal.step]
    split
    · exact ⟨nofun, fun _ => hq⟩
    · exact ⟨nofun, nofun⟩
  | _ => exact h

end Ideal

end RtStopwatch
