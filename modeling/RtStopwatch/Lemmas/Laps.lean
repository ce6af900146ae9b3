import RtStopwatch.Lemmas.Refine
import RtStopwatch.Lib.Window

/-!
# The lap array

The array of `stopwatch_ctx_t` as the list of the laps it holds. `TableOk` is what every call keeps of it: the count stays within
the array, so that no access is out of bounds, and the slots beyond the count are zero. On such an array a lap appends to the
list, or drops its first element and appends when the array is full.
-/

namespace RtStopwatch

variable {c : Config}

/-- The recorded laps, oldest first. -/
def Stopwatch.laps (s : Stopwatch c) : List UInt32 := s.lapDurationsMs.toList.take s.lapCount.toNat

/-- The count is within the array, and the slots beyond it are zero. -/
structure Stopwatch.TableOk (s : Stopwatch c) : Prop where
  count_le : s.lapCount.toNat ≤ c.maxLaps
  beyond : ∀ j, s.lapCount.toNat ≤ j → s.slot j = 0

theorem slot_of_cleared {s : Stopwatch c} (hv : s.lapDurationsMs = Vector.replicate c.maxLaps 0) (j : ℕ) : s.slot j = 0 := by
  simp only [Stopwatch.slot, hv, Vector.getElem?_replicate]
  split <;> rfl

/-- A stopwatch whose laps were forgotten: by `memset`, a reset or a clear. -/
theorem tableOk_of_cleared {s : Stopwatch c} (h0 : s.lapCount = 0) (hv : s.lapDurationsMs = Vector.replicate c.maxLaps 0) :
    s.TableOk := by
  refine ⟨by simp [h0], ?_⟩
  intro j _
  exact slot_of_cleared hv j

theorem laps_of_cleared {s : Stopwatch c} (h0 : s.lapCount = 0) : s.laps = [] := by
  simp [Stopwatch.laps, h0]

/-- The laps by their slots. -/
theorem getElem?_laps {s : Stopwatch c} (h : s.TableOk) (j : ℕ) :
    s.laps[j]? = if j < s.lapCount.toNat then some (s.slot j) else none := by
  simp only [Stopwatch.laps, List.getElem?_take, Vector.getElem?_toList]
  by_cases hj : j < s.lapCount.toNat
  · have hN := h.count_le
    simp only [if_pos hj, Stopwatch.slot]
    rw [Vector.getElem?_eq_getElem (by omega), Option.getD_some]
  · simp only [if_neg hj]

theorem length_laps {s : Stopwatch c} (h : s.TableOk) : s.laps.length = s.lapCount.toNat := by
  simp [Stopwatch.laps, h.count_le]

/-! ## One more lap -/

section Append

variable {s : Stopwatch c} (h : s.lapCount.toNat < c.maxLaps) (x : UInt32)
include h

theorem lapCount_storeLap_of_lt : (s.storeLap x).lapCount.toNat = s.lapCount.toNat + 1 := by
  have hN := c.maxLaps_le
  have he : (s.storeLap x).lapCount = s.lapCount + 1 := by simp [Stopwatch.storeLap, h]
  rw [he, UInt16.toNat_add]
  show (s.lapCount.toNat + 1) % 2 ^ 16 = _
  omega

theorem slot_storeLap_of_lt (j : ℕ) : (s.storeLap x).slot j = if j = s.lapCount.toNat then x else s.slot j := by
  have he : (s.storeLap x).lapDurationsMs = s.lapDurationsMs.set s.lapCount.toNat x h := by simp [Stopwatch.storeLap, h]
  simp only [Stopwatch.slot, he, Vector.getElem?_set]
  by_cases hj : j = s.lapCount.toNat
  · subst hj
    simp
  · simp [hj, Ne.symm hj]

end Append

section Evict

variable {s : Stopwatch c} (h : ¬s.lapCount.toNat < c.maxLaps) (x : UInt32)
include h

theorem lapCount_storeLap_of_full : (s.storeLap x).lapCount = s.lapCount := by
  simp [Stopwatch.storeLap, h]

theorem slot_storeLap_of_full (j : ℕ) :
    (s.storeLap x).slot j = if j = c.maxLaps - 1 then x else s.slot (j + 1) := by
  have hN := c.maxLaps_pos
  have he : (s.storeLap x).lapDurationsMs =
      (shiftDown s.lapDurationsMs).set (c.maxLaps - 1) x (Nat.sub_lt c.maxLaps_pos Nat.one_pos) := by
    simp [Stopwatch.storeLap, h]
  simp only [Stopwatch.slot, he, Vector.getElem?_set]
  by_cases hj : j = c.maxLaps - 1
  · subst hj
    simp
  · rw [if_neg (Ne.symm hj), if_neg hj]
    by_cases hlt : j + 1 < c.maxLaps
    · simp only [shiftDown, Vector.getElem?_ofFn]
      simp [hlt, show j < c.maxLaps by omega]
    · rw [Vector.getElem?_eq_none (by omega), Vector.getElem?_eq_none (by omega)]

end Evict

/-- One more lap keeps the table in order. -/
theorem Stopwatch.TableOk.storeLap {s : Stopwatch c} (h : s.TableOk) (x : UInt32) : (s.storeLap x).TableOk := by
  by_cases hlt : s.lapCount.toNat < c.maxLaps
  · have hc := lapCount_storeLap_of_lt hlt x
    refine ⟨by omega, ?_⟩
    intro j hj
    rw [slot_storeLap_of_lt hlt, if_neg (by omega)]
    exact h.beyond j (by omega)
  · have hc := lapCount_storeLap_of_full hlt x
    have hN := h.count_le
    refine ⟨by rw [hc]; exact hN, ?_⟩
    intro j hj
    rw [hc] at hj
    rw [slot_storeLap_of_full hlt, if_neg (by have := c.maxLaps_pos; omega)]
    exact h.beyond _ (by omega)

/-- One more lap, with room for it. -/
theorem laps_storeLap_of_lt {s : Stopwatch c} (h : s.TableOk) (hlt : s.lapCount.toNat < c.maxLaps) (x : UInt32) :
    (s.storeLap x).laps = s.laps ++ [x] := by
  apply List.ext_getElem?
  intro j
  rw [getElem?_laps (h.storeLap x), lapCount_storeLap_of_lt hlt, slot_storeLap_of_lt hlt, List.getElem?_append,
    length_laps h, getElem?_laps h]
  rcases Nat.lt_trichotomy j s.lapCount.toNat with hj | hj | hj
  · rw [if_pos (by omega), if_neg (by omega), if_pos hj, if_pos hj]
  · subst hj
    simp
  · rw [if_neg (by omega), if_neg (by omega), List.getElem?_eq_none (by simp; omega)]

/-- One more lap, when the array is full. -/
theorem laps_storeLap_of_full {s : Stopwatch c} (h : s.TableOk) (hfull : ¬s.lapCount.toNat < c.maxLaps) (x : UInt32) :
    (s.storeLap x).laps = s.laps.tail ++ [x] := by
  have hN := h.count_le
  have hpos := c.maxLaps_pos
  apply List.ext_getElem?
  intro j
  rw [getElem?_laps (h.storeLap x), lapCount_storeLap_of_full hfull, slot_storeLap_of_full hfull, List.getElem?_append,
    List.length_tail, length_laps h, List.getElem?_tail, getElem?_laps h]
  rcases Nat.lt_trichotomy j (c.maxLaps - 1) with hj | hj | hj
  · rw [if_pos (by omega), if_neg (by omega), if_pos (by omega), if_pos (by omega)]
  · subst hj
    rw [if_pos (by omega), if_pos rfl, if_neg (by omega)]
    have : c.maxLaps - 1 - (s.lapCount.toNat - 1) = 0 := by omega
    simp [this]
  · rw [if_neg (by omega), if_neg (by omega), List.getElem?_eq_none (by simp; omega)]

/-! ## What a call does to the laps -/

/-- Two stopwatches with the same laps, and the same base for the next one. -/
structure SameTable (s s' : Stopwatch c) : Prop where
  lapCount : s'.lapCount = s.lapCount
  lapDurationsMs : s'.lapDurationsMs = s.lapDurationsMs
  lastLapTotalMs : s'.lastLapTotalMs = s.lastLapTotalMs

theorem SameTable.refl (s : Stopwatch c) : SameTable s s := ⟨rfl, rfl, rfl⟩

theorem SameTable.slot {s s' : Stopwatch c} (h : SameTable s s') (j : ℕ) : s'.slot j = s.slot j := by
  rw [Stopwatch.slot, Stopwatch.slot, h.lapDurationsMs]

theorem Stopwatch.TableOk.of_sameTable {s s' : Stopwatch c} (h : s.TableOk) (he : SameTable s s') : s'.TableOk := by
  refine ⟨?_, ?_⟩
  · rw [he.lapCount]
    exact h.count_le
  · intro j hj
    rw [he.slot]
    exact h.beyond j (he.lapCount ▸ hj)

/-- Everything a call can do to the laps: nothing, store a lap, or forget them all. -/
theorem step_table_cases {s : Stopwatch c} (hs : s.gInited = true) (op : Op) (r : Reading) :
    (op ≠ .lap ∧ op ≠ .reset ∧ op ≠ .clearLaps ∧ SameTable s (s.step op r).2) ∨
    (op = .lap ∧ s.step op r =
      (.lap .eok (some (s.totalAt r.us - s.lastLapTotalMs)),
        { s.storeLap (s.totalAt r.us - s.lastLapTotalMs) with lastLapTotalMs := s.totalAt r.us })) ∨
    ((op = .reset ∨ op = .clearLaps) ∧ (s.step op r).2.lapCount = 0 ∧
      (s.step op r).2.lapDurationsMs = Vector.replicate c.maxLaps 0 ∧
      (s.step op r).2.lastLapTotalMs = if op = .reset then 0 else s.totalAt r.us) := by
  cases op with
  | start =>
    refine Or.inl ⟨nofun, nofun, nofun, ?_⟩
    by_cases hr : s.state = .running
    · rw [step_start_of_running hs r hr]
      exact SameTable.refl s
    · rw [step_start hs r hr]
      exact ⟨rfl, rfl, rfl⟩
  | stop =>
    refine Or.inl ⟨nofun, nofun, nofun, ?_⟩
    by_cases hr : s.state = .running
    · rw [step_stop hs r hr]
      exact ⟨rfl, rfl, rfl⟩
    · rw [step_stop_of_not_running hs r hr]
      exact SameTable.refl s
  | reset =>
    refine Or.inr (Or.inr ⟨Or.inl rfl, ?_⟩)
    by_cases hr : s.state = .running
    · rw [step_reset_of_running hs r hr]
      exact ⟨rfl, rfl, rfl⟩
    · rw [step_reset_of_not_running hs r hr]
      exact ⟨rfl, rfl, rfl⟩
  | lap => exact Or.inr (Or.inl ⟨rfl, step_lap hs r⟩)
  | clearLaps =>
    refine Or.inr (Or.inr ⟨Or.inr rfl, ?_⟩)
    rw [step_clearLaps hs]
    exact ⟨rfl, rfl, rfl⟩
  | getState => rw [step_getState hs]; exact Or.inl ⟨nofun, nofun, nofun, SameTable.refl s⟩
  | getTotalMs => rw [step_getTotalMs hs]; exact Or.inl ⟨nofun, nofun, nofun, SameTable.refl s⟩
  | getLapCount => rw [step_getLapCount hs]; exact Or.inl ⟨nofun, nofun, nofun, SameTable.refl s⟩
  | getLapMs i => rw [step_getLapMs hs]; exact Or.inl ⟨nofun, nofun, nofun, SameTable.refl s⟩
  | getLatestLapMs => rw [step_getLatestLapMs hs]; exact Or.inl ⟨nofun, nofun, nofun, SameTable.refl s⟩

/-- Every call keeps the table in order. -/
theorem Stopwatch.TableOk.step {s : Stopwatch c} (hs : s.gInited = true) (h : s.TableOk) (op : Op) (r : Reading) :
    (s.step op r).2.TableOk := by
  rcases step_table_cases hs op r with ⟨-, -, -, he⟩ | ⟨rfl, he⟩ | ⟨-, h0, hv, -⟩
  · exact h.of_sameTable he
  · rw [he]
    exact ⟨(h.storeLap _).count_le, (h.storeLap _).beyond⟩
  · exact tableOk_of_cleared h0 hv

end RtStopwatch
