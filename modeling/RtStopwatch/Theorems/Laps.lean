import Mathlib.Tactic.Abel
import RtStopwatch.Lemmas.Laps
import RtStopwatch.Theorems.Refinement

/-!
# The lap history

`LapLog` is what the laps are meant to be: every lap since the last reset or clear, none dropped, with the total the next one is
measured from. The code keeps its last `STOPWATCH_MAX_LAPS` elements in an array that is first filled and then shifted; the
queries answer from the log, under any clock whatever.
-/

namespace RtStopwatch

open Lib

variable {c : Config}

/-- Every lap since the last reset or clear, oldest first; `base` is the total at that clear (0 after a reset), `last` the total
at the last lap, or `base` before the first one. -/
structure LapLog where
  base : UInt32
  last : UInt32
  laps : List UInt32
  deriving DecidableEq, Repr

/-- The log after `stopwatch_init`. -/
def LapLog.init : LapLog := { base := 0, last := 0, laps := [] }

/-- A call made when the total is `total`. -/
def LapLog.step (l : LapLog) (op : Op) (total : UInt32) : LapLog :=
  match op with
  | .lap => { l with last := total, laps := l.laps ++ [total - l.last] }
  | .clearLaps => { base := total, last := total, laps := [] }
  | .reset => { base := 0, last := 0, laps := [] }
  | .start | .stop | .getState | .getTotalMs | .getLapCount | .getLapMs _ | .getLatestLapMs => l

/-- The stopwatch with the log beside it: at each call the log is given what `stopwatch_get_total_ms` returns there. -/
def lapMachine (c : Config) : Machine (Stopwatch c × LapLog) (Op × Reading) Ret where
  step w e :=
    ((w.1.step e.1 e.2).1, ((w.1.step e.1 e.2).2, w.2.step e.1 (stopwatchGetTotalMs oracle w.1 e.2).1))

/-- The log after a run of calls from `stopwatch_init`. -/
def LapLog.after (c : Config) (es : List (Op × Reading)) : LapLog :=
  ((lapMachine c).run (Stopwatch.fresh c, LapLog.init) es).2

/-- The stopwatch beside the log is the stopwatch. -/
theorem lapMachine_run_fst (s : Stopwatch c) (l : LapLog) (es : List (Op × Reading)) :
    ((lapMachine c).run (s, l) es).1 = (stopwatchMachine c).run s es :=
  Machine.run_map (f := Prod.fst) (fun _ _ => rfl) (s, l) es

/-- One more lap at the end of a run. -/
theorem LapLog.after_snoc (c : Config) (es : List (Op × Reading)) (e : Op × Reading) :
    LapLog.after c (es ++ [e]) =
      (LapLog.after c es).step e.1 (stopwatchGetTotalMs oracle (Stopwatch.after c es) e.2).1 := by
  have h1 := lapMachine_run_fst (c := c) (Stopwatch.fresh c) LapLog.init es
  unfold LapLog.after Stopwatch.after
  rw [Machine.run_append, ← h1]
  rfl

theorem getTotalMs_oracle {s : Stopwatch c} (hs : s.gInited = true) (r : Reading) :
    (stopwatchGetTotalMs oracle s r).1 = s.totalAt r.us := by
  simp [stopwatchGetTotalMs, hs, getNowTotalMsUnsafe_eq, oracle]

/-- The stopwatch keeps the log: the array holds its last laps, the base of the next lap is the log's, and the laps add up to
the time between the two bases, modulo `2 ^ 32`. -/
structure Keeps (s : Stopwatch c) (l : LapLog) : Prop where
  gInited : s.gInited = true
  table : s.TableOk
  laps : s.laps = l.laps.rtake c.maxLaps
  last : s.lastLapTotalMs = l.last
  sum : l.laps.sum = l.last - l.base

theorem Keeps.fresh : Keeps (Stopwatch.fresh c) LapLog.init where
  gInited := rfl
  table := tableOk_of_cleared rfl rfl
  laps := by rw [laps_of_cleared rfl]; simp [LapLog.init]
  last := rfl
  sum := rfl

/-- A stopwatch whose laps were forgotten keeps an empty log. -/
theorem Keeps.of_cleared {s : Stopwatch c} {b : UInt32} (hi : s.gInited = true) (h0 : s.lapCount = 0)
    (hv : s.lapDurationsMs = Vector.replicate c.maxLaps 0) (hl : s.lastLapTotalMs = b) :
    Keeps s { base := b, last := b, laps := [] } where
  gInited := hi
  table := tableOk_of_cleared h0 hv
  laps := by rw [laps_of_cleared h0]; simp
  last := hl
  sum := by simp

/-- A stopwatch with the same laps keeps the same log. -/
theorem Keeps.of_sameTable {s s' : Stopwatch c} {l : LapLog} (h : Keeps s l) (hi : s'.gInited = true) (he : SameTable s s') :
    Keeps s' l where
  gInited := hi
  table := h.table.of_sameTable he
  laps := by rw [← h.laps, Stopwatch.laps, Stopwatch.laps, he.lapCount, he.lapDurationsMs]
  last := he.lastLapTotalMs.trans h.last
  sum := h.sum

/-- The number of laps held is that of the log, up to the capacity. -/
theorem Keeps.lapCount {s : Stopwatch c} {l : LapLog} (h : Keeps s l) :
    s.lapCount.toNat = min l.laps.length c.maxLaps := by
  rw [← length_laps h.table, h.laps, length_rtake]

/-- One more lap, appended or shifted in. -/
theorem Keeps.lap {s : Stopwatch c} {l : LapLog} (h : Keeps s l) (total : UInt32) :
    Keeps { s.storeLap (total - s.lastLapTotalMs) with lastLapTotalMs := total } (l.step .lap total) where
  gInited := (storeLap_gInited s _).trans h.gInited
  table := ⟨(h.table.storeLap _).count_le, (h.table.storeLap _).beyond⟩
  laps := by
    show (s.storeLap (total - s.lastLapTotalMs)).laps = (l.laps ++ [total - l.last]).rtake c.maxLaps
    have hcount := h.lapCount
    by_cases hlt : s.lapCount.toNat < c.maxLaps
    · rw [laps_storeLap_of_lt h.table hlt, rtake_concat_of_length_lt (by omega), h.laps, h.last]
    · rw [laps_storeLap_of_full h.table hlt, rtake_concat_of_le_length c.maxLaps_pos (by omega), h.laps, h.last]
  last := rfl
  sum := by
    simp only [LapLog.step, List.sum_append, List.sum_singleton, h.sum]
    abel

/-- Only a lap, a reset and a clear change the log. -/
theorem LapLog.step_of_ne {op : Op} (h1 : op ≠ .lap) (h2 : op ≠ .reset) (h3 : op ≠ .clearLaps) (l : LapLog) (total : UInt32) :
    l.step op total = l := by
  cases op with
  | lap => exact absurd rfl h1
  | reset => exact absurd rfl h2
  | clearLaps => exact absurd rfl h3
  | _ => rfl

/-- The step lemma: every call keeps the log. -/
theorem Keeps.step {s : Stopwatch c} {l : LapLog} (h : Keeps s l) (op : Op) (r : Reading) :
    Keeps (s.step op r).2 (l.step op (s.totalAt r.us)) := by
  have hs := h.gInited
  have hs' := step_gInited hs op r
  rcases step_table_cases hs op r with ⟨h1, h2, h3, he⟩ | ⟨rfl, he⟩ | ⟨rfl | rfl, h0, hv, hl⟩
  · rw [LapLog.step_of_ne h1 h2 h3]
    exact h.of_sameTable hs' he
  · rw [he]
    exact h.lap _
  · exact Keeps.of_cleared hs' h0 hv hl
  · exact Keeps.of_cleared hs' h0 hv hl

/-- The run lemma: after any run of calls, under any clock, the stopwatch keeps the log. -/
theorem keeps_after (c : Config) (es : List (Op × Reading)) : Keeps (Stopwatch.after c es) (LapLog.after c es) := by
  have h := (lapMachine c).run_invariant (I := fun w => Keeps w.1 w.2)
    (fun w e h => by
      simp only [lapMachine, getTotalMs_oracle h.gInited]
      exact h.step e.1 e.2)
    (s := (Stopwatch.fresh c, LapLog.init)) Keeps.fresh es
  rw [lapMachine_run_fst] at h
  exact h

/-- What `stopwatch_get_lap_ms` returns for an index, by the laps held. -/
theorem getLapMs_eq {s : Stopwatch c} (h : s.TableOk) (i : UInt16) :
    (if i < s.lapCount then s.slot i.toNat else 0) = s.laps.getD i.toNat 0 := by
  rw [List.getD_eq_getElem?_getD, getElem?_laps h]
  by_cases hi : i < s.lapCount
  · rw [if_pos hi, if_pos (UInt16.lt_iff_toNat_lt.mp hi), Option.getD_some]
  · rw [if_neg hi, if_neg (fun hn => hi (UInt16.lt_iff_toNat_lt.mpr hn)), Option.getD_none]

/-- What `stopwatch_get_latest_lap_ms` returns, by the laps held. -/
theorem getLatestLapMs_eq {s : Stopwatch c} (h : s.TableOk) :
    (if 0 < s.lapCount then s.slot (s.lapCount.toNat - 1) else 0) = s.laps.getLast?.getD 0 := by
  rw [List.getLast?_eq_getElem?, length_laps h, getElem?_laps h]
  by_cases hi : 0 < s.lapCount
  · have := UInt16.lt_iff_toNat_lt.mp hi
    rw [if_pos hi, if_pos (by simp at this; omega), Option.getD_some]
  · have : ¬(0 : UInt16).toNat < s.lapCount.toNat := fun hn => hi (UInt16.lt_iff_toNat_lt.mpr hn)
    rw [if_neg hi, if_neg (by simp at this; omega), Option.getD_none]

/-- The lap history. For every capacity, every run of calls and every clock, with `L` the laps since the last reset or clear, each
the total at it less the total at the one before (or at that clear, or 0 after that reset), modulo `2 ^ 32`: a lap returns the
last of `L` through `out_lap_ms`; the count is that of `L`, up to the capacity `N`; `stopwatch_get_lap_ms` indexes the last `N`
of `L`, in order, and is 0 past them; the latest lap is the last of `L`, or 0; and `L` adds up to `last_lap_total_ms` less the
total at that clear (0 after that reset). -/
theorem lap_history (c : Config) (es : List (Op × Reading)) (r : Reading) :
    ((Stopwatch.after c es).step .lap r).1 = .lap .eok (LapLog.after c (es ++ [(.lap, r)])).laps.getLast? ∧
    (∃ n : UInt16, ((Stopwatch.after c es).step .getLapCount r).1 = .count n ∧
      n.toNat = min (LapLog.after c es).laps.length c.maxLaps) ∧
    (∀ i : UInt16, ((Stopwatch.after c es).step (.getLapMs i) r).1 =
      .ms (((LapLog.after c es).laps.rtake c.maxLaps).getD i.toNat 0)) ∧
    ((Stopwatch.after c es).step .getLatestLapMs r).1 = .ms ((LapLog.after c es).laps.getLast?.getD 0) ∧
    (LapLog.after c es).laps.sum = (Stopwatch.after c es).lastLapTotalMs - (LapLog.after c es).base := by
  have h := keeps_after c es
  have hs := h.gInited
  refine ⟨?_, ⟨_, by rw [step_getLapCount hs], h.lapCount⟩, ?_, ?_, ?_⟩
  · rw [step_lap hs, LapLog.after_snoc, getTotalMs_oracle hs, h.last]
    simp [LapLog.step]
  · intro i
    rw [step_getLapMs hs, getLapMs_eq h.table, h.laps]
  · rw [step_getLatestLapMs hs, getLatestLapMs_eq h.table, h.laps, getLast?_rtake c.maxLaps_pos]
  · rw [h.last]
    exact h.sum

end RtStopwatch
