import RtStopwatch.Cli
import RtStopwatch.Lemmas.Laps

/-!
# The status report

What `cmd_sw_status` prints when nothing else runs in between. Its loop over the laps is also the one of `draw_laps_page`: both give
the running values `statsOf` of the laps that the stopwatch holds.
-/

namespace RtStopwatch

open Lib

variable {c : Config}

/-- The laps, as `stopwatch_get_lap_count` and `stopwatch_get_lap_ms` give them. -/
def heldLaps (s : Stopwatch c) : List UInt32 :=
  (List.range (stopwatchGetLapCount s).toNat).map fun i => stopwatchGetLapMs s (UInt16.ofNat i)

/-- The running values after some laps. -/
def statsOf (l : List UInt32) : LapStats := l.foldl LapStats.add LapStats.init

/-- On an initialised stopwatch these are the recorded laps. -/
theorem heldLaps_eq {s : Stopwatch c} (hs : s.gInited = true) (h : s.TableOk) : heldLaps s = s.laps := by
  have hcnt : stopwatchGetLapCount s = s.lapCount := by simp [stopwatchGetLapCount, hs]
  apply List.ext_getElem?
  intro j
  rw [getElem?_laps h, heldLaps, hcnt, List.getElem?_map]
  by_cases hj : j < s.lapCount.toNat
  · have hnat : (UInt16.ofNat j).toNat = j := UInt16.toNat_ofNat_of_lt' (hj.trans s.lapCount.toNat_lt)
    rw [List.getElem?_range hj, if_pos hj, Option.map_some, stopwatchGetLapMs]
    rw [if_pos hs, if_pos (by rw [UInt16.lt_iff_toNat_lt, hnat]; exact hj), hnat]
  · rw [List.getElem?_eq_none (by simpa using hj), if_neg hj]
    rfl

/-! ## The loop over the laps -/

theorem exec_readLapStats (n : ℕ) (i : UInt16) (st : LapStats) (w : World c) :
    (readLapStats n i st).exec Act.perform w =
      (((List.range n).map fun k => stopwatchGetLapMs w.sw (i + UInt16.ofNat k)).foldl LapStats.add st, w) := by
  induction n generalizing i st with
  | zero => rfl
  | succ n ih =>
    show (readLapStats n (i + 1) (st.add (stopwatchGetLapMs w.sw i))).exec Act.perform w = _
    rw [ih, List.range_succ_eq_map, List.map_cons, List.map_map, List.foldl_cons]
    have h0 : i + UInt16.ofNat 0 = i := by simp
    have hk : ∀ k, i + 1 + UInt16.ofNat k = i + UInt16.ofNat (k + 1) := by
      intro k
      rw [UInt16.ofNat_add, UInt16.add_assoc, UInt16.add_comm 1]
      rfl
    simp only [h0, hk]
    rfl

/-- The loop of both functions. -/
theorem exec_readLapStats_all (w : World c) :
    (readLapStats (stopwatchGetLapCount w.sw).toNat 0 LapStats.init).exec Act.perform w = (statsOf (heldLaps w.sw), w) := by
  rw [exec_readLapStats]
  simp only [UInt16.zero_add]
  rfl

/-- The loop only reads laps. -/
theorem acts_readLapStats {n : ℕ} {i : UInt16} {st : LapStats} {w : World c} :
    ∀ a ∈ (readLapStats n i st).acts Act.perform w, ∃ k, a = .call (.getLapMs k) := by
  induction n generalizing i st w with
  | zero => exact nofun
  | succ n ih =>
    intro a ha
    rcases List.mem_cons.mp ha with rfl | ha
    · exact ⟨i, rfl⟩
    · exact ih a ha

/-! ## `cmd_sw_status` -/

/-- The lines of the report. -/
def statusReport (s : StopwatchState) (total : UInt32) (cnt : UInt16) (st : LapStats) : List (List Char) :=
  ["state: ".toList ++ stateName s ++ ['\n'], msLine "total: ".toList total, "laps:  ".toList ++ fmtU cnt.toNat ++ ['\n']] ++
    if 0 < cnt then
      [msLine "min:   ".toList st.minMs, msLine "max:   ".toList st.maxMs,
        msLine "avg:   ".toList (st.sumMs / cnt.toUInt32)]
    else []

theorem printed_append (as bs : List Act) : printed (as ++ bs) = printed as ++ printed bs := List.filterMap_append

theorem printed_readLapStats (n : ℕ) (i : UInt16) (st : LapStats) (w : World c) :
    printed ((readLapStats n i st).acts Act.perform w) = [] := by
  apply List.filterMap_eq_nil_iff.mpr
  intro a ha
  obtain ⟨k, rfl⟩ := acts_readLapStats a ha
  rfl

/-- What `cmd_sw_status` prints, with what its queries return. -/
theorem printed_cmdSwStatus (w : World c) :
    printed (cmdSwStatus.acts Act.perform w) =
      statusReport (stopwatchGetState w.sw) (stopwatchGetTotalMs boardPlatform w.sw w.board).1 (stopwatchGetLapCount w.sw)
        (statsOf (heldLaps w.sw)) := by
  -- the world in which the laps are read: only the time base has moved
  let w' : World c := { w with board := (stopwatchGetTotalMs boardPlatform w.sw w.board).2 }
  let report : LapStats → Code Unit := fun st => do
    Code.kprintf ("state: ".toList ++ stateName (stopwatchGetState w.sw) ++ ['\n'])
    Code.kprintf (msLine "total: ".toList (stopwatchGetTotalMs boardPlatform w.sw w.board).1)
    Code.kprintf ("laps:  ".toList ++ fmtU (stopwatchGetLapCount w.sw).toNat ++ ['\n'])
    Code.when (0 < stopwatchGetLapCount w.sw) (printLapStats st (stopwatchGetLapCount w.sw))
  have hreport : ∀ st, printed ((report st).acts Act.perform w') = statusReport (stopwatchGetState w.sw)
      (stopwatchGetTotalMs boardPlatform w.sw w.board).1 (stopwatchGetLapCount w.sw) st := by
    intro st
    show _ :: _ :: _ :: printed ((Code.when _ _).acts Act.perform w') = _
    unfold statusReport Code.when
    split
    · rfl
    · rfl
  show printed ((readLapStats (stopwatchGetLapCount w'.sw).toNat 0 LapStats.init >>= report).acts Act.perform w') = _
  rw [Prog.acts_bind, printed_append, printed_readLapStats, exec_readLapStats_all, hreport]
  rfl

end RtStopwatch
