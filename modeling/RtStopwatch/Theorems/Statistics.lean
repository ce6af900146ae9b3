import Mathlib.Algebra.Order.BigOperators.Group.List
import RtStopwatch.Lemmas.PageTexts
import RtStopwatch.Theorems.Invariant

/-!
# The statistics of the laps

The stored laps are disjoint pieces of the total since the last reset, so that as long as that is below `2 ^ 32` ms their 32-bit sum
is exact; the minimum, the maximum and the average that `cmd_sw_status` prints and the laps page shows are then the true ones
(`lap_statistics`).
-/

namespace RtStopwatch

open Lib

variable {c : Config}

/-! ## The sum of the laps is part of the total -/

/-- The sum of some laps, without a bound. -/
def exactSum (l : List UInt32) : ℕ := (l.map UInt32.toNat).sum

theorem exactSum_append (l l' : List UInt32) : exactSum (l ++ l') = exactSum l + exactSum l' := by
  simp [exactSum]

theorem exactSum_tail_le (l : List UInt32) : exactSum l.tail ≤ exactSum l := by
  cases l with
  | nil => exact Nat.le_refl _
  | cons x l => exact Nat.le_add_left _ _

/-- The laps in the array are part of the total at the last lap or clear, as long as no 32 bits overflow. -/
structure LapSummed (s : Stopwatch c) (i : Ideal ℕ) (now : ℕ) : Prop extends LapBased s i now where
  table : s.TableOk
  sum : i.countedMs now < 2 ^ 32 → exactSum s.laps ≤ s.lastLapTotalMs.toNat

theorem countedMs_mono (i : Ideal ℕ) {now now' : ℕ} (hle : now ≤ now') : i.countedMs now ≤ i.countedMs now' :=
  i.measure_mono (fun a _ _ => segmentMs_mono a) hle

theorem countedMs_step (i : Ideal ℕ) {op : Op} (ho : op ≠ .reset) (now : ℕ) :
    (i.step op now).countedMs now = i.countedMs now :=
  i.measure_step segmentMs_self ho now

theorem LapSummed.mono {s : Stopwatch c} {i : Ideal ℕ} {now now' : ℕ} (hle : now ≤ now') (h : LapSummed s i now) :
    LapSummed s i now' :=
  ⟨h.toLapBased.mono hle, h.table, fun hlt => h.sum ((countedMs_mono i hle).trans_lt hlt)⟩

theorem LapSummed.fresh (now : ℕ) : LapSummed (Stopwatch.fresh c) (Ideal.init 0) now where
  toCounts := Counts.fresh now
  base := ⟨0, rfl, Nat.zero_le _⟩
  table := tableOk_of_cleared rfl rfl
  sum _ := by
    rw [laps_of_cleared rfl]
    exact Nat.zero_le _

theorem laps_of_sameTable {s s' : Stopwatch c} (he : SameTable s s') : s'.laps = s.laps := by
  rw [Stopwatch.laps, Stopwatch.laps, he.lapCount, he.lapDurationsMs]

theorem exactSum_storeLap_le {s : Stopwatch c} (h : s.TableOk) (x : UInt32) :
    exactSum (s.storeLap x).laps ≤ exactSum s.laps + x.toNat := by
  have hx : exactSum [x] = x.toNat := by simp [exactSum]
  by_cases hlt : s.lapCount.toNat < c.maxLaps
  · rw [laps_storeLap_of_lt h hlt, exactSum_append, hx]
  · rw [laps_storeLap_of_full h hlt, exactSum_append, hx]
    exact Nat.add_le_add_right (exactSum_tail_le _) _

/-- The step lemma: a lap adds the time since the last one, an eviction takes some away. -/
theorem LapSummed.step {s : Stopwatch c} {i : Ideal ℕ} {r : Reading} (h : LapSummed s i r.us.toNat) (op : Op) :
    LapSummed (s.step op r).2 (i.step op r.us.toNat) r.us.toNat := by
  refine ⟨h.toLapBased.step op, h.table.step h.gInited op r, ?_⟩
  intro hlt
  rcases step_table_cases h.gInited op r with ⟨-, ho, -, he⟩ | ⟨rfl, he⟩ | ⟨-, h0, -, -⟩
  · rw [laps_of_sameTable he, he.lastLapTotalMs]
    exact h.sum (countedMs_step i ho _ ▸ hlt)
  · rw [countedMs_step i (by nofun)] at hlt
    have hbase := h.base_le hlt
    have hsum := h.sum hlt
    rw [he]
    show exactSum (s.storeLap _).laps ≤ (s.totalAt r.us).toNat
    refine (exactSum_storeLap_le h.table _).trans ?_
    rw [UInt32.toNat_sub_of_le _ _ hbase]
    have := UInt32.le_iff_toNat_le.mp hbase
    omega
  · rw [laps_of_cleared h0]
    exact Nat.zero_le _

/-- The run lemma. -/
theorem lapSummed_after {es : List (Op × Reading)} (hclock : Clocked (fun e => e.2.us.toNat) es) {now : ℕ}
    (hnow : ∀ e ∈ es, e.2.us.toNat ≤ now) : LapSummed (Stopwatch.after c es) (Ideal.after es) now := by
  have h := ((stopwatchMachine c).prod (Ideal.machine fun r : Reading => r.us.toNat)).run_clocked
    (fun e => e.2.us.toNat) (G := fun _ _ => True) (I := fun w t => LapSummed w.1 w.2 t)
    (fun _ _ _ hle h => h.mono hle) (fun _ e _ h => h.step e.1) (s := (Stopwatch.fresh c, Ideal.init 0))
    (LapSummed.fresh 0) (Machine.meets_of_forall _ (fun _ _ _ => trivial) _) hclock
    (fun _ _ => Nat.zero_le _) (Nat.zero_le now) hnow
  rw [Machine.run_prod] at h
  exact h

/-- Below `2 ^ 32` ms the exact sum fits 32 bits. -/
theorem exactSum_laps_lt {es : List (Op × Reading)} (hclock : Clocked (fun e => e.2.us.toNat) es) {now : ℕ}
    (hnow : ∀ e ∈ es, e.2.us.toNat ≤ now) (hlt : (Ideal.after es).countedMs now < 2 ^ 32) :
    exactSum (Stopwatch.after c es).laps < 2 ^ 32 :=
  ((lapSummed_after hclock hnow).sum hlt).trans_lt (UInt32.toNat_lt _)

/-! ## The running values -/

/-- The smallest of the laps and of the value before. -/
theorem foldl_add_minMs (l : List UInt32) (st : LapStats) :
    (l.foldl LapStats.add st).minMs ≤ st.minMs ∧ (∀ x ∈ l, (l.foldl LapStats.add st).minMs ≤ x) ∧
      ((l.foldl LapStats.add st).minMs = st.minMs ∨ (l.foldl LapStats.add st).minMs ∈ l) := by
  induction l generalizing st with
  | nil => exact ⟨UInt32.le_refl _, nofun, Or.inl rfl⟩
  | cons v l ih =>
    have h := ih (st.add v)
    have hadd : (st.add v).minMs = if v < st.minMs then v else st.minMs := rfl
    rw [List.foldl_cons]
    grind [UInt32.lt_iff_toNat_lt, UInt32.le_iff_toNat_le]

/-- The largest of the laps and of the value before. -/
theorem foldl_add_maxMs (l : List UInt32) (st : LapStats) :
    st.maxMs ≤ (l.foldl LapStats.add st).maxMs ∧ (∀ x ∈ l, x ≤ (l.foldl LapStats.add st).maxMs) ∧
      ((l.foldl LapStats.add st).maxMs = st.maxMs ∨ (l.foldl LapStats.add st).maxMs ∈ l) := by
  induction l generalizing st with
  | nil => exact ⟨UInt32.le_refl _, nofun, Or.inl rfl⟩
  | cons v l ih =>
    have h := ih (st.add v)
    have hadd : (st.add v).maxMs = if v > st.maxMs then v else st.maxMs := rfl
    rw [List.foldl_cons]
    grind [UInt32.lt_iff_toNat_lt, UInt32.le_iff_toNat_le]

/-- The sum modulo `2 ^ 32`. -/
theorem foldl_add_sumMs (l : List UInt32) (st : LapStats) :
    (l.foldl LapStats.add st).sumMs.toNat = (st.sumMs.toNat + exactSum l) % 2 ^ 32 := by
  induction l generalizing st with
  | nil => exact (Nat.mod_eq_of_lt st.sumMs.toNat_lt).symm
  | cons v l ih =>
    have hadd : (st.add v).sumMs.toNat = (st.sumMs.toNat + v.toNat) % 2 ^ 32 := UInt32.toNat_add _ _
    have hcons : exactSum (v :: l) = v.toNat + exactSum l := rfl
    rw [List.foldl_cons, ih, hadd, hcons]
    omega

/-- The minimum is a lap, and no lap is smaller. The value before the loop is the largest there is. -/
theorem statsOf_minMs {l : List UInt32} (hne : l ≠ []) : (statsOf l).minMs ∈ l ∧ ∀ x ∈ l, (statsOf l).minMs ≤ x := by
  obtain ⟨-, hall, hmem⟩ := foldl_add_minMs l LapStats.init
  refine ⟨?_, hall⟩
  rcases hmem with hmem | hmem
  · obtain ⟨x, hx⟩ := List.exists_mem_of_ne_nil l hne
    have hle : LapStats.init.minMs ≤ x := by
      rw [← hmem]
      exact hall x hx
    have hx' : x = 4294967295 := by
      have := x.toNat_lt
      have h4 : LapStats.init.minMs.toNat = 4294967295 := rfl
      rw [UInt32.le_iff_toNat_le, h4] at hle
      rw [← UInt32.toNat_inj]
      exact Nat.le_antisymm (Nat.le_of_lt_succ this) hle
    have hmin : (statsOf l).minMs = x := hmem.trans hx'.symm
    rw [hmin]
    exact hx
  · exact hmem

/-- The maximum is a lap, and no lap is larger. -/
theorem statsOf_maxMs {l : List UInt32} (hne : l ≠ []) : (statsOf l).maxMs ∈ l ∧ ∀ x ∈ l, x ≤ (statsOf l).maxMs := by
  obtain ⟨-, hall, hmem⟩ := foldl_add_maxMs l LapStats.init
  refine ⟨?_, hall⟩
  rcases hmem with hmem | hmem
  · obtain ⟨x, hx⟩ := List.exists_mem_of_ne_nil l hne
    have hle : x ≤ LapStats.init.maxMs := by
      rw [← hmem]
      exact hall x hx
    have hx' : x = 0 := by
      rw [UInt32.le_iff_toNat_le] at hle
      rw [← UInt32.toNat_inj]
      exact Nat.le_zero.mp hle
    have hmax : (statsOf l).maxMs = x := hmem.trans hx'.symm
    rw [hmax]
    exact hx
  · exact hmem

theorem statsOf_sumMs {l : List UInt32} (h : exactSum l < 2 ^ 32) : (statsOf l).sumMs.toNat = exactSum l := by
  have hs : (statsOf l).sumMs.toNat = (0 + exactSum l) % 2 ^ 32 := foldl_add_sumMs l LapStats.init
  rw [hs, Nat.zero_add, Nat.mod_eq_of_lt h]

/-- The exact sum is between as many times the smallest and as many times the largest. -/
theorem exactSum_bounds {l : List UInt32} {lo hi : UInt32} (hlo : ∀ x ∈ l, lo ≤ x) (hhi : ∀ x ∈ l, x ≤ hi) :
    l.length * lo.toNat ≤ exactSum l ∧ exactSum l ≤ l.length * hi.toNat := by
  constructor
  · have h := List.card_nsmul_le_sum (l.map UInt32.toNat) lo.toNat (by
      intro n hn
      obtain ⟨x, hx, rfl⟩ := List.mem_map.mp hn
      exact UInt32.le_iff_toNat_le.mp (hlo x hx))
    simpa [exactSum] using h
  · have h := List.sum_le_card_nsmul (l.map UInt32.toNat) hi.toNat (by
      intro n hn
      obtain ⟨x, hx, rfl⟩ := List.mem_map.mp hn
      exact UInt32.le_iff_toNat_le.mp (hhi x hx))
    simpa [exactSum] using h

/-- The statistics of the laps. In every state that a run of calls leads to, under a clock that never goes back and with less than
`2 ^ 32` ms since the last reset, and with at least one lap: the loop of `cmd_sw_status` and of `draw_laps_page` gives values `st`
that both of them show. Its sum is the exact one, its minimum and its maximum are laps and bound all laps, the average is the exact
sum divided by the count, rounded down, and lies between them. -/
theorem lap_statistics (c : Config) (es : List (Op × Reading)) (hclock : Clocked (fun e => e.2.us.toNat) es) (now : ℕ)
    (hnow : ∀ e ∈ es, e.2.us.toNat ≤ now) (hlt : (Ideal.after es).countedMs now < 2 ^ 32) (w : World c)
    (hw : w.sw = Stopwatch.after c es) (hne : w.sw.laps ≠ []) :
    ∃ st : LapStats, ((readLapStats w.sw.lapCount.toNat 0 LapStats.init).exec Act.perform w).1 = st ∧
      printed (cmdSwStatus.acts Act.perform w) =
        ["state: ".toList ++ stateName w.sw.state ++ ['\n'],
          msLine "total: ".toList (stopwatchGetTotalMs boardPlatform w.sw w.board).1,
          "laps:  ".toList ++ fmtU w.sw.laps.length ++ ['\n'],
          msLine "min:   ".toList st.minMs, msLine "max:   ".toList st.maxMs,
          msLine "avg:   ".toList (st.sumMs / w.sw.lapCount.toUInt32)] ∧
      .oled (.showString 0 56 (statLine st w.sw.lapCount) .f6x8) ∈ drawLapsPage.acts Act.perform w ∧
      st.sumMs.toNat = exactSum w.sw.laps ∧
      (st.minMs ∈ w.sw.laps ∧ ∀ x ∈ w.sw.laps, st.minMs ≤ x) ∧
      (st.maxMs ∈ w.sw.laps ∧ ∀ x ∈ w.sw.laps, x ≤ st.maxMs) ∧
      (st.sumMs / w.sw.lapCount.toUInt32).toNat = exactSum w.sw.laps / w.sw.laps.length ∧
      st.minMs ≤ st.sumMs / w.sw.lapCount.toUInt32 ∧ st.sumMs / w.sw.lapCount.toUInt32 ≤ st.maxMs := by
  have hsum := lapSummed_after (c := c) hclock hnow
  rw [← hw] at hsum
  have hs := hsum.gInited
  have hlen := length_laps hsum.table
  have hcnt : stopwatchGetLapCount w.sw = w.sw.lapCount := by simp [stopwatchGetLapCount, hs]
  have hstate : stopwatchGetState w.sw = w.sw.state := by simp [stopwatchGetState, hs]
  have hpos : 0 < w.sw.lapCount.toNat := by
    rw [← hlen]
    exact List.length_pos_iff.mpr hne
  have hpos' : 0 < w.sw.lapCount := UInt16.lt_iff_toNat_lt.mpr hpos
  have hexact : exactSum w.sw.laps < 2 ^ 32 := by
    rw [hw]
    exact exactSum_laps_lt hclock hnow hlt
  have hexec := exec_readLapStats_all w
  rw [hcnt, heldLaps_eq hs hsum.table] at hexec
  have hmin := statsOf_minMs hne
  have hmax := statsOf_maxMs hne
  have hsumMs := statsOf_sumMs hexact
  have havg : ((statsOf w.sw.laps).sumMs / w.sw.lapCount.toUInt32).toNat = exactSum w.sw.laps / w.sw.laps.length := by
    rw [UInt32.toNat_div, hsumMs, UInt16.toNat_toUInt32, hlen]
  obtain ⟨hlo, hhi⟩ := exactSum_bounds hmin.2 hmax.2
  have hpos'' : 0 < w.sw.laps.length := List.length_pos_iff.mpr hne
  refine ⟨statsOf w.sw.laps, by rw [hexec], ?_, ?_, hsumMs, hmin, hmax, havg, ?_, ?_⟩
  · rw [printed_cmdSwStatus, hcnt, hstate, heldLaps_eq hs hsum.table, statusReport, if_pos hpos', hlen]
    rfl
  · have hmem := statLine_mem_drawLapsPage w (hcnt ▸ hpos')
    rwa [hcnt, heldLaps_eq hs hsum.table] at hmem
  · rw [UInt32.le_iff_toNat_le, havg, Nat.le_div_iff_mul_le hpos'', Nat.mul_comm]
    exact hlo
  · rw [UInt32.le_iff_toNat_le, havg]
    exact Nat.div_le_of_le_mul hhi

/-- A run with three laps, in a world of its own, satisfies the hypotheses. -/
theorem lap_statistics_three_laps :
    let es : List (Op × Reading) := [(.start, ⟨1, 0⟩), (.lap, ⟨3000001, 3000⟩), (.lap, ⟨4000001, 4000⟩), (.lap, ⟨9000001, 9000⟩)]
    let w : World Config.standard := { World.boot Config.standard 72000000 with sw := Stopwatch.after Config.standard es }
    ∃ st : LapStats, ((readLapStats w.sw.lapCount.toNat 0 LapStats.init).exec Act.perform w).1 = st ∧
      st.sumMs.toNat = exactSum w.sw.laps := by
  intro es w
  obtain ⟨st, h, -, -, hsum, -⟩ := lap_statistics Config.standard es (by unfold Clocked; decide) 9000001 (by decide) (by decide)
    w rfl (by decide)
  exact ⟨st, h, hsum⟩

end RtStopwatch
