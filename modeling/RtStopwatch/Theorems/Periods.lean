import Mathlib.Order.Bounds.Basic
import RtStopwatch.Cli
import RtStopwatch.Csv

/-!
# The commands that set a period

`sw_csv on s` hands its period to the kernel's timers, which assert that it is below `RT_TICK_MAX / 2`; `sw_oled_rate s` hands its
own to the UI in 16 bits. Neither checks the upper end, and `sw_csv` takes a negative number for a large one: what they do is right
exactly for the arguments in range (`period_commands_iff`).
-/

namespace RtStopwatch

open Lib

/-- A signed word as its bit pattern. -/
theorem int32_toUInt32_cast (n : Int32) :
    (n.toUInt32.toNat : ℤ) = if 0 ≤ n.toInt then n.toInt else n.toInt + 2 ^ 32 := by
  have h : n.toInt = if 2 * n.toUInt32.toNat < 2 ^ 32 then (n.toUInt32.toNat : ℤ) else n.toUInt32.toNat - 2 ^ 32 :=
    BitVec.toInt_eq_toNat_cond n.toBitVec
  have hlt := n.toUInt32.toNat_lt
  split at h
  · rw [if_pos (by omega), h]
  · rw [if_neg (by omega), h]
    omega

/-! ## `sw_csv on` -/

/-- `RT_TICK_MAX`. -/
def rtTickMax : ℕ := 4294967295

/-- The tick counts handed to the kernel's timers. -/
def ticksGiven (as : List CsvAct) : List UInt32 :=
  as.filterMap fun
    | .timerCreate ticks | .timerSetTime ticks => some ticks
    | .kprintf _ | .timerStart | .timerStop => none

/-- `ms_to_ticks` of a period that is not zero: there are as many ticks as milliseconds. -/
theorem msToTicks_eq {ms : UInt32} (h : ms ≠ 0) : msToTicks ms = ms := by
  have hlt := ms.toNat_lt
  have hpos : ms.toNat ≠ 0 := fun h0 => h (UInt32.toNat_inj.mp h0)
  have ht : ((ms.toUInt64 * rtTickPerSecond + 999) / 1000).toNat = ms.toNat := by
    have hk : rtTickPerSecond.toNat = 1000 := rfl
    have h999 : (999 : UInt64).toNat = 999 := rfl
    have h1000 : (1000 : UInt64).toNat = 1000 := rfl
    rw [UInt64.toNat_div, UInt64.toNat_add, UInt64.toNat_mul, UInt32.toNat_toUInt64, hk, h999, h1000]
    omega
  have hne : (ms.toUInt64 * rtTickPerSecond + 999) / 1000 ≠ 0 := by
    intro h0
    rw [h0] at ht
    exact hpos ht.symm
  simp only [msToTicks]
  rw [if_neg hne, ← UInt32.toNat_inj, UInt64.toNat_toUInt32, ht, Nat.mod_eq_of_lt hlt]

/-- The period `sw_csv on` sets for a number. -/
theorem csvPeriod_toNat (n : Int32) (p : UInt32) :
    ((csvPeriod (some n) p).toNat : ℤ) = if 0 ≤ n.toInt then max 10 n.toInt else n.toInt + 2 ^ 32 := by
  have h := int32_toUInt32_cast n
  have hge := n.le_toInt
  have hlt : n.toUInt32 < 10 ↔ n.toUInt32.toNat < 10 := UInt32.lt_iff_toNat_lt
  show ((if n.toUInt32 < 10 then 10 else n.toUInt32).toNat : ℤ) = _
  by_cases h0 : 0 ≤ n.toInt
  · rw [if_pos h0] at h ⊢
    by_cases h10 : n.toUInt32 < 10
    · have := hlt.mp h10
      rw [if_pos h10, max_eq_left (by omega)]
      rfl
    · have : ¬n.toUInt32.toNat < 10 := fun hn => h10 (hlt.mpr hn)
      rw [if_neg h10, max_eq_right (by omega), h]
  · rw [if_neg h0] at h ⊢
    rw [if_neg (by rw [hlt]; omega), h]

/-- What `sw_csv on` should do: hand the timer one tick count, between 1 and `RT_TICK_MAX / 2 - 1`, the least that is not shorter
than the period in force, which is the one printed if the timer could be created. -/
def CsvPeriodOk (n : Int32) (heap : Bool) (s : Csv) : Prop :=
  ∃ ticks : UInt32, ticksGiven (cmdSwCsv (some "on".toList) (some n) heap s).1 = [ticks] ∧
    1 ≤ ticks.toNat ∧ ticks.toNat < rtTickMax / 2 ∧
    IsLeast { k : ℕ | (cmdSwCsv (some "on".toList) (some n) heap s).2.csvPeriodMs.toNat * rtTickPerSecond.toNat ≤ k * 1000 }
      ticks.toNat ∧
    (s.csvTimer.isSome ∨ heap → CsvAct.kprintf ("sw.csv: on, ".toList ++
      fmtU (cmdSwCsv (some "on".toList) (some n) heap s).2.csvPeriodMs.toNat ++ " ms\n".toList) ∈
        (cmdSwCsv (some "on".toList) (some n) heap s).1)

/-- Whatever the state before, one tick count is handed over, and the new period is in force. -/
theorem cmdSwCsv_on (n : Int32) (heap : Bool) (s : Csv) :
    ticksGiven (cmdSwCsv (some "on".toList) (some n) heap s).1 = [msToTicks (csvPeriod (some n) s.csvPeriodMs)] ∧
    (cmdSwCsv (some "on".toList) (some n) heap s).2.csvPeriodMs = csvPeriod (some n) s.csvPeriodMs ∧
    (s.csvTimer.isSome ∨ heap → CsvAct.kprintf ("sw.csv: on, ".toList ++
      fmtU (csvPeriod (some n) s.csvPeriodMs).toNat ++ " ms\n".toList) ∈
        (cmdSwCsv (some "on".toList) (some n) heap s).1) := by
  rw [cmdSwCsv, if_pos rfl]
  unfold csvOn
  cases ht : s.csvTimer with
  | none =>
    cases heap with
    | true => exact ⟨rfl, rfl, fun _ => List.mem_cons_of_mem _ (List.mem_cons_of_mem _ (List.mem_singleton.mpr rfl))⟩
    | false => exact ⟨rfl, rfl, by simp⟩
  | some t => exact ⟨rfl, rfl, fun _ => List.mem_cons_of_mem _ (List.mem_cons_of_mem _ (List.mem_singleton.mpr rfl))⟩

theorem csvPeriodOk_iff (n : Int32) (heap : Bool) (s : Csv) :
    CsvPeriodOk n heap s ↔ 0 ≤ n.toInt ∧ n.toInt < 2147483647 := by
  obtain ⟨hticks, hperiod, hprint⟩ := cmdSwCsv_on n heap s
  have hp := csvPeriod_toNat n s.csvPeriodMs
  have hge := n.le_toInt
  have hne : csvPeriod (some n) s.csvPeriodMs ≠ 0 := by
    intro h0
    rw [h0] at hp
    split at hp
    · have := le_max_left 10 n.toInt
      simp at hp
      omega
    · simp at hp
      omega
  unfold CsvPeriodOk
  rw [hticks, hperiod, msToTicks_eq hne]
  have hk : rtTickPerSecond.toNat = 1000 := rfl
  have hmax : rtTickMax / 2 = 2147483647 := rfl
  constructor
  · rintro ⟨ticks, ht, -, hlt, -⟩
    rw [← List.head_eq_of_cons_eq ht, hmax] at hlt
    split at hp
    · exact ⟨‹_›, by have := le_max_right 10 n.toInt; omega⟩
    · omega
  · rintro ⟨h0, hlt⟩
    rw [if_pos h0] at hp
    have hle := le_max_left 10 n.toInt
    have hmx : max 10 n.toInt < 2147483647 := max_lt (by decide) hlt
    refine ⟨_, rfl, by omega, by omega, ⟨?_, ?_⟩, hprint⟩
    · show _ * _ ≤ _ * 1000
      rw [hk]
    · intro k hmem
      have hmem : _ * _ ≤ k * 1000 := hmem
      rw [hk] at hmem
      omega

/-! ## `sw_oled_rate` -/

/-- What `sw_oled_rate` should do: print the period that is then in force, the larger of 10 and the argument. -/
def OledRateOk {c : Config} (n : Int32) (w : World c) : Prop :=
  printed ((cmdSwOledRate (some n)).acts Act.perform w) =
    ["sw_oled_rate: ".toList ++ fmtD (max 10 n.toInt) ++ " ms\n".toList] ∧
  (((cmdSwOledRate (some n)).exec Act.perform w).2.vars.sRefreshMs.toNat : ℤ) = max 10 n.toInt

theorem oledRateOk_iff {c : Config} (n : Int32) (w : World c) : OledRateOk n w ↔ n.toInt ≤ 65535 := by
  have hlt10 : n < 10 ↔ n.toInt < 10 := Int32.lt_iff_toInt_lt
  have hms : (if n < 10 then 10 else n).toInt = max 10 n.toInt := by
    by_cases h : n < 10
    · have := hlt10.mp h
      rw [if_pos h, max_eq_left (by omega)]
      rfl
    · have : ¬n.toInt < 10 := fun hn => h (hlt10.mpr hn)
      rw [if_neg h, max_eq_right (by omega)]
  generalize hm : (if n < 10 then 10 else n) = ms at hms
  have hp : printed ((cmdSwOledRate (some n)).acts Act.perform w) =
      ["sw_oled_rate: ".toList ++ fmtD ms.toInt ++ " ms\n".toList] := by
    rw [← hm]
    rfl
  have hv : ((cmdSwOledRate (some n)).exec Act.perform w).2.vars.sRefreshMs =
      if ms.toUInt32.toUInt16 < 10 then 10 else ms.toUInt32.toUInt16 := by
    rw [← hm]
    rfl
  have hle := le_max_left 10 n.toInt
  have hle' := le_max_right 10 n.toInt
  have hcast := int32_toUInt32_cast ms
  rw [if_pos (by omega), hms] at hcast
  have h16 : ms.toUInt32.toUInt16.toNat = ms.toUInt32.toNat % 2 ^ 16 := UInt32.toNat_toUInt16 _
  unfold OledRateOk
  rw [hp, hv, hms]
  constructor
  · rintro ⟨-, h⟩
    split at h
    · simp at h
      omega
    · omega
  · intro h
    refine ⟨rfl, ?_⟩
    have hsmall : max 10 n.toInt ≤ 65535 := max_le (by decide) h
    rw [if_neg (by rw [UInt16.lt_iff_toNat_lt, h16]; simp; omega)]
    omega

/-- The period commands. For every argument and every state before: `sw_csv on` hands the timer a tick count it may be given, the
least not shorter than the period it prints, exactly when the argument is between 0 and `2 ^ 31 - 2`; and `sw_oled_rate` prints the
period in force, the larger of 10 and the argument, exactly when the argument is at most 65535. -/
theorem period_commands_iff {c : Config} (n : Int32) (heap : Bool) (s : Csv) (w : World c) :
    (CsvPeriodOk n heap s ↔ 0 ≤ n.toInt ∧ n.toInt < 2147483647) ∧ (OledRateOk n w ↔ n.toInt ≤ 65535) :=
  ⟨csvPeriodOk_iff n heap s, oledRateOk_iff n w⟩

/-- `sw_csv on -1` asks for a timer of `2 ^ 32 - 1` ticks, and `sw_oled_rate 65546` says 65546 ms and sets 10. -/
theorem period_commands_out_of_range :
    ticksGiven (cmdSwCsv (some "on".toList) (some (-1)) true Csv.boot).1 = [4294967295] ∧
    ¬CsvPeriodOk (-1) true Csv.boot ∧
    printed ((cmdSwOledRate (some 65546)).acts Act.perform (World.boot Config.standard 72000000)) =
      ["sw_oled_rate: 65546 ms\n".toList] ∧
    ((cmdSwOledRate (some 65546)).exec Act.perform (World.boot Config.standard 72000000)).2.vars.sRefreshMs = 10 ∧
    ¬OledRateOk 65546 (World.boot Config.standard 72000000) := by
  refine ⟨by decide, ?_, by decide, by decide, ?_⟩
  · rw [csvPeriodOk_iff]
    decide
  · rw [oledRateOk_iff]
    decide

end RtStopwatch
