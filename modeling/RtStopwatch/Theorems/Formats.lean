import RtStopwatch.Cli
import RtStopwatch.Csv
import RtStopwatch.Lemmas.Text

/-!
# The texts say what they show

The human format of the CSV stream can be read back without loss (`human_format_lossless`). The lap that `sw_lap` prints and the one
on the OLED pages are the same text below 100 minutes; from there on `sw_lap` shows the minutes modulo 100 (`lap_displays`).
-/

namespace RtStopwatch

open Lib

/-! ## The rows of the CSV stream -/

/-- Reads a row of the stream: the lap count is a number, the times are read by `readField`. -/
def readRow (readField : List Char → Option ℕ) (row : List Char) : Option (ℕ × ℕ × ℕ × ℕ) :=
  match row.splitOn '\n' with
  | [line, []] =>
    match line.splitOn ',' with
    | [t, n, lap, total] => do
      let t ← readField t
      let n ← readDec n
      let lap ← readField lap
      let total ← readField total
      pure (t, n, lap, total)
    | _ => none
  | _ => none

/-- A row is read field by field, when no field holds a comma or a line end. -/
theorem readRow_eq {readField : List Char → Option ℕ} {t lap : List Char} {tv lapv : ℕ} (ht : readField t = some tv)
    (hl : readField lap = some lapv) (htc : ',' ∉ t ∧ '\n' ∉ t) (hlc : ',' ∉ lap ∧ '\n' ∉ lap) (n : ℕ) :
    readRow readField (t ++ ',' :: fmtU n ++ ',' :: lap ++ ',' :: t ++ ['\n']) = some (tv, n, lapv, tv) := by
  have hn : ',' ∉ fmtU n ∧ '\n' ∉ fmtU n := ⟨not_mem_fmtU rfl n, not_mem_fmtU rfl n⟩
  have hline : (t ++ ',' :: fmtU n ++ ',' :: lap ++ ',' :: t ++ ['\n']).splitOn '\n' =
      [t ++ ',' :: (fmtU n ++ ',' :: (lap ++ ',' :: t)), []] := by
    rw [List.splitOn_append_cons_self_of_not_mem (by simp [htc.2, hlc.2, hn.2])]
    simp
  have hfields : (t ++ ',' :: (fmtU n ++ ',' :: (lap ++ ',' :: t))).splitOn ',' = [t, fmtU n, lap, t] :=
    splitOn_fields htc.1 hn.1 hlc.1 htc.1
  simp only [readRow, hline, hfields, ht, hl, readDec_fmtU]
  rfl

theorem readRow_csvRowMs (t : UInt32) (n : UInt16) (lap : UInt32) :
    readRow readDec (csvRowMs t n lap) = some (t.toNat, n.toNat, lap.toNat, t.toNat) := by
  have hc : ∀ k, ',' ∉ fmtU k ∧ '\n' ∉ fmtU k := fun k => ⟨not_mem_fmtU rfl k, not_mem_fmtU rfl k⟩
  exact readRow_eq (readDec_fmtU _) (readDec_fmtU _) (hc _) (hc _) n.toNat

theorem readRow_csvRowHuman (t : UInt32) (n : UInt16) (lap : UInt32) :
    readRow readTime (csvRowHuman t n lap) = some (t.toNat, n.toNat, lap.toNat, t.toNat) := by
  have hd : ∀ k, readTime (formatTime k 24) = some k.toNat := by
    intro k
    rw [formatTime_eq (by decide), readTime_timeText]
  have hc : ∀ k, ',' ∉ formatTime k 24 ∧ '\n' ∉ formatTime k 24 := by
    intro k
    rw [formatTime_eq (by decide)]
    constructor
    · intro h
      have := mem_timeText h
      revert this
      decide
    · intro h
      have := mem_timeText h
      revert this
      decide
  exact readRow_eq (hd _) (hd _) (hc _) (hc _) n.toNat

/-- The human format loses nothing. For every 32-bit total, `readTime` gets it back from the text of `format_time`, and a larger
buffer than the callers' 24 bytes would hold no more. So for every snapshot, the row `csv_timer_cb` prints in human mode reads as
the same four numbers as the one it prints in milliseconds. -/
theorem human_format_lossless :
    (∀ total : UInt32, readTime (formatTime total 24) = some total.toNat ∧
      ∀ bufLen ≥ 24, formatTime total bufLen = formatTime total 24) ∧
    ∀ (s : Csv) (t : UInt32) (n : UInt16) (latest : UInt32), ∃ human ms : List Char,
      (csvTimerCb { s with csvHuman := true } t n latest).1.getLast? = some human ∧
      (csvTimerCb { s with csvHuman := false } t n latest).1.getLast? = some ms ∧
      readRow readTime human = some (t.toNat, n.toNat, if n > 0 then latest.toNat else 0, t.toNat) ∧
      readRow readDec ms = readRow readTime human := by
  constructor
  · intro total
    constructor
    · rw [formatTime_eq (by decide), readTime_timeText]
    · intro bufLen h
      rw [formatTime_eq (by omega), formatTime_eq (by decide)]
  · intro s t n latest
    refine ⟨csvRowHuman t n (if n > 0 then latest else 0), csvRowMs t n (if n > 0 then latest else 0), ?_, ?_, ?_, ?_⟩
    · simp [csvTimerCb]
    · simp [csvTimerCb]
    · rw [readRow_csvRowHuman, apply_ite UInt32.toNat]
      rfl
    · rw [readRow_csvRowHuman, readRow_csvRowMs]

/-! ## The laps -/

/-- The time in what `cmd_sw_lap` prints. -/
def lapClock (lapMs : UInt32) : List Char :=
  decimal 2 (lapMs.toNat / 60000 % 100) ++ ':' ::
    (decimal 2 (lapMs.toNat / 1000 % 60) ++ '.' :: decimal 2 (lapMs.toNat / 10 % 100))

theorem lapText_eq (lapMs : UInt32) : lapText lapMs = "sw: lap=".toList ++ lapClock lapMs ++ ['\n'] := by
  unfold lapText lapClock
  generalize "sw: lap=".toList = label
  simp only [fmt0U_eq, UInt32.toNat_div, UInt32.toNat_mod, UInt32.reduceToNat, List.append_assoc, List.cons_append]

/-- Two times agree when their minutes do. -/
theorem lapClock_eq_timeMsText_iff (lapMs : UInt32) : lapClock lapMs = timeMsText lapMs ↔ lapMs.toNat < 6000000 := by
  unfold lapClock timeMsText
  rw [List.append_left_inj, decimal_inj]
  omega

theorem readClock_timeMsText (ms : UInt32) : readClock 100 (timeMsText ms) = some (ms.toNat / 10) := by
  unfold timeMsText
  rw [readClock_eq]
  congr 1
  omega

theorem readClock_lapClock (ms : UInt32) : readClock 100 (lapClock ms) = some (ms.toNat / 10 % 600000) := by
  unfold lapClock
  rw [readClock_eq]
  congr 1
  omega

/-- A beep prints nothing. -/
theorem printed_notifierBeepOnce {c : Config} (ms : UInt16) (w : World c) :
    printed ((notifierBeepOnce ms).acts Act.perform w) = [] := by
  show printed (.load .sBeepEnabled :: (Code.when w.vars.sBeepEnabled (beep ms)).acts Act.perform w) = []
  unfold Code.when
  split
  · rfl
  · rfl

/-- What `cmd_sw_lap` prints when `stopwatch_lap` gives a lap. -/
theorem printed_cmdSwLap {c : Config} {w : World c} {lapMs : UInt32}
    (h : (Op.lap.call boardPlatform w.sw w.board).1 = (.eok, some lapMs)) :
    printed (cmdSwLap.acts Act.perform w) = [lapText lapMs] := by
  have hr : ((Code.call .lap).exec Act.perform w).1 = (.eok, some lapMs) := h
  refine (congrArg printed (Prog.acts_bind Act.perform (Code.call .lap) _ w)).trans ?_
  rw [hr]
  show lapText lapMs :: printed ((notifierBeepOnce 40).acts Act.perform _) = _
  rw [printed_notifierBeepOnce]

/-- The two lap displays. Whenever `stopwatch_lap` gives `cmd_sw_lap` a lap: the text it prints is the one `format_time_ms` makes
for the OLED pages, in either of their buffers, exactly when the lap is below 100 minutes. The OLED's text always stands for the
lap in centiseconds, rounded down; the printed one for that modulo 100 minutes. -/
theorem lap_displays {c : Config} (w : World c) (lapMs : UInt32)
    (h : (Op.lap.call boardPlatform w.sw w.board).1 = (.eok, some lapMs)) :
    ∃ text : List Char, printed (cmdSwLap.acts Act.perform w) = ["sw: lap=".toList ++ text ++ ['\n']] ∧
      (text = formatTimeMs lapMs 24 ↔ lapMs.toNat < 6000000) ∧
      formatTimeMs lapMs 16 = formatTimeMs lapMs 24 ∧
      readClock 100 (formatTimeMs lapMs 24) = some (lapMs.toNat / 10) ∧
      readClock 100 text = some (lapMs.toNat / 10 % 600000) := by
  rw [formatTimeMs_eq (by decide), formatTimeMs_eq (by decide)]
  refine ⟨lapClock lapMs, ?_, lapClock_eq_timeMsText_iff lapMs, rfl, readClock_timeMsText lapMs, readClock_lapClock lapMs⟩
  rw [printed_cmdSwLap h, lapText_eq]

/-- A paused stopwatch with the given total and no laps. -/
def pausedAt (totalMs : UInt32) : World Config.standard :=
  { World.boot Config.standard 72000000 with
    sw := { Stopwatch.fresh Config.standard with state := .paused, accumulatedMs := totalMs } }

/-- A first lap of 61.23 s reads the same on both displays. -/
theorem lap_displays_one_minute :
    (Op.lap.call boardPlatform (pausedAt 61230).sw (pausedAt 61230).board).1 = (.eok, some 61230) ∧
    ∃ text : List Char, printed (cmdSwLap.acts Act.perform (pausedAt 61230)) = ["sw: lap=".toList ++ text ++ ['\n']] ∧
      text = formatTimeMs 61230 24 := by
  refine ⟨rfl, ?_⟩
  obtain ⟨text, hp, ht, -⟩ := lap_displays (pausedAt 61230) 61230 rfl
  exact ⟨text, hp, ht.mpr (by decide)⟩

/-- A first lap of 100 minutes: `sw_lap` prints `00:00.00`, which is neither the OLED's `100:00.00` nor 600000 centiseconds. -/
theorem lap_of_100_minutes_printed_as_zero :
    (Op.lap.call boardPlatform (pausedAt 6000000).sw (pausedAt 6000000).board).1 = (.eok, some 6000000) ∧
    printed (cmdSwLap.acts Act.perform (pausedAt 6000000)) = ["sw: lap=00:00.00\n".toList] ∧
    formatTimeMs 6000000 24 = "100:00.00".toList ∧
    readClock 100 "00:00.00".toList ≠ some (6000000 / 10) := by
  have hlap : (Op.lap.call boardPlatform (pausedAt 6000000).sw (pausedAt 6000000).board).1 = (.eok, some 6000000) := rfl
  refine ⟨hlap, ?_, ?_, ?_⟩
  · rw [printed_cmdSwLap hlap]
    decide
  · decide
  · decide

end RtStopwatch
