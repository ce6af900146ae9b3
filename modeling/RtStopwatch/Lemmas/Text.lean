import RtStopwatch.Lib.Decimal
import RtStopwatch.Text

/-!
# Reading the texts

The fields of the time formats, as decimal numerals, and readers for them: `readTime` for the format of `stopwatch_cli.c`,
`readClock` for the one of `ui_oled.c`.
-/

namespace RtStopwatch

open Lib

theorem fmtU_eq (n : ℕ) : fmtU n = decimal 0 n := (decimal_zero n).symm

theorem fmt0U_eq (w n : ℕ) : fmt0U w n = decimal w n := rfl

theorem fmtU_ne_nil (n : ℕ) : fmtU n ≠ [] := by
  rw [fmtU_eq]
  exact decimal_ne_nil 0 n

theorem isDigit_of_mem_fmtU {n : ℕ} {x : Char} (h : x ∈ fmtU n) : x.isDigit = true := by
  rw [fmtU_eq] at h
  exact isDigit_of_mem_decimal h

theorem readDec_fmtU (n : ℕ) : readDec (fmtU n) = some n := by
  rw [fmtU_eq, readDec_decimal]

theorem not_mem_fmtU {x : Char} (hx : x.isDigit = false) (n : ℕ) : x ∉ fmtU n := by
  rw [fmtU_eq]
  exact not_mem_decimal hx 0 n

/-- What fits the buffer is not cut. -/
theorem rtSnprintf_of_length_lt {size : ℕ} {text : List Char} (h : text.length < size) : rtSnprintf size text = text :=
  List.take_of_length_le (by omega)

/-- The fields of a row, none of which holds a comma. -/
theorem splitOn_fields {t n lap total : List Char} (ht : ',' ∉ t) (hn : ',' ∉ n) (hlap : ',' ∉ lap) (htotal : ',' ∉ total) :
    (t ++ ',' :: (n ++ ',' :: (lap ++ ',' :: total))).splitOn ',' = [t, n, lap, total] := by
  rw [List.splitOn_append_cons_self_of_not_mem ht, List.splitOn_append_cons_self_of_not_mem hn,
    List.splitOn_append_cons_self_of_not_mem hlap, List.splitOn_eq_singleton htotal]

/-- Two fields with a dot between them, the second a fraction with `scale` units to one of the first. -/
def readSeconds (scale : ℕ) (text : List Char) : Option ℕ :=
  match text.splitOn '.' with
  | [sec, frac] => do
    let sec ← readDec sec
    let frac ← readDec frac
    pure (sec * scale + frac)
  | _ => none

/-- Minutes and seconds. -/
def readClock (scale : ℕ) (text : List Char) : Option ℕ :=
  match text.splitOn ':' with
  | [min, sec] => do
    let min ← readDec min
    let sec ← readSeconds scale sec
    pure (min * (60 * scale) + sec)
  | _ => none

/-- Milliseconds, from minutes and seconds with or without hours in front. -/
def readTime (text : List Char) : Option ℕ :=
  match text.splitOn ':' with
  | [hr, min, sec] => do
    let hr ← readDec hr
    let min ← readDec min
    let sec ← readSeconds 1000 sec
    pure (hr * 3600000 + min * 60000 + sec)
  | _ => readClock 1000 text

theorem readSeconds_eq (scale w v sec frac : ℕ) :
    readSeconds scale (decimal w sec ++ '.' :: decimal v frac) = some (sec * scale + frac) := by
  have hs : (decimal w sec ++ '.' :: decimal v frac).splitOn '.' = [decimal w sec, decimal v frac] := by
    rw [List.splitOn_append_cons_self_of_not_mem (not_mem_decimal rfl w sec),
      List.splitOn_eq_singleton (not_mem_decimal rfl v frac)]
  simp only [readSeconds, hs, readDec_decimal]
  rfl

theorem colon_not_mem_seconds (w v sec frac : ℕ) : ':' ∉ decimal w sec ++ '.' :: decimal v frac := by
  simp [not_mem_decimal (x := ':') rfl]

theorem splitOn_clock (u w v min sec frac : ℕ) :
    (decimal u min ++ ':' :: (decimal w sec ++ '.' :: decimal v frac)).splitOn ':' =
      [decimal u min, decimal w sec ++ '.' :: decimal v frac] := by
  rw [List.splitOn_append_cons_self_of_not_mem (not_mem_decimal rfl u min),
    List.splitOn_eq_singleton (colon_not_mem_seconds w v sec frac)]

theorem readClock_eq (scale u w v min sec frac : ℕ) :
    readClock scale (decimal u min ++ ':' :: (decimal w sec ++ '.' :: decimal v frac)) =
      some (min * (60 * scale) + (sec * scale + frac)) := by
  simp only [readClock, splitOn_clock, readDec_decimal, readSeconds_eq]
  rfl

/-! ## `format_time` -/

/-- The text of `format_time`, before it is cut to the buffer. -/
def timeText (totalMs : UInt32) : List Char :=
  let rest := decimal 2 (totalMs.toNat / 60000 % 60) ++ ':' ::
    (decimal 2 (totalMs.toNat / 1000 % 60) ++ '.' :: decimal 3 (totalMs.toNat % 1000))
  if 0 < totalMs.toNat / 3600000 then decimal 2 (totalMs.toNat / 3600000) ++ ':' :: rest else rest

theorem formatTime_eq_rtSnprintf (totalMs : UInt32) (bufLen : ℕ) :
    formatTime totalMs bufLen = rtSnprintf bufLen (timeText totalMs) := by
  have hpos : totalMs / 3600000 > 0 ↔ 0 < totalMs.toNat / 3600000 := by
    rw [gt_iff_lt, UInt32.lt_iff_toNat_lt, UInt32.toNat_div]
    rfl
  simp only [formatTime, timeText, fmt0U_eq, hpos, UInt32.toNat_div, UInt32.toNat_mod, UInt32.reduceToNat,
    List.append_assoc, List.cons_append]

/-- Fourteen characters are enough: the hours take at most four. -/
theorem length_timeText_le (totalMs : UInt32) : (timeText totalMs).length ≤ 14 := by
  have hlt := totalMs.toNat_lt
  have hhr : (decimal 2 (totalMs.toNat / 3600000)).length ≤ 4 :=
    length_decimal_le (by decide) (by decide) (by omega)
  have hmin : (decimal 2 (totalMs.toNat / 60000 % 60)).length = 2 := length_decimal (by decide) (by omega)
  have hsec : (decimal 2 (totalMs.toNat / 1000 % 60)).length = 2 := length_decimal (by decide) (by omega)
  have hms : (decimal 3 (totalMs.toNat % 1000)).length = 3 := length_decimal (by decide) (by omega)
  unfold timeText
  split
  · simp only [List.length_append, List.length_cons, hmin, hsec, hms]
    omega
  · simp only [List.length_append, List.length_cons, hmin, hsec, hms]
    omega

theorem formatTime_eq {bufLen : ℕ} (h : 15 ≤ bufLen) (totalMs : UInt32) : formatTime totalMs bufLen = timeText totalMs := by
  rw [formatTime_eq_rtSnprintf, rtSnprintf_of_length_lt]
  exact (length_timeText_le totalMs).trans_lt (by omega)

theorem readTime_timeText (totalMs : UInt32) : readTime (timeText totalMs) = some totalMs.toNat := by
  unfold timeText
  split
  · have hs := List.splitOn_append_cons_self_of_not_mem (not_mem_decimal (x := ':') rfl 2 (totalMs.toNat / 3600000))
      (decimal 2 (totalMs.toNat / 60000 % 60) ++ ':' ::
        (decimal 2 (totalMs.toNat / 1000 % 60) ++ '.' :: decimal 3 (totalMs.toNat % 1000)))
    rw [splitOn_clock] at hs
    simp only [readTime, hs, readDec_decimal, readSeconds_eq]
    show some _ = some _
    congr 1
    omega
  · simp only [readTime, splitOn_clock, readClock_eq]
    congr 1
    omega

/-- Only digits, colons and dots. -/
theorem mem_timeText {totalMs : UInt32} {x : Char} (h : x ∈ timeText totalMs) :
    x.isDigit = true ∨ x = ':' ∨ x = '.' := by
  have hd : ∀ w n, x ∈ decimal w n → x.isDigit = true := fun w n hx => isDigit_of_mem_decimal hx
  unfold timeText at h
  split at h <;> simp only [List.mem_append, List.mem_cons] at h <;> grind

/-! ## `format_time_ms` -/

/-- The text of `format_time_ms`, before it is cut to the buffer. -/
def timeMsText (totalMs : UInt32) : List Char :=
  decimal 2 (totalMs.toNat / 60000) ++ ':' ::
    (decimal 2 (totalMs.toNat / 1000 % 60) ++ '.' :: decimal 2 (totalMs.toNat / 10 % 100))

/-- Eleven characters are enough: the minutes take at most five. -/
theorem length_timeMsText_le (totalMs : UInt32) : (timeMsText totalMs).length ≤ 11 := by
  have hlt := totalMs.toNat_lt
  have hmin : (decimal 2 (totalMs.toNat / 60000)).length ≤ 5 := length_decimal_le (by decide) (by decide) (by omega)
  have hsec : (decimal 2 (totalMs.toNat / 1000 % 60)).length = 2 := length_decimal (by decide) (by omega)
  have hcs : (decimal 2 (totalMs.toNat / 10 % 100)).length = 2 := length_decimal (by decide) (by omega)
  simp only [timeMsText, List.length_append, List.length_cons, hsec, hcs]
  omega

theorem formatTimeMs_eq {bufLen : ℕ} (h : 12 ≤ bufLen) (totalMs : UInt32) :
    formatTimeMs totalMs bufLen = timeMsText totalMs := by
  have ht : formatTimeMs totalMs bufLen = rtSnprintf bufLen (timeMsText totalMs) := by
    simp only [formatTimeMs, timeMsText, fmt0U_eq, UInt32.toNat_div, UInt32.toNat_mod, UInt32.reduceToNat,
      List.append_assoc, List.cons_append]
  rw [ht, rtSnprintf_of_length_lt]
  exact (length_timeMsText_le totalMs).trans_lt (by omega)

end RtStopwatch
