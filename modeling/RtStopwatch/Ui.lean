import RtStopwatch.Text
import RtStopwatch.World

/-!
# The OLED pages

`applications/ui_oled.c`: the two pages, the loop of the UI thread, and the setters the shell and the light sensor call. The loops of
`draw_laps_page` are recursions on the number of rounds left.
-/

namespace RtStopwatch

open Lib Code

/-! ## The main page -/

/-- The static part of the main page, drawn when the page is entered. -/
def drawMainStatic : Code Unit := do
  oled .clear
  oled (.showString 0 0 "Stopwatch".toList .f6x8)
  oled (.showString 0 36 "Lap:".toList .f6x8)
  oled .update
  store .sPageDrawn (1 : UInt8)

/-- The value of the latest lap on the main page. -/
def drawMainLap : Code Unit := do
  let last : UInt32 ← call .getLatestLapMs
  oled (.showString 30 36 (formatTimeMs last 24) .f6x8)

/-- `draw_main_page`. -/
def drawMainPage : Code Unit := do
  let total : UInt32 ← call .getTotalMs
  let buf := formatTimeMs total 24
  let drawn : UInt8 ← load .sPageDrawn
  when (drawn = 0) drawMainStatic
  oled (.clearArea 0 16 128 16)
  oled (.showString 0 16 buf .f8x16)
  oled (.updateArea 0 16 128 16)
  let cnt : UInt16 ← call .getLapCount
  oled (.clearArea 30 36 98 8)
  when (0 < cnt) drawMainLap
  oled (.updateArea 30 36 98 8)

/-! ## The laps page -/

/-- The first line of the laps page's body: the offset falls back to 0 when it is past the laps. -/
def clampLapsOffset (cnt : UInt16) : Code Unit := do
  let off : UInt16 ← load .sLapsOffset
  when (off ≥ cnt) (store .sLapsOffset (0 : UInt16))

/-- A row of the laps page: the number of the lap and its time. -/
def lapLine (idx : UInt16) (ms : UInt32) : List Char :=
  rtSnprintf 24 ('#' :: fmtU (idx.toNat + 1) ++ ' ' :: formatTimeMs ms 16)

/-- The loop over the rows, from row `i` on. It leaves at the first index past the count. -/
def drawLapRows (cnt : UInt16) : ℕ → UInt16 → Code Unit
  | 0, _ => pure ()
  | n + 1, i => do
    let off : UInt16 ← load .sLapsOffset
    let idx := off + i
    if idx ≥ cnt then pure ()
    else do
      let ms : UInt32 ← call (.getLapMs idx)
      oled (.showString 0 (Int16.ofNat (8 * (i.toNat + 1))) (lapLine idx ms) .f6x8)
      drawLapRows cnt n (i + 1)

/-- The running minimum, maximum and sum of `draw_laps_page` and `cmd_sw_status`. -/
structure LapStats where
  minMs : UInt32
  maxMs : UInt32
  sumMs : UInt32
  deriving DecidableEq, Repr

/-- Their initial values. -/
def LapStats.init : LapStats := { minMs := 0xFFFFFFFF, maxMs := 0, sumMs := 0 }

/-- One lap more. -/
def LapStats.add (st : LapStats) (v : UInt32) : LapStats :=
  { minMs := if v < st.minMs then v else st.minMs
    maxMs := if v > st.maxMs then v else st.maxMs
    sumMs := st.sumMs + v }

/-- The loop over the laps, from lap `i` on. -/
def readLapStats : ℕ → UInt16 → LapStats → Code LapStats
  | 0, _, st => pure st
  | n + 1, i, st => do
    let v : UInt32 ← call (.getLapMs i)
    readLapStats n (i + 1) (st.add v)

/-- The line of statistics. -/
def statLine (st : LapStats) (cnt : UInt16) : List Char :=
  rtSnprintf 24 ('m' :: fmtU st.minMs.toNat ++ ' ' :: 'M' :: fmtU st.maxMs.toNat ++ ' ' :: 'a' ::
    fmtU (st.sumMs / cnt.toUInt32).toNat)

/-- The statistics at the bottom of the laps page. -/
def drawLapStats (cnt : UInt16) : Code Unit := do
  let st ← readLapStats cnt.toNat 0 LapStats.init
  oled (.showString 0 56 (statLine st cnt) .f6x8)

/-- `draw_laps_page` from the read of the count on. -/
def drawLapsBody (cnt : UInt16) : Code Unit := do
  clampLapsOffset cnt
  drawLapRows cnt 6 0
  when (0 < cnt) (drawLapStats cnt)
  oled .update

/-- `draw_laps_page`. -/
def drawLapsPage : Code Unit := do
  oled .clear
  oled (.showString 0 0 "Laps".toList .f6x8)
  let cnt : UInt16 ← call .getLapCount
  drawLapsBody cnt

/-! ## The thread and the setters -/

/-- The page that is shown. -/
def drawPage : Code Unit := do
  let page : UInt8 ← load .sPage
  if page = 0 then drawMainPage else drawLapsPage

/-- One round of the loop of `ui_entry`. -/
def uiEntry : Code Unit := do
  let enabled : Bool ← load .sOledEnabled
  when enabled drawPage
  let ms : UInt16 ← load .sRefreshMs
  mdelay ms

/-- `ui_oled_set_refresh_ms`. -/
def uiOledSetRefreshMs (ms : UInt16) : Code Unit :=
  store .sRefreshMs (if ms < 10 then 10 else ms : UInt16)

/-- `ui_oled_set_page`. -/
def uiOledSetPage (page : UInt8) : Code Unit := do
  store .sPage (if page ≠ 0 then 1 else 0 : UInt8)
  store .sPageDrawn (0 : UInt8)

/-- `ui_oled_laps_prev`. -/
def uiOledLapsPrev : Code Unit := do
  let off : UInt16 ← load .sLapsOffset
  store .sLapsOffset (if off ≥ 6 then off - 6 else 0 : UInt16)

/-- `ui_oled_laps_next`. The sum is compared as an `int`: it does not wrap. -/
def uiOledLapsNext : Code Unit := do
  let cnt : UInt16 ← call .getLapCount
  let off : UInt16 ← load .sLapsOffset
  when (off.toNat + 6 < cnt.toNat) (store .sLapsOffset (off + 6 : UInt16))

end RtStopwatch
