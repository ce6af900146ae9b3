import RtStopwatch.Lib.Loop
import RtStopwatch.OledBus
import RtStopwatch.OledData
import RtStopwatch.World

/-!
# The OLED driver

`qu_dong/OLED/OLED.c`, the part that draws in the frame buffer. The loops of `OLED_ClearArea` have 16-bit counters that are compared
with bounds computed as `int`: they need not end, and what goes through them takes a `fuel`, the number of tests each loop may make.
-/

namespace RtStopwatch

open Lib

/-- An assignment to `OLED_DisplayBuf[j][i]`. -/
def DisplayBuf.modify (buf : DisplayBuf) (j i : ℤ) (f : UInt8 → UInt8) : DisplayBuf :=
  fun q x => if (q : ℤ) = j ∧ (x : ℤ) = i then f (buf q x) else buf q x

/-- `OLED_Clear`. -/
def oledClear (buf : DisplayBuf) : DisplayBuf :=
  (List.range 8).foldl
    (fun buf (j : ℕ) => (List.range 128).foldl (fun buf (i : ℕ) => buf.modify j i fun _ => 0x00) buf) buf

/-- The body of the loops of `OLED_ClearArea`. -/
def clearPoint (i j : Int16) (buf : DisplayBuf) : DisplayBuf :=
  if 0 ≤ i.toInt ∧ i.toInt ≤ 127 ∧ 0 ≤ j.toInt ∧ j.toInt ≤ 63 then
    buf.modify (j.toInt.tdiv 8) i.toInt fun b => b &&& ~~~UInt8.ofNat (0x01 <<< (j.toInt.tmod 8).toNat)
  else buf

/-- `OLED_ClearArea`. -/
def oledClearArea (fuel : ℕ) (x y : Int16) (width height : UInt8) (buf : DisplayBuf) : Option DisplayBuf :=
  forLoop (fun j : Int16 => decide (j.toInt < y.toInt + height.toNat)) (· + 1)
    (fun j buf =>
      forLoop (fun i : Int16 => decide (i.toInt < x.toInt + width.toNat)) (· + 1)
        (fun i buf => some (clearPoint i j buf)) fuel x buf)
    fuel y buf

/-- `Shift` in `OLED_ShowImage`: from 0 to 8, as for a negative `Y` it is 8 more than the remainder. -/
def shiftOf (y : Int16) : ℕ := (if y < 0 then y.toInt.tmod 8 + 8 else y.toInt.tmod 8).toNat

/-- The body of the loops of `OLED_ShowImage`: a byte `b` of the image goes to two pages. -/
def showByte (x y : Int16) (i j : ℕ) (b : UInt8) (buf : DisplayBuf) : DisplayBuf :=
  if 0 ≤ x.toInt + i ∧ x.toInt + i ≤ 127 then
    let buf :=
      if 0 ≤ pageOf y + j ∧ pageOf y + j ≤ 7 then
        buf.modify (pageOf y + j) (x.toInt + i) fun a => a ||| UInt8.ofNat (b.toNat <<< shiftOf y)
      else buf
    if 0 ≤ pageOf y + j + 1 ∧ pageOf y + j + 1 ≤ 7 then
      buf.modify (pageOf y + j + 1) (x.toInt + i) fun a => a ||| UInt8.ofNat (b.toNat >>> (8 - shiftOf y))
    else buf
  else buf

/-- `OLED_ShowImage`. -/
def oledShowImage (fuel : ℕ) (x y : Int16) (width height : UInt8) (image : ℕ → UInt8) (buf : DisplayBuf) : Option DisplayBuf := do
  let buf ← oledClearArea fuel x y width height buf
  return (List.range (((height.toNat : ℤ) - 1).tdiv 8 + 1).toNat).foldl
    (fun buf j => (List.range width.toNat).foldl (fun buf i => showByte x y i j (image (j * width.toNat + i)) buf) buf) buf

/-- `OLED_F6x8[(uint8_t)Char - ' ']`; there is nothing outside of the table. -/
def glyph (ch : Char) : Option (ℕ → UInt8) :=
  if ch.toNat < 32 then none else (oledF6x8[ch.toNat - 32]?).map fun row i => row.getD i 0

/-- `OLED_ShowChar`. The large font is not compiled in: both show the small characters. -/
def oledShowChar (fuel : ℕ) (x y : Int16) (ch : Char) : Font → DisplayBuf → Option DisplayBuf
  | .f8x16, buf => (glyph ch).bind fun image => oledShowImage fuel x y 6 8 image buf
  | .f6x8, buf => (glyph ch).bind fun image => oledShowImage fuel x y 6 8 image buf

/-- The value of `OLED_8X16` and `OLED_6X8`, by which the characters are set apart. -/
def Font.size : Font → UInt16
  | .f8x16 => 8
  | .f6x8 => 6

/-- The loop of `OLED_ShowString`, from a character on. The charset macros are off: one byte is one character. -/
def showStringFrom (fuel : ℕ) (x y : Int16) (font : Font) : List Char → UInt16 → DisplayBuf → Option DisplayBuf
  | [], _, buf => some buf
  | ch :: text, xOffset, buf => do
    let buf ← oledShowChar fuel (Int16.ofInt (x.toInt + xOffset.toNat)) y ch font buf
    showStringFrom fuel x y font text (xOffset + font.size) buf

/-- `OLED_ShowString`. -/
def oledShowString (fuel : ℕ) (x y : Int16) (text : List Char) (font : Font) (buf : DisplayBuf) : Option DisplayBuf :=
  showStringFrom fuel x y font text 0 buf

/-- `OLED_GetPoint`. -/
def oledGetPoint (buf : DisplayBuf) (x y : Int16) : UInt8 :=
  if 0 ≤ x.toInt ∧ x.toInt ≤ 127 ∧ 0 ≤ y.toInt ∧ y.toInt ≤ 63 then
    if buf.byte (y.toInt.tdiv 8).toNat x.toInt.toNat &&& UInt8.ofNat (0x01 <<< (y.toInt.tmod 8).toNat) ≠ 0 then 1 else 0
  else 0

/-! ## The calls of the application -/

/-- The frame buffer and the panel. -/
structure Oled where
  buf : DisplayBuf
  panel : Panel

/-- `s_oled_addr`, as `ui_oled_init` sets it. -/
def sOledAddr : UInt8 := 0x78

/-- What a call does; `beyond` is what follows the frame buffer in memory. -/
def OledCall.perform (fuel : ℕ) (beyond : ℕ → UInt8) (s : Oled) : OledCall → Option Oled
  | .clear => some { s with buf := oledClear s.buf }
  | .update => some { s with panel := s.panel.after sOledAddr (s.buf.memory beyond) oledUpdate }
  | .clearArea x y width height => (oledClearArea fuel x y width height s.buf).map fun buf => { s with buf := buf }
  | .updateArea x y width height =>
    some { s with panel := s.panel.after sOledAddr (s.buf.memory beyond) (oledUpdateArea x y width height) }
  | .showString x y text font => (oledShowString fuel x y text font s.buf).map fun buf => { s with buf := buf }

end RtStopwatch
