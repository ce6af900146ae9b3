import Mathlib.Data.Int.Notation
import RtStopwatch.Lib.I2c

/-!
# The OLED's bus

`qu_dong/OLED/OLED.c`, the part that sends: the bit-banged I2C transfers, and the functions that send the frame buffer or an area of
it. At the other end is the panel, in page addressing mode.
-/

namespace RtStopwatch

open Lib

/-! ## The transfers -/

/-- `OLED_I2C_Start`. -/
def oledI2cStart : List Write := [.sda true, .scl true, .sda false, .scl false]

/-- `OLED_I2C_Stop`. -/
def oledI2cStop : List Write := [.sda false, .scl true, .sda true]

/-- The level `!!(Byte & (0x80 >> i))` of the loop of `OLED_I2C_SendByte`. -/
def sentBit (b : UInt8) (i : ℕ) : Bool := decide (b &&& UInt8.ofNat (0x80 >>> i) ≠ 0)

/-- `OLED_I2C_SendByte`: eight bits, and a clock in which nobody reads the acknowledgement. -/
def oledI2cSendByte (b : UInt8) : List Write :=
  ((List.range 8).flatMap fun i => [.sda (sentBit b i), .scl true, .scl false]) ++ [.sda true, .scl true, .scl false]

/-- `OLED_WriteCommand`; `addr` is `s_oled_addr`. -/
def oledWriteCommand (addr command : UInt8) : List Write :=
  oledI2cStart ++ oledI2cSendByte addr ++ oledI2cSendByte 0x00 ++ oledI2cSendByte command ++ oledI2cStop

/-- `OLED_WriteData`. -/
def oledWriteData (addr : UInt8) (data : ℕ → UInt8) (count : UInt8) : List Write :=
  oledI2cStart ++ oledI2cSendByte addr ++ oledI2cSendByte 0x40 ++
    (List.range count.toNat).flatMap (fun i => oledI2cSendByte (data i)) ++ oledI2cStop

/-! ## The frame buffer, sent -/

/-- `OLED_DisplayBuf`. -/
abbrev DisplayBuf : Type := Fin 8 → Fin 128 → UInt8

/-- `OLED_DisplayBuf[j][i]`. -/
def DisplayBuf.byte (buf : DisplayBuf) (j i : ℕ) : UInt8 := buf (Fin.ofNat 8 j) (Fin.ofNat 128 i)

/-- A pixel: bit `y % 8` of the byte in column `x` of row `y / 8`. -/
def DisplayBuf.pixel (buf : DisplayBuf) (x : Fin 128) (y : Fin 64) : Bool := (buf (Fin.ofNat 8 (y / 8)) x).toNat.testBit (y % 8)

/-- The points of the rectangle of the given size at `(x, y)`, on the screen or not. -/
def InArea (x y : Int16) (width height : UInt8) (i j : ℤ) : Prop :=
  (x.toInt ≤ i ∧ i < x.toInt + width.toNat) ∧ y.toInt ≤ j ∧ j < y.toInt + height.toNat

instance (x y : Int16) (width height : UInt8) (i j : ℤ) : Decidable (InArea x y width height i j) :=
  inferInstanceAs (Decidable ((_ ∧ _) ∧ _ ∧ _))

/-- The memory from `OLED_DisplayBuf` on: its rows one after the other, and then what happens to follow. -/
def DisplayBuf.memory (buf : DisplayBuf) (beyond : ℕ → UInt8) (k : ℕ) : UInt8 :=
  if k < 1024 then buf (Fin.ofNat 8 (k / 128)) (Fin.ofNat 128 k) else beyond (k - 1024)

/-- A call of `OLED_WriteCommand`, or of `OLED_WriteData` with the pointer `&OLED_DisplayBuf[page][col]`. -/
inductive BusCall where
  | writeCommand (command : UInt8)
  | writeData (page col : ℕ) (count : UInt8)
  deriving DecidableEq, Repr

/-- What the call writes to the lines. -/
def BusCall.wave (addr : UInt8) (memory : ℕ → UInt8) : BusCall → List Write
  | .writeCommand command => oledWriteCommand addr command
  | .writeData page col count => oledWriteData addr (fun i => memory (128 * page + col + i)) count

/-- `OLED_SetCursor`. -/
def oledSetCursor (page x : UInt8) : List BusCall :=
  [.writeCommand (0xB0 ||| page), .writeCommand (0x10 ||| ((x &&& 0xF0) >>> (4 : UInt8))), .writeCommand (0x00 ||| (x &&& 0x0F))]

/-- `OLED_Update`. -/
def oledUpdate : List BusCall :=
  (List.range 8).flatMap fun j => oledSetCursor (UInt8.ofNat j) 0 ++ [.writeData j 0 128]

/-- `Page` in `OLED_UpdateArea` and `OLED_ShowImage`: `Y / 8`, which truncates, and one less for a negative `Y`. -/
def pageOf (y : Int16) : ℤ := if y < 0 then y.toInt.tdiv 8 - 1 else y.toInt.tdiv 8

/-- `OLED_UpdateArea`. `Page` and `Page1` fit 16 bits, and so does the counter between them. `X` is tested as a whole, and the width
is passed on as it is. -/
def oledUpdateArea (x y : Int16) (width height : UInt8) : List BusCall :=
  let page := pageOf y
  let page1 := (y.toInt + height.toNat - 1).tdiv 8 + 1
  let page1 := if y < 0 then page1 - 1 else page1
  (List.range (page1 - page).toNat).flatMap fun k : ℕ =>
    let j := page + k
    if 0 ≤ x.toInt ∧ x.toInt ≤ 127 ∧ 0 ≤ j ∧ j ≤ 7 then
      oledSetCursor (UInt8.ofNat j.toNat) (UInt8.ofNat x.toInt.toNat) ++ [.writeData j.toNat x.toInt.toNat width]
    else []

/-! ## The panel -/

/-- A panel of 8 pages of 128 columns in page addressing mode: the page and column that the next byte goes to, and the bytes. -/
structure Panel where
  page : Fin 8
  col : Fin 128
  ram : DisplayBuf

/-- A command: the page, the high or the low half of the column. -/
def Panel.command (p : Panel) (b : UInt8) : Panel :=
  if 0xB0 ≤ b ∧ b ≤ 0xB7 then { p with page := Fin.ofNat 8 (b.toNat - 0xB0) }
  else if b < 0x10 then { p with col := Fin.ofNat 128 (p.col / 16 * 16 + b.toNat) }
  else if b < 0x20 then { p with col := Fin.ofNat 128 ((b.toNat - 0x10) * 16 + p.col % 16) }
  else p

/-- A byte of data. The column goes up by one and stays in the page. -/
def Panel.data (p : Panel) (b : UInt8) : Panel :=
  { p with ram := Function.update p.ram p.page (Function.update (p.ram p.page) p.col b), col := p.col + 1 }

/-- A transfer: the address, a control byte, and what follows it. -/
def Panel.receive (addr : UInt8) (p : Panel) : List UInt8 → Panel
  | a :: control :: bs =>
    if a = addr ∧ control = 0x00 then bs.foldl Panel.command p
    else if a = addr ∧ control = 0x40 then bs.foldl Panel.data p
    else p
  | _ => p

/-- The panel after some writes to the lines of an idle bus. -/
def Panel.feed (addr : UInt8) (p : Panel) (ws : List Write) : Panel :=
  (frames [] (decode Decoder.idle ws).1).foldl (Panel.receive addr) p

/-- The panel after some calls of the driver. -/
def Panel.after (addr : UInt8) (memory : ℕ → UInt8) (p : Panel) (calls : List BusCall) : Panel :=
  p.feed addr (calls.flatMap (BusCall.wave addr memory))

end RtStopwatch
