import Mathlib.Data.UInt
import Mathlib.Data.Nat.Digits.Defs

/-!
# Text

The texts the firmware shows and prints, as lists of characters: the conversions of `rt_snprintf` and `rt_kprintf` that it uses, and
the time formats of `ui_oled.c` and `stopwatch_cli.c`.
-/

namespace RtStopwatch

/-- `%u`. -/
def fmtU (n : ℕ) : List Char := Nat.toDigits 10 n

/-- `%0wu`: at least `w` digits. -/
def fmt0U (w n : ℕ) : List Char := (fmtU n).leftpad w '0'

/-- `%d`. -/
def fmtD (n : ℤ) : List Char := if n < 0 then '-' :: fmtU n.natAbs else fmtU n.natAbs

/-- What `rt_snprintf` leaves in a buffer of `size` bytes: one is for the terminator. -/
def rtSnprintf (size : ℕ) (text : List Char) : List Char := text.take (size - 1)

/-- `format_time_ms` of `ui_oled.c`: minutes, seconds and centiseconds; the minutes are not reduced. -/
def formatTimeMs (totalMs : UInt32) (bufLen : ℕ) : List Char :=
  let cs := totalMs / 10 % 100
  let sec := totalMs / 1000 % 60
  let min := totalMs / 60000
  rtSnprintf bufLen (fmt0U 2 min.toNat ++ ':' :: fmt0U 2 sec.toNat ++ '.' :: fmt0U 2 cs.toNat)

/-- `format_time` of `stopwatch_cli.c`: the hours only when there are any, then minutes, seconds and milliseconds. -/
def formatTime (totalMs : UInt32) (bufLen : ℕ) : List Char :=
  let ms := totalMs % 1000
  let sec := totalMs / 1000 % 60
  let min := totalMs / 60000 % 60
  let hr := totalMs / 3600000
  let rest := fmt0U 2 min.toNat ++ ':' :: fmt0U 2 sec.toNat ++ '.' :: fmt0U 3 ms.toNat
  rtSnprintf bufLen (if hr > 0 then fmt0U 2 hr.toNat ++ ':' :: rest else rest)

end RtStopwatch
