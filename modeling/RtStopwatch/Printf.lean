import Mathlib.Logic.Function.Basic
import RtStopwatch.Lib.Printf

/-!
# The formatter of the kernel

`rt-thread/src/kservice.c`: `rt_vsnprintf` with `print_number`, `skip_atoi` and `divide`, as they are compiled (with `RT_PRINTF_PRECISION`,
without `RT_PRINTF_LONGLONG` and `RT_PRINTF_SPECIAL`), `rt_snprintf` and `rt_kprintf`. The arithmetic on `int`, which may not overflow in C,
is that of ℤ.
-/

namespace RtStopwatch

open Lib.Printf (Arg)

/-- The buffer, its size (`end - buf`) and how far the text has come (`str - buf`), which may be beyond its end. -/
structure OutBuf where
  mem : ℕ → Char
  size : ℕ
  str : ℕ

namespace OutBuf

/-- `if (str < end) *str = c; ++ str;`. -/
def put (o : OutBuf) (c : Char) : OutBuf :=
  { o with mem := if o.str < o.size then Function.update o.mem o.str c else o.mem, str := o.str + 1 }

/-- `n` times. -/
def putN (o : OutBuf) (c : Char) : ℕ → OutBuf
  | 0 => o
  | n + 1 => (o.put c).putN c n

/-- `while (size-- > 0)`, with the value of `size` afterwards. -/
def putWhile (o : OutBuf) (c : Char) (size : ℤ) : OutBuf × ℤ :=
  if 0 < size then (o.putN c size.toNat, -1) else (o, size - 1)

/-- `while (--size > 0)`. -/
def putWhilePre (o : OutBuf) (c : Char) (size : ℤ) : OutBuf × ℤ :=
  if 0 < size - 1 then (o.putN c (size - 1).toNat, 0) else (o, size - 1)

end OutBuf

/-- The flags: `ZEROPAD`, `SIGN`, `PLUS`, `SPACE`, `LEFT`, `SPECIAL` and `LARGE`. -/
structure PrintFlags where
  zeropad : Bool := false
  sign : Bool := false
  plus : Bool := false
  space : Bool := false
  left : Bool := false
  special : Bool := false
  large : Bool := false
  deriving DecidableEq, Repr

/-- `divide`: the remainder and the quotient. Whatever is not 10 is taken for 16. -/
def divide (n : UInt32) (base : ℕ) : UInt32 × UInt32 :=
  if base = 10 then (n % 10, n / 10) else (n % 16, n / 16)

def smallDigits : List Char := "0123456789abcdef".toList

def largeDigits : List Char := "0123456789ABCDEF".toList

theorem divide_lt {n : UInt32} (h : n ≠ 0) (base : ℕ) : (divide n base).2.toNat < n.toNat := by
  have hpos : n.toNat ≠ 0 := fun h0 => h (UInt32.toNat_inj.mp h0)
  unfold divide
  split
  · rw [UInt32.toNat_div]
    exact Nat.div_lt_self (Nat.pos_of_ne_zero hpos) (by decide)
  · rw [UInt32.toNat_div]
    exact Nat.div_lt_self (Nat.pos_of_ne_zero hpos) (by decide)

/-- `while (num != 0) tmp[i++] = digits[divide(&num, base)]`: the digits, the last one first. -/
def tmpDigits (digits : List Char) (base : ℕ) (num : UInt32) : List Char :=
  if _h : num = 0 then []
  else digits.getD (divide num base).1.toNat ' ' :: tmpDigits digits base (divide num base).2
  termination_by num.toNat
  decreasing_by exact divide_lt _h base

/-- `print_number`. -/
def printNumber (o : OutBuf) (num : UInt32) (base : ℕ) (s precision : ℤ) (type : PrintFlags) : OutBuf :=
  let precisionBak := precision
  let digits := if type.large then largeDigits else smallDigits
  let type := if type.left then { type with zeropad := false } else type
  let c := if type.zeropad then '0' else ' '
  -- get sign
  let negative := type.sign && decide (num.toInt32.toInt < 0)
  let sign : Option Char :=
    if type.sign then
      if num.toInt32.toInt < 0 then some '-' else if type.plus then some '+' else if type.space then some ' ' else none
    else none
  let num := if negative then -num else num
  let tmp := if num = 0 then ['0'] else tmpDigits digits base num
  let i : ℤ := tmp.length
  let precision := if i > precision then i else precision
  let size := s - precision
  let (o, size) :=
    if !(type.zeropad || type.left) then o.putWhile ' ' (if sign.isSome && decide (size > 0) then size - 1 else size) else (o, size)
  let (o, size) :=
    match sign with
    | some sign => (o.put sign, size - 1)
    | none => (o, size)
  -- no align to the left
  let (o, size) := if !type.left then o.putWhile c size else (o, size)
  let o := o.putN '0' (precision - i).toNat
  -- put number in the temporary buffer
  let o := if precisionBak ≠ 0 then tmp.reverse.foldl OutBuf.put o else o
  (o.putWhile ' ' size).1

/-- `_ISDIGIT`. -/
def isDigit (c : Char) : Bool := 48 ≤ c.toNat && c.toNat < 58

/-- `skip_atoi`, with `i` from the digits before. -/
def skipAtoi (i : ℕ) : List Char → ℕ × List Char
  | c :: s => if isDigit c then skipAtoi (i * 10 + (c.toNat - 48)) s else (i, c :: s)
  | [] => (i, [])

/-- The loop over the flags. -/
def flagsLoop (flags : PrintFlags) : List Char → PrintFlags × List Char
  | '-' :: fmt => flagsLoop { flags with left := true } fmt
  | '+' :: fmt => flagsLoop { flags with plus := true } fmt
  | ' ' :: fmt => flagsLoop { flags with space := true } fmt
  | '#' :: fmt => flagsLoop { flags with special := true } fmt
  | '0' :: fmt => flagsLoop { flags with zeropad := true } fmt
  | fmt => (flags, fmt)

/-- `va_arg(args, int)`; nothing if there is no such argument. -/
def vaInt : List Arg → Option (UInt32 × List Arg)
  | .word w :: args => some (w, args)
  | _ => none

/-- The field width. -/
def getFieldWidth (flags : PrintFlags) (fmt : List Char) (args : List Arg) : Option (ℤ × PrintFlags × List Char × List Arg) :=
  match fmt with
  | '*' :: fmt => do
    let (w, args) ← vaInt args
    let fieldWidth := w.toInt32.toInt
    if fieldWidth < 0 then pure (-fieldWidth, { flags with left := true }, fmt, args) else pure (fieldWidth, flags, fmt, args)
  | fmt =>
    match fmt.head?.map isDigit with
    | some true =>
      let (n, fmt) := skipAtoi 0 fmt
      some (n, flags, fmt, args)
    | _ => some (-1, flags, fmt, args)

/-- The precision behind its dot. -/
def afterDot (fmt : List Char) (args : List Arg) : Option (ℤ × List Char × List Arg) :=
  match fmt with
  | '*' :: fmt => do
    let (w, args) ← vaInt args
    let precision := w.toInt32.toInt
    pure (if precision < 0 then 0 else precision, fmt, args)
  | fmt =>
    match fmt.head?.map isDigit with
    | some true =>
      let (n, fmt) := skipAtoi 0 fmt
      some (n, fmt, args)
    | _ => some (0, fmt, args)

/-- The precision. -/
def getPrecision (fmt : List Char) (args : List Arg) : Option (ℤ × List Char × List Arg) :=
  match fmt with
  | '.' :: fmt => afterDot fmt args
  | fmt => some (-1, fmt, args)

/-- The conversion qualifier. -/
def getQualifier : List Char → Option Char × List Char
  | 'h' :: fmt => (some 'h', fmt)
  | 'l' :: fmt => (some 'l', fmt)
  | fmt => (none, fmt)

/-- The case `'c'`. -/
def putChar (o : OutBuf) (flags : PrintFlags) (fieldWidth : ℤ) (w : UInt32) : OutBuf :=
  let (o, fieldWidth) := if !flags.left then o.putWhilePre ' ' fieldWidth else (o, fieldWidth)
  let o := o.put (Char.ofNat (w.toNat % 256))
  (o.putWhilePre ' ' fieldWidth).1

/-- The case `'s'`. -/
def putString (o : OutBuf) (flags : PrintFlags) (fieldWidth precision : ℤ) (s : Option (List Char)) : OutBuf :=
  let s := s.getD "(NULL)".toList
  let len : ℤ := if precision > 0 ∧ precision < s.length then precision else s.length
  let (o, fieldWidth) :=
    if !flags.left then
      let (o, size) := o.putWhile ' ' (fieldWidth - len)
      (o, len + size)
    else (o, fieldWidth)
  let o := (s.take len.toNat).foldl OutBuf.put o
  (o.putWhile ' ' (fieldWidth - len)).1

/-- The number of an integer conversion, by its qualifier. -/
def getNumber (flags : PrintFlags) (qualifier : Option Char) (w : UInt32) : UInt32 :=
  if qualifier = some 'h' then
    if flags.sign then w.toUInt16.toInt16.toInt32.toUInt32 else w.toUInt16.toUInt32
  else w

/-- The integer conversions. -/
def putInteger (o : OutBuf) (flags : PrintFlags) (fieldWidth precision : ℤ) (qualifier : Option Char) (base : ℕ) (fmt : List Char)
    (args : List Arg) : Option (OutBuf × List Char × List Arg) := do
  let (w, args) ← vaInt args
  pure (printNumber o (getNumber flags qualifier w) base fieldWidth precision flags, fmt, args)

/-- The `switch` over the conversion. -/
def putConversion (o : OutBuf) (flags : PrintFlags) (fieldWidth precision : ℤ) (qualifier : Option Char) (args : List Arg) :
    List Char → Option (OutBuf × List Char × List Arg)
  | 'c' :: fmt => do
    let (w, args) ← vaInt args
    pure (putChar o flags fieldWidth w, fmt, args)
  | 's' :: fmt =>
    match args with
    | .str s :: args => some (putString o flags fieldWidth precision s, fmt, args)
    | _ => none
  | 'p' :: fmt => do
    let (w, args) ← vaInt args
    if fieldWidth = -1 then pure (printNumber o w 16 8 precision { flags with zeropad := true }, fmt, args)
    else pure (printNumber o w 16 fieldWidth precision flags, fmt, args)
  | '%' :: fmt => some (o.put '%', fmt, args)
  | 'o' :: fmt => putInteger o flags fieldWidth precision qualifier 8 fmt args
  | 'X' :: fmt => putInteger o { flags with large := true } fieldWidth precision qualifier 16 fmt args
  | 'x' :: fmt => putInteger o flags fieldWidth precision qualifier 16 fmt args
  | 'd' :: fmt => putInteger o { flags with sign := true } fieldWidth precision qualifier 10 fmt args
  | 'i' :: fmt => putInteger o { flags with sign := true } fieldWidth precision qualifier 10 fmt args
  | 'u' :: fmt => putInteger o flags fieldWidth precision qualifier 10 fmt args
  | x :: fmt => some ((o.put '%').put x, fmt, args)
  | [] => some (o.put '%', [], args)

/-- A directive, behind its `%`. -/
def putDirective (o : OutBuf) (fmt : List Char) (args : List Arg) : Option (OutBuf × List Char × List Arg) := do
  let (flags, fmt) := flagsLoop {} fmt
  let (fieldWidth, flags, fmt, args) ← getFieldWidth flags fmt args
  let (precision, fmt, args) ← getPrecision fmt args
  let (qualifier, fmt) := getQualifier fmt
  putConversion o flags fieldWidth precision qualifier args fmt

/-- The loop of `rt_vsnprintf`, for as many rounds as there is fuel. -/
def vsnprintfLoop : ℕ → OutBuf → List Char → List Arg → Option OutBuf
  | 0, _, _, _ => none
  | _ + 1, o, [], _ => some o
  | fuel + 1, o, x :: fmt, args =>
    if x ≠ '%' then vsnprintfLoop fuel (o.put x) fmt args
    else do
      let (o, fmt, args) ← putDirective o fmt args
      vsnprintfLoop fuel o fmt args

/-- The terminator. -/
def OutBuf.terminate (o : OutBuf) : OutBuf :=
  if o.size > 0 then
    if o.str < o.size then { o with mem := Function.update o.mem o.str (Char.ofNat 0) }
    else { o with mem := Function.update o.mem (o.size - 1) (Char.ofNat 0) }
  else o

/-- `rt_vsnprintf`: the buffer afterwards and the value returned; nothing if the arguments do not fit the format. -/
def rtVsnprintf (buf : ℕ → Char) (size : ℕ) (fmt : List Char) (args : List Arg) : Option ((ℕ → Char) × ℕ) := do
  let o ← vsnprintfLoop (fmt.length + 1) ⟨buf, size, 0⟩ fmt args
  pure (o.terminate.mem, o.str)

/-- The string that a buffer holds, up to its terminator. -/
def cString (buf : ℕ → Char) (size : ℕ) : List Char := ((List.range size).map buf).takeWhile fun x => x ≠ Char.ofNat 0

/-- `RT_CONSOLEBUF_SIZE`. -/
def rtConsolebufSize : ℕ := 256

/-- `rt_kprintf`: what is written to the console device, and `rt_log_buf` afterwards. -/
def rtKprintf (rtLogBuf : ℕ → Char) (fmt : List Char) (args : List Arg) : Option (List Char × (ℕ → Char)) := do
  let (rtLogBuf, length) ← rtVsnprintf rtLogBuf (rtConsolebufSize - 1) fmt args
  let length := if length > rtConsolebufSize - 1 then rtConsolebufSize - 1 else length
  pure ((List.range length).map rtLogBuf, rtLogBuf)

end RtStopwatch
