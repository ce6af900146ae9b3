import Mathlib.Data.UInt
import Mathlib.Data.Nat.Digits.Defs

/-!
# Format strings

What the format strings of C stand for, with arguments that are words of 32 bits or strings. A format is a list of pieces, characters and
directives; `Piece.source` writes it down, `textOf` gives its text. The conversions are `d`, `i`, `u`, `o`, `x`, `X`, `s` and `c`, the
flags `-`, `+`, space and `0`.
-/

namespace Lib.Printf

/-- An argument: a word, or a string, which may be null. -/
inductive Arg where
  | word (w : UInt32)
  | str (s : Option (List Char))
  deriving DecidableEq, Repr

inductive Flag where
  | minus
  | plus
  | space
  | zero
  deriving DecidableEq, Repr

/-- The least width of a field; `star` takes it from the arguments. -/
inductive Width where
  | free
  | fixed (n : ℕ) (pos : 0 < n)
  | star
  deriving DecidableEq, Repr

/-- The digits of a number at least, or the characters of a string at most. -/
inductive Precision where
  | free
  | fixed (n : ℕ)
  | star
  deriving DecidableEq, Repr

inductive Qualifier where
  | word
  | h
  | l
  deriving DecidableEq, Repr

inductive Conv where
  | d
  | i
  | u
  | o
  | x
  | X
  | s
  | c
  deriving DecidableEq, Repr

structure Directive where
  flags : List Flag
  width : Width
  precision : Precision
  qualifier : Qualifier
  conv : Conv
  deriving DecidableEq, Repr

inductive Piece where
  | char (x : Char)
  | directive (d : Directive)
  deriving DecidableEq, Repr

/-! ## How they are written -/

def Flag.char : Flag → Char
  | .minus => '-'
  | .plus => '+'
  | .space => ' '
  | .zero => '0'

def Width.source : Width → List Char
  | .free => []
  | .fixed n _ => Nat.toDigits 10 n
  | .star => ['*']

def Precision.source : Precision → List Char
  | .free => []
  | .fixed n => '.' :: Nat.toDigits 10 n
  | .star => ['.', '*']

def Qualifier.source : Qualifier → List Char
  | .word => []
  | .h => ['h']
  | .l => ['l']

def Conv.char : Conv → Char
  | .d => 'd'
  | .i => 'i'
  | .u => 'u'
  | .o => 'o'
  | .x => 'x'
  | .X => 'X'
  | .s => 's'
  | .c => 'c'

def Directive.source (d : Directive) : List Char :=
  '%' :: (d.flags.map Flag.char ++ (d.width.source ++ (d.precision.source ++ (d.qualifier.source ++ [d.conv.char]))))

def Piece.source : Piece → List Char
  | .char x => if x = '%' then ['%', '%'] else [x]
  | .directive d => d.source

/-! ## What they stand for -/

/-- A field, its width and precision known. -/
structure Field where
  left : Bool
  plus : Bool
  space : Bool
  zero : Bool
  width : ℕ
  precision : Option ℕ

/-- A text in its field. -/
def Field.pad (f : Field) (text : List Char) : List Char :=
  if f.left then text.rightpad f.width ' ' else text.leftpad f.width ' '

/-- The sign of a signed number. -/
def Field.sign (f : Field) (negative : Bool) : List Char :=
  if negative then ['-'] else if f.plus then ['+'] else if f.space then [' '] else []

/-- The digits of a number: no fewer than the precision, and none for 0 if that is 0. -/
def Field.digits (f : Field) (base : ℕ) (upper : Bool) (n : ℕ) : List Char :=
  let digits := if n = 0 ∧ f.precision = some 0 then [] else Nat.toDigits base n
  (if upper then digits.map Char.toUpper else digits).leftpad (f.precision.getD 1) '0'

/-- A number in its field. Zeros fill it only if they are asked for and there is neither a precision nor a space for blanks on the
right. -/
def Field.number (f : Field) (sign digits : List Char) : List Char :=
  if f.zero && !f.left && f.precision.isNone then sign ++ digits.leftpad (f.width - sign.length) '0' else f.pad (sign ++ digits)

/-- The value of a word, signed or not. -/
def Qualifier.signed : Qualifier → UInt32 → ℤ
  | .word, w | .l, w => w.toInt32.toInt
  | .h, w => w.toUInt16.toInt16.toInt

def Qualifier.unsigned : Qualifier → UInt32 → ℕ
  | .word, w | .l, w => w.toNat
  | .h, w => w.toUInt16.toNat

/-- The width, negative if the field is filled on the right, and the arguments left. -/
def Width.value : Width → List Arg → Option (ℤ × List Arg)
  | .free, args => some (0, args)
  | .fixed n _, args => some (n, args)
  | .star, .word w :: args => some (w.toInt32.toInt, args)
  | .star, _ => none

/-- The precision, if there is one, and the arguments left. A negative one counts as none. -/
def Precision.value : Precision → List Arg → Option (Option ℕ × List Arg)
  | .free, args => some (none, args)
  | .fixed n, args => some (some n, args)
  | .star, .word w :: args => some (if w.toInt32.toInt < 0 then none else some w.toInt32.toInt.toNat, args)
  | .star, _ => none

/-- The field of a directive, and the arguments left. -/
def Directive.field (d : Directive) (args : List Arg) : Option (Field × List Arg) := do
  let (width, args) ← d.width.value args
  let (precision, args) ← d.precision.value args
  pure ({ left := decide (.minus ∈ d.flags) || decide (width < 0), plus := decide (.plus ∈ d.flags)
          space := decide (.space ∈ d.flags), zero := decide (.zero ∈ d.flags), width := width.natAbs, precision := precision }, args)

/-- The text of an argument in its field, if it fits the conversion. -/
def Directive.convert (d : Directive) (f : Field) : Arg → Option (List Char)
  | .word w =>
    let v := d.qualifier.signed w
    let n := d.qualifier.unsigned w
    match d.conv with
    | .d | .i => some (f.number (f.sign (decide (v < 0))) (f.digits 10 false v.natAbs))
    | .u => some (f.number [] (f.digits 10 false n))
    | .o => some (f.number [] (f.digits 8 false n))
    | .x => some (f.number [] (f.digits 16 false n))
    | .X => some (f.number [] (f.digits 16 true n))
    | .c => some (f.pad [Char.ofNat (w.toNat % 256)])
    | .s => none
  | .str (some s) =>
    match d.conv with
    | .s =>
      some (f.pad (match f.precision with
        | some p => s.take p
        | none => s))
    | _ => none
  | .str none => none

/-- The text of a directive, and the arguments left. -/
def Directive.text (d : Directive) (args : List Arg) : Option (List Char × List Arg) := do
  match ← d.field args with
  | (f, arg :: args) => do
    let text ← d.convert f arg
    pure (text, args)
  | (_, []) => none

/-- The text of a format, if its arguments fit. There may be more of them. -/
def textOf : List Piece → List Arg → Option (List Char)
  | [], _ => some []
  | .char x :: ps, args => do
    let rest ← textOf ps args
    pure (x :: rest)
  | .directive d :: ps, args => do
    let (text, args) ← d.text args
    let rest ← textOf ps args
    pure (text ++ rest)

/-- `"%-5d|%05d|%+.3d|%3s|%.2s|%hX|%%"`. -/
example :
    textOf [.directive ⟨[.minus], .fixed 5 (by decide), .free, .word, .d⟩, .char '|', .directive ⟨[.zero], .star, .free, .word, .d⟩,
        .char '|', .directive ⟨[.plus], .free, .fixed 3, .word, .d⟩, .char '|', .directive ⟨[], .fixed 3 (by decide), .free, .word, .s⟩,
        .char '|', .directive ⟨[], .free, .fixed 2, .word, .s⟩, .char '|', .directive ⟨[], .free, .free, .h, .X⟩, .char '%']
      [.word 42, .word 5, .word (-42), .word 7, .str (some ['a']), .str (some ['a', 'b', 'c']), .word 0xABCDE] =
      some "42   |-0042|+007|  a|ab|BCDE%".toList := by decide

end Lib.Printf
