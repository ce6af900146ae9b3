import Mathlib.Data.List.DropRight
import RtStopwatch.Lib.Lines
import RtStopwatch.Lib.Regex
import RtStopwatch.Text

/-!
# The host's test tool

`testtools/stopwatch_autotest.py`: `parse_status_output` of `StopwatchTester`, which reads the report of `sw_status` back from the
lines of the console, and the loop of `test_csv_stability` that collects the times of the CSV stream.
-/

namespace RtStopwatch

open Lib

/-- What Python knows of characters: the white space of `\s` and of `str.strip`, and the values of the decimal digits, for `\d` and
`int`. Both are about all of Unicode; what they are on ASCII is fixed. -/
structure PyChars where
  isSpace : Char → Bool
  digit : Char → Option ℕ
  isSpace_ascii : ∀ x : Char, x.toNat < 128 →
    isSpace x = decide (9 ≤ x.toNat ∧ x.toNat ≤ 13 ∨ 28 ≤ x.toNat ∧ x.toNat ≤ 32)
  digit_ascii : ∀ x : Char, x.toNat < 128 → digit x = if x.isDigit then some (x.toNat - '0'.toNat) else none

namespace PyChars

variable (py : PyChars)

/-- The class `\d`. -/
def isDigit (x : Char) : Bool := (py.digit x).isSome

/-- `str.strip`. -/
def strip (text : List Char) : List Char := (text.dropWhile py.isSpace).rdropWhile py.isSpace

/-- `int` of a run of digits. -/
def int (text : List Char) : ℕ := text.foldl (fun n x => 10 * n + (py.digit x).getD 0) 0

/-- `re.search(r'key\s+(\d+)\s+ms', line)`, and `int` of the group. -/
def searchMs (key line : List Char) : Option ℕ :=
  (Piece.search [.lit key, .run py.isSpace false, .run py.isDigit true, .run py.isSpace false, .lit "ms".toList] line).map
    fun groups => py.int (groups.headD [])

/-- `re.search(r'key\s+(\d+)', line)`, and `int` of the group. -/
def searchCount (key line : List Char) : Option ℕ :=
  (Piece.search [.lit key, .run py.isSpace false, .run py.isDigit true] line).map fun groups => py.int (groups.headD [])

end PyChars

/-- The dictionary that `parse_status_output` returns; a key that is absent is `none`. -/
structure StatusResult where
  state : Option (List Char) := none
  totalMs : Option ℕ := none
  lapCount : Option ℕ := none
  minMs : Option ℕ := none
  maxMs : Option ℕ := none
  avgMs : Option ℕ := none
  deriving DecidableEq, Repr

/-- The state that a line names. -/
def stateOf (py : PyChars) (line : List Char) : Option (List Char) :=
  if "state:".toList <+: line then some (py.strip ((line.splitOn ':').getD 1 [])) else none

/-- The body of the loop: every test is made on every line, and what matches is stored over what was there. -/
def parseStatusLine (py : PyChars) (result : StatusResult) (line : List Char) : StatusResult where
  state := (stateOf py line).or result.state
  totalMs := (py.searchMs "total:".toList line).or result.totalMs
  lapCount := (py.searchCount "laps:".toList line).or result.lapCount
  minMs := (py.searchMs "min:".toList line).or result.minMs
  maxMs := (py.searchMs "max:".toList line).or result.maxMs
  avgMs := (py.searchMs "avg:".toList line).or result.avgMs

/-- `StopwatchTester.parse_status_output`. -/
def parseStatusOutput (py : PyChars) (lines : List (List Char)) : StatusResult := lines.foldl (parseStatusLine py) {}

/-! ## The CSV stream -/

namespace PyChars

variable (py : PyChars)

/-- The white space that `int` skips: unlike `str.strip`, not the four separators of ASCII. -/
def isIntSpace (x : Char) : Bool := py.isSpace x && !decide (28 ≤ x.toNat ∧ x.toNat ≤ 31)

/-- `int` of digits that may be grouped by single underscores. -/
def intDigits (text : List Char) : Option ℕ :=
  let groups := text.splitOn '_'
  if groups.all (fun group => !group.isEmpty && group.all py.isDigit) then some (py.int groups.flatten) else none

/-- `int` of a string; `none` where it raises `ValueError`. -/
def intOf (text : List Char) : Option ℤ :=
  match (text.dropWhile py.isIntSpace).rdropWhile py.isIntSpace with
  | '-' :: digits => (py.intDigits digits).map fun n => -(n : ℤ)
  | '+' :: digits => (py.intDigits digits).map fun n => (n : ℤ)
  | digits => (py.intDigits digits).map fun n => (n : ℤ)

end PyChars

/-- Python with `bytes.decode(errors='ignore')`; what that is on ASCII is fixed. -/
structure PyHost extends PyChars where
  decode : List UInt8 → List Char
  decode_ascii : ∀ bytes : List UInt8, (∀ b ∈ bytes, b.toNat < 128) → decode bytes = bytes.map fun b => Char.ofNat b.toNat

/-- The variables `timestamps` and `header_seen` of `test_csv_stability`. -/
structure Collected where
  timestamps : List ℤ := []
  headerSeen : Bool := false
  deriving DecidableEq, Repr

/-- The body of the loop over the lines. -/
def collectLine (py : PyChars) (s : Collected) (line : List Char) : Collected :=
  let line := py.strip line
  if line = [] ∨ "msh >".toList <:+: line then s
  else if s.headerSeen = false ∧ "t,".toList <+: line then { s with headerSeen := true }
  else
    let parts := line.splitOn ','
    if 4 ≤ parts.length then
      match py.intOf (parts.getD 0 []) with
      | some t => { s with timestamps := s.timestamps ++ [t] }
      | none => s
    else s

/-- The body of the loop over the chunks: the chunk goes to `buffer`, and the complete lines are taken out of it. -/
def collectChunk (py : PyHost) (p : Collected × List Char) (chunk : List UInt8) : Collected × List Char :=
  drain '\n' (collectLine py.toPyChars) p.1 (p.2 ++ py.decode chunk)

/-- The loop of `test_csv_stability`, over the chunks that it reads. -/
def collectCsv (py : PyHost) (chunks : List (List UInt8)) : Collected × List Char :=
  chunks.foldl (collectChunk py) ({}, [])

end RtStopwatch
