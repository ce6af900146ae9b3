import RtStopwatch.Lib.LineEditor
import RtStopwatch.Lib.Terminal
import RtStopwatch.Shell

/-!
# The shell's line editor, abstractly

What the line editor of `shell.c` is for: a line editor with a history of five lines, whose keys come as characters, the arrow keys as
sequences of three. `Editing.shell` is the shell that holds its state, and `consoleMachine` the shell with the terminal it prints to and
the commands it runs.
-/

namespace RtStopwatch

open Lib

/-- The key a character is by itself; NUL and 0xFF are none. -/
def plainKey (ch : Char) : Option (Key Char) :=
  if ch = nul ∨ ch = Char.ofNat 0xFF then none
  else if ch = '\t' then some .tab
  else if ch = Char.ofNat 0x7f ∨ ch = '\x08' then some .backspace
  else if ch = '\r' ∨ ch = '\n' then some .enter
  else some (.char ch)

/-- The key that a character completes, and where the next one stands in the sequence of an arrow key. -/
def decodeKey (stat : InputStat) (ch : Char) : InputStat × Option (Key Char) :=
  if ch = Char.ofNat 0x1b then (.waitSpecKey, none)
  else
    match stat with
    | .waitNormal => (.waitNormal, plainKey ch)
    | .waitSpecKey => if ch = '[' then (.waitFuncKey, none) else (.waitNormal, plainKey ch)
    | .waitFuncKey =>
      if ch = 'A' then (.waitNormal, some .up)
      else if ch = 'B' then (.waitNormal, some .down)
      else if ch = 'D' then (.waitNormal, some .left)
      else if ch = 'C' then (.waitNormal, some .right)
      else (.waitNormal, plainKey ch)

/-- A line editor that reads characters. -/
structure Editing where
  stat : InputStat
  editor : LineEditor Char
  deriving DecidableEq, Repr

/-- Before the first character. -/
def Editing.boot : Editing := { stat := .waitNormal, editor := .empty }

section

variable {F : Type} (f : Finsh F)

/-- The names of the commands. -/
def Finsh.cmdNames : List (List Char) := f.syscallTable.filterMap FinshSyscall.cmdName

/-- A character, and the line it enters. -/
def editorMachine : Machine Editing Char (Option (List Char)) where
  step s ch :=
    match decodeKey s.stat ch with
    | (stat, none) => (none, { s with stat := stat })
    | (stat, some k) =>
      let (line, editor) := s.editor.step finshHistoryLines (completeWith f.cmdNames) k
      (line, { stat := stat, editor := editor })

/-- The names of the commands are strings that fit in a line. -/
def Finsh.NamesFit : Prop := ∀ name ∈ f.cmdNames, name.length < finshCmdSize ∧ nul ∉ name

end

namespace Editing

/-- The character that is put into the line. -/
def typed (s : Editing) (ch : Char) : Option Char := (decodeKey s.stat ch).2.bind Key.typed

/-- A line that grows by a character stays shorter than `FINSH_CMD_SIZE`. -/
def Fits (s : Editing) (ch : Char) : Prop := ∀ x ∈ s.typed ch, s.editor.line.text.length + 1 < finshCmdSize

instance (s : Editing) (ch : Char) : Decidable (s.Fits ch) := Option.decidableForallMem (s.typed ch)

/-- The shell that holds a line editor: texts in arrays, NULs behind them. -/
def shell (s : Editing) : Shell :=
  { stat := s.stat
    currentHistory := s.editor.current
    historyCount := s.editor.history.length
    cmdHistory := s.editor.history.map (CString.pad finshCmdSize) ++
      List.replicate (finshHistoryLines - s.editor.history.length) (CString.pad finshCmdSize [])
    line := CString.pad (finshCmdSize + 1) s.editor.line.text
    linePosition := s.editor.line.text.length
    lineCurpos := s.editor.line.before.length }

end Editing

/-- The line a call of `msh_exec` is given, up to its length. -/
def ShellAct.line : ShellAct → Option (List Char)
  | .kprintf _ => none
  | .mshExec cmd length => some (cmd.take length)

/-! ## The console -/

/-- What an act puts on the console, when the command that `msh_exec` runs prints `out`. -/
def ShellAct.text (out : List Char) : ShellAct → List Char
  | .kprintf text => text
  | .mshExec _ _ => out

/-- The shell and the terminal it prints to. An event is a character, and what the command prints that it makes the shell run, if any. -/
def consoleMachine {F : Type} (f : Finsh F) : Machine (Option Shell × Terminal) (Char × List Char) Unit where
  step x e :=
    let (acts, s) := (shellMachine f).step x.1 e.1
    ((), (s, x.2.feed (acts.flatMap (ShellAct.text e.2))))

end RtStopwatch
