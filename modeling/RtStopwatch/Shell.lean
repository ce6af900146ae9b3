import RtStopwatch.Lib.CString
import RtStopwatch.Lib.Machine

/-!
# The line editor of the shell

`rt-thread/components/finsh/shell.c`: the loop of `finsh_thread_entry` that reads the console character by character, with
`shell_handle_history`, `shell_push_history` and `shell_auto_complete`, and `msh_auto_complete`, `msh_help` of `msh.c`, as they are
compiled (`FINSH_USING_MSH_ONLY`, `FINSH_USING_HISTORY`, no DFS). A turn that reads or writes outside an array gives nothing.
-/

namespace RtStopwatch

open Lib

/-- `FINSH_CMD_SIZE`. -/
def finshCmdSize : ℕ := 80

/-- `FINSH_HISTORY_LINES`. -/
def finshHistoryLines : ℕ := 5

/-- An entry of the table of exported functions. -/
structure FinshSyscall (F : Type) where
  name : List Char
  desc : List Char
  func : F

/-- The prefix of the names of the shell's commands. -/
def cmdPrefix : List Char := "__cmd_".toList

/-- The name of a command, `&index->name[6]`; nothing for a function that is no command. -/
def FinshSyscall.cmdName {F : Type} (index : FinshSyscall F) : Option (List Char) :=
  if cmdPrefix.isPrefixOf index.name then some (index.name.drop 6) else none

/-- What the shell's thread finds set: `echo_mode`, `prompt_mode` and the table of exported functions. -/
structure Finsh (F : Type) where
  echoMode : Bool
  promptMode : Bool
  syscallTable : List (FinshSyscall F)

/-- `_MSH_PROMPT` and what `finsh_get_prompt` puts behind it. -/
def mshPrompt : List Char := "msh >".toList

/-- `enum input_stat`. -/
inductive InputStat where
  | waitNormal | waitSpecKey | waitFuncKey
  deriving DecidableEq, Repr

/-- `struct finsh_shell`: what the editor keeps. The positions are of 16 bits. -/
structure Shell where
  stat : InputStat
  currentHistory : ℕ
  historyCount : ℕ
  cmdHistory : List (List Char)
  line : List Char
  linePosition : ℕ
  lineCurpos : ℕ
  deriving DecidableEq, Repr

/-- The shell as `finsh_system_init` leaves it. -/
def Shell.boot : Shell :=
  { stat := .waitNormal, currentHistory := 0, historyCount := 0
    cmdHistory := List.replicate finshHistoryLines (List.replicate finshCmdSize nul)
    line := List.replicate (finshCmdSize + 1) nul, linePosition := 0, lineCurpos := 0 }

/-- What a turn does beside the state: `rt_kprintf` of a text, and `msh_exec` of the line and its length. -/
inductive ShellAct where
  | kprintf (text : List Char)
  | mshExec (cmd : List Char) (length : ℕ)
  deriving DecidableEq, Repr

namespace Finsh

variable {F : Type} (f : Finsh F)

/-- `finsh_get_prompt`; nothing sets `finsh_prompt_custom`. -/
def prompt : List Char := if !f.promptMode then [] else mshPrompt

/-- The line of a command in `msh_help`. -/
def helpLine (name desc : List Char) : List Char :=
  name ++ List.replicate (16 - name.length) ' ' ++ " - ".toList ++ desc ++ ['\n']

/-- `msh_help`. -/
def mshHelp : List ShellAct :=
  [.kprintf "RT-Thread shell commands:\n".toList] ++
    (f.syscallTable.filterMap fun index => index.cmdName.map fun name => .kprintf (helpLine name index.desc)) ++
    [.kprintf ['\n']]

/-- `str_common`. -/
def strCommon : List Char → List Char → ℕ
  | c :: str1, d :: str2 => if c = d then strCommon str1 str2 + 1 else 0
  | _, _ => 0

/-- The loop of `msh_auto_complete`: the first command that begins with the line, how far all that do agree, and what is printed. -/
def completeLoop (line : List Char) : List (FinshSyscall F) → Option (List Char) → ℕ → Option (List Char) × ℕ × List ShellAct
  | [], namePtr, minLength => (namePtr, minLength, [])
  | index :: table, namePtr, minLength =>
    match index.cmdName with
    | none => completeLoop line table namePtr minLength
    | some cmdName =>
      if line.isPrefixOf cmdName then
        let (namePtr, minLength) := if minLength = 0 then (cmdName, cmdName.length) else (namePtr.getD [], minLength)
        let length := strCommon namePtr cmdName
        let (r, m, acts) := completeLoop line table (some namePtr) (if length < minLength then length else minLength)
        (r, m, .kprintf (cmdName ++ ['\n']) :: acts)
      else completeLoop line table namePtr minLength

/-- `msh_auto_complete`. -/
def mshAutoComplete (line : List Char) : Option (List ShellAct × List Char) := do
  let text ← CString.str line 0
  if text = [] then pure (f.mshHelp, line)
  else
    let (namePtr, minLength, acts) := completeLoop text f.syscallTable none 0
    match namePtr with
    | some namePtr => pure (acts, ← CString.memcpy line namePtr minLength)
    | none => pure (acts, line)

end Finsh

namespace Shell

variable {F : Type} (f : Finsh F) (s : Shell)

/-- `shell_handle_history`. -/
def handleHistory : Option (List ShellAct) := do
  let text ← CString.str s.line 0
  pure [.kprintf (Char.ofNat 0x1b :: "[2K\r".toList), .kprintf (f.prompt ++ text)]

/-- What the up key and the down key do once `current_history` is set. -/
def copyHistory : Option (List ShellAct × Shell) := do
  let row ← s.cmdHistory[s.currentHistory]?
  let line ← CString.memcpy s.line row finshCmdSize
  let length ← CString.strlen line
  let s := { s with line := line, linePosition := length, lineCurpos := length }
  pure (← s.handleHistory f, s)

/-- The up key. -/
def upKey : Option (List ShellAct × Shell) :=
  if s.currentHistory > 0 then { s with currentHistory := s.currentHistory - 1 }.copyHistory f
  else some ([], { s with currentHistory := 0 })

/-- The down key. -/
def downKey : Option (List ShellAct × Shell) :=
  if s.currentHistory + 1 < s.historyCount then { s with currentHistory := s.currentHistory + 1 }.copyHistory f
  else if s.historyCount ≠ 0 then { s with currentHistory := s.historyCount - 1 }.copyHistory f
  else some ([], s)

/-- The left key. -/
def leftKey : Option (List ShellAct × Shell) :=
  if s.lineCurpos ≠ 0 then some ([.kprintf ['\x08']], { s with lineCurpos := s.lineCurpos - 1 }) else some ([], s)

/-- The right key. -/
def rightKey : Option (List ShellAct × Shell) :=
  if s.lineCurpos < s.linePosition then do
    let c ← s.line[s.lineCurpos]?
    pure ([.kprintf [c]], { s with lineCurpos := s.lineCurpos + 1 })
  else some ([], s)

/-- `shell_auto_complete`, and the tab key. -/
def tabKey : Option (List ShellAct × Shell) := do
  let (acts, line) ← f.mshAutoComplete s.line
  let text ← CString.str line 0
  pure (List.replicate s.lineCurpos (.kprintf ['\x08']) ++ .kprintf ['\n'] :: acts ++ [.kprintf (f.prompt ++ text)],
    { s with line := line, linePosition := text.length, lineCurpos := text.length })

/-- The backspace key. -/
def backspaceKey : Option (List ShellAct × Shell) :=
  if s.lineCurpos = 0 then some ([], s)
  else do
    let s := { s with linePosition := (s.linePosition + 65535) % 65536, lineCurpos := s.lineCurpos - 1 }
    if s.linePosition > s.lineCurpos then
      let line ← CString.memmove s.line s.lineCurpos (s.lineCurpos + 1) (s.linePosition - s.lineCurpos)
      let line ← CString.set line s.linePosition nul
      let text ← CString.str line s.lineCurpos
      pure (.kprintf ('\x08' :: text ++ "  \x08".toList) ::
          List.replicate (s.linePosition + 1 - s.lineCurpos) (.kprintf ['\x08']), { s with line := line })
    else
      let line ← CString.set s.line s.linePosition nul
      pure ([.kprintf "\x08 \x08".toList], { s with line := line })

/-- `shell_push_history`. -/
def pushHistory : Option Shell := do
  let s ←
    if s.linePosition = 0 then pure s
    else if s.historyCount ≥ finshHistoryLines then do
      let last ← s.cmdHistory[finshHistoryLines - 1]?
      -- if current cmd is same as last cmd, don't push
      if last = s.line.take finshCmdSize then pure s
      else
        -- move history
        let row ← CString.memcpy (List.replicate finshCmdSize nul) s.line s.linePosition
        pure { s with cmdHistory := s.cmdHistory.drop 1 ++ [row], historyCount := finshHistoryLines }
    else do
      let last := s.cmdHistory[s.historyCount - 1]?
      if s.historyCount ≠ 0 ∧ last = some (s.line.take finshCmdSize) then pure s
      else
        let row ← CString.memcpy (List.replicate finshCmdSize nul) s.line s.linePosition
        pure { s with cmdHistory := s.cmdHistory.set s.historyCount row, historyCount := s.historyCount + 1 }
  pure { s with currentHistory := s.historyCount }

/-- The end of a line. -/
def enterKey : Option (List ShellAct × Shell) := do
  let s ← s.pushHistory
  pure ((if f.echoMode then [.kprintf ['\n']] else []) ++ [.mshExec s.line s.linePosition, .kprintf f.prompt],
    { s with line := List.replicate (finshCmdSize + 1) nul, linePosition := 0, lineCurpos := 0 })

/-- A normal character at the cursor: what is echoed, and the line. -/
def putCharacter (ch : Char) : Option (List ShellAct × List Char) :=
  if s.lineCurpos < s.linePosition then do
    let line ← CString.memmove s.line (s.lineCurpos + 1) s.lineCurpos (s.linePosition - s.lineCurpos)
    let line ← CString.set line s.lineCurpos ch
    let text ← CString.str line s.lineCurpos
    -- move the cursor to new position
    pure ((if f.echoMode then [.kprintf text] else []) ++ List.replicate (s.linePosition - s.lineCurpos) (.kprintf ['\x08']), line)
  else do
    let line ← CString.set s.line s.linePosition ch
    pure (if f.echoMode then [.kprintf [ch]] else [], line)

/-- The positions after a normal character: a line that has become too long is cleared. -/
def advance : Shell :=
  let s := { s with linePosition := (s.linePosition + 1) % 65536, lineCurpos := (s.lineCurpos + 1) % 65536 }
  if s.linePosition ≥ finshCmdSize then { s with linePosition := 0, lineCurpos := 0 } else s

/-- A normal character. -/
def normalCharacter (ch : Char) : Option (List ShellAct × Shell) := do
  -- it's a large line, discard it
  let s := if s.linePosition ≥ finshCmdSize then { s with linePosition := 0 } else s
  let (acts, line) ← s.putCharacter f ch
  pure (acts, { s with line := line }.advance)

/-- What follows when a character is no part of a control key. -/
def character (ch : Char) : Option (List ShellAct × Shell) :=
  if ch = nul ∨ ch = Char.ofNat 0xFF then some ([], s)
  else if ch = '\t' then s.tabKey f
  else if ch = Char.ofNat 0x7f ∨ ch = '\x08' then s.backspaceKey
  else if ch = '\r' ∨ ch = '\n' then s.enterKey f
  else s.normalCharacter f ch

/-- A turn of the loop of `finsh_thread_entry`, with the character from `finsh_getchar`. -/
def turn (ch : Char) : Option (List ShellAct × Shell) :=
  if ch = Char.ofNat 0x1b then some ([], { s with stat := .waitSpecKey })
  else
    match s.stat with
    | .waitNormal => s.character f ch
    | .waitSpecKey =>
      if ch = '[' then some ([], { s with stat := .waitFuncKey }) else { s with stat := .waitNormal }.character f ch
    | .waitFuncKey =>
      let s := { s with stat := .waitNormal }
      if ch = 'A' then s.upKey f
      else if ch = 'B' then s.downKey f
      else if ch = 'D' then s.leftKey
      else if ch = 'C' then s.rightKey
      else s.character f ch

end Shell

/-- The shell's thread, until an access outside an array. -/
def shellMachine {F : Type} (f : Finsh F) : Machine (Option Shell) Char (List ShellAct) where
  step
    | none, _ => ([], none)
    | some s, ch =>
      match s.turn f ch with
      | some (acts, s) => (acts, some s)
      | none => ([], none)

end RtStopwatch
