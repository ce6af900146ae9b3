import Mathlib.Data.List.ReduceOption
import RtStopwatch.Lemmas.Shell

/-!
# The shell edits lines

As long as no line grows to 80 characters the shell is a line editor with a history: its arrays hold the editor's texts after any
characters, no access is outside of an array, and what it runs are the lines entered (`shell_edits`). Its history is then what the lines it
has run say it is (`shell_history`). At 80 characters the shell starts over at the front of an array it does not clear.
-/

namespace RtStopwatch

open Lib

variable {F : Type} {f : Finsh F}

theorem lineFits_nil : LineFits [] := ⟨by decide, List.not_mem_nil⟩

theorem lineFits_of_sublist (s t : List Char) (h : s.Sublist t) (ht : LineFits t) : LineFits s :=
  ⟨Nat.lt_of_le_of_lt h.length_le ht.1, fun hs => ht.2 (h.subset hs)⟩

/-- The line with the character that is put into it. -/
theorem lineFits_insert {s : Editing} (h : LineFits s.editor.line.text) {x : Char}
    (hx : s.editor.line.text.length + 1 < finshCmdSize) (hne : x ≠ nul) : LineFits (s.editor.line.insert x).text := by
  obtain ⟨-, hnul⟩ := h
  refine ⟨?_, ?_⟩
  · simp only [Zipper.length_text, Zipper.insert, List.length_cons] at hx ⊢
    omega
  · simp only [Zipper.text, Zipper.insert, List.reverse_cons, List.append_assoc, List.mem_append, List.mem_singleton, not_or]
      at hnul ⊢
    exact ⟨hnul.1, Ne.symm hne, hnul.2⟩

/-- What the shell needs of its editor is kept by every character that fits. -/
theorem holds_step (hf : f.NamesFit) {s : Editing} (h : Holds s.editor) {ch : Char} (hfit : s.Fits ch) :
    Holds ((editorMachine f).step s ch).2.editor := by
  have hchar : ∀ x, (decodeKey s.stat ch).2 = some (.char x) → LineFits (s.editor.line.insert x).text := by
    intro x hx
    exact lineFits_insert h.line (hfit x (mem_typed hx)) (decodeKey_char hx)
  rw [editorMachine]
  dsimp only
  generalize decodeKey s.stat ch = d at hchar
  obtain ⟨stat, _ | k⟩ := d
  · exact h
  · exact LineEditor.step_inv lineFits_nil lineFits_of_sublist (fun _ hs => completeWith_fits f hf hs)
      (fun x e => hchar x (congrArg some e)) h

/-- The simulation of a run. -/
theorem run_shell (hf : f.NamesFit) {es : List Char} (hm : (editorMachine f).Meets Editing.Fits .boot es) :
    Holds ((editorMachine f).run .boot es).editor ∧
      (shellMachine f).run (some .boot) es = some ((editorMachine f).run .boot es).shell ∧
      List.Forall₂ (fun acts line => acts.filterMap ShellAct.line = line.toList) ((shellMachine f).outs (some .boot) es)
        ((editorMachine f).outs .boot es) := by
  refine (editorMachine f).run_simulated (shellMachine f) (I := fun s => Holds s.editor) (fun s => some s.shell) ?_
    (LineEditor.inv_empty lineFits_nil) hm
  intro s ch h hfit
  refine ⟨holds_step hf h hfit, ?_, ?_⟩
  · simp only [shellMachine, turn_shell hf h hfit]
    exact lines_turnActs f s ch
  · simp only [shellMachine, turn_shell hf h hfit]

/-- What is run in the course of a run, turn by turn and as a whole. -/
theorem filterMap_flatten {acts : List (List ShellAct)} {lines : List (Option (List Char))}
    (h : List.Forall₂ (fun acts line => acts.filterMap ShellAct.line = line.toList) acts lines) :
    acts.flatten.filterMap ShellAct.line = lines.reduceOption := by
  induction h with
  | nil => rfl
  | @cons _ line _ _ hd _ ih =>
    rw [List.flatten_cons, List.filterMap_append, hd, ih]
    cases line <;> rfl

/-- Whatever is typed, as long as every line stays shorter than 80 characters: the shell then holds the texts of the line editor, no
access having been outside of an array, and the lines it has given to `msh_exec` are the lines entered. -/
theorem shell_edits (hf : f.NamesFit) {es : List Char} (hm : (editorMachine f).Meets Editing.Fits .boot es) :
    (shellMachine f).run (some .boot) es = some ((editorMachine f).run .boot es).shell ∧
      ((shellMachine f).outs (some .boot) es).flatten.filterMap ShellAct.line = ((editorMachine f).outs .boot es).reduceOption := by
  obtain ⟨-, hrun, houts⟩ := run_shell hf hm
  exact ⟨hrun, filterMap_flatten houts⟩

/-- A shell with one command, `ab`. -/
def oneCommand : Finsh Unit where
  echoMode := true
  promptMode := true
  syscallTable := [{ name := cmdPrefix ++ ['a', 'b'], desc := ['d'], func := () }]

theorem namesFit_oneCommand : oneCommand.NamesFit := by
  intro name hmem
  obtain rfl : name = ['a', 'b'] := by simpa [Finsh.cmdNames, oneCommand, FinshSyscall.cmdName, cmdPrefix] using hmem
  exact ⟨by decide, by decide⟩

/-- `a`, the tab key, the left key, backspace, enter, the up key, `c`, enter, enter. -/
def someChars : List Char :=
  ['a', '\t', '\x1b', '[', 'D', '\x08', '\r', '\x1b', '[', 'A', 'c', '\r', '\r']

theorem shell_edits_again :
    ((shellMachine oneCommand).outs (some .boot) someChars).flatten.filterMap ShellAct.line = [['b'], ['b', 'c'], []] :=
  (shell_edits namesFit_oneCommand (by decide : (editorMachine oneCommand).Meets Editing.Fits .boot someChars)).2.trans (by decide)

/-- The condition is needed: after 80 characters and a completion, a character and two backspaces move memory beyond the array. -/
example : (shellMachine oneCommand).run (some .boot) (List.replicate 80 'x' ++ ['\t', 'y', '\x08', '\x08']) = none := by
  decide +kernel

/-- The history of the editor after any characters. -/
theorem history_run (es : List Char) :
    ((editorMachine f).run .boot es).editor.history =
      LineEditor.recent finshHistoryLines ((editorMachine f).outs .boot es).reduceOption := by
  have hboot : Editing.boot.editor.history = LineEditor.recent finshHistoryLines ([] : List (Option (List Char))).reduceOption := rfl
  refine (editorMachine f).run_outs_invariant
    (I := fun os s => s.editor.history = LineEditor.recent finshHistoryLines os.reduceOption) ?_ hboot es
  intro os s ch h
  rw [List.reduceOption_append]
  rw [editorMachine]
  dsimp only
  generalize decodeKey s.stat ch = d
  obtain ⟨stat, _ | k⟩ := d
  · simpa using h
  · have hstep := LineEditor.history_step finshHistoryLines (completeWith f.cmdNames) s.editor k
    dsimp only
    rw [hstep, h]
    cases (s.editor.step finshHistoryLines (completeWith f.cmdNames) k).1 with
    | none => simp
    | some line =>
      rw [Option.elim_some, LineEditor.push_recent (by decide)]
      rfl

/-- The history of the shell: the last five of the lines it has run, without the empty ones and the immediate repeats, each in a row with
NULs behind it; the rows that are left are empty. -/
theorem shell_history (hf : f.NamesFit) {es : List Char} (hm : (editorMachine f).Meets Editing.Fits .boot es) :
    ∃ s, (shellMachine f).run (some .boot) es = some s ∧
      let lines := ((shellMachine f).outs (some .boot) es).flatten.filterMap ShellAct.line
      s.cmdHistory = historyRows (LineEditor.recent finshHistoryLines lines) ∧
        s.historyCount = (LineEditor.recent finshHistoryLines lines).length := by
  obtain ⟨-, hrun, houts⟩ := run_shell hf hm
  refine ⟨_, hrun, ?_⟩
  dsimp only
  rw [filterMap_flatten houts, ← history_run]
  exact ⟨rfl, rfl⟩

theorem shell_history_again : ∃ s, (shellMachine oneCommand).run (some .boot) someChars = some s ∧ s.historyCount = 2 := by
  obtain ⟨s, hrun, -, hcount⟩ := shell_history namesFit_oneCommand
    (by decide : (editorMachine oneCommand).Meets Editing.Fits .boot someChars)
  exact ⟨s, hrun, hcount.trans (by decide +kernel)⟩

/-! ### Completion -/

/-- Whatever has been typed, the tab key is the tab key. -/
theorem decodeKey_tab (stat : InputStat) : decodeKey stat '\t' = (.waitNormal, some .tab) := by
  cases stat <;> decide

/-- What the tab key makes of the line after any characters: a line with which commands begin becomes the longest text with which all
these begin; an empty line, or one with which no command begins, stays as it is. -/
theorem tab_completes (hf : f.NamesFit) {es : List Char} (hm : (editorMachine f).Meets Editing.Fits .boot es) :
    ∃ s s', (shellMachine f).run (some .boot) es = some s ∧ (shellMachine f).run (some .boot) (es ++ ['\t']) = some s' ∧
      let line := s.line.take s.linePosition
      let line' := s'.line.take s'.linePosition
      (line ≠ [] → (∃ x ∈ f.cmdNames, line <+: x) → ∀ p, p <+: line' ↔ ∀ x ∈ f.cmdNames, line <+: x → p <+: x) ∧
        (line = [] ∨ (∀ x ∈ f.cmdNames, ¬ line <+: x) → line' = line) := by
  obtain ⟨hholds, hrun, -⟩ := run_shell hf hm
  have hfit : ((editorMachine f).run .boot es).Fits '\t' := by
    intro x hx
    rw [Editing.typed, decodeKey_tab] at hx
    exact absurd hx (by simp [Key.typed])
  have hturn := turn_shell hf hholds hfit
  refine ⟨_, ((editorMachine f).step ((editorMachine f).run .boot es) '\t').2.shell, hrun, ?_, ?_⟩
  · rw [Machine.run_append, hrun, Machine.run_cons]
    simp only [shellMachine, hturn]
    rfl
  · have hline : ((editorMachine f).step ((editorMachine f).run .boot es) '\t').2.editor.line.text =
        completeWith f.cmdNames ((editorMachine f).run .boot es).editor.line.text := by
      rw [editorMachine]
      simp only [decodeKey_tab, LineEditor.step, Zipper.text_atEnd]
    dsimp only
    rw [take_line, take_line, hline]
    refine ⟨fun hne hname => prefix_completeWith_iff hne hname, ?_⟩
    rintro (hnil | hnone)
    · rw [completeWith, if_pos hnil, hnil]
    · exact completeWith_of_no_name hnone

theorem tab_completes_again :
    ∃ s s', (shellMachine oneCommand).run (some .boot) ['a'] = some s ∧
      (shellMachine oneCommand).run (some .boot) (['a'] ++ ['\t']) = some s' ∧
      let line := s.line.take s.linePosition
      let line' := s'.line.take s'.linePosition
      (line ≠ [] → (∃ x ∈ oneCommand.cmdNames, line <+: x) →
        ∀ p, p <+: line' ↔ ∀ x ∈ oneCommand.cmdNames, line <+: x → p <+: x) ∧
        (line = [] ∨ (∀ x ∈ oneCommand.cmdNames, ¬ line <+: x) → line' = line) :=
  tab_completes namesFit_oneCommand (by decide : (editorMachine oneCommand).Meets Editing.Fits .boot ['a'])

end RtStopwatch
