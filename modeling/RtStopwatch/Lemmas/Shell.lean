import RtStopwatch.Editor

/-!
# Key by key

What the shell does at each key when it holds a line editor: `keyActs` is what it prints and runs, and it then holds the editor after
that key (`key_eq`). `turn_eq` takes the decoding of the characters apart from the keys.
-/

namespace RtStopwatch

open Lib

variable {F : Type} (f : Finsh F)

/-- What a turn does with a key. -/
def Shell.key (s : Shell) : Key Char → Option (List ShellAct × Shell)
  | .char x => s.normalCharacter f x
  | .left => s.leftKey
  | .right => s.rightKey
  | .backspace => s.backspaceKey
  | .up => s.upKey f
  | .down => s.downKey f
  | .tab => s.tabKey f
  | .enter => s.enterKey f

theorem character_eq (s : Shell) (ch : Char) :
    s.character f ch = match plainKey ch with
      | none => some ([], s)
      | some k => s.key f k := by
  unfold Shell.character plainKey
  split_ifs <;> rfl

/-- A turn decodes its character and does what the key says. -/
theorem turn_eq (s : Shell) (ch : Char) :
    s.turn f ch = match decodeKey s.stat ch with
      | (stat, none) => some ([], { s with stat := stat })
      | (stat, some k) => { s with stat := stat }.key f k := by
  obtain ⟨stat, current, count, rows, line, position, curpos⟩ := s
  unfold Shell.turn decodeKey
  cases stat with
  | waitNormal =>
    dsimp only
    rw [character_eq]
    split_ifs <;> cases plainKey ch <;> rfl
  | waitSpecKey =>
    dsimp only
    rw [character_eq]
    split_ifs <;> cases plainKey ch <;> rfl
  | waitFuncKey =>
    dsimp only
    rw [character_eq]
    split_ifs <;> cases plainKey ch <;> rfl

/-! ### Completion -/

theorem strCommon_eq (s t : List Char) : Finsh.strCommon s t = (commonPrefix s t).length := by
  induction s generalizing t with
  | nil => rfl
  | cons a s ih =>
    cases t with
    | nil => rfl
    | cons b t =>
      unfold Finsh.strCommon commonPrefix
      split
      · rw [ih, List.length_cons]
      · rfl

/-- Cutting one of two texts cuts what they share. -/
theorem commonPrefix_take (s t : List Char) (m : ℕ) :
    commonPrefix (s.take m) t = s.take (min m (commonPrefix s t).length) := by
  induction s generalizing t m with
  | nil => simp [commonPrefix]
  | cons a s ih =>
    cases m with
    | zero => simp [commonPrefix]
    | succ m =>
      cases t with
      | nil => simp [commonPrefix]
      | cons b t =>
        rw [List.take_succ_cons]
        unfold commonPrefix
        split
        · rw [ih, List.length_cons, Nat.succ_min_succ, List.take_succ_cons]
        · simp

/-- What `msh_auto_complete` prints of the commands that begin with the line. -/
def matchActs (names : List (List Char)) : List ShellAct := names.map fun name => .kprintf (name ++ ['\n'])

/-- The loop from a first match on: the pointer stays, and the length is that of what all matches share. -/
theorem completeLoop_some {line : List Char} (hline : line ≠ []) (table : List (FinshSyscall F)) {name : List Char} {m : ℕ}
    (hm : line <+: name.take m) :
    ∃ m' ≤ m, Finsh.completeLoop line table (some name) m =
        (some name, m', matchActs ((table.filterMap FinshSyscall.cmdName).filter line.isPrefixOf)) ∧
      ((table.filterMap FinshSyscall.cmdName).filter line.isPrefixOf).foldl commonPrefix (name.take m) = name.take m' := by
  induction table generalizing m with
  | nil => exact ⟨m, Nat.le_refl _, rfl, rfl⟩
  | cons index table ih =>
    have hpos : m ≠ 0 := by
      rintro rfl
      rw [List.take_zero, List.prefix_nil] at hm
      exact hline hm
    rw [Finsh.completeLoop]
    cases hc : index.cmdName with
    | none =>
      rw [List.filterMap_cons_none hc]
      exact ih hm
    | some other =>
      rw [List.filterMap_cons_some hc]
      dsimp only
      by_cases hp : line.isPrefixOf other
      · rw [if_pos hp, if_neg hpos, List.filter_cons_of_pos hp, List.foldl_cons, commonPrefix_take, ← strCommon_eq]
        dsimp only
        rw [Option.getD_some]
        have hmin : (if Finsh.strCommon name other < m then Finsh.strCommon name other else m) = min m (Finsh.strCommon name other) := by
          split <;> omega
        rw [hmin]
        have hshare : line <+: name.take (min m (Finsh.strCommon name other)) := by
          rw [strCommon_eq, ← commonPrefix_take]
          exact (prefix_commonPrefix_iff _ _ _).mpr ⟨hm, List.isPrefixOf_iff_prefix.mp hp⟩
        obtain ⟨m', hle, hloop, hfold⟩ := ih hshare
        refine ⟨m', by omega, ?_, hfold⟩
        rw [hloop]
        rfl
      · rw [if_neg hp, List.filter_cons_of_neg hp]
        exact ih hm

/-- The loop from its start: the first match, if there is one, and what all matches share. -/
theorem completeLoop_none {line : List Char} (hline : line ≠ []) (table : List (FinshSyscall F)) :
    match (table.filterMap FinshSyscall.cmdName).filter line.isPrefixOf with
    | [] => Finsh.completeLoop line table none 0 = (none, 0, [])
    | name :: names => ∃ m ≤ name.length, Finsh.completeLoop line table none 0 = (some name, m, matchActs (name :: names)) ∧
        names.foldl commonPrefix name = name.take m := by
  induction table with
  | nil => rfl
  | cons index table ih =>
    rw [Finsh.completeLoop]
    cases hc : index.cmdName with
    | none =>
      rw [List.filterMap_cons_none hc]
      exact ih
    | some name =>
      rw [List.filterMap_cons_some hc]
      dsimp only
      by_cases hp : line.isPrefixOf name
      · rw [if_pos hp, if_pos rfl, List.filter_cons_of_pos hp]
        dsimp only
        rw [strCommon_eq, commonPrefix_self, if_neg (Nat.lt_irrefl _)]
        have htake : name.take name.length = name := List.take_length
        obtain ⟨m, hle, hloop, hfold⟩ := completeLoop_some (m := name.length) hline table
          (htake.symm ▸ List.isPrefixOf_iff_prefix.mp hp)
        rw [htake] at hfold
        exact ⟨m, hle, by rw [hloop]; rfl, hfold⟩
      · rw [if_neg hp, List.filter_cons_of_neg hp]
        exact ih

/-- What the tab key prints of the commands. -/
def Finsh.completeActs (line : List Char) : List ShellAct :=
  if line = [] then f.mshHelp else matchActs (f.cmdNames.filter line.isPrefixOf)

/-- A completed line fits in the array. -/
theorem completeWith_fits (hf : f.NamesFit) {s : List Char} (hs : s.length < finshCmdSize ∧ nul ∉ s) :
    (completeWith f.cmdNames s).length < finshCmdSize ∧ nul ∉ completeWith f.cmdNames s := by
  rcases completeWith_eq_or f.cmdNames s with h | ⟨name, hmem, hp⟩
  · rw [h]
    exact hs
  · obtain ⟨hlen, hnul⟩ := hf name hmem
    exact ⟨Nat.lt_of_le_of_lt hp.length_le hlen, fun h => hnul (hp.subset h)⟩

/-- `msh_auto_complete` completes the text in the array. -/
theorem mshAutoComplete_pad (hf : f.NamesFit) {s : List Char} (hs : s.length < finshCmdSize ∧ nul ∉ s) :
    f.mshAutoComplete (CString.pad (finshCmdSize + 1) s) =
      some (f.completeActs s, CString.pad (finshCmdSize + 1) (completeWith f.cmdNames s)) := by
  obtain ⟨hlen, hnul⟩ := hs
  rw [Finsh.mshAutoComplete, CString.str_pad hnul (by omega) (Nat.zero_le _), List.drop_zero, Option.bind_eq_bind, Option.bind_some]
  by_cases hline : s = []
  · rw [if_pos hline, Finsh.completeActs, if_pos hline, completeWith, if_pos hline, hline]
    rfl
  · have hloop := completeLoop_none hline f.syscallTable
    rw [if_neg hline, Finsh.completeActs, if_neg hline, completeWith, if_neg hline]
    change match f.cmdNames.filter s.isPrefixOf with
      | [] => _
      | name :: names => _ at hloop
    cases hc : f.cmdNames.filter s.isPrefixOf with
    | nil =>
      rw [hc] at hloop
      dsimp only at hloop ⊢
      rw [hloop]
      rfl
    | cons name names =>
      rw [hc] at hloop
      obtain ⟨m, hle, hloop, hfold⟩ := hloop
      have hname : name ∈ f.cmdNames ∧ s.isPrefixOf name = true := List.mem_filter.mp (hc ▸ List.mem_cons_self)
      have hfit := (hf name hname.1).1
      have hshare : s <+: names.foldl commonPrefix name := by
        rw [prefix_foldl_commonPrefix_iff, ← hc]
        intro x hx
        exact List.isPrefixOf_iff_prefix.mp (List.mem_filter.mp hx).2
      have hm : s.length ≤ m := by
        have := hshare.length_le
        rw [hfold, List.length_take] at this
        omega
      dsimp only
      rw [hloop, hfold]
      dsimp only
      rw [CString.memcpy_take hm (by omega) hle]
      rfl

/-! ### The keys -/

/-- What the shell prints when it shows a line of the history. -/
def historyActs (line : List Char) : List ShellAct := [.kprintf "\x1b[2K\r".toList, .kprintf (f.prompt ++ line)]

/-- What the shell prints and runs at a key when it holds the editor `e`. -/
def keyActs (e : LineEditor Char) : Key Char → List ShellAct
  | .char x => (if f.echoMode then [.kprintf (x :: e.line.after)] else []) ++ List.replicate e.line.after.length (.kprintf ['\x08'])
  | .left => if e.line.before = [] then [] else [.kprintf ['\x08']]
  | .right => (e.line.after.take 1).map fun x => .kprintf [x]
  | .backspace =>
    if e.line.before = [] then []
    else if e.line.after = [] then [.kprintf "\x08 \x08".toList]
    else .kprintf ('\x08' :: e.line.after ++ "  \x08".toList) :: List.replicate (e.line.after.length + 1) (.kprintf ['\x08'])
  | .up => if e.current = 0 then [] else historyActs f (e.goTo (e.current - 1)).line.text
  | .down => if e.history = [] then [] else historyActs f (e.goTo (min (e.current + 1) (e.history.length - 1))).line.text
  | .tab =>
    List.replicate e.line.before.length (.kprintf ['\x08']) ++ .kprintf ['\n'] :: f.completeActs e.line.text ++
      [.kprintf (f.prompt ++ completeWith f.cmdNames e.line.text)]
  | .enter =>
    (if f.echoMode then [.kprintf ['\n']] else []) ++
      [.mshExec (CString.pad (finshCmdSize + 1) e.line.text) e.line.text.length, .kprintf f.prompt]

/-- A line that fits in the array with a NUL behind it, also in a row of the history. -/
def LineFits (s : List Char) : Prop := s.length < finshCmdSize ∧ nul ∉ s

/-- What the shell needs of the editor it holds. -/
abbrev Holds (e : LineEditor Char) : Prop := e.Inv finshHistoryLines LineFits

variable {f} {s : Editing}

theorem length_text (s : Editing) : s.editor.line.text.length = s.editor.line.before.length + s.editor.line.after.length :=
  Zipper.length_text _

/-- The line the shell holds, up to its position, is the editor's. -/
theorem take_line (s : Editing) : s.shell.line.take s.shell.linePosition = s.editor.line.text := List.take_left

/-- A character put at the cursor. -/
theorem putCharacter_eq (h : Holds s.editor) {x : Char} (hx : s.editor.line.text.length + 1 < finshCmdSize) (hne : x ≠ nul) :
    s.shell.putCharacter f x =
      some (keyActs f s.editor (.char x), CString.pad (finshCmdSize + 1) (s.editor.line.insert x).text) := by
  obtain ⟨stat, ⟨⟨before, after⟩, history, current⟩⟩ := s
  have hnul : nul ∉ before.reverse ++ after := h.line.2
  have hlen : (before.reverse ++ after).length = before.length + after.length := by simp
  have hb : before.length = before.reverse.length := List.length_reverse.symm
  have hlong : (before.reverse ++ x :: after).length = before.length + after.length + 1 := by simp [Nat.add_assoc]
  have hnul' : nul ∉ before.reverse ++ x :: after := by
    simp only [List.mem_append, List.mem_cons, not_or] at hnul ⊢
    exact ⟨hnul.1, Ne.symm hne, hnul.2⟩
  simp only [Zipper.text] at hx
  unfold Shell.putCharacter Editing.shell
  simp only [Zipper.text, Zipper.insert, keyActs, List.reverse_cons, List.append_assoc, List.singleton_append]
  by_cases hafter : after = []
  · subst hafter
    have hset := CString.set_pad_end (n := finshCmdSize + 1) (s := before.reverse) (by rw [← hb]; omega) x
    have hend : ¬ before.length < before.reverse.length := by rw [hb]; exact Nat.lt_irrefl _
    simp only [List.append_nil, if_neg hend, hset]
    cases f.echoMode <;> rfl
  · have hin : before.length < before.length + after.length := by
      have := List.length_pos_iff.mpr hafter
      omega
    -- the moved line with the character in it is the new line
    have hins := CString.insert_pad (n := finshCmdSize + 1) before.reverse after x (by omega)
    rw [← hb] at hins
    obtain ⟨moved, hmove, hset⟩ := Option.bind_eq_some_iff.mp hins
    have hstr := CString.str_pad (n := finshCmdSize + 1) hnul' (by omega) (i := before.reverse.length) (by simp)
    rw [List.drop_left, ← hb] at hstr
    simp only [hlen, if_pos hin, Nat.add_sub_cancel_left, hmove, hset, hstr, Option.bind_eq_bind, Option.bind_some]
    rfl

theorem normalCharacter_eq (h : Holds s.editor) {x : Char} (hx : s.editor.line.text.length + 1 < finshCmdSize) (hne : x ≠ nul) :
    s.shell.normalCharacter f x = some (keyActs f s.editor (.char x),
      Editing.shell { s with editor := { s.editor with line := s.editor.line.insert x } }) := by
  have hsize : finshCmdSize = 80 := rfl
  have hpos : ¬ s.shell.linePosition ≥ finshCmdSize := by
    change ¬ s.editor.line.text.length ≥ finshCmdSize
    omega
  have hlen : (s.editor.line.insert x).text.length = s.editor.line.text.length + 1 := by
    simp only [Zipper.length_text, Zipper.insert, List.length_cons]
    omega
  have hle := length_text s
  rw [Shell.normalCharacter]
  simp only [if_neg hpos, putCharacter_eq h hx hne, Option.bind_eq_bind, Option.bind_some]
  unfold Shell.advance Editing.shell
  dsimp only
  rw [Nat.mod_eq_of_lt (by omega), Nat.mod_eq_of_lt (by omega), if_neg (by omega), hlen]
  rfl

theorem leftKey_eq : s.shell.leftKey =
    some (keyActs f s.editor .left, Editing.shell { s with editor := { s.editor with line := s.editor.line.left } }) := by
  obtain ⟨stat, ⟨⟨before, after⟩, history, current⟩⟩ := s
  cases before with
  | nil => rfl
  | cons c before => simp [Shell.leftKey, Editing.shell, keyActs, Zipper.text, Zipper.left]

theorem rightKey_eq : s.shell.rightKey =
    some (keyActs f s.editor .right, Editing.shell { s with editor := { s.editor with line := s.editor.line.right } }) := by
  obtain ⟨stat, ⟨⟨before, after⟩, history, current⟩⟩ := s
  cases after with
  | nil => simp [Shell.rightKey, Editing.shell, keyActs, Zipper.text, Zipper.right]
  | cons c after =>
    have hc : (CString.pad (finshCmdSize + 1) (before.reverse ++ c :: after))[before.length]? = some c := by
      rw [CString.pad, List.append_assoc, List.getElem?_append_right (by simp)]
      simp
    simp [Shell.rightKey, Editing.shell, keyActs, Zipper.text, Zipper.right, hc]

theorem backspaceKey_eq (h : Holds s.editor) : s.shell.backspaceKey =
    some (keyActs f s.editor .backspace, Editing.shell { s with editor := { s.editor with line := s.editor.line.backspace } }) := by
  obtain ⟨stat, ⟨⟨before, after⟩, history, current⟩⟩ := s
  cases before with
  | nil => rfl
  | cons c before =>
    have hsize : finshCmdSize = 80 := rfl
    obtain ⟨hlt, hnul⟩ : LineFits ((c :: before).reverse ++ after) := h.line
    have hlen : ((c :: before).reverse ++ after).length = before.length + after.length + 1 := by
      simp only [List.length_append, List.length_reverse, List.length_cons]
      omega
    have hline : (c :: before).reverse ++ after = before.reverse ++ c :: after := by simp
    have hnul' : nul ∉ before.reverse ++ after := by
      rw [hline] at hnul
      simp only [List.mem_append, List.mem_cons, not_or] at hnul ⊢
      exact ⟨hnul.1, hnul.2.2⟩
    have hpos : (before.length + after.length + 1 + 65535) % 65536 = before.length + after.length := by omega
    have hlen' : (before.reverse ++ after).length = before.length + after.length := by simp
    unfold Shell.backspaceKey Editing.shell
    simp only [Zipper.text, Zipper.backspace, keyActs, List.length_cons, List.tail_cons, hlen, hpos, Nat.add_sub_cancel,
      reduceCtorEq, if_false, Nat.succ_ne_zero]
    by_cases hafter : after = []
    · subst hafter
      rw [if_neg (by simp), if_pos rfl, List.append_nil, List.reverse_cons]
      have hset := CString.set_pad_last (n := finshCmdSize + 1) c (s := before.reverse) (by rw [List.length_reverse]; omega)
      rw [List.length_reverse] at hset
      simp [hset]
    · have hin : before.length + after.length > before.length := by
        have := List.length_pos_iff.mpr hafter
        omega
      have hcount : before.length + after.length + 1 - before.length = after.length + 1 := by omega
      have herase := CString.erase_pad (n := finshCmdSize + 1) before.reverse after c (by rw [← hline]; omega)
      rw [List.length_reverse, hlen'] at herase
      obtain ⟨moved, hmove, hset⟩ := Option.bind_eq_some_iff.mp herase
      have hstr := CString.str_pad (n := finshCmdSize + 1) hnul' (by omega) (i := before.reverse.length) (by simp)
      rw [List.drop_left, List.length_reverse] at hstr
      simp only [if_pos hin, if_neg hafter, hline, Nat.add_sub_cancel_left, hmove, hset, hstr, hcount, hlen', Option.bind_eq_bind,
        Option.bind_some]
      rfl

/-- The row of the history that holds a line. -/
theorem row_eq {history : List (List Char)} {k : ℕ} (hk : k < history.length) (rows : List (List Char)) :
    (history.map (CString.pad finshCmdSize) ++ rows)[k]? = some (CString.pad finshCmdSize (history.getD k [])) := by
  rw [List.getElem?_append_left (by rw [List.length_map]; exact hk), List.getElem?_map, List.getElem?_eq_getElem hk, Option.map_some,
    List.getD_eq_getElem?_getD, List.getElem?_eq_getElem hk, Option.getD_some]

/-- A line of the history becomes the line under edit. -/
theorem copyHistory_eq (h : Holds s.editor) {k : ℕ} (hk : k < s.editor.history.length) :
    { s.shell with currentHistory := k }.copyHistory f =
      some (historyActs f (s.editor.goTo k).line.text, Editing.shell { s with editor := s.editor.goTo k }) := by
  obtain ⟨hlt, hnul⟩ := h.history_at hk
  have hlt' : s.editor.line.text.length < finshCmdSize := h.line.1
  have hcopy := CString.memcpy_pad (n := finshCmdSize + 1) (m := finshCmdSize) (t := s.editor.line.text) (Nat.le_of_lt hlt)
    (Nat.le_of_lt hlt') (Nat.le_succ _)
  have hlen := CString.strlen_pad (n := finshCmdSize + 1) hnul (by omega)
  have hstr := CString.str_pad (n := finshCmdSize + 1) hnul (by omega) (i := 0) (Nat.zero_le _)
  unfold Shell.copyHistory Shell.handleHistory Editing.shell
  simp only [row_eq hk, hcopy, hlen, hstr, Option.bind_eq_bind, Option.bind_some, List.drop_zero, LineEditor.goTo, Zipper.text_atEnd]
  simp only [Zipper.atEnd, List.length_reverse]
  rfl

theorem upKey_eq (h : Holds s.editor) : s.shell.upKey f = some (keyActs f s.editor .up,
    Editing.shell { s with editor := (s.editor.step finshHistoryLines (completeWith f.cmdNames) .up).2 }) := by
  have hcur : s.shell.currentHistory = s.editor.current := rfl
  rw [Shell.upKey, keyActs, LineEditor.step, hcur]
  by_cases hc : s.editor.current = 0
  · rw [if_neg (by omega), if_pos hc, if_pos hc, ← hc]
    rfl
  · have hle := h.current
    rw [if_pos (by omega), if_neg hc, if_neg hc]
    exact copyHistory_eq h (k := s.editor.current - 1) (by omega)

theorem downKey_eq (h : Holds s.editor) : s.shell.downKey f = some (keyActs f s.editor .down,
    Editing.shell { s with editor := (s.editor.step finshHistoryLines (completeWith f.cmdNames) .down).2 }) := by
  have hcur : s.shell.currentHistory = s.editor.current := rfl
  have hcount : s.shell.historyCount = s.editor.history.length := rfl
  rw [Shell.downKey, keyActs, LineEditor.step, hcur, hcount]
  by_cases hc : s.editor.history = []
  · have hlen : s.editor.history.length = 0 := by rw [hc]; rfl
    rw [if_pos hc, if_pos hc, if_neg (by omega), if_neg (by omega)]
  · have hpos := List.length_pos_iff.mpr hc
    rw [if_neg hc, if_neg hc]
    by_cases hlast : s.editor.current + 1 < s.editor.history.length
    · rw [if_pos hlast, Nat.min_eq_left (by omega)]
      exact copyHistory_eq h hlast
    · rw [if_neg hlast, if_pos (by omega), Nat.min_eq_right (by omega)]
      exact copyHistory_eq h (k := s.editor.history.length - 1) (by omega)

theorem tabKey_eq (hf : f.NamesFit) (h : Holds s.editor) : s.shell.tabKey f = some (keyActs f s.editor .tab,
    Editing.shell { s with editor := { s.editor with line := Zipper.atEnd (completeWith f.cmdNames s.editor.line.text) } }) := by
  obtain ⟨hlt, hnul⟩ := completeWith_fits f hf h.line
  have hstr := CString.str_pad (n := finshCmdSize + 1) hnul (by omega) (i := 0) (Nat.zero_le _)
  have hcomplete := mshAutoComplete_pad f hf h.line
  unfold Shell.tabKey Editing.shell
  simp only [hcomplete, hstr, Option.bind_eq_bind, Option.bind_some, List.drop_zero, Zipper.text_atEnd]
  simp only [Zipper.atEnd, List.length_reverse]
  rfl

/-- The rows of the history. -/
def historyRows (history : List (List Char)) : List (List Char) :=
  history.map (CString.pad finshCmdSize) ++ List.replicate (finshHistoryLines - history.length) (CString.pad finshCmdSize [])

/-- A line is compared with the last one of the history as arrays. -/
theorem last_row_iff (h : Holds s.editor) (hne : s.editor.history ≠ []) :
    (historyRows s.editor.history)[s.editor.history.length - 1]? = some (s.shell.line.take finshCmdSize) ↔
      s.editor.history.getLast? = some s.editor.line.text := by
  have hlast : s.editor.history.getD (s.editor.history.length - 1) [] = s.editor.history.getLast hne := by
    rw [List.getD_eq_getElem?_getD, ← List.getLast?_eq_getElem?, List.getLast?_eq_some_getLast hne, Option.getD_some]
  have hpos := List.length_pos_iff.mpr hne
  have hline : s.shell.line.take finshCmdSize = CString.pad finshCmdSize s.editor.line.text :=
    CString.take_pad (Nat.le_of_lt h.line.1) (Nat.le_succ _)
  rw [historyRows, row_eq (by omega), hlast, hline, Option.some_inj,
    CString.pad_inj (h.history _ (List.getLast_mem hne)).1.2 h.line.2, List.getLast?_eq_some_getLast hne, Option.some_inj]

/-- The row a line is copied to. -/
theorem newRow_eq (h : Holds s.editor) :
    CString.memcpy (List.replicate finshCmdSize nul) s.shell.line s.shell.linePosition =
      some (CString.pad finshCmdSize s.editor.line.text) := by
  have hlt := h.line.1
  have hlen : s.shell.line.length = finshCmdSize + 1 := CString.length_pad (by omega)
  have hcopy := CString.memcpy_take (n := finshCmdSize) (t := []) (s := s.shell.line) (m := s.shell.linePosition) (Nat.zero_le _)
    (Nat.le_of_lt hlt) (by rw [hlen]; exact Nat.le_of_lt (Nat.lt_succ_of_lt hlt))
  rw [take_line] at hcopy
  exact hcopy

/-- A line added to a full history: the oldest row leaves. -/
theorem historyRows_full {history : List (List Char)} (hlen : history.length = finshHistoryLines) (line : List Char) :
    (historyRows history).drop 1 ++ [CString.pad finshCmdSize line] = historyRows ((history ++ [line]).rtake finshHistoryLines) := by
  have htake : (history ++ [line]).rtake finshHistoryLines = history.tail ++ [line] := by
    rw [rtake_concat_of_le_length (by decide) (Nat.le_of_eq hlen.symm), rtake_of_length_le (Nat.le_of_eq hlen)]
  have hlen' : (history.tail ++ [line]).length = finshHistoryLines := by
    rw [List.length_append, List.length_tail, hlen]
    rfl
  rw [htake, historyRows, historyRows, hlen, hlen', Nat.sub_self, List.replicate_zero, List.append_nil, List.append_nil, List.drop_one,
    ← List.map_tail, List.map_append, List.map_singleton]

/-- A line added to a history with room: it takes the first row that is free. -/
theorem historyRows_room {history : List (List Char)} (hlen : history.length < finshHistoryLines) (line : List Char) :
    (historyRows history).set history.length (CString.pad finshCmdSize line) =
      historyRows ((history ++ [line]).rtake finshHistoryLines) := by
  have hlen' : (history ++ [line]).length = history.length + 1 := by rw [List.length_append, List.length_singleton]
  have hroom : finshHistoryLines - history.length = finshHistoryLines - (history.length + 1) + 1 := by omega
  rw [rtake_of_length_le (by omega), historyRows, historyRows, hlen', hroom, List.replicate_succ,
    CString.set_append_cons (List.length_map _), List.map_append, List.map_singleton, List.append_assoc, List.singleton_append]

/-- The history after a line is pushed. -/
theorem pushHistory_eq (h : Holds s.editor) :
    s.shell.pushHistory = some { s.shell with
      cmdHistory := historyRows (LineEditor.push finshHistoryLines s.editor.history s.editor.line.text)
      historyCount := (LineEditor.push finshHistoryLines s.editor.history s.editor.line.text).length
      currentHistory := (LineEditor.push finshHistoryLines s.editor.history s.editor.line.text).length } := by
  have hcap : s.editor.history.length ≤ finshHistoryLines := h.cap
  have hpos : s.shell.linePosition = s.editor.line.text.length := rfl
  have hcount : s.shell.historyCount = s.editor.history.length := rfl
  have hrows : s.shell.cmdHistory = historyRows s.editor.history := rfl
  have hrow := newRow_eq h
  rw [hpos] at hrow
  rw [Shell.pushHistory, LineEditor.push, hpos, hcount, hrows]
  by_cases hnil : s.editor.line.text = []
  · rw [if_pos (by rw [hnil]; rfl), if_pos (Or.inl hnil)]
    rfl
  · rw [if_neg (fun h0 => hnil (List.eq_nil_of_length_eq_zero h0))]
    by_cases hfull : s.editor.history.length ≥ finshHistoryLines
    · have hlen : s.editor.history.length = finshHistoryLines := by omega
      have hne : s.editor.history ≠ [] := by
        intro h0
        rw [h0] at hlen
        exact absurd hlen (by decide)
      have hlast := last_row_iff h hne
      obtain ⟨last, hget⟩ : ∃ last, (historyRows s.editor.history)[s.editor.history.length - 1]? = some last :=
        ⟨_, row_eq (Nat.sub_lt (List.length_pos_iff.mpr hne) Nat.one_pos) _⟩
      rw [hget, Option.some_inj] at hlast
      rw [hlen] at hget
      rw [if_pos hfull, hget, Option.bind_eq_bind, Option.bind_some]
      by_cases hsame : s.editor.history.getLast? = some s.editor.line.text
      · rw [if_pos (hlast.mpr hsame), if_pos (Or.inr hsame)]
        rfl
      · have hout : ((s.editor.history ++ [s.editor.line.text]).rtake finshHistoryLines).length = finshHistoryLines := by
          rw [length_rtake, List.length_append, List.length_singleton]
          omega
        rw [if_neg (fun e => hsame (hlast.mp e)), if_neg (not_or.mpr ⟨hnil, hsame⟩), hrow, ← historyRows_full hlen, hout]
        rfl
    · have hroom : s.editor.history.length < finshHistoryLines := by omega
      have hsame : (s.editor.history.length ≠ 0 ∧
          (historyRows s.editor.history)[s.editor.history.length - 1]? = some (s.shell.line.take finshCmdSize)) ↔
          s.editor.history.getLast? = some s.editor.line.text := by
        by_cases hne : s.editor.history = []
        · simp [hne]
        · rw [last_row_iff h hne, and_iff_right (fun h0 => hne (List.eq_nil_of_length_eq_zero h0))]
      rw [if_neg hfull]
      dsimp only
      by_cases hlast : s.editor.history.getLast? = some s.editor.line.text
      · rw [if_pos (hsame.mpr hlast), if_pos (Or.inr hlast)]
        rfl
      · have hout : ((s.editor.history ++ [s.editor.line.text]).rtake finshHistoryLines).length = s.editor.history.length + 1 := by
          rw [length_rtake, List.length_append, List.length_singleton]
          omega
        rw [if_neg (fun e => hlast (hsame.mp e)), if_neg (not_or.mpr ⟨hnil, hlast⟩), hrow, ← historyRows_room hroom, hout]
        rfl

theorem enterKey_eq (h : Holds s.editor) : s.shell.enterKey f = some (keyActs f s.editor .enter,
    Editing.shell { s with editor := (s.editor.step finshHistoryLines (completeWith f.cmdNames) .enter).2 }) := by
  rw [Shell.enterKey, pushHistory_eq h]
  rfl

/-- A key does to the shell what it does to the editor that the shell holds. -/
theorem key_eq (hf : f.NamesFit) (h : Holds s.editor) {k : Key Char}
    (hk : ∀ x, k = .char x → s.editor.line.text.length + 1 < finshCmdSize ∧ x ≠ nul) :
    s.shell.key f k = some (keyActs f s.editor k,
      Editing.shell { s with editor := (s.editor.step finshHistoryLines (completeWith f.cmdNames) k).2 }) := by
  cases k with
  | char x =>
    obtain ⟨hx, hne⟩ := hk x rfl
    exact normalCharacter_eq h hx hne
  | left => exact leftKey_eq
  | right => exact rightKey_eq
  | backspace => exact backspaceKey_eq h
  | up => exact upKey_eq h
  | down => exact downKey_eq h
  | tab => exact tabKey_eq hf h
  | enter => exact enterKey_eq h

/-! ### The characters -/

theorem plainKey_char {ch x : Char} (h : plainKey ch = some (.char x)) : x ≠ nul := by
  unfold plainKey at h
  split_ifs at h with h1 h2 h3 h4
  · simp at h
  · simp at h
  · simp at h
  · rw [Option.some_inj, Key.char.injEq] at h
    rw [← h]
    exact fun e => h1 (Or.inl e)

/-- A character that is typed is not NUL. -/
theorem decodeKey_char {stat : InputStat} {ch x : Char} (h : (decodeKey stat ch).2 = some (.char x)) : x ≠ nul := by
  unfold decodeKey at h
  cases stat with
  | waitNormal => split_ifs at h <;> exact plainKey_char h
  | waitSpecKey => split_ifs at h <;> exact plainKey_char h
  | waitFuncKey => split_ifs at h <;> first | exact plainKey_char h | simp at h

/-- The character of a key that is one is put into the line. -/
theorem mem_typed {s : Editing} {ch x : Char} (h : (decodeKey s.stat ch).2 = some (.char x)) : x ∈ s.typed ch := by
  rw [Editing.typed, h]
  rfl

/-- What a turn prints and runs when the shell holds `s`. -/
def turnActs (f : Finsh F) (s : Editing) (ch : Char) : List ShellAct := ((decodeKey s.stat ch).2.map (keyActs f s.editor)).getD []

/-- A turn does to the shell what its character does to the editor that the shell holds. -/
theorem turn_shell (hf : f.NamesFit) (h : Holds s.editor) {ch : Char} (hfit : s.Fits ch) :
    s.shell.turn f ch = some (turnActs f s ch, ((editorMachine f).step s ch).2.shell) := by
  have hchar : ∀ x, (decodeKey s.stat ch).2 = some (.char x) → x ≠ nul := fun x => decodeKey_char
  have hfit : ∀ x, (decodeKey s.stat ch).2 = some (.char x) → s.editor.line.text.length + 1 < finshCmdSize :=
    fun x hx => hfit x (mem_typed hx)
  have hstat : s.shell.stat = s.stat := rfl
  rw [turn_eq, hstat, turnActs, editorMachine]
  dsimp only
  generalize decodeKey s.stat ch = d at hfit hchar
  obtain ⟨stat, _ | k⟩ := d
  · rfl
  · exact key_eq (s := { s with stat := stat }) hf h fun x e => ⟨hfit x (congrArg some e), hchar x (congrArg some e)⟩

theorem lines_nil_of_prints {acts : List ShellAct} (h : ∀ a ∈ acts, ∃ text, a = .kprintf text) :
    acts.filterMap ShellAct.line = [] := by
  rw [List.filterMap_eq_nil_iff]
  intro a ha
  obtain ⟨text, rfl⟩ := h a ha
  rfl

theorem prints_completeActs (f : Finsh F) (line : List Char) : ∀ a ∈ f.completeActs line, ∃ text, a = .kprintf text := by
  intro a ha
  unfold Finsh.completeActs at ha
  split at ha
  · simp only [Finsh.mshHelp, List.mem_append, List.mem_singleton, List.mem_filterMap, Option.map_eq_some_iff] at ha
    rcases ha with (rfl | ⟨index, -, name, -, rfl⟩) | rfl
    · exact ⟨_, rfl⟩
    · exact ⟨_, rfl⟩
    · exact ⟨_, rfl⟩
  · obtain ⟨name, -, rfl⟩ := List.mem_map.mp ha
    exact ⟨_, rfl⟩

/-- The lines a key gives to `msh_exec` are those it enters. -/
theorem lines_keyActs (f : Finsh F) (e : LineEditor Char) (k : Key Char) :
    (keyActs f e k).filterMap ShellAct.line = (e.step finshHistoryLines (completeWith f.cmdNames) k).1.toList := by
  cases k with
  | enter =>
    have htake : (CString.pad (finshCmdSize + 1) e.line.text).take e.line.text.length = e.line.text := List.take_left
    cases hecho : f.echoMode <;> simp [keyActs, hecho, List.filterMap_cons, ShellAct.line, htake, LineEditor.step]
  | char x =>
    refine lines_nil_of_prints ?_
    intro a ha
    rcases List.mem_append.mp ha with ha | ha
    · cases hecho : f.echoMode with
      | true =>
        rw [hecho] at ha
        exact ⟨_, List.mem_singleton.mp ha⟩
      | false =>
        rw [hecho] at ha
        exact absurd ha List.not_mem_nil
    · exact ⟨_, List.eq_of_mem_replicate ha⟩
  | left =>
    rw [keyActs]
    split <;> rfl
  | right =>
    refine lines_nil_of_prints ?_
    intro a ha
    obtain ⟨x, -, rfl⟩ := List.mem_map.mp ha
    exact ⟨_, rfl⟩
  | backspace =>
    rw [keyActs]
    split
    · rfl
    · split
      · rfl
      · refine lines_nil_of_prints ?_
        intro a ha
        rcases List.mem_cons.mp ha with rfl | ha
        · exact ⟨_, rfl⟩
        · exact ⟨_, List.eq_of_mem_replicate ha⟩
  | up =>
    rw [keyActs]
    split <;> rfl
  | down =>
    rw [keyActs]
    split <;> rfl
  | tab =>
    refine lines_nil_of_prints ?_
    intro a ha
    simp only [keyActs, List.mem_append, List.mem_cons] at ha
    rcases ha with (ha | rfl | ha) | rfl | ha
    · exact ⟨_, List.eq_of_mem_replicate ha⟩
    · exact ⟨_, rfl⟩
    · exact prints_completeActs f _ a ha
    · exact ⟨_, rfl⟩
    · exact absurd ha List.not_mem_nil

/-- The lines a turn gives to `msh_exec` are those its character enters. -/
theorem lines_turnActs (f : Finsh F) (s : Editing) (ch : Char) :
    (turnActs f s ch).filterMap ShellAct.line = ((editorMachine f).step s ch).1.toList := by
  rw [turnActs, editorMachine]
  dsimp only
  generalize decodeKey s.stat ch = d
  obtain ⟨stat, _ | k⟩ := d
  · rfl
  · exact lines_keyActs f s.editor k

end RtStopwatch
