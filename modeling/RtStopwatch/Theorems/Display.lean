import RtStopwatch.Theorems.LineEditor

/-!
# The terminal shows the line

What the shell echoes at each key leaves the row of the terminal with the prompt and the line in it and the cursor where the editor has
it, also after a character put into the middle of the line or taken out of it, after the history and after a completion
(`feed_keyActs`); and so after every run (`terminal_shows_line`). Only blanks stand behind the line.
-/

namespace RtStopwatch

open Lib Terminal

variable {F : Type} {f : Finsh F}

/-- The shell echoes; the names of the commands and their descriptions are graphic, and their lines short enough for `rt_kprintf`. -/
structure Finsh.Shown (f : Finsh F) : Prop where
  echo : f.echoMode = true
  table : ∀ index ∈ f.syscallTable,
    (∀ c ∈ index.name, Graphic c) ∧ (∀ c ∈ index.desc, Graphic c) ∧ index.name.length + index.desc.length < 200

/-- The terminal shows the prompt and a line under edit, blanks behind it. -/
def Shows (f : Finsh F) (z : Zipper Char) (t : Terminal) : Prop :=
  ∃ k, t = cursor (f.prompt ++ z.before.reverse) (z.after ++ List.replicate k ' ')

/-- What acts put on the console. -/
def consoleText (out : List Char) (acts : List ShellAct) : List Char := acts.flatMap (ShellAct.text out)

theorem consoleText_append (out : List Char) (as bs : List ShellAct) :
    consoleText out (as ++ bs) = consoleText out as ++ consoleText out bs := List.flatMap_append

theorem consoleText_cons (out : List Char) (a : ShellAct) (as : List ShellAct) :
    consoleText out (a :: as) = a.text out ++ consoleText out as := List.flatMap_cons

theorem consoleText_back (out : List Char) (n : ℕ) :
    consoleText out (List.replicate n (.kprintf ['\x08'])) = List.replicate n '\x08' := by
  induction n with
  | zero => rfl
  | succ n ih => rw [List.replicate_succ, List.replicate_succ, consoleText_cons, ih]; rfl

theorem graphic_prompt (f : Finsh F) : ∀ c ∈ f.prompt, Graphic c := by
  unfold Finsh.prompt
  split
  · exact graphic_of_all rfl
  · exact graphic_of_all (by decide)

theorem graphic_cmdName (hs : f.Shown) {index : FinshSyscall F} (hmem : index ∈ f.syscallTable) {name : List Char}
    (hname : index.cmdName = some name) : ∀ c ∈ name, Graphic c := by
  unfold FinshSyscall.cmdName at hname
  split at hname
  · rw [Option.some_inj] at hname
    intro c hc
    exact (hs.table index hmem).1 c (List.mem_of_mem_drop (hname ▸ hc))
  · simp at hname

theorem graphic_cmdNames (hs : f.Shown) : ∀ name ∈ f.cmdNames, ∀ c ∈ name, Graphic c := by
  intro name hmem
  obtain ⟨index, hindex, hname⟩ := List.mem_filterMap.mp hmem
  exact graphic_cmdName hs hindex hname

theorem wholeLines_consoleText {out : List Char} {acts : List ShellAct} (h : ∀ a ∈ acts, WholeLines (a.text out)) :
    WholeLines (consoleText out acts) := by
  induction acts with
  | nil => exact wholeLines_nil
  | cons a acts ih =>
    rw [consoleText_cons]
    exact (h a List.mem_cons_self).append (ih fun b hb => h b (List.mem_cons_of_mem _ hb))

theorem graphic_helpLine {name desc : List Char} (hname : ∀ c ∈ name, Graphic c) (hdesc : ∀ c ∈ desc, Graphic c) :
    ∀ c ∈ name ++ List.replicate (16 - name.length) ' ' ++ " - ".toList ++ desc, Graphic c := by
  intro c hc
  simp only [List.mem_append, List.mem_replicate] at hc
  rcases hc with ((hc | ⟨-, rfl⟩) | hc) | hc
  · exact hname c hc
  · decide
  · exact graphic_of_all (s := " - ".toList) (by decide) c hc
  · exact hdesc c hc

/-- What the tab key prints of the commands are whole lines. -/
theorem wholeLines_completeActs (hs : f.Shown) (out line : List Char) : WholeLines (consoleText out (f.completeActs line)) := by
  refine wholeLines_consoleText ?_
  intro a ha
  unfold Finsh.completeActs at ha
  split at ha
  · simp only [Finsh.mshHelp, List.mem_append, List.mem_singleton, List.mem_filterMap, Option.map_eq_some_iff] at ha
    rcases ha with (rfl | ⟨index, hindex, name, hname, rfl⟩) | rfl
    · exact wholeLines_line (s := "RT-Thread shell commands:".toList) (graphic_of_all (by decide))
    · exact wholeLines_line (graphic_helpLine (graphic_cmdName hs hindex hname) (hs.table index hindex).2.1)
    · exact wholeLines_line (s := []) (by simp)
  · obtain ⟨name, hname, rfl⟩ := List.mem_map.mp ha
    exact wholeLines_line (graphic_cmdNames hs name (List.mem_filter.mp hname).1)

/-- The prompt and a line on a fresh row. -/
theorem shows_atEnd {line : List Char} (hline : ∀ c ∈ line, Graphic c) :
    Shows f (Zipper.atEnd line) ((cursor [] []).feed (f.prompt ++ line)) := by
  have hall : ∀ c ∈ f.prompt ++ line, Graphic c := fun c hc => (List.mem_append.mp hc).elim (graphic_prompt f c) (hline c)
  refine ⟨0, ?_⟩
  rw [feed_graphic hall, Zipper.atEnd, List.reverse_reverse, List.nil_append, List.drop_nil]
  rfl

/-- A character, typed in front of the cursor. -/
theorem shows_insert (hs : f.Shown) {e : LineEditor Char} (hline : ∀ c ∈ e.line.text, Graphic c) {x : Char} (hx : Graphic x)
    {t : Terminal} (h : Shows f e.line t) (out : List Char) :
    Shows f (e.line.insert x) (t.feed (consoleText out (keyActs f e (.char x)))) := by
  obtain ⟨k, rfl⟩ := h
  obtain ⟨⟨before, after⟩, history, current⟩ := e
  have hall : ∀ c ∈ x :: after, Graphic c := by
    intro c hc
    rcases List.mem_cons.mp hc with rfl | hc
    · exact hx
    · exact hline c (List.mem_append_right _ hc)
  refine ⟨k - 1, ?_⟩
  have hrest : (after ++ List.replicate k ' ').drop (x :: after).length = List.replicate (k - 1) ' ' := by
    rw [List.length_cons, List.drop_length_add_append, List.drop_replicate]
  simp only [keyActs, hs.echo, if_true, consoleText_append, consoleText_cons, consoleText_back, ShellAct.text]
  rw [consoleText, List.flatMap_nil, List.append_nil, feed_append, feed_graphic hall, hrest, List.append_cons, feed_backspaces]
  simp [Zipper.insert]

/-- The character in front of the cursor, taken away. -/
theorem shows_backspace {e : LineEditor Char} (hline : ∀ c ∈ e.line.text, Graphic c) {t : Terminal} (h : Shows f e.line t)
    (out : List Char) : Shows f e.line.backspace (t.feed (consoleText out (keyActs f e .backspace))) := by
  obtain ⟨k, rfl⟩ := h
  obtain ⟨⟨before, after⟩, history, current⟩ := e
  cases before with
  | nil => exact ⟨k, rfl⟩
  | cons c before =>
    have hafter : ∀ c ∈ after, Graphic c := fun c hc => hline c (List.mem_append_right _ hc)
    simp only [List.reverse_cons, ← List.append_assoc]
    by_cases hnil : after = []
    · subst hnil
      refine ⟨k + 1, ?_⟩
      change (((cursor (f.prompt ++ before.reverse ++ [c]) (List.replicate k ' ')).feedChar '\x08').feedChar ' ').feedChar '\x08' = _
      rw [feedChar_backspace, feedChar_graphic (by decide), List.drop_one, List.tail_cons, feedChar_backspace, List.replicate_succ]
      rfl
    · refine ⟨k - 1 + 2, ?_⟩
      have hall : ∀ c ∈ after ++ [' ', ' '], Graphic c := by
        intro c hc
        rcases List.mem_append.mp hc with hc | hc
        · exact hafter c hc
        · exact graphic_of_all (s := [' ', ' ']) (by decide) c hc
      have hrest : (c :: (after ++ List.replicate k ' ')).drop (after ++ [' ', ' ']).length = List.replicate (k - 1) ' ' := by
        rw [List.length_append, List.length_cons, List.length_singleton, ← Nat.add_assoc, List.drop_succ_cons,
          List.drop_length_add_append, List.drop_replicate]
      have htext : consoleText out (keyActs f ⟨⟨c :: before, after⟩, history, current⟩ .backspace) =
          '\x08' :: ((after ++ [' ', ' ']) ++ List.replicate (after ++ [' ', ' ']).length '\x08') := by
        rw [keyActs, if_neg (List.cons_ne_nil c before), if_neg hnil, consoleText_cons, consoleText_back]
        simp [ShellAct.text, List.replicate_succ]
      rw [htext, feed_cons, feedChar_backspace, feed_append, feed_graphic hall, hrest, feed_backspaces]
      simp [Zipper.backspace, List.replicate_succ]

/-- The cursor, moved back. -/
theorem shows_left {e : LineEditor Char} {t : Terminal} (h : Shows f e.line t) (out : List Char) :
    Shows f e.line.left (t.feed (consoleText out (keyActs f e .left))) := by
  obtain ⟨k, rfl⟩ := h
  obtain ⟨⟨before, after⟩, history, current⟩ := e
  cases before with
  | nil => exact ⟨k, rfl⟩
  | cons c before =>
    refine ⟨k, ?_⟩
    simp only [List.reverse_cons, ← List.append_assoc]
    exact feedChar_backspace c

/-- The cursor, moved on. -/
theorem shows_right {e : LineEditor Char} (hline : ∀ c ∈ e.line.text, Graphic c) {t : Terminal} (h : Shows f e.line t)
    (out : List Char) : Shows f e.line.right (t.feed (consoleText out (keyActs f e .right))) := by
  obtain ⟨k, rfl⟩ := h
  obtain ⟨⟨before, after⟩, history, current⟩ := e
  cases after with
  | nil => exact ⟨k, rfl⟩
  | cons c after =>
    have hc : Graphic c := hline c (List.mem_append_right _ List.mem_cons_self)
    refine ⟨k, ?_⟩
    simp only [Zipper.right, List.reverse_cons, ← List.append_assoc]
    exact feedChar_graphic hc

/-- A line of the history, in the place of the line. -/
theorem shows_history {z : Zipper Char} {t : Terminal} (h : Shows f z t) (out : List Char) {line : List Char}
    (hline : ∀ c ∈ line, Graphic c) : Shows f (Zipper.atEnd line) (t.feed (consoleText out (historyActs f line))) := by
  obtain ⟨k, rfl⟩ := h
  have htext : consoleText out (historyActs f line) = "\x1b[2K\r".toList ++ (f.prompt ++ line) := by
    rw [historyActs, consoleText_cons, consoleText_cons, consoleText, List.flatMap_nil, List.append_nil]
    rfl
  rw [htext, feed_append, feed_erase]
  exact shows_atEnd hline

/-- A line that fits in the array and that a terminal shows. -/
def LineShown (s : List Char) : Prop := LineFits s ∧ ∀ c ∈ s, Graphic c

theorem lineShown_nil : LineShown [] := ⟨lineFits_nil, fun _ h => absurd h List.not_mem_nil⟩

theorem lineShown_of_sublist (s t : List Char) (h : s.Sublist t) (ht : LineShown t) : LineShown s :=
  ⟨lineFits_of_sublist s t h ht.1, fun c hc => ht.2 c (h.subset hc)⟩

theorem lineShown_completeWith (hf : f.NamesFit) (hs : f.Shown) {line : List Char} (h : LineShown line) :
    LineShown (completeWith f.cmdNames line) := by
  refine ⟨completeWith_fits f hf h.1, ?_⟩
  intro c hc
  rcases completeWith_eq_or f.cmdNames line with heq | ⟨name, hname, hp⟩
  · exact h.2 c (heq ▸ hc)
  · exact graphic_cmdNames hs name hname c (hp.subset hc)

/-- The completion of the line, on a row of its own below what is printed of the commands. -/
theorem shows_tab (hf : f.NamesFit) (hs : f.Shown) {e : LineEditor Char} (hline : LineShown e.line.text) {t : Terminal}
    (h : Shows f e.line t) (out : List Char) :
    Shows f (Zipper.atEnd (completeWith f.cmdNames e.line.text)) (t.feed (consoleText out (keyActs f e .tab))) := by
  obtain ⟨k, rfl⟩ := h
  have hback := feed_backspaces (x := f.prompt) (y := e.line.after ++ List.replicate k ' ') e.line.before.reverse
  rw [List.length_reverse] at hback
  rw [keyActs, consoleText_append, consoleText_append, consoleText_cons, consoleText_back, feed_append, feed_append, hback, feed_append]
  have hcommands := feed_wholeLines (wholeLines_completeActs hs out e.line.text)
  change Shows f _ (((cursor [] []).feed _).feed _)
  rw [hcommands, consoleText_cons, consoleText, List.flatMap_nil, List.append_nil]
  exact shows_atEnd (lineShown_completeWith hf hs hline).2

/-- What is left of a line once it is run: the prompt on a fresh row, below what the command has printed. -/
theorem shows_enter (hs : f.Shown) {e : LineEditor Char} {t : Terminal} (h : Shows f e.line t) {out : List Char}
    (hout : WholeLines out) : Shows f (Zipper.atEnd []) (t.feed (consoleText out (keyActs f e .enter))) := by
  obtain ⟨k, rfl⟩ := h
  have htext : consoleText out (keyActs f e .enter) = '\n' :: (out ++ (f.prompt ++ [])) := by
    simp [keyActs, hs.echo, consoleText, ShellAct.text]
  rw [htext, feed_cons, feedChar_newline, feed_append, feed_wholeLines hout]
  exact shows_atEnd lineShown_nil.2

/-- What the terminal shows after a key. -/
theorem feed_keyActs (hf : f.NamesFit) (hs : f.Shown) {e : LineEditor Char} (hinv : e.Inv finshHistoryLines LineShown) {k : Key Char}
    (hk : ∀ x, k = .char x → Graphic x) {t : Terminal} (h : Shows f e.line t) {out : List Char} (hout : WholeLines out) :
    Shows f (e.step finshHistoryLines (completeWith f.cmdNames) k).2.line (t.feed (consoleText out (keyActs f e k))) := by
  cases k with
  | char x => exact shows_insert hs hinv.line.2 (hk x rfl) h out
  | left => exact shows_left h out
  | right => exact shows_right hinv.line.2 h out
  | backspace => exact shows_backspace hinv.line.2 h out
  | tab => exact shows_tab hf hs hinv.line h out
  | enter => exact shows_enter hs h hout
  | up =>
    rw [keyActs, LineEditor.step]
    by_cases hc : e.current = 0
    · rw [if_pos hc, if_pos hc]
      exact h
    · have hle := hinv.current
      have hgo := hinv.history_at (k := e.current - 1) (by omega)
      rw [if_neg hc, if_neg hc, LineEditor.goTo, Zipper.text_atEnd]
      exact shows_history h out hgo.2
  | down =>
    rw [keyActs, LineEditor.step]
    by_cases hc : e.history = []
    · rw [if_pos hc, if_pos hc]
      exact h
    · have hpos := List.length_pos_iff.mpr hc
      have hgo := hinv.history_at (k := min (e.current + 1) (e.history.length - 1)) (by omega)
      rw [if_neg hc, if_neg hc, LineEditor.goTo, Zipper.text_atEnd]
      exact shows_history h out hgo.2

/-- A character that fits in the line, and that a terminal shows if it is put into it. -/
def FitsShown (s : Editing) (ch : Char) : Prop := s.Fits ch ∧ ∀ x ∈ s.typed ch, Graphic x

instance (s : Editing) (ch : Char) : Decidable (FitsShown s ch) :=
  @instDecidableAnd _ _ inferInstance (Option.decidableForallMem (s.typed ch))

/-- The editor of a shell whose line the terminal shows. -/
structure OnConsole (f : Finsh F) (s : Editing) (x : Option Shell × Terminal) : Prop where
  inv : s.editor.Inv finshHistoryLines LineShown
  shell : x.1 = some s.shell
  shows : Shows f s.editor.line x.2

theorem OnConsole.boot (f : Finsh F) : OnConsole f .boot (some .boot, (cursor [] []).feed f.prompt) := by
  refine ⟨LineEditor.inv_empty lineShown_nil, rfl, ?_⟩
  have := shows_atEnd (f := f) lineShown_nil.2
  rwa [List.append_nil] at this

/-- The step lemma: a character, and what the command prints that it makes the shell run. -/
theorem OnConsole.step (hf : f.NamesFit) (hs : f.Shown) {s : Editing} {x : Option Shell × Terminal} (h : OnConsole f s x)
    {e : Char × List Char} (hfit : FitsShown s e.1) (hout : WholeLines e.2) :
    OnConsole f ((editorMachine f).step s e.1).2 ((consoleMachine f).step x e).2 := by
  obtain ⟨hinv, hx, hshows⟩ := h
  obtain ⟨x, t⟩ := x
  obtain ⟨ch, out⟩ := e
  obtain rfl : x = some s.shell := hx
  have hturn := turn_shell hf (hinv.mono fun _ h => h.1) hfit.1
  have hchar : ∀ x, (decodeKey s.stat ch).2 = some (.char x) → LineFits (s.editor.line.insert x).text ∧ Graphic x := by
    intro x hx
    have hmem := mem_typed hx
    exact ⟨lineFits_insert hinv.line.1 (hfit.1 x hmem) (decodeKey_char hx), hfit.2 x hmem⟩
  simp only [consoleMachine, shellMachine, hturn]
  have hacts : turnActs f s ch = ((decodeKey s.stat ch).2.map (keyActs f s.editor)).getD [] := rfl
  rw [hacts, editorMachine]
  dsimp only
  generalize decodeKey s.stat ch = d at hchar
  obtain ⟨stat, _ | k⟩ := d
  · exact ⟨hinv, rfl, hshows⟩
  · refine ⟨?_, rfl, ?_⟩
    · refine LineEditor.step_inv lineShown_nil lineShown_of_sublist (fun _ h => lineShown_completeWith hf hs h) ?_ hinv
      rintro x rfl
      obtain ⟨hline, hgraphic⟩ := hchar x rfl
      refine ⟨hline, ?_⟩
      intro c hc
      simp only [Zipper.text, Zipper.insert, List.reverse_cons, List.mem_append, List.mem_singleton] at hc
      rcases hc with (hc | rfl) | hc
      · exact hinv.line.2 c (List.mem_append_left _ hc)
      · exact hgraphic
      · exact hinv.line.2 c (List.mem_append_right _ hc)
    · exact feed_keyActs hf hs hinv (fun x e => (hchar x (congrArg some e)).2) hshows hout

/-- Whatever is typed, as long as every line stays shorter than 80 characters, and whatever lines the commands print: the terminal shows
the prompt and the line the shell holds, only blanks behind it, and its cursor is where the shell has it. -/
theorem terminal_shows_line (hf : f.NamesFit) (hs : f.Shown) {es : List (Char × List Char)}
    (hm : (editorMachine f).Meets FitsShown .boot (es.map Prod.fst)) (hout : ∀ e ∈ es, WholeLines e.2) :
    ∃ s t k, (consoleMachine f).run (some .boot, (cursor [] []).feed f.prompt) es = (some s, t) ∧
      t.row = f.prompt ++ s.line.take s.linePosition ++ List.replicate k ' ' ∧ t.col = f.prompt.length + s.lineCurpos := by
  have hrun := (editorMachine f).run_related (consoleMachine f) Prod.fst (R := OnConsole f) (H := fun e => WholeLines e.2)
    (fun _ _ _ h hfit hout => h.step hf hs hfit hout) (OnConsole.boot f) hm hout
  obtain ⟨-, hshell, k, hterm⟩ := hrun
  refine ⟨_, _, k, Prod.ext hshell hterm, ?_, ?_⟩
  · rw [take_line]
    simp only [Zipper.text, List.append_assoc]
  · simp only [List.length_append, List.length_reverse]
    rfl

theorem shown_oneCommand : oneCommand.Shown := by
  refine ⟨rfl, ?_⟩
  intro index hindex
  rw [List.mem_singleton.mp hindex]
  exact ⟨graphic_of_all (by decide), graphic_of_all (by decide), by decide⟩

/-- The characters of the run, and a line that the command prints. -/
def someEvents : List (Char × List Char) := someChars.map fun ch => (ch, if ch = '\r' then ['x', '\n'] else [])

theorem terminal_shows_line_again :
    ∃ s t k, (consoleMachine oneCommand).run (some .boot, (cursor [] []).feed oneCommand.prompt) someEvents = (some s, t) ∧
      t.row = oneCommand.prompt ++ s.line.take s.linePosition ++ List.replicate k ' ' ∧
      t.col = oneCommand.prompt.length + s.lineCurpos :=
  terminal_shows_line namesFit_oneCommand shown_oneCommand
    (by decide : (editorMachine oneCommand).Meets FitsShown .boot (someEvents.map Prod.fst)) (by decide)

end RtStopwatch
