import RtStopwatch.Lemmas.Host
import RtStopwatch.Lemmas.Status
import RtStopwatch.Theorems.Refinement

/-!
# The status report, on the device and on the host

`parse_status_output` recovers from the lines that `cmd_sw_status` prints, whatever stands between them, the values the device
computed (`status_report_round_trip`). Each of the patterns has a letter that no line but its own has, so that none of them matches
elsewhere, whatever the numbers.
-/

namespace RtStopwatch

open Lib

variable {c : Config}

/-- The texts by which the host finds its values. -/
def statusKeys : List (List Char) :=
  ["state:".toList, "total:".toList, "laps:".toList, "min:".toList, "max:".toList, "avg:".toList]

/-- The line has one of the texts in it. -/
def mentionsKey (line : List Char) : Bool := decide (∃ key ∈ statusKeys, key <:+: line)

namespace PyChars

variable {py : PyChars}

/-! ## The patterns -/

theorem searchMs_eq_none {key line : List Char} (h : ¬ key <:+: line) : py.searchMs key line = none := by
  rw [searchMs, Piece.search_lit_eq_none h]
  rfl

theorem searchCount_eq_none {key line : List Char} (h : ¬ key <:+: line) : py.searchCount key line = none := by
  rw [searchCount, Piece.search_lit_eq_none h]
  rfl

/-- The digits of `%u` are a run that ends where a character that is no digit follows. -/
theorem matchHere_digits (n : ℕ) {l : List Char} (hl : ∀ x ∈ l.head?, py.isDigit x = false) {ps : List (Piece Char)}
    {gs : List (List Char)} (h : Piece.matchHere ps l = some gs) :
    Piece.matchHere (.run py.isDigit true :: ps) (fmtU n ++ l) = some (fmtU n :: gs) := by
  have hd : ∀ x ∈ fmtU n, py.isDigit x = true := fun x hx => isDigit_of_isDigit (isDigit_of_mem_fmtU hx)
  exact Piece.matchHere_run_append (fmtU_ne_nil n) hd hl h true

/-- So are the blanks in front of them. -/
theorem matchHere_blanks {blanks : List Char} (hne : blanks ≠ []) (hb : ∀ x ∈ blanks, py.isSpace x = true) {l : List Char}
    (hl : ∀ x ∈ l.head?, py.isSpace x = false) {ps : List (Piece Char)} {gs : List (List Char)}
    (h : Piece.matchHere ps l = some gs) :
    Piece.matchHere (.run py.isSpace false :: ps) (blanks ++ l) = some gs :=
  Piece.matchHere_run_append hne hb hl h false

theorem head_fmtU_append (n : ℕ) (l : List Char) : ∀ x ∈ (fmtU n ++ l).head?, py.isSpace x = false := by
  intro x hx
  rw [List.head?_append_of_ne_nil _ (fmtU_ne_nil n)] at hx
  exact isSpace_of_isDigit (isDigit_of_mem_fmtU (List.mem_of_mem_head? hx))

theorem searchMs_eq {key blanks : List Char} (hne : blanks ≠ []) (hb : ∀ x ∈ blanks, py.isSpace x = true) (n : ℕ)
    (rest : List Char) : py.searchMs key (key ++ (blanks ++ (fmtU n ++ (" ms".toList ++ rest)))) = some n := by
  have hspace : py.isSpace ' ' = true := py.isSpace_ascii ' ' (by decide)
  have hms : Piece.matchHere [.lit "ms".toList] ("ms".toList ++ rest) = some [] := Piece.matchHere_lit_append _ _ _
  have hm : ∀ x ∈ ("ms".toList ++ rest).head?, py.isSpace x = false := by
    rintro x ⟨⟩
    exact py.isSpace_ascii 'm' (by decide)
  have hsp : Piece.matchHere [.run py.isSpace false, .lit "ms".toList] ([' '] ++ ("ms".toList ++ rest)) = some [] :=
    matchHere_blanks (List.cons_ne_nil _ _) (by simpa using hspace) hm hms
  have hd : ∀ x ∈ (" ms".toList ++ rest).head?, py.isDigit x = false := by
    rintro x ⟨⟩
    exact isDigit_ascii (by decide) (by decide)
  have hmatch := matchHere_blanks hne hb (head_fmtU_append n _) (matchHere_digits n hd hsp)
  rw [searchMs, Piece.search_of_matchHere ((Piece.matchHere_lit_append key _ _).trans hmatch)]
  exact congrArg some (int_fmtU n)

theorem searchCount_eq (key blanks : List Char) (hne : blanks ≠ []) (hb : ∀ x ∈ blanks, py.isSpace x = true) (n : ℕ) :
    py.searchCount key (key ++ (blanks ++ fmtU n)) = some n := by
  have hd : Piece.matchHere [.run py.isDigit true] (fmtU n ++ []) = some [fmtU n] :=
    matchHere_digits n (by simp) rfl
  have hmatch := matchHere_blanks hne hb (head_fmtU_append n []) hd
  rw [List.append_nil] at hmatch
  rw [searchCount, Piece.search_of_matchHere ((Piece.matchHere_lit_append key _ _).trans hmatch)]
  exact congrArg some (int_fmtU n)

end PyChars

variable {py : PyChars}

theorem stateOf_eq_none {line : List Char} (h : ¬ "state:".toList <:+: line) : stateOf py line = none :=
  if_neg fun hp => h hp.isInfix

/-- A line without the texts changes nothing. -/
theorem parseStatusLine_of_not_mentionsKey {line : List Char} (h : mentionsKey line = false) (r : StatusResult) :
    parseStatusLine py r line = r := by
  have hkey : ∀ key ∈ statusKeys, ¬ key <:+: line := by
    intro key hk hi
    rw [mentionsKey, decide_eq_false_iff_not] at h
    exact h ⟨key, hk, hi⟩
  rw [parseStatusLine, stateOf_eq_none (hkey _ (by decide)), PyChars.searchMs_eq_none (hkey _ (by decide)),
    PyChars.searchCount_eq_none (hkey _ (by decide)), PyChars.searchMs_eq_none (hkey _ (by decide)),
    PyChars.searchMs_eq_none (hkey _ (by decide)), PyChars.searchMs_eq_none (hkey _ (by decide))]
  rfl

/-- The run lemma: only the lines with one of the texts count. -/
theorem parseStatusOutput_eq_filter (lines : List (List Char)) :
    parseStatusOutput py lines = (lines.filter mentionsKey).foldl (parseStatusLine py) {} := by
  unfold parseStatusOutput
  generalize ({} : StatusResult) = r
  induction lines generalizing r with
  | nil => rfl
  | cons line lines ih =>
    rw [List.foldl_cons, ih]
    by_cases h : mentionsKey line = true
    · rw [List.filter_cons_of_pos h, List.foldl_cons]
    · rw [List.filter_cons_of_neg h, parseStatusLine_of_not_mentionsKey (Bool.not_eq_true _ ▸ h)]

/-! ## The lines of the report -/

/-- A line on a value, as it comes to the host. -/
def msText (label : List Char) (v : UInt32) : List Char :=
  label ++ (fmtU v.toNat ++ (" ms".toList ++ (" (".toList ++ (timeText v ++ [')']))))

theorem strip_msLine {label : List Char} (hhead : 32 < (label.headD ' ').toNat ∧ (label.headD ' ').toNat < 128) (v : UInt32) :
    py.strip (msLine label v) = msText label v := by
  have hne : label ≠ [] := by
    rintro rfl
    exact absurd hhead.1 (by decide)
  have hline : msLine label v = msText label v ++ ['\n'] := by
    rw [msLine, formatTime_eq (by decide)]
    simp [msText]
  have hparen : py.isSpace ')' = false := py.isSpace_ascii ')' (by decide)
  rw [hline]
  apply PyChars.strip_newline
  · simp [msText, hne]
  · rw [msText, List.head?_append_of_ne_nil _ hne]
    intro x hx
    rw [List.headD_eq_head?_getD, Option.mem_def.mp hx, Option.getD_some] at hhead
    obtain ⟨hgt, hlt⟩ := hhead
    rw [py.isSpace_ascii x hlt, decide_eq_false_iff_not]
    omega
  · intro x hx
    have hlast : msText label v = (label ++ (fmtU v.toNat ++ (" ms".toList ++ (" (".toList ++ timeText v)))) ++ [')'] := by
      simp [msText]
    rw [hlast, List.getLast?_concat] at hx
    obtain rfl : ')' = x := Option.some.inj hx
    exact hparen

/-- Apart from the label, a line on a value has only digits, the unit and the punctuation. -/
theorem not_mem_msText {x : Char} {label : List Char} (hl : x ∉ label) (hd : x.isDigit = false) (hp : x ∉ " ms (:.)".toList)
    (v : UInt32) : x ∉ msText label v := by
  intro hx
  have htime : x ∈ timeText v → _ := mem_timeText
  have hnum := not_mem_fmtU hd v.toNat
  simp [msText] at hx hp
  grind

/-- A pattern that has a letter of its own does not match a line on another value. -/
theorem searchMs_msText_eq_none (x : Char) {key label : List Char} (v : UInt32)
    (hx : x ∈ key ∧ x ∉ label ∧ x.isDigit = false ∧ x ∉ " ms (:.)".toList) : py.searchMs key (msText label v) = none := by
  obtain ⟨hk, hl, hd, hp⟩ := hx
  exact PyChars.searchMs_eq_none (PyChars.not_infix_of_not_mem hk (not_mem_msText hl hd hp v))

/-- The pattern of a line matches it: the label is the key and some blanks. -/
theorem searchMs_msText (key : List Char) (n : ℕ) (v : UInt32) :
    py.searchMs key (msText (key ++ List.replicate (n + 1) ' ') v) = some v.toNat := by
  rw [msText, List.append_assoc]
  apply PyChars.searchMs_eq (by simp)
  intro x hx
  rw [List.eq_of_mem_replicate hx]
  exact py.isSpace_ascii ' ' (by decide)

/-- A line on a value leaves the state and the number of laps. -/
theorem parseStatusLine_msText {label : List Char} (he : 'e' ∉ label) (hp : 'p' ∉ label) (r : StatusResult) (v : UInt32) :
    parseStatusLine py r (msText label v) =
      { r with
        totalMs := (py.searchMs "total:".toList (msText label v)).or r.totalMs
        minMs := (py.searchMs "min:".toList (msText label v)).or r.minMs
        maxMs := (py.searchMs "max:".toList (msText label v)).or r.maxMs
        avgMs := (py.searchMs "avg:".toList (msText label v)).or r.avgMs } := by
  have hstate : ¬ "state:".toList <:+: msText label v :=
    PyChars.not_infix_of_not_mem (x := 'e') (by decide) (not_mem_msText he (by decide) (by decide) v)
  have hlaps : ¬ "laps:".toList <:+: msText label v :=
    PyChars.not_infix_of_not_mem (x := 'p') (by decide) (not_mem_msText hp (by decide) (by decide) v)
  rw [parseStatusLine, stateOf_eq_none hstate, PyChars.searchCount_eq_none hlaps]
  rfl

theorem parseStatusLine_total (r : StatusResult) (v : UInt32) :
    parseStatusLine py r (msText "total: ".toList v) = { r with totalMs := some v.toNat } := by
  have h : py.searchMs "total:".toList (msText "total: ".toList v) = some v.toNat :=
    searchMs_msText "total:".toList 0 v
  rw [parseStatusLine_msText (by decide) (by decide), h,
    searchMs_msText_eq_none 'n' v (by decide),
    searchMs_msText_eq_none 'x' v (by decide),
    searchMs_msText_eq_none 'v' v (by decide)]
  rfl

theorem parseStatusLine_min (r : StatusResult) (v : UInt32) :
    parseStatusLine py r (msText "min:   ".toList v) = { r with minMs := some v.toNat } := by
  have h : py.searchMs "min:".toList (msText "min:   ".toList v) = some v.toNat :=
    searchMs_msText "min:".toList 2 v
  rw [parseStatusLine_msText (by decide) (by decide), h,
    searchMs_msText_eq_none 'o' v (by decide),
    searchMs_msText_eq_none 'x' v (by decide),
    searchMs_msText_eq_none 'v' v (by decide)]
  rfl

theorem parseStatusLine_max (r : StatusResult) (v : UInt32) :
    parseStatusLine py r (msText "max:   ".toList v) = { r with maxMs := some v.toNat } := by
  have h : py.searchMs "max:".toList (msText "max:   ".toList v) = some v.toNat :=
    searchMs_msText "max:".toList 2 v
  rw [parseStatusLine_msText (by decide) (by decide), h,
    searchMs_msText_eq_none 'o' v (by decide),
    searchMs_msText_eq_none 'n' v (by decide),
    searchMs_msText_eq_none 'v' v (by decide)]
  rfl

theorem parseStatusLine_avg (r : StatusResult) (v : UInt32) :
    parseStatusLine py r (msText "avg:   ".toList v) = { r with avgMs := some v.toNat } := by
  have h : py.searchMs "avg:".toList (msText "avg:   ".toList v) = some v.toNat :=
    searchMs_msText "avg:".toList 2 v
  rw [parseStatusLine_msText (by decide) (by decide), h,
    searchMs_msText_eq_none 'o' v (by decide),
    searchMs_msText_eq_none 'n' v (by decide),
    searchMs_msText_eq_none 'x' v (by decide)]
  rfl

/-- The line on the number of laps, as it comes to the host. -/
theorem strip_lapsLine (n : ℕ) : py.strip ("laps:  ".toList ++ fmtU n ++ ['\n']) = "laps:  ".toList ++ fmtU n := by
  apply PyChars.strip_newline
  · simp
  · rintro x ⟨⟩
    exact py.isSpace_ascii 'l' (by decide)
  · intro x hx
    rw [List.getLast?_append_of_ne_nil _ (fmtU_ne_nil n)] at hx
    exact PyChars.isSpace_of_isDigit (isDigit_of_mem_fmtU (List.mem_of_mem_getLast? hx))

theorem parseStatusLine_laps (r : StatusResult) (n : ℕ) :
    parseStatusLine py r ("laps:  ".toList ++ fmtU n) = { r with lapCount := some n } := by
  have hblank : ∀ x ∈ "  ".toList, py.isSpace x = true := by
    intro x hx
    obtain rfl : x = ' ' := by simpa using hx
    exact py.isSpace_ascii ' ' (by decide)
  have h : py.searchCount "laps:".toList ("laps:  ".toList ++ fmtU n) = some n :=
    PyChars.searchCount_eq "laps:".toList "  ".toList (by decide) hblank n
  have hother : ∀ x key, x ∈ key → x ∉ "laps:  ".toList → x.isDigit = false → ¬ key <:+: "laps:  ".toList ++ fmtU n := by
    intro x key hk hl hd
    exact PyChars.not_infix_of_not_mem hk (List.not_mem_append hl (not_mem_fmtU hd n))
  rw [parseStatusLine, h, stateOf_eq_none (hother 'e' _ (by decide) (by decide) (by decide)),
    PyChars.searchMs_eq_none (hother 'o' _ (by decide) (by decide) (by decide)),
    PyChars.searchMs_eq_none (hother 'n' _ (by decide) (by decide) (by decide)),
    PyChars.searchMs_eq_none (hother 'x' _ (by decide) (by decide) (by decide)),
    PyChars.searchMs_eq_none (hother 'v' _ (by decide) (by decide) (by decide))]
  rfl

/-- The line on the state, as it comes to the host. -/
theorem strip_stateLine (s : StopwatchState) :
    py.strip ("state: ".toList ++ stateName s ++ ['\n']) = "state: ".toList ++ stateName s := by
  apply PyChars.strip_newline
  · simp
  · rintro x ⟨⟩
    exact py.isSpace_ascii 's' (by decide)
  · intro x hx
    cases s
    all_goals
      obtain ⟨⟩ := hx
      exact py.isSpace_ascii _ (by decide)

theorem parseStatusLine_state (r : StatusResult) (s : StopwatchState) :
    parseStatusLine py r ("state: ".toList ++ stateName s) = { r with state := some (stateName s) } := by
  have hstate : stateOf py ("state: ".toList ++ stateName s) = some (stateName s) := by
    rw [stateOf, if_pos (by cases s <;> decide)]
    have hsplit : (("state: ".toList ++ stateName s).splitOn ':').getD 1 [] = [' '] ++ (stateName s ++ []) := by
      cases s <;> decide
    have hspace : py.isSpace ' ' = true := py.isSpace_ascii ' ' (by decide)
    rw [hsplit, PyChars.strip_eq (by simpa using hspace) (by simp)]
    · cases s <;> decide
    all_goals
      intro x hx
      cases s
      all_goals
        obtain ⟨⟩ := hx
        exact py.isSpace_ascii _ (by decide)
  have hother : ∀ x key, x ∈ key → x ∉ "state: ".toList ++ stateName s → ¬ key <:+: "state: ".toList ++ stateName s :=
    fun x key hk hl => PyChars.not_infix_of_not_mem hk hl
  rw [parseStatusLine, hstate, PyChars.searchMs_eq_none (hother 'o' _ (by decide) (by cases s <;> decide)),
    PyChars.searchCount_eq_none (hother 'p' _ (by decide) (by cases s <;> decide)),
    PyChars.searchMs_eq_none (hother 'n' _ (by decide) (by cases s <;> decide)),
    PyChars.searchMs_eq_none (hother 'x' _ (by decide) (by cases s <;> decide)),
    PyChars.searchMs_eq_none (hother 'v' _ (by decide) (by cases s <;> decide))]
  rfl

/-- The host recovers the report. For every world and for all lines of which those that have one of the host's texts in them are
the lines that `cmd_sw_status` prints there, stripped: `parse_status_output` gives the name of the state, the total and the number
of laps, and, exactly when there are laps, their minimum, maximum and average, as the device computes them. -/
theorem status_report_round_trip (py : PyChars) (w : World c) (lines : List (List Char))
    (h : lines.filter mentionsKey = (printed (cmdSwStatus.acts Act.perform w)).map py.strip) :
    let cnt := stopwatchGetLapCount w.sw
    let st := ((readLapStats cnt.toNat 0 LapStats.init).exec Act.perform w).1
    parseStatusOutput py lines =
      { state := some (stateName (stopwatchGetState w.sw))
        totalMs := some (stopwatchGetTotalMs boardPlatform w.sw w.board).1.toNat
        lapCount := some cnt.toNat
        minMs := if 0 < cnt then some st.minMs.toNat else none
        maxMs := if 0 < cnt then some st.maxMs.toNat else none
        avgMs := if 0 < cnt then some (st.sumMs / cnt.toUInt32).toNat else none } := by
  intro cnt st
  have hst : st = statsOf (heldLaps w.sw) := congrArg Prod.fst (exec_readLapStats_all w)
  rw [parseStatusOutput_eq_filter, h, printed_cmdSwStatus, statusReport, hst]
  by_cases hcnt : 0 < cnt
  · rw [if_pos hcnt, if_pos hcnt, if_pos hcnt, if_pos hcnt]
    simp only [List.map_cons, List.map_nil, List.cons_append, List.nil_append, List.foldl_cons, List.foldl_nil]
    rw [strip_stateLine, parseStatusLine_state, strip_msLine (by decide), parseStatusLine_total, strip_lapsLine,
      parseStatusLine_laps, strip_msLine (by decide), parseStatusLine_min, strip_msLine (by decide),
      parseStatusLine_max, strip_msLine (by decide), parseStatusLine_avg]
  · rw [if_neg hcnt, if_neg hcnt, if_neg hcnt, if_neg hcnt]
    simp only [List.map_cons, List.map_nil, List.append_nil, List.foldl_cons, List.foldl_nil]
    rw [strip_stateLine, parseStatusLine_state, strip_msLine (by decide), parseStatusLine_total, strip_lapsLine,
      parseStatusLine_laps]

/-- A stopwatch with two laps, and a console that shows the command, the report and the prompt. -/
theorem status_report_round_trip_two_laps :
    let es : List (Op × Reading) := [(.start, ⟨1, 0⟩), (.lap, ⟨3000001, 3000⟩), (.lap, ⟨4000001, 4000⟩), (.stop, ⟨5000001, 5000⟩)]
    let w : World Config.standard := { World.boot Config.standard 72000000 with sw := Stopwatch.after Config.standard es }
    parseStatusOutput PyChars.ascii
        ("msh >sw_status".toList :: (printed (cmdSwStatus.acts Act.perform w)).map PyChars.ascii.strip ++ ["msh >".toList]) =
      { state := some "PAUSED".toList, totalMs := some 5000, lapCount := some 2, minMs := some 1000, maxMs := some 3000,
        avgMs := some 2000 } := by
  intro es w
  rw [status_report_round_trip PyChars.ascii w _ (by decide)]
  decide

end RtStopwatch
