import RtStopwatch.Csv
import RtStopwatch.Lemmas.Host

/-!
# The CSV stream, on the device and on the host

The loop of `test_csv_stability` collects the times of all rows of the stream, however it is cut into chunks
(`csv_stream_decoded`). Between the two ends stand the lines of the stream, `CsvLine`: the timer prints them, and from each the
host takes a time if it is a row and nothing if it is a header, the first one by its own test and the others because `int` fails.
-/

namespace RtStopwatch

open Lib

/-- A line of the stream. -/
inductive CsvLine where
  | header
  | row (t : UInt32) (n : UInt16) (lap : UInt32)

namespace CsvLine

/-- The names of the columns. -/
def columns : List Char := "t,lap_idx,lap_ms,total".toList

/-- The line without its end. -/
def chars : CsvLine → List Char
  | .header => columns
  | .row t n lap => fmtU t.toNat ++ ',' :: (fmtU n.toNat ++ ',' :: (fmtU lap.toNat ++ ',' :: fmtU t.toNat))

/-- The line as it is printed. -/
def text (l : CsvLine) : List Char := l.chars ++ ['\n']

/-- The time in it. -/
def time? : CsvLine → Option ℤ
  | .header => none
  | .row t _ _ => some (t.toNat : ℤ)

end CsvLine

/-- The time of a row that an event prints. -/
def CsvEvent.time? : CsvEvent → Option ℤ
  | .headerOn => none
  | .tick t _ _ => some (t.toNat : ℤ)

/-! ## The device -/

/-- The lines that the events print, when `csv_header` has the given value before. -/
def csvLines : Bool → List CsvEvent → List CsvLine
  | _, [] => []
  | _, .headerOn :: es => csvLines true es
  | header, .tick t n latest :: es =>
    (if header then [.header] else []) ++ .row t n (if n > 0 then latest else 0) :: csvLines false es

theorem csvTimerCb_of_ms {s : Csv} (hms : s.csvHuman = false) (t : UInt32) (n : UInt16) (latest : UInt32) :
    csvTimerCb s t n latest =
      ((if s.csvHeader then [CsvLine.header.text] else []) ++ [(CsvLine.row t n (if n > 0 then latest else 0)).text],
        { s with csvHeader := false }) := by
  have hrow : ∀ lap, csvRowMs t n lap = (CsvLine.row t n lap).text := by
    intro lap
    simp [csvRowMs, CsvLine.text, CsvLine.chars]
  have hheader : csvHeaderText = CsvLine.header.text := by decide
  rw [csvTimerCb, hms, hheader, ← hrow]
  rfl

/-- In ms mode the device prints these lines. -/
theorem outs_csvMachine {s : Csv} (hms : s.csvHuman = false) (es : List CsvEvent) :
    (csvMachine.outs s es).flatten = (csvLines s.csvHeader es).map CsvLine.text := by
  induction es generalizing s with
  | nil => rfl
  | cons e es ih =>
    rw [Machine.outs_cons, List.flatten_cons]
    cases e with
    | headerOn => exact ih (s := { s with csvHeader := true }) hms
    | tick t n latest =>
      have hstep : csvMachine.step s (.tick t n latest) = _ := csvTimerCb_of_ms hms t n latest
      have hrest := ih (s := { s with csvHeader := false }) hms
      rw [hstep, hrest, csvLines]
      cases s.csvHeader
      · rfl
      · rfl

/-- The times in the lines are those of the events. -/
theorem filterMap_csvLines (header : Bool) (es : List CsvEvent) :
    (csvLines header es).filterMap CsvLine.time? = es.filterMap CsvEvent.time? := by
  induction es generalizing header with
  | nil => rfl
  | cons e es ih =>
    cases e with
    | headerOn => exact ih true
    | tick t n latest =>
      have hheader : (if header then [CsvLine.header] else []).filterMap CsvLine.time? = [] := by
        cases header
        · rfl
        · rfl
      rw [csvLines, List.filterMap_append, hheader, List.nil_append, List.filterMap_cons, List.filterMap_cons, ih]
      rfl

/-! ## The wire -/

/-- A line has nothing but graphic characters of ASCII. -/
theorem CsvLine.mem_chars (l : CsvLine) {x : Char} (h : x ∈ l.chars) : 32 < x.toNat ∧ x.toNat < 127 := by
  cases l with
  | header =>
    have hall : (columns.all fun x => decide (32 < x.toNat ∧ x.toNat < 127)) = true := by decide
    rw [chars] at h
    exact of_decide_eq_true (List.all_eq_true.mp hall x h)
  | row t n lap =>
    have hdigit : ∀ k, x ∈ fmtU k → 32 < x.toNat ∧ x.toNat < 127 := by
      intro k hk
      have := toNat_of_isDigit (isDigit_of_mem_fmtU hk)
      omega
    simp only [chars, List.mem_append, List.mem_cons] at h
    rcases h with h | rfl | h | rfl | h | rfl | h
    · exact hdigit _ h
    · decide
    · exact hdigit _ h
    · decide
    · exact hdigit _ h
    · decide
    · exact hdigit _ h

theorem CsvLine.chars_ne_nil (l : CsvLine) : l.chars ≠ [] := by
  cases l with
  | header => decide
  | row t n lap => simp [chars]

theorem CsvLine.newline_not_mem (l : CsvLine) : '\n' ∉ l.chars := by
  intro h
  exact absurd (l.mem_chars h).1 (by decide)

/-- The line as it is on the wire, up to the LF. -/
def rawLine (crlf : Bool) (l : CsvLine) : List Char := l.chars ++ if crlf then ['\r'] else []

theorem mem_rawLine {crlf : Bool} {l : CsvLine} {x : Char} (h : x ∈ rawLine crlf l) : x ∈ l.chars ∨ x = '\r' := by
  cases crlf with
  | false => exact Or.inl (by simpa [rawLine] using h)
  | true => simpa [rawLine] using h

/-- The lines as they are on the wire. -/
def rawLines (crlf : ℕ → Bool) (ls : List CsvLine) : List (List Char) := ls.mapIdx fun k l => rawLine (crlf k) l

theorem rawLines_cons (crlf : ℕ → Bool) (l : CsvLine) (ls : List CsvLine) :
    rawLines crlf (l :: ls) = rawLine (crlf 0) l :: rawLines (fun k => crlf (k + 1)) ls := List.mapIdx_cons

theorem exists_of_mem_rawLines {crlf : ℕ → Bool} {ls : List CsvLine} {line : List Char} (h : line ∈ rawLines crlf ls) :
    ∃ k l, line = rawLine (crlf k) l := by
  obtain ⟨k, hk, rfl⟩ := List.mem_mapIdx.mp h
  exact ⟨k, _, rfl⟩

theorem newline_not_mem_rawLines {crlf : ℕ → Bool} {ls : List CsvLine} : ∀ line ∈ rawLines crlf ls, '\n' ∉ line := by
  intro line hl h
  obtain ⟨k, l, rfl⟩ := exists_of_mem_rawLines hl
  rcases mem_rawLine h with h | h
  · exact l.newline_not_mem h
  · exact absurd h (by decide)

/-- What goes over the wire is ASCII. -/
theorem ascii_rawLines {crlf : ℕ → Bool} {ls : List CsvLine} :
    ∀ x ∈ (rawLines crlf ls).flatMap fun line => line ++ ['\n'], x.toNat < 128 := by
  intro x hx
  obtain ⟨line, hl, hx⟩ := List.mem_flatMap.mp hx
  obtain ⟨k, l, rfl⟩ := exists_of_mem_rawLines hl
  rcases List.mem_append.mp hx with hx | hx
  · rcases mem_rawLine hx with hx | rfl
    · have := l.mem_chars hx
      omega
    · decide
  · rw [List.mem_singleton.mp hx]
    decide

/-- A character as a byte. -/
def charByte (x : Char) : UInt8 := UInt8.ofNat x.toNat

theorem wireBytes_text (crlf : Bool) (l : CsvLine) : wireBytes crlf l.text = (rawLine crlf l ++ ['\n']).map charByte := by
  have hline : wireBytes crlf l.chars = l.chars.map charByte := by
    rw [wireBytes, List.map_eq_flatMap]
    apply List.flatMap_congr
    intro x hx
    rw [if_neg]
    · rfl
    · rintro ⟨rfl, -⟩
      exact l.newline_not_mem hx
  have happ : wireBytes crlf l.text = wireBytes crlf l.chars ++ wireBytes crlf ['\n'] := List.flatMap_append
  rw [happ, hline]
  cases crlf
  · simp [rawLine, wireBytes, charByte]
  · simp [rawLine, wireBytes, charByte]

/-- The stream is made of the raw lines. -/
theorem wire_text (crlf : ℕ → Bool) (ls : List CsvLine) :
    wire crlf (ls.map CsvLine.text) =
      ((rawLines crlf ls).flatMap fun line => line ++ ['\n']).map charByte := by
  induction ls generalizing crlf with
  | nil => rfl
  | cons l ls ih =>
    have hrest := ih fun k => crlf (k + 1)
    rw [wire] at hrest
    rw [wire, List.map_cons, List.mapIdx_cons, List.flatten_cons, wireBytes_text, hrest, rawLines_cons, List.flatMap_cons,
      ← List.map_append]

theorem charByte_toNat {x : Char} (h : x.toNat < 128) : (charByte x).toNat = x.toNat :=
  UInt8.toNat_ofNat_of_lt' (h.trans (by decide))

/-- Decoded chunk by chunk, an ASCII text is itself. -/
theorem flatten_map_decode (py : PyHost) {text : List Char} (hascii : ∀ x ∈ text, x.toNat < 128) {chunks : List (List UInt8)}
    (h : chunks.flatten = text.map charByte) : (chunks.map py.decode).flatten = text := by
  have hbytes : ∀ chunk ∈ chunks, ∀ b ∈ chunk, b.toNat < 128 := by
    intro chunk hchunk b hb
    have hmem : b ∈ text.map charByte := h ▸ List.mem_flatten.mpr ⟨chunk, hchunk, hb⟩
    obtain ⟨x, hx, rfl⟩ := List.mem_map.mp hmem
    rw [charByte_toNat (hascii x hx)]
    exact hascii x hx
  have hdecode : chunks.map py.decode = chunks.map (List.map fun b => Char.ofNat b.toNat) :=
    List.map_congr_left fun chunk hchunk => py.decode_ascii chunk (hbytes chunk hchunk)
  rw [hdecode, ← List.map_flatten, h, List.map_map]
  conv => rhs; rw [← List.map_id text]
  apply List.map_congr_left
  intro x hx
  rw [Function.comp_apply, charByte_toNat (hascii x hx), Char.ofNat_toNat]
  rfl

/-! ## The host -/

variable {py : PyChars}

theorem strip_rawLine (crlf : Bool) (l : CsvLine) : py.strip (rawLine crlf l) = l.chars := by
  have hspace : ∀ x ∈ l.chars, py.isSpace x = false := by
    intro x hx
    obtain ⟨hgt, hlt⟩ := l.mem_chars hx
    rw [py.isSpace_ascii x (by omega), decide_eq_false_iff_not]
    omega
  apply PyChars.strip_append
  · intro x hx
    cases crlf with
    | false => simp at hx
    | true =>
      obtain rfl : x = '\r' := by simpa using hx
      exact py.isSpace_ascii '\r' (by decide)
  · exact l.chars_ne_nil
  · exact fun x hx => hspace x (List.mem_of_mem_head? hx)
  · exact fun x hx => hspace x (List.mem_of_mem_getLast? hx)

/-- The fields of a row. -/
theorem splitOn_row (t : UInt32) (n : UInt16) (lap : UInt32) :
    (CsvLine.row t n lap).chars.splitOn ',' = [fmtU t.toNat, fmtU n.toNat, fmtU lap.toNat, fmtU t.toNat] := by
  have hcomma : ∀ k, ',' ∉ fmtU k := not_mem_fmtU rfl
  exact splitOn_fields (hcomma _) (hcomma _) (hcomma _) (hcomma _)

/-- The first field of a header is no number. -/
theorem intOf_t : py.intOf ['t'] = none := by
  have hspace : py.isIntSpace 't' = false := PyChars.isIntSpace_eq_false (py.isSpace_ascii 't' (by decide))
  have hdigit : py.isDigit 't' = false := PyChars.isDigit_ascii (by decide) (by decide)
  have hgroups : ['t'].splitOn '_' = [['t']] := by decide
  have hdigits : py.intDigits ['t'] = none := by
    simp [PyChars.intDigits, hgroups, hdigit]
  simp [PyChars.intOf, List.rdropWhile, hspace, hdigits]

/-- A row does not begin like a header. -/
theorem t_not_mem_row (t : UInt32) (n : UInt16) (lap : UInt32) : 't' ∉ (CsvLine.row t n lap).chars := by
  simp [CsvLine.chars, not_mem_fmtU (x := 't') rfl]

/-- The step: the host takes the time of a row, and none from a header, whether it has seen one before or not. -/
theorem timestamps_collectLine (s : Collected) (crlf : Bool) (l : CsvLine) :
    (collectLine py s (rawLine crlf l)).timestamps = s.timestamps ++ l.time?.toList := by
  have hblank : ' ' ∉ l.chars := fun h => absurd (l.mem_chars h).1 (by decide)
  have hprompt : ¬ "msh >".toList <:+: l.chars := PyChars.not_infix_of_not_mem (x := ' ') (by decide) hblank
  rw [collectLine, strip_rawLine, if_neg (not_or.mpr ⟨l.chars_ne_nil, hprompt⟩)]
  cases l with
  | header =>
    have hlength : 4 ≤ (CsvLine.header.chars.splitOn ',').length := by decide
    have hfirst : (CsvLine.header.chars.splitOn ',').getD 0 [] = ['t'] := by decide
    split
    · simp [CsvLine.time?]
    · rw [if_pos hlength, hfirst, intOf_t]
      simp [CsvLine.time?]
  | row t n lap =>
    have hfirst : ¬(s.headerSeen = false ∧ "t,".toList <+: (CsvLine.row t n lap).chars) := by
      rintro ⟨-, hp⟩
      exact t_not_mem_row t n lap (hp.subset (by decide))
    rw [if_neg hfirst, splitOn_row]
    simp [PyChars.intOf_fmtU, CsvLine.time?]

/-- The run: the host takes the times of the rows, in order. -/
theorem timestamps_foldl_collectLine (s : Collected) (crlf : ℕ → Bool) (ls : List CsvLine) :
    ((rawLines crlf ls).foldl (collectLine py) s).timestamps = s.timestamps ++ ls.filterMap CsvLine.time? := by
  induction ls generalizing s crlf with
  | nil => exact (List.append_nil _).symm
  | cons l ls ih =>
    have hrest := ih (collectLine py s (rawLine (crlf 0) l)) fun k => crlf (k + 1)
    rw [rawLines_cons, List.foldl_cons, hrest, timestamps_collectLine, List.append_assoc]
    cases l with
    | header => rfl
    | row t n lap => rfl

theorem collectCsv_eq_drain (py : PyHost) (chunks : List (List UInt8)) :
    collectCsv py chunks = drain '\n' (collectLine py.toPyChars) {} (chunks.map py.decode).flatten := by
  have hfold := foldl_drain '\n' (collectLine py.toPyChars) {} [] (chunks.map py.decode)
  rw [drain_of_not_mem _ _ (by simp), List.foldl_map, List.nil_append] at hfold
  exact hfold

/-- The CSV stream is decoded without loss, for any chunking. From any state of the device in ms mode, for every sequence of timer
callbacks and switches of the header, every choice of LF or CRLF for each line and every way to cut the bytes of the stream into
chunks: once all chunks are read, the loop of `test_csv_stability` has collected the times of all rows, in order, and nothing
else. -/
theorem csv_stream_decoded (py : PyHost) (s : Csv) (hms : s.csvHuman = false) (es : List CsvEvent) (crlf : ℕ → Bool)
    (chunks : List (List UInt8)) (hcut : chunks.flatten = wire crlf (csvMachine.outs s es).flatten) :
    (collectCsv py chunks).1.timestamps = es.filterMap CsvEvent.time? := by
  rw [outs_csvMachine hms, wire_text] at hcut
  rw [collectCsv_eq_drain, flatten_map_decode py ascii_rawLines hcut, drain_lines _ _ newline_not_mem_rawLines,
    timestamps_foldl_collectLine, filterMap_csvLines]
  rfl

/-- Python on ASCII bytes. -/
def PyHost.ascii : PyHost where
  toPyChars := PyChars.ascii
  decode bytes := (bytes.filter fun b => b.toNat < 128).map fun b => Char.ofNat b.toNat
  decode_ascii bytes h := by
    rw [List.filter_eq_self.mpr]
    simpa using h

/-- The header switched on twice, lines that end in CRLF, and cuts inside a line end, a header and a number. -/
theorem csv_stream_decoded_two_headers :
    (collectCsv PyHost.ascii
        (["t,lap_idx,lap_ms,total\r".toList, "\n12".toList, "34,0,0,1234\r\nt,l".toList, "ap_idx,lap_ms,total\r\n42949".toList,
          "67295,2,77,4294967295\r\n".toList].map fun text => text.map charByte)).1.timestamps =
      [1234, 4294967295] :=
  csv_stream_decoded PyHost.ascii Csv.boot rfl [.headerOn, .tick 1234 0 0, .headerOn, .headerOn, .tick 4294967295 2 77]
    (fun _ => true) _ (by decide)

end RtStopwatch
