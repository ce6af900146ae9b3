import RtStopwatch.Cli
import RtStopwatch.Csv
import RtStopwatch.Lemmas.PageTexts
import RtStopwatch.Theorems.Printf

/-!
# The texts of the application, through the formatter

Every call of `rt_snprintf` and `rt_kprintf` in `ui_oled.c` and `stopwatch_cli.c` that has a conversion, with its format string and its
arguments as the source has them: the kernel's formatter leaves in the buffer, or sends to the console, the very text that the model of
the application says (`format_calls`).
-/

namespace RtStopwatch

open Lib Lib.Printf

/-- A call of `rt_snprintf` leaves this text in its buffer, terminated, and what is behind the buffer alone. -/
def SnprintfGives (size : ℕ) (fmt : List Char) (args : List Arg) (result : List Char) : Prop :=
  ∀ buf : ℕ → Char, 0 < size → ∃ buf' n, rtVsnprintf buf size fmt args = some (buf', n) ∧
    (List.range (result.length + 1)).map buf' = result ++ [nul] ∧ ∀ k, size ≤ k → buf' k = buf k

/-- A call of `rt_kprintf` sends this text to the console. -/
def KprintfGives (fmt : List Char) (args : List Arg) (result : List Char) : Prop :=
  ∀ buf : ℕ → Char, ∃ buf', rtKprintf buf fmt args = some (result, buf')

/-! ## The directives in use -/

/-- `%u`. -/
def pieceU : Piece := .directive ⟨[], .free, .free, .word, .u⟩

/-- `%0wu`. -/
def piece0U (w : ℕ) (hw : 0 < w) : Piece := .directive ⟨[.zero], .fixed w hw, .free, .word, .u⟩

/-- `%d`. -/
def pieceD : Piece := .directive ⟨[], .free, .free, .word, .d⟩

/-- `%s`. -/
def pieceS : Piece := .directive ⟨[], .free, .free, .word, .s⟩

/-- Characters other than `%`. -/
def pieces (l : List Char) : List Piece := l.map .char

theorem one_sub_length_toDigits (n : ℕ) : 1 - (Nat.toDigits 10 n).length = 0 := by
  have hpos : 0 < (Nat.toDigits 10 n).length := List.length_pos_iff.mpr Nat.toDigits_ne_nil
  omega

theorem textOf_char (x : Char) (ps : List Piece) (args : List Arg) :
    textOf (.char x :: ps) args = (textOf ps args).map (x :: ·) := by
  cases h : textOf ps args with
  | none => simp [textOf, h]
  | some t => simp [textOf, h]

theorem textOf_pieces (l : List Char) (ps : List Piece) (args : List Arg) :
    textOf (pieces l ++ ps) args = (textOf ps args).map (l ++ ·) := by
  induction l with
  | nil => simp [pieces]
  | cons x l ih =>
    rw [pieces, List.map_cons, List.cons_append, textOf_char]
    rw [pieces] at ih
    simp [ih, Function.comp_def]

theorem textOf_pieces_nil (l : List Char) (args : List Arg) : textOf (pieces l) args = some l := by
  simpa [textOf] using textOf_pieces l [] args

theorem textOf_directive (d : Directive) (ps : List Piece) {args args' : List Arg} {text : List Char} (h : d.text args = some (text, args')) :
    textOf (.directive d :: ps) args = (textOf ps args').map (text ++ ·) := by
  cases ht : textOf ps args' with
  | none => simp [textOf, h, ht]
  | some t => simp [textOf, h, ht]

theorem textOf_u (w : UInt32) (ps : List Piece) (args : List Arg) :
    textOf (pieceU :: ps) (.word w :: args) = (textOf ps args).map (fmtU w.toNat ++ ·) := by
  refine textOf_directive _ _ ?_
  simp [Directive.text, Directive.field, Width.value, Precision.value, Directive.convert, Field.number, Field.digits, Field.pad,
    Qualifier.unsigned, one_sub_length_toDigits, List.leftpad, fmtU]

theorem textOf_0u {k : ℕ} (hk : 0 < k) (w : UInt32) (ps : List Piece) (args : List Arg) :
    textOf (piece0U k hk :: ps) (.word w :: args) = (textOf ps args).map (fmt0U k w.toNat ++ ·) := by
  refine textOf_directive _ _ ?_
  simp [Directive.text, Directive.field, Width.value, Precision.value, Directive.convert, Field.number, Field.digits,
    Qualifier.unsigned, one_sub_length_toDigits, fmt0U, fmtU]

theorem textOf_d (w : UInt32) (ps : List Piece) (args : List Arg) :
    textOf (pieceD :: ps) (.word w :: args) = (textOf ps args).map (fmtD w.toInt32.toInt ++ ·) := by
  refine textOf_directive _ _ ?_
  by_cases h : w.toInt32.toInt < 0
  · simp [Directive.text, Directive.field, Width.value, Precision.value, Directive.convert, Field.number, Field.digits, Field.pad,
      Field.sign, Qualifier.signed, one_sub_length_toDigits, List.leftpad, fmtD, fmtU, h]
  · simp [Directive.text, Directive.field, Width.value, Precision.value, Directive.convert, Field.number, Field.digits, Field.pad,
      Field.sign, Qualifier.signed, one_sub_length_toDigits, List.leftpad, fmtD, fmtU, h]

theorem textOf_s (s : List Char) (ps : List Piece) (args : List Arg) :
    textOf (pieceS :: ps) (.str (some s) :: args) = (textOf ps args).map (s ++ ·) := by
  refine textOf_directive _ _ ?_
  simp [Directive.text, Directive.field, Width.value, Precision.value, Directive.convert, Field.pad, List.leftpad]

theorem formatAsInC_pieces (l : List Char) (ps : List Piece) (args : List Arg) :
    formatAsInC (pieces l ++ ps) args = formatAsInC ps args := by
  induction l with
  | nil => rfl
  | cons x l ih => exact ih

@[simp] theorem source_char {x : Char} (hx : x ≠ '%') : (Piece.char x).source = [x] := if_neg hx

@[simp] theorem source_pieces {l : List Char} (hl : '%' ∉ l) : (pieces l).flatMap Piece.source = l := by
  induction l with
  | nil => rfl
  | cons x l ih =>
    obtain ⟨hx, hl⟩ := not_or.mp (List.mem_cons.not.mp hl)
    rw [pieces] at ih
    rw [pieces, List.map_cons, List.flatMap_cons, source_char (Ne.symm hx), ih hl]
    rfl

@[simp] theorem source_pieceU : pieceU.source = ['%', 'u'] := rfl

@[simp] theorem source_piece0U_two : (piece0U 2 (by decide)).source = ['%', '0', '2', 'u'] := by decide

@[simp] theorem source_piece0U_three : (piece0U 3 (by decide)).source = ['%', '0', '3', 'u'] := by decide

@[simp] theorem source_pieceD : pieceD.source = ['%', 'd'] := rfl

@[simp] theorem source_pieceS : pieceS.source = ['%', 's'] := rfl

/-! ## The calls -/

/-- Through the pieces of the format. -/
theorem snprintfGives_of (ps : List Piece) {size : ℕ} {fmt : List Char} {args : List Arg} {text result : List Char}
    (hfmt : ps.flatMap Piece.source = fmt) (htext : textOf ps args = some text) (hex : formatAsInC ps args = true)
    (hresult : result = rtSnprintf size text) : SnprintfGives size fmt args result := by
  intro buf hpos
  obtain ⟨buf', hrun, hprints⟩ := rt_vsnprintf_refines ps args text htext hex buf size
  rw [hfmt] at hrun
  exact ⟨buf', text.length, hrun, hresult ▸ hprints.holds hpos, hprints.frame⟩

theorem kprintfGives_of (ps : List Piece) {fmt : List Char} {args : List Arg} {text : List Char} (hfmt : ps.flatMap Piece.source = fmt)
    (htext : textOf ps args = some text) (hex : formatAsInC ps args = true) (hlen : text.length < 255) : KprintfGives fmt args text := by
  intro buf
  obtain ⟨buf', hrun⟩ := rt_kprintf_text ps args text htext hex buf
  rw [hfmt, if_pos hlen] at hrun
  exact ⟨buf', hrun⟩

theorem gives_formatTimeMs (totalMs : UInt32) (bufLen : ℕ) :
    SnprintfGives bufLen "%02u:%02u.%02u".toList
      [.word (totalMs / 60000), .word (totalMs / 1000 % 60), .word (totalMs / 10 % 100)] (formatTimeMs totalMs bufLen) := by
  refine snprintfGives_of [piece0U 2 (by decide), .char ':', piece0U 2 (by decide), .char '.', piece0U 2 (by decide)] ?_ ?_ rfl rfl
  · simp
  · simp [textOf_0u, textOf]

theorem gives_formatTime (totalMs : UInt32) (bufLen : ℕ) :
    SnprintfGives bufLen (if totalMs / 3600000 > 0 then "%02u:%02u:%02u.%03u".toList else "%02u:%02u.%03u".toList)
      ((if totalMs / 3600000 > 0 then [.word (totalMs / 3600000)] else []) ++
        [.word (totalMs / 60000 % 60), .word (totalMs / 1000 % 60), .word (totalMs % 1000)]) (formatTime totalMs bufLen) := by
  by_cases h : totalMs / 3600000 > 0
  · simp only [formatTime, h, if_true]
    refine snprintfGives_of [piece0U 2 (by decide), .char ':', piece0U 2 (by decide), .char ':', piece0U 2 (by decide), .char '.',
      piece0U 3 (by decide)] ?_ ?_ rfl rfl
    · simp
    · simp [textOf_0u, textOf]
  · simp only [formatTime, h, if_false]
    refine snprintfGives_of [piece0U 2 (by decide), .char ':', piece0U 2 (by decide), .char '.', piece0U 3 (by decide)] ?_ ?_ rfl rfl
    · simp
    · simp [textOf_0u, textOf]

theorem gives_lapLine (idx : UInt16) (ms : UInt32) :
    SnprintfGives 24 "#%u %s".toList [.word (idx.toUInt32 + 1), .str (some (formatTimeMs ms 16))] (lapLine idx ms) := by
  have hidx : (idx.toUInt32 + 1).toNat = idx.toNat + 1 := by
    have hone : (1 : UInt32).toNat = 1 := rfl
    have hlt := idx.toNat_lt
    rw [UInt32.toNat_add, UInt16.toNat_toUInt32, hone]
    omega
  refine snprintfGives_of [.char '#', pieceU, .char ' ', pieceS] ?_ ?_ rfl rfl
  · simp
  · simp [hidx, textOf_u, textOf_s, textOf]

theorem gives_statLine (st : LapStats) (cnt : UInt16) :
    SnprintfGives 24 "m%u M%u a%u".toList [.word st.minMs, .word st.maxMs, .word (st.sumMs / cnt.toUInt32)] (statLine st cnt) := by
  refine snprintfGives_of [.char 'm', pieceU, .char ' ', .char 'M', pieceU, .char ' ', .char 'a', pieceU] ?_ ?_ rfl rfl
  · simp
  · simp [textOf_u, textOf]

theorem length_fmtU_toNat (w : UInt32) : (fmtU w.toNat).length ≤ 10 :=
  length_fmtU_le (by decide) (w.toNat_lt.trans (by decide))

theorem length_formatTime (w : UInt32) : (formatTime w 24).length ≤ 23 := by
  rw [formatTime_eq_rtSnprintf, rtSnprintf, List.length_take]
  exact Nat.min_le_left _ _

theorem length_msLine {label : List Char} (h : label.length ≤ 7) (v : UInt32) : (msLine label v).length < 255 := by
  have h1 := length_fmtU_toNat v
  have h2 := length_formatTime v
  simp only [msLine, List.length_append]
  simp
  omega

/-- The lines of the report. -/
theorem gives_msLine {label : List Char} (hlabel : '%' ∉ label) (h : label.length ≤ 7) (v : UInt32) :
    KprintfGives (label ++ "%u ms (%s)\n".toList) [.word v, .str (some (formatTime v 24))] (msLine label v) := by
  refine kprintfGives_of (pieces label ++ (pieceU :: (pieces " ms (".toList ++ (pieceS :: pieces ")\n".toList)))) ?_ ?_ ?_
    (length_msLine h v)
  · simp [hlabel]
  · simp [msLine, textOf_pieces, textOf_pieces_nil, textOf_u, textOf_s]
  · simp only [formatAsInC_pieces]
    rfl

theorem gives_state (s : StopwatchState) :
    KprintfGives "state: %s\n".toList [.str (some (stateName s))] ("state: ".toList ++ stateName s ++ ['\n']) := by
  refine kprintfGives_of (pieces "state: ".toList ++ [pieceS, .char '\n']) ?_ ?_ rfl ?_
  · simp
  · simp [textOf_pieces, textOf_s, textOf]
  · cases s with
    | idle | running | paused => decide

theorem gives_laps (cnt : UInt16) :
    KprintfGives "laps:  %u\n".toList [.word cnt.toUInt32] ("laps:  ".toList ++ fmtU cnt.toNat ++ ['\n']) := by
  have h := length_fmtU_toNat cnt.toUInt32
  refine kprintfGives_of (pieces "laps:  ".toList ++ [pieceU, .char '\n']) ?_ ?_ rfl ?_
  · simp
  · simp [textOf_pieces, textOf_u, textOf]
  · simp at h ⊢
    omega

theorem gives_lap (lapMs : UInt32) :
    KprintfGives "sw: lap=%02u:%02u.%02u\n".toList
      [.word (lapMs / 60000 % 100), .word (lapMs / 1000 % 60), .word (lapMs / 10 % 100)] (lapText lapMs) := by
  have h : ∀ w : UInt32, (fmt0U 2 w.toNat).length ≤ 10 := fun w =>
    length_decimal_le (by decide) (by decide) (w.toNat_lt.trans (by decide))
  refine kprintfGives_of (pieces "sw: lap=".toList ++
    [piece0U 2 (by decide), .char ':', piece0U 2 (by decide), .char '.', piece0U 2 (by decide), .char '\n']) ?_ ?_ rfl ?_
  · simp
  · unfold lapText
    generalize "sw: lap=".toList = label
    simp [textOf_pieces, textOf_0u, textOf]
  · have hlabel : "sw: lap=".toList.length = 8 := by decide
    have h1 := h (lapMs / 60000 % 100)
    have h2 := h (lapMs / 1000 % 60)
    have h3 := h (lapMs / 10 % 100)
    unfold lapText
    generalize "sw: lap=".toList = label at hlabel ⊢
    simp only [List.length_append, List.length_cons, List.length_nil, hlabel]
    omega

theorem gives_csvRowMs (t : UInt32) (n : UInt16) (lap : UInt32) :
    KprintfGives "%u,%u,%u,%u\n".toList [.word t, .word n.toUInt32, .word lap, .word t] (csvRowMs t n lap) := by
  have h1 := length_fmtU_toNat t
  have h2 := length_fmtU_toNat n.toUInt32
  have h3 := length_fmtU_toNat lap
  refine kprintfGives_of [pieceU, .char ',', pieceU, .char ',', pieceU, .char ',', pieceU, .char '\n'] ?_ ?_ rfl ?_
  · simp
  · simp [csvRowMs, textOf_u, textOf]
  · simp [csvRowMs] at h2 ⊢
    omega

theorem gives_csvRowHuman (t : UInt32) (n : UInt16) (lap : UInt32) :
    KprintfGives "%s,%u,%s,%s\n".toList
      [.str (some (formatTime t 24)), .word n.toUInt32, .str (some (formatTime lap 24)), .str (some (formatTime t 24))]
      (csvRowHuman t n lap) := by
  have h1 := length_formatTime t
  have h2 := length_fmtU_toNat n.toUInt32
  have h3 := length_formatTime lap
  refine kprintfGives_of [pieceS, .char ',', pieceU, .char ',', pieceS, .char ',', pieceS, .char '\n'] ?_ ?_ rfl ?_
  · simp
  · simp [csvRowHuman, textOf_u, textOf_s, textOf]
  · simp [csvRowHuman] at h2 ⊢
    omega

theorem gives_csvOn (periodMs : UInt32) :
    KprintfGives "sw.csv: on, %u ms\n".toList [.word periodMs] ("sw.csv: on, ".toList ++ fmtU periodMs.toNat ++ " ms\n".toList) := by
  have h := length_fmtU_toNat periodMs
  refine kprintfGives_of (pieces "sw.csv: on, ".toList ++ (pieceU :: pieces " ms\n".toList)) ?_ ?_ rfl ?_
  · simp
  · simp [textOf_pieces, textOf_pieces_nil, textOf_u]
  · simp at h ⊢
    omega

theorem gives_oledRate (ms : Int32) :
    KprintfGives "sw_oled_rate: %d ms\n".toList [.word ms.toUInt32]
      ("sw_oled_rate: ".toList ++ fmtD ms.toInt ++ " ms\n".toList) := by
  have h : (fmtD ms.toInt).length ≤ 11 := by
    have hlt := ms.toInt_lt
    have hle := ms.le_toInt
    have hlen : (fmtU ms.toInt.natAbs).length ≤ 10 := length_fmtU_le (by decide) (by omega)
    unfold fmtD
    split
    · rw [List.length_cons]
      omega
    · omega
  refine kprintfGives_of (pieces "sw_oled_rate: ".toList ++ (pieceD :: pieces " ms\n".toList)) ?_ ?_ rfl ?_
  · simp
  · simp [textOf_pieces, textOf_pieces_nil, textOf_d]
  · simp at h ⊢
    omega

/-- The labels of the report. -/
def msLabels : List (List Char) := ["total: ".toList, "min:   ".toList, "max:   ".toList, "avg:   ".toList]

/-- The application prints what its model says. Each call of `rt_snprintf` and `rt_kprintf` that has a conversion, with its format and
arguments as the source has them, leaves the model's text in the buffer or sends it to the console, for all values. -/
theorem format_calls :
    (∀ totalMs bufLen, SnprintfGives bufLen "%02u:%02u.%02u".toList
      [.word (totalMs / 60000), .word (totalMs / 1000 % 60), .word (totalMs / 10 % 100)] (formatTimeMs totalMs bufLen)) ∧
    (∀ idx ms, SnprintfGives 24 "#%u %s".toList [.word (idx.toUInt32 + 1), .str (some (formatTimeMs ms 16))] (lapLine idx ms)) ∧
    (∀ st cnt, SnprintfGives 24 "m%u M%u a%u".toList [.word st.minMs, .word st.maxMs, .word (st.sumMs / cnt.toUInt32)]
      (statLine st cnt)) ∧
    (∀ totalMs bufLen,
      SnprintfGives bufLen (if totalMs / 3600000 > 0 then "%02u:%02u:%02u.%03u".toList else "%02u:%02u.%03u".toList)
        ((if totalMs / 3600000 > 0 then [.word (totalMs / 3600000)] else []) ++
          [.word (totalMs / 60000 % 60), .word (totalMs / 1000 % 60), .word (totalMs % 1000)]) (formatTime totalMs bufLen)) ∧
    (∀ label ∈ msLabels, ∀ v,
      KprintfGives (label ++ "%u ms (%s)\n".toList) [.word v, .str (some (formatTime v 24))] (msLine label v)) ∧
    (∀ s, KprintfGives "state: %s\n".toList [.str (some (stateName s))] ("state: ".toList ++ stateName s ++ ['\n'])) ∧
    (∀ cnt : UInt16, KprintfGives "laps:  %u\n".toList [.word cnt.toUInt32] ("laps:  ".toList ++ fmtU cnt.toNat ++ ['\n'])) ∧
    (∀ lapMs, KprintfGives "sw: lap=%02u:%02u.%02u\n".toList
      [.word (lapMs / 60000 % 100), .word (lapMs / 1000 % 60), .word (lapMs / 10 % 100)] (lapText lapMs)) ∧
    (∀ t (n : UInt16) lap, KprintfGives "%u,%u,%u,%u\n".toList [.word t, .word n.toUInt32, .word lap, .word t] (csvRowMs t n lap)) ∧
    (∀ t (n : UInt16) lap, KprintfGives "%s,%u,%s,%s\n".toList
      [.str (some (formatTime t 24)), .word n.toUInt32, .str (some (formatTime lap 24)), .str (some (formatTime t 24))]
      (csvRowHuman t n lap)) ∧
    (∀ periodMs, KprintfGives "sw.csv: on, %u ms\n".toList [.word periodMs]
      ("sw.csv: on, ".toList ++ fmtU periodMs.toNat ++ " ms\n".toList)) ∧
    (∀ ms : Int32, KprintfGives "sw_oled_rate: %d ms\n".toList [.word ms.toUInt32]
      ("sw_oled_rate: ".toList ++ fmtD ms.toInt ++ " ms\n".toList)) := by
  refine ⟨gives_formatTimeMs, gives_lapLine, gives_statLine, gives_formatTime, fun label hlabel v => ?_, gives_state, gives_laps,
    gives_lap, gives_csvRowMs, gives_csvRowHuman, gives_csvOn, gives_oledRate⟩
  have hall : ∀ label ∈ msLabels, '%' ∉ label ∧ label.length ≤ 7 := by decide
  exact gives_msLine (hall label hlabel).1 (hall label hlabel).2 v

end RtStopwatch
