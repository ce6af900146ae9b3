import RtStopwatch.Lemmas.Printf
import RtStopwatch.Text

/-!
# The formatter prints what C prescribes

For every format and arguments `rt_vsnprintf` leaves the text of C in the buffer, cut to its size and terminated, returns the length of the
whole text and writes nothing beyond the buffer (`rt_vsnprintf_refines`), and `rt_kprintf` sends it to the console (`rt_kprintf_text`).
-/

namespace RtStopwatch

open Lib Lib.Printf

/-- Every directive of a format is one that `rt_vsnprintf` treats as C prescribes. -/
def formatAsInC : List Piece → List Arg → Bool
  | [], _ => true
  | .char _ :: ps, args => formatAsInC ps args
  | .directive d :: ps, args =>
    match d.field args with
    | some (f, _ :: args) => asInC d f && formatAsInC ps args
    | _ => false

theorem vsnprintfLoop_char (fuel : ℕ) (o : OutBuf) (x : Char) (fmt : List Char) (args : List Arg) :
    vsnprintfLoop (fuel + 1) o ((Piece.char x).source ++ fmt) args = vsnprintfLoop fuel (o.put x) fmt args := by
  by_cases hx : x = '%'
  · subst hx
    rfl
  · simp [Piece.source, vsnprintfLoop, hx]

theorem exists_of_text {d : Directive} {args args' : List Arg} {text : List Char} (h : d.text args = some (text, args')) :
    ∃ f arg, d.field args = some (f, arg :: args') ∧ d.convert f arg = some text := by
  unfold Directive.text at h
  cases hf : d.field args with
  | none => simp [hf] at h
  | some r =>
    obtain ⟨f, rest⟩ := r
    cases rest with
    | nil => simp [hf] at h
    | cons arg rest =>
      simp only [hf, Option.bind_eq_bind, Option.bind_some, Option.pure_def, Option.bind_eq_some_iff, Option.some.injEq,
        Prod.mk.injEq] at h
      obtain ⟨t, ht, rfl, rfl⟩ := h
      exact ⟨f, arg, rfl, ht⟩

/-- The run over a format. -/
theorem vsnprintfLoop_source {ps : List Piece} {args : List Arg} {text : List Char} (htext : textOf ps args = some text)
    (hex : formatAsInC ps args = true) (o : OutBuf) {fuel : ℕ} (hfuel : ps.length < fuel) :
    vsnprintfLoop fuel o (ps.flatMap Piece.source) args = some (o.puts text) := by
  induction ps generalizing o args text fuel with
  | nil =>
    cases htext
    match fuel, hfuel with
    | fuel + 1, _ => rfl
  | cons p ps ih =>
    match fuel, hfuel with
    | fuel + 1, hfuel =>
      have hfuel' : ps.length < fuel := Nat.lt_of_succ_lt_succ hfuel
      rw [List.flatMap_cons]
      cases p with
      | char x =>
        obtain ⟨rest, hrest, rfl⟩ : ∃ rest, textOf ps args = some rest ∧ x :: rest = text := by
          simpa [textOf, Option.bind_eq_some_iff] using htext
        rw [vsnprintfLoop_char, ih hrest hex _ hfuel']
        rfl
      | directive d =>
        obtain ⟨t, args', ht, rest, hrest, rfl⟩ : ∃ t args', d.text args = some (t, args') ∧
            ∃ rest, textOf ps args' = some rest ∧ t ++ rest = text := by
          simpa [textOf, Option.bind_eq_some_iff] using htext
        obtain ⟨f, arg, hf, ha⟩ := exists_of_text ht
        simp only [formatAsInC, hf, Bool.and_eq_true] at hex
        have hdir := putDirective_source o d (ps.flatMap Piece.source) hf ha hex.1
        simp only [Piece.source, Directive.source, List.cons_append, List.append_assoc, List.nil_append, vsnprintfLoop, ne_eq,
          not_true_eq_false, if_false, hdir, Option.bind_eq_bind, Option.bind_some]
        rw [ih hrest hex.2 _ hfuel', OutBuf.puts_append]

theorem length_le_source (ps : List Piece) : ps.length ≤ (ps.flatMap Piece.source).length := by
  induction ps with
  | nil => exact Nat.le_refl _
  | cons p ps ih =>
    have hp : 0 < p.source.length := by
      cases p with
      | char x =>
        rw [Piece.source]
        split_ifs
        · simp
        · simp
      | directive d => simp [Piece.source, Directive.source]
    rw [List.flatMap_cons, List.length_append, List.length_cons]
    omega

/-- The end of a string in memory. -/
def nul : Char := Char.ofNat 0

/-- A text put into a buffer and terminated. -/
theorem terminate_mem (buf : ℕ → Char) (size : ℕ) (text : List Char) (k : ℕ) :
    ((OutBuf.mk buf size 0).puts text).terminate.mem k =
      if 0 < size ∧ k = min (size - 1) text.length then nul else if k < size then text.getD k (buf k) else buf k := by
  unfold OutBuf.terminate
  simp only [OutBuf.puts_size, OutBuf.puts_str, Nat.zero_add]
  by_cases hpos : 0 < size
  · rw [if_pos hpos]
    by_cases hlt : text.length < size
    · have hend : min (size - 1) text.length = text.length := min_eq_right (by omega)
      rw [if_pos hlt, hend]
      by_cases hk : k = text.length
      · simp [hk, hpos, nul]
      · simp [hk, OutBuf.puts_mem]
    · have hend : min (size - 1) text.length = size - 1 := min_eq_left (by omega)
      rw [if_neg hlt, hend]
      by_cases hk : k = size - 1
      · simp [hk, hpos, nul]
      · simp [hk, OutBuf.puts_mem]
  · have hk : ¬k < size := by omega
    simp [hpos, hk, OutBuf.puts_mem]

/-- What becomes of a buffer into which a text is printed: it holds the text, cut and terminated, and nothing behind it changes. -/
structure Prints (buf : ℕ → Char) (size : ℕ) (text : List Char) (buf' : ℕ → Char) : Prop where
  holds : 0 < size → (List.range ((rtSnprintf size text).length + 1)).map buf' = rtSnprintf size text ++ [nul]
  frame : ∀ k, size ≤ k → buf' k = buf k

theorem prints_terminate (buf : ℕ → Char) (size : ℕ) (text : List Char) :
    Prints buf size text ((OutBuf.mk buf size 0).puts text).terminate.mem := by
  have hlen : (rtSnprintf size text).length = min (size - 1) text.length := by
    rw [rtSnprintf, List.length_take]
  refine ⟨fun hpos => ?_, fun k hk => ?_⟩
  · have hlast : ((OutBuf.mk buf size 0).puts text).terminate.mem (min (size - 1) text.length) = nul := by
      rw [terminate_mem, if_pos ⟨hpos, rfl⟩]
    rw [List.range_succ, List.map_append, hlen, List.map_singleton, hlast]
    congr 1
    apply List.ext_getElem
    · simp [hlen]
    · intro k hk _
      have hk' : k < min (size - 1) text.length := by simpa using hk
      have hlt : k < size := by omega
      have hlt' : k < text.length := by omega
      have hne : ¬(0 < size ∧ k = min (size - 1) text.length) := by omega
      simp [terminate_mem, hne, hlt, hlt', rtSnprintf]
  · have hne : ¬(0 < size ∧ k = min (size - 1) text.length) := by omega
    rw [terminate_mem, if_neg hne, if_neg (Nat.not_lt.mpr hk)]

/-- The formatter refines C's. For every format made of characters and directives and arguments that fit it, but for the directives
that `asInC` names, `rt_vsnprintf` returns the length of the text that C prescribes, leaves the text in the buffer, cut to the size
and terminated, and writes nothing behind it. -/
theorem rt_vsnprintf_refines (ps : List Piece) (args : List Arg) (text : List Char) (htext : textOf ps args = some text)
    (hex : formatAsInC ps args = true) (buf : ℕ → Char) (size : ℕ) :
    ∃ buf', rtVsnprintf buf size (ps.flatMap Piece.source) args = some (buf', text.length) ∧ Prints buf size text buf' := by
  have hrun : vsnprintfLoop ((ps.flatMap Piece.source).length + 1) ⟨buf, size, 0⟩ (ps.flatMap Piece.source) args = _ :=
    vsnprintfLoop_source htext hex ⟨buf, size, 0⟩ (Nat.lt_succ_of_le (length_le_source ps))
  refine ⟨_, ?_, prints_terminate buf size text⟩
  simp only [rtVsnprintf, hrun, Option.bind_eq_bind, Option.bind_some, OutBuf.puts_str, Nat.zero_add]
  rfl

/-- `"%-4d|%0*d|%.2s"`. -/
def fieldsFormat : List Piece :=
  [.directive ⟨[.minus], .fixed 4 (by decide), .free, .word, .d⟩, .char '|', .directive ⟨[.zero], .star, .free, .word, .d⟩, .char '|',
    .directive ⟨[], .free, .fixed 2, .word, .s⟩]

theorem rt_vsnprintf_refines_fields :
    fieldsFormat.flatMap Piece.source = "%-4d|%0*d|%.2s".toList ∧
      ∃ buf', rtVsnprintf (fun _ => '?') 9 (fieldsFormat.flatMap Piece.source) [.word 42, .word 5, .word (-7), .str (some ['a', 'b', 'c'])] =
        some (buf', 13) ∧ Prints (fun _ => '?') 9 "42  |-0007|ab".toList buf' :=
  ⟨by decide, rt_vsnprintf_refines fieldsFormat [.word 42, .word 5, .word (-7), .str (some ['a', 'b', 'c'])] "42  |-0007|ab".toList
    (by decide) (by decide) _ 9⟩

/-- What `rt_kprintf` sends to the console: a text of fewer than 255 characters as it is, the first 254 characters of a longer one and
then the terminator. -/
theorem rt_kprintf_text (ps : List Piece) (args : List Arg) (text : List Char) (htext : textOf ps args = some text)
    (hex : formatAsInC ps args = true) (rtLogBuf : ℕ → Char) :
    ∃ buf', rtKprintf rtLogBuf (ps.flatMap Piece.source) args =
      some (if text.length < 255 then text else text.take 254 ++ [nul], buf') := by
  obtain ⟨buf', hrun, hprints⟩ := rt_vsnprintf_refines ps args text htext hex rtLogBuf (rtConsolebufSize - 1)
  refine ⟨buf', ?_⟩
  have hholds : (List.range ((text.take 254).length + 1)).map buf' = text.take 254 ++ [nul] := hprints.holds (by decide)
  have hsize : rtConsolebufSize - 1 = 255 := rfl
  rw [hsize] at hrun
  simp only [rtKprintf, hsize, hrun, Option.bind_eq_bind, Option.bind_some, Option.pure_def]
  by_cases hlt : text.length < 255
  · have htake : text.take 254 = text := List.take_of_length_le (by omega)
    have hcut : ¬text.length > 255 := by omega
    rw [htake, List.range_succ, List.map_append] at hholds
    obtain ⟨hsame, -⟩ := List.append_inj' hholds rfl
    rw [if_pos hlt, if_neg hcut, hsame]
  · have hlen : (text.take 254).length + 1 = 255 := by
      rw [List.length_take]
      omega
    have hcut : (if text.length > 255 then 255 else text.length) = 255 := by
      split
      · rfl
      · omega
    rw [hlen] at hholds
    rw [if_neg hlt, hcut, hholds]

theorem rt_kprintf_text_fields :
    ∃ buf', rtKprintf (fun _ => '?') (fieldsFormat.flatMap Piece.source) [.word 42, .word 5, .word (-7), .str (some ['a', 'b', 'c'])] =
      some ("42  |-0007|ab".toList, buf') := by
  obtain ⟨buf', h⟩ := rt_kprintf_text fieldsFormat [.word 42, .word 5, .word (-7), .str (some ['a', 'b', 'c'])] "42  |-0007|ab".toList
    (by decide) (by decide) fun _ => '?'
  exact ⟨buf', h⟩

end RtStopwatch
