import Mathlib.Data.List.Basic
import Mathlib.Data.List.TakeWhile

/-!
# A stream cut into lines

A reader that gets a stream in pieces keeps what it has not used in a buffer, and at each piece takes the complete lines off its
front. The lines it sees do not depend on where the pieces were cut (`foldl_drain`).
-/

namespace Lib

variable {α σ : Type} [DecidableEq α] {sep : α}

/-- What is left of a list after its first `sep`. -/
def afterSep (sep : α) (buf : List α) : List α := (buf.dropWhile (· ≠ sep)).tail

theorem ne_of_mem_line {line : List α} (h : sep ∉ line) : ∀ x ∈ line, decide (x ≠ sep) = true := by
  intro x hx
  exact decide_eq_true fun he => h (he ▸ hx)

theorem afterSep_append_cons {line : List α} (h : sep ∉ line) (rest : List α) : afterSep sep (line ++ sep :: rest) = rest := by
  rw [afterSep, List.dropWhile_append_of_pos (ne_of_mem_line h)]
  simp

theorem takeWhile_append_cons {line : List α} (h : sep ∉ line) (rest : List α) :
    (line ++ sep :: rest).takeWhile (· ≠ sep) = line := by
  rw [List.takeWhile_append_of_pos (ne_of_mem_line h)]
  simp

theorem length_afterSep_lt {buf : List α} (h : sep ∈ buf) : (afterSep sep buf).length < buf.length := by
  obtain ⟨line, rest, rfl, hline⟩ := List.eq_append_cons_of_mem h
  rw [afterSep_append_cons hline, List.length_append, List.length_cons]
  omega

/-- While there is a `sep` in the buffer: take the line before it off, and use it. What is left at the end stays in the buffer. -/
def drain (sep : α) (use : σ → List α → σ) (s : σ) (buf : List α) : σ × List α :=
  if _h : sep ∈ buf then drain sep use (use s (buf.takeWhile (· ≠ sep))) (afterSep sep buf) else (s, buf)
termination_by buf.length
decreasing_by exact length_afterSep_lt _h

theorem drain_of_not_mem (use : σ → List α → σ) (s : σ) {buf : List α} (h : sep ∉ buf) : drain sep use s buf = (s, buf) := by
  rw [drain, dif_neg h]

theorem drain_line (use : σ → List α → σ) (s : σ) {line : List α} (h : sep ∉ line) (rest : List α) :
    drain sep use s (line ++ sep :: rest) = drain sep use (use s line) rest := by
  rw [drain, dif_pos (by simp), takeWhile_append_cons h, afterSep_append_cons h]

/-- What comes later is appended to what is left. -/
theorem drain_append (use : σ → List α → σ) (s : σ) (a b : List α) :
    drain sep use s (a ++ b) = drain sep use (drain sep use s a).1 ((drain sep use s a).2 ++ b) := by
  induction hn : a.length using Nat.strong_induction_on generalizing s a with
  | _ n ih =>
    by_cases h : sep ∈ a
    · obtain ⟨line, rest, rfl, hline⟩ := List.eq_append_cons_of_mem h
      rw [List.append_assoc, List.cons_append, drain_line use s hline, drain_line use s hline]
      apply ih rest.length _ _ _ rfl
      rw [← hn, List.length_append, List.length_cons]
      omega
    · rw [drain_of_not_mem use s h]

/-- Fed in pieces, the reader ends where it ends when fed the whole at once. -/
theorem foldl_drain (sep : α) (use : σ → List α → σ) (s : σ) (buf : List α) (pieces : List (List α)) :
    pieces.foldl (fun p piece => drain sep use p.1 (p.2 ++ piece)) (drain sep use s buf) =
      drain sep use s (buf ++ pieces.flatten) := by
  induction pieces generalizing buf with
  | nil => simp
  | cons piece pieces ih => rw [List.foldl_cons, ← drain_append, ih, List.flatten_cons, List.append_assoc]

/-- The lines of a stream are used one after the other. -/
theorem drain_lines (use : σ → List α → σ) (s : σ) {lines : List (List α)} (h : ∀ line ∈ lines, sep ∉ line) :
    drain sep use s (lines.flatMap fun line => line ++ [sep]) = (lines.foldl use s, []) := by
  induction lines generalizing s with
  | nil => exact drain_of_not_mem use s (by simp)
  | cons line lines ih =>
    have hline := h line List.mem_cons_self
    rw [List.flatMap_cons, List.append_assoc, List.singleton_append, drain_line use s hline, List.foldl_cons]
    exact ih _ fun l hl => h l (List.mem_cons_of_mem _ hl)

end Lib
