import Mathlib.Data.List.DropRight

/-!
# The last elements of a list

`List.rtake n` as a window that slides: what it is after one more element, below its capacity and at it.
-/

namespace Lib

variable {α : Type}

theorem length_rtake (l : List α) (n : ℕ) : (l.rtake n).length = min l.length n := by
  simp only [List.rtake, List.length_drop]
  omega

/-- Below capacity the window is the whole list. -/
theorem rtake_of_length_le {l : List α} {n : ℕ} (h : l.length ≤ n) : l.rtake n = l := by
  simp [List.rtake, Nat.sub_eq_zero_of_le h]

/-- Below capacity the new element is appended. -/
theorem rtake_concat_of_length_lt {l : List α} {n : ℕ} (h : l.length < n) (x : α) :
    (l ++ [x]).rtake n = l.rtake n ++ [x] := by
  rw [rtake_of_length_le (by simp; omega), rtake_of_length_le (Nat.le_of_lt h)]

/-- At capacity the oldest element leaves the window. -/
theorem rtake_concat_of_le_length {l : List α} {n : ℕ} (hn : 0 < n) (h : n ≤ l.length) (x : α) :
    (l ++ [x]).rtake n = (l.rtake n).tail ++ [x] := by
  obtain ⟨k, rfl⟩ : ∃ k, n = k + 1 := ⟨n - 1, by omega⟩
  rw [List.rtake_concat_succ]
  have e : l.length - k = l.length - (k + 1) + 1 := by omega
  simp only [List.rtake, List.tail_drop, e]

/-- The last of the window is the last of the list. -/
theorem getLast?_rtake {l : List α} {n : ℕ} (hn : 0 < n) : (l.rtake n).getLast? = l.getLast? := by
  rcases List.eq_nil_or_concat l with rfl | ⟨l', x, rfl⟩
  · simp
  · obtain ⟨k, rfl⟩ : ∃ k, n = k + 1 := ⟨n - 1, by omega⟩
    rw [List.concat_eq_append, List.rtake_concat_succ]
    simp

/-- The window after one more element is that of the window and the element. -/
theorem rtake_rtake_concat {n : ℕ} (hn : 0 < n) (l : List α) (x : α) : (l.rtake n ++ [x]).rtake n = (l ++ [x]).rtake n := by
  by_cases h : l.length < n
  · rw [rtake_of_length_le (Nat.le_of_lt h)]
  · have hlen : (l.rtake n).length = n := by rw [length_rtake]; omega
    rw [rtake_concat_of_le_length hn (by omega), rtake_concat_of_le_length hn (by omega), rtake_of_length_le (Nat.le_of_eq hlen)]

end Lib
