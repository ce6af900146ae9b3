import Mathlib.Algebra.BigOperators.Group.List.Basic
import Mathlib.Tactic.Ring

/-!
# Sums of truncated quotients

What is lost when a list of lengths is divided term by term, each quotient rounded down, before it is summed.
-/

namespace Lib

/-- Dividing term by term never gains: the quotients, scaled back, sum to at most the whole. -/
theorem mul_sum_div_le (d : ℕ) (l : List ℕ) : d * (l.map (· / d)).sum ≤ l.sum := by
  induction l with
  | nil => simp
  | cons a l ih =>
    rw [List.map_cons, List.sum_cons, List.sum_cons, Nat.mul_add]
    exact Nat.add_le_add (Nat.mul_div_le a d) ih

/-- Dividing term by term loses less than a divisor for each term. -/
theorem sum_le_mul_sum_div (d : ℕ) (hd : 0 < d) (l : List ℕ) :
    l.sum ≤ d * (l.map (· / d)).sum + (d - 1) * l.length := by
  induction l with
  | nil => simp
  | cons a l ih =>
    rw [List.map_cons, List.sum_cons, List.sum_cons, List.length_cons]
    have ha : a ≤ d * (a / d) + (d - 1) := by
      have h1 := Nat.div_add_mod a d
      have h2 := Nat.mod_lt a hd
      omega
    calc a + l.sum ≤ (d * (a / d) + (d - 1)) + (d * (l.map (· / d)).sum + (d - 1) * l.length) := Nat.add_le_add ha ih
      _ = d * (a / d + (l.map (· / d)).sum) + (d - 1) * (l.length + 1) := by ring

/-- The difference of two scaled and truncated counts is that of the counts, scaled, to within one unit. -/
theorem floor_diff_bounds (m : ℕ) {d : ℕ} (hd : 0 < d) {a b : ℕ} (h : a ≤ b) :
    (b * m / d - a * m / d) * d < (b - a) * m + d ∧ (b - a) * m < (b * m / d - a * m / d) * d + d := by
  have ha := Nat.div_add_mod (a * m) d
  have hb := Nat.div_add_mod (b * m) d
  have ha' := Nat.mod_lt (a * m) hd
  have hb' := Nat.mod_lt (b * m) hd
  have hm : a * m ≤ b * m := Nat.mul_le_mul_right m h
  rw [Nat.sub_mul, Nat.sub_mul, Nat.mul_comm (b * m / d) d, Nat.mul_comm (a * m / d) d]
  constructor <;> omega

/-- A bound on each term, up to a constant, bounds the sum up to a constant for each term. -/
theorem sum_map_le_add {α : Type} {f g : α → ℕ} {k : ℕ} {l : List α} (h : ∀ x ∈ l, f x ≤ g x + k) :
    (l.map f).sum ≤ (l.map g).sum + k * l.length := by
  induction l with
  | nil => simp
  | cons a l ih =>
    rw [List.map_cons, List.map_cons, List.sum_cons, List.sum_cons, List.length_cons]
    have ha := h a (by simp)
    have hl := ih fun x hx => h x (by simp [hx])
    calc f a + (l.map f).sum ≤ (g a + k) + ((l.map g).sum + k * l.length) := Nat.add_le_add ha hl
      _ = (g a + (l.map g).sum) + k * (l.length + 1) := by ring

end Lib
