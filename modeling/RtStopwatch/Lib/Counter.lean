import Mathlib.Algebra.Ring.Nat
import Mathlib.Data.List.Chain

/-!
# A wrapping counter read now and then

A count that never goes back is read at some moments, `a` first and then those of a list. A reader that sees it modulo `m` can add
up the gaps modulo `m` at most: the sum of these and what the long gaps lose make the count (`sum_mod_add_sum_lost`).
-/

namespace Lib

/-- The gaps between successive counts, from `a` on. -/
def gaps : ℕ → List ℕ → List ℕ
  | _, [] => []
  | a, c :: cs => (c - a) :: gaps c cs

/-- The gaps make up the way from the first count to the last one. -/
theorem add_sum_gaps {a : ℕ} {cs : List ℕ} (h : (a :: cs).IsChain (· ≤ ·)) : a + (gaps a cs).sum = cs.getLastD a := by
  induction cs generalizing a with
  | nil => rfl
  | cons c cs ih =>
    rw [List.isChain_cons_cons] at h
    obtain ⟨hle, hrest⟩ := h
    have hsum := ih hrest
    rw [gaps, List.sum_cons, List.getLastD_cons]
    omega

/-- A gap modulo `m` is the gap less a multiple of `m`; the sums differ by the sum of these. -/
theorem sum_mod_add_sum_lost (m : ℕ) (gs : List ℕ) : (gs.map (· % m)).sum + (gs.map fun g => g / m * m).sum = gs.sum := by
  induction gs with
  | nil => rfl
  | cons g gs ih =>
    have hg : g % m + g / m * m = g := Nat.mod_add_div' g m
    simp only [List.map_cons, List.sum_cons]
    omega

/-- Nothing is lost exactly when no gap reaches `m`. -/
theorem sum_lost_eq_zero_iff {m : ℕ} (hm : 0 < m) (gs : List ℕ) :
    (gs.map fun g => g / m * m).sum = 0 ↔ ∀ g ∈ gs, g < m := by
  have hg : ∀ g, g / m * m = 0 ↔ g < m := by
    intro g
    rw [Nat.mul_eq_zero, Nat.div_eq_zero_iff]
    omega
  simp only [List.sum_eq_zero_iff_forall_eq_nat, List.mem_map, forall_exists_index, and_imp, forall_apply_eq_imp_iff₂, hg]

/-- Only multiples of `m` are lost. -/
theorem sum_mod_mod (m : ℕ) (gs : List ℕ) : (gs.map (· % m)).sum % m = gs.sum % m := by
  induction gs with
  | nil => rfl
  | cons g gs ih => rw [List.map_cons, List.sum_cons, List.sum_cons, Nat.mod_add_mod, Nat.add_mod, ih, ← Nat.add_mod]

end Lib
