import Mathlib.Data.List.Basic
import Mathlib.Data.Int.Notation

/-!
# Counting loops

`for (i = i₀; test i; i = next i) body`, with a counter of any type: it may wrap before its test fails, and then the loop does not
end. The rule is for a counter that stands for a number and does not wrap below the bound; for a loop over a list there is the same
rule for `foldl`. Two rules say when a loop does not end.
-/

namespace Lib

variable {ι σ : Type}

/-- The loop, cut off after `fuel` tests: `none` when it has not ended by then. -/
def forLoop (test : ι → Bool) (next : ι → ι) (body : ι → σ → Option σ) : ℕ → ι → σ → Option σ
  | 0, _, _ => none
  | fuel + 1, i, s => if test i then (body i s).bind (forLoop test next body fuel (next i)) else some s

/-- The rule of the invariant: `I k` holds when the counter stands for `k`. -/
theorem forLoop_invariant {test : ι → Bool} {next : ι → ι} (body : ι → σ → Option σ) (value : ι → ℤ) (bound : ℤ)
    (htest : ∀ i, test i = true ↔ value i < bound) (hnext : ∀ i, value i < bound → value (next i) = value i + 1)
    {I : ℤ → σ → Prop} (hbody : ∀ i s, value i < bound → I (value i) s → ∃ s', body i s = some s' ∧ I (value i + 1) s')
    (fuel : ℕ) {i : ι} {s : σ} (hfuel : bound - value i < fuel) (hle : value i ≤ bound) (h : I (value i) s) :
    ∃ s', forLoop test next body fuel i s = some s' ∧ I bound s' := by
  induction fuel generalizing i s with
  | zero => omega
  | succ fuel ih =>
    rw [forLoop]
    by_cases hi : value i < bound
    · obtain ⟨s₁, hs₁, h₁⟩ := hbody i s hi h
      have hn := hnext i hi
      rw [if_pos ((htest i).mpr hi), hs₁]
      exact ih (by omega) (by omega) (hn ▸ h₁)
    · have he : value i = bound := by omega
      rw [if_neg (fun ht => hi ((htest i).mp ht))]
      exact ⟨s, rfl, he ▸ h⟩

/-- A loop whose test no value of the counter fails does not end. -/
theorem forLoop_endless {test : ι → Bool} (next : ι → ι) (body : ι → σ → Option σ) (htest : ∀ i, test i = true) (fuel : ℕ) (i : ι)
    (s : σ) : forLoop test next body fuel i s = none := by
  induction fuel generalizing i s with
  | zero => rfl
  | succ fuel ih =>
    rw [forLoop, if_pos (htest i)]
    cases body i s with
    | none => rfl
    | some s' => exact ih _ s'

/-- A loop whose first round does not end does not end. -/
theorem forLoop_of_body_none {test : ι → Bool} (next : ι → ι) {body : ι → σ → Option σ} {i : ι} {s : σ} (htest : test i = true)
    (hbody : body i s = none) (fuel : ℕ) : forLoop test next body fuel i s = none := by
  cases fuel with
  | zero => rfl
  | succ fuel => rw [forLoop, if_pos htest, hbody, Option.bind_none]

/-- The rule for a loop from 0 to `n`. -/
theorem foldl_range_invariant (body : σ → ℕ → σ) {n : ℕ} {I : ℕ → σ → Prop} (hbody : ∀ k s, k < n → I k s → I (k + 1) (body s k))
    {s : σ} (h : I 0 s) : I n ((List.range n).foldl body s) := by
  induction n with
  | zero => exact h
  | succ n ih =>
    rw [List.range_succ, List.foldl_append, List.foldl_cons, List.foldl_nil]
    apply hbody n _ (Nat.lt_succ_self n)
    exact ih (fun k s hk => hbody k s (Nat.lt_succ_of_lt hk))

end Lib
