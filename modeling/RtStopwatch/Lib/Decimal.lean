import Mathlib.Data.Nat.Digits.Defs

/-!
# Decimal numerals

Decimal numerals as lists of characters, written by `Nat.toDigits` and read back by `readDec`. Zeros in front change nothing.
-/

namespace Lib

theorem toNat_of_isDigit {x : Char} (h : x.isDigit = true) : 48 ≤ x.toNat ∧ x.toNat ≤ 57 := by
  rw [Char.isDigit_iff_toNat] at h
  exact h

/-- The number a numeral stands for; there is at least one digit and nothing but digits. -/
def readDec (l : List Char) : Option ℕ :=
  if l ≠ [] ∧ l.all Char.isDigit = true then some (Nat.ofDigitChars 10 l 0) else none

/-- A numeral of at least `w` digits. -/
def decimal (w n : ℕ) : List Char := (Nat.toDigits 10 n).leftpad w '0'

theorem decimal_zero (n : ℕ) : decimal 0 n = Nat.toDigits 10 n := by
  simp [decimal, List.leftpad]

theorem decimal_ne_nil (w n : ℕ) : decimal w n ≠ [] := by
  simp [decimal, List.leftpad]

theorem isDigit_of_mem_decimal {w n : ℕ} {x : Char} (h : x ∈ decimal w n) : x.isDigit = true := by
  rcases List.mem_append.mp h with h | h
  · rw [(List.mem_replicate.mp h).2]
    rfl
  · exact Nat.isDigit_of_mem_toDigits (by decide) (by decide) h

/-- A character that is no digit is not in a numeral. -/
theorem not_mem_decimal {x : Char} (hx : x.isDigit = false) (w n : ℕ) : x ∉ decimal w n := by
  intro h
  rw [isDigit_of_mem_decimal h] at hx
  cases hx

theorem readDec_decimal (w n : ℕ) : readDec (decimal w n) = some n := by
  unfold readDec
  rw [if_pos ⟨decimal_ne_nil w n, List.all_eq_true.mpr fun x hx => isDigit_of_mem_decimal hx⟩]
  simp [decimal, List.leftpad, Nat.ofDigitChars_append, Nat.ofDigitChars_replicate_zero, Nat.ofDigitChars_ten_toDigits]

/-- Numerals tell numbers apart. -/
theorem decimal_inj {w m n : ℕ} : decimal w m = decimal w n ↔ m = n := by
  constructor
  · intro h
    have hr := congrArg readDec h
    rw [readDec_decimal, readDec_decimal] at hr
    exact Option.some.inj hr
  · intro h
    rw [h]

theorem length_decimal_le {w k n : ℕ} (hk : 0 < k) (hw : w ≤ k) (hn : n < 10 ^ k) : (decimal w n).length ≤ k := by
  rw [decimal, List.length_leftpad]
  exact max_le hw ((Nat.length_toDigits_le_iff (by decide) hk).mpr hn)

/-- A number that fits is written with exactly the digits asked for. -/
theorem length_decimal {w n : ℕ} (hw : 0 < w) (hn : n < 10 ^ w) : (decimal w n).length = w := by
  apply Nat.le_antisymm (length_decimal_le hw (Nat.le_refl w) hn)
  rw [decimal, List.length_leftpad]
  exact Nat.le_max_left _ _

end Lib
