import RtStopwatch.Host
import RtStopwatch.Lemmas.Text

/-!
# What Python makes of the device's texts

`str.strip` on texts between blanks, and `int` on the numbers that `%u` prints.
-/

namespace RtStopwatch

open Lib

namespace PyChars

variable {py : PyChars}

theorem isSpace_of_isDigit {x : Char} (h : x.isDigit = true) : py.isSpace x = false := by
  have := toNat_of_isDigit h
  rw [py.isSpace_ascii x (by omega)]
  simp
  omega

theorem isDigit_of_isDigit {x : Char} (h : x.isDigit = true) : py.isDigit x = true := by
  have := toNat_of_isDigit h
  rw [PyChars.isDigit, py.digit_ascii x (by omega), if_pos h]
  rfl

theorem isDigit_ascii {x : Char} (hx : x.toNat < 128) (h : x.isDigit = false) : py.isDigit x = false := by
  rw [PyChars.isDigit, py.digit_ascii x hx, if_neg (by simp [h])]
  rfl

theorem int_eq {l : List Char} (h : ∀ x ∈ l, x.isDigit = true) (n : ℕ) :
    l.foldl (fun n x => 10 * n + (py.digit x).getD 0) n = Nat.ofDigitChars 10 l n := by
  induction l generalizing n with
  | nil => rfl
  | cons x l ih =>
    have hx := h x List.mem_cons_self
    have hd := py.digit_ascii x (by have := toNat_of_isDigit hx; omega)
    rw [if_pos hx] at hd
    rw [List.foldl_cons, hd, ih (fun y hy => h y (List.mem_cons_of_mem _ hy)), Nat.ofDigitChars_cons]
    rfl

/-- `int` undoes `%u`. -/
theorem int_fmtU (n : ℕ) : py.int (fmtU n) = n := by
  rw [int, int_eq (fun x hx => isDigit_of_mem_fmtU hx), fmtU, Nat.ofDigitChars_ten_toDigits]

theorem dropWhile_of_head {l : List Char} {p : Char → Bool} (h : ∀ x ∈ l.head?, p x = false) : l.dropWhile p = l := by
  cases l with
  | nil => rfl
  | cons x l => rw [List.dropWhile_cons, h x rfl, if_neg Bool.false_ne_true]

/-- `str.strip` removes the white space on both sides of a text that begins and ends with something else. -/
theorem strip_eq {pre l post : List Char} (hpre : ∀ x ∈ pre, py.isSpace x = true) (hpost : ∀ x ∈ post, py.isSpace x = true)
    (hne : l ≠ []) (hhead : ∀ x ∈ l.head?, py.isSpace x = false) (hlast : ∀ x ∈ l.getLast?, py.isSpace x = false) :
    py.strip (pre ++ (l ++ post)) = l := by
  have hhead' : ∀ x ∈ (l ++ post).head?, py.isSpace x = false := by
    cases l with
    | nil => exact absurd rfl hne
    | cons x l => exact hhead
  have hlast' : ∀ x ∈ l.reverse.head?, py.isSpace x = false := by rwa [List.head?_reverse]
  rw [strip, List.dropWhile_append_of_pos hpre, dropWhile_of_head hhead', List.rdropWhile, List.reverse_append,
    List.dropWhile_append_of_pos (by simpa using hpost), dropWhile_of_head hlast', List.reverse_reverse]

/-- What comes after the text is removed, if it is white space. -/
theorem strip_append {l post : List Char} (hpost : ∀ x ∈ post, py.isSpace x = true) (hne : l ≠ [])
    (hhead : ∀ x ∈ l.head?, py.isSpace x = false) (hlast : ∀ x ∈ l.getLast?, py.isSpace x = false) : py.strip (l ++ post) = l := by
  rw [← List.nil_append (l ++ post)]
  exact strip_eq (by simp) hpost hne hhead hlast

/-- The end of a line is removed. -/
theorem strip_newline {l : List Char} (hne : l ≠ []) (hhead : ∀ x ∈ l.head?, py.isSpace x = false)
    (hlast : ∀ x ∈ l.getLast?, py.isSpace x = false) : py.strip (l ++ ['\n']) = l := by
  have hspace : py.isSpace '\n' = true := py.isSpace_ascii '\n' (by decide)
  exact strip_append (by simpa using hspace) hne hhead hlast

/-- A text with a character that is not in the line is not in the line. -/
theorem not_infix_of_not_mem {x : Char} {key line : List Char} (hk : x ∈ key) (hl : x ∉ line) : ¬ key <:+: line :=
  fun h => hl (h.subset hk)

/-! ## `int` -/

theorem isIntSpace_eq_false {x : Char} (h : py.isSpace x = false) : py.isIntSpace x = false := by
  rw [isIntSpace, h, Bool.false_and]

theorem intDigits_fmtU (n : ℕ) : py.intDigits (fmtU n) = some n := by
  have hgroup : (fmtU n).splitOn '_' = [fmtU n] := List.splitOn_eq_singleton (not_mem_fmtU rfl n)
  have hdigits : (fmtU n).all py.isDigit = true :=
    List.all_eq_true.mpr fun x hx => isDigit_of_isDigit (isDigit_of_mem_fmtU hx)
  have hne : (fmtU n).isEmpty = false := List.isEmpty_eq_false_iff.mpr (fmtU_ne_nil n)
  simp [intDigits, hgroup, hdigits, hne, int_fmtU]

/-- `int` of a string undoes `%u`. -/
theorem intOf_fmtU (n : ℕ) : py.intOf (fmtU n) = some (n : ℤ) := by
  have hspace : ∀ x ∈ fmtU n, py.isIntSpace x = false :=
    fun x hx => isIntSpace_eq_false (isSpace_of_isDigit (isDigit_of_mem_fmtU hx))
  have hleft : (fmtU n).dropWhile py.isIntSpace = fmtU n :=
    dropWhile_of_head fun x hx => hspace x (List.mem_of_mem_head? hx)
  have hright : (fmtU n).reverse.dropWhile py.isIntSpace = (fmtU n).reverse :=
    dropWhile_of_head fun x hx => hspace x (List.mem_reverse.mp (List.mem_of_mem_head? hx))
  rw [intOf, hleft, List.rdropWhile, hright, List.reverse_reverse]
  split
  · rename_i digits hsign
    exact absurd (hsign ▸ List.mem_cons_self) (not_mem_fmtU (x := '-') rfl n)
  · rename_i digits hsign
    exact absurd (hsign ▸ List.mem_cons_self) (not_mem_fmtU (x := '+') rfl n)
  · rw [intDigits_fmtU]
    rfl

end PyChars

/-- Python on ASCII texts. -/
def PyChars.ascii : PyChars where
  isSpace x := decide (9 ≤ x.toNat ∧ x.toNat ≤ 13 ∨ 28 ≤ x.toNat ∧ x.toNat ≤ 32)
  digit x := if x.isDigit then some (x.toNat - '0'.toNat) else none
  isSpace_ascii _ _ := rfl
  digit_ascii _ _ := rfl

end RtStopwatch
