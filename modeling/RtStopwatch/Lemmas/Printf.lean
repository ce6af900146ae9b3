import RtStopwatch.Lib.Decimal
import RtStopwatch.Printf

/-!
# The formatter, piece by piece

A directive written as C has it is read back by `rt_vsnprintf` and puts the text C prescribes (`putDirective_source`), unless it is one of
those `asInC` leaves out.
-/

namespace RtStopwatch

open Lib Lib.Printf

/-! ## Putting characters -/

namespace OutBuf

/-- A text, one character after the other. -/
def puts (o : OutBuf) (text : List Char) : OutBuf := text.foldl put o

@[simp] theorem puts_nil (o : OutBuf) : o.puts [] = o := rfl

@[simp] theorem puts_cons (o : OutBuf) (x : Char) (text : List Char) : o.puts (x :: text) = (o.put x).puts text := rfl

@[simp] theorem puts_append (o : OutBuf) (a b : List Char) : o.puts (a ++ b) = (o.puts a).puts b := List.foldl_append

theorem putN_eq (o : OutBuf) (x : Char) (n : ℕ) : o.putN x n = o.puts (List.replicate n x) := by
  induction n generalizing o with
  | zero => rfl
  | succ n ih => exact ih _

/-- The loop puts as many characters as there is room for, and leaves `size` negative. -/
theorem putWhile_eq (o : OutBuf) (x : Char) (size : ℤ) :
    o.putWhile x size = (o.puts (List.replicate size.toNat x), min (size - 1) (-1)) := by
  unfold putWhile
  split
  · rw [putN_eq, min_eq_right (by omega)]
  · rw [Int.toNat_of_nonpos (by omega), min_eq_left (by omega)]
    rfl

theorem putWhilePre_eq (o : OutBuf) (x : Char) (size : ℤ) :
    o.putWhilePre x size = (o.puts (List.replicate (size - 1).toNat x), min (size - 1) 0) := by
  unfold putWhilePre
  split
  · rw [putN_eq, min_eq_right (by omega)]
  · rw [Int.toNat_of_nonpos (by omega), min_eq_left (by omega)]
    rfl

@[simp] theorem puts_str (o : OutBuf) (text : List Char) : (o.puts text).str = o.str + text.length := by
  induction text generalizing o with
  | nil => rfl
  | cons x text ih =>
    rw [puts_cons, ih, List.length_cons]
    show o.str + 1 + text.length = _
    omega

@[simp] theorem puts_size (o : OutBuf) (text : List Char) : (o.puts text).size = o.size := by
  induction text generalizing o with
  | nil => rfl
  | cons x text ih => rw [puts_cons, ih, put]

theorem put_mem (o : OutBuf) (x : Char) (k : ℕ) : (o.put x).mem k = if k < o.size ∧ k = o.str then x else o.mem k := by
  by_cases hk : k = o.str
  · subst hk
    by_cases hs : o.str < o.size
    · simp [put, hs]
    · simp [put, hs]
  · by_cases hs : o.str < o.size
    · simp [put, hs, hk]
    · simp [put, hs, hk]

/-- What is in the buffer afterwards: the text, as far as it fits, and elsewhere what was there. -/
theorem puts_mem (o : OutBuf) (text : List Char) (k : ℕ) :
    (o.puts text).mem k = if k < o.size ∧ o.str ≤ k then text.getD (k - o.str) (o.mem k) else o.mem k := by
  induction text generalizing o with
  | nil => simp
  | cons x text ih =>
    rw [puts_cons, ih, put_mem]
    show (if k < o.size ∧ o.str + 1 ≤ k then text.getD (k - (o.str + 1)) _ else _) = _
    by_cases hle : k < o.size ∧ o.str + 1 ≤ k
    · have hsub : k - o.str = (k - (o.str + 1)) + 1 := by omega
      have hne : ¬(k < o.size ∧ k = o.str) := by omega
      have hle' : k < o.size ∧ o.str ≤ k := by omega
      rw [if_pos hle, if_neg hne, if_pos hle', hsub, List.getD_cons_succ]
    · rw [if_neg hle]
      by_cases hk : k < o.size ∧ k = o.str
      · have hle' : k < o.size ∧ o.str ≤ k := by omega
        rw [if_pos hk, if_pos hle', hk.2, Nat.sub_self, List.getD_cons_zero]
      · have hle' : ¬(k < o.size ∧ o.str ≤ k) := by omega
        rw [if_neg hk, if_neg hle']

end OutBuf

/-! ## Numbers -/

/-- The digits of a base, in lower or upper case. -/
theorem getD_smallDigits {k : ℕ} (h : k < 16) : smallDigits.getD k ' ' = Nat.digitChar k := by
  have hall : ∀ k : Fin 16, smallDigits.getD k ' ' = Nat.digitChar k := by decide
  exact hall ⟨k, h⟩

theorem getD_largeDigits {k : ℕ} (h : k < 16) : largeDigits.getD k ' ' = (Nat.digitChar k).toUpper := by
  have hall : ∀ k : Fin 16, largeDigits.getD k ' ' = (Nat.digitChar k).toUpper := by decide
  exact hall ⟨k, h⟩

theorem divide_eq {n : UInt32} {base : ℕ} (hb : base = 10 ∨ base = 16) :
    (divide n base).1.toNat = n.toNat % base ∧ (divide n base).2.toNat = n.toNat / base := by
  rcases hb with rfl | rfl
  · simp [divide]
  · simp [divide]

/-- The digits of a number, the first one first. -/
theorem reverse_tmpDigits {digits : List Char} {g : Char → Char} (hg : ∀ k < 16, digits.getD k ' ' = g (Nat.digitChar k)) {base : ℕ}
    (hb : base = 10 ∨ base = 16) {n : UInt32} (hn : n ≠ 0) :
    (tmpDigits digits base n).reverse = (Nat.toDigits base n.toNat).map g := by
  induction hk : n.toNat using Nat.strong_induction_on generalizing n with
  | _ k ih =>
    obtain ⟨hres, hquot⟩ := divide_eq (n := n) hb
    have hlt := divide_lt hn base
    have hb1 : 1 < base := by omega
    have hmod : n.toNat % base < base := Nat.mod_lt _ (by omega)
    rw [tmpDigits, dif_neg hn, List.reverse_cons, hres, hg _ (by omega), Nat.toDigits_eq_if hb1]
    by_cases h0 : (divide n base).2 = 0
    · have hsmall : n.toNat / base = 0 := by
        rw [← hquot, h0]
        rfl
      have hn' : n.toNat < base := (Nat.div_eq_zero_iff_lt (by omega)).mp hsmall
      rw [h0, tmpDigits, dif_pos rfl, ← hk, if_pos hn', Nat.mod_eq_of_lt hn']
      rfl
    · have hlarge : ¬n.toNat < base := by
        intro hn'
        rw [Nat.div_eq_of_lt hn'] at hquot
        exact h0 (UInt32.toNat_inj.mp hquot)
      rw [ih _ (by omega) h0 rfl, ← hk, if_neg hlarge, hquot, List.map_append]
      rfl

/-- What `print_number` gets of a precision. -/
def PrecisionIs (precision : ℤ) (p : Option ℕ) : Prop :=
  match p with
  | none => precision = -1
  | some p => precision = p ∧ 0 < p

/-- The field as `print_number` fills it, around a sign and the digits it has found. -/
def fillNumber (o : OutBuf) (sign : Option Char) (digits : List Char) (c : Char) (zeropad left : Bool) (s precision : ℤ) : OutBuf :=
  let precisionBak := precision
  let i : ℤ := digits.length
  let precision := if i > precision then i else precision
  let size := s - precision
  let (o, size) :=
    if !(zeropad || left) then o.putWhile ' ' (if sign.isSome && decide (size > 0) then size - 1 else size) else (o, size)
  let (o, size) :=
    match sign with
    | some sign => (o.put sign, size - 1)
    | none => (o, size)
  let (o, size) := if !left then o.putWhile c size else (o, size)
  let o := o.putN '0' (precision - i).toNat
  let o := if precisionBak ≠ 0 then o.puts digits else o
  (o.putWhile ' ' size).1

theorem precision_eq_max (i precision : ℤ) : (if i > precision then i else precision) = max i precision := by
  split
  · rw [max_eq_left (by omega)]
  · rw [max_eq_right (by omega)]

section

variable (o : OutBuf) (sign : Option Char) (digits : List Char) (c : Char) (s : ℤ) {precision : ℤ} (h0 : precision ≠ 0)
include h0

theorem fillNumber_left :
    fillNumber o sign digits c false true s precision =
      o.puts (sign.toList ++ (List.replicate (precision - digits.length).toNat '0' ++ (digits ++
        List.replicate (s - max (digits.length : ℤ) precision - sign.toList.length).toNat ' '))) := by
  have hzeros : (max (digits.length : ℤ) precision - digits.length).toNat = (precision - digits.length).toNat := by omega
  cases sign with
  | none => simp [fillNumber, precision_eq_max, hzeros, h0, OutBuf.putN_eq, OutBuf.putWhile_eq]
  | some sign => simp [fillNumber, precision_eq_max, hzeros, h0, OutBuf.putN_eq, OutBuf.putWhile_eq]

theorem fillNumber_blanks :
    fillNumber o sign digits c false false s precision =
      o.puts (List.replicate (s - max (digits.length : ℤ) precision - sign.toList.length).toNat ' ' ++ (sign.toList ++
        (List.replicate (precision - digits.length).toNat '0' ++ digits))) := by
  have hzeros : (max (digits.length : ℤ) precision - digits.length).toNat = (precision - digits.length).toNat := by omega
  cases sign with
  | none =>
    have hdone : (min (s - max (digits.length : ℤ) precision - 1) (-1)).toNat = 0 := by omega
    simp [fillNumber, precision_eq_max, hzeros, h0, hdone, OutBuf.putN_eq, OutBuf.putWhile_eq]
  | some sign =>
    have hroom : (if (digits.length : ℤ) < s ∧ precision < s then s - max (digits.length : ℤ) precision - 1
        else s - max (digits.length : ℤ) precision).toNat = (s - max (digits.length : ℤ) precision).toNat - 1 := by
      split
      · omega
      · omega
    simp [fillNumber, precision_eq_max, hzeros, h0, hroom, OutBuf.putN_eq, OutBuf.putWhile_eq]

theorem fillNumber_zeros :
    fillNumber o sign digits '0' true false s precision =
      o.puts (sign.toList ++ (List.replicate (s - max (digits.length : ℤ) precision - sign.toList.length).toNat '0' ++
        (List.replicate (precision - digits.length).toNat '0' ++ digits))) := by
  have hzeros : (max (digits.length : ℤ) precision - digits.length).toNat = (precision - digits.length).toNat := by omega
  cases sign with
  | none =>
    have hdone : (min (s - max (digits.length : ℤ) precision - 1) (-1)).toNat = 0 := by omega
    simp [fillNumber, precision_eq_max, hzeros, h0, hdone, OutBuf.putN_eq, OutBuf.putWhile_eq]
  | some sign =>
    have hdone : (min (s - max (digits.length : ℤ) precision - 1 - 1) (-1)).toNat = 0 := by omega
    simp [fillNumber, precision_eq_max, hzeros, h0, hdone, OutBuf.putN_eq, OutBuf.putWhile_eq]

end

/-- The field is filled as C prescribes. -/
theorem fillNumber_eq (o : OutBuf) {sign : Option Char} {digits : List Char} {s precision : ℤ} {f : Field} (hdigits : digits ≠ [])
    (hwidth : s.toNat = f.width) (hprec : PrecisionIs precision f.precision)
    (hex : f.zero = true → f.left = true ∨ f.precision = none) :
    fillNumber o sign digits (if !f.left && f.zero then '0' else ' ') (!f.left && f.zero) f.left s precision =
      o.puts (f.number sign.toList (digits.leftpad (f.precision.getD 1) '0')) := by
  have hpos : 0 < digits.length := List.length_pos_iff.mpr hdigits
  have h0 : precision ≠ 0 := by
    unfold PrecisionIs at hprec
    split at hprec
    · omega
    · omega
  have hzeros : (precision - digits.length).toNat = f.precision.getD 1 - digits.length := by
    unfold PrecisionIs at hprec
    cases hp : f.precision with
    | none =>
      simp only [hp, Option.getD_none] at hprec ⊢
      omega
    | some p =>
      simp only [hp, Option.getD_some] at hprec ⊢
      omega
  have hpad : digits.leftpad (f.precision.getD 1) '0' = List.replicate (precision - digits.length).toNat '0' ++ digits := by
    rw [hzeros]
    rfl
  have hcount : (s - max (digits.length : ℤ) precision - sign.toList.length).toNat =
      f.width - (sign.toList ++ digits.leftpad (f.precision.getD 1) '0').length := by
    rw [List.length_append, List.length_leftpad]
    omega
  generalize digits.leftpad (f.precision.getD 1) '0' = body at hpad hcount ⊢
  unfold Field.number Field.pad
  cases hl : f.left with
  | true =>
    simp only [Bool.not_true, Bool.false_and, Bool.and_false, Bool.false_eq_true, if_false, if_true]
    rw [fillNumber_left _ _ _ _ _ h0, hcount, List.rightpad, hpad]
    simp only [List.append_assoc]
  | false =>
    cases hz : f.zero with
    | false =>
      simp only [Bool.and_false, Bool.false_and, Bool.false_eq_true, if_false]
      rw [fillNumber_blanks _ _ _ _ _ h0, hcount, List.leftpad, hpad]
    | true =>
      have hnone : f.precision = none := (hex hz).resolve_left (by simp [hl])
      simp only [Bool.not_false, Bool.true_and, hnone, Option.isNone_none, if_true]
      rw [fillNumber_zeros _ _ _ _ h0, hcount, List.length_append, ← Nat.sub_sub, List.leftpad, hpad]

/-- The digits that `print_number` finds, the last one first. -/
def foundDigits (large : Bool) (base : ℕ) (num : UInt32) : List Char :=
  if num = 0 then ['0'] else tmpDigits (if large then largeDigits else smallDigits) base num

theorem reverse_foundDigits (large : Bool) {base : ℕ} (hb : base = 10 ∨ base = 16) (num : UInt32) :
    (foundDigits large base num).reverse =
      if large then (Nat.toDigits base num.toNat).map Char.toUpper else Nat.toDigits base num.toNat := by
  unfold foundDigits
  by_cases h0 : num = 0
  · subst h0
    rcases hb with rfl | rfl
    · cases large
      · rfl
      · rfl
    · cases large
      · rfl
      · rfl
  · rw [if_neg h0]
    cases large with
    | false => simpa using reverse_tmpDigits (g := id) (fun k hk => getD_smallDigits hk) hb h0
    | true => exact reverse_tmpDigits (fun k hk => getD_largeDigits hk) hb h0

/-- The sign that `print_number` puts. -/
def signChar (type : PrintFlags) (num : UInt32) : Option Char :=
  if type.sign then
    if num.toInt32.toInt < 0 then some '-' else if type.plus then some '+' else if type.space then some ' ' else none
  else none

theorem printNumber_eq_fillNumber (o : OutBuf) (num : UInt32) (base : ℕ) (s precision : ℤ) (type : PrintFlags) :
    printNumber o num base s precision type =
      fillNumber o (signChar type num)
        (foundDigits type.large base (if type.sign && decide (num.toInt32.toInt < 0) then -num else num)).reverse
        (if !type.left && type.zeropad then '0' else ' ') (!type.left && type.zeropad) type.left s precision := by
  obtain ⟨zeropad, sign, plus, space, left, special, large⟩ := type
  unfold printNumber fillNumber foundDigits signChar
  cases left with
  | true =>
    simp only [List.length_reverse, Bool.not_true, Bool.false_and]
    rfl
  | false =>
    simp only [List.length_reverse, Bool.not_false, Bool.true_and]
    rfl

/-- The flags that belong to a field. -/
structure FlagsOf (flags : PrintFlags) (f : Field) : Prop where
  plus : flags.plus = f.plus
  space : flags.space = f.space
  left : flags.left = f.left
  zeropad : flags.zeropad = f.zero

/-- `print_number` puts a sign and digits into the field. -/
theorem printNumber_eq (o : OutBuf) {num : UInt32} {base : ℕ} {s precision : ℤ} {type : PrintFlags} {f : Field}
    (hflags : FlagsOf type f) (hwidth : s.toNat = f.width) (hprec : PrecisionIs precision f.precision)
    (hex : f.zero = true → f.left = true ∨ f.precision = none) (hb : base = 10 ∨ base = 16) :
    printNumber o num base s precision type =
      o.puts (f.number (if type.sign then f.sign (decide (num.toInt32.toInt < 0)) else [])
        (f.digits base type.large (if type.sign && decide (num.toInt32.toInt < 0) then -num else num).toNat)) := by
  have hne : ∀ n, (foundDigits type.large base n).reverse ≠ [] := by
    intro n
    rw [reverse_foundDigits _ hb]
    split
    · simp
    · simp
  have hsign : (signChar type num).toList = if type.sign then f.sign (decide (num.toInt32.toInt < 0)) else [] := by
    unfold signChar Field.sign
    rw [hflags.plus, hflags.space]
    grind
  have hprec0 : f.precision ≠ some 0 := by
    intro h0
    rw [h0] at hprec
    exact absurd hprec.2 (by decide)
  rw [printNumber_eq_fillNumber, hflags.left, hflags.zeropad, fillNumber_eq o (hne _) hwidth hprec hex, hsign, reverse_foundDigits _ hb,
    Field.digits]
  simp only [hprec0, and_false, if_false]

/-! ## Reading a directive -/

theorem isDigit_eq (x : Char) : isDigit x = x.isDigit := by
  rw [Bool.eq_iff_iff, Char.isDigit_iff_toNat]
  simp [isDigit, Nat.lt_succ_iff]

/-- `skip_atoi` reads a numeral. -/
theorem skipAtoi_append {rest : List Char} (hrest : ∀ x ∈ rest.head?, isDigit x = false) {l : List Char} (hl : ∀ x ∈ l, isDigit x = true)
    (i : ℕ) : skipAtoi i (l ++ rest) = (Nat.ofDigitChars 10 l i, rest) := by
  induction l generalizing i with
  | nil =>
    cases rest with
    | nil => rfl
    | cons x rest => simp [skipAtoi, hrest x (by simp)]
  | cons x l ih =>
    rw [List.cons_append, skipAtoi, if_pos (hl x (by simp)), ih (fun y hy => hl y (by simp [hy])), Nat.ofDigitChars_cons,
      Nat.mul_comm i]
    rfl

theorem isDigit_toDigits {n : ℕ} : ∀ x ∈ Nat.toDigits 10 n, isDigit x = true := by
  intro x hx
  rw [isDigit_eq]
  exact Nat.isDigit_of_mem_toDigits (by decide) (by decide) hx

theorem skipAtoi_toDigits {rest : List Char} (hrest : ∀ x ∈ rest.head?, isDigit x = false) (n : ℕ) :
    skipAtoi 0 (Nat.toDigits 10 n ++ rest) = (n, rest) := by
  rw [skipAtoi_append hrest isDigit_toDigits, Nat.ofDigitChars_ten_toDigits]

/-- The first digit of a positive number is not 0. -/
theorem head_toDigits {n : ℕ} (hn : 0 < n) : ∃ x l, Nat.toDigits 10 n = x :: l ∧ isDigit x = true ∧ x ≠ '0' := by
  induction n using Nat.strong_induction_on with
  | _ n ih =>
    rw [Nat.toDigits_eq_if (by decide)]
    by_cases hlt : n < 10
    · have hall : ∀ k : Fin 10, isDigit (Nat.digitChar k) = true ∧ (0 < k.val → Nat.digitChar k ≠ '0') := by decide
      obtain ⟨hd, h0⟩ := hall ⟨n, hlt⟩
      rw [if_pos hlt]
      exact ⟨_, [], rfl, hd, h0 hn⟩
    · obtain ⟨x, l, hl, hx⟩ := ih (n / 10) (by omega) (by omega)
      rw [if_neg hlt, hl]
      exact ⟨x, l ++ [Nat.digitChar (n % 10)], rfl, hx⟩

/-- A character that is no flag. -/
def NoFlag (x : Char) : Prop := x ≠ '-' ∧ x ≠ '+' ∧ x ≠ ' ' ∧ x ≠ '#' ∧ x ≠ '0'

/-- The loop over the flags finds each of them, in any order. -/
theorem flagsLoop_source (flags : PrintFlags) (fs : List Flag) {rest : List Char} (hrest : ∀ x ∈ rest.head?, NoFlag x) :
    flagsLoop flags (fs.map Flag.char ++ rest) =
      ({ flags with
          left := flags.left || decide (.minus ∈ fs), plus := flags.plus || decide (.plus ∈ fs)
          space := flags.space || decide (.space ∈ fs), zeropad := flags.zeropad || decide (.zero ∈ fs) }, rest) := by
  induction fs generalizing flags with
  | nil =>
    cases rest with
    | nil => simp [flagsLoop]
    | cons x rest =>
      obtain ⟨h1, h2, h3, h4, h5⟩ := hrest x (by simp)
      simp [flagsLoop, h1, h2, h3, h4, h5]
  | cons fl fs ih =>
    cases fl with
    | minus => simp [Flag.char, flagsLoop, ih]
    | plus => simp [Flag.char, flagsLoop, ih]
    | space => simp [Flag.char, flagsLoop, ih]
    | zero => simp [Flag.char, flagsLoop, ih]

/-- The field width is read, and the field is filled on the right if it is negative. -/
theorem getFieldWidth_source (flags : PrintFlags) (width : Width) {rest : List Char}
    (hrest : ∀ x ∈ rest.head?, isDigit x = false ∧ x ≠ '*') {args args' : List Arg} {v : ℤ} (hv : width.value args = some (v, args')) :
    ∃ s : ℤ, s.toNat = v.natAbs ∧ getFieldWidth flags (width.source ++ rest) args =
      some (s, { flags with left := flags.left || decide (v < 0) }, rest, args') := by
  cases width with
  | free =>
    cases hv
    refine ⟨-1, rfl, ?_⟩
    cases rest with
    | nil => simp [Width.source, getFieldWidth]
    | cons x rest =>
      obtain ⟨hd, hs⟩ := hrest x (by simp)
      simp [Width.source, getFieldWidth, hd, hs]
  | fixed n pos =>
    cases hv
    refine ⟨n, rfl, ?_⟩
    have hskip := skipAtoi_toDigits (fun x hx => (hrest x hx).1) n
    obtain ⟨x, l, hl, hx, -⟩ := head_toDigits pos
    have hs : x ≠ '*' := by
      rintro rfl
      exact absurd hx (by decide)
    rw [hl] at hskip
    simp only [Width.source, hl, List.cons_append] at hskip ⊢
    have hpos : ¬(n : ℤ) < 0 := by omega
    simp [getFieldWidth, hs, hx, hskip, hpos]
  | star =>
    cases args with
    | nil => cases hv
    | cons a args =>
      cases a with
      | str s => cases hv
      | word w =>
        cases hv
        by_cases h : w.toInt32.toInt < 0
        · refine ⟨-w.toInt32.toInt, by omega, ?_⟩
          simp [Width.source, getFieldWidth, vaInt, h]
        · refine ⟨w.toInt32.toInt, by omega, ?_⟩
          simp [Width.source, getFieldWidth, vaInt, h]

/-- The precision is read. -/
theorem getPrecision_source (precision : Precision) {rest : List Char} (hrest : ∀ x ∈ rest.head?, isDigit x = false ∧ x ≠ '.')
    {args args' : List Arg} {p : Option ℕ} (hp : precision.value args = some (p, args')) (h0 : p ≠ some 0)
    (hstar : precision = .star → p.isSome = true) :
    ∃ k, PrecisionIs k p ∧ getPrecision (precision.source ++ rest) args = some (k, rest, args') := by
  cases precision with
  | free =>
    cases hp
    refine ⟨-1, rfl, ?_⟩
    cases rest with
    | nil => rfl
    | cons x rest =>
      have hx := (hrest x (by simp)).2
      simp [Precision.source, getPrecision, hx]
  | fixed n =>
    cases hp
    have hpos : 0 < n := Nat.pos_of_ne_zero fun h => h0 (by rw [h])
    refine ⟨n, ⟨rfl, hpos⟩, ?_⟩
    have hskip := skipAtoi_toDigits (fun x hx => (hrest x hx).1) n
    obtain ⟨x, l, hl, hx, -⟩ := head_toDigits hpos
    have hs : x ≠ '*' := by
      rintro rfl
      exact absurd hx (by decide)
    simp only [Precision.source, hl, List.cons_append] at hskip ⊢
    simp [getPrecision, afterDot, hs, hx, hskip]
  | star =>
    cases args with
    | nil => cases hp
    | cons a args =>
      cases a with
      | str s => cases hp
      | word w =>
        cases hp
        by_cases h : w.toInt32.toInt < 0
        · simp [h] at hstar
        · rw [if_neg h] at h0 ⊢
          have hpos : w.toInt32.toInt.toNat ≠ 0 := fun h => h0 (by rw [h])
          refine ⟨w.toInt32.toInt, ⟨by omega, by omega⟩, ?_⟩
          simp [Precision.source, getPrecision, afterDot, vaInt, h]

/-! ## The conversions -/

/-- What `rt_vsnprintf` does not do as C prescribes: it writes octal numbers in base 16, nothing at all where the precision is 0 and
a string whole, takes a negative precision for 0, and fills a field with zeros though there is a precision. -/
def asInC (d : Directive) (f : Field) : Bool :=
  d.conv != .o && f.precision != some 0 && (d.precision != .star || f.precision.isSome) &&
    (!f.zero || f.left || f.precision.isNone || d.conv == .s || d.conv == .c)

theorem natAbs_toInt32 (w : UInt32) :
    (if w.toInt32.toInt < 0 then -w else w).toNat = w.toInt32.toInt.natAbs := by
  have h : w.toInt32.toInt = if 2 * w.toNat < 2 ^ 32 then (w.toNat : ℤ) else w.toNat - 2 ^ 32 :=
    BitVec.toInt_eq_toNat_cond w.toBitVec
  have hlt := w.toNat_lt
  split at h
  · rw [if_neg (by omega)]
    omega
  · have hsize : UInt32.size = 4294967296 := rfl
    rw [if_pos (by omega), UInt32.toNat_neg, hsize]
    omega

/-- The number of a signed conversion. -/
theorem getNumber_signed (flags : PrintFlags) (hsign : flags.sign = true) (q : Qualifier) (w : UInt32) :
    (getNumber flags q.source.head? w).toInt32.toInt = q.signed w := by
  cases q with
  | word => rfl
  | l => rfl
  | h => simp [getNumber, Qualifier.source, hsign, Qualifier.signed]

theorem getNumber_unsigned (flags : PrintFlags) (hsign : flags.sign = false) (q : Qualifier) (w : UInt32) :
    (getNumber flags q.source.head? w).toNat = q.unsigned w := by
  cases q with
  | word => rfl
  | l => rfl
  | h => simp [getNumber, Qualifier.source, hsign, Qualifier.unsigned]

/-- A character in its field. -/
theorem putChar_eq (o : OutBuf) {flags : PrintFlags} {f : Field} (hf : FlagsOf flags f) {s : ℤ} (hs : s.toNat = f.width) (w : UInt32) :
    putChar o flags s w = o.puts (f.pad [Char.ofNat (w.toNat % 256)]) := by
  unfold putChar Field.pad
  rw [hf.left]
  have hcount : (s - 1).toNat = f.width - 1 := by omega
  cases f.left with
  | true => simp [OutBuf.putWhilePre_eq, List.rightpad, hcount]
  | false =>
    have hdone : (min (s - 1) 0 - 1).toNat = 0 := by omega
    simp [OutBuf.putWhilePre_eq, List.leftpad, hcount, hdone]

/-- A string in its field, cut to the precision. -/
theorem putString_eq (o : OutBuf) {flags : PrintFlags} {f : Field} (hf : FlagsOf flags f) {s k : ℤ} (hs : s.toNat = f.width)
    (hk : PrecisionIs k f.precision) (text : List Char) :
    putString o flags s k (some text) =
      o.puts (f.pad (match f.precision with
        | some p => text.take p
        | none => text)) := by
  have hcut : ∃ len : ℕ, (if k > 0 ∧ k < text.length then k else (text.length : ℤ)) = len ∧ (text.take len).length = len ∧
      (match f.precision with
        | some p => text.take p
        | none => text) = text.take len := by
    unfold PrecisionIs at hk
    cases hp : f.precision with
    | none =>
      simp only [hp] at hk
      refine ⟨text.length, ?_, ?_, ?_⟩
      · rw [if_neg (by omega)]
      · simp
      · simp
    | some p =>
      simp only [hp] at hk
      by_cases hlt : p < text.length
      · refine ⟨p, ?_, ?_, rfl⟩
        · rw [if_pos (by omega), hk.1]
        · rw [List.length_take]
          omega
      · refine ⟨text.length, ?_, ?_, ?_⟩
        · rw [if_neg (by omega)]
        · simp
        · simp only [List.take_length]
          exact List.take_of_length_le (by omega)
  obtain ⟨len, hlen, hlength, htext⟩ := hcut
  rw [htext]
  unfold putString Field.pad
  rw [hf.left]
  have hcount : (s - (len : ℤ)).toNat = f.width - len := by omega
  cases f.left with
  | true =>
    simp only [Option.getD_some, hlen]
    simp [OutBuf.putWhile_eq, List.rightpad, hlength, hcount, OutBuf.puts]
  | false =>
    have hdone : (min (s - (len : ℤ) - 1) (-1)).toNat = 0 := by omega
    simp only [Option.getD_some, hlen]
    simp [OutBuf.putWhile_eq, List.leftpad, hlength, hcount, hdone, OutBuf.puts]

/-! ## A directive -/

/-- A character that ends a number and is not the `*` or the `.` of a width or a precision. -/
def NoNumber (x : Char) : Prop := isDigit x = false ∧ x ≠ '*' ∧ x ≠ '.'

theorem noNumber_conv (conv : Conv) : NoNumber conv.char ∧ NoFlag conv.char := by
  cases conv with
  | d | i | u | o | x | X | s | c =>
    unfold NoNumber NoFlag
    decide

theorem getQualifier_source (q : Qualifier) (conv : Conv) (rest : List Char) :
    getQualifier (q.source ++ conv.char :: rest) = (q.source.head?, conv.char :: rest) := by
  cases q with
  | h => rfl
  | l => rfl
  | word =>
    cases conv with
    | d | i | u | o | x | X | s | c => rfl

theorem noFlag_of_isDigit {x : Char} (h : isDigit x = true) (h0 : x ≠ '0') : NoFlag x := by
  refine ⟨?_, ?_, ?_, ?_, h0⟩
  all_goals
    rintro rfl
    exact absurd h (by decide)

/-- A conversion puts the text of its argument. -/
theorem putConversion_source (o : OutBuf) (d : Directive) {flags : PrintFlags} {f : Field} (hflags : FlagsOf flags f)
    (hsign : flags.sign = false) (hlarge : flags.large = false) {s k : ℤ} (hs : s.toNat = f.width) (hk : PrecisionIs k f.precision)
    (hex : asInC d f = true) {arg : Arg} {text : List Char} (ht : d.convert f arg = some text) (args : List Arg) (rest : List Char) :
    putConversion o flags s k d.qualifier.source.head? (arg :: args) (d.conv.char :: rest) = some (o.puts text, rest, args) := by
  simp only [asInC, Bool.and_eq_true, Bool.or_eq_true, bne_iff_ne, beq_iff_eq, Bool.not_eq_true', ne_eq] at hex
  obtain ⟨⟨⟨hoct, -⟩, -⟩, hzero⟩ := hex
  cases arg with
  | str text' =>
    cases text' with
    | none => cases ht
    | some text' =>
      cases hc : d.conv with
      | s =>
        simp only [Directive.convert, hc, Option.some.injEq] at ht
        rw [← ht]
        exact congrArg some (congrArg (·, rest, args) (putString_eq o hflags hs hk text'))
      | d | i | u | o | x | X | c => simp [Directive.convert, hc] at ht
  | word w =>
    have hex' : d.conv ≠ .s → d.conv ≠ .c → f.zero = true → f.left = true ∨ f.precision = none := by
      intro hns hnc hz
      rcases hzero with (((hzero | hzero) | hzero) | hzero) | hzero
      · simp [hz] at hzero
      · exact Or.inl hzero
      · exact Or.inr (Option.isNone_iff_eq_none.mp hzero)
      · exact absurd hzero hns
      · exact absurd hzero hnc
    -- an unsigned number
    have hunsigned : ∀ {base large}, base = 10 ∨ base = 16 → d.conv ≠ .s → d.conv ≠ .c →
        printNumber o (getNumber { flags with large := large } d.qualifier.source.head? w) base s k { flags with large := large } =
          o.puts (f.number [] (f.digits base large (d.qualifier.unsigned w))) := by
      intro base large hb hns hnc
      have hlarge' : FlagsOf { flags with large := large } f := ⟨hflags.plus, hflags.space, hflags.left, hflags.zeropad⟩
      rw [printNumber_eq o hlarge' hs hk (hex' hns hnc) hb]
      have hn := getNumber_unsigned { flags with large := large } hsign d.qualifier w
      simp only [hsign, Bool.false_and, Bool.false_eq_true, if_false] at hn ⊢
      rw [hn]
    -- a signed one
    have hsigned : d.conv ≠ .s → d.conv ≠ .c →
        printNumber o (getNumber { flags with sign := true } d.qualifier.source.head? w) 10 s k { flags with sign := true } =
          o.puts (f.number (f.sign (decide (d.qualifier.signed w < 0))) (f.digits 10 false (d.qualifier.signed w).natAbs)) := by
      intro hns hnc
      have hsign' : FlagsOf { flags with sign := true } f := ⟨hflags.plus, hflags.space, hflags.left, hflags.zeropad⟩
      rw [printNumber_eq o hsign' hs hk (hex' hns hnc) (Or.inl rfl)]
      simp only [hlarge, Bool.true_and, decide_eq_true_eq, if_true]
      rw [natAbs_toInt32, getNumber_signed _ rfl]
    cases hc : d.conv with
    | s => simp [Directive.convert, hc] at ht
    | o => exact absurd hc hoct
    | c =>
      simp only [Directive.convert, hc, Option.some.injEq] at ht
      rw [← ht]
      exact congrArg some (congrArg (·, rest, args) (putChar_eq o hflags hs w))
    | d | i =>
      simp only [Directive.convert, hc, Option.some.injEq] at ht
      rw [← ht]
      exact congrArg some (congrArg (·, rest, args) (hsigned (by simp [hc]) (by simp [hc])))
    | u | x =>
      simp only [Directive.convert, hc, Option.some.injEq] at ht
      rw [← ht]
      have hflags : flags = { flags with large := false } := by rw [← hlarge]
      rw [hflags]
      exact congrArg some (congrArg (·, rest, args) (hunsigned (by simp) (by simp [hc]) (by simp [hc])))
    | X =>
      simp only [Directive.convert, hc, Option.some.injEq] at ht
      rw [← ht]
      exact congrArg some (congrArg (·, rest, args) (hunsigned (by simp) (by simp [hc]) (by simp [hc])))

/-- A directive of C behind its `%`, read and put. -/
theorem putDirective_source (o : OutBuf) (d : Directive) (rest : List Char) {args args' : List Arg} {f : Field} {arg : Arg} {text : List Char}
    (hf : d.field args = some (f, arg :: args')) (ht : d.convert f arg = some text) (hex : asInC d f = true) :
    putDirective o (d.flags.map Flag.char ++ (d.width.source ++ (d.precision.source ++ (d.qualifier.source ++ d.conv.char :: rest))))
      args = some (o.puts text, rest, args') := by
  -- what comes next, wherever the directive is cut
  have hconv : ∀ x ∈ (d.conv.char :: rest).head?, NoNumber x ∧ NoFlag x := by
    rintro _ ⟨⟩
    exact noNumber_conv d.conv
  have hqual : ∀ x ∈ (d.qualifier.source ++ d.conv.char :: rest).head?, NoNumber x ∧ NoFlag x := by
    cases d.qualifier with
    | word => exact hconv
    | h | l =>
      rintro _ ⟨⟩
      unfold NoNumber NoFlag
      decide
  have hprec : ∀ x ∈ (d.precision.source ++ (d.qualifier.source ++ d.conv.char :: rest)).head?,
      (isDigit x = false ∧ x ≠ '*') ∧ NoFlag x := by
    cases d.precision with
    | free => exact fun x hx => ⟨⟨(hqual x hx).1.1, (hqual x hx).1.2.1⟩, (hqual x hx).2⟩
    | fixed _ | star =>
      rintro _ ⟨⟩
      unfold NoFlag
      decide
  have hwidth : ∀ x ∈ (d.width.source ++ (d.precision.source ++ (d.qualifier.source ++ d.conv.char :: rest))).head?, NoFlag x := by
    cases d.width with
    | free => exact fun x hx => (hprec x hx).2
    | fixed n pos =>
      obtain ⟨y, l, hl, hy, h0⟩ := head_toDigits pos
      rw [Width.source, hl]
      rintro _ ⟨⟩
      exact noFlag_of_isDigit hy h0
    | star =>
      rintro _ ⟨⟩
      unfold NoFlag
      decide
  simp only [Directive.field, Option.bind_eq_bind, Option.bind_eq_some_iff, Option.pure_def, Option.some.injEq, Prod.exists, Prod.mk.injEq] at hf
  obtain ⟨v, args₁, hv, p, args₂, hp, rfl, rfl⟩ := hf
  have hex' := hex
  simp only [asInC, Bool.and_eq_true, Bool.or_eq_true, bne_iff_ne, beq_iff_eq, Bool.not_eq_true', ne_eq] at hex'
  obtain ⟨⟨⟨-, h0⟩, hstar⟩, -⟩ := hex'
  obtain ⟨s, hs, hfield⟩ := getFieldWidth_source
    { left := decide (.minus ∈ d.flags), plus := decide (.plus ∈ d.flags), space := decide (.space ∈ d.flags)
      zeropad := decide (.zero ∈ d.flags) } d.width (fun x hx => (hprec x hx).1) hv
  obtain ⟨k, hk, hprecision⟩ := getPrecision_source d.precision (fun x hx => ⟨(hqual x hx).1.1, (hqual x hx).1.2.2⟩) hp h0
    fun h => hstar.resolve_left (not_not.mpr h)
  unfold putDirective
  simp only [flagsLoop_source _ _ hwidth, Bool.false_or, hfield, hprecision, getQualifier_source, Option.bind_eq_bind, Option.bind_some]
  exact putConversion_source o d ⟨rfl, rfl, rfl, rfl⟩ rfl rfl hs hk hex ht args' rest

end RtStopwatch
