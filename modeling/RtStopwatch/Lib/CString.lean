import Mathlib.Data.List.TakeWhile
import Mathlib.Data.List.DropRight

/-!
# Texts in character arrays

An array of characters and the C string in it, which ends at the first NUL. The functions on arrays give nothing when a character
outside the array is read or written. `pad n text` is the array of `n` characters that holds a text and NULs behind it; the lemmas
say what each function does to such an array, so that what follows needs the texts only.
-/

namespace Lib

/-- The character that ends a string. -/
def nul : Char := Char.ofNat 0

namespace CString

/-- The string in an array. -/
def text (a : List Char) : List Char := a.takeWhile (· ≠ nul)

/-- The string from an index on, as `%s` prints it: nothing when no NUL ends it. -/
def str (a : List Char) (i : ℕ) : Option (List Char) := if nul ∈ a.drop i then some (text (a.drop i)) else none

/-- `strlen`. -/
def strlen (a : List Char) : Option ℕ := (str a 0).map List.length

/-- `a[i] = c`. -/
def set (a : List Char) (i : ℕ) (c : Char) : Option (List Char) := if i < a.length then some (List.set a i c) else none

/-- `memmove(&a[dst], &a[src], n)`. -/
def memmove (a : List Char) (dst src n : ℕ) : Option (List Char) :=
  if dst + n ≤ a.length ∧ src + n ≤ a.length then some (a.take dst ++ (a.drop src).take n ++ a.drop (dst + n)) else none

/-- `memcpy(a, b, n)`, of two arrays. -/
def memcpy (a b : List Char) (n : ℕ) : Option (List Char) :=
  if n ≤ a.length ∧ n ≤ b.length then some (b.take n ++ a.drop n) else none

/-- The array of `n` characters that holds a text. -/
def pad (n : ℕ) (s : List Char) : List Char := s ++ List.replicate (n - s.length) nul

variable {n : ℕ} {s t : List Char}

theorem length_pad (h : s.length ≤ n) : (pad n s).length = n := by
  rw [pad, List.length_append, List.length_replicate]
  omega

theorem text_append_replicate (h : nul ∉ s) (k : ℕ) : text (s ++ List.replicate k nul) = s := by
  have hs : ∀ c ∈ s, decide (c ≠ nul) = true := by
    intro c hc
    exact decide_eq_true fun e => h (e ▸ hc)
  rw [text, List.takeWhile_append_of_pos hs]
  cases k with
  | zero => exact List.append_nil s
  | succ k => rw [List.replicate_succ, List.takeWhile_cons_of_neg (by simp), List.append_nil]

/-- A text is read back from the array that holds it. -/
theorem text_pad (h : nul ∉ s) : text (pad n s) = s := text_append_replicate h _

/-- Arrays that hold different texts differ: what `memcmp` of the arrays compares are the texts. -/
theorem pad_inj (hs : nul ∉ s) (ht : nul ∉ t) : pad n s = pad n t ↔ s = t := by
  constructor
  · intro h
    rw [← text_pad (n := n) hs, ← text_pad (n := n) ht, h]
  · intro h
    rw [h]

theorem drop_pad {i : ℕ} (h : i ≤ s.length) : (pad n s).drop i = s.drop i ++ List.replicate (n - s.length) nul := by
  rw [pad, List.drop_append_of_le_length h]

/-- The string from an index in the text on. -/
theorem str_pad (hs : nul ∉ s) (hlt : s.length < n) {i : ℕ} (hi : i ≤ s.length) : str (pad n s) i = some (s.drop i) := by
  have hmem : nul ∈ (pad n s).drop i := by
    rw [drop_pad hi]
    exact List.mem_append_right _ (List.mem_replicate.mpr ⟨by omega, rfl⟩)
  have hdrop : nul ∉ s.drop i := fun h => hs (List.mem_of_mem_drop h)
  rw [str, if_pos hmem, drop_pad hi, text_append_replicate hdrop]

theorem strlen_pad (hs : nul ∉ s) (hlt : s.length < n) : strlen (pad n s) = some s.length := by
  rw [strlen, str_pad hs hlt (Nat.zero_le _), List.drop_zero, Option.map_some]

/-- A character written at the end of the text is appended to it. -/
theorem set_pad_end (hlt : s.length < n) (c : Char) : set (pad n s) s.length c = some (pad n (s ++ [c])) := by
  obtain ⟨k, hk⟩ : ∃ k, n - s.length = k + 1 := ⟨n - s.length - 1, by omega⟩
  have hk' : n - (s ++ [c]).length = k := by rw [List.length_append, List.length_singleton]; omega
  rw [set, if_pos (by rw [length_pad (by omega)]; exact hlt)]
  unfold pad
  rw [hk, hk', List.set_append_right _ _ (Nat.le_refl _), Nat.sub_self, List.replicate_succ, List.set_cons_zero,
    List.append_assoc, List.singleton_append]

/-- A NUL written on the last character of the text takes it away. -/
theorem set_pad_last (c : Char) (hlt : s.length < n) : set (pad n (s ++ [c])) s.length nul = some (pad n s) := by
  have hk : n - s.length = n - (s ++ [c]).length + 1 := by rw [List.length_append, List.length_singleton]; omega
  have hlen : s.length < (pad n (s ++ [c])).length := by
    rw [length_pad (by rw [List.length_append, List.length_singleton]; omega)]
    exact hlt
  rw [set, if_pos hlen]
  unfold pad
  rw [hk, List.append_assoc, List.set_append_right _ _ (Nat.le_refl _), Nat.sub_self, List.singleton_append, List.set_cons_zero,
    List.replicate_succ]

/-- The first characters of an array that all of the text is among. -/
theorem take_pad {m : ℕ} (hs : s.length ≤ m) (hm : m ≤ n) : (pad n s).take m = pad m s := by
  rw [pad, pad, List.take_append, List.take_of_length_le hs, List.take_replicate, Nat.min_eq_left (by omega)]

/-- A copy over all of the text leaves the NULs behind what is copied. -/
theorem memcpy_over {a : List Char} {m : ℕ} (ht : t.length ≤ m) (hm : m ≤ n) (ha : m ≤ a.length) :
    memcpy (pad n t) a m = some (a.take m ++ List.replicate (n - m) nul) := by
  rw [memcpy, if_pos ⟨by rw [length_pad (by omega)]; exact hm, ha⟩, pad, List.drop_append, List.drop_eq_nil_of_le ht,
    List.nil_append, List.drop_replicate, show n - t.length - (m - t.length) = n - m by omega]

/-- A text copied with its array over the text of another. -/
theorem memcpy_pad {m : ℕ} (hs : s.length ≤ m) (ht : t.length ≤ m) (hm : m ≤ n) :
    memcpy (pad n t) (pad m s) m = some (pad n s) := by
  rw [memcpy_over ht hm (Nat.le_of_eq (length_pad hs).symm), List.take_of_length_le (Nat.le_of_eq (length_pad hs)), pad, pad,
    List.append_assoc, List.replicate_append_replicate, show m - s.length + (n - m) = n - s.length by omega]

/-- A text copied out of a longer one. -/
theorem memcpy_take {m : ℕ} (ht : t.length ≤ m) (hm : m ≤ n) (hs : m ≤ s.length) :
    memcpy (pad n t) s m = some (pad n (s.take m)) := by
  rw [memcpy_over ht hm hs, pad, List.length_take, Nat.min_eq_left hs]

/-- An element written behind the first part of a list. -/
theorem set_append_cons {α : Type} {x y : List α} {i : ℕ} (h : x.length = i) (z c : α) :
    List.set (x ++ z :: y) i c = x ++ c :: y := by
  rw [List.set_append_right _ _ (Nat.le_of_eq h), h, Nat.sub_self, List.set_cons_zero]

/-- The text behind the cursor is moved up and a character put in front of it. -/
theorem insert_pad (b a : List Char) (c : Char) (hlt : (b ++ a).length < n) :
    (memmove (pad n (b ++ a)) (b.length + 1) b.length a.length).bind (fun l => set l b.length c) =
      some (pad n (b ++ c :: a)) := by
  have hlen : (pad n (b ++ a)).length = n := length_pad (Nat.le_of_lt hlt)
  have hba : (b ++ c :: a).length = (b ++ a).length + 1 := by simp [Nat.add_assoc]
  obtain ⟨k, hk⟩ : ∃ k, n - (b ++ a).length = k + 1 := ⟨n - (b ++ a).length - 1, by omega⟩
  have hp : pad n (b ++ a) = b ++ (a ++ List.replicate (k + 1) nul) := by rw [pad, hk, List.append_assoc]
  rw [List.length_append] at hlt hk
  -- the three parts that the move puts together
  have hsrc : ((pad n (b ++ a)).drop b.length).take a.length = a := by rw [hp, List.drop_left, List.take_left]
  have hend : (pad n (b ++ a)).drop (b.length + 1 + a.length) = List.replicate k nul := by
    rw [hp, show b.length + 1 + a.length = b.length + (a.length + 1) by omega, List.drop_length_add_append,
      List.drop_length_add_append, List.replicate_succ, List.drop_one, List.tail_cons]
  obtain ⟨x, hx⟩ : ∃ x, (pad n (b ++ a)).take (b.length + 1) = b ++ [x] := by
    cases a with
    | nil => exact ⟨nul, by rw [hp, List.take_length_add_append]; rfl⟩
    | cons y a => exact ⟨y, by rw [hp, List.take_length_add_append]; rfl⟩
  rw [memmove, if_pos ⟨by omega, by omega⟩, Option.bind_some, hsrc, hend, hx, List.append_assoc, List.append_assoc,
    List.singleton_append, set, if_pos (by simp), set_append_cons rfl, pad, hba,
    show n - ((b ++ a).length + 1) = k by rw [List.length_append]; omega, List.append_assoc, List.cons_append]

/-- The text behind the cursor is moved down onto the character in front of it, and a NUL put where it ended. -/
theorem erase_pad (b a : List Char) (c : Char) (hle : (b ++ c :: a).length ≤ n) :
    (memmove (pad n (b ++ c :: a)) b.length (b.length + 1) a.length).bind (fun l => set l (b ++ a).length nul) =
      some (pad n (b ++ a)) := by
  have hlen : (pad n (b ++ c :: a)).length = n := length_pad hle
  have hba : (b ++ c :: a).length = (b ++ a).length + 1 := by simp [Nat.add_assoc]
  obtain ⟨k, hk⟩ : ∃ k, k = n - (b ++ c :: a).length := ⟨_, rfl⟩
  have hp : pad n (b ++ c :: a) = b ++ (c :: a ++ List.replicate k nul) := by rw [pad, ← hk, List.append_assoc]
  have hlen' : (b ++ a).length = b.length + a.length := List.length_append
  have hdst : (pad n (b ++ c :: a)).take b.length = b := by rw [hp, List.take_left]
  have hsrc : ((pad n (b ++ c :: a)).drop (b.length + 1)).take a.length = a := by
    rw [hp, List.drop_length_add_append, List.cons_append, List.drop_one, List.tail_cons, List.take_left]
  obtain ⟨x, hx⟩ : ∃ x, (pad n (b ++ c :: a)).drop (b.length + a.length) = x :: List.replicate k nul := by
    rcases List.eq_nil_or_concat (c :: a) with h | ⟨a', x, h⟩
    · exact absurd h (List.cons_ne_nil c a)
    · have ha : a.length = a'.length := by
        have hl := congrArg List.length h
        rw [List.length_cons, List.length_concat] at hl
        omega
      exact ⟨x, by rw [hp, h, List.drop_length_add_append, ha, List.concat_eq_append, List.append_assoc, List.drop_left,
        List.singleton_append]⟩
  rw [memmove, if_pos ⟨by omega, by omega⟩, Option.bind_some, hdst, hsrc, hx, set, if_pos (by simp), set_append_cons rfl, pad,
    show n - (b ++ a).length = k + 1 by omega, List.replicate_succ]

end CString

end Lib
