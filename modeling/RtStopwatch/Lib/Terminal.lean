import Mathlib.Data.List.Induction

/-!
# The row of a terminal

What a terminal does to the row its cursor is in: a graphic character overwrites what is at the cursor, backspace and carriage return
move the cursor, a newline starts a fresh row, and the sequence that erases the row empties it. Rows are as wide as is needed. `cursor x y`
is the terminal with its cursor between `x` and `y`; each lemma says what a text does to it.
-/

namespace Lib

/-- How much of a control sequence has come. -/
inductive TermMode where
  | plain | escape | bracket | two
  deriving DecidableEq, Repr

/-- The row, and the column of the cursor. -/
structure Terminal where
  mode : TermMode
  row : List Char
  col : ℕ
  deriving DecidableEq, Repr

namespace Terminal

/-- A character at the cursor. -/
def put (t : Terminal) (c : Char) : Terminal :=
  { t with row := t.row.take t.col ++ c :: t.row.drop (t.col + 1), col := t.col + 1 }

/-- What a character does. -/
def feedChar (t : Terminal) (c : Char) : Terminal :=
  match t.mode with
  | .plain =>
    if c = '\x08' then { t with col := t.col - 1 }
    else if c = '\r' then { t with col := 0 }
    else if c = '\n' then { t with row := [], col := 0 }
    else if c = '\x1b' then { t with mode := .escape }
    else t.put c
  | .escape => { t with mode := if c = '[' then .bracket else .plain }
  | .bracket => { t with mode := if c = '2' then .two else .plain }
  | .two => { t with mode := .plain, row := if c = 'K' then [] else t.row }

/-- What a text does. -/
def feed (t : Terminal) (s : List Char) : Terminal := s.foldl feedChar t

/-- The terminal with its cursor between `x` and `y`. -/
def cursor (x y : List Char) : Terminal := { mode := .plain, row := x ++ y, col := x.length }

/-- A character that a terminal shows. -/
def Graphic (c : Char) : Prop := 32 ≤ c.toNat ∧ c.toNat < 127

instance (c : Char) : Decidable (Graphic c) := inferInstanceAs (Decidable (_ ∧ _))

/-- The characters of a text, checked one by one. -/
theorem graphic_of_all {s : List Char} (h : (s.all fun c => decide (Graphic c)) = true) : ∀ c ∈ s, Graphic c := by
  intro c hc
  exact of_decide_eq_true (List.all_eq_true.mp h c hc)

@[simp] theorem feed_nil (t : Terminal) : t.feed [] = t := rfl

@[simp] theorem feed_cons (t : Terminal) (c : Char) (s : List Char) : t.feed (c :: s) = (t.feedChar c).feed s := rfl

theorem feed_append (t : Terminal) (s s' : List Char) : t.feed (s ++ s') = (t.feed s).feed s' := List.foldl_append

variable {x y : List Char}

theorem feedChar_graphic {c : Char} (h : Graphic c) : (cursor x y).feedChar c = cursor (x ++ [c]) (y.drop 1) := by
  obtain ⟨hlo, hhi⟩ := h
  have hne : ∀ d : Char, d.toNat < 32 → c ≠ d := by
    intro d hd e
    rw [e] at hlo
    omega
  rw [feedChar, cursor]
  dsimp only
  rw [if_neg (hne _ (by decide)), if_neg (hne _ (by decide)), if_neg (hne _ (by decide)), if_neg (hne _ (by decide)), put, cursor,
    List.take_left, List.drop_length_add_append, List.length_append, List.length_singleton, List.append_assoc,
    List.singleton_append]

/-- A text of graphic characters overwrites what stood behind the cursor. -/
theorem feed_graphic {s : List Char} (h : ∀ c ∈ s, Graphic c) : (cursor x y).feed s = cursor (x ++ s) (y.drop s.length) := by
  induction s generalizing x y with
  | nil => simp
  | cons c s ih =>
    rw [feed_cons, feedChar_graphic (h c List.mem_cons_self), ih (fun d hd => h d (List.mem_cons_of_mem _ hd)), List.append_assoc,
      List.singleton_append, List.drop_drop, List.length_cons, Nat.add_comm]

/-- A backspace moves the cursor back. -/
theorem feedChar_backspace (c : Char) : (cursor (x ++ [c]) y).feedChar '\x08' = cursor x (c :: y) := by
  simp [feedChar, cursor]

/-- As many backspaces as there are characters in front of the cursor, or in a part of them. -/
theorem feed_backspaces (w : List Char) :
    (cursor (x ++ w) y).feed (List.replicate w.length '\x08') = cursor x (w ++ y) := by
  induction w using List.reverseRecOn generalizing y with
  | nil => simp
  | append_singleton w c ih =>
    rw [List.length_append, List.length_singleton, List.replicate_succ, feed_cons, ← List.append_assoc, feedChar_backspace, ih,
      List.append_assoc, List.singleton_append]

/-- A newline starts a fresh row. -/
@[simp] theorem feedChar_newline : (cursor x y).feedChar '\n' = cursor [] [] := rfl

/-- The row is erased, and the cursor goes to its start. -/
theorem feed_erase : (cursor x y).feed "\x1b[2K\r".toList = cursor [] [] := rfl

/-! ### Lines of text -/

/-- A text of graphic characters and newlines, in whole lines. -/
def WholeLines (s : List Char) : Prop := (∀ c ∈ s, Graphic c ∨ c = '\n') ∧ (s = [] ∨ s.getLast? = some '\n')

instance (s : List Char) : Decidable (WholeLines s) := @instDecidableAnd _ _ (List.decidableBAll _ s) inferInstance

theorem wholeLines_nil : WholeLines [] := ⟨fun _ h => absurd h List.not_mem_nil, Or.inl rfl⟩

/-- A line. -/
theorem wholeLines_line {s : List Char} (h : ∀ c ∈ s, Graphic c) : WholeLines (s ++ ['\n']) := by
  refine ⟨?_, Or.inr List.getLast?_concat⟩
  intro c hc
  rcases List.mem_append.mp hc with hc | hc
  · exact Or.inl (h c hc)
  · exact Or.inr (List.mem_singleton.mp hc)

theorem WholeLines.append {s s' : List Char} (h : WholeLines s) (h' : WholeLines s') : WholeLines (s ++ s') := by
  obtain ⟨hmem, hlast⟩ := h
  obtain ⟨hmem', hlast'⟩ := h'
  refine ⟨fun c hc => (List.mem_append.mp hc).elim (hmem c) (hmem' c), ?_⟩
  rcases hlast' with rfl | hlast'
  · rw [List.append_nil]
    exact hlast
  · exact Or.inr (by rw [List.getLast?_append, hlast']; rfl)

theorem WholeLines.flatten {ss : List (List Char)} (h : ∀ s ∈ ss, WholeLines s) : WholeLines ss.flatten := by
  induction ss with
  | nil => exact wholeLines_nil
  | cons s ss ih => exact (h s List.mem_cons_self).append (ih fun s' hs' => h s' (List.mem_cons_of_mem _ hs'))

/-- A text of graphic characters and newlines leaves the cursor somewhere in a row. -/
theorem feed_lines {s : List Char} (h : ∀ c ∈ s, Graphic c ∨ c = '\n') : ∃ x' y', (cursor x y).feed s = cursor x' y' := by
  induction s generalizing x y with
  | nil => exact ⟨x, y, rfl⟩
  | cons c s ih =>
    have hs : ∀ d ∈ s, Graphic d ∨ d = '\n' := fun d hd => h d (List.mem_cons_of_mem _ hd)
    rw [feed_cons]
    rcases h c List.mem_cons_self with hc | rfl
    · rw [feedChar_graphic hc]
      exact ih hs
    · rw [feedChar_newline]
      exact ih hs

/-- Whole lines leave the cursor at the start of a fresh row. -/
theorem feed_wholeLines {s : List Char} (h : WholeLines s) : (cursor [] []).feed s = cursor [] [] := by
  obtain ⟨hmem, rfl | hlast⟩ := h
  · rfl
  · obtain ⟨s', rfl⟩ := List.getLast?_eq_some_iff.mp hlast
    obtain ⟨x', y', hfeed⟩ := feed_lines (x := []) (y := []) fun c hc => hmem c (List.mem_append_left _ hc)
    rw [feed_append, hfeed]
    rfl

end Terminal

end Lib
