import Mathlib.Data.List.Infix

/-!
# Regular expressions

The fragment of regular expressions made of literal texts and of runs of characters of a class, matched as a backtracking engine
does: a run takes as many characters as there are and gives them back one at a time, and `search` takes the leftmost match.
-/

namespace Lib

/-- A piece of a pattern: a text, or one or more characters of a class, in a group or not. -/
inductive Piece (α : Type) where
  | lit (text : List α)
  | run (p : α → Bool) (group : Bool)

namespace Piece

variable {α : Type}

theorem takeWhile_append_of_head {p : α → Bool} {t l : List α} (ht : ∀ x ∈ t, p x = true) (hl : ∀ x ∈ l.head?, p x = false) :
    (t ++ l).takeWhile p = t := by
  rw [List.takeWhile_append_of_pos ht]
  cases l with
  | nil => simp
  | cons x l => simp [hl x rfl]

variable [DecidableEq α]

/-- The groups of the match at the head of `l`. -/
def matchHere : List (Piece α) → List α → Option (List (List α))
  | [], _ => some []
  | .lit t :: ps, l => if t <+: l then matchHere ps (l.drop t.length) else none
  | .run p group :: ps, l =>
    -- the longest run first, down to one character
    (List.range (l.takeWhile p).length).reverse.findSome? fun n =>
      (matchHere ps (l.drop (n + 1))).map fun gs => if group then l.take (n + 1) :: gs else gs

/-- The groups of the leftmost match in `l`. -/
def search (ps : List (Piece α)) : List α → Option (List (List α))
  | [] => matchHere ps []
  | x :: l => (matchHere ps (x :: l)).or (search ps l)

theorem matchHere_lit_append (t : List α) (ps : List (Piece α)) (l : List α) :
    matchHere (.lit t :: ps) (t ++ l) = matchHere ps l := by
  simp [matchHere]

theorem matchHere_lit_eq_none {t l : List α} (h : ¬ t <+: l) (ps : List (Piece α)) : matchHere (.lit t :: ps) l = none := by
  simp [matchHere, h]

/-- A run that takes all it can and lets the rest match gives nothing back. -/
theorem matchHere_run_append {p : α → Bool} {t l : List α} (hne : t ≠ []) (ht : ∀ x ∈ t, p x = true)
    (hl : ∀ x ∈ l.head?, p x = false) {ps : List (Piece α)} {gs : List (List α)} (h : matchHere ps l = some gs) (group : Bool) :
    matchHere (.run p group :: ps) (t ++ l) = some (if group then t :: gs else gs) := by
  obtain ⟨n, hn⟩ : ∃ n, t.length = n + 1 := ⟨t.length - 1, by have := List.length_pos_iff.mpr hne; omega⟩
  rw [matchHere, takeWhile_append_of_head ht hl, hn, List.range_succ, List.reverse_append, List.reverse_singleton]
  simp [← hn, h]

/-- A match at the head is the leftmost one. -/
theorem search_of_matchHere {ps : List (Piece α)} {l : List α} {gs : List (List α)} (h : matchHere ps l = some gs) :
    search ps l = some gs := by
  cases l with
  | nil => exact h
  | cons x l => simp [search, h]

/-- A pattern that begins with a text does not match where the text does not occur. -/
theorem search_lit_eq_none {t l : List α} (h : ¬ t <:+: l) (ps : List (Piece α)) : search (.lit t :: ps) l = none := by
  induction l with
  | nil => exact matchHere_lit_eq_none (fun hp => h hp.isInfix) ps
  | cons x l ih =>
    rw [search, matchHere_lit_eq_none (fun hp => h hp.isInfix), Option.none_or]
    apply ih
    intro hi
    exact h (List.infix_cons hi)

end Piece

end Lib
