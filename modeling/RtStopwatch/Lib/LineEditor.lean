import Mathlib.Data.List.Destutter
import RtStopwatch.Lib.Machine
import RtStopwatch.Lib.Window

/-!
# Line editors with a history

A line under edit as a zipper, the keys that change it, and a history of the last lines entered. Over any characters, any capacity of
the history and any way to complete a line. `history_run` says what the history is after any keys in terms of the lines that have been
entered, `step_inv` what every step keeps. Last, the completion of a line to the longest prefix its candidates share.
-/

namespace Lib

variable {α : Type}

/-- A line and a cursor in it: what stands in front of it, the last character first, and what stands behind it. -/
structure Zipper (α : Type) where
  before : List α
  after : List α
  deriving DecidableEq, Repr

namespace Zipper

/-- The line. -/
def text (z : Zipper α) : List α := z.before.reverse ++ z.after

/-- A line with the cursor at its end. -/
def atEnd (s : List α) : Zipper α := { before := s.reverse, after := [] }

@[simp] theorem text_atEnd (s : List α) : (atEnd s).text = s := by simp [text, atEnd]

theorem length_text (z : Zipper α) : z.text.length = z.before.length + z.after.length := by simp [text]

/-- A character is put in front of the cursor. -/
def insert (z : Zipper α) (x : α) : Zipper α := { z with before := x :: z.before }

/-- The character in front of the cursor is taken away. -/
def backspace (z : Zipper α) : Zipper α := { z with before := z.before.tail }

/-- The cursor moves back. -/
def left (z : Zipper α) : Zipper α :=
  match z.before with
  | [] => z
  | x :: before => { before := before, after := x :: z.after }

/-- The cursor moves on. -/
def right (z : Zipper α) : Zipper α :=
  match z.after with
  | [] => z
  | x :: after => { before := x :: z.before, after := after }

@[simp] theorem text_left (z : Zipper α) : z.left.text = z.text := by
  obtain ⟨before, after⟩ := z
  cases before <;> simp [text, left]

@[simp] theorem text_right (z : Zipper α) : z.right.text = z.text := by
  obtain ⟨before, after⟩ := z
  cases after <;> simp [text, right]

theorem text_backspace_sublist (z : Zipper α) : z.backspace.text.Sublist z.text := by
  obtain ⟨before, after⟩ := z
  refine List.Sublist.append ?_ (List.Sublist.refl after)
  exact (List.tail_sublist before).reverse

end Zipper

/-- The keys. -/
inductive Key (α : Type) where
  | char (x : α)
  | left | right | backspace
  | up | down
  | tab
  | enter
  deriving DecidableEq, Repr

/-- The character that a key puts into the line. -/
def Key.typed : Key α → Option α
  | .char x => some x
  | _ => none

/-- The line under edit, the lines entered before it, the last one last, and how far back in them the user is. -/
structure LineEditor (α : Type) where
  line : Zipper α
  history : List (List α)
  current : ℕ
  deriving DecidableEq, Repr

namespace LineEditor

/-- The editor before any key. -/
def empty : LineEditor α := { line := Zipper.atEnd [], history := [], current := 0 }

/-- The line of the history that the user has gone to becomes the line under edit. -/
def goTo (e : LineEditor α) (k : ℕ) : LineEditor α :=
  { e with line := Zipper.atEnd (e.history.getD k []), current := k }

/-- The line and those of the history have the property `P`, the history is within its capacity and the user within the history. -/
structure Inv (cap : ℕ) (P : List α → Prop) (e : LineEditor α) : Prop where
  line : P e.line.text
  history : ∀ l ∈ e.history, P l ∧ l ≠ []
  cap : e.history.length ≤ cap
  current : e.current ≤ e.history.length

variable {cap : ℕ} {complete : List α → List α} {P : List α → Prop}

theorem inv_empty (h : P []) : Inv cap P (empty : LineEditor α) :=
  ⟨by rw [empty, Zipper.text_atEnd]; exact h, by simp [empty], Nat.zero_le _, Nat.le_refl _⟩

theorem Inv.mono {Q : List α → Prop} {e : LineEditor α} (hinv : Inv cap P e) (h : ∀ l, P l → Q l) : Inv cap Q e := by
  refine ⟨h _ hinv.line, ?_, hinv.cap, hinv.current⟩
  intro l hl
  obtain ⟨hP, hne⟩ := hinv.history l hl
  exact ⟨h l hP, hne⟩

/-- A line of the history. -/
theorem Inv.history_at {e : LineEditor α} (hinv : Inv cap P e) {k : ℕ} (hk : k < e.history.length) : P (e.history.getD k []) := by
  have hmem : e.history.getD k [] ∈ e.history := by
    rw [List.getD_eq_getElem?_getD, List.getElem?_eq_getElem hk, Option.getD_some]
    exact List.getElem_mem hk
  exact (hinv.history _ hmem).1

theorem Inv.goTo {e : LineEditor α} (hinv : Inv cap P e) {k : ℕ} (hk : k < e.history.length) : Inv cap P (e.goTo k) := by
  refine ⟨?_, hinv.history, hinv.cap, Nat.le_of_lt hk⟩
  rw [LineEditor.goTo, Zipper.text_atEnd]
  exact hinv.history_at hk

variable [DecidableEq α]

/-- A line is added to the history unless it is empty or the last one again; the oldest one leaves a full history. -/
def push (cap : ℕ) (history : List (List α)) (line : List α) : List (List α) :=
  if line = [] ∨ history.getLast? = some line then history else (history ++ [line]).rtake cap

/-- A key, and the line it enters. -/
def step (cap : ℕ) (complete : List α → List α) (e : LineEditor α) : Key α → Option (List α) × LineEditor α
  | .char x => (none, { e with line := e.line.insert x })
  | .left => (none, { e with line := e.line.left })
  | .right => (none, { e with line := e.line.right })
  | .backspace => (none, { e with line := e.line.backspace })
  | .up => (none, if e.current = 0 then e else e.goTo (e.current - 1))
  | .down => (none, if e.history = [] then e else e.goTo (min (e.current + 1) (e.history.length - 1)))
  | .tab => (none, { e with line := Zipper.atEnd (complete e.line.text) })
  | .enter =>
    (some e.line.text,
      { line := Zipper.atEnd [], history := push cap e.history e.line.text, current := (push cap e.history e.line.text).length })

/-! ### What every step keeps -/

theorem mem_push {history : List (List α)} {line l : List α} (h : l ∈ push cap history line) :
    l ∈ history ∨ l = line ∧ line ≠ [] := by
  unfold push at h
  split at h
  · exact Or.inl h
  · next hne =>
    rcases List.mem_append.mp (List.mem_of_mem_drop h) with hl | hl
    · exact Or.inl hl
    · exact Or.inr ⟨List.mem_singleton.mp hl, fun e => hne (Or.inl e)⟩

theorem length_push_le {history : List (List α)} (h : history.length ≤ cap) (line : List α) :
    (push cap history line).length ≤ cap := by
  unfold push
  split
  · exact h
  · rw [length_rtake]
    exact Nat.min_le_right _ _

/-- The step lemma: `P` is about all sublists of a line, a completion keeps it, and so does the character of this step. -/
theorem step_inv (hnil : P []) (hsub : ∀ s t, s.Sublist t → P t → P s) (hcomplete : ∀ s, P s → P (complete s))
    {e : LineEditor α} {k : Key α} (hchar : ∀ x, k = .char x → P (e.line.insert x).text) (hinv : Inv cap P e) :
    Inv cap P (step cap complete e k).2 := by
  cases k with
  | char x => exact ⟨hchar x rfl, hinv.history, hinv.cap, hinv.current⟩
  | left => exact ⟨by rw [step, Zipper.text_left]; exact hinv.line, hinv.history, hinv.cap, hinv.current⟩
  | right => exact ⟨by rw [step, Zipper.text_right]; exact hinv.line, hinv.history, hinv.cap, hinv.current⟩
  | backspace => exact ⟨hsub _ _ (Zipper.text_backspace_sublist _) hinv.line, hinv.history, hinv.cap, hinv.current⟩
  | up =>
    rw [step]
    split
    · exact hinv
    · have hle := hinv.current
      exact hinv.goTo (by omega)
  | down =>
    rw [step]
    split
    · exact hinv
    · next hne =>
      have hpos := List.length_pos_iff.mpr hne
      exact hinv.goTo (by omega)
  | tab =>
    refine ⟨?_, hinv.history, hinv.cap, hinv.current⟩
    rw [step, Zipper.text_atEnd]
    exact hcomplete _ hinv.line
  | enter =>
    refine ⟨by rw [step, Zipper.text_atEnd]; exact hnil, ?_, length_push_le hinv.cap _, Nat.le_refl _⟩
    intro l hl
    rcases mem_push hl with h | ⟨rfl, hne⟩
    · exact hinv.history l h
    · exact ⟨hinv.line, hne⟩

/-! ### The history -/

/-- A step changes the history only by the line it enters. -/
theorem history_step (cap : ℕ) (complete : List α → List α) (e : LineEditor α) (k : Key α) :
    (step cap complete e k).2.history = (step cap complete e k).1.elim e.history (push cap e.history) := by
  cases k with
  | up =>
    rw [step]
    split <;> rfl
  | down =>
    rw [step]
    split <;> rfl
  | _ => rfl

theorem destutter'_concat (a x : α) (l : List α) :
    (l ++ [x]).destutter' (· ≠ ·) a =
      if (a :: l).getLast? = some x then l.destutter' (· ≠ ·) a else l.destutter' (· ≠ ·) a ++ [x] := by
  induction l generalizing a with
  | nil =>
    by_cases h : a = x
    · simp [h]
    · simp [h]
  | cons b l ih =>
    by_cases h : a = b
    · rw [List.cons_append, List.destutter'_cons_neg _ (not_not.mpr h), List.destutter'_cons_neg _ (not_not.mpr h), ih, h,
        List.getLast?_cons_cons]
    · rw [List.cons_append, List.destutter'_cons_pos _ h, List.destutter'_cons_pos _ h, ih, List.getLast?_cons_cons]
      split
      · rfl
      · rfl

/-- A list without immediate repeats, after one more element. -/
theorem destutter_concat (l : List α) (x : α) :
    (l ++ [x]).destutter (· ≠ ·) =
      if l.getLast? = some x then l.destutter (· ≠ ·) else l.destutter (· ≠ ·) ++ [x] := by
  cases l with
  | nil => simp
  | cons a l => exact destutter'_concat a x l

/-- Its last element is that of the list. -/
theorem getLast?_destutter (l : List α) : (l.destutter (· ≠ ·)).getLast? = l.getLast? := by
  induction l using List.reverseRecOn with
  | nil => rfl
  | append_singleton l x ih =>
    rw [destutter_concat]
    split
    · next h => rw [ih, h, List.getLast?_concat]
    · rw [List.getLast?_concat, List.getLast?_concat]

/-- The last lines entered, without empty lines and immediate repeats. -/
def recent (cap : ℕ) (entered : List (List α)) : List (List α) :=
  ((entered.filter (· ≠ [])).destutter (· ≠ ·)).rtake cap

/-- The history is brought up to date by `push`. -/
theorem push_recent (hcap : 0 < cap) (entered : List (List α)) (line : List α) :
    push cap (recent cap entered) line = recent cap (entered ++ [line]) := by
  have hlast : (recent cap entered).getLast? = (entered.filter (· ≠ [])).getLast? := by
    rw [recent, getLast?_rtake hcap, getLast?_destutter]
  rw [push, hlast]
  unfold recent
  rw [List.filter_append]
  by_cases hline : line = []
  · rw [if_pos (Or.inl hline), hline]
    simp
  · rw [List.filter_cons_of_pos (by simpa using hline), List.filter_nil, destutter_concat]
    split
    · next h => rw [if_pos (h.resolve_left hline)]
    · next h => rw [if_neg (fun hl => h (Or.inr hl)), rtake_rtake_concat hcap]

end LineEditor

/-! ### Completion -/

section Completion

variable [DecidableEq α]

/-- The longest prefix two lists share. -/
def commonPrefix : List α → List α → List α
  | a :: s, b :: t => if a = b then a :: commonPrefix s t else []
  | _, _ => []

theorem prefix_commonPrefix_iff (p s t : List α) : p <+: commonPrefix s t ↔ p <+: s ∧ p <+: t := by
  induction s generalizing p t with
  | nil => simp +contextual [commonPrefix]
  | cons a s ih =>
    cases t with
    | nil => simp +contextual [commonPrefix]
    | cons b t =>
      cases p with
      | nil => simp
      | cons x p =>
        unfold commonPrefix
        split
        · next h => simp only [List.cons_prefix_cons, ih, h]; tauto
        · next h =>
          simp only [List.cons_prefix_cons, List.prefix_nil, reduceCtorEq, false_iff]
          rintro ⟨⟨rfl, -⟩, rfl, -⟩
          exact h rfl

theorem commonPrefix_self (s : List α) : commonPrefix s s = s := by
  induction s with
  | nil => rfl
  | cons a s ih => rw [commonPrefix, if_pos rfl, ih]

/-- A line completed as far as the names that begin with it agree; an empty line, or one with which no name begins, stays. -/
def completeWith (names : List (List α)) (line : List α) : List α :=
  if line = [] then []
  else
    match names.filter line.isPrefixOf with
    | [] => line
    | name :: names => names.foldl commonPrefix name

theorem prefix_foldl_commonPrefix_iff (p name : List α) (names : List (List α)) :
    p <+: names.foldl commonPrefix name ↔ ∀ x ∈ name :: names, p <+: x := by
  induction names generalizing name with
  | nil => simp
  | cons x names ih =>
    rw [List.foldl_cons, ih]
    simp only [List.forall_mem_cons, prefix_commonPrefix_iff, and_assoc]

/-- What a line is completed to: a text begins it if and only if it begins all the names that begin with the line. -/
theorem prefix_completeWith_iff {names : List (List α)} {line : List α} (hline : line ≠ []) (hname : ∃ x ∈ names, line <+: x)
    (p : List α) : p <+: completeWith names line ↔ ∀ x ∈ names, line <+: x → p <+: x := by
  have hmem : ∀ x, x ∈ names.filter line.isPrefixOf ↔ x ∈ names ∧ line <+: x := by
    intro x
    rw [List.mem_filter, List.isPrefixOf_iff_prefix]
  rw [completeWith, if_neg hline]
  cases hf : names.filter line.isPrefixOf with
  | nil =>
    obtain ⟨x, hx, hp⟩ := hname
    have := (hmem x).mpr ⟨hx, hp⟩
    rw [hf] at this
    exact absurd this List.not_mem_nil
  | cons y ys =>
    rw [prefix_foldl_commonPrefix_iff, ← hf]
    simp only [hmem, and_imp]

/-- A line with which no name begins stays. -/
theorem completeWith_of_no_name {names : List (List α)} {line : List α} (h : ∀ x ∈ names, ¬ line <+: x) :
    completeWith names line = line := by
  by_cases hline : line = []
  · rw [completeWith, if_pos hline, hline]
  · have hf : names.filter line.isPrefixOf = [] := by
      rw [List.filter_eq_nil_iff]
      intro x hx hp
      exact h x hx (List.isPrefixOf_iff_prefix.mp hp)
    rw [completeWith, if_neg hline, hf]

/-- A completed line is the line, or begins a name. -/
theorem completeWith_eq_or (names : List (List α)) (line : List α) :
    completeWith names line = line ∨ ∃ x ∈ names, completeWith names line <+: x := by
  by_cases hline : line = []
  · exact Or.inl (by rw [completeWith, if_pos hline, hline])
  · by_cases hname : ∃ x ∈ names, line <+: x
    · obtain ⟨x, hx, hp⟩ := hname
      exact Or.inr ⟨x, hx, (prefix_completeWith_iff hline ⟨x, hx, hp⟩ _).mp (List.prefix_refl _) x hx hp⟩
    · exact Or.inl (completeWith_of_no_name fun x hx hp => hname ⟨x, hx, hp⟩)

end Completion

end Lib
