import Mathlib.Data.List.Sort

/-!
# Queues kept in order

A newcomer is inserted before the first one it goes before, as `List.orderedInsert` does, and behind those that are its equals. The
comparison is that of a key, and needs to agree with it on the queue only.
-/

namespace Lib

variable {α β : Type} [LinearOrder β] {r : α → α → Prop} [DecidableRel r] {f : α → β}

/-- The queue stays in order. -/
theorem pairwise_orderedInsert {a : α} {l : List α} (hr : ∀ b ∈ l, r a b ↔ f a < f b) (hl : l.Pairwise fun x y => f x ≤ f y) :
    (l.orderedInsert r a).Pairwise fun x y => f x ≤ f y := by
  induction l with
  | nil => simp
  | cons b l ih =>
    obtain ⟨hb, hl⟩ := List.pairwise_cons.mp hl
    by_cases hab : r a b
    · have hlt : f a < f b := (hr b (by simp)).mp hab
      rw [List.orderedInsert_cons_of_le _ _ hab]
      refine List.pairwise_cons.mpr ⟨?_, List.pairwise_cons.mpr ⟨hb, hl⟩⟩
      intro x hx
      rcases List.mem_cons.mp hx with rfl | hx
      · exact hlt.le
      · exact hlt.le.trans (hb x hx)
    · have hge : f b ≤ f a := not_lt.mp fun h => hab ((hr b (by simp)).mpr h)
      rw [List.orderedInsert_of_not_le _ _ hab]
      refine List.pairwise_cons.mpr ⟨?_, ih (fun x hx => hr x (by simp [hx])) hl⟩
      intro x hx
      rcases (List.mem_orderedInsert r).mp hx with rfl | hx
      · exact hge
      · exact hb x hx

omit [LinearOrder β] in
/-- Only the comparisons with those in the queue matter. -/
theorem orderedInsert_congr {r' : α → α → Prop} [DecidableRel r'] {a : α} {l : List α} (h : ∀ b ∈ l, r a b ↔ r' a b) :
    l.orderedInsert r a = l.orderedInsert r' a := by
  induction l with
  | nil => rfl
  | cons b l ih =>
    have hb : r a b ↔ r' a b := h b (by simp)
    rw [List.orderedInsert, List.orderedInsert, ih fun x hx => h x (by simp [hx])]
    simp only [hb]

variable [DecidableEq α]

/-- A newcomer does not pass those it does not go before. -/
theorem idxOf_orderedInsert {a w : α} {l : List α} (hr : ∀ b ∈ l, r a b ↔ f a < f b) (hl : l.Pairwise fun x y => f x ≤ f y)
    (hw : w ∈ l) (ha : a ≠ w) :
    (l.orderedInsert r a).idxOf w ≤ l.idxOf w + if f a < f w then 1 else 0 := by
  induction l with
  | nil => cases hw
  | cons b l ih =>
    obtain ⟨hb, hl⟩ := List.pairwise_cons.mp hl
    by_cases hab : r a b
    · have hlt : f a < f b := (hr b (by simp)).mp hab
      have hbw : f b ≤ f w := by
        rcases List.mem_cons.mp hw with rfl | hw
        · exact le_rfl
        · exact hb w hw
      rw [List.orderedInsert_cons_of_le _ _ hab, List.idxOf_cons_ne _ ha, if_pos (hlt.trans_le hbw)]
    · rw [List.orderedInsert_of_not_le _ _ hab]
      by_cases hbw : b = w
      · subst hbw
        simp
      · rw [List.idxOf_cons_ne _ hbw, List.idxOf_cons_ne _ hbw]
        have := ih (fun x hx => hr x (by simp [hx])) hl (by simpa [Ne.symm hbw] using hw)
        omega

/-- Nobody falls back when another leaves. -/
theorem idxOf_erase_le {a w : α} {l : List α} (ha : a ≠ w) : (l.erase a).idxOf w ≤ l.idxOf w := by
  induction l with
  | nil => simp
  | cons b l ih =>
    by_cases hba : b = a
    · subst hba
      rw [List.erase_cons_head, List.idxOf_cons_ne _ ha]
      omega
    · rw [List.erase_cons_tail (by simpa using hba)]
      by_cases hbw : b = w
      · subst hbw
        simp
      · rw [List.idxOf_cons_ne _ hbw, List.idxOf_cons_ne _ hbw]
        omega

end Lib
