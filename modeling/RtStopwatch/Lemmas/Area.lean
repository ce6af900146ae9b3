import RtStopwatch.Lemmas.Bus

/-!
# The calls of `OLED_UpdateArea`

Which pages its loop goes over, what it sends of them, and what the panel holds afterwards when it sends what it should
(`ram_after_oledUpdateArea`).
-/

namespace RtStopwatch

open Lib

variable {x y : Int16} {width height : UInt8}

/-- `Page1`: the page after the last. -/
def page1Of (y : Int16) (height : UInt8) : ℤ :=
  if y < 0 then (y.toInt + height.toNat - 1).tdiv 8 + 1 - 1 else (y.toInt + height.toNat - 1).tdiv 8 + 1

/-- The pages of the loop. -/
def loopPages (y : Int16) (height : UInt8) : List ℤ :=
  (List.range (page1Of y height - pageOf y).toNat).map fun k : ℕ => pageOf y + k

theorem mem_loopPages {y : Int16} {height : UInt8} {j : ℤ} :
    j ∈ loopPages y height ↔ pageOf y ≤ j ∧ j < page1Of y height := by
  unfold loopPages
  rw [List.mem_map]
  constructor
  · rintro ⟨k, hk, rfl⟩
    rw [List.mem_range] at hk
    omega
  · intro h
    exact ⟨(j - pageOf y).toNat, List.mem_range.mpr (by omega), by omega⟩

/-- The calls of `OLED_UpdateArea`, page by page. -/
theorem oledUpdateArea_eq (x y : Int16) (width height : UInt8) :
    oledUpdateArea x y width height =
      if 0 ≤ x.toInt ∧ x.toInt ≤ 127 then
        (loopPages y height).flatMap fun j => if 0 ≤ j ∧ j ≤ 7 then sendRow j.toNat x.toInt.toNat width else []
      else [] := by
  by_cases hx : 0 ≤ x.toInt ∧ x.toInt ≤ 127
  · simp only [oledUpdateArea, loopPages, List.flatMap_map, hx, true_and, and_self, if_true]
    rfl
  · have hguard : ∀ j : ℤ, ¬(0 ≤ x.toInt ∧ x.toInt ≤ 127 ∧ 0 ≤ j ∧ j ≤ 7) := fun j h => hx ⟨h.1, h.2.1⟩
    simp only [oledUpdateArea, hguard, hx, if_false]
    simp

theorem page1Of_of_nonneg {y : Int16} {height : UInt8} (hh : 1 ≤ height.toNat) (h : 0 ≤ y.toInt) :
    page1Of y height = (y.toInt + height.toNat - 1) / 8 + 1 := by
  rw [page1Of, if_neg (by rw [int16_neg_iff]; omega), tdiv_eight_of_nonneg (by omega)]

/-- For a negative `Y` the last page is left out when it is on the screen or below. -/
theorem page1Of_of_neg {y : Int16} {height : UInt8} (h : y.toInt < 0) (hend : 0 < y.toInt + height.toNat) :
    page1Of y height = (y.toInt + height.toNat - 1) / 8 := by
  rw [page1Of, if_pos (int16_neg_iff.mpr h), tdiv_eight_of_nonneg (by omega)]
  omega

/-- When all of it is above, no page is on the screen. -/
theorem page1Of_le_zero {y : Int16} {height : UInt8} (h : y.toInt < 0) (hend : y.toInt + height.toNat ≤ 0) :
    page1Of y height ≤ 0 := by
  rw [page1Of, if_pos (int16_neg_iff.mpr h), tdiv_eight_of_neg (by omega)]
  omega

/-- The data calls of `OLED_UpdateArea`. -/
theorem writeData_mem_oledUpdateArea {x y : Int16} {width height : UInt8} {page col : ℕ} {count : UInt8} :
    .writeData page col count ∈ oledUpdateArea x y width height ↔
      (0 ≤ x.toInt ∧ x.toInt ≤ 127) ∧ (page < 8 ∧ pageOf y ≤ page ∧ page < page1Of y height) ∧
        col = x.toInt.toNat ∧ count = width := by
  have hrow : ∀ j, .writeData page col count ∈ sendRow j x.toInt.toNat width ↔ page = j ∧ col = x.toInt.toNat ∧ count = width := by
    intro j
    simp [sendRow, oledSetCursor]
  rw [oledUpdateArea_eq]
  split
  · rename_i hx
    simp only [List.mem_flatMap, mem_loopPages, hx, and_self, true_and]
    constructor
    · rintro ⟨j, hj, hmem⟩
      split at hmem
      · obtain ⟨rfl, hcol⟩ := (hrow _).mp hmem
        exact ⟨by omega, hcol⟩
      · exact absurd hmem (List.not_mem_nil)
    · rintro ⟨⟨hlt, hpage⟩, hcol⟩
      refine ⟨page, hpage, ?_⟩
      rw [if_pos (by omega), hrow]
      exact ⟨by omega, hcol⟩
  · rename_i hx
    constructor
    · intro hmem
      exact absurd hmem List.not_mem_nil
    · rintro ⟨hx', -⟩
      exact absurd hx' hx

theorem oledUpdateArea_eq_nil_of_neg (h : x.toInt < 0) (y : Int16) (width height : UInt8) :
    oledUpdateArea x y width height = [] := by
  rw [oledUpdateArea_eq, if_neg (by omega)]

/-! ## The area in the panel -/

/-- The rectangle touches the page `q`. -/
def Touches (y : Int16) (height : UInt8) (q : ℤ) : Prop := y.toInt < 8 * q + 8 ∧ 8 * q < y.toInt + height.toNat

instance (y : Int16) (height : UInt8) (q : ℤ) : Decidable (Touches y height q) := inferInstanceAs (Decidable (_ ∧ _))

/-- The columns are on the screen, and the rows do not begin above it and end on it. -/
def Sendable (x y : Int16) (width height : UInt8) : Prop :=
  0 ≤ x.toInt ∧ x.toInt + width.toNat ≤ 128 ∧ (0 ≤ y.toInt ∨ 64 < y.toInt + height.toNat)

/-- The pages that are sent are those the rectangle touches. -/
theorem mem_loopPages_iff_touches (hh : 1 ≤ height.toNat) (h : 0 ≤ y.toInt ∨ 64 < y.toInt + height.toNat) (q : Fin 8) :
    (q : ℤ) ∈ loopPages y height ↔ Touches y height q := by
  have hq := q.isLt
  rw [mem_loopPages, Touches]
  by_cases hy : 0 ≤ y.toInt
  · rw [pageOf_of_nonneg hy, page1Of_of_nonneg hh hy]
    omega
  · rw [pageOf_of_neg (by omega), page1Of_of_neg (by omega) (by omega)]
    omega

theorem ram_after_oledUpdateArea (hw : 1 ≤ width.toNat) (hh : 1 ≤ height.toNat) (h : Sendable x y width height) {addr : UInt8}
    {buf : DisplayBuf} {beyond : ℕ → UInt8} {p : Panel} (q : Fin 8) (i : Fin 128) :
    (p.after addr (buf.memory beyond) (oledUpdateArea x y width height)).ram q i =
      if (x.toInt ≤ i ∧ (i : ℤ) < x.toInt + width.toNat) ∧ Touches y height q then buf q i else p.ram q i := by
  obtain ⟨hx, hend, hy⟩ := h
  obtain ⟨x', hx'⟩ : ∃ x' : Fin 128, x.toInt.toNat = x' := ⟨⟨x.toInt.toNat, by omega⟩, rfl⟩
  rw [oledUpdateArea_eq, if_pos ⟨hx, by omega⟩, hx', ram_after_rows _ _ (by omega)]
  apply if_congr _ rfl rfl
  rw [mem_loopPages_iff_touches hh hy, and_comm]
  apply and_congr_left
  intro _
  omega

end RtStopwatch
