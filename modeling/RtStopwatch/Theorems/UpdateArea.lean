import RtStopwatch.Lemmas.Area

/-!
# When an area of the screen is refreshed

`OLED_UpdateArea` sends whole bytes of the pages between the first and the last row of the area. It clips neither the columns nor,
for a negative `Y`, the pages as it should: the area is refreshed, and nothing else, exactly when it is off the screen, or when its
columns are on the screen and its rows do not begin above the screen and end on it (`update_area_iff`).
-/

namespace RtStopwatch

open Lib

/-- What `OLED_UpdateArea` should do, for every buffer and every panel: the pixels of the rectangle that are on the screen become
those of the buffer, the bytes that are not both in its columns and in its pages stay, and only bytes of the page being sent are
read. -/
def AreaUpdated (x y : Int16) (width height : UInt8) : Prop :=
  ∀ (addr : UInt8) (buf : DisplayBuf) (beyond : ℕ → UInt8) (p : Panel),
    let p' := p.after addr (buf.memory beyond) (oledUpdateArea x y width height)
    (∀ (i : Fin 128) (j : Fin 64), InArea x y width height i j → p'.ram.pixel i j = buf.pixel i j) ∧
    (∀ (q : Fin 8) (i : Fin 128), ¬((x.toInt ≤ i ∧ (i : ℤ) < x.toInt + width.toNat) ∧ Touches y height q) →
      p'.ram q i = p.ram q i) ∧
    ∀ page col count, .writeData page col count ∈ oledUpdateArea x y width height → page < 8 ∧ col + count.toNat ≤ 128

/-- No point of the rectangle is on the screen. -/
def OffScreen (x y : Int16) (width height : UInt8) : Prop :=
  x.toInt + width.toNat ≤ 0 ∨ 128 ≤ x.toInt ∨ y.toInt + height.toNat ≤ 0 ∨ 64 ≤ y.toInt

/-! ## When it holds -/

variable {x y : Int16} {width height : UInt8}

theorem oledUpdateArea_eq_nil (hw : 1 ≤ width.toNat) (hh : 1 ≤ height.toNat) (h : OffScreen x y width height) :
    oledUpdateArea x y width height = [] := by
  rw [oledUpdateArea_eq]
  split
  · rename_i hx
    rw [List.flatMap_eq_nil_iff]
    intro j hj
    rw [mem_loopPages] at hj
    apply if_neg
    rcases h with h | h | h | h
    · omega
    · omega
    · have := page1Of_le_zero (by omega) h
      omega
    · have := pageOf_of_nonneg (y := y) (by omega)
      omega
  · rfl

theorem areaUpdated_of_offScreen (hw : 1 ≤ width.toNat) (hh : 1 ≤ height.toNat) (h : OffScreen x y width height) :
    AreaUpdated x y width height := by
  intro addr buf beyond p
  rw [oledUpdateArea_eq_nil hw hh h]
  refine ⟨?_, fun _ _ _ => rfl, ?_⟩
  · intro i j hin
    unfold OffScreen at h
    unfold InArea at hin
    omega
  · intro page col count hmem
    exact absurd hmem List.not_mem_nil

theorem areaUpdated_of_sendable (hw : 1 ≤ width.toNat) (hh : 1 ≤ height.toNat) (h : Sendable x y width height) :
    AreaUpdated x y width height := by
  intro addr buf beyond p
  refine ⟨?_, ?_, ?_⟩
  · intro i j hin
    have hq := val_page j
    unfold DisplayBuf.pixel
    rw [ram_after_oledUpdateArea hw hh h, if_pos]
    refine ⟨hin.1, ?_⟩
    have hrow := hin.2
    unfold Touches
    rw [hq]
    omega
  · intro q i hout
    rw [ram_after_oledUpdateArea hw hh h, if_neg hout]
  · intro page col count hmem
    obtain ⟨-, hpage, rfl, rfl⟩ := writeData_mem_oledUpdateArea.mp hmem
    have hend := h.2.1
    have hx := h.1
    omega

/-! ## When it does not -/

/-- A pixel of the rectangle whose byte stays is not refreshed in every panel. -/
theorem not_areaUpdated_of_stays {i : Fin 128} {j : Fin 64} (hin : InArea x y width height i j)
    (hstay : ∀ (memory : ℕ → UInt8) (p : Panel),
      (p.after 0x78 memory (oledUpdateArea x y width height)).ram (Fin.ofNat 8 (j / 8)) i = p.ram (Fin.ofNat 8 (j / 8)) i) :
    ¬AreaUpdated x y width height := by
  intro h
  -- a buffer of ones and a panel of zeros
  obtain ⟨hpix, -⟩ := h 0x78 (fun _ _ => 0xFF) (fun _ => 0) { page := 0, col := 0, ram := fun _ _ => 0 }
  have hij := hpix i j hin
  unfold DisplayBuf.pixel at hij
  rw [hstay] at hij
  have hone : (0xFF : UInt8).toNat.testBit ((j : ℕ) % 8) = true := by
    have h255 : (0xFF : UInt8).toNat = 2 ^ 8 - 1 := rfl
    rw [h255, Nat.testBit_two_pow_sub_one]
    exact decide_eq_true (Nat.mod_lt _ (by decide))
  rw [hone] at hij
  simp at hij

theorem sendable_of_areaUpdated (hw : 1 ≤ width.toNat) (hh : 1 ≤ height.toNat) (hon : ¬OffScreen x y width height)
    (h : AreaUpdated x y width height) : Sendable x y width height := by
  unfold OffScreen at hon
  have hx : 0 ≤ x.toInt := by
    by_contra hneg
    refine not_areaUpdated_of_stays (i := ⟨0, by decide⟩) (j := ⟨y.toInt.toNat, by omega⟩) ?_ ?_ h
    · unfold InArea
      dsimp only
      omega
    · intro memory p
      rw [oledUpdateArea_eq_nil_of_neg (by omega)]
      rfl
  have hy : 0 ≤ y.toInt ∨ 64 < y.toInt + height.toNat := by
    by_contra hneg
    -- the page of the last row is not sent
    refine not_areaUpdated_of_stays (i := ⟨x.toInt.toNat, by omega⟩) (j := ⟨(y.toInt + height.toNat - 1).toNat, by omega⟩) ?_ ?_ h
    · unfold InArea
      dsimp only
      omega
    · intro memory p
      rw [oledUpdateArea_eq, if_pos (by omega)]
      apply ram_after_rows_of_not_mem _ ⟨x.toInt.toNat, by omega⟩
      rw [mem_loopPages, page1Of_of_neg (by omega) (by omega), Fin.val_ofNat]
      dsimp only
      omega
  refine ⟨hx, ?_, hy⟩
  obtain ⟨-, -, hread⟩ := h 0x78 (fun _ _ => 0) (fun _ => 0) { page := 0, col := 0, ram := fun _ _ => 0 }
  have hsent : ∃ page : ℕ, page < 8 ∧ pageOf y ≤ page ∧ page < page1Of y height := by
    by_cases hy0 : 0 ≤ y.toInt
    · refine ⟨(y.toInt / 8).toNat, ?_⟩
      rw [pageOf_of_nonneg hy0, page1Of_of_nonneg hh hy0]
      omega
    · refine ⟨0, ?_⟩
      rw [pageOf_of_neg (by omega), page1Of_of_neg (by omega) (by omega)]
      omega
  obtain ⟨page, hpage⟩ := hsent
  have := hread page x.toInt.toNat width (writeData_mem_oledUpdateArea.mpr ⟨⟨hx, by omega⟩, hpage, rfl, rfl⟩)
  omega

/-- `OLED_UpdateArea` refreshes the area and nothing outside its pages, reading only the page it sends, exactly when the area is off
the screen, or when its columns are on the screen and its rows do not begin above it and end on it. -/
theorem update_area_iff (x y : Int16) (width height : UInt8) (hw : 1 ≤ width.toNat) (hh : 1 ≤ height.toNat) :
    AreaUpdated x y width height ↔ OffScreen x y width height ∨ Sendable x y width height := by
  constructor
  · intro h
    by_cases hoff : OffScreen x y width height
    · exact Or.inl hoff
    · exact Or.inr (sendable_of_areaUpdated hw hh hoff h)
  · rintro (h | h)
    · exact areaUpdated_of_offScreen hw hh h
    · exact areaUpdated_of_sendable hw hh h

/-- The two areas the main page sends. -/
theorem update_area_iff_main_page : AreaUpdated 0 16 128 16 ∧ AreaUpdated 30 36 98 8 :=
  ⟨(update_area_iff 0 16 128 16 (by decide) (by decide)).mpr (Or.inr (by unfold Sendable; decide)),
    (update_area_iff 30 36 98 8 (by decide) (by decide)).mpr (Or.inr (by unfold Sendable; decide))⟩

/-- Three areas of 8 by 16 pixels that are partly on the screen and not refreshed: one that begins left of it, one that begins above
it, and one that ends right of it. -/
theorem update_area_not_clipped : ¬AreaUpdated (-1) 0 8 16 ∧ ¬AreaUpdated 0 (-8) 8 16 ∧ ¬AreaUpdated 127 0 8 16 := by
  refine ⟨?_, ?_, ?_⟩
  · intro h
    exact absurd (sendable_of_areaUpdated (by decide) (by decide) (by unfold OffScreen; decide) h) (by unfold Sendable; decide)
  · intro h
    exact absurd (sendable_of_areaUpdated (by decide) (by decide) (by unfold OffScreen; decide) h) (by unfold Sendable; decide)
  · intro h
    exact absurd (sendable_of_areaUpdated (by decide) (by decide) (by unfold OffScreen; decide) h) (by unfold Sendable; decide)

end RtStopwatch
