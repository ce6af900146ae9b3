import RtStopwatch.Lemmas.Draw

/-!
# Clearing an area

`OLED_ClearArea` counts with `int16_t` up to bounds computed as `int`. Where a bound is past the largest value of the counter the
counter wraps before it gets there, and the loop does not end. `clear_area_iff` says for which arguments the function ends with
the area blank and the rest as it was.
-/

namespace RtStopwatch

open Lib

/-- `OLED_ClearArea` ends, the pixels of the area are 0 and every other pixel is what it was. -/
def AreaCleared (x y : Int16) (width height : UInt8) (buf : DisplayBuf) : Prop :=
  ∃ fuel buf', oledClearArea fuel x y width height buf = some buf' ∧
    ∀ (u : Fin 128) (v : Fin 64), buf'.pixel u v = if InArea x y width height u v then false else buf.pixel u v

/-- No value of a 16-bit counter fails the test against a bound past 32767. -/
theorem int16_lt_of_bound {bound : ℤ} (h : 32767 < bound) (i : Int16) : decide (i.toInt < bound) = true := by
  have hle : i.toInt ≤ 32767 := i.toInt_le
  exact decide_eq_true (by omega)

/-- The loop over the rows wraps below its bound. -/
theorem oledClearArea_rows_endless {y : Int16} {height : UInt8} (h : 32767 < y.toInt + height.toNat) (x : Int16) (width : UInt8)
    (fuel : ℕ) (buf : DisplayBuf) : oledClearArea fuel x y width height buf = none :=
  forLoop_endless _ _ (int16_lt_of_bound h) fuel y buf

/-- The loop over the columns wraps below its bound, already in the first row. -/
theorem oledClearArea_columns_endless {x : Int16} {width height : UInt8} (h : 32767 < x.toInt + width.toNat) (hh : height ≠ 0)
    (y : Int16) (fuel : ℕ) (buf : DisplayBuf) : oledClearArea fuel x y width height buf = none := by
  have hpos : 0 < height.toNat := Nat.pos_of_ne_zero fun h0 => hh (UInt8.toNat_inj.mp h0)
  rw [oledClearArea]
  apply forLoop_of_body_none
  · exact decide_eq_true (by omega)
  · exact forLoop_endless _ _ (int16_lt_of_bound h) fuel x buf

/-- Nothing is cleared of an area without rows, and no column is looked at. -/
theorem areaCleared_of_height_zero (x y : Int16) (width : UInt8) (buf : DisplayBuf) : AreaCleared x y width 0 buf := by
  refine ⟨1, buf, ?_, ?_⟩
  · rw [oledClearArea, forLoop, if_neg (by simp)]
  · intro u v
    rw [if_neg]
    rintro ⟨-, hle, hlt⟩
    simp at hlt
    omega

theorem areaCleared_of_le {x y : Int16} {width height : UInt8} (hx : x.toInt + width.toNat ≤ 32767)
    (hy : y.toInt + height.toNat ≤ 32767) (buf : DisplayBuf) : AreaCleared x y width height buf := by
  obtain ⟨buf', hend, hpix⟩ := draws_oledClearArea (Nat.le_refl 256) hx hy buf
  refine ⟨256, buf', hend, ?_⟩
  intro u v
  have hp : buf'.pixel u v = _ := congrFun hpix (u, v)
  rw [hp, Paint.atop_fill_apply]
  rfl

/-- When `OLED_ClearArea` clears its area. For every position, also off the screen, every size and every buffer: the function ends,
the pixels of the rectangle on the screen are then 0 and all others are unchanged, if and only if the rectangle has no rows, or its
end in both directions is in the range of the counters. -/
theorem clear_area_iff (x y : Int16) (width height : UInt8) (buf : DisplayBuf) :
    AreaCleared x y width height buf ↔
      height = 0 ∨ (x.toInt + width.toNat ≤ 32767 ∧ y.toInt + height.toNat ≤ 32767) := by
  constructor
  · rintro ⟨fuel, buf', hend, -⟩
    by_contra hout
    rw [not_or] at hout
    obtain ⟨hh, hout⟩ := hout
    by_cases hy : y.toInt + height.toNat ≤ 32767
    · have hx : 32767 < x.toInt + width.toNat := by omega
      rw [oledClearArea_columns_endless hx hh] at hend
      cases hend
    · rw [oledClearArea_rows_endless (by omega)] at hend
      cases hend
  · rintro (rfl | ⟨hx, hy⟩)
    · exact areaCleared_of_height_zero x y width buf
    · exact areaCleared_of_le hx hy buf

/-- One pixel at the last row a 16-bit coordinate can name, far below the screen: the loop over the rows does not end. -/
theorem clear_area_at_last_row_endless : ¬AreaCleared 0 32767 1 1 fun _ _ => 0 := by
  rintro ⟨fuel, buf', hend, -⟩
  rw [oledClearArea_rows_endless (by decide)] at hend
  cases hend

end RtStopwatch
