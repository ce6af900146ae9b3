import Mathlib.Data.Nat.Bitwise
import RtStopwatch.Lemmas.Draw

/-!
# Images are drawn pixel by pixel

`OLED_ShowImage` under clipping: what `OLED_GetPoint` reads afterwards is the image in the rectangle and what was there before
elsewhere (`show_image_pixel_exact`).
-/

namespace RtStopwatch

open Lib

theorem and_two_pow_ne_zero_iff (a : UInt8) {k : ℕ} (hk : k < 8) :
    a &&& UInt8.ofNat (0x01 <<< k) ≠ 0 ↔ a.toNat.testBit k = true := by
  have hpow : (UInt8.ofNat (0x01 <<< k)).toNat = 2 ^ k := by
    rw [Nat.shiftLeft_eq, Nat.one_mul]
    exact UInt8.toNat_ofNat_of_lt' (Nat.pow_lt_pow_right (by decide) hk)
  rw [ne_eq, ← UInt8.toNat_inj, UInt8.toNat_and, hpow, Nat.and_two_pow]
  cases h : a.toNat.testBit k
  · simp
  · simp

/-- `OLED_GetPoint` reads a pixel of the screen. -/
theorem oledGetPoint_eq (buf : DisplayBuf) {x y : Int16} {u : Fin 128} {v : Fin 64} (hx : x.toInt = u) (hy : y.toInt = v) :
    oledGetPoint buf x y = if buf.pixel u v then 1 else 0 := by
  have hu := u.isLt
  have hv := v.isLt
  have hpage : Fin.ofNat 8 (y.toInt.tdiv 8).toNat = Fin.ofNat 8 ((v : ℕ) / 8) := by
    rw [tdiv_eight_of_nonneg (by omega), hy]
    rfl
  have hcol : Fin.ofNat 128 x.toInt.toNat = u := finOfNat_eq (by omega)
  have hbit : (y.toInt.tmod 8).toNat = (v : ℕ) % 8 := by
    rw [Int.tmod_eq_emod_of_nonneg (by omega)]
    omega
  rw [oledGetPoint, if_pos (by omega), DisplayBuf.byte, hpage, hcol, hbit]
  simp only [and_two_pow_ne_zero_iff _ (Nat.mod_lt (v : ℕ) (show 0 < 8 by decide))]
  rfl

/-- `OLED_ShowImage` is pixel-exact under clipping. For every position, also off the screen, and every size of at least one row
whose far corner is in the range of 16 bits, every image whose bits below its last row are zero and every buffer: with enough tests
for its loops the function ends, and then `OLED_GetPoint` reads, at every point of the screen, the image's pixel if the point is in
the rectangle and what it read before if not. -/
theorem show_image_pixel_exact (x y : Int16) (width height : UInt8) (hh : 1 ≤ height.toNat)
    (hx : x.toInt + width.toNat ≤ 32767) (hy : y.toInt + height.toNat ≤ 32767) (image : ℕ → UInt8)
    (hzero : ∀ i r, i < width.toNat → height.toNat ≤ r → r < 8 * ((height.toNat - 1) / 8 + 1) →
      imagePixel image width.toNat i r = false)
    (buf : DisplayBuf) (fuel : ℕ) (hfuel : 256 ≤ fuel) :
    ∃ buf', oledShowImage fuel x y width height image buf = some buf' ∧
      ∀ u v : Int16, 0 ≤ u.toInt → u.toInt ≤ 127 → 0 ≤ v.toInt → v.toInt ≤ 63 →
        oledGetPoint buf' u v =
          if InArea x y width height u.toInt v.toInt then
            if imagePixel image width.toNat (u.toInt - x.toInt).toNat (v.toInt - y.toInt).toNat then 1 else 0
          else oledGetPoint buf u v := by
  obtain ⟨buf', hend, hpix⟩ := draws_oledShowImage hfuel hh hx hy hzero buf
  refine ⟨buf', hend, ?_⟩
  intro u v hu0 hu hv0 hv
  obtain ⟨u', hu'⟩ : ∃ u' : Fin 128, u.toInt = u' := ⟨⟨u.toInt.toNat, by omega⟩, by simp only [Int.toNat_of_nonneg hu0]⟩
  obtain ⟨v', hv'⟩ : ∃ v' : Fin 64, v.toInt = v' := ⟨⟨v.toInt.toNat, by omega⟩, by simp only [Int.toNat_of_nonneg hv0]⟩
  have hp : buf'.pixel u' v' = _ := congrFun hpix (u', v')
  rw [Paint.atop_fill_apply] at hp
  rw [oledGetPoint_eq buf' hu' hv', oledGetPoint_eq buf hu' hv', hp, hu', hv']
  split
  · rfl
  · rfl

/-- An `L` that begins above and left of the screen: its foot is on it, and the point next to it keeps what it was. -/
theorem show_image_pixel_exact_clipped :
    ∃ buf', oledShowImage 256 (-3) (-3) 6 8 (fun i => [0x00, 0x7F, 0x40, 0x40, 0x40, 0x40].getD i 0) (fun _ _ => 0xFF) = some buf' ∧
      oledGetPoint buf' 0 2 = 0 ∧ oledGetPoint buf' 0 3 = 1 ∧ oledGetPoint buf' 3 2 = 1 := by
  obtain ⟨buf', hend, hpix⟩ := show_image_pixel_exact (-3) (-3) 6 8 (by decide) (by decide) (by decide)
    (fun i => [0x00, 0x7F, 0x40, 0x40, 0x40, 0x40].getD i 0)
    (by
      intro i r _ hle hlt
      simp at hle hlt
      omega)
    (fun _ _ => 0xFF) 256 (by decide)
  refine ⟨buf', hend, ?_, ?_, ?_⟩
  · rw [hpix 0 2 (by decide) (by decide) (by decide) (by decide)]
    decide
  · rw [hpix 0 3 (by decide) (by decide) (by decide) (by decide)]
    decide
  · rw [hpix 3 2 (by decide) (by decide) (by decide) (by decide)]
    decide

end RtStopwatch
