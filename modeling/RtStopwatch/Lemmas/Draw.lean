import RtStopwatch.Lemmas.Bus
import RtStopwatch.Lib.Paint
import RtStopwatch.Oled

/-!
# What the driver draws

Each drawing function, as a paint on the pixels of the frame buffer (`Draws`): `OLED_ClearArea` blanks a rectangle, `OLED_ShowImage`
puts an image into one, `OLED_ShowString` puts characters next to each other. Off-screen parts are lost, and the rest of the buffer
stays.
-/

namespace RtStopwatch

open Lib

/-- A pixel of the screen: its column and its row. -/
abbrev Point : Type := Fin 128 × Fin 64

/-- The pixels of a buffer. -/
def DisplayBuf.pixels (buf : DisplayBuf) : Point → Bool := fun p => buf.pixel p.1 p.2

/-- The function ends on every buffer and paints `g` over its pixels. -/
def Draws (f : DisplayBuf → Option DisplayBuf) (g : Paint Point Bool) : Prop :=
  ∀ buf, ∃ buf', f buf = some buf' ∧ buf'.pixels = g.atop buf.pixels

theorem Draws.bind {f f' : DisplayBuf → Option DisplayBuf} {g g' : Paint Point Bool} (h : Draws f g) (h' : Draws f' g') :
    Draws (fun buf => (f buf).bind f') (g.andThen g') := by
  intro buf
  obtain ⟨buf₁, hf, hg⟩ := h buf
  obtain ⟨buf₂, hf', hg'⟩ := h' buf₁
  refine ⟨buf₂, ?_, ?_⟩
  · simp only [hf, Option.bind_some, hf']
  · rw [hg', hg, Paint.atop_andThen]

/-- The pixels are all there is to a buffer. -/
theorem pixels_injective {buf buf' : DisplayBuf} (h : buf.pixels = buf'.pixels) : buf = buf' := by
  funext q x
  rw [← UInt8.toNat_inj]
  apply Nat.eq_of_testBit_eq
  intro k
  by_cases hk : k < 8
  · have hq := q.isLt
    have hp := congrFun h (x, ⟨8 * q + k, by omega⟩)
    have hpage : Fin.ofNat 8 ((8 * (q : ℕ) + k) / 8) = q := finOfNat_eq (by omega)
    have hbit : (8 * (q : ℕ) + k) % 8 = k := by omega
    simpa only [DisplayBuf.pixels, DisplayBuf.pixel, hpage, hbit] using hp
  · have hlt : ∀ b : UInt8, b.toNat < 2 ^ k := by
      intro b
      exact b.toNat_lt.trans_le (Nat.pow_le_pow_right (by decide) (by omega))
    rw [Nat.testBit_lt_two_pow (hlt _), Nat.testBit_lt_two_pow (hlt _)]

/-! ## Bytes -/

theorem testBit_ofNat (n : ℕ) {k : ℕ} (hk : k < 8) : (UInt8.ofNat n).toNat.testBit k = n.testBit k := by
  have h8 : (UInt8.ofNat n).toNat = n % 2 ^ 8 := UInt8.toNat_ofNat'
  rw [h8, Nat.testBit_mod_two_pow, decide_eq_true hk, Bool.true_and]

theorem testBit_and_not (a : UInt8) {k n : ℕ} (hk : k < 8) :
    (a &&& ~~~UInt8.ofNat (0x01 <<< n)).toNat.testBit k = (a.toNat.testBit k && decide (k ≠ n)) := by
  have hnot : ∀ b : UInt8, (~~~b).toNat.testBit k = !b.toNat.testBit k := by
    intro b
    rw [← UInt8.toNat_toBitVec, ← UInt8.toNat_toBitVec, BitVec.testBit_toNat, BitVec.testBit_toNat, UInt8.toBitVec_not,
      BitVec.getLsbD_not, decide_eq_true hk, Bool.true_and]
  have hone : (0x01 <<< n).testBit k = decide (k = n) := by
    rw [Nat.shiftLeft_eq, Nat.one_mul, Nat.testBit_two_pow]
    exact decide_eq_decide.mpr eq_comm
  rw [UInt8.toNat_and, Nat.testBit_and, hnot, testBit_ofNat _ hk, hone, decide_not]

theorem testBit_or_shiftLeft (a b : UInt8) {k : ℕ} (s : ℕ) (hk : k < 8) :
    (a ||| UInt8.ofNat (b.toNat <<< s)).toNat.testBit k = (a.toNat.testBit k || decide (s ≤ k) && b.toNat.testBit (k - s)) := by
  rw [UInt8.toNat_or, Nat.testBit_or, testBit_ofNat _ hk, Nat.testBit_shiftLeft]

theorem testBit_or_shiftRight (a b : UInt8) {k : ℕ} (s : ℕ) (hk : k < 8) :
    (a ||| UInt8.ofNat (b.toNat >>> s)).toNat.testBit k = (a.toNat.testBit k || b.toNat.testBit (s + k)) := by
  rw [UInt8.toNat_or, Nat.testBit_or, testBit_ofNat _ hk, Nat.testBit_shiftRight]

theorem pixel_modify (buf : DisplayBuf) (j i : ℤ) (f : UInt8 → UInt8) (x : Fin 128) (y : Fin 64) :
    (buf.modify j i f).pixel x y =
      if (y : ℤ) / 8 = j ∧ (x : ℤ) = i then (f (buf (Fin.ofNat 8 (y / 8)) x)).toNat.testBit (y % 8) else buf.pixel x y := by
  have hpage : ((Fin.ofNat 8 ((y : ℕ) / 8) : ℕ) : ℤ) = (y : ℤ) / 8 := congrArg Nat.cast (val_page y)
  unfold DisplayBuf.pixel DisplayBuf.modify
  rw [hpage]
  split
  · rfl
  · rfl

/-! ## `OLED_Clear` and `OLED_ClearArea` -/

theorem oledClear_eq (buf : DisplayBuf) : oledClear buf = fun _ _ => 0 := by
  have hrow : ∀ (b : DisplayBuf) (j : ℕ) (q : Fin 8) (x : Fin 128),
      ((List.range 128).foldl (fun buf (i : ℕ) => buf.modify j i fun _ => 0x00) b) q x = if (q : ℕ) = j then 0 else b q x := by
    intro b j q x
    have h := foldl_range_invariant (fun (buf : DisplayBuf) (i : ℕ) => buf.modify j i fun _ => 0x00) (n := 128)
      (I := fun k buf => buf q x = if (q : ℕ) = j ∧ (x : ℕ) < k then 0 else b q x) ?_ (s := b) (by simp)
    · rw [h]
      simp
    · intro k s hk hs
      unfold DisplayBuf.modify
      rw [hs]
      grind
  funext q x
  have h := foldl_range_invariant
    (fun (buf : DisplayBuf) (j : ℕ) =>
      (List.range 128).foldl (fun buf (i : ℕ) => buf.modify j i fun _ => 0x00) buf) (n := 8)
    (I := fun k b => b q x = if (q : ℕ) < k then 0 else buf q x) ?_ (s := buf) (by simp)
  · exact h.trans (if_pos q.isLt)
  · intro k s hk hs
    rw [hrow, hs]
    grind

theorem pixels_oledClear (buf : DisplayBuf) : (oledClear buf).pixels = fun _ => false := by
  funext p
  rw [oledClear_eq]
  simp [DisplayBuf.pixels, DisplayBuf.pixel]

theorem pixel_clearPoint (i j : Int16) (buf : DisplayBuf) (x : Fin 128) (y : Fin 64) :
    (clearPoint i j buf).pixel x y = if (x : ℤ) = i.toInt ∧ (y : ℤ) = j.toInt then false else buf.pixel x y := by
  unfold clearPoint
  split
  · rename_i hon
    obtain ⟨-, -, hj, -⟩ := hon
    have hdiv : j.toInt.tdiv 8 = j.toInt / 8 := Int.tdiv_eq_ediv_of_nonneg hj
    have hmod : j.toInt.tmod 8 = j.toInt % 8 := Int.tmod_eq_emod_of_nonneg hj
    rw [pixel_modify, hdiv, hmod, testBit_and_not _ (Nat.mod_lt _ (by decide))]
    by_cases hx : (x : ℤ) = i.toInt
    · by_cases hp : (y : ℤ) / 8 = j.toInt / 8
      · rw [if_pos ⟨hp, hx⟩]
        by_cases hy : (y : ℤ) = j.toInt
        · rw [if_pos ⟨hx, hy⟩, decide_eq_false (by omega), Bool.and_false]
        · rw [if_neg (fun h => hy h.2), decide_eq_true (by omega), Bool.and_true]
          rfl
      · rw [if_neg (fun h => hp h.1), if_neg (fun h => hp (by rw [h.2]))]
    · rw [if_neg (fun h => hx h.2), if_neg (fun h => hx h.1)]
  · rename_i hoff
    rw [if_neg]
    rintro ⟨hx, hy⟩
    omega

/-- The step of a 16-bit counter that is not at its end. -/
theorem int16_toInt_add_one {i : Int16} (h : i.toInt < 32767) : (i + 1).toInt = i.toInt + 1 := by
  have hge := i.le_toInt
  rw [Int16.toInt_add]
  exact Int.bmod_eq_of_le (by simp at *; omega) (by simp at *; omega)

/-- Blank in one part, then in another. -/
theorem ite_false_ite_false {A B C : Prop} [Decidable A] [Decidable B] [Decidable C] (h : C ↔ A ∨ B) (b : Bool) :
    (if A then false else if B then false else b) = if C then false else b := by
  by_cases ha : A
  · rw [if_pos ha, if_pos (h.mpr (Or.inl ha))]
  · rw [if_neg ha]
    by_cases hb : B
    · rw [if_pos hb, if_pos (h.mpr (Or.inr hb))]
    · rw [if_neg hb, if_neg (fun hc => (h.mp hc).elim ha hb)]

/-- The inner loop of `OLED_ClearArea` blanks a part of a row. -/
theorem forLoop_clearPoint {fuel : ℕ} (hfuel : 256 ≤ fuel) {x : Int16} {width : UInt8} (hx : x.toInt + width.toNat ≤ 32767)
    (j : Int16) (buf : DisplayBuf) :
    ∃ buf', forLoop (fun i : Int16 => decide (i.toInt < x.toInt + width.toNat)) (· + 1)
        (fun i buf => some (clearPoint i j buf)) fuel x buf = some buf' ∧
      ∀ (u : Fin 128) (v : Fin 64), buf'.pixel u v =
        if (x.toInt ≤ u ∧ (u : ℤ) < x.toInt + width.toNat) ∧ (v : ℤ) = j.toInt then false else buf.pixel u v := by
  have hw := width.toNat_lt
  have hloop := forLoop_invariant (fun i buf => some (clearPoint i j buf)) Int16.toInt (x.toInt + width.toNat)
    (fun i => decide_eq_true_iff) (fun i hi => int16_toInt_add_one (by omega))
    (I := fun k (b : DisplayBuf) => x.toInt ≤ k ∧ ∀ (u : Fin 128) (v : Fin 64),
      b.pixel u v = if (x.toInt ≤ u ∧ (u : ℤ) < k) ∧ (v : ℤ) = j.toInt then false else buf.pixel u v)
    ?_ fuel (i := x) (s := buf) (by omega) (by omega) ?_
  · obtain ⟨buf', hend, -, hpix⟩ := hloop
    exact ⟨buf', hend, hpix⟩
  · rintro i b hi ⟨hle, hb⟩
    refine ⟨_, rfl, by omega, ?_⟩
    intro u v
    rw [pixel_clearPoint, hb]
    exact ite_false_ite_false (by omega) _
  · refine ⟨Int.le_refl _, ?_⟩
    intro u v
    rw [if_neg (by omega)]

/-- `OLED_ClearArea` blanks the rectangle, as long as its counters do not wrap. -/
theorem draws_oledClearArea {fuel : ℕ} (hfuel : 256 ≤ fuel) {x y : Int16} {width height : UInt8}
    (hx : x.toInt + width.toNat ≤ 32767) (hy : y.toInt + height.toNat ≤ 32767) :
    Draws (oledClearArea fuel x y width height)
      (Paint.fill (fun p => InArea x y width height p.1 p.2) fun _ => false) := by
  intro buf
  have hh := height.toNat_lt
  have hloop := forLoop_invariant
    (fun j buf => forLoop (fun i : Int16 => decide (i.toInt < x.toInt + width.toNat)) (· + 1)
      (fun i buf => some (clearPoint i j buf)) fuel x buf)
    Int16.toInt (y.toInt + height.toNat) (fun j => decide_eq_true_iff) (fun j hj => int16_toInt_add_one (by omega))
    (I := fun k (b : DisplayBuf) => y.toInt ≤ k ∧ ∀ (u : Fin 128) (v : Fin 64),
      b.pixel u v = if (x.toInt ≤ u ∧ (u : ℤ) < x.toInt + width.toNat) ∧ y.toInt ≤ v ∧ (v : ℤ) < k then false
        else buf.pixel u v)
    ?_ fuel (i := y) (s := buf) (by omega) (by omega) ?_
  · obtain ⟨buf', hend, -, hpix⟩ := hloop
    refine ⟨buf', hend, ?_⟩
    funext p
    rw [DisplayBuf.pixels, hpix, Paint.atop_fill_apply]
    rfl
  · rintro j b hj ⟨hle, hb⟩
    obtain ⟨b', hend, hpix⟩ := forLoop_clearPoint hfuel hx j b
    refine ⟨b', hend, by omega, ?_⟩
    intro u v
    rw [hpix, hb]
    exact ite_false_ite_false (by omega) _
  · refine ⟨Int.le_refl _, ?_⟩
    intro u v
    rw [if_neg (by omega)]

/-! ## `OLED_ShowImage` -/

/-- The page and the shift are those of the first row, also above the screen. -/
theorem toInt_eq_pageOf_add_shiftOf (y : Int16) : y.toInt = 8 * pageOf y + shiftOf y ∧ shiftOf y ≤ 8 := by
  unfold shiftOf
  by_cases hy : 0 ≤ y.toInt
  · rw [pageOf_of_nonneg hy, if_neg (by rw [int16_neg_iff]; omega), Int.tmod_eq_emod_of_nonneg hy]
    omega
  · have hmod : y.toInt.tmod 8 = -(-y.toInt % 8) := by
      have hneg := Int.neg_tmod (-y.toInt) 8
      rw [Int.neg_neg] at hneg
      rw [hneg, Int.tmod_eq_emod_of_nonneg (by omega)]
    rw [pageOf_of_neg (by omega), if_pos (int16_neg_iff.mpr (by omega)), hmod]
    omega

/-- A byte of the buffer into which bits are put. -/
theorem pixel_ite_modify {f : UInt8 → UInt8} {t : ℕ → Bool}
    (hf : ∀ a k, k < 8 → (f a).toNat.testBit k = (a.toNat.testBit k || t k)) (j i : ℤ) (buf : DisplayBuf) (u : Fin 128)
    (v : Fin 64) :
    (if 0 ≤ j ∧ j ≤ 7 then buf.modify j i f else buf).pixel u v =
      (buf.pixel u v || decide ((v : ℤ) / 8 = j ∧ (u : ℤ) = i) && t (v % 8)) := by
  by_cases hon : 0 ≤ j ∧ j ≤ 7
  · rw [if_pos hon, pixel_modify]
    by_cases hin : (v : ℤ) / 8 = j ∧ (u : ℤ) = i
    · rw [if_pos hin, decide_eq_true hin, hf _ _ (Nat.mod_lt _ (by decide)), Bool.true_and]
      rfl
    · rw [if_neg hin, decide_eq_false hin, Bool.false_and, Bool.or_false]
  · rw [if_neg hon, decide_eq_false (by omega), Bool.false_and, Bool.or_false]

/-- A byte put at row `y`, with `y` in page `p` at the shift `s`: what of it is in that page and in the next is all of it. -/
theorem bit_across_pages (b : UInt8) {y p : ℤ} {s : ℕ} (hy : y = 8 * p + s) (hs : s ≤ 8) (v : ℕ) :
    (decide ((v : ℤ) / 8 = p) && (decide (s ≤ v % 8) && b.toNat.testBit (v % 8 - s)) ||
        decide ((v : ℤ) / 8 = p + 1) && b.toNat.testBit (8 - s + v % 8)) =
      (decide (y ≤ v ∧ (v : ℤ) < y + 8) && b.toNat.testBit ((v : ℤ) - y).toNat) := by
  rcases (by omega : (v : ℤ) / 8 = p ∨ (v : ℤ) / 8 = p + 1 ∨ ((v : ℤ) / 8 < p ∨ p + 1 < (v : ℤ) / 8)) with hv | hv | hv
  · rw [decide_eq_true hv, decide_eq_false (by omega : ¬(v : ℤ) / 8 = p + 1), Bool.true_and, Bool.false_and, Bool.or_false]
    by_cases hle : s ≤ v % 8
    · have hin : y ≤ v ∧ (v : ℤ) < y + 8 := by omega
      have hrow : ((v : ℤ) - y).toNat = v % 8 - s := by omega
      rw [decide_eq_true hle, decide_eq_true hin, hrow]
    · rw [decide_eq_false hle, decide_eq_false (by omega), Bool.false_and, Bool.false_and]
  · rw [decide_eq_false (by omega : ¬(v : ℤ) / 8 = p), decide_eq_true hv, Bool.true_and, Bool.false_and, Bool.false_or]
    by_cases hlt : v % 8 < s
    · have hin : y ≤ v ∧ (v : ℤ) < y + 8 := by omega
      have hrow : ((v : ℤ) - y).toNat = 8 - s + v % 8 := by omega
      rw [decide_eq_true hin, hrow, Bool.true_and]
    · -- the byte has no such bit
      have hbit : b.toNat.testBit (8 - s + v % 8) = false :=
        Nat.testBit_lt_two_pow (b.toNat_lt.trans_le (Nat.pow_le_pow_right (by decide) (by omega)))
      rw [decide_eq_false (by omega), Bool.false_and, hbit]
  · rw [decide_eq_false (by omega : ¬(v : ℤ) / 8 = p), decide_eq_false (by omega : ¬(v : ℤ) / 8 = p + 1),
      decide_eq_false (by omega : ¬(y ≤ v ∧ (v : ℤ) < y + 8))]
    rfl

/-- A byte of an image is eight pixels below each other, wherever the pages are cut. -/
theorem pixel_showByte (x y : Int16) (i j : ℕ) (b : UInt8) (buf : DisplayBuf) (u : Fin 128) (v : Fin 64) :
    (showByte x y i j b buf).pixel u v =
      (buf.pixel u v || decide ((u : ℤ) = x.toInt + i ∧ 8 * (j : ℤ) ≤ v - y.toInt ∧ (v : ℤ) - y.toInt < 8 * j + 8) &&
        b.toNat.testBit ((v : ℤ) - y.toInt - 8 * j).toNat) := by
  obtain ⟨hy, hs⟩ := toInt_eq_pageOf_add_shiftOf y
  by_cases hu : (u : ℤ) = x.toInt + i
  · have hbits := bit_across_pages b (y := y.toInt + 8 * j) (p := pageOf y + j) (by omega) hs v
    have hrow : ((v : ℤ) - (y.toInt + 8 * j)).toNat = ((v : ℤ) - y.toInt - 8 * j).toNat := by omega
    have hin : decide (y.toInt + 8 * j ≤ (v : ℕ) ∧ ((v : ℕ) : ℤ) < y.toInt + 8 * j + 8) =
        decide ((u : ℤ) = x.toInt + i ∧ 8 * (j : ℤ) ≤ v - y.toInt ∧ (v : ℤ) - y.toInt < 8 * j + 8) := by
      rw [decide_eq_decide]
      omega
    simp only [showByte, if_pos (show 0 ≤ x.toInt + i ∧ x.toInt + i ≤ 127 by omega)]
    rw [pixel_ite_modify (fun a k hk => testBit_or_shiftRight a b (8 - shiftOf y) hk),
      pixel_ite_modify (fun a k hk => testBit_or_shiftLeft a b (shiftOf y) hk), Bool.or_assoc]
    rw [hrow, hin] at hbits
    simp only [hu, and_true] at hbits ⊢
    rw [hbits]
  · rw [decide_eq_false (fun h => hu h.1), Bool.false_and, Bool.or_false]
    unfold showByte
    split
    · have hout : ∀ k : ℤ, ¬((v : ℤ) / 8 = k ∧ (u : ℤ) = x.toInt + i) := fun k h => hu h.2
      rw [pixel_ite_modify (fun a k hk => testBit_or_shiftRight a b (8 - shiftOf y) hk),
        pixel_ite_modify (fun a k hk => testBit_or_shiftLeft a b (shiftOf y) hk), decide_eq_false (hout _),
        decide_eq_false (hout _), Bool.false_and, Bool.false_and, Bool.or_false, Bool.or_false]
    · rfl

/-- The pixel of an image of the given width in column `i` and row `r`. -/
def imagePixel (image : ℕ → UInt8) (width : ℕ) (i r : ℕ) : Bool := (image (r / 8 * width + i)).toNat.testBit (r % 8)

/-- A row of bytes of an image. -/
theorem pixel_showRow (x y : Int16) (width : ℕ) (image : ℕ → UInt8) (j : ℕ) (buf : DisplayBuf) (u : Fin 128) (v : Fin 64) :
    ((List.range width).foldl (fun buf i => showByte x y i j (image (j * width + i)) buf) buf).pixel u v =
      (buf.pixel u v ||
        decide ((x.toInt ≤ u ∧ (u : ℤ) < x.toInt + width) ∧ 8 * (j : ℤ) ≤ v - y.toInt ∧ (v : ℤ) - y.toInt < 8 * j + 8) &&
          imagePixel image width ((u : ℤ) - x.toInt).toNat ((v : ℤ) - y.toInt).toNat) := by
  refine foldl_range_invariant _ (I := fun k (b : DisplayBuf) => b.pixel u v = (buf.pixel u v ||
    decide ((x.toInt ≤ u ∧ (u : ℤ) < x.toInt + k) ∧ 8 * (j : ℤ) ≤ v - y.toInt ∧ (v : ℤ) - y.toInt < 8 * j + 8) &&
      imagePixel image width ((u : ℤ) - x.toInt).toNat ((v : ℤ) - y.toInt).toNat)) ?_ ?_
  · intro k b hk hb
    rw [pixel_showByte, hb]
    by_cases hin : (u : ℤ) = x.toInt + k ∧ 8 * (j : ℤ) ≤ v - y.toInt ∧ (v : ℤ) - y.toInt < 8 * j + 8
    · have hbit : (image (j * width + k)).toNat.testBit ((v : ℤ) - y.toInt - 8 * j).toNat =
          imagePixel image width ((u : ℤ) - x.toInt).toNat ((v : ℤ) - y.toInt).toNat := by
        have hcol : ((u : ℤ) - x.toInt).toNat = k := by omega
        have hrow : ((v : ℤ) - y.toInt).toNat / 8 = j := by omega
        have hmod : ((v : ℤ) - y.toInt).toNat % 8 = ((v : ℤ) - y.toInt - 8 * j).toNat := by omega
        rw [imagePixel, hcol, hrow, hmod]
      rw [decide_eq_true hin, decide_eq_false (by omega), decide_eq_true (by omega), hbit, Bool.false_and, Bool.or_false]
    · rw [decide_eq_false hin, Bool.false_and, Bool.or_false]
      congr 2
      rw [decide_eq_decide]
      omega
  · rw [decide_eq_false (by omega), Bool.false_and, Bool.or_false]

/-- All rows of bytes of an image. -/
theorem pixel_showRows (x y : Int16) (width n : ℕ) (image : ℕ → UInt8) (buf : DisplayBuf) (u : Fin 128) (v : Fin 64) :
    ((List.range n).foldl
      (fun buf j => (List.range width).foldl (fun buf i => showByte x y i j (image (j * width + i)) buf) buf) buf).pixel u v =
      (buf.pixel u v || decide ((x.toInt ≤ u ∧ (u : ℤ) < x.toInt + width) ∧ y.toInt ≤ v ∧ (v : ℤ) < y.toInt + 8 * n) &&
        imagePixel image width ((u : ℤ) - x.toInt).toNat ((v : ℤ) - y.toInt).toNat) := by
  refine foldl_range_invariant _ (I := fun k (b : DisplayBuf) => b.pixel u v = (buf.pixel u v ||
    decide ((x.toInt ≤ u ∧ (u : ℤ) < x.toInt + width) ∧ y.toInt ≤ v ∧ (v : ℤ) < y.toInt + 8 * k) &&
      imagePixel image width ((u : ℤ) - x.toInt).toNat ((v : ℤ) - y.toInt).toNat)) ?_ ?_
  · intro k b hk hb
    rw [pixel_showRow, hb, Bool.or_assoc, ← Bool.and_or_distrib_right, ← Bool.decide_or]
    congr 2
    rw [decide_eq_decide]
    omega
  · rw [decide_eq_false (by omega), Bool.false_and, Bool.or_false]

/-- `OLED_ShowImage` puts the image into the rectangle, if the bits below it in its last bytes are zero. -/
theorem draws_oledShowImage {fuel : ℕ} (hfuel : 256 ≤ fuel) {x y : Int16} {width height : UInt8} (hh : 1 ≤ height.toNat)
    (hx : x.toInt + width.toNat ≤ 32767) (hy : y.toInt + height.toNat ≤ 32767) {image : ℕ → UInt8}
    (hzero : ∀ i r, i < width.toNat → height.toNat ≤ r → r < 8 * ((height.toNat - 1) / 8 + 1) →
      imagePixel image width.toNat i r = false) :
    Draws (oledShowImage fuel x y width height image)
      (Paint.fill (fun p => InArea x y width height p.1 p.2) fun p =>
        imagePixel image width.toNat ((p.1 : ℤ) - x.toInt).toNat ((p.2 : ℤ) - y.toInt).toNat) := by
  intro buf
  obtain ⟨buf₁, hclear, hpix₁⟩ := draws_oledClearArea hfuel hx hy buf
  have hn : (((height.toNat : ℤ) - 1).tdiv 8 + 1).toNat = (height.toNat - 1) / 8 + 1 := by
    rw [tdiv_eight_of_nonneg (by omega)]
    omega
  refine ⟨_, by simp only [oledShowImage, hclear, hn]; rfl, ?_⟩
  funext p
  have h₁ : buf₁.pixel p.1 p.2 = _ := congrFun hpix₁ p
  rw [Paint.atop_fill_apply] at h₁ ⊢
  rw [DisplayBuf.pixels, pixel_showRows, h₁]
  by_cases hin : InArea x y width height p.1 p.2
  · have hrows : (x.toInt ≤ p.1 ∧ (p.1 : ℤ) < x.toInt + width.toNat) ∧
        y.toInt ≤ p.2 ∧ (p.2 : ℤ) < y.toInt + 8 * ((height.toNat - 1) / 8 + 1 : ℕ) := by
      unfold InArea at hin
      omega
    rw [if_pos hin, if_pos hin, decide_eq_true hrows, Bool.false_or, Bool.true_and]
  · rw [if_neg hin, if_neg hin]
    by_cases hrows : (x.toInt ≤ p.1 ∧ (p.1 : ℤ) < x.toInt + width.toNat) ∧
        y.toInt ≤ p.2 ∧ (p.2 : ℤ) < y.toInt + 8 * ((height.toNat - 1) / 8 + 1 : ℕ)
    · -- a row of the last bytes that is below the rectangle
      unfold InArea at hin
      rw [hzero _ _ (by omega) (by omega) (by omega), Bool.and_false, Bool.or_false]
    · rw [decide_eq_false hrows, Bool.false_and, Bool.or_false]

/-! ## `OLED_ShowChar` and `OLED_ShowString` -/

/-- The character is in the font. -/
def Printable (ch : Char) : Prop := 32 ≤ ch.toNat ∧ ch.toNat ≤ 126

instance : DecidablePred Printable := fun _ => inferInstanceAs (Decidable (_ ∧ _))

theorem exists_glyph {ch : Char} (h : Printable ch) : ∃ image, glyph ch = some image := by
  have hlen : oledF6x8.length = 95 := rfl
  have hlt : ch.toNat - 32 < oledF6x8.length := by
    rw [hlen]
    have := h.2
    omega
  rw [glyph, if_neg (Nat.not_lt.mpr h.1), List.getElem?_eq_getElem hlt]
  exact ⟨_, rfl⟩

/-- A character at a position. -/
def charPaint (x y : Int16) (ch : Char) : Paint Point Bool :=
  Paint.fill (fun p => InArea x y 6 8 p.1 p.2) fun p =>
    imagePixel ((glyph ch).getD fun _ => 0) 6 ((p.1 : ℤ) - x.toInt).toNat ((p.2 : ℤ) - y.toInt).toNat

theorem draws_oledShowChar {fuel : ℕ} (hfuel : 256 ≤ fuel) {x y : Int16} (hx : x.toInt + 6 ≤ 32767) (hy : y.toInt + 8 ≤ 32767)
    {ch : Char} (hch : Printable ch) (font : Font) : Draws (oledShowChar fuel x y ch font) (charPaint x y ch) := by
  obtain ⟨image, hg⟩ := exists_glyph hch
  have hchar : ∀ buf, oledShowChar fuel x y ch font buf = oledShowImage fuel x y 6 8 image buf := by
    intro buf
    cases font
    · rw [oledShowChar, hg]
      rfl
    · rw [oledShowChar, hg]
      rfl
  rw [charPaint, hg]
  intro buf
  rw [hchar]
  refine draws_oledShowImage hfuel (by decide) hx hy ?_ buf
  intro i r _ hle hlt
  simp at hle hlt
  omega

/-- Characters next to each other, from an offset on. -/
def textPaint (x y : Int16) (font : Font) : List Char → UInt16 → Paint Point Bool
  | [], _ => Paint.clear
  | ch :: text, off => (charPaint (Int16.ofInt (x.toInt + off.toNat)) y ch).andThen (textPaint x y font text (off + font.size))

theorem Font.size_toNat (font : Font) : 6 ≤ font.size.toNat ∧ font.size.toNat ≤ 8 := by
  cases font <;> decide

section Text

variable {x y : Int16} {font : Font} {off : UInt16} {ch : Char} {text : List Char}
  (hx : 0 ≤ x.toInt)
include hx

/-- The place of the next character. -/
theorem toInt_textPosition (font : Font) (hend : x.toInt + off.toNat + 8 * (text.length + 1) ≤ 32767) :
    (Int16.ofInt (x.toInt + off.toNat)).toInt = x.toInt + off.toNat ∧ (off + font.size).toNat = off.toNat + font.size.toNat := by
  have hsize := font.size_toNat
  constructor
  · exact Int16.toInt_ofInt_of_le (by omega) (by omega)
  · rw [UInt16.toNat_add, Nat.mod_eq_of_lt (by omega)]

theorem draws_showStringFrom {fuel : ℕ} (hfuel : 256 ≤ fuel) (hy : y.toInt + 8 ≤ 32767) (htext : ∀ ch ∈ text, Printable ch)
    (hend : x.toInt + off.toNat + 8 * text.length ≤ 32767) :
    Draws (showStringFrom fuel x y font text off) (textPaint x y font text off) := by
  induction text generalizing off with
  | nil => exact fun buf => ⟨buf, rfl, rfl⟩
  | cons ch text ih =>
    rw [List.length_cons, Nat.cast_add, Nat.cast_one] at hend
    obtain ⟨hpos, hoff⟩ := toInt_textPosition hx font hend
    have hsize := font.size_toNat
    have hchar := draws_oledShowChar hfuel (x := Int16.ofInt (x.toInt + off.toNat)) (by omega) hy
      (htext ch List.mem_cons_self) font
    exact hchar.bind (ih (fun c hc => htext c (List.mem_cons_of_mem _ hc)) (by omega))

/-- The rectangle that a text takes. -/
theorem within_textPaint (font : Font) (hend : x.toInt + off.toNat + 8 * text.length ≤ 32767) :
    (textPaint x y font text off).Within fun p =>
      (x.toInt + off.toNat ≤ p.1 ∧ (p.1 : ℤ) < x.toInt + off.toNat + font.size.toNat * text.length) ∧
        y.toInt ≤ p.2 ∧ (p.2 : ℤ) < y.toInt + 8 := by
  induction text generalizing off with
  | nil => exact Paint.within_clear _
  | cons ch text ih =>
    rw [List.length_cons, Nat.cast_add, Nat.cast_one] at hend
    obtain ⟨hpos, hoff⟩ := toInt_textPosition hx font hend
    have hsize := font.size_toNat
    have hwidth : (font.size.toNat : ℤ) * ((ch :: text).length : ℕ) = font.size.toNat * text.length + font.size.toNat := by
      rw [List.length_cons, Nat.cast_add, Nat.cast_one, Int.mul_add, Int.mul_one]
    have hpos' : 0 ≤ (font.size.toNat : ℤ) * text.length := Int.mul_nonneg (by omega) (by omega)
    have h6 : (6 : UInt8).toNat = 6 := rfl
    have h8 : (8 : UInt8).toNat = 8 := rfl
    apply Paint.Within.andThen
    · apply (Paint.within_fill _ _).mono
      intro p hp
      unfold InArea at hp
      rw [hpos, h6, h8] at hp
      rw [hwidth]
      omega
    · apply (ih (by omega)).mono
      intro p hp
      rw [hoff] at hp
      rw [hwidth]
      omega

end Text

end RtStopwatch
