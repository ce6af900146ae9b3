import RtStopwatch.Lemmas.Area
import RtStopwatch.Lemmas.Draw
import RtStopwatch.Lemmas.Text
import RtStopwatch.Screen

/-!
# The picture of the main page

The main page as a picture: its static part, the time and the latest lap, each in a rectangle of its own. `Shown` is what a frame
leaves and the next one relies on: outside of the two rectangles the buffer is the static part, and the panel holds the buffer. Drawn
on such a buffer, a frame gives the picture drawn from a blank one.
-/

namespace RtStopwatch

open Lib

/-! ## The texts -/

/-- A text that the pages show: characters of the font, fewer than the buffer has. -/
structure PageText (text : List Char) : Prop where
  printable : ∀ ch ∈ text, Printable ch
  length : text.length ≤ 23

theorem printable_of_isDigit {ch : Char} (h : ch.isDigit = true) : Printable ch := by
  have hdigit := toNat_of_isDigit h
  unfold Printable
  omega

theorem printable_fmtU {n : ℕ} {ch : Char} (h : ch ∈ fmtU n) : Printable ch := printable_of_isDigit (isDigit_of_mem_fmtU h)

theorem printable_formatTimeMs {ms : UInt32} {size : ℕ} {ch : Char} (h : ch ∈ formatTimeMs ms size) : Printable ch := by
  have hmem : ∀ n, ch ∈ fmt0U 2 n → Printable ch := fun n hn => printable_of_isDigit (isDigit_of_mem_decimal hn)
  have hcolon : Printable ':' := by decide
  have hdot : Printable '.' := by decide
  have htext := List.mem_of_mem_take h
  simp only [List.mem_append, List.mem_cons] at htext
  grind

/-- What `rt_snprintf` leaves in the buffers of the pages. -/
theorem pageText_rtSnprintf {text : List Char} (h : ∀ ch ∈ text, Printable ch) : PageText (rtSnprintf 24 text) where
  printable ch hch := h ch (List.mem_of_mem_take hch)
  length := List.length_take_le _ _

theorem pageText_formatTimeMs (ms : UInt32) : PageText (formatTimeMs ms 24) where
  printable _ hch := printable_formatTimeMs hch
  length := List.length_take_le _ _

/-- The characters of a row of the laps page. -/
theorem printable_row (n : ℕ) {time : List Char} (h : ∀ ch ∈ time, Printable ch) :
    ∀ ch ∈ '#' :: fmtU n ++ ' ' :: time, Printable ch := by
  intro ch hch
  have hhash : Printable '#' := by decide
  have hblank : Printable ' ' := by decide
  have hnum : ch ∈ fmtU n → Printable ch := printable_fmtU
  have htime : ch ∈ time → Printable ch := h ch
  simp only [List.cons_append, List.mem_append, List.mem_cons] at hch
  grind

/-- The characters of the line of statistics. -/
theorem printable_stat (lo hi avg : ℕ) :
    ∀ ch ∈ 'm' :: fmtU lo ++ ' ' :: 'M' :: fmtU hi ++ ' ' :: 'a' :: fmtU avg, Printable ch := by
  intro ch hch
  have hletters : Printable 'm' ∧ Printable 'M' ∧ Printable 'a' ∧ Printable ' ' := by decide
  have hnum : ∀ n, ch ∈ fmtU n → Printable ch := fun n => printable_fmtU
  simp only [List.cons_append, List.mem_append, List.mem_cons] at hch
  grind

theorem pageText_lapLine (idx : UInt16) (ms : UInt32) : PageText (lapLine idx ms) :=
  pageText_rtSnprintf (printable_row _ fun _ => printable_formatTimeMs)

theorem pageText_statLine (st : LapStats) (cnt : UInt16) : PageText (statLine st cnt) :=
  pageText_rtSnprintf (printable_stat _ _ _)

/-- A fixed text is checked character by character. -/
theorem pageText_of_all {text : List Char} (h : (text.all fun ch => decide (Printable ch)) = true ∧ text.length ≤ 23) :
    PageText text where
  printable ch hch := of_decide_eq_true (List.all_eq_true.mp h.1 ch hch)
  length := h.2

/-- The texts of the static part. -/
theorem pageText_title : PageText "Stopwatch".toList := pageText_of_all (by decide)

theorem pageText_label : PageText "Lap:".toList := pageText_of_all (by decide)

/-! ## The pictures -/

/-- The rectangle of the time. -/
def TimeArea (p : Point) : Prop := InArea 0 16 128 16 p.1 p.2

/-- The rectangle of the latest lap. -/
def LapArea (p : Point) : Prop := InArea 30 36 98 8 p.1 p.2

instance : DecidablePred TimeArea := fun _ => inferInstanceAs (Decidable (InArea ..))

instance : DecidablePred LapArea := fun _ => inferInstanceAs (Decidable (InArea ..))

/-- The time. -/
def timePaint (total : UInt32) : Paint Point Bool := textPaint 0 16 .f8x16 (formatTimeMs total 24) 0

/-- The latest lap, if there are laps. -/
def lapPaint : Option UInt32 → Paint Point Bool
  | none => Paint.clear
  | some last => textPaint 30 36 .f6x8 (formatTimeMs last 24) 0

/-- The static part of the page. -/
def staticPicture : Point → Bool :=
  (textPaint 0 36 .f6x8 "Lap:".toList 0).atop ((textPaint 0 0 .f6x8 "Stopwatch".toList 0).atop fun _ => false)

/-- The page. -/
def mainPicture (total : UInt32) (last : Option UInt32) : Point → Bool :=
  (lapPaint last).atop ((timePaint total).atop staticPicture)

theorem timeArea_iff (p : Point) : TimeArea p ↔ 16 ≤ (p.2 : ℕ) ∧ (p.2 : ℕ) < 32 := by
  have h : TimeArea p ↔ ((0 : ℤ) ≤ p.1 ∧ (p.1 : ℤ) < 0 + 128) ∧ (16 : ℤ) ≤ p.2 ∧ (p.2 : ℤ) < 16 + 16 := Iff.rfl
  rw [h]
  omega

theorem lapArea_iff (p : Point) : LapArea p ↔ 30 ≤ (p.1 : ℕ) ∧ 36 ≤ (p.2 : ℕ) ∧ (p.2 : ℕ) < 44 := by
  have h : LapArea p ↔ ((30 : ℤ) ≤ p.1 ∧ (p.1 : ℤ) < 30 + 98) ∧ (36 : ℤ) ≤ p.2 ∧ (p.2 : ℤ) < 36 + 8 := Iff.rfl
  rw [h]
  omega

/-- A text at a position, as a rectangle of the screen. -/
theorem within_text {x y : Int16} {a b n : ℕ} (hx : x.toInt = a) (hy : y.toInt = b) (ha : a ≤ 1000) (font : Font)
    (text : List Char) (hn : text.length ≤ n) (hn' : n ≤ 1000) :
    (textPaint x y font text 0).Within fun p =>
      (a ≤ (p.1 : ℕ) ∧ (p.1 : ℕ) < a + font.size.toNat * n) ∧ b ≤ (p.2 : ℕ) ∧ (p.2 : ℕ) < b + 8 := by
  have h0 : (0 : UInt16).toNat = 0 := rfl
  have hwidth : font.size.toNat * text.length ≤ font.size.toNat * n := Nat.mul_le_mul_left _ hn
  apply (within_textPaint (by omega) font (by omega)).mono
  rintro p ⟨hcol, hrow⟩
  rw [h0, hx, ← Nat.cast_mul] at hcol
  omega

theorem within_timePaint (total : UInt32) : (timePaint total).Within TimeArea := by
  apply (within_text (a := 0) (b := 16) rfl rfl (by decide) .f8x16 _ (pageText_formatTimeMs total).length (by decide)).mono
  rintro p ⟨-, hrow⟩
  rw [timeArea_iff]
  omega

theorem within_lapPaint (last : Option UInt32) : (lapPaint last).Within LapArea := by
  cases last with
  | none => exact Paint.within_clear _
  | some last =>
    apply (within_text (a := 30) (b := 36) rfl rfl (by decide) .f6x8 _ (pageText_formatTimeMs last).length (by decide)).mono
    rintro p ⟨hcol, hrow⟩
    rw [lapArea_iff]
    omega

/-- The static part leaves both rectangles blank. -/
theorem staticPicture_eq_false {p : Point} (hp : TimeArea p ∨ LapArea p) : staticPicture p = false := by
  rw [timeArea_iff, lapArea_iff] at hp
  have h6 : Font.f6x8.size.toNat = 6 := rfl
  have htitle := within_text (x := 0) (y := 0) (a := 0) (b := 0) (n := 9) rfl rfl (by decide) .f6x8 "Stopwatch".toList
    (by decide) (by decide)
  have hlabel := within_text (x := 0) (y := 36) (a := 0) (b := 36) (n := 4) rfl rfl (by decide) .f6x8 "Lap:".toList
    (by decide) (by decide)
  rw [staticPicture, Paint.atop_of_not_mem hlabel (by omega), Paint.atop_of_not_mem htitle (by omega)]

/-- The rectangles do not meet. -/
theorem not_timeArea_of_lapArea {p : Point} (h : LapArea p) : ¬TimeArea p := by
  rw [timeArea_iff]
  rw [lapArea_iff] at h
  omega

/-! ## The frame -/

/-- What a frame leaves: outside of the rectangles the buffer is the static part, and the panel holds the buffer. -/
structure Shown (o : Oled) : Prop where
  static : ∀ p, ¬TimeArea p → ¬LapArea p → o.buf.pixels p = staticPicture p
  panel : o.panel.ram = o.buf

/-- A place where a text can be drawn without a counter that wraps. -/
def Placed (x y : Int16) : Prop := (0 ≤ x.toInt ∧ x.toInt ≤ 1000) ∧ y.toInt ≤ 1000

instance (x y : Int16) : Decidable (Placed x y) := inferInstanceAs (Decidable ((_ ∧ _) ∧ _))

/-- The panel holds the buffer outside of `D`. -/
def PanelOutside (D : Point → Prop) (o : Oled) : Prop := ∀ p, ¬D p → o.panel.ram.pixels p = o.buf.pixels p

section Calls

variable (fuel : ℕ) (beyond : ℕ → UInt8) (o : Oled)

/-- Sending the buffer brings the panel up to date. -/
theorem perform_update : ∃ o', OledCall.update.perform fuel beyond o = some o' ∧ o'.buf = o.buf ∧ o'.panel.ram = o.buf := by
  refine ⟨_, rfl, rfl, ?_⟩
  rw [ram_after_oledUpdate]

/-- Sending a rectangle brings the panel up to date, if it was so outside. -/
theorem perform_updateArea (x y : Int16) (width height : UInt8) (hw : 1 ≤ width.toNat) (hh : 1 ≤ height.toNat)
    (hs : Sendable x y width height) (ho : PanelOutside (fun p => InArea x y width height p.1 p.2) o) :
    ∃ o', (OledCall.updateArea x y width height).perform fuel beyond o = some o' ∧ o'.buf = o.buf ∧ o'.panel.ram = o.buf := by
  refine ⟨_, rfl, rfl, ?_⟩
  apply pixels_injective
  funext p
  have hp := p.2.isLt
  have hq : ((Fin.ofNat 8 ((p.2 : ℕ) / 8) : ℕ) : ℤ) = (p.2 : ℤ) / 8 := congrArg Nat.cast (val_page p.2)
  unfold DisplayBuf.pixels DisplayBuf.pixel
  rw [ram_after_oledUpdateArea hw hh hs, hq]
  split
  · rfl
  · rename_i hout
    apply ho p
    intro hin
    unfold InArea at hin
    unfold Touches at hout
    omega

variable {fuel} (hfuel : 256 ≤ fuel)
include hfuel

theorem perform_clearArea (x y : Int16) (width height : UInt8) (hx : x.toInt + width.toNat ≤ 32767)
    (hy : y.toInt + height.toNat ≤ 32767) :
    ∃ o', (OledCall.clearArea x y width height).perform fuel beyond o = some o' ∧ o'.panel = o.panel ∧
      o'.buf.pixels = (Paint.fill (fun p => InArea x y width height p.1 p.2) fun _ => false).atop o.buf.pixels := by
  obtain ⟨buf', hend, hpix⟩ := draws_oledClearArea hfuel hx hy o.buf
  refine ⟨{ o with buf := buf' }, ?_, rfl, hpix⟩
  rw [OledCall.perform, hend]
  rfl

theorem draws_pageText {x y : Int16} (hxy : Placed x y) {text : List Char} (ht : PageText text) (font : Font) :
    Draws (oledShowString fuel x y text font) (textPaint x y font text 0) := by
  obtain ⟨⟨hx, hx'⟩, hy⟩ := hxy
  have h0 : (0 : UInt16).toNat = 0 := rfl
  have hlen := ht.length
  exact draws_showStringFrom hx hfuel (by omega) ht.printable (by omega)

theorem perform_showString {x y : Int16} (hxy : Placed x y) {text : List Char} (ht : PageText text) (font : Font) :
    ∃ o', (OledCall.showString x y text font).perform fuel beyond o = some o' ∧ o'.panel = o.panel ∧
      o'.buf.pixels = (textPaint x y font text 0).atop o.buf.pixels := by
  obtain ⟨buf', hend, hpix⟩ := draws_pageText hfuel hxy ht font o.buf
  refine ⟨{ o with buf := buf' }, ?_, rfl, hpix⟩
  rw [OledCall.perform, hend]
  rfl

end Calls

/-- The time is blank, or drawn and not yet sent; the lap is as it may be. -/
structure TimeDrawn (paint : Paint Point Bool) (o : Oled) : Prop where
  picture : ∀ p, ¬LapArea p → o.buf.pixels p = paint.atop staticPicture p
  panel : PanelOutside TimeArea o

/-- The time is drawn and sent. -/
structure TimeSent (total : UInt32) (o : Oled) : Prop where
  picture : ∀ p, ¬LapArea p → o.buf.pixels p = (timePaint total).atop staticPicture p
  panel : o.panel.ram = o.buf

/-- All is drawn, and the lap is not yet sent. -/
structure LapDrawn (total : UInt32) (last : Option UInt32) (o : Oled) : Prop where
  picture : o.buf.pixels = mainPicture total last
  panel : PanelOutside LapArea o

/-- All is drawn and sent. -/
structure MainDrawn (total : UInt32) (last : Option UInt32) (o : Oled) : Prop where
  picture : o.buf.pixels = mainPicture total last
  panel : o.panel.ram = o.buf

theorem MainDrawn.shown {total : UInt32} {last : Option UInt32} {o : Oled} (h : MainDrawn total last o) : Shown o where
  static p ht hl := by
    rw [h.picture, mainPicture, Paint.atop_of_not_mem (within_lapPaint last) hl, Paint.atop_of_not_mem (within_timePaint total) ht]
  panel := h.panel

section Frame

variable (fuel : ℕ) (beyond : ℕ → UInt8) {o : Oled}

theorem TimeDrawn.send {total : UInt32} (h : TimeDrawn (timePaint total) o) :
    ∃ o', (OledCall.updateArea 0 16 128 16).perform fuel beyond o = some o' ∧ TimeSent total o' := by
  obtain ⟨o', hend, hbuf, hram⟩ := perform_updateArea fuel beyond o 0 16 128 16
    (by decide) (by decide) (by unfold Sendable; decide) h.panel
  exact ⟨o', hend, by rw [hbuf]; exact h.picture, by rw [hram, hbuf]⟩

theorem LapDrawn.send {total : UInt32} {last : Option UInt32} (h : LapDrawn total last o) :
    ∃ o', (OledCall.updateArea 30 36 98 8).perform fuel beyond o = some o' ∧ MainDrawn total last o' := by
  obtain ⟨o', hend, hbuf, hram⟩ := perform_updateArea fuel beyond o 30 36 98 8
    (by decide) (by decide) (by unfold Sendable; decide) h.panel
  exact ⟨o', hend, by rw [hbuf]; exact h.picture, by rw [hram, hbuf]⟩

variable {fuel} (hfuel : 256 ≤ fuel)
include hfuel

theorem Shown.clearTime (h : Shown o) :
    ∃ o', (OledCall.clearArea 0 16 128 16).perform fuel beyond o = some o' ∧ TimeDrawn Paint.clear o' := by
  obtain ⟨o', hend, hpanel, hpix⟩ := perform_clearArea beyond o hfuel 0 16 128 16
    (by decide) (by decide)
  have hpix : o'.buf.pixels = (Paint.fill TimeArea fun _ => false).atop o.buf.pixels := hpix
  refine ⟨o', hend, ?_, ?_⟩
  · intro p hl
    rw [hpix, Paint.atop_fill_apply, Paint.atop_clear]
    split
    · rename_i ht
      exact (staticPicture_eq_false (Or.inl ht)).symm
    · rename_i ht
      exact h.static p ht hl
  · intro p ht
    rw [hpix, Paint.atop_of_not_mem (Paint.within_fill _ _) ht, hpanel, h.panel]

theorem TimeDrawn.showTime (h : TimeDrawn Paint.clear o) (total : UInt32) :
    ∃ o', (OledCall.showString 0 16 (formatTimeMs total 24) .f8x16).perform fuel beyond o = some o' ∧
      TimeDrawn (timePaint total) o' := by
  obtain ⟨o', hend, hpanel, hpix⟩ := perform_showString beyond o hfuel (x := 0) (y := 16) (by decide)
    (pageText_formatTimeMs total) .f8x16
  have hpix : o'.buf.pixels = (timePaint total).atop o.buf.pixels := hpix
  refine ⟨o', hend, ?_, ?_⟩
  · intro p hl
    have hp := h.picture p hl
    rw [Paint.atop_clear] at hp
    rw [hpix, Paint.atop, Paint.atop, hp]
  · intro p ht
    rw [hpix, Paint.atop_of_not_mem (within_timePaint total) ht, hpanel, h.panel p ht]

theorem TimeSent.clearLap {total : UInt32} (h : TimeSent total o) :
    ∃ o', (OledCall.clearArea 30 36 98 8).perform fuel beyond o = some o' ∧ LapDrawn total none o' := by
  obtain ⟨o', hend, hpanel, hpix⟩ := perform_clearArea beyond o hfuel 30 36 98 8
    (by decide) (by decide)
  have hpix : o'.buf.pixels = (Paint.fill LapArea fun _ => false).atop o.buf.pixels := hpix
  refine ⟨o', hend, ?_, ?_⟩
  · rw [hpix, Paint.atop_fill_congr h.picture]
    apply Paint.atop_fill_self
    intro p hl
    rw [Paint.atop_of_not_mem (within_timePaint total) (not_timeArea_of_lapArea hl), staticPicture_eq_false (Or.inr hl)]
  · intro p hl
    rw [hpix, Paint.atop_of_not_mem (Paint.within_fill _ _) hl, hpanel, h.panel]

theorem LapDrawn.showLap {total : UInt32} (h : LapDrawn total none o) (last : UInt32) :
    ∃ o', (OledCall.showString 30 36 (formatTimeMs last 24) .f6x8).perform fuel beyond o = some o' ∧
      LapDrawn total (some last) o' := by
  obtain ⟨o', hend, hpanel, hpix⟩ := perform_showString beyond o hfuel (x := 30) (y := 36) (by decide)
    (pageText_formatTimeMs last) .f6x8
  have hpix : o'.buf.pixels = (lapPaint (some last)).atop o.buf.pixels := hpix
  refine ⟨o', hend, ?_, ?_⟩
  · rw [hpix, h.picture]
    rfl
  · intro p hl
    rw [hpix, Paint.atop_of_not_mem (within_lapPaint (some last)) hl, hpanel, h.panel p hl]

end Frame

end RtStopwatch
