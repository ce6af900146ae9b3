import RtStopwatch.Lemmas.MainPage
import RtStopwatch.Theorems.Statistics

/-!
# Whether the texts of the pages are shown in full

The texts that the two pages show, as they would be with buffers and a screen of any size (`mainTexts`, `lapsTexts`), against those
that the code passes to `OLED_ShowString`. All of them fit, whatever the stopwatch holds, but for the line of statistics: its three
numbers have room for sixteen digits together (`page_texts_complete_iff`).
-/

namespace RtStopwatch

open Lib

variable {c : Config}

/-! ## The line of statistics -/

/-- The smallest lap. -/
def leastLap (laps : List UInt32) : ℕ := (laps.map UInt32.toNat).min?.getD 0

/-- The largest lap. -/
def greatestLap (laps : List UInt32) : ℕ := (laps.map UInt32.toNat).max?.getD 0

/-- The average of the laps, from their sum in 32 bits. -/
def averageLap (laps : List UInt32) : ℕ := exactSum laps % 2 ^ 32 / laps.length

/-- The line of statistics. -/
def statText (laps : List UInt32) : List Char :=
  'm' :: fmtU (leastLap laps) ++ ' ' :: 'M' :: fmtU (greatestLap laps) ++ ' ' :: 'a' :: fmtU (averageLap laps)

/-- The digits of the three numbers in the line of statistics. -/
def statDigits (laps : List UInt32) : ℕ :=
  (Nat.toDigits 10 (leastLap laps)).length + (Nat.toDigits 10 (greatestLap laps)).length +
    (Nat.toDigits 10 (averageLap laps)).length

theorem length_statText (laps : List UInt32) : (statText laps).length = statDigits laps + 5 := by
  simp only [statText, statDigits, fmtU, List.length_append, List.length_cons]
  omega

theorem toNat_minMs {laps : List UInt32} (h : laps ≠ []) : (statsOf laps).minMs.toNat = leastLap laps := by
  obtain ⟨hmem, hle⟩ := statsOf_minMs h
  have hmin : (laps.map UInt32.toNat).min? = some (statsOf laps).minMs.toNat := by
    rw [List.min?_eq_some_iff]
    refine ⟨List.mem_map_of_mem hmem, ?_⟩
    intro n hn
    obtain ⟨x, hx, rfl⟩ := List.mem_map.mp hn
    exact UInt32.le_iff_toNat_le.mp (hle x hx)
  rw [leastLap, hmin, Option.getD_some]

theorem toNat_maxMs {laps : List UInt32} (h : laps ≠ []) : (statsOf laps).maxMs.toNat = greatestLap laps := by
  obtain ⟨hmem, hle⟩ := statsOf_maxMs h
  have hmax : (laps.map UInt32.toNat).max? = some (statsOf laps).maxMs.toNat := by
    rw [List.max?_eq_some_iff]
    refine ⟨List.mem_map_of_mem hmem, ?_⟩
    intro n hn
    obtain ⟨x, hx, rfl⟩ := List.mem_map.mp hn
    exact UInt32.le_iff_toNat_le.mp (hle x hx)
  rw [greatestLap, hmax, Option.getD_some]

/-- The line of statistics as the code makes it. -/
theorem statLine_eq {laps : List UInt32} (h : laps ≠ []) {cnt : UInt16} (hcnt : laps.length = cnt.toNat) :
    statLine (statsOf laps) cnt = rtSnprintf 24 (statText laps) := by
  have hsum : (statsOf laps).sumMs.toNat = (0 + exactSum laps) % 2 ^ 32 := foldl_add_sumMs laps LapStats.init
  have havg : ((statsOf laps).sumMs / cnt.toUInt32).toNat = averageLap laps := by
    rw [UInt32.toNat_div, hsum, Nat.zero_add, UInt16.toNat_toUInt32, ← hcnt]
    rfl
  rw [statLine, statText, toNat_minMs h, toNat_maxMs h, havg]

/-! ## The pages in full -/

/-- The text is inside of the screen from left to right, and the font has its characters. -/
structure PlacedText.Visible (t : PlacedText) : Prop where
  left : 0 ≤ t.x.toInt
  right : t.x.toInt + t.font.size.toNat * t.text.length ≤ 128
  glyphs : ∀ ch ∈ t.text, (glyph ch).isSome = true

/-- The texts of the laps page; an offset past the laps counts as 0. -/
def lapsTexts (off : ℕ) (laps : List UInt32) : List PlacedText :=
  ⟨0, 0, "Laps".toList, .f6x8⟩ :: rowTexts (if off < laps.length then off else 0) laps ++
    if laps = [] then [] else [⟨0, 56, statText laps, .f6x8⟩]

/-- Both pages show their texts in full: those they show are the texts that no buffer has cut, and all of them are visible. -/
structure PagesComplete (w : World c) : Prop where
  main : placedTexts drawMainPage w =
    mainTexts (w.vars.sPageDrawn = 0) (stopwatchGetTotalMs boardPlatform w.sw w.board).1 (latestLap w.sw)
  laps : placedTexts drawLapsPage w = lapsTexts w.vars.sLapsOffset.toNat (heldLaps w.sw)
  visible : ∀ t ∈ placedTexts drawMainPage w ++ placedTexts drawLapsPage w, t.Visible

theorem visible_of_length_le {x y : Int16} {text : List Char} {font : Font} {n : ℕ} (hx : 0 ≤ x.toInt) (hn : text.length ≤ n)
    (hfit : x.toInt + font.size.toNat * n ≤ 128) (hchars : ∀ ch ∈ text, Printable ch) : PlacedText.Visible ⟨x, y, text, font⟩ where
  left := hx
  right := by
    have hwidth : (font.size.toNat : ℤ) * text.length ≤ font.size.toNat * n := by
      exact_mod_cast Nat.mul_le_mul_left _ hn
    show x.toInt + font.size.toNat * (text.length : ℤ) ≤ 128
    omega
  glyphs ch hch := by
    obtain ⟨image, himage⟩ := exists_glyph (hchars ch hch)
    rw [himage]
    rfl

theorem printable_timeMsText {ms : UInt32} : ∀ ch ∈ timeMsText ms, Printable ch := by
  intro ch hch
  rw [← formatTimeMs_eq (Nat.le_refl 12)] at hch
  exact printable_formatTimeMs hch

/-- Every text of the main page is visible. -/
theorem visible_of_mem_mainTexts {entered : Bool} {total : UInt32} {latest : Option UInt32} {t : PlacedText}
    (h : t ∈ mainTexts entered total latest) : t.Visible := by
  have htitle : PlacedText.Visible ⟨0, 0, "Stopwatch".toList, .f6x8⟩ :=
    visible_of_length_le (n := 9) (by decide) (by decide) (by decide) pageText_title.printable
  have hlabel : PlacedText.Visible ⟨0, 36, "Lap:".toList, .f6x8⟩ :=
    visible_of_length_le (n := 4) (by decide) (by decide) (by decide) pageText_label.printable
  rcases List.mem_append.mp h with h | h
  · cases entered with
    | false => cases h
    | true =>
      rcases List.mem_pair.mp h with rfl | rfl
      · exact htitle
      · exact hlabel
  · rcases List.mem_cons.mp h with rfl | h
    · exact visible_of_length_le (by decide) (length_timeMsText_le total) (by decide) printable_timeMsText
    · obtain ⟨last, -, rfl⟩ := List.mem_map.mp h
      exact visible_of_length_le (by decide) (length_timeMsText_le last) (by decide) printable_timeMsText

/-- Every row of the laps page is visible: a count of 16 bits has five digits at most. -/
theorem visible_of_mem_rowTexts {off : ℕ} {laps : List UInt32} (hlaps : laps.length < 65536) {t : PlacedText}
    (h : t ∈ rowTexts off laps) : t.Visible := by
  obtain ⟨i, hi, rfl⟩ := List.mem_mapIdx.mp h
  have hidx : i < laps.length - off := by
    rw [List.length_take, List.length_drop] at hi
    omega
  exact visible_of_length_le (by decide) (length_rowText_le (by omega) _) (by decide)
    (printable_row _ printable_timeMsText)

/-- Every text of the laps page is visible when the line of statistics has at most 21 characters. -/
theorem visible_of_mem_lapsTexts {off : ℕ} {laps : List UInt32} (hlaps : laps.length < 65536)
    (hstat : laps ≠ [] → (statText laps).length ≤ 21) {t : PlacedText} (h : t ∈ lapsTexts off laps) : t.Visible := by
  have htitle : PlacedText.Visible ⟨0, 0, "Laps".toList, .f6x8⟩ :=
    visible_of_length_le (n := 4) (by decide) (by decide) (by decide) (pageText_of_all (by decide)).printable
  rcases List.mem_append.mp h with h | h
  · rcases List.mem_cons.mp h with rfl | h
    · exact htitle
    · exact visible_of_mem_rowTexts hlaps h
  · by_cases hne : laps = []
    · rw [if_pos hne] at h
      cases h
    · rw [if_neg hne, List.mem_singleton] at h
      rw [h]
      exact visible_of_length_le (by decide) (hstat hne) (by decide) (printable_stat _ _ _)

/-- When everything the UI draws is complete and visible. For every stopwatch, with any total and any laps, and every offset: the texts
that the two pages show are not cut by their buffers, are inside of the 128 pixels from left to right at their places and in their
fonts, and have characters of the font only, if and only if there are no laps, or the smallest lap, the largest lap and their average
have at most sixteen digits together. -/
theorem page_texts_complete_iff (w : World c) :
    PagesComplete w ↔ (heldLaps w.sw ≠ [] → statDigits (heldLaps w.sw) ≤ 16) := by
  have hlaps : (heldLaps w.sw).length < 65536 := by
    rw [length_heldLaps]
    exact UInt16.toNat_lt _
  have hlength := length_statText (heldLaps w.sw)
  constructor
  · intro h hne
    have hmem : ⟨0, 56, statText (heldLaps w.sw), .f6x8⟩ ∈ placedTexts drawLapsPage w := by
      rw [h.laps, lapsTexts, if_neg hne]
      exact List.mem_append_right _ (List.mem_singleton.mpr rfl)
    have hright : (0 : Int16).toInt + Font.f6x8.size.toNat * ((statText (heldLaps w.sw)).length : ℤ) ≤ 128 :=
      (h.visible _ (List.mem_append_right _ hmem)).right
    have h6 : Font.f6x8.size.toNat = 6 := rfl
    have h0 : (0 : Int16).toInt = 0 := rfl
    rw [h6, h0] at hright
    omega
  · intro h
    have hpage : placedTexts drawLapsPage w = lapsTexts w.vars.sLapsOffset.toNat (heldLaps w.sw) := by
      rw [placedTexts_drawLapsPage, lapsTexts]
      by_cases hne : heldLaps w.sw = []
      · rw [if_pos hne, if_pos hne]
      · have hdigits := h hne
        rw [if_neg hne, if_neg hne, statLine_eq hne (length_heldLaps w.sw), rtSnprintf_of_length_lt (by omega)]
    refine ⟨placedTexts_drawMainPage w, hpage, ?_⟩
    intro t ht
    rcases List.mem_append.mp ht with ht | ht
    · rw [placedTexts_drawMainPage] at ht
      exact visible_of_mem_mainTexts ht
    · rw [hpage] at ht
      refine visible_of_mem_lapsTexts hlaps ?_ ht
      intro hne
      have hdigits := h hne
      omega

/-- One lap of 100 seconds: `m100000 M100000 a100000` has 23 characters and 138 pixels. -/
theorem page_texts_cut_at_100_seconds :
    let es : List (Op × Reading) := [(.start, ⟨1, 0⟩), (.lap, ⟨100000001, 100000⟩)]
    let w : World Config.standard := { World.boot Config.standard 72000000 with sw := Stopwatch.after Config.standard es }
    heldLaps w.sw = [100000] ∧ ¬PagesComplete w := by
  intro es w
  have hheld : heldLaps w.sw = [100000] := by decide
  refine ⟨hheld, ?_⟩
  intro h
  have hmem : ⟨0, 56, "m100000 M100000 a100000".toList, .f6x8⟩ ∈ placedTexts drawLapsPage w := by
    rw [h.laps, hheld]
    decide
  exact absurd (h.visible _ (List.mem_append_right _ hmem)).right (by decide)

end RtStopwatch
