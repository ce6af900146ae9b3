import RtStopwatch.Lemmas.LapsPage
import RtStopwatch.Lemmas.Status
import RtStopwatch.Lemmas.Text

/-!
# The texts of the pages

Which texts the two pages pass to `OLED_ShowString`, and where, when nothing else runs in between: `placedTexts` of `draw_main_page` and
of `draw_laps_page`, in terms of what the stopwatch returns. The times and the rows are in full, as their buffers hold them.
-/

namespace RtStopwatch

open Lib

variable {c : Config}

/-- A text at a place of the screen. -/
structure PlacedText where
  x : Int16
  y : Int16
  text : List Char
  font : Font
  deriving DecidableEq, Repr

/-- The text an action shows. -/
def Act.placed? : Act → Option PlacedText
  | .oled (.showString x y text font) => some ⟨x, y, text, font⟩
  | _ => none

/-- The texts that code shows when nothing interrupts it. -/
def placedTexts {α : Type} (p : Code α) (w : World c) : List PlacedText := (p.acts Act.perform w).filterMap Act.placed?

theorem eq_of_placed? {a : Act} {t : PlacedText} (h : a.placed? = some t) : a = .oled (.showString t.x t.y t.text t.font) := by
  unfold Act.placed? at h
  split at h
  · cases h
    rfl
  · cases h

theorem placedTexts_bind {α β : Type} (p : Code α) (f : α → Code β) (w : World c) :
    placedTexts (p >>= f) w = placedTexts p w ++ placedTexts (f (p.exec Act.perform w).1) (p.exec Act.perform w).2 := by
  rw [placedTexts, Prog.acts_bind, List.filterMap_append]
  rfl

theorem length_heldLaps (s : Stopwatch c) : (heldLaps s).length = (stopwatchGetLapCount s).toNat := by
  simp [heldLaps]

theorem heldLaps_eq_nil_iff (s : Stopwatch c) : heldLaps s = [] ↔ ¬0 < stopwatchGetLapCount s := by
  rw [← List.length_eq_zero_iff, length_heldLaps, UInt16.lt_iff_toNat_lt]
  show _ ↔ ¬0 < _
  omega

/-- The latest lap, if there are laps. -/
def latestLap (s : Stopwatch c) : Option UInt32 := if heldLaps s = [] then none else some (stopwatchGetLatestLapMs s)

/-! ## The main page -/

/-- The texts of the main page; the title and the label are only drawn when the page is entered. -/
def mainTexts (entered : Bool) (total : UInt32) (latest : Option UInt32) : List PlacedText :=
  (if entered then [⟨0, 0, "Stopwatch".toList, .f6x8⟩, ⟨0, 36, "Lap:".toList, .f6x8⟩] else []) ++
    ⟨0, 16, timeMsText total, .f8x16⟩ :: latest.toList.map fun last => ⟨30, 36, timeMsText last, .f6x8⟩

/-- `draw_main_page` after its static part. -/
def drawMainDynamic (total : UInt32) : Code Unit := do
  Code.oled (.clearArea 0 16 128 16)
  Code.oled (.showString 0 16 (formatTimeMs total 24) .f8x16)
  Code.oled (.updateArea 0 16 128 16)
  let cnt : UInt16 ← Code.call .getLapCount
  Code.oled (.clearArea 30 36 98 8)
  Code.when (0 < cnt) drawMainLap
  Code.oled (.updateArea 30 36 98 8)

theorem placedTexts_drawMainDynamic (total : UInt32) (w : World c) :
    placedTexts (drawMainDynamic total) w = mainTexts false total (latestLap w.sw) := by
  have htime : ∀ ms, formatTimeMs ms 24 = timeMsText ms := formatTimeMs_eq (by decide)
  show ⟨0, 16, formatTimeMs total 24, .f8x16⟩ :: placedTexts (Code.when (0 < stopwatchGetLapCount w.sw) drawMainLap >>= fun _ =>
    Code.oled (.updateArea 30 36 98 8)) w = _
  unfold Code.when
  by_cases hcnt : 0 < stopwatchGetLapCount w.sw
  · have hheld : heldLaps w.sw ≠ [] := fun h => (heldLaps_eq_nil_iff w.sw).mp h hcnt
    rw [if_pos hcnt, latestLap, if_neg hheld]
    simp only [mainTexts, ← htime]
    rfl
  · have hheld : heldLaps w.sw = [] := (heldLaps_eq_nil_iff w.sw).mpr hcnt
    rw [if_neg hcnt, latestLap, if_pos hheld]
    simp only [mainTexts, ← htime]
    rfl

/-- No buffer of the main page cuts its text. -/
theorem placedTexts_drawMainPage (w : World c) :
    placedTexts drawMainPage w =
      mainTexts (w.vars.sPageDrawn = 0) (stopwatchGetTotalMs boardPlatform w.sw w.board).1 (latestLap w.sw) := by
  let w₁ : World c := { w with board := (stopwatchGetTotalMs boardPlatform w.sw w.board).2 }
  show placedTexts (Code.when (w.vars.sPageDrawn = 0) drawMainStatic >>= fun _ =>
    drawMainDynamic (stopwatchGetTotalMs boardPlatform w.sw w.board).1) w₁ = _
  unfold Code.when
  by_cases hdrawn : w.vars.sPageDrawn = 0
  · rw [if_pos hdrawn, placedTexts_bind, placedTexts_drawMainDynamic, decide_eq_true hdrawn]
    rfl
  · rw [if_neg hdrawn, placedTexts_bind, placedTexts_drawMainDynamic, decide_eq_false hdrawn]
    rfl

/-! ## The laps page -/

/-- A row of the laps page. -/
def rowText (n : ℕ) (ms : UInt32) : List Char := '#' :: fmtU n ++ ' ' :: timeMsText ms

/-- Its six rows, from the offset on. -/
def rowTexts (off : ℕ) (laps : List UInt32) : List PlacedText :=
  ((laps.drop off).take 6).mapIdx fun i ms => ⟨0, Int16.ofNat (8 * (i + 1)), rowText (off + i + 1) ms, .f6x8⟩

theorem length_fmtU_le {k n : ℕ} (hk : 0 < k) (hn : n < 10 ^ k) : (fmtU n).length ≤ k := by
  rw [fmtU_eq]
  exact length_decimal_le hk (Nat.zero_le k) hn

/-- A row has at most eighteen characters. -/
theorem length_rowText_le {n : ℕ} (hn : n < 10 ^ 5) (ms : UInt32) : (rowText n ms).length ≤ 18 := by
  have hnum := length_fmtU_le (by decide) hn
  have htime := length_timeMsText_le ms
  simp only [rowText, List.length_append, List.length_cons]
  omega

/-- A row as the code makes it: neither buffer cuts it. -/
theorem lapLine_eq (idx : UInt16) (ms : UInt32) : lapLine idx ms = rowText (idx.toNat + 1) ms := by
  have hidx := idx.toNat_lt
  have hlength := length_rowText_le (show idx.toNat + 1 < 10 ^ 5 by omega) ms
  rw [lapLine, formatTimeMs_eq (by decide)]
  exact rtSnprintf_of_length_lt (by rw [rowText] at hlength; omega)

theorem getElem_heldLaps {s : Stopwatch c} {j : ℕ} (h : j < (heldLaps s).length) :
    (heldLaps s)[j] = stopwatchGetLapMs s (UInt16.ofNat j) := by
  simp [heldLaps]

/-- The loop over the rows, from row `i` on. The index does not wrap: it meets the count before. -/
theorem placedTexts_drawLapRows (n : ℕ) {i : UInt16} {w : World c}
    (h : w.vars.sLapsOffset.toNat + i.toNat ≤ (stopwatchGetLapCount w.sw).toNat) :
    placedTexts (drawLapRows (stopwatchGetLapCount w.sw) n i) w =
      (((heldLaps w.sw).drop (w.vars.sLapsOffset.toNat + i.toNat)).take n).mapIdx fun k ms =>
        ⟨0, Int16.ofNat (8 * (i.toNat + k + 1)), rowText (w.vars.sLapsOffset.toNat + i.toNat + k + 1) ms, .f6x8⟩ := by
  induction n generalizing i with
  | zero =>
    rw [List.take_zero]
    rfl
  | succ n ih =>
    have hcnt := (stopwatchGetLapCount w.sw).toNat_lt
    have hlen := length_heldLaps w.sw
    have hidx : (w.vars.sLapsOffset + i).toNat = w.vars.sLapsOffset.toNat + i.toNat := by
      rw [UInt16.toNat_add]
      exact Nat.mod_eq_of_lt (by omega)
    show placedTexts (if w.vars.sLapsOffset + i ≥ stopwatchGetLapCount w.sw then pure () else _ : Code Unit) w = _
    by_cases hge : w.vars.sLapsOffset + i ≥ stopwatchGetLapCount w.sw
    · have hend : (heldLaps w.sw).length ≤ w.vars.sLapsOffset.toNat + i.toNat := by
        rw [hlen, ← hidx]
        exact UInt16.le_iff_toNat_le.mp hge
      rw [if_pos hge, List.drop_eq_nil_of_le hend]
      rfl
    · have hlt : w.vars.sLapsOffset.toNat + i.toNat < (heldLaps w.sw).length := by
        rw [hlen, ← hidx]
        exact UInt16.lt_iff_toNat_lt.mp (UInt16.not_le.mp hge)
      have hi : (i + 1).toNat = i.toNat + 1 := toNat_add_one (n := 0) (m := (stopwatchGetLapCount w.sw).toNat) (by omega) hcnt
      have hlap : stopwatchGetLapMs w.sw (w.vars.sLapsOffset + i) = (heldLaps w.sw)[w.vars.sLapsOffset.toNat + i.toNat] := by
        rw [getElem_heldLaps hlt, ← hidx, UInt16.ofNat_toNat]
      rw [if_neg hge, List.drop_eq_getElem_cons hlt, List.take_succ_cons, List.mapIdx_cons, ← hlap, ← hidx, ← lapLine_eq]
      show ⟨0, Int16.ofNat (8 * (i.toNat + 1)), lapLine _ _, .f6x8⟩ :: placedTexts (drawLapRows _ n (i + 1)) w = _
      rw [ih (by omega), hi, hidx]
      simp only [Nat.zero_add, Nat.add_assoc, Nat.add_comm, Nat.add_left_comm]
      rfl

theorem exec_drawLapRows_sw (cnt : UInt16) (n : ℕ) (i : UInt16) (w : World c) :
    ((drawLapRows cnt n i).exec Act.perform w).2.sw = w.sw := by
  induction n generalizing i with
  | zero => rfl
  | succ n ih =>
    show ((if w.vars.sLapsOffset + i ≥ cnt then _ else _ : Code Unit).exec Act.perform w).2.sw = w.sw
    split
    · rfl
    · exact ih (i + 1)

/-- The first line of the page shows nothing and leaves an offset below the count, or 0. -/
theorem clampLapsOffset_spec (cnt : UInt16) (w : World c) :
    placedTexts (clampLapsOffset cnt) w = [] ∧
      ((clampLapsOffset cnt).exec Act.perform w).2.sw = w.sw ∧
      ((clampLapsOffset cnt).exec Act.perform w).2.vars.sLapsOffset.toNat =
        if w.vars.sLapsOffset.toNat < cnt.toNat then w.vars.sLapsOffset.toNat else 0 := by
  show placedTexts (Code.when (w.vars.sLapsOffset ≥ cnt) (Code.store .sLapsOffset (0 : UInt16))) w = [] ∧
    ((Code.when (w.vars.sLapsOffset ≥ cnt) (Code.store .sLapsOffset (0 : UInt16))).exec Act.perform w).2.sw = w.sw ∧
    ((Code.when (w.vars.sLapsOffset ≥ cnt) (Code.store .sLapsOffset (0 : UInt16))).exec Act.perform w).2.vars.sLapsOffset.toNat = _
  unfold Code.when
  by_cases hoff : w.vars.sLapsOffset.toNat < cnt.toNat
  · have hlt : ¬w.vars.sLapsOffset ≥ cnt := by
      rw [ge_iff_le, UInt16.le_iff_toNat_le]
      omega
    rw [if_neg hlt, if_pos hoff]
    exact ⟨rfl, rfl, rfl⟩
  · have hge : w.vars.sLapsOffset ≥ cnt := by
      rw [ge_iff_le, UInt16.le_iff_toNat_le]
      omega
    rw [if_pos hge, if_neg hoff]
    exact ⟨rfl, rfl, rfl⟩

theorem placedTexts_readLapStats (n : ℕ) (i : UInt16) (st : LapStats) (w : World c) :
    placedTexts (readLapStats n i st) w = [] := by
  apply List.filterMap_eq_nil_iff.mpr
  intro a ha
  obtain ⟨k, rfl⟩ := acts_readLapStats a ha
  rfl

theorem placedTexts_drawLapStats (w : World c) :
    placedTexts (drawLapStats (stopwatchGetLapCount w.sw)) w =
      [⟨0, 56, statLine (statsOf (heldLaps w.sw)) (stopwatchGetLapCount w.sw), .f6x8⟩] := by
  rw [drawLapStats, placedTexts_bind, placedTexts_readLapStats, exec_readLapStats_all]
  rfl

/-- The texts of the laps page. No row is cut; the line of statistics is as `rt_snprintf` leaves it. -/
theorem placedTexts_drawLapsPage (w : World c) :
    placedTexts drawLapsPage w =
      ⟨0, 0, "Laps".toList, .f6x8⟩ ::
        rowTexts (if w.vars.sLapsOffset.toNat < (heldLaps w.sw).length then w.vars.sLapsOffset.toNat else 0) (heldLaps w.sw) ++
        if heldLaps w.sw = [] then [] else [⟨0, 56, statLine (statsOf (heldLaps w.sw)) (stopwatchGetLapCount w.sw), .f6x8⟩] := by
  let w₁ := ((clampLapsOffset (stopwatchGetLapCount w.sw)).exec Act.perform w).2
  let w₂ := ((drawLapRows (stopwatchGetLapCount w.sw) 6 0).exec Act.perform w₁).2
  obtain ⟨hclamp, hw₁, hoff⟩ : _ ∧ w₁.sw = w.sw ∧ _ := clampLapsOffset_spec (stopwatchGetLapCount w.sw) w
  have hw₂ : w₂.sw = w.sw := (exec_drawLapRows_sw _ 6 0 w₁).trans hw₁
  have hrows : placedTexts (drawLapRows (stopwatchGetLapCount w.sw) 6 0) w₁ =
      rowTexts (if w.vars.sLapsOffset.toNat < (heldLaps w.sw).length then w.vars.sLapsOffset.toNat else 0) (heldLaps w.sw) := by
    have hle : w₁.vars.sLapsOffset.toNat + (0 : UInt16).toNat ≤ (stopwatchGetLapCount w₁.sw).toNat := by
      rw [hoff, hw₁]
      split
      · exact Nat.le_of_lt ‹_›
      · exact Nat.zero_le _
    have hloop := placedTexts_drawLapRows 6 hle
    rw [hw₁, hoff, ← length_heldLaps] at hloop
    rw [hloop, rowTexts]
    simp only [UInt16.toNat_zero, Nat.add_zero, Nat.zero_add]
  have hstat : placedTexts (Code.when (0 < stopwatchGetLapCount w.sw) (drawLapStats (stopwatchGetLapCount w.sw))) w₂ =
      if heldLaps w.sw = [] then [] else [⟨0, 56, statLine (statsOf (heldLaps w.sw)) (stopwatchGetLapCount w.sw), .f6x8⟩] := by
    unfold Code.when
    by_cases hheld : heldLaps w.sw = []
    · rw [if_neg ((heldLaps_eq_nil_iff w.sw).mp hheld), if_pos hheld]
      rfl
    · have hlaps := placedTexts_drawLapStats w₂
      rw [if_neg hheld, if_pos (by_contra fun h => hheld ((heldLaps_eq_nil_iff w.sw).mpr h))]
      rwa [hw₂] at hlaps
  show _ :: placedTexts (drawLapsBody (stopwatchGetLapCount w.sw)) w = _
  rw [drawLapsBody, placedTexts_bind, placedTexts_bind, placedTexts_bind, hclamp, hrows, hstat, List.nil_append]
  exact congrArg _ (congrArg _ (List.append_nil _))

/-- The line of statistics is shown when there are laps. -/
theorem statLine_mem_drawLapsPage (w : World c) (hcnt : 0 < stopwatchGetLapCount w.sw) :
    .oled (.showString 0 56 (statLine (statsOf (heldLaps w.sw)) (stopwatchGetLapCount w.sw)) .f6x8) ∈
      drawLapsPage.acts Act.perform w := by
  have hheld : heldLaps w.sw ≠ [] := fun h => (heldLaps_eq_nil_iff w.sw).mp h hcnt
  have hmem : ⟨0, 56, statLine (statsOf (heldLaps w.sw)) (stopwatchGetLapCount w.sw), .f6x8⟩ ∈ placedTexts drawLapsPage w := by
    rw [placedTexts_drawLapsPage, if_neg hheld]
    exact List.mem_append_right _ (List.mem_singleton.mpr rfl)
  obtain ⟨a, ha, hplaced⟩ := List.mem_filterMap.mp hmem
  rw [eq_of_placed? hplaced] at ha
  exact ha

end RtStopwatch
