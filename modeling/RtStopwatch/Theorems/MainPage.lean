import RtStopwatch.Lemmas.Frame

/-!
# The incremental redraw of the main page

`draw_main_page` redraws two rectangles of a page that it takes to be on the screen when `s_page_drawn` is set. The flag is set by
the UI thread and cleared by whoever sets the page, at any point of a frame; still, at the end of every `draw_main_page` the buffer
is the page drawn from a blank one, and the panel holds it (`main_page_redrawn`).
-/

namespace RtStopwatch

open Lib

variable {fuel : ℕ} {beyond : ℕ → UInt8}

/-- The main page drawn from a blank buffer. -/
def redrawMain (fuel : ℕ) (total : UInt32) (last : Option UInt32) (buf : DisplayBuf) : Option DisplayBuf := do
  let buf ← oledShowString fuel 0 0 "Stopwatch".toList .f6x8 (oledClear buf)
  let buf ← oledShowString fuel 0 36 "Lap:".toList .f6x8 buf
  let buf ← oledShowString fuel 0 16 (formatTimeMs total 24) .f8x16 buf
  match last with
  | none => return buf
  | some ms => oledShowString fuel 30 36 (formatTimeMs ms 24) .f6x8 buf

/-- Drawn from a blank buffer the page is its picture. -/
theorem redrawMain_eq (hfuel : 256 ≤ fuel) {total : UInt32} {last : Option UInt32} {o : Oled} (h : MainDrawn total last o)
    (buf : DisplayBuf) : redrawMain fuel total last buf = some o.buf := by
  have htitle := draws_pageText hfuel (x := 0) (y := 0) (by decide) pageText_title .f6x8
  have hlabel := draws_pageText hfuel (x := 0) (y := 36) (by decide) pageText_label .f6x8
  have htime := draws_pageText hfuel (x := 0) (y := 16) (by decide) (pageText_formatTimeMs total) .f8x16
  obtain ⟨buf₁, hend₁, hpix₁⟩ := htitle (oledClear buf)
  obtain ⟨buf₂, hend₂, hpix₂⟩ := hlabel buf₁
  obtain ⟨buf₃, hend₃, hpix₃⟩ := htime buf₂
  have hpix : buf₃.pixels = (timePaint total).atop staticPicture := by
    rw [hpix₃, hpix₂, hpix₁, pixels_oledClear]
    rfl
  simp only [redrawMain, hend₁, hend₂, hend₃, Option.bind_eq_bind, Option.bind_some]
  cases last with
  | none =>
    refine congrArg some ?_
    apply pixels_injective
    rw [hpix, h.picture]
    rfl
  | some ms =>
    obtain ⟨buf₄, hend₄, hpix₄⟩ := draws_pageText hfuel (x := 30) (y := 36) (by decide) (pageText_formatTimeMs ms) .f6x8 buf₃
    refine hend₄.trans (congrArg some ?_)
    apply pixels_injective
    rw [hpix₄, hpix, h.picture]
    rfl

/-- `draw_main_page` ends with the sending of the lap. -/
theorem endsWith_drawMainPage : drawMainPage.EndsWith mainPageEnd := by
  have hcall (op : Op) : (Code.call op).Uses (· ≠ mainPageEnd) := ⟨nofun, fun _ => trivial⟩
  have hload (v : Static) : (Code.load v).Uses (· ≠ mainPageEnd) := ⟨nofun, fun _ => trivial⟩
  have hclear (x y : Int16) (w h : UInt8) : (Code.oled (.clearArea x y w h)).Uses (· ≠ mainPageEnd) := ⟨nofun, fun _ => trivial⟩
  have hshow (x y : Int16) (text : List Char) (font : Font) : (Code.oled (.showString x y text font)).Uses (· ≠ mainPageEnd) :=
    ⟨nofun, fun _ => trivial⟩
  have htime : (Code.oled (.updateArea 0 16 128 16)).Uses (· ≠ mainPageEnd) := ⟨nofun, fun _ => trivial⟩
  have hstatic : drawMainStatic.Uses (· ≠ mainPageEnd) :=
    ⟨nofun, fun _ => (hshow ..).bind fun _ => (hshow ..).bind fun _ => ⟨nofun, fun _ => ⟨nofun, fun _ => trivial⟩⟩⟩
  have hlap : drawMainLap.Uses (· ≠ mainPageEnd) := (hcall _).bind fun _ => hshow ..
  refine Prog.EndsWith.bind (hcall .getTotalMs) fun total => ?_
  refine Prog.EndsWith.bind (hload .sPageDrawn) fun (drawn : UInt8) => ?_
  refine Prog.EndsWith.bind (uses_when (drawn = 0) hstatic) fun _ => ?_
  refine Prog.EndsWith.bind (hclear ..) fun _ => ?_
  refine Prog.EndsWith.bind (hshow ..) fun _ => ?_
  refine Prog.EndsWith.bind htime fun _ => ?_
  refine Prog.EndsWith.bind (hcall .getLapCount) fun (cnt : UInt16) => ?_
  refine Prog.EndsWith.bind (hclear ..) fun _ => ?_
  refine Prog.EndsWith.bind (uses_when (0 < cnt) hlap) fun _ => ?_
  exact Or.inl ⟨rfl, fun _ => ⟨(), rfl⟩⟩

/-- The incremental redraw is a full one. The thread starts with the flag cleared, on any buffer and any panel; the stopwatch answers
as it likes, and whoever sets the page does so between any two actions. No call fails, and at the end of each `draw_main_page` the
buffer is the page of the answers it got, drawn from a blank buffer, and the panel holds the buffer. -/
theorem main_page_redrawn (hfuel : 256 ≤ fuel) (beyond : ℕ → UInt8) (s : Screen) (hdrawn : s.vars.sPageDrawn = 0)
    (turns : List (Turn ((a : Act) → a.Result) ScreenEvent)) :
    drawMainPage.EndsWith mainPageEnd ∧
      ∃ code t, (screenMachine fuel beyond).run s.start turns = some (code, t) ∧
        ∀ turn, ∃ code' t', ((screenMachine fuel beyond).step (some (code, t)) turn).2 = some (code', t') ∧
          (((screenMachine fuel beyond).step (some (code, t)) turn).1 = some mainPageEnd →
            (∀ buf, redrawMain fuel t'.reads.total t'.reads.last buf = some t'.oled.buf) ∧ t'.oled.panel.ram = t'.oled.buf) := by
  refine ⟨endsWith_drawMainPage, ?_⟩
  have hready : Ready s := fun _ h => absurd hdrawn h
  have hloop (s : Screen) (hs : Ready s) : uiEntry.Safe (uiParties fuel beyond) (fun _ => Ready) s := safe_uiEntry hfuel hs
  obtain ⟨code, t, hrun, hsafe⟩ := run_loopMachine elsewhere_apply stable_ready hloop hready turns
  refine ⟨code, t, hrun, ?_⟩
  intro turn
  obtain ⟨code', t', hstep, -, hguar⟩ := hsafe.step elsewhere_apply hloop turn
  refine ⟨code', t', hstep, ?_⟩
  intro hend
  have hdone : MainDrawn t'.reads.total t'.reads.last t'.oled := hguar mainPageEnd hend rfl
  exact ⟨redrawMain_eq hfuel hdone, hdone.panel⟩

/-- A first frame over a lit buffer and a panel that shows something else; the shell sets the page twice in the course of it. -/
theorem main_page_redrawn_set_in_frame :
    let answer : (a : Act) → a.Result := fun a => (a.perform (World.boot Config.standard 72000000)).1
    let s : Screen :=
      { vars := Statics.boot
        oled := { buf := fun _ _ => 0xFF, panel := { page := 3, col := 5, ram := fun _ _ => 0x55 } }
        reads := { total := 0, cnt := 0, latest := 0 } }
    let turns : List (Turn ((a : Act) → a.Result) ScreenEvent) :=
      List.replicate 6 (.own answer) ++ .other (.setPage 1) :: .own answer :: .other (.setPage 0) :: List.replicate 8 (.own answer)
    let M := screenMachine 256 fun _ => 0
    s.vars.sPageDrawn = 0 ∧ drawMainPage.EndsWith mainPageEnd ∧
      ∃ code t, M.run s.start turns = some (code, t) ∧
        ∀ turn, ∃ code' t', (M.step (some (code, t)) turn).2 = some (code', t') ∧
          ((M.step (some (code, t)) turn).1 = some mainPageEnd →
            (∀ buf, redrawMain 256 t'.reads.total t'.reads.last buf = some t'.oled.buf) ∧ t'.oled.panel.ram = t'.oled.buf) :=
  ⟨rfl, main_page_redrawn (by decide) _ _ rfl _⟩

end RtStopwatch
