import RtStopwatch.Lemmas.LapsPage
import RtStopwatch.Lemmas.MainPage

/-!
# The frames of the UI thread among the others

The loop of `ui_entry` with the others at work between any two of its actions (`uiParties`): they leave the screen alone, and may
clear the flag `s_page_drawn` at any time, but they set it never and change the page only with the flag cleared. So the flag is set
only while the static part of the main page is on the screen (`Ready`), a frame of the main page ends with the whole page
(`safe_drawMainPage`), and the laps page is drawn only when the flag is cleared before the main page comes back (`Away`).
-/

namespace RtStopwatch

open Lib

/-- The latest lap that a frame shows. -/
def Reads.last (m : Reads) : Option UInt32 := if 0 < m.cnt then some m.latest else none

/-- The last action of `draw_main_page`. -/
def mainPageEnd : Act := .oled (.updateArea 30 36 98 8)

/-! ## The UI thread and the others -/

/-- What the others may do: nothing to the screen, and to the flag only to clear it, unless the page stays. -/
structure Elsewhere (s t : Screen) : Prop where
  oled : t.oled = s.oled
  reads : t.reads = s.reads
  flag : t.vars.sPageDrawn = 0 ∨ t.vars.sPage = s.vars.sPage ∧ t.vars.sPageDrawn = s.vars.sPageDrawn

/-- The thread, with what a frame of the main page guarantees at its end. -/
def uiParties (fuel : ℕ) (beyond : ℕ → UInt8) : Parties Act Act.Result Screen ((a : Act) → a.Result) where
  rely := Elsewhere
  refl s := ⟨rfl, rfl, Or.inr ⟨rfl, rfl⟩⟩
  trans := by
    rintro s t u ⟨ho, hm, hf⟩ ⟨ho', hm', hf'⟩
    refine ⟨ho'.trans ho, hm'.trans hm, ?_⟩
    rcases hf' with hf' | ⟨hp', hf'⟩
    · exact Or.inl hf'
    · rw [hp', hf']
      exact hf
  perform := Act.performOn fuel beyond
  guar a s := a = mainPageEnd → MainDrawn s.reads.total s.reads.last s.oled

theorem elsewhere_apply (e : ScreenEvent) (s : Screen) : Elsewhere s (e.apply s) := by
  cases e with
  | setPage page => exact ⟨rfl, rfl, Or.inl rfl⟩
  | others vars => exact ⟨rfl, rfl, Or.inr ⟨rfl, rfl⟩⟩

variable {fuel : ℕ} {beyond : ℕ → UInt8} {s : Screen}

/-- What is said of the screen alone stays true. -/
theorem stable_screen (J : Oled → Reads → Prop) : (uiParties fuel beyond).Stable fun s => J s.oled s.reads := by
  rintro s t h ⟨ho, hm, -⟩
  rw [ho, hm]
  exact h

/-- With the flag set, the main page is on the screen. -/
def Ready (s : Screen) : Prop := s.vars.sPage = 0 → s.vars.sPageDrawn ≠ 0 → Shown s.oled

/-- The same whatever the page, once the main page is entered; the answers so far are `m`. -/
def Entered (m : Reads) (s : Screen) : Prop := (s.vars.sPageDrawn ≠ 0 → Shown s.oled) ∧ s.reads = m

/-- The flag is cleared when the main page is asked for. -/
def Away (s : Screen) : Prop := s.vars.sPage = 0 → s.vars.sPageDrawn = 0

/-- The answers so far are `m`, and the screen is as `J` says. -/
def On (J : Oled → Prop) (m : Reads) (s : Screen) : Prop := J s.oled ∧ s.reads = m

theorem stable_on (J : Oled → Prop) (m : Reads) : (uiParties fuel beyond).Stable (On J m) :=
  stable_screen fun o m' => J o ∧ m' = m

theorem stable_ready : (uiParties fuel beyond).Stable Ready := by
  rintro s t h ⟨ho, -, hf⟩ hpage hdrawn
  rcases hf with hf | ⟨hp, hf⟩
  · exact absurd hf hdrawn
  · rw [ho]
    exact h (hp ▸ hpage) (hf ▸ hdrawn)

theorem stable_entered (m : Reads) : (uiParties fuel beyond).Stable (Entered m) := by
  rintro s t ⟨h, hm⟩ ⟨ho, hm', hf⟩
  refine ⟨?_, hm'.trans hm⟩
  intro hdrawn
  rcases hf with hf | ⟨-, hf⟩
  · exact absurd hf hdrawn
  · rw [ho]
    exact h (hf ▸ hdrawn)

theorem stable_away : (uiParties fuel beyond).Stable Away := by
  rintro s t h ⟨-, -, hf⟩ hpage
  rcases hf with hf | ⟨hp, hf⟩
  · exact hf
  · rw [hf]
    exact h (hp ▸ hpage)

theorem performOn_oled {call : OledCall} {o : Oled} (h : call.perform fuel beyond s.oled = some o)
    (answer : (a : Act) → a.Result) :
    Act.performOn fuel beyond answer (.oled call) s = some ((), { s with oled := o }) := by
  rw [Act.performOn, h]
  rfl

/-- The rule of a call of the driver that is not the last of the frame. -/
theorem safe_oled (call : OledCall) {J K : Oled → Prop} {m : Reads} (hcall : Act.oled call ≠ mainPageEnd)
    (h : ∀ o, J o → ∃ o', call.perform fuel beyond o = some o' ∧ K o') (hs : On J m s) :
    (Code.oled call).Safe (uiParties fuel beyond) (fun _ => On K m) s := by
  refine Prog.Safe.act (stable_on J m) (fun _ => stable_on K m) hs ?_
  rintro t answer ⟨ht, hm⟩
  obtain ⟨o', hend, ho'⟩ := h t.oled ht
  exact ⟨(), _, performOn_oled hend answer, fun he => absurd he hcall, ho', hm⟩

/-- The rule of a query. -/
theorem safe_call (op : Op) {J : Oled → Prop} {m : Reads} (hs : On J m s) :
    (Code.call op).Safe (uiParties fuel beyond) (fun r => On J (m.note op r)) s := by
  refine Prog.Safe.act (stable_on J m) (fun r => stable_on J (m.note op r)) hs ?_
  rintro t answer ⟨ht, hm⟩
  refine ⟨answer (.call op), _, rfl, nofun, ht, ?_⟩
  rw [hm]

/-! ## The main page -/

theorem safe_drawMainStatic (hfuel : 256 ≤ fuel) {m : Reads} (hs : On (fun _ => True) m s) :
    drawMainStatic.Safe (uiParties fuel beyond) (fun _ => On Shown m) s := by
  -- blank, with the title, with the label, sent
  refine Prog.Safe.bind (safe_oled .clear (K := fun o => o.buf.pixels = fun _ => false) (by nofun) ?_ hs) ?_
  · intro o _
    exact ⟨_, rfl, pixels_oledClear o.buf⟩
  intro _ s₁ hs₁
  refine Prog.Safe.bind (safe_oled (.showString 0 0 "Stopwatch".toList .f6x8)
    (K := fun o => o.buf.pixels = (textPaint 0 0 .f6x8 "Stopwatch".toList 0).atop fun _ => false) (by nofun) ?_ hs₁) ?_
  · intro o ho
    obtain ⟨o', hend, -, hpix⟩ := perform_showString beyond o hfuel (x := 0) (y := 0) (by decide) pageText_title .f6x8
    exact ⟨o', hend, hpix.trans (by rw [ho])⟩
  intro _ s₂ hs₂
  refine Prog.Safe.bind (safe_oled (.showString 0 36 "Lap:".toList .f6x8)
    (K := fun o => o.buf.pixels = staticPicture) (by nofun) ?_ hs₂) ?_
  · intro o ho
    obtain ⟨o', hend, -, hpix⟩ := perform_showString beyond o hfuel (x := 0) (y := 36) (by decide) pageText_label .f6x8
    exact ⟨o', hend, hpix.trans (by rw [ho]; rfl)⟩
  intro _ s₃ hs₃
  refine Prog.Safe.bind (safe_oled .update (K := Shown) (by nofun) ?_ hs₃) ?_
  · intro o (ho : o.buf.pixels = staticPicture)
    obtain ⟨o', hend, hbuf, hram⟩ := perform_update fuel beyond o
    refine ⟨o', hend, ?_, hram.trans hbuf.symm⟩
    intro p _ _
    rw [hbuf, ho]
  intro _ s₄ hs₄
  refine Prog.Safe.act (stable_on Shown m) (fun _ => stable_on Shown m) hs₄ ?_
  intro t _ ht
  exact ⟨(), _, rfl, nofun, ht⟩

/-- The value of the latest lap, after the count was read. -/
theorem safe_drawMainLap (hfuel : 256 ≤ fuel) {m : Reads} (hs : On (LapDrawn m.total none) m s) :
    (Code.when (0 < m.cnt) drawMainLap).Safe (uiParties fuel beyond)
      (fun _ t => LapDrawn t.reads.total t.reads.last t.oled) s := by
  unfold Code.when
  split
  · rename_i hcnt
    refine Prog.Safe.bind (safe_call .getLatestLapMs hs) ?_
    intro last s₁ hs₁
    refine Prog.Safe.weaken (safe_oled (.showString 30 36 (formatTimeMs last 24) .f6x8) (K := LapDrawn m.total (some last))
      (by nofun) ?_ hs₁) ?_
    · intro o ho
      exact ho.showLap beyond hfuel last
    · rintro _ t ⟨ht, hm⟩
      have hlast : t.reads.last = some last := by
        rw [hm]
        exact if_pos hcnt
      rw [hlast, hm]
      exact ht
  · rename_i hcnt
    refine Prog.Safe.pure (stable_on _ _) hs ?_
    rintro t ⟨ht, hm⟩
    have hlast : t.reads.last = none := by
      rw [hm]
      exact if_neg hcnt
    rw [hlast, hm]
    exact ht

/-- With the flag cleared the static part is drawn, and with the flag set it is there. -/
theorem safe_whenStatic (hfuel : 256 ≤ fuel) {m : Reads} {drawn : UInt8} (hs : On (fun o => drawn ≠ 0 → Shown o) m s) :
    (Code.when (drawn = 0) drawMainStatic).Safe (uiParties fuel beyond) (fun _ => On Shown m) s := by
  unfold Code.when
  split
  · exact safe_drawMainStatic hfuel ⟨trivial, hs.2⟩
  · rename_i hdrawn
    exact Prog.Safe.pure (stable_on _ _) hs fun t ht => ⟨ht.1 hdrawn, ht.2⟩

/-- `draw_main_page` guarantees the whole page, and leaves what the next frame relies on. -/
theorem safe_drawMainPage (hfuel : 256 ≤ fuel) {m : Reads} (hs : Entered m s) :
    drawMainPage.Safe (uiParties fuel beyond) (fun _ t => Shown t.oled) s := by
  have htotal : (Code.call .getTotalMs).Safe (uiParties fuel beyond) (fun total => Entered (m.note .getTotalMs total)) s := by
    refine Prog.Safe.act (stable_entered m) (fun _ => stable_entered _) hs ?_
    rintro t answer ⟨ht, hm⟩
    refine ⟨answer (.call .getTotalMs), _, rfl, nofun, ht, ?_⟩
    rw [hm]
  refine Prog.Safe.bind htotal ?_
  intro total s₁ hs₁
  have hflag : (Code.load .sPageDrawn).Safe (uiParties fuel beyond)
      (fun drawn => On (fun o => drawn ≠ (0 : UInt8) → Shown o) (m.note .getTotalMs total)) s₁ := by
    refine Prog.Safe.act (stable_entered _) (fun _ => stable_on _ _) hs₁ ?_
    rintro t - ⟨ht, hm⟩
    exact ⟨t.vars.sPageDrawn, t, rfl, nofun, ht, hm⟩
  refine Prog.Safe.bind hflag ?_
  intro drawn s₂ hs₂
  refine Prog.Safe.bind (safe_whenStatic hfuel hs₂) ?_
  -- the time: blank, drawn, sent
  intro _ s₃ hs₃
  refine Prog.Safe.bind (safe_oled (.clearArea 0 16 128 16) (by nofun) (fun o ho => ho.clearTime beyond hfuel) hs₃) ?_
  intro _ s₄ hs₄
  refine Prog.Safe.bind (safe_oled (.showString 0 16 (formatTimeMs total 24) .f8x16) (by nofun)
    (fun o ho => ho.showTime beyond hfuel total) hs₄) ?_
  intro _ s₅ hs₅
  refine Prog.Safe.bind (safe_oled (.updateArea 0 16 128 16) (by nofun) (fun o ho => ho.send fuel beyond) hs₅) ?_
  -- the latest lap: blank, drawn if there are laps, sent
  intro _ s₆ hs₆
  refine Prog.Safe.bind (safe_call .getLapCount hs₆) ?_
  intro cnt s₇ hs₇
  refine Prog.Safe.bind (safe_oled (.clearArea 30 36 98 8) (by nofun) (fun o ho => ho.clearLap beyond hfuel) hs₇) ?_
  intro _ s₈ hs₈
  refine Prog.Safe.bind (safe_drawMainLap (m := (m.note .getTotalMs total).note .getLapCount cnt) hfuel hs₈) ?_
  intro _ s₉ hs₉
  refine Prog.Safe.act (stable_screen fun o m => LapDrawn m.total m.last o) (fun _ => stable_screen fun o _ => Shown o) hs₉ ?_
  intro t answer ht
  obtain ⟨o', hend, ho'⟩ := ht.send fuel beyond
  exact ⟨(), _, performOn_oled hend answer, fun _ => ho', ho'.shown⟩

/-! ## The laps page and the loop -/

/-- The actions of the laps page: they draw texts that fit anywhere, and leave the page and the flag alone. -/
def Act.DrawsAside : Act → Prop
  | .call _ | .load _ | .store .sLapsOffset _ | .oled .clear | .oled .update => True
  | .oled (.showString x y text _) => Placed x y ∧ PageText text
  | _ => False

theorem drawsAside_row (i idx : UInt16) (ms : UInt32) (hi : i.toNat < 6) :
    (Act.oled (.showString 0 (Int16.ofNat (8 * (i.toNat + 1))) (lapLine idx ms) .f6x8)).DrawsAside := by
  have hrows : ∀ n < 6, Placed 0 (Int16.ofNat (8 * (n + 1))) := by decide
  exact ⟨hrows i.toNat hi, pageText_lapLine idx ms⟩

theorem uses_drawLapsPage : drawLapsPage.Uses Act.DrawsAside := by
  have hbody (cnt : UInt16) : (drawLapsBody cnt).Uses Act.DrawsAside :=
    uses_drawLapsBody trivial trivial (fun _ _ => trivial) drawsAside_row
      (fun st => ⟨by decide, pageText_statLine st cnt⟩) trivial
  have htitle : PageText "Laps".toList := pageText_of_all (by decide)
  exact ⟨trivial, fun _ => ⟨⟨by decide, htitle⟩, fun _ => ⟨trivial, hbody⟩⟩⟩

/-- Such an action cannot fail. -/
theorem performOn_drawsAside (hfuel : 256 ≤ fuel) (beyond : ℕ → UInt8) {a : Act} (ha : a.DrawsAside)
    (answer : (a : Act) → a.Result) (hs : Away s) :
    ∃ r t, Act.performOn fuel beyond answer a s = some (r, t) ∧ Away t := by
  cases a with
  | call op => exact ⟨_, _, rfl, hs⟩
  | load v => exact ⟨_, _, rfl, hs⟩
  | store v x =>
    cases v with
    | sLapsOffset => exact ⟨_, _, rfl, hs⟩
    | _ => exact ha.elim
  | oled call =>
    cases call with
    | clear => exact ⟨_, _, rfl, hs⟩
    | update =>
      obtain ⟨o', hend, -⟩ := perform_update fuel beyond s.oled
      exact ⟨(), _, performOn_oled hend answer, hs⟩
    | showString x y text font =>
      obtain ⟨hxy, ht⟩ := ha
      obtain ⟨o', hend, -⟩ := perform_showString beyond s.oled hfuel hxy ht font
      exact ⟨(), _, performOn_oled hend answer, hs⟩
    | _ => exact ha.elim
  | _ => exact ha.elim

theorem safe_drawLapsPage (hfuel : 256 ≤ fuel) (hs : Away s) :
    drawLapsPage.Safe (uiParties fuel beyond) (fun _ => Away) s := by
  refine Prog.Safe.of_uses stable_away uses_drawLapsPage hs ?_
  intro a t answer ha ht
  obtain ⟨r, u, hend, hu⟩ := performOn_drawsAside hfuel beyond ha answer ht
  refine ⟨r, u, hend, ?_, hu⟩
  rintro rfl
  exact ha.elim

/-- The page that is shown keeps the invariant: which one it is, is decided by one read. -/
theorem safe_drawPage (hfuel : 256 ≤ fuel) (hs : Ready s) : drawPage.Safe (uiParties fuel beyond) (fun _ => Ready) s := by
  have hpage : (Code.load .sPage).Safe (uiParties fuel beyond)
      (fun (page : UInt8) t => (page = 0 → Entered t.reads t) ∧ (page ≠ 0 → Away t)) s := by
    refine Prog.Safe.act stable_ready ?_ hs ?_
    · rintro page t u ⟨hmain, haway⟩ hr
      refine ⟨?_, fun h => stable_away t u (haway h) hr⟩
      intro h
      rw [hr.reads]
      exact stable_entered t.reads t u (hmain h) hr
    · rintro t - ht
      exact ⟨t.vars.sPage, t, rfl, nofun, fun h => ⟨ht h, rfl⟩, fun h h0 => absurd h0 h⟩
  refine Prog.Safe.bind hpage ?_
  rintro page t ⟨hmain, haway⟩
  show Prog.Safe _ _ (if page = (0 : UInt8) then drawMainPage else drawLapsPage) t
  split
  · rename_i h
    exact (safe_drawMainPage hfuel (hmain h)).weaken fun _ _ hu _ _ => hu
  · rename_i h
    exact (safe_drawLapsPage hfuel (haway h)).weaken fun _ _ hu h0 hdrawn => absurd (hu h0) hdrawn

/-- A round of the loop keeps the invariant. -/
theorem safe_uiEntry (hfuel : 256 ≤ fuel) (hs : Ready s) : uiEntry.Safe (uiParties fuel beyond) (fun _ => Ready) s := by
  refine Prog.Safe.bind (Prog.Safe.act stable_ready (fun _ => stable_ready) hs ?_) ?_
  · rintro t - ht
    exact ⟨_, t, rfl, nofun, ht⟩
  intro (enabled : Bool) s₁ hs₁
  have hdraw : (Code.when (enabled = true) drawPage).Safe (uiParties fuel beyond) (fun _ => Ready) s₁ := by
    unfold Code.when
    split
    · exact safe_drawPage hfuel hs₁
    · exact Prog.Safe.pure stable_ready hs₁ fun t ht => ht
  refine Prog.Safe.bind hdraw ?_
  intro _ s₂ hs₂
  refine Prog.Safe.bind (Prog.Safe.act stable_ready (fun _ => stable_ready) hs₂ ?_) ?_
  · rintro t - ht
    exact ⟨_, t, rfl, nofun, ht⟩
  intro ms s₃ hs₃
  refine Prog.Safe.act stable_ready (fun _ => stable_ready) hs₃ ?_
  rintro t - ht
  exact ⟨(), t, rfl, nofun, ht⟩

end RtStopwatch
