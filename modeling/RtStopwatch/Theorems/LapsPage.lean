import Mathlib.Data.List.Infix
import RtStopwatch.Lemmas.LapsPage

/-!
# One page, one stopwatch

Whether the laps page shows one state of the stopwatch, over every interleaving of a draw with calls of the shell. It does as long as
no call takes laps away between the reads (`laps_page_of_one_state`); a reset between two of them leaves a page that no stopwatch
ever had (`laps_page_torn`).
-/

namespace RtStopwatch

open Lib

variable {c : Config}

/-- The world after any calls, with the statics and the light as they may be. -/
def World.after (c : Config) (hz : UInt32) (hasDwt : Bool) (ops : List (Op × Instant)) (vars : Statics) (doPin : Bool) :
    World c :=
  let w := (boardPlatform.machine c).run (initialised c hz hasDwt) ops
  { sw := w.1, board := w.2, vars := vars, doPin := doPin }

/-- A draw keeps the stopwatch initialised. -/
theorem draw_gInited {w₀ : World c} (hs : w₀.sw.gInited = true) (es : List DrawEvent) :
    ((drawMachine c).run (Draw.start w₀) es).world.sw.gInited = true := by
  refine (drawMachine c).run_invariant (I := fun d => d.world.sw.gInited = true) (fun d e h => ?_)
    (s := Draw.start w₀) hs es
  cases e with
  | ui =>
    show d.advance.world.sw.gInited = true
    unfold Draw.advance
    split
    · exact h
    · exact perform_gInited h _
  | shell op t => exact perform_gInited (w := d.world.moveTo t) h _

/-- The stopwatch existed during the draw: it was the one after some part of it. -/
def Existed (w₀ : World c) (es : List DrawEvent) (s : Stopwatch c) : Prop :=
  ∃ pre, pre <+: es ∧ ((drawMachine c).run (Draw.start w₀) pre).world.sw = s

theorem Stage.mono {w₀ : World c} {seen seen' : Stopwatch c → Prop} (hle : ∀ s, seen s → seen' s) {d : Draw c}
    (h : Stage w₀ seen d) : Stage w₀ seen' d := by
  cases h with
  | start code counted unread page => exact .start code counted unread page
  | counted s₀ counted unread was inited code page => exact .counted s₀ counted unread (hle _ was) inited code page
  | reading cnt s read was code laps page => exact .reading cnt s read (hle _ was) code laps page

/-- The run lemma: a draw of calm steps is in one of its stages. -/
theorem stage_after {w₀ : World c} (hs : w₀.sw.gInited = true) {es : List DrawEvent}
    (hcalm : (drawMachine c).Meets Draw.Calm (Draw.start w₀) es) :
    Stage w₀ (Existed w₀ es) ((drawMachine c).run (Draw.start w₀) es) := by
  induction es using List.reverseRecOn with
  | nil => exact .start countsFirst_drawLapsPage rfl rfl fun s _ => rfl
  | append_singleton es e ih =>
    obtain ⟨hpre, he⟩ := hcalm.at_step
    have hd : Existed w₀ es ((drawMachine c).run (Draw.start w₀) es).world.sw := ⟨es, List.prefix_refl es, rfl⟩
    have h := (ih hpre).step (draw_gInited hs es) hd he
    rw [Machine.run_append]
    refine h.mono fun s => ?_
    rintro ⟨pre, hp, rfl⟩
    exact ⟨pre, hp.trans (List.prefix_append es [e]), rfl⟩

/-- What a finished draw shows is what it has shown. -/
theorem OnPage.done {w₀ : World c} {d : Draw c} {s : Stopwatch c} (h : OnPage w₀ d s) (hdone : d.code = .pure ()) :
    d.shown = lapsPage { w₀ with sw := s } := by
  rw [OnPage, hdone] at h
  exact (List.append_nil _).symm.trans h

/-- The laps page is that of one stopwatch. For every stopwatch a run of calls leads to, every offset, and every interleaving of a
draw of the laps page with calls of the shell that runs the draw to its end: when its steps are calm, the page is the one that
`draw_laps_page` draws of one stopwatch that existed during the draw. -/
theorem laps_page_of_one_state (c : Config) (hz : UInt32) (hasDwt : Bool) (ops : List (Op × Instant)) (vars : Statics)
    (doPin : Bool) (es : List DrawEvent)
    (hdone : ((drawMachine c).run (Draw.start (World.after c hz hasDwt ops vars doPin)) es).code = .pure ())
    (hcalm : (drawMachine c).Meets Draw.Calm (Draw.start (World.after c hz hasDwt ops vars doPin)) es) :
    ∃ pre, pre <+: es ∧
      ((drawMachine c).run (Draw.start (World.after c hz hasDwt ops vars doPin)) es).shown =
        lapsPage { World.after c hz hasDwt ops vars doPin with
          sw := ((drawMachine c).run (Draw.start (World.after c hz hasDwt ops vars doPin)) pre).world.sw } := by
  have hs : (World.after c hz hasDwt ops vars doPin).sw.gInited = true := machine_run_gInited boardPlatform rfl ops
  generalize World.after c hz hasDwt ops vars doPin = w₀ at hs hdone hcalm ⊢
  have hpage : ∃ s, Existed w₀ es s ∧ OnPage w₀ ((drawMachine c).run (Draw.start w₀) es) s := by
    cases stage_after hs hcalm with
    | start code =>
      rw [hdone] at code
      exact code.elim
    | counted s₀ _ _ was inited _ page => exact ⟨s₀, was, page s₀ inited rfl⟩
    | reading _ s _ was _ _ page => exact ⟨s, was, page⟩
  obtain ⟨s, ⟨pre, hp, rfl⟩, hs'⟩ := hpage
  exact ⟨pre, hp, hs'.done hdone⟩

/-- A lap of a second, taken a second after the start. -/
def oneLap : List (Op × Instant) := [(.start, ⟨72000000, 1000⟩), (.lap, ⟨144000000, 2000⟩)]

/-- A draw of its page, with another lap taken after the first lap is read. -/
def drawAndLap : List DrawEvent := List.replicate 6 .ui ++ .shell .lap ⟨150000000, 2083⟩ :: List.replicate 5 .ui

/-- A lap taken during the draw, with the array not full, satisfies the hypotheses. -/
theorem laps_page_of_one_state_lap_taken :
    ∃ pre, pre <+: drawAndLap ∧
      ((drawMachine Config.standard).run
        (Draw.start (World.after Config.standard 72000000 true oneLap Statics.boot true)) drawAndLap).shown =
      lapsPage { World.after Config.standard 72000000 true oneLap Statics.boot true with
        sw := ((drawMachine Config.standard).run
          (Draw.start (World.after Config.standard 72000000 true oneLap Statics.boot true)) pre).world.sw } :=
  laps_page_of_one_state Config.standard 72000000 true oneLap Statics.boot true drawAndLap rfl
    ⟨nofun, nofun, nofun, nofun, nofun, fun _ _ s₀ hs => Option.some.inj hs ▸ Or.inl rfl, fun _ _ => by decide,
      nofun, nofun, nofun, nofun, nofun, trivial⟩

/-- Three laps of a second each. -/
def threeLaps : List (Op × Instant) :=
  [(.start, ⟨72000000, 1000⟩), (.lap, ⟨144000000, 2000⟩), (.lap, ⟨216000000, 3000⟩), (.lap, ⟨288000000, 4000⟩)]

/-- A draw of their page, with a reset after the first lap is read. -/
def drawAndReset : List DrawEvent := List.replicate 6 .ui ++ .shell .reset ⟨300000000, 4166⟩ :: List.replicate 13 .ui

/-- The draw ends with a first row of one second, two rows of zero and statistics of zero: a page that is not the one of any
stopwatch that existed during the draw. -/
theorem laps_page_torn :
    ((drawMachine Config.standard).run
      (Draw.start (World.after Config.standard 72000000 true threeLaps Statics.boot true)) drawAndReset).code = .pure () ∧
    ¬∃ pre, pre <+: drawAndReset ∧
      ((drawMachine Config.standard).run
        (Draw.start (World.after Config.standard 72000000 true threeLaps Statics.boot true)) drawAndReset).shown =
      lapsPage { World.after Config.standard 72000000 true threeLaps Statics.boot true with
        sw := ((drawMachine Config.standard).run
          (Draw.start (World.after Config.standard 72000000 true threeLaps Statics.boot true)) pre).world.sw } := by
  -- only the prefixes of one fixed list are to be looked at
  have hne : ∀ pre ∈ drawAndReset.inits,
      ((drawMachine Config.standard).run
        (Draw.start (World.after Config.standard 72000000 true threeLaps Statics.boot true)) drawAndReset).shown ≠
      lapsPage { World.after Config.standard 72000000 true threeLaps Statics.boot true with
        sw := ((drawMachine Config.standard).run
          (Draw.start (World.after Config.standard 72000000 true threeLaps Statics.boot true)) pre).world.sw } := by
    decide +kernel
  refine ⟨rfl, ?_⟩
  rintro ⟨pre, hpre, h⟩
  exact hne pre ((List.mem_inits _ _).mpr hpre) h

end RtStopwatch
