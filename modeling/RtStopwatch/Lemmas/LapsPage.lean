import RtStopwatch.Ui
import RtStopwatch.Lemmas.Board
import RtStopwatch.Lemmas.Laps

/-!
# A draw of the laps page among other calls

`draw_laps_page` reads the count once and then each lap by a call of its own, and between any two of its steps the shell may call the
stopwatch. `drawMachine` is every such interleaving. The draw goes through three stages (`Stage`): before the count is read,
between that and the first lap, and reading laps; in the last it draws the page of one stopwatch it has seen, as long as the laps it
has still to read are that stopwatch's.
-/

namespace RtStopwatch

open Lib

variable {c : Config}

/-- What an action puts on the OLED. -/
def Act.shows : Act → List OledCall
  | .oled x => [x]
  | _ => []

/-- The action reads a lap. -/
def Act.readsLap : Act → Bool
  | .call (.getLapMs _) => true
  | _ => false

/-- The action reads the count of the laps. -/
def Act.readsCount : Act → Bool
  | .call .getLapCount => true
  | _ => false

/-- A draw under way: the code still to run, the world, what was shown so far, the stopwatch the count was read in, and whether a
lap was read. The last two are only there to be spoken of. -/
structure Draw (c : Config) where
  code : Code Unit
  world : World c
  shown : List OledCall
  countedIn : Option (Stopwatch c)
  lapRead : Bool

/-- A draw of the laps page, about to begin. -/
def Draw.start (w : World c) : Draw c :=
  { code := drawLapsPage, world := w, shown := [], countedIn := none, lapRead := false }

/-- A step of the UI thread, or a stopwatch call of the shell. -/
inductive DrawEvent where
  | ui
  | shell (op : Op) (t : Instant)
  deriving DecidableEq, Repr

/-- The next action of the UI thread. -/
def Draw.advance (d : Draw c) : Draw c :=
  match d.code with
  | .pure _ => d
  | .act a k =>
    { code := k (a.perform d.world).1
      world := (a.perform d.world).2
      shown := d.shown ++ a.shows
      countedIn := if a.readsCount then some d.world.sw else d.countedIn
      lapRead := d.lapRead || a.readsLap }

/-- A call of the shell between two actions of the UI thread. -/
def Draw.interrupt (d : Draw c) (op : Op) (t : Instant) : Draw c :=
  { d with world := ((Act.call op).perform (d.world.moveTo t)).2 }

/-- Every interleaving of a draw with calls of the shell. -/
def drawMachine (c : Config) : Machine (Draw c) DrawEvent Unit where
  step d e :=
    match e with
    | .ui => ((), d.advance)
    | .shell op t => ((), d.interrupt op t)

/-- What a piece of code shows when nothing interrupts it. -/
def showsQuietly (p : Code Unit) (w : World c) : List OledCall := (p.acts Act.perform w).flatMap Act.shows

/-- The laps page of a world: what `draw_laps_page` shows when nothing interrupts it. -/
def lapsPage (w : World c) : List OledCall := showsQuietly drawLapsPage w

theorem showsQuietly_act (a : Act) (k : a.Result → Code Unit) (w : World c) :
    showsQuietly (.act a k) w = a.shows ++ showsQuietly (k (a.perform w).1) (a.perform w).2 := rfl

/-! ## What the draw may do -/

/-- The actions of `draw_laps_page` once it has read a count of `cnt`: the offset, the OLED, and laps below the count. -/
def Act.DrawsLaps (cnt : UInt16) : Act → Prop
  | .load _ | .store _ _ | .oled _ => True
  | .call (.getLapMs i) => i < cnt
  | _ => False

theorem readsCount_of_drawsLaps {cnt : UInt16} {a : Act} (ha : a.DrawsLaps cnt) : a.readsCount = false := by
  cases a with
  | call op =>
    cases op with
    | getLapMs i => rfl
    | _ => exact ha.elim
  | _ => rfl

theorem uses_when {U : Act → Prop} (p : Prop) [Decidable p] {body : Code Unit} (h : body.Uses U) : (Code.when p body).Uses U := by
  unfold Code.when
  split
  · exact h
  · trivial

section Uses

variable {U : Act → Prop} {cnt : UInt16} (hload : U (.load .sLapsOffset)) (hstore : U (.store .sLapsOffset (0 : UInt16)))
  (hlap : ∀ i < cnt, U (.call (.getLapMs i)))
  (hrow : ∀ (i idx : UInt16) ms, i.toNat < 6 → U (.oled (.showString 0 (Int16.ofNat (8 * (i.toNat + 1))) (lapLine idx ms) .f6x8)))
  (hstats : ∀ st, U (.oled (.showString 0 56 (statLine st cnt) .f6x8))) (hupdate : U (.oled .update))

theorem toNat_add_one {i : UInt16} {n m : ℕ} (h : i.toNat + (n + 1) ≤ m) (hm : m < 65536) : (i + 1).toNat = i.toNat + 1 := by
  rw [UInt16.toNat_add]
  show (i.toNat + 1) % 2 ^ 16 = _
  omega

include hload hlap hrow in
theorem uses_drawLapRows (n : ℕ) (i : UInt16) (h : i.toNat + n ≤ 6) : (drawLapRows cnt n i).Uses U := by
  induction n generalizing i with
  | zero => trivial
  | succ n ih =>
    refine ⟨hload, ?_⟩
    intro (off : UInt16)
    show Prog.Uses _ (if off + i ≥ cnt then _ else _)
    split
    · trivial
    · rename_i hlt
      have hi := toNat_add_one h (by omega)
      exact ⟨hlap _ (UInt16.not_le.mp hlt), fun ms => ⟨hrow i _ ms (by omega), fun _ => ih _ (by omega)⟩⟩

include hlap in
theorem uses_readLapStats (n : ℕ) {i : UInt16} (h : i.toNat + n ≤ cnt.toNat) (st : LapStats) : (readLapStats n i st).Uses U := by
  induction n generalizing i st with
  | zero => trivial
  | succ n ih =>
    have hi := toNat_add_one h cnt.toNat_lt
    refine ⟨hlap i (UInt16.lt_iff_toNat_lt.mpr (by omega)), ?_⟩
    intro v
    exact ih (by omega) _

include hload hstore hlap hrow hstats hupdate in
/-- What `draw_laps_page` does once it has read the count. -/
theorem uses_drawLapsBody : (drawLapsBody cnt).Uses U := by
  have hclamp : (clampLapsOffset cnt).Uses U := ⟨hload, fun (off : UInt16) => uses_when (off ≥ cnt) ⟨hstore, fun _ => trivial⟩⟩
  have hbottom : (drawLapStats cnt).Uses U :=
    (uses_readLapStats hlap _ (by simp) _).bind fun st => ⟨hstats st, fun _ => trivial⟩
  exact hclamp.bind fun _ => (uses_drawLapRows hload hlap hrow 6 0 (by decide)).bind fun _ => (uses_when _ hbottom).bind fun _ =>
    ⟨hupdate, fun _ => trivial⟩

end Uses

/-- Code that only shows things until it reads the count, and then draws laps below it. -/
def CountsFirst : Code Unit → Prop
  | .act (.oled _) k => CountsFirst (k ())
  | .act (.call .getLapCount) k => ∀ cnt : UInt16, (k cnt).Uses (Act.DrawsLaps cnt)
  | _ => False

theorem countsFirst_drawLapsPage : CountsFirst drawLapsPage :=
  fun _ => uses_drawLapsBody trivial trivial (fun _ hi => hi) (fun _ _ _ _ => trivial) (fun _ => trivial) trivial

/-- Such an action gives the same in any world with the same statics and, where it reads a lap, the same laps; it leaves the
stopwatch alone. -/
theorem perform_drawsLaps {cnt : UInt16} {a : Act} (ha : a.DrawsLaps cnt) {w q : World c} (hv : q.vars = w.vars)
    (hl : a.readsLap = true → ∀ i < cnt, stopwatchGetLapMs q.sw i = stopwatchGetLapMs w.sw i) :
    (a.perform q).1 = (a.perform w).1 ∧ (a.perform q).2 = { q with vars := (a.perform w).2.vars } ∧
      (a.perform w).2.sw = w.sw := by
  cases a with
  | load v =>
    refine ⟨?_, ?_, rfl⟩
    · show q.vars.load v = w.vars.load v
      rw [hv]
    · show q = { q with vars := w.vars }
      rw [← hv]
  | store v x =>
    refine ⟨rfl, ?_, rfl⟩
    show { q with vars := q.vars.store v x } = { q with vars := w.vars.store v x }
    rw [hv]
  | oled x =>
    refine ⟨rfl, ?_, rfl⟩
    show q = { q with vars := w.vars }
    rw [← hv]
  | call op =>
    cases op with
    | getLapMs i =>
      refine ⟨hl rfl i ha, ?_, rfl⟩
      show q = { q with vars := w.vars }
      rw [← hv]
    | _ => exact ha.elim
  | _ => exact ha.elim

/-! ## The laps the draw relies on -/

/-- Two stopwatches have the same first `cnt` laps. -/
structure SameLaps (cnt : UInt16) (s s' : Stopwatch c) : Prop where
  gInited : s.gInited = true
  gInited' : s'.gInited = true
  le : cnt ≤ s.lapCount
  le' : cnt ≤ s'.lapCount
  slot : ∀ i < cnt.toNat, s'.slot i = s.slot i

theorem SameLaps.getLapMs {cnt : UInt16} {s s' : Stopwatch c} (h : SameLaps cnt s s') {i : UInt16} (hi : i < cnt) :
    stopwatchGetLapMs s i = stopwatchGetLapMs s' i := by
  rw [stopwatchGetLapMs, stopwatchGetLapMs, h.gInited, h.gInited', if_pos rfl, if_pos rfl,
    if_pos (UInt16.lt_of_lt_of_le hi h.le), if_pos (UInt16.lt_of_lt_of_le hi h.le'), h.slot _ (UInt16.lt_iff_toNat_lt.mp hi)]

theorem SameLaps.refl {s : Stopwatch c} (hs : s.gInited = true) : SameLaps s.lapCount s s :=
  ⟨hs, hs, UInt16.le_refl _, UInt16.le_refl _, fun _ _ => rfl⟩

theorem SameLaps.trans {cnt : UInt16} {s s' s'' : Stopwatch c} (h : SameLaps cnt s s') (h' : SameLaps s'.lapCount s' s'') :
    SameLaps cnt s s'' where
  gInited := h.gInited
  gInited' := h'.gInited'
  le := h.le
  le' := UInt16.le_trans h.le' h'.le'
  slot i hi := by
    rw [h'.slot i (lt_of_lt_of_le hi (UInt16.le_iff_toNat_le.mp h.le')), h.slot i hi]

/-- The call takes laps away from under a draw: a reset, a clear, or a lap that evicts the oldest one. -/
def Op.Disturbs (s : Stopwatch c) : Op → Prop
  | .reset | .clearLaps => True
  | .lap => ¬s.lapCount.toNat < c.maxLaps
  | .start | .stop | .getState | .getTotalMs | .getLapCount | .getLapMs _ | .getLatestLapMs => False

instance (s : Stopwatch c) (op : Op) : Decidable (op.Disturbs s) :=
  match op with
  | .reset | .clearLaps => inferInstanceAs (Decidable True)
  | .lap => inferInstanceAs (Decidable ¬s.lapCount.toNat < c.maxLaps)
  | .start | .stop | .getState | .getTotalMs | .getLapCount | .getLapMs _ | .getLatestLapMs =>
    inferInstanceAs (Decidable False)

/-- The other calls leave every lap where it is. -/
theorem step_sameLaps {s : Stopwatch c} (hs : s.gInited = true) {op : Op} (h : ¬op.Disturbs s) (r : Reading) :
    SameLaps s.lapCount s (s.step op r).2 := by
  have hs' := step_gInited hs op r
  rcases step_table_cases hs op r with ⟨-, -, -, he⟩ | ⟨rfl, he⟩ | ⟨rfl | rfl, -⟩
  · exact ⟨hs, hs', UInt16.le_refl _, he.lapCount ▸ UInt16.le_refl _, fun i _ => he.slot i⟩
  · have hlt : s.lapCount.toNat < c.maxLaps := by
      by_contra hn
      exact h hn
    have hc := lapCount_storeLap_of_lt hlt (s.totalAt r.us - s.lastLapTotalMs)
    rw [he] at hs' ⊢
    refine ⟨hs, hs', UInt16.le_refl _, ?_, ?_⟩
    · rw [UInt16.le_iff_toNat_le]
      exact hc.ge.trans' (Nat.le_succ _)
    · intro i hi
      exact (slot_storeLap_of_lt hlt _ i).trans (if_neg (by omega))
  · exact absurd trivial h
  · exact absurd trivial h

/-- A stopwatch call, performed in a world. -/
theorem perform_call_sw {w : World c} (hs : w.sw.gInited = true) (op : Op) :
    ((Act.call op).perform w).2.sw = (w.sw.step op w.board.reading).2 :=
  congrArg (fun x => x.2.1) (Op.run_eq boardPlatform op w.sw w.board hs)

/-! ## The stages of a draw -/

/-- A lap is still to be read. -/
def Draw.LapsLeft (d : Draw c) : Prop := ¬d.code.Uses fun a => a.readsLap = false

/-- What was shown, and what would be shown from here on if the stopwatch were `s`, is the laps page of `s`. -/
def OnPage (w₀ : World c) (d : Draw c) (s : Stopwatch c) : Prop :=
  d.shown ++ showsQuietly d.code { w₀ with vars := d.world.vars, sw := s } = lapsPage { w₀ with sw := s }

/-- Where a draw that began in `w₀` stands. `seen` holds of the stopwatches that existed during the draw. -/
inductive Stage (w₀ : World c) (seen : Stopwatch c → Prop) (d : Draw c) : Prop where
  | start (code : CountsFirst d.code) (counted : d.countedIn = none) (unread : d.lapRead = false)
      (page : ∀ s : Stopwatch c, s.gInited = true → OnPage w₀ d s)
  | counted (s₀ : Stopwatch c) (counted : d.countedIn = some s₀) (unread : d.lapRead = false) (was : seen s₀)
      (inited : s₀.gInited = true) (code : d.code.Uses (Act.DrawsLaps s₀.lapCount))
      (page : ∀ s : Stopwatch c, s.gInited = true → s.lapCount = s₀.lapCount → OnPage w₀ d s)
  | reading (cnt : UInt16) (s : Stopwatch c) (read : d.lapRead = true) (was : seen s)
      (code : d.code.Uses (Act.DrawsLaps cnt)) (laps : d.LapsLeft → SameLaps cnt s d.world.sw) (page : OnPage w₀ d s)

/-- The next step of the UI thread reads a lap. -/
def Draw.ReadsLapNext (d : Draw c) : Prop :=
  match d.code with
  | .pure _ => False
  | .act a _ => a.readsLap = true

/-- The steps that keep a draw on the page of one stopwatch. When the first lap is read, the laps counted are still there, or there
are as many as were counted; and from then on, as long as a lap is still to be read, no call takes laps away. -/
def Draw.Calm (d : Draw c) : DrawEvent → Prop
  | .ui => d.lapRead = false → d.ReadsLapNext → ∀ s₀, d.countedIn = some s₀ →
      d.world.sw.lapCount = s₀.lapCount ∨ SameLaps s₀.lapCount s₀ d.world.sw
  | .shell op _ => d.lapRead = true → d.LapsLeft → ¬op.Disturbs d.world.sw

theorem advance_of_pure {d : Draw c} {x : Unit} (h : d.code = .pure x) : d.advance = d := by
  rw [Draw.advance, h]

theorem advance_of_act {d : Draw c} {a : Act} {k : a.Result → Code Unit} (h : d.code = .act a k) :
    d.advance =
      { code := k (a.perform d.world).1
        world := (a.perform d.world).2
        shown := d.shown ++ a.shows
        countedIn := if a.readsCount then some d.world.sw else d.countedIn
        lapRead := d.lapRead || a.readsLap } := by
  rw [Draw.advance, h]

theorem perform_gInited {w : World c} (hs : w.sw.gInited = true) (a : Act) : (a.perform w).2.sw.gInited = true := by
  cases a with
  | call op =>
    rw [perform_call_sw hs]
    exact step_gInited hs op _
  | _ => exact hs

/-- A step of the UI thread that goes the same way in the quiet world keeps the page. -/
theorem OnPage.advance {w₀ : World c} {d : Draw c} {s : Stopwatch c} (h : OnPage w₀ d s) {a : Act}
    {k : a.Result → Code Unit} (hcode : d.code = .act a k)
    (h1 : (a.perform { w₀ with vars := d.world.vars, sw := s }).1 = (a.perform d.world).1)
    (h2 : (a.perform { w₀ with vars := d.world.vars, sw := s }).2 =
      { w₀ with vars := (a.perform d.world).2.vars, sw := s }) : OnPage w₀ d.advance s := by
  unfold OnPage at h ⊢
  rw [hcode, showsQuietly_act, h1, h2, ← List.append_assoc] at h
  rw [advance_of_act hcode]
  exact h

/-- Before the count is read nothing depends on the stopwatch; when it is, the pages left are those with that count. -/
theorem Stage.advance_start {w₀ : World c} {seen : Stopwatch c → Prop} {d : Draw c} (hs : d.world.sw.gInited = true)
    (hseen : seen d.world.sw) (code : CountsFirst d.code) (counted : d.countedIn = none) (unread : d.lapRead = false)
    (page : ∀ s : Stopwatch c, s.gInited = true → OnPage w₀ d s) : Stage w₀ seen d.advance := by
  match hcode : d.code, code with
  | .act (.oled x) k, code =>
    refine .start ?_ ?_ ?_ fun s hg => (page s hg).advance hcode rfl rfl
    all_goals rw [advance_of_act hcode]
    · exact code
    · exact counted
    · simpa [Act.readsLap] using unread
  | .act (.call .getLapCount) k, code =>
    have hcount : ∀ s : Stopwatch c, s.gInited = true → stopwatchGetLapCount s = s.lapCount := fun s hg => by
      simp [stopwatchGetLapCount, hg]
    refine .counted d.world.sw ?_ ?_ hseen hs ?_ fun s hg he => (page s hg).advance hcode ?_ rfl
    · rw [advance_of_act hcode]
      rfl
    · rw [advance_of_act hcode]
      simpa [Act.readsLap] using unread
    · rw [advance_of_act hcode]
      have hr : ((Act.call .getLapCount).perform d.world).1 = d.world.sw.lapCount := hcount _ hs
      show (k ((Act.call .getLapCount).perform d.world).1).Uses _
      rw [hr]
      exact code _
    · exact (hcount s hg).trans (he.trans (hcount _ hs).symm)

/-- Between the count and the first lap only the offset and the OLED are used; the first lap read settles which page it is. -/
theorem Stage.advance_counted {w₀ : World c} {seen : Stopwatch c → Prop} {d : Draw c} (hs : d.world.sw.gInited = true)
    (hseen : seen d.world.sw) (hcalm : d.Calm .ui) {s₀ : Stopwatch c} (counted : d.countedIn = some s₀)
    (unread : d.lapRead = false) (was : seen s₀) (inited : s₀.gInited = true)
    (code : d.code.Uses (Act.DrawsLaps s₀.lapCount))
    (page : ∀ s : Stopwatch c, s.gInited = true → s.lapCount = s₀.lapCount → OnPage w₀ d s) :
    Stage w₀ seen d.advance := by
  match hcode : d.code with
  | .pure x =>
    rw [advance_of_pure hcode]
    exact .counted s₀ counted unread was inited code page
  | .act a k =>
    rw [hcode] at code
    obtain ⟨ha, hk⟩ := code
    cases hread : a.readsLap with
    | false =>
      have hp := fun s => perform_drawsLaps ha (w := d.world) (q := { w₀ with vars := d.world.vars, sw := s }) rfl
        (by simp [hread])
      refine .counted s₀ ?_ ?_ was inited ?_ fun s hg he => (page s hg he).advance hcode (hp s).1 (hp s).2.1
      all_goals rw [advance_of_act hcode]
      · simp [readsCount_of_drawsLaps ha, counted]
      · simp [unread, hread]
      · exact hk _
    | true =>
      have hnext : d.ReadsLapNext := by
        rw [Draw.ReadsLapNext, hcode]
        exact hread
      -- the stopwatch whose page it is: the present one, or the one the count was read in
      obtain ⟨s, hg, he, hsame, hwas⟩ : ∃ s : Stopwatch c, s.gInited = true ∧ s.lapCount = s₀.lapCount ∧
          SameLaps s₀.lapCount s d.world.sw ∧ seen s := by
        rcases hcalm unread hnext s₀ counted with he | hsame
        · exact ⟨d.world.sw, hs, he, he ▸ SameLaps.refl hs, hseen⟩
        · exact ⟨s₀, inited, rfl, hsame, was⟩
      have hp := perform_drawsLaps ha (w := d.world) (q := { w₀ with vars := d.world.vars, sw := s }) rfl
        (fun _ i hi => hsame.getLapMs hi)
      refine .reading s₀.lapCount s ?_ hwas ?_ ?_ ((page s hg he).advance hcode hp.1 hp.2.1)
      all_goals rw [advance_of_act hcode]
      · simp [hread]
      · exact hk _
      · intro _
        show SameLaps _ _ (a.perform d.world).2.sw
        rw [hp.2.2]
        exact hsame

/-- While laps are read, those still to come are the settled page's. -/
theorem Stage.advance_reading {w₀ : World c} {seen : Stopwatch c → Prop} {d : Draw c} {cnt : UInt16} {s : Stopwatch c}
    (read : d.lapRead = true) (was : seen s) (code : d.code.Uses (Act.DrawsLaps cnt))
    (laps : d.LapsLeft → SameLaps cnt s d.world.sw) (page : OnPage w₀ d s) : Stage w₀ seen d.advance := by
  match hcode : d.code with
  | .pure x =>
    rw [advance_of_pure hcode]
    exact .reading cnt s read was code laps page
  | .act a k =>
    rw [hcode] at code
    obtain ⟨ha, hk⟩ := code
    have hleft : a.readsLap = true → d.LapsLeft := by
      intro hread huses
      rw [hcode] at huses
      exact Bool.false_ne_true (huses.1.symm.trans hread)
    have hp := perform_drawsLaps ha (w := d.world) (q := { w₀ with vars := d.world.vars, sw := s }) rfl
      (fun hread i hi => (laps (hleft hread)).getLapMs hi)
    refine .reading cnt s ?_ was ?_ ?_ (page.advance hcode hp.1 hp.2.1)
    all_goals rw [advance_of_act hcode]
    · simp [read]
    · exact hk _
    · intro hl
      show SameLaps _ _ (a.perform d.world).2.sw
      rw [hp.2.2]
      refine laps fun huses => hl ?_
      rw [hcode] at huses
      exact huses.2 _

/-- The step lemma: a calm step leaves the draw in one of its stages. -/
theorem Stage.step {w₀ : World c} {seen : Stopwatch c → Prop} {d : Draw c} (h : Stage w₀ seen d)
    (hs : d.world.sw.gInited = true) (hseen : seen d.world.sw) {e : DrawEvent} (hcalm : d.Calm e) :
    Stage w₀ seen ((drawMachine c).step d e).2 := by
  cases e with
  | ui =>
    cases h with
    | start code counted unread page => exact Stage.advance_start hs hseen code counted unread page
    | counted s₀ counted unread was inited code page =>
      exact Stage.advance_counted hs hseen hcalm counted unread was inited code page
    | reading cnt s read was code laps page => exact Stage.advance_reading read was code laps page
  | shell op t =>
    cases h with
    | start code counted unread page => exact .start code counted unread page
    | counted s₀ counted unread was inited code page => exact .counted s₀ counted unread was inited code page
    | reading cnt s read was code laps page =>
      refine .reading cnt s read was code (fun hl => ?_) page
      have hsame := step_sameLaps hs (hcalm read hl) (d.world.board.readingAt t)
      have hsw : (d.interrupt op t).world.sw = (d.world.sw.step op (d.world.board.readingAt t)).2 :=
        perform_call_sw (w := d.world.moveTo t) hs op
      show SameLaps cnt s (d.interrupt op t).world.sw
      rw [hsw]
      exact (laps hl).trans hsame

end RtStopwatch
