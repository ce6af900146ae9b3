import Mathlib.Data.List.DropRight
import RtStopwatch.Light
import RtStopwatch.Lib.Machine

/-!
# The hysteresis of the light sensor

Over every sequence of sampling periods, with any pin levels and any settings in each: the light state changes in a period exactly
when the three latest samples say the opposite of it, and what the change sets stays as it is until the next one
(`light_hysteresis`). Of the two 8-bit counters only the one against the state matters, and that one never passes 3.
-/

namespace RtStopwatch

open Lib

variable {c : Config}

/-! ## The sampling periods -/

/-- A sampling period of the light thread: the static variables as the shell has left them before it, and the pin's level. -/
structure LightPeriod where
  vars : Statics
  pin : Bool
  deriving DecidableEq, Repr

/-- What the thread finds in the period. Nobody else writes `s_dark`. -/
def LightPeriod.enter (e : LightPeriod) (w : World c) : World c :=
  { w with vars := { e.vars with sDark := w.vars.sDark }, doPin := e.pin }

/-- Whether the period's sample says dark, after the polarity inversion. -/
def LightPeriod.sample (e : LightPeriod) : Bool := if e.vars.sInvert then e.pin else !e.pin

/-- The samples of the enabled periods, in order. -/
def samples (es : List LightPeriod) : List Bool := (es.filter (·.vars.sEnabled)).map LightPeriod.sample

/-- The light thread, period by period: its counters and the world. The output is what it did. -/
def lightMachine (c : Config) : Machine (LightCounts × World c) LightPeriod (List Act) where
  step w e := ((lightThreadEntry w.1).acts Act.perform (e.enter w.2), (lightThreadEntry w.1).exec Act.perform (e.enter w.2))

/-- The thread as `sensor_light_init` starts it. -/
def lightStart (w : World c) : LightCounts × World c :=
  ({ darkCnt := 0, lightCnt := 0 }, (sensorLightInit.exec Act.perform w).2)

/-- The write of `s_dark`, which only `apply_state` makes. -/
def Act.appliesState : Act → Bool
  | .store .sDark _ => true
  | _ => false

/-! ## One period -/

/-- What `apply_state` leaves. -/
def Statics.applied (m : Statics) (dark : Bool) : Statics :=
  { m with sDark := dark, sBeepEnabled := !dark, sRefreshMs := if dark then 300 else 10 }

theorem exec_applyState (dark : Bool) (w : World c) :
    (applyState dark).exec Act.perform w = ((), { w with vars := w.vars.applied dark }) := by
  cases dark with
  | true => rfl
  | false => rfl

/-- Whether the counters, after the period's sample, call for a change. -/
def LightCounts.against (n : LightCounts) (dark : Bool) : Bool := if dark then n.lightCnt ≥ 3 else n.darkCnt ≥ 3

theorem exec_lightSwitch (n : LightCounts) (w : World c) :
    (lightSwitch n).exec Act.perform w =
      ((), if n.against w.vars.sDark then { w with vars := w.vars.applied (!w.vars.sDark) } else w) := by
  show Prog.exec Act.perform (if (!w.vars.sDark && decide (n.darkCnt ≥ 3)) = true then applyState true else _) w = _
  rw [Prog.exec_ite, exec_applyState]
  show (if _ then _ else Prog.exec Act.perform
    (if (w.vars.sDark && decide (n.lightCnt ≥ 3)) = true then applyState false else pure ()) w) = _
  rw [Prog.exec_ite, exec_applyState]
  unfold LightCounts.against
  cases w.vars.sDark with
  | true =>
    simp
    split <;> rfl
  | false =>
    simp
    split <;> rfl

theorem acts_lightSwitch (n : LightCounts) (w : World c) :
    ((lightSwitch n).acts Act.perform w).any Act.appliesState = n.against w.vars.sDark := by
  have happly : ∀ dark, ((applyState dark).acts Act.perform w).any Act.appliesState = true := by
    intro dark
    cases dark with
    | true => rfl
    | false => rfl
  show List.any (Act.load .sDark :: Prog.acts Act.perform
    (if (!w.vars.sDark && decide (n.darkCnt ≥ 3)) = true then applyState true else _) w) _ = _
  rw [Prog.acts_ite]
  show List.any (Act.load .sDark :: if _ then _ else Act.load .sDark :: Prog.acts Act.perform
    (if (w.vars.sDark && decide (n.lightCnt ≥ 3)) = true then applyState false else pure ()) w) _ = _
  rw [Prog.acts_ite]
  unfold LightCounts.against
  cases w.vars.sDark with
  | true => by_cases h : n.lightCnt ≥ 3 <;> simp [h, happly, Act.appliesState]
  | false => by_cases h : n.darkCnt ≥ 3 <;> simp [h, happly, Act.appliesState]

theorem exec_readDo (e : LightPeriod) (w : World c) : readDo.exec Act.perform (e.enter w) = (e.sample, e.enter w) := rfl

/-- One period, with its sample when it is enabled. -/
theorem exec_lightThreadEntry (n : LightCounts) (w : World c) (e : LightPeriod) :
    (lightThreadEntry n).exec Act.perform (e.enter w) =
      if e.vars.sEnabled then (n.add e.sample,
        if (n.add e.sample).against w.vars.sDark then
          { e.enter w with vars := (e.enter w).vars.applied (!w.vars.sDark) } else e.enter w)
      else (n, e.enter w) := by
  have hsample : (lightSample n).exec Act.perform (e.enter w) =
      (n.add e.sample, ((lightSwitch (n.add e.sample)).exec Act.perform (e.enter w)).2) := by
    unfold lightSample
    rw [Prog.exec_bind, exec_readDo, Prog.exec_bind]
    rfl
  have henabled : (lightIfEnabled n).exec Act.perform (e.enter w) =
      if e.vars.sEnabled then (lightSample n).exec Act.perform (e.enter w) else (n, e.enter w) :=
    Prog.exec_ite Act.perform (e.vars.sEnabled = true) _ _ _
  unfold lightThreadEntry
  rw [Prog.exec_bind, henabled]
  split
  · rw [hsample, exec_lightSwitch]
    rfl
  · rfl

theorem acts_lightThreadEntry (n : LightCounts) (w : World c) (e : LightPeriod) :
    ((lightThreadEntry n).acts Act.perform (e.enter w)).any Act.appliesState =
      (e.vars.sEnabled && (n.add e.sample).against w.vars.sDark) := by
  have hsample : (lightSample n).acts Act.perform (e.enter w) =
      [.pinRead, .load .sInvert] ++ (lightSwitch (n.add e.sample)).acts Act.perform (e.enter w) := by
    have hread : readDo.acts Act.perform (e.enter w) = [.pinRead, .load .sInvert] := rfl
    unfold lightSample
    rw [Prog.acts_bind, exec_readDo, hread, Prog.acts_bind, Prog.acts_pure, List.append_nil]
  have henabled : (lightIfEnabled n).acts Act.perform (e.enter w) =
      .load .sEnabled :: if e.vars.sEnabled then (lightSample n).acts Act.perform (e.enter w) else [] :=
    congrArg _ (Prog.acts_ite Act.perform (e.vars.sEnabled = true) _ _ _)
  have hdelay : ∀ (m : LightCounts) (w : World c),
      Prog.acts Act.perform (do Code.mdelay 50; pure m : Code LightCounts) w = [.mdelay 50] := fun _ _ => rfl
  unfold lightThreadEntry
  rw [Prog.acts_bind, henabled, hdelay, hsample]
  have hswitch : _ = (n.add e.sample).against w.vars.sDark := acts_lightSwitch (n.add e.sample) (e.enter w)
  cases e.vars.sEnabled with
  | true => simp [hswitch, Act.appliesState]
  | false => simp [Act.appliesState]

/-- What a period leaves of the variables. -/
theorem vars_lightThreadEntry (n : LightCounts) (w : World c) (e : LightPeriod) :
    ((lightThreadEntry n).exec Act.perform (e.enter w)).2.vars =
      if e.vars.sEnabled && (n.add e.sample).against w.vars.sDark then
        { e.vars with sDark := !w.vars.sDark }.applied (!w.vars.sDark)
      else { e.vars with sDark := w.vars.sDark } := by
  rw [exec_lightThreadEntry]
  cases e.vars.sEnabled with
  | false => rfl
  | true =>
    cases (n.add e.sample).against w.vars.sDark with
    | true => rfl
    | false => rfl

/-! ## Whole runs -/

/-- How many samples at the end say `b`. -/
def trailing (b : Bool) (l : List Bool) : ℕ := (l.reverse.takeWhile (· == b)).length

theorem trailing_concat (b x : Bool) (l : List Bool) : trailing b (l ++ [x]) = if x = b then trailing b l + 1 else 0 := by
  unfold trailing
  rw [List.reverse_append]
  by_cases h : x = b
  · simp [h]
  · simp [h]

/-- Three samples or more say `b` exactly when the last three exist and all say so. -/
theorem three_le_trailing_iff (b : Bool) (l : List Bool) : 3 ≤ trailing b l ↔ l.rtake 3 = List.replicate 3 b := by
  unfold trailing
  rw [List.rtake_eq_reverse_take_reverse, List.reverse_eq_iff, List.reverse_replicate]
  match l.reverse with
  | [] => simp
  | [x] => cases x <;> cases b <;> simp
  | [x, y] => cases x <;> cases y <;> cases b <;> simp
  | x :: y :: z :: t => cases x <;> cases y <;> cases z <;> cases b <;> simp

/-- The counter against the state. -/
def LightCounts.opposing (n : LightCounts) (dark : Bool) : UInt8 := if dark then n.lightCnt else n.darkCnt

/-- Between two periods the counter against the state counts the samples at the end that are against it: fewer than three, so
that it cannot wrap. The other counter may have any value. -/
def Counting (n : LightCounts) (dark : Bool) (l : List Bool) : Prop :=
  (n.opposing dark).toNat = trailing (!dark) l ∧ trailing (!dark) l < 3

theorem opposing_add (n : LightCounts) (dark x : Bool) :
    (n.add x).opposing dark = if x = !dark then n.opposing dark + 1 else 0 := by
  cases x <;> cases dark <;> rfl

theorem against_iff (n : LightCounts) (dark : Bool) : n.against dark = true ↔ 3 ≤ (n.opposing dark).toNat := by
  have h3 : ∀ k : UInt8, k ≥ 3 ↔ 3 ≤ k.toNat := fun k => UInt8.le_iff_toNat_le
  cases dark <;> simp [LightCounts.against, LightCounts.opposing, h3]

/-- A sample calls for a change exactly when with it the last three are against the state. -/
theorem Counting.against_add {n : LightCounts} {dark : Bool} {l : List Bool} (h : Counting n dark l) (x : Bool) :
    ((n.add x).opposing dark).toNat = trailing (!dark) (l ++ [x]) ∧
      ((n.add x).against dark = true ↔ (l ++ [x]).rtake 3 = List.replicate 3 (!dark)) := by
  have hcount : ((n.add x).opposing dark).toNat = trailing (!dark) (l ++ [x]) := by
    rw [opposing_add, trailing_concat]
    split
    · rw [UInt8.toNat_add, h.1]
      have := h.2
      simp
      omega
    · rfl
  exact ⟨hcount, by rw [against_iff, hcount, three_le_trailing_iff]⟩

/-- The step lemma: a sample keeps the count, whether or not it changes the state. -/
theorem Counting.add {n : LightCounts} {dark : Bool} {l : List Bool} (h : Counting n dark l) (x : Bool) :
    Counting (n.add x) (if (n.add x).against dark then !dark else dark) (l ++ [x]) := by
  obtain ⟨hcount, -⟩ := h.against_add x
  by_cases ha : (n.add x).against dark = true
  · -- the state changes: the sample agrees with the new one, so nothing is against it
    have hx : x = !dark := by
      by_contra hx
      rw [against_iff, hcount, trailing_concat, if_neg hx] at ha
      omega
    rw [if_pos ha, hx]
    constructor
    · rw [opposing_add, trailing_concat]
      simp
    · rw [trailing_concat]
      simp
  · rw [if_neg ha]
    refine ⟨hcount, ?_⟩
    rw [against_iff, hcount] at ha
    omega

theorem samples_concat (es : List LightPeriod) (e : LightPeriod) :
    samples (es ++ [e]) = if e.vars.sEnabled then samples es ++ [e.sample] else samples es := by
  unfold samples
  rw [List.filter_append, List.map_append]
  cases h : e.vars.sEnabled with
  | true => simp [h]
  | false => simp [h]

/-- The run lemma: after any periods, the counter against the state counts. -/
theorem counting_after (w : World c) (es : List LightPeriod) :
    Counting ((lightMachine c).run (lightStart w) es).1 ((lightMachine c).run (lightStart w) es).2.vars.sDark (samples es) := by
  induction es using List.reverseRecOn with
  | nil =>
    unfold Counting LightCounts.opposing
    cases ((lightMachine c).run (lightStart w) []).2.vars.sDark <;> exact ⟨rfl, by decide⟩
  | append_singleton es e ih =>
    rw [Machine.run_append]
    generalize (lightMachine c).run (lightStart w) es = s at ih
    show Counting ((lightThreadEntry s.1).exec Act.perform (e.enter s.2)).1
      ((lightThreadEntry s.1).exec Act.perform (e.enter s.2)).2.vars.sDark _
    rw [exec_lightThreadEntry, samples_concat]
    cases e.vars.sEnabled with
    | false => exact ih
    | true =>
      have h := ih.add e.sample
      simp only [if_true]
      cases ha : (s.1.add e.sample).against s.2.vars.sDark with
      | true =>
        rw [ha] at h
        exact h
      | false =>
        rw [ha] at h
        exact h

/-- The hysteresis. From the state `sensor_light_init` leaves, after any periods `es` with any pin levels and any settings: in the
next period `e`, `s_dark` changes exactly when the period is enabled and the three latest samples of enabled periods, its own
included, exist and all say the opposite; `apply_state` runs exactly then, and sets the beep and the refresh period by the new
state; otherwise every static variable is as the shell left it. -/
theorem light_hysteresis (w : World c) (es : List LightPeriod) (e : LightPeriod) :
    let s := (lightMachine c).run (lightStart w) es
    let dark := s.2.vars.sDark
    let change := e.vars.sEnabled = true ∧ (samples (es ++ [e])).rtake 3 = List.replicate 3 (!dark)
    let (acts, s') := (lightMachine c).step s e
    (s'.2.vars.sDark ≠ dark ↔ change) ∧
    (acts.any Act.appliesState = true ↔ change) ∧
    (change → s'.2.vars =
      { e.vars with sDark := !dark, sBeepEnabled := dark, sRefreshMs := if dark then 10 else 300 }) ∧
    (¬change → s'.2.vars = { e.vars with sDark := dark }) := by
  intro s dark change
  have h := counting_after w es
  obtain ⟨-, hiff⟩ := h.against_add e.sample
  have hchange : change ↔ (e.vars.sEnabled && (s.1.add e.sample).against dark) = true := by
    rw [Bool.and_eq_true, hiff]
    show e.vars.sEnabled = true ∧ _ ↔ _
    rw [samples_concat]
    constructor
    · rintro ⟨he, h3⟩
      rw [if_pos he] at h3
      exact ⟨he, h3⟩
    · rintro ⟨he, h3⟩
      rw [if_pos he]
      exact ⟨he, h3⟩
  have hacts := acts_lightThreadEntry s.1 s.2 e
  have hvars := vars_lightThreadEntry s.1 s.2 e
  have hdark : s.2.vars.sDark = dark := rfl
  rw [hdark] at hacts hvars
  show (((lightThreadEntry s.1).exec Act.perform (e.enter s.2)).2.vars.sDark ≠ dark ↔ change) ∧
    (((lightThreadEntry s.1).acts Act.perform (e.enter s.2)).any Act.appliesState = true ↔ change) ∧
    (change → ((lightThreadEntry s.1).exec Act.perform (e.enter s.2)).2.vars = _) ∧
    (¬change → ((lightThreadEntry s.1).exec Act.perform (e.enter s.2)).2.vars = _)
  rw [hvars, hacts, hchange]
  cases (e.vars.sEnabled && (s.1.add e.sample).against dark) with
  | true => rcases Bool.eq_false_or_eq_true dark with hd | hd <;> simp [Statics.applied, hd]
  | false => simp

end RtStopwatch
