import RtStopwatch.Lemmas.Timer
import RtStopwatch.Theorems.Periods

/-!
# The software timers, and the rate of the CSV stream

The timers do on the wrapping tick what they would do on a tick that never wraps (`soft_timers_exact`), so that a check misses no timer
(`soft_timer_check_exact`) and a timer never fires sooner than its period allows (`firings_spaced`). The last is what keeps the rows of
the CSV stream apart, whatever commands the shell is given (`csv_rows_spaced`).
-/

namespace RtStopwatch

open Lib

variable {ι : Type}

theorem sameTimers_create (periodic : ι → Bool) (time : ι → UInt32) :
    SameTimers (Timers.create .wrapping periodic time) (Timers.create .exact periodic time) :=
  ⟨rfl, rfl, rfl, fun _ => ⟨rfl, rfl, rfl, rfl⟩⟩

theorem sorted_create (periodic : ι → Bool) (time : ι → UInt32) (now : ℕ) : (Timers.create .exact periodic time).Sorted now :=
  ⟨List.nodup_nil, List.Pairwise.nil, by simp [Timers.create]⟩

variable [DecidableEq ι]

/-- The timers are punctual at every step of a run, read on true counts. -/
def PunctualRun (periodic : ι → Bool) (time : ι → UInt32) (es : List (TimerEvent ι × ℕ)) : Prop :=
  (timerMachine ι .exact).Meets (fun s e => ∀ x, s = some x → x.Punctual e.2 e.1) (some (Timers.create .exact periodic time)) es

instance (periodic : ι → Bool) (time : ι → UInt32) (es : List (TimerEvent ι × ℕ)) : Decidable (PunctualRun periodic time es) :=
  have (s : Option (Timers ι ℕ)) (e : TimerEvent ι × ℕ) : Decidable (∀ x, s = some x → x.Punctual e.2 e.1) :=
    inferInstanceAs (Decidable (∀ x ∈ s, x.Punctual e.2 e.1))
  inferInstanceAs (Decidable (Machine.Meets _ _ _ _))

/-- The run lemma: on punctual runs the two stay the same and call the same functions. -/
theorem same_run {w : Option (Timers ι UInt32)} {x : Option (Timers ι ℕ)} {now : ℕ} (h : SameOption w x)
    (hs : ∀ y, x = some y → y.Sorted now) {es : List (TimerEvent ι × ℕ)} (hclock : Clocked Prod.snd es) (hlo : ∀ e ∈ es, now ≤ e.2)
    (hp : (timerMachine ι .exact).Meets (fun s e => ∀ x, s = some x → x.Punctual e.2 e.1) x es) :
    (timerMachine ι .wrapping).outs w es = (timerMachine ι .exact).outs x es ∧
      SameOption ((timerMachine ι .wrapping).run w es) ((timerMachine ι .exact).run x es) ∧
      ∀ y last, (timerMachine ι .exact).run x es = some y → now ≤ last → (∀ e ∈ es, e.2 ≤ last) → y.Sorted last := by
  induction es generalizing w x now with
  | nil => exact ⟨rfl, h, fun y last hy hle _ => (hs y hy).mono hle⟩
  | cons e es ih =>
    rw [Clocked, List.map_cons, List.pairwise_cons] at hclock
    have hle : now ≤ e.2 := hlo e (by simp)
    have hstep : ((timerMachine ι .wrapping).step w e).1 = ((timerMachine ι .exact).step x e).1 ∧
        SameOption ((timerMachine ι .wrapping).step w e).2 ((timerMachine ι .exact).step x e).2 ∧
        ∀ y, ((timerMachine ι .exact).step x e).2 = some y → y.Sorted e.2 := by
      cases x with
      | none =>
        obtain rfl := sameOption_none h
        refine ⟨rfl, trivial, ?_⟩
        rintro y ⟨⟩
      | some x =>
        obtain ⟨w, rfl, h⟩ := sameOption_some h
        have hsx := (hs x rfl).mono hle
        obtain ⟨hout, hsame⟩ := h.step hsx (hp.1 x rfl)
        exact ⟨hout, hsame, fun y hy => hsx.step e.1 hy⟩
    obtain ⟨hout, hsame, hsort⟩ := hstep
    obtain ⟨houts, hrun, hfin⟩ := ih hsame hsort hclock.2 (fun e' he' => hclock.1 _ (List.mem_map_of_mem he')) hp.2
    refine ⟨?_, hrun, fun y last hy hl hall => hfin y last hy (hall e (by simp)) fun e' he' => hall e' (by simp [he'])⟩
    rw [Machine.outs_cons, Machine.outs_cons, hout, houts]

/-- From timers just created. -/
theorem same_run_create {periodic : ι → Bool} {time : ι → UInt32} {es : List (TimerEvent ι × ℕ)} (hclock : Clocked Prod.snd es)
    (hp : PunctualRun periodic time es) :
    (timerMachine ι .wrapping).outs (some (Timers.create .wrapping periodic time)) es =
        (timerMachine ι .exact).outs (some (Timers.create .exact periodic time)) es ∧
      SameOption ((timerMachine ι .wrapping).run (some (Timers.create .wrapping periodic time)) es)
        ((timerMachine ι .exact).run (some (Timers.create .exact periodic time)) es) ∧
      ∀ y last, (timerMachine ι .exact).run (some (Timers.create .exact periodic time)) es = some y → 0 ≤ last →
        (∀ e ∈ es, e.2 ≤ last) → y.Sorted last := by
  have h : SameOption (some (Timers.create .wrapping periodic time)) (some (Timers.create .exact periodic time)) :=
    sameTimers_create periodic time
  refine same_run h (fun y hy => ?_) hclock (fun _ _ => Nat.zero_le _) hp
  cases hy
  exact sorted_create periodic time 0

/-- The tick wraps and nothing comes of it. On any run in which no timer gets overdue by half the range of the tick, the code calls the
functions it would call on a tick that never wraps, and the timers stand as they would. -/
theorem soft_timers_exact (periodic : ι → Bool) (time : ι → UInt32) (es : List (TimerEvent ι × ℕ)) (hclock : Clocked Prod.snd es)
    (hp : PunctualRun periodic time es) :
    (timerMachine ι .wrapping).outs (some (Timers.create .wrapping periodic time)) es =
        (timerMachine ι .exact).outs (some (Timers.create .exact periodic time)) es ∧
      SameOption ((timerMachine ι .wrapping).run (some (Timers.create .wrapping periodic time)) es)
        ((timerMachine ι .exact).run (some (Timers.create .exact periodic time)) es) := by
  obtain ⟨houts, hrun, -⟩ := same_run_create hclock hp
  exact ⟨houts, hrun⟩

/-- Two timers across the wrap of the tick: one of 5 ticks, and a periodic one that `sw_csv on 5` sets to 10. -/
def acrossWrap : List (TimerEvent Bool × ℕ) :=
  [(.setTime true 10, 4294967290), (.start false, 4294967290), (.setPeriodic true true, 4294967290), (.start true, 4294967290),
    (.check, 4294967297), (.ret, 4294967299), (.check, 4294967301), (.ret, 4294967302), (.check, 4294967312)]

theorem soft_timers_exact_across_wrap :
    (timerMachine Bool .wrapping).outs (some (Timers.create .wrapping (fun _ => false) fun _ => 5)) acrossWrap =
      [none, none, none, none, some false, none, some true, none, some true] :=
  (soft_timers_exact (fun _ => false) (fun _ => 5) acrossWrap (by simp [Clocked, acrossWrap]) (by decide)).1.trans (by decide)

/-- A check misses no timer and calls none too early. After any such run, a check that calls no function leaves no timer in the list
whose time has come, and one that calls a function calls that of the timer that has waited longest. -/
theorem soft_timer_check_exact (periodic : ι → Bool) (time : ι → UInt32) (es : List (TimerEvent ι × ℕ)) (now : ℕ)
    (hclock : Clocked Prod.snd (es ++ [(.check, now)])) (hp : PunctualRun periodic time (es ++ [(.check, now)]))
    (w : Timers ι UInt32) (hw : (timerMachine ι .wrapping).run (some (Timers.create .wrapping periodic time)) es = some w)
    (hidle : w.calling = none) :
    ∃ x, (timerMachine ι .exact).run (some (Timers.create .exact periodic time)) es = some x ∧
      (((timerMachine ι .wrapping).step (some w) (.check, now)).1 = none →
        ∀ i ∈ w.softTimerList, now < (x.timer i).timeoutTick) ∧
      ∀ t, ((timerMachine ι .wrapping).step (some w) (.check, now)).1 = some t →
        t ∈ w.softTimerList ∧ (x.timer t).timeoutTick ≤ now ∧
          ∀ i ∈ w.softTimerList, (x.timer t).timeoutTick ≤ (x.timer i).timeoutTick := by
  obtain ⟨hpre, hcheck⟩ := hp.at_step
  obtain ⟨hclock', hle⟩ := hclock.at_step
  obtain ⟨-, hsame, hsort⟩ := same_run_create hclock' hpre
  rw [hw] at hsame
  cases hx : (timerMachine ι .exact).run (some (Timers.create .exact periodic time)) es with
  | none =>
    rw [hx] at hsame
    cases sameOption_none hsame
  | some x =>
    rw [hx] at hsame
    have hs : x.Sorted now := hsort x now hx (Nat.zero_le _) hle
    obtain ⟨hout, -⟩ := hsame.step hs (hcheck x hx)
    have hidle' : x.calling = none := hsame.calling ▸ hidle
    rw [hout, hsame.softTimerList]
    simp only [timerMachine, hidle', Timers.checkCall]
    refine ⟨x, rfl, ?_⟩
    cases hl : x.softTimerList with
    | nil => simp
    | cons t rest =>
      have hfirst : ∀ i ∈ t :: rest, (x.timer t).timeoutTick ≤ (x.timer i).timeoutTick := by
        intro i hi
        rcases List.mem_cons.mp hi with rfl | hi
        · exact le_rfl
        · have hsorted := hs.sorted
          rw [hl] at hsorted
          exact (List.pairwise_cons.mp hsorted).1 i hi
      by_cases hr : (x.timer t).timeoutTick ≤ now
      · have hr' : TickArith.exact.reached (TickArith.exact.rtTickGet now) (x.timer t).timeoutTick = true := decide_eq_true hr
        simp only [hr', if_true]
        simp only [reduceCtorEq, false_implies, true_and]
        rintro _ ⟨⟩
        exact ⟨by simp, hr, hfirst⟩
      · have hr' : TickArith.exact.reached (TickArith.exact.rtTickGet now) (x.timer t).timeoutTick = false := decide_eq_false hr
        simp only [hr', Bool.false_eq_true, if_false]
        simp only [reduceCtorEq, false_implies, implies_true, and_true]
        intro _ i hi
        have := hfirst i hi
        omega

theorem soft_timer_check_exact_across_wrap :
    ∃ x : Timers Bool ℕ,
      (timerMachine Bool .exact).run (some (Timers.create .exact (fun _ => false) fun _ => 5)) (acrossWrap.take 4) = some x ∧
        (x.timer false).timeoutTick ≤ 4294967297 := by
  have hw : ((timerMachine Bool .wrapping).run (some (Timers.create .wrapping (fun _ => false) fun _ => 5))
      (acrossWrap.take 4)).isSome = true := by decide
  obtain ⟨x, hx, -, hcall⟩ := soft_timer_check_exact (fun _ => false) (fun _ => 5) (acrossWrap.take 4) 4294967297
    (by simp [Clocked, acrossWrap]) (by decide) _ (Option.some_get hw).symm rfl
  exact ⟨x, hx, (hcall false rfl).2.1⟩

/-! ## How often a timer fires -/

/-- The ticks at which the function of a timer is called. -/
def firings (i : ι) (outs : List (Option ι)) (es : List (TimerEvent ι × ℕ)) : List ℕ :=
  (outs.zip es).filterMap fun p => if p.1 = some i then some p.2.2 else none

theorem firings_cons (i : ι) (o : Option ι) (outs : List (Option ι)) (e : TimerEvent ι × ℕ) (es : List (TimerEvent ι × ℕ)) :
    firings i (o :: outs) (e :: es) = if o = some i then e.2 :: firings i outs es else firings i outs es := by
  by_cases h : o = some i
  · simp [firings, h]
  · simp [firings, h]

/-- Up to now the timer has been `set` to `p` ticks at least, or it has never been started. It is in the list once at most, and if it
is, it is not due before `b`. -/
structure NotBefore (i : ι) (p b : ℕ) (set : Bool) (y : Timers ι ℕ) : Prop where
  nodup : y.softTimerList.Nodup
  idle : set = false → i ∉ y.softTimerList ∧ y.calling ≠ some i
  period : set = true → p ≤ (y.timer i).initTick.toNat
  due : i ∈ y.softTimerList → b ≤ (y.timer i).timeoutTick

/-- What the events do to the timer, when it has been `set` or not: it is set before it is first started, and never to fewer than `p`
ticks. -/
def TimerEvent.SetFirst (i : ι) (p : ℕ) : Bool → List (TimerEvent ι) → Prop
  | _, [] => True
  | set, .setTime j ticks :: es => if j = i then p ≤ ticks.toNat ∧ SetFirst i p true es else SetFirst i p set es
  | set, .start j :: es => (j = i → set = true) ∧ SetFirst i p set es
  | set, .stop _ :: es => SetFirst i p set es
  | set, .setPeriodic _ _ :: es => SetFirst i p set es
  | set, .check :: es => SetFirst i p set es
  | set, .ret :: es => SetFirst i p set es

/-- Whether the timer has been set after an event. -/
def TimerEvent.setAfter (i : ι) (set : Bool) : TimerEvent ι → Bool
  | .setTime j _ => set || decide (j = i)
  | _ => set

open TimerEvent in
theorem setFirst_cons {i : ι} {p : ℕ} {set : Bool} {e : TimerEvent ι} {es : List (TimerEvent ι)} (h : SetFirst i p set (e :: es)) :
    (e = .start i → set = true) ∧ (∀ ticks, e = .setTime i ticks → p ≤ ticks.toNat) ∧ SetFirst i p (e.setAfter i set) es := by
  cases e with
  | setTime j ticks =>
    unfold SetFirst at h
    by_cases hj : j = i
    · rw [if_pos hj] at h
      refine ⟨nofun, ?_, by simpa [setAfter, hj] using h.2⟩
      rintro _ ⟨⟩
      exact h.1
    · rw [if_neg hj] at h
      refine ⟨nofun, ?_, by simpa [setAfter, hj] using h⟩
      rintro _ ⟨⟩
      exact absurd rfl hj
  | start j =>
    refine ⟨?_, nofun, h.2⟩
    rintro ⟨⟩
    exact h.1 rfl
  | stop _ => exact ⟨nofun, nofun, h⟩
  | setPeriodic _ _ => exact ⟨nofun, nofun, h⟩
  | check => exact ⟨nofun, nofun, h⟩
  | ret => exact ⟨nofun, nofun, h⟩

/-- The step lemma: a step that does not call the function of the timer keeps it from being due before `b`, and one that does keeps it
from being due again for `p` ticks. -/
theorem NotBefore.step {i : ι} {p b : ℕ} {set : Bool} {y : Timers ι ℕ} (h : NotBefore i p b set y) (e : TimerEvent ι × ℕ)
    (hb : b ≤ e.2 + p) (hstart : e.1 = .start i → set = true) (hset : ∀ ticks, e.1 = .setTime i ticks → p ≤ ticks.toNat) :
    (((timerMachine ι .exact).step (some y) e).1 ≠ some i ∧
        ∀ z, ((timerMachine ι .exact).step (some y) e).2 = some z → NotBefore i p b (e.1.setAfter i set) z) ∨
      (((timerMachine ι .exact).step (some y) e).1 = some i ∧ b ≤ e.2 ∧
        ∀ z, ((timerMachine ι .exact).step (some y) e).2 = some z → NotBefore i p (e.2 + p) (e.1.setAfter i set) z) := by
  obtain ⟨e, now⟩ := e
  have hmono : e.setAfter i set = false → set = false := by
    cases e with
    | setTime j ticks =>
      intro hf
      exact (Bool.or_eq_false_iff.mp hf).1
    | _ => exact id
  rcases timer_step_cases .exact y e now with
    ⟨z, hz, hsub, hcall, ht, hi⟩ | ⟨z, j, hz, hlist, hj, ht, hi⟩ | ⟨t, rest, hl, rfl, hr, hz⟩
  · rw [hz]
    refine Or.inl ⟨nofun, ?_⟩
    rintro _ ⟨⟩
    refine ⟨h.nodup.sublist hsub, fun hf => ?_, fun hs => ?_, fun hmem => ht i ▸ h.due (hsub.subset hmem)⟩
    · obtain ⟨hnot, hcalling⟩ := h.idle (hmono hf)
      refine ⟨fun hmem => hnot (hsub.subset hmem), ?_⟩
      rcases hcall with hcall | hcall
      · rwa [hcall]
      · rw [hcall]
        nofun
    · rcases hi i with ⟨hi, hne⟩ | hi
      · have hs' : set = true := by
          cases e with
          | setTime k ticks =>
            have hk : k ≠ i := by
              rintro rfl
              exact hne ticks rfl
            simpa [TimerEvent.setAfter, hk] using hs
          | _ => exact hs
        rw [hi]
        exact h.period hs'
      · exact hset _ hi
  · have hsame : e.setAfter i set = set := by
      rcases hj with ⟨rfl, -⟩ | ⟨rfl, -, -⟩
      · rfl
      · rfl
    have hcalling : y.calling ≠ some i → z.calling ≠ some i := by
      rcases hj with ⟨-, hc⟩ | ⟨-, -, hc⟩
      · exact fun hne => hc ▸ hne
      · exact fun _ => hc ▸ nofun
    have hjset : j = i → set = true := by
      rintro rfl
      rcases hj with ⟨he, -⟩ | ⟨-, hc, -⟩
      · exact hstart he
      · cases hs : set with
        | true => rfl
        | false => exact absurd hc (h.idle hs).2
    rw [hz, hsame]
    refine Or.inl ⟨nofun, fun u hu => ?_⟩
    replace hu : z.rtTimerStart .exact now j = some u := hu
    rw [Timers.rtTimerStart_eq] at hu
    split at hu
    · cases hu
      have hnd : z.softTimerList.Nodup := hlist ▸ h.nodup
      by_cases hij : i = j
      · subst hij
        have hper : p ≤ (z.timer i).initTick.toNat := hi i ▸ h.period (hjset rfl)
        refine ⟨Timers.started_nodup .exact now hnd i, fun hf => ?_, fun _ => ?_, fun _ => ?_⟩
        · exact absurd (hjset rfl) (by simp [hf])
        · rw [Timers.started_timer_self]
          exact hper
        · rw [Timers.started_timer_self]
          show b ≤ now + (z.timer i).initTick.toNat
          omega
      · have hmem_of : i ∈ (z.started .exact now j).softTimerList → i ∈ y.softTimerList := by
          intro hmem
          rcases (Timers.mem_started _ _ _ _ _).mp hmem with hmem | hmem
          · exact absurd hmem hij
          · exact hlist ▸ List.mem_of_mem_erase hmem
        refine ⟨Timers.started_nodup .exact now hnd j, fun hf => ?_, fun hs => ?_, fun hmem => ?_⟩
        · obtain ⟨hnot, hc⟩ := h.idle hf
          exact ⟨fun hmem => hnot (hmem_of hmem), hcalling hc⟩
        · rw [Timers.started_timer_of_ne _ _ _ hij, hi]
          exact h.period hs
        · rw [Timers.started_timer_of_ne _ _ _ hij, ht]
          exact h.due (hmem_of hmem)
    · cases hu
  · rw [hz]
    have hdue : (y.timer t).timeoutTick ≤ now := of_decide_eq_true hr
    have hmem_t : t ∈ y.softTimerList := by simp [hl]
    have hnd : (y.called t).softTimerList.Nodup := by
      rw [y.called_softTimerList]
      exact h.nodup.erase t
    have hidle : set = false → i ∉ (y.called t).softTimerList ∧ (y.called t).calling ≠ some i := by
      intro hf
      rw [y.called_softTimerList]
      refine ⟨fun hmem => (h.idle hf).1 (List.mem_of_mem_erase hmem), fun hc => ?_⟩
      obtain rfl : t = i := Option.some.inj hc
      exact (h.idle hf).1 hmem_t
    have hper : set = true → p ≤ ((y.called t).timer i).initTick.toNat := by
      rw [y.called_initTick]
      exact h.period
    by_cases hti : t = i
    · subst hti
      refine Or.inr ⟨rfl, (h.due hmem_t).trans hdue, ?_⟩
      rintro _ ⟨⟩
      refine ⟨hnd, hidle, hper, fun hmem => ?_⟩
      rw [y.called_softTimerList] at hmem
      exact absurd hmem h.nodup.not_mem_erase
    · refine Or.inl ⟨fun e => hti (Option.some.inj e), ?_⟩
      rintro _ ⟨⟩
      refine ⟨hnd, hidle, hper, fun hmem => ?_⟩
      rw [y.called_softTimerList] at hmem
      rw [y.called_timeoutTick]
      exact h.due (List.mem_of_mem_erase hmem)

/-- The run lemma, on true ticks: the timer fires at `b` at the earliest and then `p` ticks apart. -/
theorem firings_exact {i : ι} {p b : ℕ} {set : Bool} {x : Option (Timers ι ℕ)} {es : List (TimerEvent ι × ℕ)}
    (hclock : Clocked Prod.snd es) (hlo : ∀ e ∈ es, b ≤ e.2 + p) (hset : TimerEvent.SetFirst i p set (es.map Prod.fst))
    (hx : ∀ y, x = some y → NotBefore i p b set y) :
    (∀ n ∈ firings i ((timerMachine ι .exact).outs x es) es, b ≤ n) ∧
      (firings i ((timerMachine ι .exact).outs x es) es).Pairwise fun m n => m + p ≤ n := by
  induction es generalizing x b set with
  | nil => simp [firings]
  | cons e es ih =>
    rw [Clocked, List.map_cons, List.pairwise_cons] at hclock
    have hlater : ∀ e' ∈ es, e.2 ≤ e'.2 := fun e' he' => hclock.1 _ (List.mem_map_of_mem he')
    obtain ⟨hstart, htime, hset'⟩ := setFirst_cons hset
    rw [Machine.outs_cons, firings_cons]
    have hstep : (((timerMachine ι .exact).step x e).1 ≠ some i ∧
          ∀ z, ((timerMachine ι .exact).step x e).2 = some z → NotBefore i p b (e.1.setAfter i set) z) ∨
        (((timerMachine ι .exact).step x e).1 = some i ∧ b ≤ e.2 ∧
          ∀ z, ((timerMachine ι .exact).step x e).2 = some z → NotBefore i p (e.2 + p) (e.1.setAfter i set) z) := by
      cases x with
      | none => simp [timerMachine]
      | some y => exact (hx y rfl).step e (hlo e (by simp)) hstart htime
    rcases hstep with ⟨ho, hz⟩ | ⟨ho, hb, hz⟩
    · rw [if_neg ho]
      exact ih hclock.2 (fun e' he' => hlo e' (by simp [he'])) hset' hz
    · rw [if_pos ho]
      obtain ⟨hge, hpair⟩ := ih hclock.2 (fun e' he' => Nat.add_le_add_right (hlater e' he') p) hset' hz
      refine ⟨fun n hn => ?_, List.pairwise_cons.mpr ⟨hge, hpair⟩⟩
      rcases List.mem_cons.mp hn with rfl | hn
      · exact hb
      · have := hge n hn
        omega

/-- On the ticks of the code, from timers just created. -/
theorem firings_wrapping (set : Bool) {periodic : ι → Bool} {time : ι → UInt32} {es : List (TimerEvent ι × ℕ)}
    (hclock : Clocked Prod.snd es) (hp : PunctualRun periodic time es) {i : ι} {p : ℕ} (htime : set = true → p ≤ (time i).toNat)
    (hset : TimerEvent.SetFirst i p set (es.map Prod.fst)) :
    (firings i ((timerMachine ι .wrapping).outs (some (Timers.create .wrapping periodic time)) es) es).Pairwise
      fun m n => m + p ≤ n := by
  obtain ⟨houts, -⟩ := same_run_create hclock hp
  rw [houts]
  refine (firings_exact (b := 0) hclock (fun _ _ => Nat.zero_le _) hset fun y hy => ?_).2
  cases hy
  exact ⟨List.nodup_nil, fun _ => ⟨List.not_mem_nil, nofun⟩, htime, nofun⟩

/-- A timer never fires sooner than its period allows: as long as it is never set to fewer than `p` ticks, its function is called at
ticks at least `p` apart, whatever starts and stops it between. -/
theorem firings_spaced (periodic : ι → Bool) (time : ι → UInt32) (es : List (TimerEvent ι × ℕ)) (hclock : Clocked Prod.snd es)
    (hp : PunctualRun periodic time es) (i : ι) (p : ℕ) (htime : p ≤ (time i).toNat)
    (hset : ∀ e ∈ es, ∀ ticks, e.1 = .setTime i ticks → p ≤ ticks.toNat) :
    (firings i ((timerMachine ι .wrapping).outs (some (Timers.create .wrapping periodic time)) es) es).Pairwise
      fun m n => m + p ≤ n := by
  refine firings_wrapping true hclock hp (fun _ => htime) ?_
  clear hclock hp
  induction es with
  | nil => trivial
  | cons e es ih =>
    have hrest := ih fun e' he' => hset e' (by simp [he'])
    obtain ⟨e, now⟩ := e
    cases e with
    | setTime j ticks =>
      rw [List.map_cons, TimerEvent.SetFirst]
      split
      · rename_i hj
        subst hj
        exact ⟨hset (.setTime j ticks, now) (by simp) ticks rfl, hrest⟩
      · exact hrest
    | start j => exact ⟨fun _ => rfl, hrest⟩
    | stop _ => exact hrest
    | setPeriodic _ _ => exact hrest
    | check => exact hrest
    | ret => exact hrest

theorem firings_spaced_across_wrap :
    (firings true ((timerMachine Bool .wrapping).outs (some (Timers.create .wrapping (fun _ => false) fun _ => 5)) acrossWrap)
      acrossWrap).Pairwise fun m n => m + 5 ≤ n :=
  firings_spaced (fun _ => false) (fun _ => 5) acrossWrap (by simp [Clocked, acrossWrap]) (by decide) true 5 (by decide)
    (by simp [acrossWrap])

/-! ## The rate of the CSV stream -/

/-- A `sw_csv` command: its first argument, what `atoi` gives of its second, and whether there is memory for the timer. -/
structure CsvCommand where
  arg : Option (List Char)
  atoi : Option Int32
  heap : Bool

/-- The shell takes such commands. -/
def csvShell : Machine Csv CsvCommand (List CsvAct) where
  step s c := cmdSwCsv c.arg c.atoi c.heap s

/-- What they do to `csv_timer`. -/
def CsvAct.timerEvents (csvTimer : ι) : CsvAct → List (TimerEvent ι)
  | .kprintf _ => []
  | .timerCreate ticks => [.setTime csvTimer ticks, .setPeriodic csvTimer true]
  | .timerSetTime ticks => [.setTime csvTimer ticks]
  | .timerStart => [.start csvTimer]
  | .timerStop => [.stop csvTimer]

/-- Whether an event starts, stops or controls the timer. -/
def TimerEvent.isFor (i : ι) : TimerEvent ι → Bool
  | .start j | .stop j | .setTime j _ | .setPeriodic j _ => decide (j = i)
  | .check | .ret => false

/-- Only the events for the timer matter. -/
theorem setFirst_filter {i : ι} {p : ℕ} {set : Bool} {es : List (TimerEvent ι)}
    (h : TimerEvent.SetFirst i p set (es.filter (TimerEvent.isFor i))) : TimerEvent.SetFirst i p set es := by
  induction es generalizing set with
  | nil => trivial
  | cons e es ih =>
    cases e with
    | setTime j ticks =>
      rw [TimerEvent.SetFirst]
      by_cases hj : j = i
      · simp only [TimerEvent.isFor, hj, decide_true, List.filter_cons_of_pos, TimerEvent.SetFirst, if_true] at h
        rw [if_pos hj]
        exact ⟨h.1, ih h.2⟩
      · rw [if_neg hj]
        rw [List.filter_cons_of_neg (by simpa [TimerEvent.isFor] using hj)] at h
        exact ih h
    | start j =>
      by_cases hj : j = i
      · rw [List.filter_cons_of_pos (by simpa [TimerEvent.isFor] using hj)] at h
        exact ⟨h.1, ih h.2⟩
      · rw [List.filter_cons_of_neg (by simpa [TimerEvent.isFor] using hj)] at h
        exact ⟨fun hj' => absurd hj' hj, ih h⟩
    | stop j =>
      refine ih ?_
      rw [List.filter_cons] at h
      split at h
      · exact h
      · exact h
    | setPeriodic j p =>
      refine ih ?_
      rw [List.filter_cons] at h
      split at h
      · exact h
      · exact h
    | check => exact ih h
    | ret => exact ih h

theorem setFirst_mono {i : ι} {p : ℕ} {es : List (TimerEvent ι)} (h : TimerEvent.SetFirst i p false es) :
    TimerEvent.SetFirst i p true es := by
  induction es with
  | nil => trivial
  | cons e es ih =>
    cases e with
    | setTime j ticks =>
      rw [TimerEvent.SetFirst] at h ⊢
      split
      · rename_i hj
        rwa [if_pos hj] at h
      · rename_i hj
        rw [if_neg hj] at h
        exact ih h
    | start j => exact ⟨fun _ => rfl, ih h.2⟩
    | stop _ => exact ih h
    | setPeriodic _ _ => exact ih h
    | check => exact ih h
    | ret => exact ih h

theorem le_csvPeriod (atoi : Option Int32) {ms : UInt32} (h : 10 ≤ ms.toNat) : 10 ≤ (csvPeriod atoi ms).toNat := by
  cases atoi with
  | none => exact h
  | some n =>
    rw [csvPeriod]
    split
    · decide
    · rename_i hn
      exact Nat.not_lt.mp fun hlt => hn (UInt32.lt_iff_toNat_lt.mpr hlt)

/-- `sw_csv on` sets the timer before it starts it, whatever comes after. -/
theorem setFirst_csvOn (csvTimer : ι) {s : Csv} (hs : 10 ≤ s.csvPeriodMs.toNat) {atoi : Option Int32} {heap : Bool}
    {es : List (TimerEvent ι)}
    (h : 10 ≤ (csvOn atoi heap s).2.csvPeriodMs.toNat →
      TimerEvent.SetFirst csvTimer 10 (csvOn atoi heap s).2.csvTimer.isSome es) :
    TimerEvent.SetFirst csvTimer 10 s.csvTimer.isSome
      ((csvOn atoi heap s).1.flatMap (CsvAct.timerEvents csvTimer) ++ es) := by
  have hper := le_csvPeriod atoi hs
  have hticks : 10 ≤ (msToTicks (csvPeriod atoi s.csvPeriodMs)).toNat := by
    rw [msToTicks_eq]
    · exact hper
    · intro h0
      rw [h0] at hper
      exact absurd hper (by decide)
  unfold csvOn at h ⊢
  cases ht : s.csvTimer with
  | some t =>
    simp only [ht] at h
    simpa [CsvAct.timerEvents, TimerEvent.SetFirst, hticks] using h hper
  | none =>
    simp only [ht] at h
    cases heap with
    | true => simpa [CsvAct.timerEvents, TimerEvent.SetFirst, hticks] using h hper
    | false =>
      -- the timer has been given its ticks, though it could not be created
      have hrest : TimerEvent.SetFirst csvTimer 10 true es := setFirst_mono (h hper)
      simpa [CsvAct.timerEvents, TimerEvent.SetFirst, hticks] using hrest

/-- The commands set the timer before they start it, and never to fewer than 10 ticks. -/
theorem setFirst_csvShell (csvTimer : ι) {s : Csv} (hs : 10 ≤ s.csvPeriodMs.toNat) (cs : List CsvCommand) :
    TimerEvent.SetFirst csvTimer 10 s.csvTimer.isSome ((csvShell.outs s cs).flatten.flatMap (CsvAct.timerEvents csvTimer)) := by
  induction cs generalizing s with
  | nil => trivial
  | cons c cs ih =>
    rw [Machine.outs_cons, List.flatten_cons, List.flatMap_append]
    show TimerEvent.SetFirst csvTimer 10 s.csvTimer.isSome
      ((cmdSwCsv c.arg c.atoi c.heap s).1.flatMap _ ++ (csvShell.outs (cmdSwCsv c.arg c.atoi c.heap s).2 cs).flatten.flatMap _)
    unfold cmdSwCsv
    split
    · exact setFirst_csvOn csvTimer hs fun hs' => ih hs'
    · split
      · have hrest := ih hs
        cases ht : s.csvTimer with
        | none =>
          rw [ht] at hrest
          simpa [CsvAct.timerEvents, ht] using hrest
        | some t =>
          rw [ht] at hrest
          simpa [CsvAct.timerEvents, TimerEvent.SetFirst, ht] using hrest
      · simpa [CsvAct.timerEvents] using ih hs

/-- The rows of the CSV stream are 10 ms apart at least. Whatever commands the shell is given and however they fall among the checks of
the timers and what is done to other timers, `csv_timer_cb` is called at ticks at least 10 apart. -/
theorem csv_rows_spaced (csvTimer : ι) (periodic : ι → Bool) (time : ι → UInt32) (cs : List CsvCommand)
    (es : List (TimerEvent ι × ℕ)) (hclock : Clocked Prod.snd es) (hp : PunctualRun periodic time es)
    (hcs : (es.map Prod.fst).filter (TimerEvent.isFor csvTimer) =
      (csvShell.outs Csv.boot cs).flatten.flatMap (CsvAct.timerEvents csvTimer)) :
    (firings csvTimer ((timerMachine ι .wrapping).outs (some (Timers.create .wrapping periodic time)) es) es).Pairwise
      fun m n => m + 10 ≤ n := by
  refine firings_wrapping false hclock hp nofun (setFirst_filter ?_)
  rw [hcs]
  exact setFirst_csvShell csvTimer (s := Csv.boot) (by decide) cs

theorem csv_rows_spaced_on :
    (firings true ((timerMachine Bool .wrapping).outs (some (Timers.create .wrapping (fun _ => false) fun _ => 5)) acrossWrap)
      acrossWrap).Pairwise fun m n => m + 10 ≤ n :=
  csv_rows_spaced true (fun _ => false) (fun _ => 5) [⟨some "on".toList, some 5, true⟩] acrossWrap
    (by simp [Clocked, acrossWrap]) (by decide) (by decide)

end RtStopwatch
