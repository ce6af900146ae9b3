import RtStopwatch.Lib.Wp
import RtStopwatch.Lemmas.Step
import RtStopwatch.Locked

/-!
# What the locked code computes

Each call of `Locked.code`, run with nothing between its accesses, does what the call does at the instant it reads the clock
(`wp_code`); only the tick of `rt_tick_get`, which is stored and never read, may be that of another of its instants. And each call takes
and gives back the mutex as it should (`outside_code`).
-/

namespace RtStopwatch

open Lib

variable {c : Config} {hw : Hw} {T : Instant → Prop}

namespace Locked

/-! ## Accesses -/

@[simp] theorem strip_take : (take : LockedCode Unit).strip = Pure.pure () := rfl

@[simp] theorem strip_release : (release : LockedCode Unit).strip = Pure.pure () := rfl

section Accesses

variable (hT : ∃ t, T t) {m : SwMem c}
include hT

theorem wp_load (v : SwVar) (Q : v.Ty → SwMem c → Prop) :
    (load v).strip.wp (Access.perform hw) T Q m ↔ Q (m.load v) m :=
  Prog.wp_act_of_const hT fun _ => rfl

theorem wp_store (v : SwVar) (x : v.Ty) (Q : Unit → SwMem c → Prop) :
    (store v x).strip.wp (Access.perform hw) T Q m ↔ Q () (m.store v x) :=
  Prog.wp_act_of_const hT fun _ => rfl

end Accesses

theorem wp_cyccnt {m : SwMem c} (Q : UInt32 → SwMem c → Prop) :
    cyccnt.strip.wp (Access.perform hw) T Q m ↔ ∀ t, T t → Q (hw.moveTo t).cyccnt m := Iff.rfl

theorem wp_rtTickGet {m : SwMem c} (Q : UInt32 → SwMem c → Prop) :
    rtTickGet.strip.wp (Access.perform hw) T Q m ↔ ∀ t, T t → Q (hw.moveTo t).rtTick m := Iff.rfl

/-! ## The clock -/

/-- What `timebase_get_us` returns at an instant. -/
def us (hw : Hw) (m : SwMem c) (t : Instant) : UInt64 := (RtStopwatch.timebaseGetUs m.tb (hw.moveTo t)).1

/-- The memory it leaves. -/
def tick (hw : Hw) (m : SwMem c) (t : Instant) : SwMem c := { m with tb := (RtStopwatch.timebaseGetUs m.tb (hw.moveTo t)).2 }

@[simp] theorem tick_sw (m : SwMem c) (t : Instant) : (tick hw m t).sw = m.sw := rfl

/-- A lap array all of whose slots are 0. -/
theorem eq_replicate_of_cleared {v w : Vector UInt32 c.maxLaps}
    (hv : ∀ j (hj : j < c.maxLaps), v[j] = if 0 ≤ j ∧ j < 0 + c.maxLaps then 0 else w[j]) : v = Vector.replicate c.maxLaps 0 := by
  ext j hj
  rw [hv j hj, if_pos (by omega)]
  simp

variable (hT : ∃ t, T t) {m : SwMem c}
include hT

/-- `timebase_get_us` reads one of its registers once, and computes as of that instant. -/
theorem wp_timebaseGetUs {Q : UInt64 → SwMem c → Prop} (hQ : ∀ t, T t → Q (us hw m t) (tick hw m t)) :
    timebaseGetUs.strip.wp (Access.perform hw) T Q m := by
  cases hd : m.tb.dwtOk with
  | true =>
    simp only [timebaseGetUs, Prog.strip_bind, Prog.wp_bind, wp_load hT, SwMem.load, hd, if_true, wp_cyccnt, wp_store hT,
      SwMem.store, Prog.strip_pure, Prog.wp_pure]
    intro t ht
    have := hQ t ht
    simpa only [us, tick, RtStopwatch.timebaseGetUs, hd, if_true] using this
  | false =>
    simp only [timebaseGetUs, Prog.strip_bind, Prog.wp_bind, wp_load hT, SwMem.load, hd, Bool.false_eq_true, if_false, wp_rtTickGet,
      Prog.strip_pure, Prog.wp_pure]
    intro t ht
    have := hQ t ht
    simpa [us, tick, RtStopwatch.timebaseGetUs, hd] using this

/-- `get_now_total_ms_unsafe` reads the clock when a segment is being run. -/
theorem wp_getNowTotalMsUnsafe {Q : UInt32 → SwMem c → Prop}
    (hQ : ∀ t, T t → Q (m.sw.totalAt (us hw m t)) { m with tb := if m.sw.Live then (tick hw m t).tb else m.tb }) :
    getNowTotalMsUnsafe.strip.wp (Access.perform hw) T Q m := by
  simp only [getNowTotalMsUnsafe, Prog.strip_bind, Prog.wp_bind, wp_load hT, SwMem.load, Prog.strip_ite]
  by_cases hl : m.sw.Live
  · rw [if_pos (show m.sw.state = .running ∧ m.sw.stateStartUs ≠ 0 from hl)]
    simp only [Prog.wp_bind, Prog.strip_pure]
    refine wp_timebaseGetUs hT fun t ht => ?_
    simp only [Prog.wp_bind, wp_load hT, Prog.wp_pure, SwMem.load, tick_sw]
    have := hQ t ht
    simp only [Stopwatch.totalAt, if_pos hl] at this
    exact this
  · rw [if_neg (show ¬(m.sw.state = .running ∧ m.sw.stateStartUs ≠ 0) from hl)]
    obtain ⟨t, ht⟩ := hT
    have := hQ t ht
    rw [if_neg hl] at this
    rw [wp_load ⟨t, ht⟩]
    simpa only [Stopwatch.totalAt, if_neg hl] using this

/-! ## The loops over the lap array -/

/-- The memory with another lap array. -/
def withLaps (m : SwMem c) (v : Vector UInt32 c.maxLaps) : SwMem c := { m with sw := { m.sw with lapDurationsMs := v } }

/-- The slots cleared are 0, the others are kept. -/
theorem wp_clearLaps (n i : ℕ) {Q : Unit → SwMem c → Prop}
    (hQ : ∀ v : Vector UInt32 c.maxLaps,
      (∀ j (hj : j < c.maxLaps), v[j] = if i ≤ j ∧ j < i + n then 0 else m.sw.lapDurationsMs[j]) → Q () (withLaps m v)) :
    (clearLaps n i).strip.wp (Access.perform hw) T Q m := by
  induction n generalizing i m with
  | zero =>
    refine hQ m.sw.lapDurationsMs fun j hj => ?_
    rw [if_neg (by omega)]
  | succ n ih =>
    simp only [clearLaps, Prog.strip_bind, Prog.wp_bind, wp_store hT]
    refine ih (i + 1) fun v hv => hQ v fun j hj => ?_
    rw [hv j hj]
    simp only [SwMem.store, Vector.getElem_setIfInBounds hj]
    by_cases hij : i = j
    · subst hij
      simp
    · have hiff : (i + 1 ≤ j ∧ j < i + 1 + n) ↔ (i ≤ j ∧ j < i + (n + 1)) := by omega
      simp only [hiff, if_neg hij]

/-- The slots moved take the value of the next one, the others are kept. -/
theorem wp_moveLaps (n i : ℕ) (hn : i + n < c.maxLaps) {Q : Unit → SwMem c → Prop}
    (hQ : ∀ v : Vector UInt32 c.maxLaps,
      (∀ j (hj : j < c.maxLaps), v[j] = if h : i ≤ j ∧ j < i + n then m.sw.lapDurationsMs[j + 1] else m.sw.lapDurationsMs[j]) →
        Q () (withLaps m v)) :
    (moveLaps n i).strip.wp (Access.perform hw) T Q m := by
  induction n generalizing i m with
  | zero =>
    refine hQ m.sw.lapDurationsMs fun j hj => ?_
    rw [dif_neg (by omega)]
  | succ n ih =>
    simp only [moveLaps, Prog.strip_bind, Prog.wp_bind, wp_load hT, wp_store hT]
    refine ih (i + 1) (by omega) fun v hv => hQ v fun j hj => ?_
    have hi : i + 1 < c.maxLaps := by omega
    have hslot : m.sw.slot (i + 1) = m.sw.lapDurationsMs[i + 1] := by simp [Stopwatch.slot, hi]
    rw [hv j hj]
    by_cases hij : i = j
    · subst hij
      simp [SwMem.store, hslot]
    · by_cases hin : i ≤ j ∧ j < i + (n + 1)
      · rw [dif_pos (show i + 1 ≤ j ∧ j < i + 1 + n by omega), dif_pos hin]
        simp only [SwMem.store]
        rw [Vector.getElem_setIfInBounds, if_neg (by omega)]
      · rw [dif_neg (show ¬(i + 1 ≤ j ∧ j < i + 1 + n) by omega), dif_neg hin]
        simp only [SwMem.store]
        rw [Vector.getElem_setIfInBounds hj, if_neg hij]

/-! ## The bodies of the calls -/

/-- The clock reads of a call, all at one instant: what the call does to the stopwatch at the reading there. -/
def Does (hw : Hw) (T : Instant → Prop) (op : Op) (m : SwMem c) (x : Ret) (m' : SwMem c) : Prop :=
  ∃ t, T t ∧ ∃ tick, x = (m.sw.step op ⟨us hw m t, (hw.moveTo t).rtTick⟩).1 ∧
    m'.sw = { (m.sw.step op ⟨us hw m t, (hw.moveTo t).rtTick⟩).2 with stateStartTick := tick } ∧
    m'.tb = if op.Reads m.sw then (Locked.tick hw m t).tb else m.tb

omit hT in
/-- A call at the instant it reads the clock. -/
theorem does_at (op : Op) {t : Instant} (ht : T t) {x : Ret} {m' : SwMem c}
    (hstep : m.sw.step op ⟨us hw m t, (hw.moveTo t).rtTick⟩ = (x, m'.sw))
    (htb : m'.tb = if op.Reads m.sw then (Locked.tick hw m t).tb else m.tb) : Does hw T op m x m' := by
  refine ⟨t, ht, m'.sw.stateStartTick, ?_⟩
  rw [hstep]
  exact ⟨rfl, rfl, htb⟩

/-- A command or query whose flag is set runs its body. -/
theorem wp_whenInited (hs : m.sw.gInited = true) (failed : RtErr → Ret) (body : LockedCode Ret) (Q : Ret → SwMem c → Prop) :
    (whenInited failed body).strip.wp (Access.perform hw) T Q m ↔ body.strip.wp (Access.perform hw) T Q m := by
  simp only [whenInited, Prog.strip_bind, Prog.wp_bind, wp_load hT, SwMem.load, hs, if_true]

theorem wp_ifInited (hs : m.sw.gInited = true) (v : Ret) (body : LockedCode Ret) (Q : Ret → SwMem c → Prop) :
    (ifInited v body).strip.wp (Access.perform hw) T Q m ↔ body.strip.wp (Access.perform hw) T Q m := by
  simp only [ifInited, Prog.strip_bind, Prog.wp_bind, wp_load hT, SwMem.load, hs, if_true]

/-- A call that leaves the time base alone and whose effect does not depend on the reading. -/
theorem does_of_not_reads (op : Op) (hr : ¬op.Reads m.sw) {x : Ret} {m' : SwMem c} (hstep : ∀ r, m.sw.step op r = (x, m'.sw))
    (htb : m'.tb = m.tb) : Does hw T op m x m' := by
  obtain ⟨t, ht⟩ := hT
  refine ⟨t, ht, m'.sw.stateStartTick, ?_⟩
  rw [hstep, if_neg hr]
  exact ⟨rfl, rfl, htb⟩

theorem wp_stopwatchStart (hs : m.sw.gInited = true) :
    stopwatchStart.strip.wp (Access.perform hw) T (Does hw T .start m) m := by
  rw [stopwatchStart, wp_whenInited hT hs]
  simp only [Prog.strip_bind, Prog.wp_bind, strip_take, Prog.wp_pure, wp_load hT, SwMem.load]
  by_cases hr : m.sw.state = .running
  · rw [if_pos hr]
    simp only [Prog.strip_bind, Prog.wp_bind, strip_release, Prog.strip_pure, Prog.wp_pure]
    exact does_of_not_reads hT .start (fun h => h hr) (fun r => step_start_of_running hs r hr) rfl
  · rw [if_neg hr]
    simp only [Prog.strip_bind, Prog.wp_bind, wp_rtTickGet, wp_store hT]
    intro t₁ ht₁
    refine wp_timebaseGetUs hT fun t ht => ?_
    simp only [Prog.wp_bind, wp_store hT, strip_release, Prog.strip_pure, Prog.wp_pure]
    refine ⟨t, ht, (hw.moveTo t₁).rtTick, ?_⟩
    rw [step_start hs _ hr, if_pos (show Op.Reads m.sw .start from hr)]
    exact ⟨rfl, rfl, rfl⟩

theorem wp_stopwatchStop (hs : m.sw.gInited = true) :
    stopwatchStop.strip.wp (Access.perform hw) T (Does hw T .stop m) m := by
  rw [stopwatchStop, wp_whenInited hT hs]
  simp only [stopBody, Prog.strip_bind, Prog.wp_bind, strip_take, Prog.wp_pure, wp_load hT, SwMem.load]
  by_cases hr : m.sw.state = .running
  · rw [if_pos hr]
    simp only [Prog.strip_bind, Prog.wp_bind, wp_load hT, SwMem.load]
    by_cases h0 : m.sw.stateStartUs = 0
    · have hl : ¬m.sw.Live := fun hl => hl.2 h0
      simp only [h0, ne_eq, not_true, if_false, Prog.strip_pure, wp_store hT, strip_release]
      refine does_of_not_reads hT .stop hl (fun r => ?_) rfl
      rw [step_stop hs r hr, Stopwatch.totalAt, if_neg hl, ← h0]
      rfl
    · have hl : m.sw.Live := ⟨hr, h0⟩
      simp only [h0, ne_eq, not_false_eq_true, if_true, accumulate, Prog.strip_bind, Prog.wp_bind]
      refine wp_timebaseGetUs hT fun t ht => ?_
      simp only [Prog.wp_bind, wp_load hT, SwMem.load, wp_store hT, strip_release, Prog.strip_pure, Prog.wp_pure]
      refine ⟨t, ht, m.sw.stateStartTick, ?_⟩
      rw [step_stop hs _ hr, Stopwatch.totalAt, if_pos hl, if_pos (show Op.Reads m.sw .stop from hl)]
      exact ⟨rfl, rfl, rfl⟩
  · rw [if_neg hr]
    simp only [Prog.wp_bind, strip_release, Prog.strip_pure, Prog.wp_pure]
    exact does_of_not_reads hT .stop (fun h => hr h.1) (fun r => step_stop_of_not_running hs r hr) rfl

theorem wp_stopwatchReset (hs : m.sw.gInited = true) :
    (stopwatchReset c).strip.wp (Access.perform hw) T (Does hw T .reset m) m := by
  rw [stopwatchReset, wp_whenInited hT hs]
  simp only [resetBody, Prog.strip_bind, Prog.wp_bind, strip_take, Prog.wp_pure, wp_store hT]
  refine wp_clearLaps hT _ _ fun v hv => ?_
  obtain rfl := eq_replicate_of_cleared hv
  simp only [Prog.wp_bind, wp_load hT, SwMem.load, SwMem.store, withLaps]
  by_cases hr : m.sw.state = .running
  · rw [if_pos hr]
    simp only [Prog.strip_bind, Prog.wp_bind, wp_rtTickGet, wp_store hT]
    intro t₁ ht₁
    refine wp_timebaseGetUs hT fun t ht => ?_
    simp only [Prog.wp_bind, wp_store hT, strip_release, Prog.strip_pure, Prog.wp_pure]
    refine ⟨t, ht, (hw.moveTo t₁).rtTick, ?_⟩
    rw [step_reset_of_running hs _ hr, if_pos (show Op.Reads m.sw .reset from hr)]
    exact ⟨rfl, rfl, rfl⟩
  · rw [if_neg hr]
    simp only [Prog.strip_bind, Prog.wp_bind, wp_store hT, strip_release, Prog.strip_pure, Prog.wp_pure]
    exact does_of_not_reads hT .reset hr (fun r => step_reset_of_not_running hs r hr) rfl

/-- `Stopwatch.storeLap`, access by access. -/
theorem wp_storeLap (lapMs : UInt32) {Q : Unit → SwMem c → Prop} (hQ : Q () { m with sw := m.sw.storeLap lapMs }) :
    (storeLap c lapMs).strip.wp (Access.perform hw) T Q m := by
  simp only [storeLap, Prog.strip_bind, Prog.wp_bind, wp_load hT, SwMem.load]
  by_cases hlt : m.sw.lapCount.toNat < c.maxLaps
  · rw [if_pos hlt]
    simp only [Prog.strip_bind, Prog.wp_bind, wp_store hT]
    have hset : m.sw.lapDurationsMs.setIfInBounds m.sw.lapCount.toNat lapMs = m.sw.lapDurationsMs.set m.sw.lapCount.toNat lapMs hlt := by
      ext j hj
      simp [Vector.getElem_set, Vector.getElem_setIfInBounds]
    simpa only [SwMem.store, hset, Stopwatch.storeLap, dif_pos hlt] using hQ
  · rw [if_neg hlt]
    simp only [Prog.strip_bind, Prog.wp_bind]
    have hpos := c.maxLaps_pos
    refine wp_moveLaps hT _ _ (by omega) fun v hv => ?_
    have hset : v.setIfInBounds (c.maxLaps - 1) lapMs =
        (shiftDown m.sw.lapDurationsMs).set (c.maxLaps - 1) lapMs (Nat.sub_lt c.maxLaps_pos Nat.one_pos) := by
      ext j hj
      rw [Vector.getElem_setIfInBounds hj, Vector.getElem_set]
      by_cases hlast : c.maxLaps - 1 = j
      · simp [hlast]
      · rw [if_neg hlast, if_neg hlast, hv j hj]
        have hnext : j + 1 < c.maxLaps := by omega
        simp [shiftDown, hnext, show j < c.maxLaps - 1 by omega]
    simp only [wp_store hT, SwMem.store, withLaps, hset]
    simpa only [Stopwatch.storeLap, dif_neg hlt] using hQ

theorem wp_stopwatchLap (hs : m.sw.gInited = true) :
    (stopwatchLap c).strip.wp (Access.perform hw) T (Does hw T .lap m) m := by
  rw [stopwatchLap, wp_whenInited hT hs]
  simp only [lapBody, Prog.strip_bind, Prog.wp_bind, strip_take, Prog.wp_pure]
  refine wp_getNowTotalMsUnsafe hT fun t ht => ?_
  simp only [Prog.wp_bind, wp_load hT, SwMem.load]
  refine wp_storeLap hT _ ?_
  simp only [Prog.wp_bind, wp_store hT, strip_release, Prog.strip_pure, Prog.wp_pure]
  exact does_at .lap ht (step_lap hs _) rfl

theorem wp_stopwatchClearLaps (hs : m.sw.gInited = true) :
    (stopwatchClearLaps c).strip.wp (Access.perform hw) T (Does hw T .clearLaps m) m := by
  rw [stopwatchClearLaps, wp_ifInited hT hs]
  simp only [clearLapsBody, Prog.strip_bind, Prog.wp_bind, strip_take, Prog.wp_pure, wp_store hT]
  refine wp_getNowTotalMsUnsafe hT fun t ht => ?_
  simp only [Prog.wp_bind, wp_store hT]
  refine wp_clearLaps hT _ _ fun v hv => ?_
  obtain rfl := eq_replicate_of_cleared hv
  simp only [strip_release, Prog.strip_pure]
  exact does_at .clearLaps ht (step_clearLaps hs _) rfl

theorem wp_stopwatchGetTotalMs (hs : m.sw.gInited = true) :
    stopwatchGetTotalMs.strip.wp (Access.perform hw) T (Does hw T .getTotalMs m) m := by
  rw [stopwatchGetTotalMs, wp_ifInited hT hs]
  simp only [Prog.strip_bind, Prog.wp_bind, strip_take, Prog.wp_pure]
  refine wp_getNowTotalMsUnsafe hT fun t ht => ?_
  simp only [Prog.wp_bind, strip_release, Prog.strip_pure, Prog.wp_pure]
  exact does_at .getTotalMs ht (step_getTotalMs hs _) rfl

theorem wp_stopwatchGetState (hs : m.sw.gInited = true) :
    stopwatchGetState.strip.wp (Access.perform hw) T (Does hw T .getState m) m := by
  rw [stopwatchGetState, wp_ifInited hT hs]
  simp only [Prog.strip_bind, Prog.wp_bind, strip_take, wp_load hT, SwMem.load, strip_release, Prog.strip_pure, Prog.wp_pure]
  exact does_of_not_reads hT .getState id (step_getState hs) rfl

theorem wp_stopwatchGetLapCount (hs : m.sw.gInited = true) :
    stopwatchGetLapCount.strip.wp (Access.perform hw) T (Does hw T .getLapCount m) m := by
  rw [stopwatchGetLapCount, wp_ifInited hT hs]
  simp only [Prog.strip_bind, Prog.wp_bind, strip_take, wp_load hT, SwMem.load, strip_release, Prog.strip_pure, Prog.wp_pure]
  exact does_of_not_reads hT .getLapCount id (step_getLapCount hs) rfl

theorem wp_stopwatchGetLapMs (hs : m.sw.gInited = true) (index : UInt16) :
    (stopwatchGetLapMs index).strip.wp (Access.perform hw) T (Does hw T (.getLapMs index) m) m := by
  rw [stopwatchGetLapMs, wp_ifInited hT hs]
  simp only [lapMsBody, Prog.strip_bind, Prog.wp_bind, strip_take, Prog.wp_pure, wp_load hT, SwMem.load]
  by_cases hi : index < m.sw.lapCount
  · rw [if_pos hi]
    simp only [wp_load hT, SwMem.load, strip_release, Prog.strip_pure]
    exact does_of_not_reads hT (.getLapMs index) id (fun r => by rw [step_getLapMs hs r, if_pos hi]) rfl
  · rw [if_neg hi]
    simp only [strip_release, Prog.strip_pure]
    exact does_of_not_reads hT (.getLapMs index) id (fun r => by rw [step_getLapMs hs r, if_neg hi]) rfl

theorem wp_stopwatchGetLatestLapMs (hs : m.sw.gInited = true) :
    stopwatchGetLatestLapMs.strip.wp (Access.perform hw) T (Does hw T .getLatestLapMs m) m := by
  rw [stopwatchGetLatestLapMs, wp_ifInited hT hs]
  simp only [latestLapBody, Prog.strip_bind, Prog.wp_bind, strip_take, Prog.wp_pure, wp_load hT, SwMem.load]
  by_cases hi : 0 < m.sw.lapCount
  · rw [if_pos hi]
    simp only [Prog.strip_bind, Prog.wp_bind, wp_load hT, SwMem.load, strip_release, Prog.strip_pure, Prog.wp_pure]
    exact does_of_not_reads hT .getLatestLapMs id (fun r => by rw [step_getLatestLapMs hs r, if_pos hi]) rfl
  · rw [if_neg hi]
    simp only [strip_release, Prog.strip_pure]
    exact does_of_not_reads hT .getLatestLapMs id (fun r => by rw [step_getLatestLapMs hs r, if_neg hi]) rfl

/-- Every call does what it does at one of its instants. -/
theorem wp_code (hs : m.sw.gInited = true) (op : Op) :
    (code c op).strip.wp (Access.perform hw) T (Does hw T op m) m := by
  cases op with
  | start => exact wp_stopwatchStart hT hs
  | stop => exact wp_stopwatchStop hT hs
  | reset => exact wp_stopwatchReset hT hs
  | lap => exact wp_stopwatchLap hT hs
  | clearLaps => exact wp_stopwatchClearLaps hT hs
  | getState => exact wp_stopwatchGetState hT hs
  | getTotalMs => exact wp_stopwatchGetTotalMs hT hs
  | getLapCount => exact wp_stopwatchGetLapCount hT hs
  | getLapMs index => exact wp_stopwatchGetLapMs hT hs index
  | getLatestLapMs => exact wp_stopwatchGetLatestLapMs hT hs

end Locked

/-! ## The discipline of the calls -/

/-- The flag `g_inited` is set. -/
def SwMem.Inited (m : SwMem c) : Prop := m.sw.gInited = true

namespace Locked

theorem keeps_load (v : SwVar) : (load v).Keeps (Access.perform hw) (SwMem.Inited (c := c)) :=
  Prog.Keeps.access fun _ _ h => h

theorem keeps_store {v : SwVar} (hv : v ≠ .gInited) (x : v.Ty) : (store v x).Keeps (Access.perform hw) (SwMem.Inited (c := c)) := by
  refine Prog.Keeps.access fun t m h => ?_
  cases v with
  | gInited => exact absurd rfl hv
  | state | stateStartTick | accumulatedMs | stateStartUs | lastLapTotalMs | lapDurationsMs i | lapCount => exact h
  | cpuHz | dwtOk | lastCyc | totalCyc => exact h

theorem keeps_timebaseGetUs : timebaseGetUs.Keeps (Access.perform hw) (SwMem.Inited (c := c)) := by
  refine (keeps_load _).bind fun _ => Prog.Keeps.ite ?_ ?_
  · refine (Prog.Keeps.access fun _ _ h => h).bind fun _ => (keeps_load _).bind fun _ => ?_
    refine (keeps_store (by decide) _).bind fun _ => (keeps_load _).bind fun _ => ?_
    refine (keeps_store (by decide) _).bind fun _ => (keeps_load _).bind fun _ => ?_
    exact (keeps_load _).bind fun _ => Prog.Keeps.pure _
  · exact (Prog.Keeps.access fun _ _ h => h).bind fun _ => Prog.Keeps.pure _

theorem keeps_getNowTotalMsUnsafe : getNowTotalMsUnsafe.Keeps (Access.perform hw) (SwMem.Inited (c := c)) := by
  refine (keeps_load _).bind fun _ => (keeps_load _).bind fun _ => Prog.Keeps.ite ?_ (keeps_load _)
  refine keeps_timebaseGetUs.bind fun _ => (keeps_load _).bind fun _ => ?_
  exact (keeps_load _).bind fun _ => Prog.Keeps.pure _

theorem keeps_clearLaps (n i : ℕ) : (clearLaps n i).Keeps (Access.perform hw) (SwMem.Inited (c := c)) := by
  induction n generalizing i with
  | zero => exact Prog.Keeps.pure _
  | succ n ih => exact (keeps_store (by nofun) _).bind fun _ => ih _

theorem keeps_moveLaps (n i : ℕ) : (moveLaps n i).Keeps (Access.perform hw) (SwMem.Inited (c := c)) := by
  induction n generalizing i with
  | zero => exact Prog.Keeps.pure _
  | succ n ih => exact (keeps_load _).bind fun _ => (keeps_store (by nofun) _).bind fun _ => ih _

theorem keeps_stopBody : stopBody.Keeps (Access.perform hw) (SwMem.Inited (c := c)) := by
  refine (keeps_load _).bind fun _ => Prog.Keeps.ite ?_ (Prog.Keeps.pure _)
  refine (keeps_load _).bind fun _ => Prog.Keeps.ite (Prog.Keeps.bind ?_ fun _ => keeps_store (by decide) _) (keeps_store (by decide) _)
  refine keeps_timebaseGetUs.bind fun _ => (keeps_load _).bind fun _ => (keeps_load _).bind fun _ => ?_
  exact (keeps_store (by decide) _).bind fun _ => keeps_store (by decide) _

theorem keeps_resetBody : (resetBody c).Keeps (Access.perform hw) (SwMem.Inited (c := c)) := by
  refine (keeps_store (by decide) _).bind fun _ => (keeps_store (by decide) _).bind fun _ => ?_
  refine (keeps_store (by decide) _).bind fun _ => (keeps_clearLaps _ _).bind fun _ => (keeps_load _).bind fun _ => ?_
  refine Prog.Keeps.ite ?_ ((keeps_store (by decide) _).bind fun _ => keeps_store (by decide) _)
  refine (Prog.Keeps.access fun _ _ h => h).bind fun _ => (keeps_store (by decide) _).bind fun _ => ?_
  exact keeps_timebaseGetUs.bind fun _ => keeps_store (by decide) _

theorem keeps_lapBody : (lapBody c).Keeps (Access.perform hw) (SwMem.Inited (c := c)) := by
  refine keeps_getNowTotalMsUnsafe.bind fun _ => (keeps_load _).bind fun _ => ?_
  refine Prog.Keeps.bind ?_ fun _ => (keeps_store (by decide) _).bind fun _ => Prog.Keeps.pure _
  refine (keeps_load _).bind fun _ => Prog.Keeps.ite ?_ ?_
  · exact (keeps_store (by nofun) _).bind fun _ => keeps_store (by decide) _
  · exact (keeps_moveLaps _ _).bind fun _ => keeps_store (by nofun) _

theorem keeps_clearLapsBody : (clearLapsBody c).Keeps (Access.perform hw) (SwMem.Inited (c := c)) := by
  refine (keeps_store (by decide) _).bind fun _ => keeps_getNowTotalMsUnsafe.bind fun _ => ?_
  exact (keeps_store (by decide) _).bind fun _ => keeps_clearLaps _ _

theorem keeps_lapMsBody (index : UInt16) : (lapMsBody index).Keeps (Access.perform hw) (SwMem.Inited (c := c)) :=
  (keeps_load _).bind fun _ => Prog.Keeps.ite (keeps_load _) (Prog.Keeps.pure _)

theorem keeps_latestLapBody : latestLapBody.Keeps (Access.perform hw) (SwMem.Inited (c := c)) :=
  (keeps_load _).bind fun _ => Prog.Keeps.ite ((keeps_load _).bind fun _ => keeps_load _) (Prog.Keeps.pure _)

/-- The mutex is given back last. -/
theorem inside_release (x : Ret) : (do release; pure x : LockedCode Ret).Inside (Access.perform hw) (SwMem.Inited (c := c)) :=
  ⟨x, rfl⟩

/-- The flag is read, the mutex is taken, and the rest is inside the critical section. -/
theorem outside_whenInited (failed : RtErr → Ret) {body : LockedCode Ret}
    (hb : body.Inside (Access.perform hw) (SwMem.Inited (c := c))) :
    (whenInited failed (do take; body)).Outside (Access.perform hw) (SwMem.Inited (c := c)) :=
  ⟨true, fun _ _ hm => Prod.ext hm rfl, hb, rfl⟩

theorem outside_ifInited (v : Ret) {body : LockedCode Ret} (hb : body.Inside (Access.perform hw) (SwMem.Inited (c := c))) :
    (ifInited v (do take; body)).Outside (Access.perform hw) (SwMem.Inited (c := c)) :=
  ⟨true, fun _ _ hm => Prod.ext hm rfl, hb, rfl⟩

/-- Every call takes the mutex, accesses what it protects, and gives it back. -/
theorem outside_code (op : Op) : (code c op).Outside (Access.perform hw) (SwMem.Inited (c := c)) := by
  cases op with
  | start =>
    refine outside_whenInited _ ((keeps_load _).inside fun state => ?_)
    by_cases hr : state = .running
    · rw [if_pos hr]
      exact inside_release _
    · rw [if_neg hr]
      refine (Prog.Keeps.access fun _ _ h => h).inside fun _ => (keeps_store (by decide) _).inside fun _ => ?_
      refine keeps_timebaseGetUs.inside fun _ => (keeps_store (by decide) _).inside fun _ => ?_
      exact (keeps_store (by decide) _).inside fun _ => inside_release _
  | stop => exact outside_whenInited _ (keeps_stopBody.inside fun _ => inside_release _)
  | reset => exact outside_whenInited _ (keeps_resetBody.inside fun _ => inside_release _)
  | lap => exact outside_whenInited _ (keeps_lapBody.inside fun _ => inside_release _)
  | clearLaps => exact outside_ifInited _ (keeps_clearLapsBody.inside fun _ => inside_release _)
  | getState => exact outside_ifInited _ ((keeps_load _).inside fun _ => inside_release _)
  | getTotalMs => exact outside_ifInited _ (keeps_getNowTotalMsUnsafe.inside fun _ => inside_release _)
  | getLapCount => exact outside_ifInited _ ((keeps_load _).inside fun _ => inside_release _)
  | getLapMs index => exact outside_ifInited _ ((keeps_lapMsBody index).inside fun _ => inside_release _)
  | getLatestLapMs => exact outside_ifInited _ (keeps_latestLapBody.inside fun _ => inside_release _)

end Locked

end RtStopwatch
