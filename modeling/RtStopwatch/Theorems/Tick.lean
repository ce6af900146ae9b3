import RtStopwatch.Lemmas.Board

/-!
# The tick fallback

Without a cycle counter `timebase_get_us` converts the 32-bit tick as it stands, so its readings go back when the counter
wraps. Over every run of calls on such a board, the readings never decrease and every total is the true number of ticks spent
RUNNING, modulo `2 ^ 32`, exactly when the counter never reads lower than at an earlier call that read it
(`tick_path_exact_iff`).
-/

namespace RtStopwatch

open Lib

variable {c : Config}

/-- The length of a segment in true ticks. -/
def ticks (a b : ℕ) : ℕ := b - a

/-- The stopwatch on the tick path counts the true ticks of an ideal stopwatch. `seen` is the counter at the last call that
read the clock. -/
structure TickCounts (s : Stopwatch c) (b : Board) (i : Ideal ℕ) (seen now : ℕ) : Prop where
  gInited : s.gInited = true
  dwtOk : b.tb.dwtOk = false
  state : s.state = i.state
  since : s.state = .running → s.stateStartUs.toNat = i.since % 2 ^ 32 * 1000
  since_ne : s.state = .running → i.since % 2 ^ 32 ≠ 0
  since_seen : s.state = .running → i.since % 2 ^ 32 ≤ seen
  since_le : s.state = .running → i.since ≤ now
  accumulatedMs : s.accumulatedMs = UInt32.ofNat (i.closedMeasure ticks)

theorem TickCounts.init (hz : UInt32) :
    TickCounts (initialised c hz false).1 (initialised c hz false).2 (Ideal.init 0) 0 0 :=
  ⟨rfl, dwtOk_init_false hz, rfl, nofun, nofun, nofun, nofun, rfl⟩

theorem TickCounts.mono {s : Stopwatch c} {b : Board} {i : Ideal ℕ} {seen now now' : ℕ} (hle : now ≤ now')
    (h : TickCounts s b i seen now) : TickCounts s b i seen now' :=
  { h with since_le := fun hr => (h.since_le hr).trans hle }

theorem TickCounts.live {s : Stopwatch c} {b : Board} {i : Ideal ℕ} {seen now : ℕ} (h : TickCounts s b i seen now) :
    s.Live ↔ s.state = .running := by
  refine ⟨fun hl => hl.1, fun hr => ⟨hr, fun h0 => h.since_ne hr ?_⟩⟩
  have := h.since hr
  rw [h0] at this
  have h00 : (0 : UInt64).toNat = 0 := rfl
  omega

/-- The difference of two counters, the second not below the first, is the difference of the true counts modulo `2 ^ 32`. -/
theorem ofNat_sub_mod {a b : ℕ} (hle : a ≤ b) (h : a % 2 ^ 32 ≤ b % 2 ^ 32) :
    UInt32.ofNat (b % 2 ^ 32 - a % 2 ^ 32) = UInt32.ofNat (b - a) := by
  rw [← UInt32.toNat_inj, UInt32.toNat_ofNat', UInt32.toNat_ofNat']
  omega

/-- At a call whose counter is not below the last one seen, the total is the ticks spent RUNNING. -/
theorem TickCounts.totalAt {s : Stopwatch c} {b : Board} {i : Ideal ℕ} {seen : ℕ} {t : Instant}
    (h : TickCounts s b i seen t.tick) (hseen : s.state = .running → seen ≤ t.tick % 2 ^ 32) :
    s.totalAt (b.readingAt t).us = UInt32.ofNat (i.elapsed t.tick) := by
  by_cases hr : s.state = .running
  · have hus : (b.readingAt t).us.toNat = t.tick % 2 ^ 32 * 1000 := (getUs_of_no_dwt h.dwtOk t).1
    have hcnt : i.since % 2 ^ 32 ≤ t.tick % 2 ^ 32 := (h.since_seen hr).trans (hseen hr)
    have hle : s.stateStartUs.toNat ≤ (b.readingAt t).us.toNat := by
      rw [h.since hr, hus]
      exact Nat.mul_le_mul_right _ hcnt
    have hms : (t.tick % 2 ^ 32 * 1000 - i.since % 2 ^ 32 * 1000) / 1000 = t.tick % 2 ^ 32 - i.since % 2 ^ 32 := by
      omega
    rw [Stopwatch.totalAt, if_pos (h.live.mpr hr), msSince_eq hle, h.since hr, hus, hms,
      ofNat_sub_mod (h.since_le hr) hcnt, h.accumulatedMs, ← UInt32.ofNat_add]
    exact congrArg _ (Ideal.measure_of_running (h.state ▸ hr) ticks t.tick).symm
  · rw [Stopwatch.totalAt, if_neg (fun hl => hr hl.1), h.accumulatedMs]
    exact congrArg _ (Ideal.measure_of_not_running (h.state ▸ hr) ticks t.tick).symm

/-- Reading the clock or not, the board stays without a cycle counter. -/
theorem dwtOk_step {b : Board} (h : b.tb.dwtOk = false) (t : Instant) (p : Prop) [Decidable p] :
    (if p then ((b.moveTo t).getUs).2 else b.moveTo t).tb.dwtOk = false := by
  rw [(getUs_of_no_dwt h t).2, ite_self]
  exact h

/-- The step lemma: a call keeps the count, provided the counter it reads is not below the last one seen, and is not zero when it
opens a segment. -/
theorem TickCounts.step {w : Stopwatch c × Board} {i : Ideal ℕ} {seen : ℕ} {op : Op} {t : Instant}
    (h : TickCounts w.1 w.2 i seen t.tick) (hseen : op.Reads w.1 → seen ≤ t.tick % 2 ^ 32)
    (hopen : op.Opens w.1 → t.tick % 2 ^ 32 ≠ 0) :
    TickCounts ((boardPlatform.machine c).step w (op, t)).2.1 ((boardPlatform.machine c).step w (op, t)).2.2
      (i.step op t.tick) (if op.Reads w.1 then t.tick % 2 ^ 32 else seen) t.tick := by
  have hs := h.gInited
  have hd := dwtOk_step h.dwtOk t (op.Reads w.1)
  have hus : (w.2.readingAt t).us.toNat = t.tick % 2 ^ 32 * 1000 := (getUs_of_no_dwt h.dwtOk t).1
  have hge : seen ≤ if op.Reads w.1 then t.tick % 2 ^ 32 else seen := by
    split
    · exact hseen ‹_›
    · exact Nat.le_refl _
  rw [board_step_eq hs (op, t)]
  rcases step_cases hs h.state op (w.2.readingAt t) t.tick with
    ⟨he, hi⟩ | ⟨rfl, hr, he, hi⟩ | ⟨rfl, hr, he, hi⟩ | ⟨rfl, hr, he, hi⟩ | ⟨rfl, hr, he, hi⟩
  · rw [hi]
    exact {
      gInited := he.gInited.trans hs
      dwtOk := hd
      state := he.state.trans h.state
      since := fun hr => by rw [he.stateStartUs]; exact h.since (he.state ▸ hr)
      since_ne := fun hr => h.since_ne (he.state ▸ hr)
      since_seen := fun hr => (h.since_seen (he.state ▸ hr)).trans hge
      since_le := fun hr => h.since_le (he.state ▸ hr)
      accumulatedMs := he.accumulatedMs.trans h.accumulatedMs }
  · have hreads : Op.start.Reads w.1 := hr
    rw [he, hi]
    refine ⟨hs, hd, rfl, fun _ => hus, fun _ => hopen hr, fun _ => ?_, fun _ => Nat.le_refl _, h.accumulatedMs⟩
    rw [if_pos hreads]
  · rw [he, hi]
    refine ⟨hs, hd, rfl, nofun, nofun, nofun, nofun, ?_⟩
    show w.1.totalAt (w.2.readingAt t).us = _
    rw [h.totalAt (fun _ => hseen (h.live.mpr hr)), Ideal.closedMeasure_append]
    exact congrArg _ (Ideal.measure_of_running (h.state ▸ hr) ticks t.tick)
  · have hreads : Op.reset.Reads w.1 := hr
    rw [he, hi]
    refine ⟨hs, hd, h.state, fun _ => hus, fun _ => hopen hr, fun _ => ?_, fun _ => Nat.le_refl _, rfl⟩
    rw [if_pos hreads]
  · rw [he, hi]
    exact ⟨hs, hd, rfl, nofun, nofun, nofun, nofun, rfl⟩

/-! ## Whole runs -/

/-- The stopwatch on the tick path after a run of calls. -/
def tickAfter (c : Config) (hz : UInt32) (es : List (Op × Instant)) : Stopwatch c × Board :=
  (boardPlatform.machine c).run (initialised c hz false) es

/-- The ideal stopwatch after the same calls, in true ticks. -/
def Ideal.afterTicks (es : List (Op × Instant)) : Ideal ℕ := (Ideal.machine Instant.tick).run (Ideal.init 0) es

/-- What `timebase_get_us` returned at each call of a run on the tick path: the counter in microseconds. -/
theorem clockReads_us {w : Stopwatch c × Board} (hs : w.1.gInited = true) (hd : w.2.tb.dwtOk = false)
    (es : List (Op × Instant)) :
    (clockReads w es).map (fun r => r.2.toNat) = (clockReads w es).map fun r => r.1.tick % 2 ^ 32 * 1000 := by
  induction es generalizing w with
  | nil => rfl
  | cons e es ih =>
    have hw := board_step_eq hs e
    have ih' := ih (w := ((boardPlatform.machine c).step w e).2)
      (by rw [hw]; exact step_gInited hs e.1 _) (by rw [hw]; exact dwtOk_step hd e.2 _)
    simp only [clockReads]
    split
    · rw [List.map_cons, List.map_cons, ih']
      congr 1
      exact (getUs_of_no_dwt hd e.2).1
    · exact ih'

/-- The run lemma: over a run whose clock-reading calls never see the counter go back, the ticks are counted. -/
theorem tickCounts_after {hz : UInt32} {es : List (Op × Instant)} (hclock : Clocked (fun e => e.2.tick) es)
    (hopen : (boardPlatform.machine c).Meets (fun w e => e.1.Opens w.1 → e.2.tick % 2 ^ 32 ≠ 0) (initialised c hz false) es)
    (hseen : (readMachine c).Meets (fun w e => e.1.Reads w.1.1 → w.2.tick % 2 ^ 32 ≤ e.2.tick % 2 ^ 32)
      (initialised c hz false, ⟨0, 0⟩) es) {now : ℕ} (hnow : ∀ e ∈ es, e.2.tick ≤ now) :
    TickCounts (tickAfter c hz es).1 (tickAfter c hz es).2 (Ideal.afterTicks es)
      (((readMachine c).run (initialised c hz false, ⟨0, 0⟩) es).2.tick % 2 ^ 32) now := by
  have hg := (Machine.meets_map (M := readMachine c) (N := (readMachine c).prod (Ideal.machine Instant.tick))
    (f := Prod.fst) (fun _ _ => rfl) ((initialised c hz false, ⟨0, 0⟩), Ideal.init 0) es).mpr
    ((meets_readMachine hopen ⟨0, 0⟩).and hseen)
  have h := ((readMachine c).prod (Ideal.machine Instant.tick)).run_clocked (fun e => e.2.tick)
    (I := fun w t => TickCounts w.1.1.1 w.1.1.2 w.2 (w.1.2.tick % 2 ^ 32) t)
    (fun _ _ _ hle h => h.mono hle)
    (fun w e hg h => by
      have hs := h.step hg.2 hg.1
      rw [← apply_ite fun i : Instant => i.tick % 2 ^ 32] at hs
      exact hs)
    (TickCounts.init hz) hg hclock (fun _ _ => Nat.zero_le _) (Nat.zero_le now) hnow
  rw [Machine.run_prod] at h
  have hfst := readMachine_run_fst (initialised c hz false, ⟨0, 0⟩) es
  simp only [hfst] at h
  exact h

/-- The tick path is exact while the counter is never seen to go back. For every run of calls at true ticks that never go back,
every segment of which is opened at a counter that is not zero: the values `timebase_get_us` returns never decrease and every
`stopwatch_get_total_ms` returns the true number of ticks spent RUNNING since the last reset, modulo `2 ^ 32`, if and only if
the counter (the true ticks modulo `2 ^ 32`) is never lower at a call that reads the clock than at an earlier one. -/
theorem tick_path_exact_iff (c : Config) (hz : UInt32) (es : List (Op × Instant))
    (hclock : Clocked (fun e => e.2.tick) es)
    (hopen : (boardPlatform.machine c).Meets (fun w e => e.1.Opens w.1 → e.2.tick % 2 ^ 32 ≠ 0) (initialised c hz false) es) :
    (((clockReads (initialised c hz false) es).map fun r => r.2.toNat).Pairwise (· ≤ ·) ∧
      ∀ pre t post, es = pre ++ (.getTotalMs, t) :: post →
        ((boardPlatform.machine c).step (tickAfter c hz pre) (.getTotalMs, t)).1 =
          .ms (UInt32.ofNat ((Ideal.afterTicks pre).elapsed t.tick))) ↔
    ((clockReads (initialised c hz false) es).map fun r => r.1.tick % 2 ^ 32).Pairwise (· ≤ ·) := by
  rw [clockReads_us rfl (dwtOk_init_false hz)]
  constructor
  · rintro ⟨h, -⟩
    rw [List.pairwise_map] at h ⊢
    exact h.imp fun hab => Nat.le_of_mul_le_mul_right hab (by decide)
  · intro h
    refine ⟨?_, ?_⟩
    · rw [List.pairwise_map] at h ⊢
      exact h.imp fun hab => Nat.mul_le_mul_right _ hab
    · rintro pre t post rfl
      have hchain : ((⟨0, 0⟩ : Instant) :: (clockReads (initialised c hz false) (pre ++ (.getTotalMs, t) :: post)).map
          Prod.fst).IsChain fun a b => a.tick % 2 ^ 32 ≤ b.tick % 2 ^ 32 := by
        apply List.Pairwise.isChain
        rw [List.pairwise_cons, List.pairwise_map]
        rw [List.pairwise_map] at h
        exact ⟨fun _ _ => Nat.zero_le _, h⟩
      obtain ⟨hseen, hread⟩ := (meets_of_clockReads hchain).at_step
      obtain ⟨hpre, hnow⟩ := hclock.at_step
      have hcounts := tickCounts_after hpre hopen.at_step.1 hseen hnow
      rw [board_step_eq hcounts.gInited, step_getTotalMs hcounts.gInited, hcounts.totalAt]
      intro hr
      apply hread
      rw [readMachine_run_fst]
      exact hcounts.live.mpr hr

/-- A segment of two seconds on the tick path satisfies the hypotheses and the condition. -/
theorem tick_path_exact_two_seconds :
    ((boardPlatform.machine Config.standard).step (tickAfter Config.standard 72000000 [(.start, ⟨0, 1000⟩)])
      (.getTotalMs, ⟨0, 3000⟩)).1 = .ms 2000 :=
  ((tick_path_exact_iff Config.standard 72000000 [(.start, ⟨0, 1000⟩), (.getTotalMs, ⟨0, 3000⟩)]
    (by unfold Clocked; decide)
    ⟨by decide, by decide, trivial⟩).mpr (by decide)).2 [(.start, ⟨0, 1000⟩)] ⟨0, 3000⟩ [] rfl

/-- A start a second before the tick counter wraps and a query a second after: the reading goes back, and the total is 1271312319
where the stopwatch has been RUNNING for 2000 ticks. -/
theorem tick_wrap_jumps :
    (2 ^ 32 - 1000) % 2 ^ 32 ≠ 0 ∧ (2 ^ 32 + 1000) - (2 ^ 32 - 1000) < 2 ^ 32 ∧
    ¬(((clockReads (initialised Config.standard 72000000 false)
        [(.start, ⟨0, 2 ^ 32 - 1000⟩), (.getTotalMs, ⟨0, 2 ^ 32 + 1000⟩)]).map fun r => r.2.toNat).Pairwise (· ≤ ·)) ∧
    ((boardPlatform.machine Config.standard).step (tickAfter Config.standard 72000000 [(.start, ⟨0, 2 ^ 32 - 1000⟩)])
        (.getTotalMs, ⟨0, 2 ^ 32 + 1000⟩)).1 = .ms 1271312319 ∧
    (Ideal.afterTicks [(.start, ⟨0, 2 ^ 32 - 1000⟩)]).elapsed (2 ^ 32 + 1000) = 2000 := by
  decide

end RtStopwatch
