import RtStopwatch.Theorems.Laps

/-!
# The representation invariant

What every reachable `stopwatch_ctx_t` satisfies: the lap array is in order, a stopwatch that is not RUNNING has no start reading,
an IDLE one is all zero, and the base of the next lap is never ahead of the total, as long as the total has not wrapped.
-/

namespace RtStopwatch

open Lib

variable {c : Config}

/-- The invariant that does not mention the clock. -/
structure Stopwatch.Inv (s : Stopwatch c) : Prop where
  gInited : s.gInited = true
  table : s.TableOk
  stopped : s.state ≠ .running → s.stateStartUs = 0
  idle : s.state = .idle → s.accumulatedMs = 0 ∧ s.lastLapTotalMs = 0 ∧ ∀ j, s.slot j = 0

/-- A lap of zero on an array of zeros leaves an array of zeros. -/
theorem slot_storeLap_zero {s : Stopwatch c} (h : ∀ j, s.slot j = 0) (j : ℕ) : (s.storeLap 0).slot j = 0 := by
  by_cases hlt : s.lapCount.toNat < c.maxLaps
  · rw [slot_storeLap_of_lt hlt]
    split
    · rfl
    · exact h j
  · rw [slot_storeLap_of_full hlt]
    split
    · rfl
    · exact h (j + 1)

theorem Stopwatch.Inv.fresh : (Stopwatch.fresh c).Inv where
  gInited := rfl
  table := tableOk_of_cleared rfl rfl
  stopped _ := rfl
  idle _ := ⟨rfl, rfl, slot_of_cleared rfl⟩

/-- The laps of an IDLE stopwatch: a call that leaves it IDLE leaves them zero, since its total is zero. -/
theorem slot_step_of_idle {s : Stopwatch c} (h : s.Inv) (hidle : s.state = .idle) (op : Op) (r : Reading) :
    (s.step op r).2.lastLapTotalMs = 0 ∧ ∀ j, (s.step op r).2.slot j = 0 := by
  obtain ⟨ha, hl, hz⟩ := h.idle hidle
  have hlive : ¬s.Live := by
    intro hlive
    rw [hlive.1] at hidle
    cases hidle
  have ht : s.totalAt r.us = 0 := by rw [Stopwatch.totalAt, if_neg hlive, ha]
  rcases step_table_cases h.gInited op r with ⟨-, -, -, he⟩ | ⟨rfl, he⟩ | ⟨-, -, hv, hbase⟩
  · refine ⟨he.lastLapTotalMs.trans hl, ?_⟩
    intro j
    rw [he.slot]
    exact hz j
  · rw [he, ht, hl]
    exact ⟨rfl, slot_storeLap_zero hz⟩
  · refine ⟨?_, slot_of_cleared hv⟩
    rw [hbase, ht, ite_self]

/-- The step lemma: every call keeps the invariant. -/
theorem Stopwatch.Inv.step {s : Stopwatch c} (h : s.Inv) (op : Op) (r : Reading) : (s.step op r).2.Inv := by
  have hs := h.gInited
  have hg := step_gInited hs op r
  have ht := h.table.step hs op r
  rcases step_cases (i := { Ideal.init 0 with state := s.state }) hs rfl op r 0 with
    ⟨he, -⟩ | ⟨-, -, he, -⟩ | ⟨-, -, he, -⟩ | ⟨-, hr, he, -⟩ | ⟨-, -, he, -⟩
  · refine ⟨hg, ht, ?_, ?_⟩
    · intro hn
      rw [he.stateStartUs]
      exact h.stopped (he.state ▸ hn)
    · intro hidle
      rw [he.state] at hidle
      exact ⟨he.accumulatedMs.trans (h.idle hidle).1, slot_step_of_idle h hidle op r⟩
  · rw [he] at hg ht ⊢
    exact ⟨hg, ht, fun hn => absurd rfl hn, nofun⟩
  · rw [he] at hg ht ⊢
    exact ⟨hg, ht, fun _ => rfl, nofun⟩
  · rw [he] at hg ht ⊢
    exact ⟨hg, ht, fun hn => absurd hr hn, fun _ => ⟨rfl, rfl, slot_of_cleared rfl⟩⟩
  · rw [he] at hg ht ⊢
    exact ⟨hg, ht, fun _ => rfl, fun _ => ⟨rfl, rfl, slot_of_cleared rfl⟩⟩

theorem inv_after (c : Config) (es : List (Op × Reading)) : (Stopwatch.after c es).Inv :=
  (stopwatchMachine c).run_invariant (I := fun s => s.Inv) (fun _ e h => h.step e.1 e.2) Stopwatch.Inv.fresh es

/-! ## The base of the next lap -/

/-- The base of the next lap is, modulo `2 ^ 32`, a count the segments have already reached. -/
structure LapBased (s : Stopwatch c) (i : Ideal ℕ) (now : ℕ) : Prop extends Counts s i now where
  base : ∃ b, s.lastLapTotalMs = UInt32.ofNat b ∧ b ≤ i.countedMs now

theorem LapBased.mono {s : Stopwatch c} {i : Ideal ℕ} {now now' : ℕ} (hle : now ≤ now') (h : LapBased s i now) :
    LapBased s i now' := by
  obtain ⟨b, hb, hbl⟩ := h.base
  exact ⟨h.toCounts.mono hle, b, hb, hbl.trans (i.measure_mono (fun a _ _ => segmentMs_mono a) hle)⟩

/-- As long as the total does not overflow, the base of the next lap is at most the total. -/
theorem LapBased.base_le {s : Stopwatch c} {i : Ideal ℕ} {us : UInt64} (h : LapBased s i us.toNat)
    (hlt : i.countedMs us.toNat < 2 ^ 32) : s.lastLapTotalMs ≤ s.totalAt us := by
  obtain ⟨b, hb, hle⟩ := h.base
  rw [UInt32.le_iff_toNat_le, hb, h.totalAt, UInt32.toNat_ofNat', UInt32.toNat_ofNat', Nat.mod_eq_of_lt hlt,
    Nat.mod_eq_of_lt (hle.trans_lt hlt)]
  exact hle

theorem LapBased.step {s : Stopwatch c} {i : Ideal ℕ} {r : Reading} (h : LapBased s i r.us.toNat) (op : Op) :
    LapBased (s.step op r).2 (i.step op r.us.toNat) r.us.toNat := by
  refine ⟨h.toCounts.step op, ?_⟩
  rcases step_table_cases h.gInited op r with ⟨-, ho, -, he⟩ | ⟨rfl, he⟩ | ⟨rfl | rfl, -, -, hbase⟩
  · rw [he.lastLapTotalMs, Ideal.countedMs, i.measure_step segmentMs_self ho]
    exact h.base
  · rw [he]
    exact ⟨_, h.totalAt, Nat.le_refl _⟩
  · exact ⟨0, hbase, Nat.zero_le _⟩
  · exact ⟨_, hbase.trans h.totalAt, Nat.le_refl _⟩

theorem lapBased_after {es : List (Op × Reading)} (hclock : Clocked (fun e => e.2.us.toNat) es) {now : ℕ}
    (hnow : ∀ e ∈ es, e.2.us.toNat ≤ now) : LapBased (Stopwatch.after c es) (Ideal.after es) now := by
  have h := ((stopwatchMachine c).prod (Ideal.machine fun r : Reading => r.us.toNat)).run_clocked
    (fun e => e.2.us.toNat) (G := fun _ _ => True) (I := fun w t => LapBased w.1 w.2 t)
    (fun _ _ _ hle h => h.mono hle) (fun _ e _ h => h.step e.1) (s := (Stopwatch.fresh c, Ideal.init 0))
    ⟨Counts.fresh 0, 0, rfl, Nat.zero_le _⟩ (Machine.meets_of_forall _ (fun _ _ _ => trivial) _) hclock
    (fun _ _ => Nat.zero_le _) (Nat.zero_le now) hnow
  rw [Machine.run_prod] at h
  exact h

/-- The representation invariant. After any run of calls under a clock that never goes back: the lap count is within the array and
every slot from it on is zero; a stopwatch that is not RUNNING has a start reading of zero; an IDLE one has accumulated nothing,
has a lap base of zero and has recorded only laps of zero; and at any reading from then on, while the milliseconds counted since
the last reset are below `2 ^ 32`, the lap base is at most the total, so that the subtraction of a lap does not wrap. -/
theorem representation_invariant (c : Config) (es : List (Op × Reading)) (hclock : Clocked (fun e => e.2.us.toNat) es) :
    (Stopwatch.after c es).lapCount.toNat ≤ c.maxLaps ∧
    (∀ j (hj : j < c.maxLaps), (Stopwatch.after c es).lapCount.toNat ≤ j →
      (Stopwatch.after c es).lapDurationsMs.get ⟨j, hj⟩ = 0) ∧
    ((Stopwatch.after c es).state ≠ .running → (Stopwatch.after c es).stateStartUs = 0) ∧
    ((Stopwatch.after c es).state = .idle →
      (Stopwatch.after c es).accumulatedMs = 0 ∧ (Stopwatch.after c es).lastLapTotalMs = 0 ∧
      ∀ x ∈ (Stopwatch.after c es).laps, x = 0) ∧
    ∀ now : Reading, (∀ e ∈ es, e.2.us.toNat ≤ now.us.toNat) → (Ideal.after es).countedMs now.us.toNat < 2 ^ 32 →
      ∃ total : UInt32, ((Stopwatch.after c es).step .getTotalMs now).1 = .ms total ∧
        (Stopwatch.after c es).lastLapTotalMs ≤ total ∧
        (total - (Stopwatch.after c es).lastLapTotalMs).toNat =
          total.toNat - (Stopwatch.after c es).lastLapTotalMs.toNat := by
  have hinv := inv_after c es
  refine ⟨hinv.table.count_le, ?_, hinv.stopped, ?_, ?_⟩
  · intro j hj hle
    have h := hinv.table.beyond j hle
    rw [Stopwatch.slot, Vector.getElem?_eq_getElem hj] at h
    exact h
  · intro hidle
    obtain ⟨ha, hl, hz⟩ := hinv.idle hidle
    refine ⟨ha, hl, ?_⟩
    intro x hx
    obtain ⟨j, hj⟩ := List.mem_iff_getElem?.mp hx
    rw [getElem?_laps hinv.table] at hj
    split at hj
    · rw [← Option.some.inj hj]
      exact hz j
    · cases hj
  · intro now hnow hlt
    have h := lapBased_after (c := c) hclock hnow
    have hle := h.base_le hlt
    exact ⟨_, by rw [step_getTotalMs hinv.gInited], hle, UInt32.toNat_sub_of_le _ _ hle⟩

/-- A run with laps in all three states satisfies the hypothesis; its last lap base is 2 ms. -/
theorem representation_invariant_run :
    (Stopwatch.after Config.standard [(.lap, ⟨0, 0⟩), (.start, ⟨5, 0⟩), (.stop, ⟨2500, 3⟩), (.lap, ⟨9000, 9⟩)]).lapCount.toNat ≤
      20 :=
  (representation_invariant Config.standard [(.lap, ⟨0, 0⟩), (.start, ⟨5, 0⟩), (.stop, ⟨2500, 3⟩), (.lap, ⟨9000, 9⟩)]
    (by unfold Clocked; decide)).1

end RtStopwatch
