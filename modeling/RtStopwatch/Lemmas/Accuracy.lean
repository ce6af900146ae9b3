import Mathlib.Algebra.BigOperators.Ring.List
import RtStopwatch.Lemmas.Board

/-!
# How far the total is from the true time

Every moment of a segment is a pair: the true cycle count, and the microseconds the time base read there. As long as the clock is read
often enough while RUNNING, no cycle of a segment is lost (`Accurate`), so its microseconds are its cycles' to within one
(`Close`), and the milliseconds the stopwatch counts for it are short by less than one more.
-/

namespace RtStopwatch

open Lib

variable {c : Config}

/-- Between two moments the microseconds are the cycles', at `hz`, to within one. -/
def Close (hz : UInt32) (a b : ℕ × ℕ) : Prop :=
  (b.2 - a.2) * hz.toNat < (b.1 - a.1) * 1000000 + hz.toNat ∧ (b.1 - a.1) * 1000000 < (b.2 - a.2) * hz.toNat + hz.toNat

/-- The milliseconds counted for such a segment, against its cycles. -/
theorem Close.ms_bounds {hz : UInt32} {a b : ℕ × ℕ} (h : Close hz a b) :
    1000 * hz.toNat * ((b.2 - a.2) / 1000) ≤ (b.1 - a.1) * 1000000 + hz.toNat ∧
      (b.1 - a.1) * 1000000 ≤ 1000 * hz.toNat * ((b.2 - a.2) / 1000) + 1000 * hz.toNat := by
  obtain ⟨h1, h2⟩ := h
  generalize b.2 - a.2 = u at h1 h2 ⊢
  have hlo : 1000 * hz.toNat * (u / 1000) ≤ u * hz.toNat := by
    rw [Nat.mul_right_comm]
    exact Nat.mul_le_mul_right _ (Nat.mul_div_le u 1000)
  have hhi : u * hz.toNat ≤ 1000 * hz.toNat * (u / 1000) + 999 * hz.toNat := by
    rw [Nat.mul_right_comm, ← Nat.add_mul]
    exact Nat.mul_le_mul_right _ (by omega)
  constructor
  · omega
  · omega

/-- The stopwatch on the board, against an ideal one whose moments are pairs of true counts and readings. The time base was last
read at the true count `last`, with `acc` cycles accumulated; since the open segment began, none was lost. -/
structure Accurate (hz : UInt32) (w : Stopwatch c × Board) (last acc : ℕ) (i : Ideal (ℕ × ℕ)) : Prop where
  synced : Synced hz acc last w.2
  acc_le : acc ≤ last
  counts : Counts w.1 (i.map Prod.snd) (acc * 1000000 / hz.toNat)
  opened : i.OpenedAt fun p => p.2 ≠ 0
  closed : ∀ p ∈ i.closed, Close hz p.1 p.2
  since : i.state = .running →
    ∃ a₀ ≤ acc, i.since.2 = a₀ * 1000000 / hz.toNat ∧ i.since.1 ≤ last ∧ i.since.1 + acc = a₀ + last

theorem Accurate.init (hz : UInt32) : Accurate (bootHz hz) (initialised c hz true) 0 0 (Ideal.init (0, 0)) where
  synced := synced_init hz
  acc_le := Nat.le_refl _
  counts := Counts.fresh _
  opened := Ideal.openedAt_init _
  closed := nofun
  since := nofun

section Step

variable {hz : UInt32} {w : Stopwatch c × Board} {last acc : ℕ} {i : Ideal (ℕ × ℕ)}

theorem Accurate.moveTo (h : Accurate hz w last acc i) (t : Instant) : Accurate hz (w.1, w.2.moveTo t) last acc i :=
  { h with synced := h.synced.moveTo t }

theorem Accurate.state (h : Accurate hz w last acc i) : w.1.state = i.state := h.counts.state

theorem Accurate.live (h : Accurate hz w last acc i) (hr : w.1.state = .running) : w.1.Live := by
  refine ⟨hr, ?_⟩
  intro h0
  apply h.opened.2 (h.state ▸ hr)
  have hs := h.counts.since hr
  rw [h0] at hs
  exact hs.symm

/-- What the time base has accumulated once it is read at `t`. -/
def accAt (last acc : ℕ) (t : Instant) : ℕ := acc + (t.cyc - last) % 2 ^ 32

theorem accAt_of_lt {t : Instant} (hle : last ≤ t.cyc) (hlt : t.cyc < last + 2 ^ 32) :
    accAt last acc t = acc + (t.cyc - last) := by
  rw [accAt, Nat.mod_eq_of_lt (by omega)]

theorem Accurate.accAt_le (h : Accurate hz w last acc i) {t : Instant} (hle : last ≤ t.cyc) : accAt last acc t ≤ t.cyc := by
  have h1 := h.acc_le
  have h2 := Nat.mod_le (t.cyc - last) (2 ^ 32)
  unfold accAt
  omega

/-- A read of the clock at `t`. -/
theorem Accurate.read (h : Accurate hz w last acc i) {t : Instant} (hle : last ≤ t.cyc) (hb : t.cyc * 1000000 < 2 ^ 64) :
    (w.2.readingAt t).us.toNat = accAt last acc t * 1000000 / hz.toNat ∧
      Synced hz (accAt last acc t) t.cyc ((w.2.moveTo t).getUs).2 := by
  obtain ⟨hus, hsync⟩ := h.synced.getUs hle
  refine ⟨?_, hsync⟩
  have hlt : accAt last acc t * 1000000 < 2 ^ 64 := lt_of_le_of_lt (Nat.mul_le_mul_right _ (h.accAt_le hle)) hb
  show ((w.2.moveTo t).getUs).1.toNat = _
  rw [hus]
  exact usOfCyc_toNat_of_lt hz hlt

theorem le_reading {t : Instant} : acc * 1000000 / hz.toNat ≤ accAt last acc t * 1000000 / hz.toNat :=
  Nat.div_le_div_right (Nat.mul_le_mul_right _ (Nat.le_add_right _ _))

/-- The count, as of a read at `t`. -/
theorem Accurate.counts_at (h : Accurate hz w last acc i) {t : Instant} (hle : last ≤ t.cyc) (hb : t.cyc * 1000000 < 2 ^ 64) :
    Counts w.1 (i.map Prod.snd) (w.2.readingAt t).us.toNat := by
  rw [(h.read hle hb).1]
  exact h.counts.mono le_reading

/-- The open segment up to a read at `t`, soon enough after the last. -/
theorem Accurate.close (hz0 : 0 < hz.toNat) (h : Accurate hz w last acc i) {t : Instant} (hle : last ≤ t.cyc)
    (hb : t.cyc * 1000000 < 2 ^ 64) (hlt : t.cyc < last + 2 ^ 32) (hr : i.state = .running) :
    Close hz i.since (t.cyc, (w.2.readingAt t).us.toNat) := by
  obtain ⟨a₀, ha₀, hu, hl, hsum⟩ := h.since hr
  have hacc : accAt last acc t = acc + (t.cyc - last) := accAt_of_lt hle hlt
  have hn : t.cyc - i.since.1 = accAt last acc t - a₀ := by omega
  unfold Close
  show ((w.2.readingAt t).us.toNat - i.since.2) * _ < (t.cyc - i.since.1) * _ + _ ∧ (t.cyc - i.since.1) * _ < _
  rw [(h.read hle hb).1, hu, hn]
  exact floor_diff_bounds 1000000 hz0 (by omega)

/-- The step lemma: a call at `t` keeps the account, provided the clock is read soon enough while RUNNING and no segment is opened at
reading zero. -/
theorem Accurate.step (hz0 : 0 < hz.toNat) (h : Accurate hz w last acc i) {op : Op} {t : Instant} (hle : last ≤ t.cyc)
    (hb : t.cyc * 1000000 < 2 ^ 64) (hpoll : w.1.state = .running → op.Reads w.1 → t.cyc < last + 2 ^ 32)
    (hopen : op.Opens w.1 → (w.2.readingAt t).us ≠ 0) :
    ∃ acc', Accurate hz ((boardPlatform.machine c).step w (op, t)).2 (if op.Reads w.1 then t.cyc else last) acc'
      (i.step op (t.cyc, (w.2.readingAt t).us.toNat)) := by
  have hs := h.counts.gInited
  obtain ⟨hus, hsync⟩ := h.read hle hb
  have hcounts := (h.counts_at hle hb).step op
  rw [← Ideal.map_step Prod.snd i op (t.cyc, (w.2.readingAt t).us.toNat)] at hcounts
  rw [board_step_eq hs (op, t)]
  have hne : op.Opens w.1 → (w.2.readingAt t).us.toNat ≠ 0 := fun ho h0 => hopen ho (UInt64.toNat_inj.mp h0)
  rcases step_cases hs h.state op (w.2.readingAt t) (t.cyc, (w.2.readingAt t).us.toNat) with
    ⟨he, hi⟩ | ⟨rfl, hr, he, hi⟩ | ⟨rfl, hr, he, hi⟩ | ⟨rfl, hr, he, hi⟩ | ⟨rfl, hr, he, hi⟩
  · rw [hi]
    by_cases hreads : op.Reads w.1
    · rw [if_pos hreads, if_pos hreads]
      refine ⟨accAt last acc t, hsync, h.accAt_le hle, (h.counts.mono le_reading).of_sameTime he, h.opened, h.closed, ?_⟩
      intro hr
      obtain ⟨a₀, ha₀, hu, hl, hsum⟩ := h.since hr
      have hacc : accAt last acc t = acc + (t.cyc - last) := accAt_of_lt hle (hpoll (h.state.trans hr) hreads)
      exact ⟨a₀, by omega, hu, by omega, by omega⟩
    · rw [if_neg hreads, if_neg hreads]
      exact ⟨acc, h.synced.moveTo t, h.acc_le, h.counts.of_sameTime he, h.opened, h.closed, h.since⟩
  · have hreads : Op.start.Reads w.1 := hr
    rw [if_pos hreads, if_pos hreads]
    refine ⟨accAt last acc t, hsync, h.accAt_le hle, hcounts.mono hus.le, ?_, ?_, ?_⟩
    all_goals rw [hi]
    · exact ⟨h.opened.1, fun _ => hne hr⟩
    · exact h.closed
    · exact fun _ => ⟨accAt last acc t, Nat.le_refl _, hus, Nat.le_refl _, Nat.add_comm _ _⟩
  · have hreads : Op.stop.Reads w.1 := h.live hr
    have hclose := h.close hz0 hle hb (hpoll hr hreads) (h.state ▸ hr)
    rw [if_pos hreads, if_pos hreads]
    refine ⟨accAt last acc t, hsync, h.accAt_le hle, hcounts.mono hus.le, ?_, ?_, ?_⟩
    all_goals rw [hi]
    · exact ⟨List.forall_mem_append.mpr ⟨h.opened.1, List.forall_mem_singleton.mpr (h.opened.2 (h.state ▸ hr))⟩, nofun⟩
    · exact List.forall_mem_append.mpr ⟨h.closed, List.forall_mem_singleton.mpr hclose⟩
    · exact nofun
  · have hreads : Op.reset.Reads w.1 := hr
    rw [if_pos hreads, if_pos hreads]
    refine ⟨accAt last acc t, hsync, h.accAt_le hle, hcounts.mono hus.le, ?_, ?_, ?_⟩
    all_goals rw [hi]
    · exact ⟨nofun, fun _ => hne hr⟩
    · exact nofun
    · exact fun _ => ⟨accAt last acc t, Nat.le_refl _, hus, Nat.le_refl _, Nat.add_comm _ _⟩
  · have hreads : ¬Op.reset.Reads w.1 := hr
    rw [if_neg hreads, if_neg hreads]
    have hidle : ((w.1.step .reset (w.2.readingAt t)).2).state = .idle := by rw [he]
    have hnr : ((w.1.step .reset (w.2.readingAt t)).2).state ≠ .running := by rw [hidle]; nofun
    refine ⟨acc, h.synced.moveTo t, h.acc_le, { hcounts with since_le := fun hr' => absurd hr' hnr }, ?_, ?_, ?_⟩
    all_goals rw [hi]
    · exact ⟨nofun, nofun⟩
    · exact nofun
    · exact nofun

/-- The total at a read, against the true cycles: with every segment close, less than a millisecond a segment is lost, and at most a
microsecond a segment gained. -/
theorem Accurate.total (hz0 : 0 < hz.toNat) (h : Accurate hz w last acc i) {t : Instant} (hle : last ≤ t.cyc)
    (hb : t.cyc * 1000000 < 2 ^ 64) (hpoll : w.1.state = .running → t.cyc < last + 2 ^ 32) :
    ∃ total, w.1.totalAt (w.2.readingAt t).us = UInt32.ofNat total ∧
      1000 * hz.toNat * total ≤
        (i.map Prod.fst).elapsed t.cyc * 1000000 + hz.toNat * (i.map Prod.fst).count t.cyc ∧
      (i.map Prod.fst).elapsed t.cyc * 1000000 ≤
        1000 * hz.toNat * total + 1000 * hz.toNat * (i.map Prod.fst).count t.cyc := by
  have hc := h.counts_at hle hb
  have hopen : ∀ p ∈ (i.map Prod.snd).segments (w.2.readingAt t).us.toNat, p.1 ≠ 0 := by
    rw [Ideal.segments_map Prod.snd i (t.cyc, (w.2.readingAt t).us.toNat)]
    intro p hp
    obtain ⟨q, hq, rfl⟩ := List.mem_map.mp hp
    exact h.opened.segments _ q hq
  have hclose : ∀ p ∈ i.segments (t.cyc, (w.2.readingAt t).us.toNat), Close hz p.1 p.2 :=
    Ideal.forall_mem_segments h.closed fun hr => h.close hz0 hle hb (hpoll (h.state.trans hr)) hr
  refine ⟨(i.map Prod.snd).totalMs (w.2.readingAt t).us.toNat, ?_, ?_⟩
  · rw [hc.totalAt, Ideal.countedMs_eq_totalMs hopen]
  · have hms := Ideal.measure_map Prod.snd i (fun a b => (b - a) / 1000) (t.cyc, (w.2.readingAt t).us.toNat)
    have hcyc := Ideal.measure_map Prod.fst i (fun a b => b - a) (t.cyc, (w.2.readingAt t).us.toNat)
    have hk := Ideal.count_map Prod.fst i (t.cyc, (w.2.readingAt t).us.toNat)
    rw [Ideal.totalMs, Ideal.elapsed, hms, hcyc, hk, ← List.sum_map_mul_left, ← List.sum_map_mul_right]
    exact ⟨sum_map_le_add fun p hp => (hclose p hp).ms_bounds.1, sum_map_le_add fun p hp => (hclose p hp).ms_bounds.2⟩

end Step

end RtStopwatch
