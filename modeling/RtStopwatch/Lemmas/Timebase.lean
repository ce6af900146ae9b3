import RtStopwatch.Timebase

/-!
# What the time base counts

`Synced` ties the statics of `timebase.c` to the true cycle count: `last` is the true count at the last call, and `acc` the cycles
accumulated, unbounded. A call at a later instant adds the gap modulo `2 ^ 32`; nothing else is ever added.
-/

namespace RtStopwatch

/-- `timebase_get_us` on the cycle counter. -/
theorem timebaseGetUs_of_dwt {b : Timebase} (h : b.dwtOk = true) (w : Hw) :
    timebaseGetUs b w =
      ((b.totalCyc + (w.cyccnt - b.lastCyc).toUInt64) * 1000000 / b.cpuHz.toUInt64,
        { b with lastCyc := w.cyccnt, totalCyc := b.totalCyc + (w.cyccnt - b.lastCyc).toUInt64 }) :=
  if_pos h

/-- `timebase_get_us` on the kernel tick. -/
theorem timebaseGetUs_of_no_dwt {b : Timebase} (h : b.dwtOk = false) (w : Hw) :
    timebaseGetUs b w = (w.rtTick.toUInt64 * 1000000 / rtTickPerSecond, b) :=
  if_neg (by simp [h])

/-- The time base runs on the cycle counter at `hz`, was last read at the true count `last`, and has accumulated `acc` cycles. -/
structure Synced (hz : UInt32) (acc last : ℕ) (b : Board) : Prop where
  dwtOk : b.tb.dwtOk = true
  cpuHz : b.tb.cpuHz = hz
  lastCyc : b.tb.lastCyc = UInt32.ofNat last
  totalCyc : b.tb.totalCyc = UInt64.ofNat acc

/-- What `timebase_get_us` returns once `acc` cycles are accumulated: the product wraps at 64 bits before the division. -/
def usOfCyc (hz : UInt32) (acc : ℕ) : UInt64 := UInt64.ofNat acc * 1000000 / hz.toUInt64

theorem usOfCyc_toNat (hz : UInt32) (acc : ℕ) : (usOfCyc hz acc).toNat = acc * 1000000 % 2 ^ 64 / hz.toNat := by
  rw [usOfCyc, UInt64.toNat_div, UInt64.toNat_mul, UInt64.toNat_ofNat', UInt32.toNat_toUInt64]
  show acc % 2 ^ 64 * 1000000 % 2 ^ 64 / hz.toNat = _
  rw [Nat.mod_mul_mod]

/-- While the product fits 64 bits the microseconds are exact, rounded down. -/
theorem usOfCyc_toNat_of_lt (hz : UInt32) {acc : ℕ} (h : acc * 1000000 < 2 ^ 64) :
    (usOfCyc hz acc).toNat = acc * 1000000 / hz.toNat := by
  rw [usOfCyc_toNat, Nat.mod_eq_of_lt h]

/-- The rate `timebase_init` settles on: the clock of the core, or the default where that reads 0. -/
def bootHz (hz : UInt32) : UInt32 := if hz ≠ 0 then hz else 72000000

theorem bootHz_of_ne {hz : UInt32} (h : hz ≠ 0) : bootHz hz = hz := if_pos h

theorem bootHz_pos (hz : UInt32) : 0 < (bootHz hz).toNat := by
  unfold bootHz
  split
  · rename_i h
    exact Nat.pos_of_ne_zero fun h0 => h (UInt32.toNat_inj.mp h0)
  · decide

/-- `timebase_init` takes over the clock of the core, unless that reads 0. -/
theorem cpuHz_init (b : Board) :
    b.init.tb.cpuHz = if b.hw.systemCoreClock ≠ 0 then b.hw.systemCoreClock else b.tb.cpuHz := by
  cases hdwt : b.hw.hasDwt with
  | false =>
    simp only [Board.init, timebaseInit, dwtInit, hdwt, Bool.false_eq_true, if_false]
    exact apply_ite Timebase.cpuHz _ _ _
  | true =>
    simp only [Board.init, timebaseInit, dwtInit, hdwt, if_true]
    exact apply_ite Timebase.cpuHz _ _ _

/-- `timebase_init` where the cycle counter is found, whatever the statics were. -/
theorem synced_init_of_dwt {b : Board} (h : b.hw.hasDwt = true) : Synced b.init.tb.cpuHz 0 0 b.init := by
  refine ⟨?_, rfl, ?_, ?_⟩
  all_goals
    simp only [Board.init, timebaseInit, dwtInit, h]
    rfl

/-- `timebase_init` on a core with a cycle counter. -/
theorem synced_init (hz : UInt32) : Synced (bootHz hz) 0 0 (Board.boot hz true).init := by
  have hcpu : (Board.boot hz true).init.tb.cpuHz = bootHz hz := cpuHz_init _
  exact hcpu ▸ synced_init_of_dwt rfl

theorem Synced.moveTo {hz : UInt32} {acc last : ℕ} {b : Board} (h : Synced hz acc last b) (i : Instant) :
    Synced hz acc last (b.moveTo i) :=
  ⟨h.dwtOk, h.cpuHz, h.lastCyc, h.totalCyc⟩

/-- The counter difference of the code is the gap between the true counts, modulo `2 ^ 32`. -/
theorem cyc_delta {a b : ℕ} (h : a ≤ b) : (UInt32.ofNat b - UInt32.ofNat a).toUInt64 = UInt64.ofNat ((b - a) % 2 ^ 32) := by
  rw [← UInt32.ofNat_sub h, ← UInt64.ofNat_uInt32ToNat, UInt32.toNat_ofNat']

/-- A call of `timebase_get_us` at an instant: the gap since the last call, modulo `2 ^ 32`, is accumulated. -/
theorem Synced.getUs {hz : UInt32} {acc last : ℕ} {b : Board} (h : Synced hz acc last b) {i : Instant}
    (hle : last ≤ i.cyc) :
    ((b.moveTo i).getUs).1 = usOfCyc hz (acc + (i.cyc - last) % 2 ^ 32) ∧
      Synced hz (acc + (i.cyc - last) % 2 ^ 32) i.cyc ((b.moveTo i).getUs).2 := by
  obtain ⟨h1, h2, h3, h4⟩ := h
  have ht : b.tb.totalCyc + ((UInt32.ofNat i.cyc) - b.tb.lastCyc).toUInt64 =
      UInt64.ofNat (acc + (i.cyc - last) % 2 ^ 32) := by
    rw [h3, h4, cyc_delta hle, UInt64.ofNat_add]
  have hg : timebaseGetUs b.tb (b.hw.moveTo i) =
      (usOfCyc hz (acc + (i.cyc - last) % 2 ^ 32),
        { b.tb with lastCyc := UInt32.ofNat i.cyc, totalCyc := UInt64.ofNat (acc + (i.cyc - last) % 2 ^ 32) }) := by
    rw [timebaseGetUs_of_dwt h1, usOfCyc, ← ht, ← h2]
    rfl
  have hb : (b.moveTo i).getUs = ((timebaseGetUs b.tb (b.hw.moveTo i)).1,
      { b.moveTo i with tb := (timebaseGetUs b.tb (b.hw.moveTo i)).2 }) := rfl
  rw [hb, hg]
  exact ⟨rfl, h1, h2, rfl, rfl⟩

/-- A call less than `2 ^ 32` cycles after the last one loses nothing. -/
theorem Synced.getUs_of_lt {hz : UInt32} {acc last : ℕ} {b : Board} (h : Synced hz acc last b) {i : Instant}
    (hle : last ≤ i.cyc) (hlt : i.cyc < last + 2 ^ 32) :
    ((b.moveTo i).getUs).1 = usOfCyc hz (acc + (i.cyc - last)) ∧
      Synced hz (acc + (i.cyc - last)) i.cyc ((b.moveTo i).getUs).2 := by
  have hg := h.getUs hle
  rwa [Nat.mod_eq_of_lt (by omega)] at hg

/-! ## The tick path -/

/-- The time base without a cycle counter: `timebase_init` found none. -/
theorem dwtOk_init_false (hz : UInt32) : (Board.boot hz false).init.tb.dwtOk = false := by
  simp [Board.init, Board.boot, timebaseInit, dwtInit]

/-- What `timebase_get_us` returns without a cycle counter: the 32-bit tick, in microseconds. -/
theorem getUs_of_no_dwt {b : Board} (h : b.tb.dwtOk = false) (i : Instant) :
    ((b.moveTo i).getUs).1.toNat = i.tick % 2 ^ 32 * 1000 ∧ ((b.moveTo i).getUs).2 = b.moveTo i := by
  have hb : (b.moveTo i).getUs = ((timebaseGetUs b.tb (b.hw.moveTo i)).1,
      { b.moveTo i with tb := (timebaseGetUs b.tb (b.hw.moveTo i)).2 }) := rfl
  rw [hb, timebaseGetUs_of_no_dwt h]
  refine ⟨?_, rfl⟩
  show ((UInt32.ofNat i.tick).toUInt64 * 1000000 / rtTickPerSecond).toNat = _
  rw [UInt64.toNat_div, UInt64.toNat_mul, UInt32.toNat_toUInt64, UInt32.toNat_ofNat']
  show i.tick % 2 ^ 32 * 1000000 % 2 ^ 64 / 1000 = _
  omega

end RtStopwatch
