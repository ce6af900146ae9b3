import RtStopwatch.Lib.Counter
import RtStopwatch.Lemmas.Timebase

/-!
# What the wrap tracking counts

`timebase_get_us` adds the difference of two 32-bit readings to `total_cyc`. Over every sequence of calls, at gaps of any length,
that is the sum of the gaps modulo `2 ^ 32` (`Synced.run`), and so `total_cyc` falls behind by whole wraps of the counter, one gap
at a time, and never catches up (`wrap_tracking`).
-/

namespace RtStopwatch

open Lib

/-- A run of calls accumulates the gaps modulo `2 ^ 32`. -/
theorem Synced.run {hz : UInt32} {acc last : ℕ} {b : Board} (h : Synced hz acc last b) {is : List Instant}
    (hle : (last :: is.map Instant.cyc).IsChain (· ≤ ·)) :
    Synced hz (acc + ((gaps last (is.map Instant.cyc)).map (· % 2 ^ 32)).sum) ((is.map Instant.cyc).getLastD last)
      (timebaseMachine.run b is) := by
  induction is generalizing acc last b with
  | nil => exact h
  | cons i is ih =>
    rw [List.map_cons, List.isChain_cons_cons] at hle
    obtain ⟨hi, hrest⟩ := hle
    rw [List.map_cons, gaps, List.map_cons, List.sum_cons, List.getLastD_cons, ← Nat.add_assoc, Machine.run_cons]
    exact ih (h.getUs hi).2 hrest

/-- What the wrap tracking counts. On any board with a cycle counter, after `timebase_init` and any number of calls of
`timebase_get_us` at true counts that never go back, at any gaps: `total_cyc` is the sum of the gaps modulo `2 ^ 32`, modulo
`2 ^ 64`, `last_cyc` is the true count modulo `2 ^ 32`, and so `total_cyc` agrees with the true count modulo `2 ^ 32`. While the true
count is below `2 ^ 64`, `total_cyc` is at most the true count, is equal to it if and only if every gap so far was below `2 ^ 32`, and
is short of it by the whole wraps in each gap. -/
theorem wrap_tracking (b : Board) (hdwt : b.hw.hasDwt = true) (is : List Instant) (hclocked : Clocked Instant.cyc is) :
    let tb := (timebaseMachine.run b.init is).tb
    let gs := gaps 0 (is.map Instant.cyc)
    let now := (is.map Instant.cyc).getLastD 0
    tb.totalCyc.toNat = (gs.map (· % 2 ^ 32)).sum % 2 ^ 64 ∧
    tb.lastCyc.toNat = now % 2 ^ 32 ∧
    tb.totalCyc.toNat % 2 ^ 32 = now % 2 ^ 32 ∧
    (now < 2 ^ 64 →
      tb.totalCyc.toNat ≤ now ∧
      (tb.totalCyc.toNat = now ↔ ∀ g ∈ gs, g < 2 ^ 32) ∧
      tb.totalCyc.toNat + (gs.map fun g => g / 2 ^ 32 * 2 ^ 32).sum = now) := by
  intro tb gs now
  have hchain : (0 :: is.map Instant.cyc).IsChain (· ≤ ·) :=
    List.isChain_iff_pairwise.mpr (List.pairwise_cons.mpr ⟨fun c _ => Nat.zero_le c, hclocked⟩)
  have hsync := (synced_init_of_dwt hdwt).run hchain
  have htotal : tb.totalCyc.toNat = (gs.map (· % 2 ^ 32)).sum % 2 ^ 64 := by
    rw [hsync.totalCyc, Nat.zero_add, UInt64.toNat_ofNat']
  have hlast : tb.lastCyc.toNat = now % 2 ^ 32 := by
    rw [hsync.lastCyc, UInt32.toNat_ofNat']
  have hnow : gs.sum = now := by
    have hsum := add_sum_gaps hchain
    rwa [Nat.zero_add] at hsum
  refine ⟨htotal, hlast, ?_, ?_⟩
  · rw [htotal, Nat.mod_mod_of_dvd _ (by decide), sum_mod_mod, hnow]
  · intro hlt
    have hsplit := sum_mod_add_sum_lost (2 ^ 32) gs
    have hexact : tb.totalCyc.toNat = (gs.map (· % 2 ^ 32)).sum := by
      rw [htotal, Nat.mod_eq_of_lt (by omega)]
    have hzero := sum_lost_eq_zero_iff (show 0 < 2 ^ 32 by decide) gs
    refine ⟨by omega, ?_, by omega⟩
    rw [← hzero]
    omega

/-- Three calls at 72 MHz: just before the counter wraps, two and a half wraps later, and at once. The second gap loses two wraps. -/
theorem wrap_tracking_long_gap :
    (timebaseMachine.run (Board.boot 72000000 true).init
        [⟨4294967295, 0⟩, ⟨4294967295 + 5 * 2 ^ 31, 0⟩, ⟨4294967295 + 5 * 2 ^ 31, 0⟩]).tb.totalCyc.toNat + 2 * 2 ^ 32 =
      4294967295 + 5 * 2 ^ 31 := by
  have h := wrap_tracking (Board.boot 72000000 true) rfl
    [⟨4294967295, 0⟩, ⟨4294967295 + 5 * 2 ^ 31, 0⟩, ⟨4294967295 + 5 * 2 ^ 31, 0⟩] (by simp [Clocked])
  exact (h.2.2.2 (by decide)).2.2

end RtStopwatch
