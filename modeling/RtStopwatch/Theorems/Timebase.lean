import Mathlib.Data.List.Chain
import RtStopwatch.Lemmas.Timebase

/-!
# The readings of the time base

Over every sequence of calls of `timebase_get_us` on the cycle counter, at gaps below `2 ^ 32` cycles: the counter's wraps are all
accounted for, and the microseconds are exact exactly as long as the product with 1000000 fits 64 bits (`timebase_exact_iff`);
at 72 MHz that is the first 71 hours.
-/

namespace RtStopwatch

open Lib

/-- True counts that never go back and never advance by `2 ^ 32` or more at once. -/
def CloseReads (cs : List ℕ) : Prop := cs.IsChain fun a b => a ≤ b ∧ b < a + 2 ^ 32

/-- At gaps below `2 ^ 32` cycles every call returns the microseconds of the true count, the product reduced to 64 bits. -/
theorem timebase_outs {hz : UInt32} {a : ℕ} {b : Board} (h : Synced hz a a b) {is : List Instant}
    (hgap : CloseReads (a :: is.map Instant.cyc)) :
    (timebaseMachine.outs b is).map UInt64.toNat = is.map fun i => i.cyc * 1000000 % 2 ^ 64 / hz.toNat := by
  induction is generalizing a b with
  | nil => rfl
  | cons i is ih =>
    rw [List.map_cons, CloseReads, List.isChain_cons_cons] at hgap
    obtain ⟨⟨hle, hlt⟩, hrest⟩ := hgap
    obtain ⟨hus, hs⟩ := h.getUs_of_lt hle hlt
    rw [Nat.add_sub_cancel' hle] at hus hs
    rw [Machine.outs_cons, List.map_cons, List.map_cons]
    congr 1
    · show ((b.moveTo i).getUs).1.toNat = _
      rw [hus, usOfCyc_toNat]
    · exact ih hs hrest

/-- Past 64 bits the reading falls short: the reduced product is smaller by at least `2 ^ 64`, more than any `cpu_hz`. -/
theorem mod_div_eq_div_iff {x hz : ℕ} (hpos : 0 < hz) (hlt : hz < 2 ^ 32) :
    x % 2 ^ 64 / hz = x / hz ↔ x < 2 ^ 64 := by
  constructor
  · intro h
    by_contra hge
    have hx : x % 2 ^ 64 + hz ≤ x := by omega
    have : x % 2 ^ 64 / hz + 1 ≤ x / hz := by
      rw [← Nat.add_div_right _ hpos]
      exact Nat.div_le_div_right hx
    omega
  · intro h
    rw [Nat.mod_eq_of_lt h]

/-- The time base is exact, and so monotonic, exactly while the microsecond product fits 64 bits. For every `cpu_hz` and every
sequence of calls after `timebase_init` at true counts that never go back and whose gaps are below `2 ^ 32` cycles: every call
returns the microseconds of its true count, rounded down, and the values never decrease, if and only if every true count `c` has
`c * 1000000 < 2 ^ 64`. -/
theorem timebase_exact_iff (hz : UInt32) (hpos : hz ≠ 0) (is : List Instant)
    (hgap : CloseReads (0 :: is.map Instant.cyc)) :
    ((timebaseMachine.outs (Board.boot hz true).init is).map UInt64.toNat =
        is.map (fun i => i.cyc * 1000000 / hz.toNat) ∧
      ((timebaseMachine.outs (Board.boot hz true).init is).map UInt64.toNat).Pairwise (· ≤ ·)) ↔
    ∀ i ∈ is, i.cyc * 1000000 < 2 ^ 64 := by
  have hz0 : 0 < hz.toNat := Nat.pos_of_ne_zero fun h => hpos (UInt32.toNat_inj.mp h)
  rw [timebase_outs (bootHz_of_ne hpos ▸ synced_init hz) hgap]
  constructor
  · rintro ⟨h, -⟩ i hi
    rw [List.map_inj_left] at h
    exact (mod_div_eq_div_iff hz0 hz.toNat_lt).mp (h i hi)
  · intro h
    have he : is.map (fun i => i.cyc * 1000000 % 2 ^ 64 / hz.toNat) = is.map fun i => i.cyc * 1000000 / hz.toNat := by
      rw [List.map_inj_left]
      exact fun i hi => (mod_div_eq_div_iff hz0 hz.toNat_lt).mpr (h i hi)
    refine ⟨he, ?_⟩
    have hsorted : (is.map Instant.cyc).Pairwise (· ≤ ·) :=
      (List.isChain_iff_pairwise.mp (hgap.imp fun _ _ hab => hab.1)).tail
    rw [he, List.pairwise_map]
    rw [List.pairwise_map] at hsorted
    exact hsorted.imp fun hab => Nat.div_le_div_right (Nat.mul_le_mul_right _ hab)

/-- Three calls across a wrap of the counter, at 72 MHz, satisfy the hypotheses and the condition. -/
theorem timebase_exact_across_wrap :
    (timebaseMachine.outs (Board.boot 72000000 true).init [⟨72, 0⟩, ⟨4294967295, 0⟩, ⟨4294967367, 0⟩]).map UInt64.toNat =
      [1, 59652323, 59652324] :=
  ((timebase_exact_iff 72000000 (by decide) [⟨72, 0⟩, ⟨4294967295, 0⟩, ⟨4294967367, 0⟩]
    (by simp [CloseReads])).mpr (by decide)).1

/-- One call every `2 ^ 32 - 1` cycles, for 71 hours at 72 MHz. -/
def longRun : List Instant := (List.range 4297).map fun k => { cyc := k * (2 ^ 32 - 1), tick := 0 }

/-- The gaps of `longRun` are below `2 ^ 32`. -/
theorem longRun_closeReads : CloseReads (0 :: longRun.map Instant.cyc) := by
  unfold CloseReads
  rw [List.isChain_iff_getElem]
  intro k hk
  cases k with
  | zero => simp [longRun]
  | succ k =>
    simp only [longRun, List.length_cons, List.length_map, List.length_range] at hk
    simp only [longRun, List.getElem_cons_succ, List.getElem_map, List.getElem_range]
    constructor <;> omega

/-- At 72 MHz and after 71 hours of calls at gaps below `2 ^ 32` cycles the reading is not the microseconds of the true count: the
product wrapped at 64 bits. -/
theorem timebase_wraps_after_71_hours :
    CloseReads (0 :: longRun.map Instant.cyc) ∧
    ¬((timebaseMachine.outs (Board.boot 72000000 true).init longRun).map UInt64.toNat =
        longRun.map (fun i => i.cyc * 1000000 / 72000000) ∧
      ((timebaseMachine.outs (Board.boot 72000000 true).init longRun).map UInt64.toNat).Pairwise (· ≤ ·)) := by
  refine ⟨longRun_closeReads, ?_⟩
  rintro ⟨h, -⟩
  rw [timebase_outs (synced_init 72000000) longRun_closeReads, List.map_inj_left] at h
  have hmem : (⟨4296 * (2 ^ 32 - 1), 0⟩ : Instant) ∈ longRun :=
    List.mem_map.mpr ⟨4296, List.mem_range.mpr (by decide), rfl⟩
  exact absurd (h _ hmem) (by decide)

end RtStopwatch
