import Mathlib.Algebra.Order.Field.Basic
import Mathlib.Data.Rat.Cast.Order
import Mathlib.Tactic.Linarith
import Mathlib.Tactic.NormNum
import RtStopwatch.Lemmas.Accuracy
import RtStopwatch.Lemmas.System

/-!
# The totals of the firmware

Over every interleaving of the shell, the light thread and the UI thread: every total a thread reads is within a millisecond a segment
of the true time spent RUNNING, as long as the cycle counter is read at least once in `2 ^ 32` cycles while RUNNING
(`total_accurate`). Nothing in the firmware sees to that: a slow refresh loses a whole turn of the counter
(`refresh_loses_a_wrap`).
-/

namespace RtStopwatch

open Lib

variable {c : Config}

/-! ## The true time beside the firmware -/

/-- What is kept beside the firmware: the instant of the last call of `timebase_get_us`, and the true time spent RUNNING. -/
structure Watch where
  last : Instant
  ideal : Ideal ℕ
  deriving DecidableEq, Repr

/-- At `stopwatch_init`. -/
def Watch.init : Watch := { last := ⟨0, 0⟩, ideal := Ideal.init 0 }

/-- A stopwatch call is noted. -/
def Watch.note (g : Watch) (s : Stopwatch c) (t : Instant) (op : Op) : Watch :=
  { last := if op.Reads s then t else g.last, ideal := g.ideal.step op t.cyc }

/-- The firmware, with the watch beside it. -/
def watchedMachine (c : Config) : Machine (System c × Watch) (Event × Instant) (Option (Op × Ret)) where
  step w e :=
    let (r, S) := (systemMachine c).step w.1 e
    (r, S, match r with
      | none => w.2
      | some (op, _) => w.2.note w.1.world.sw e.2 op)

/-- The watch does not change the firmware. -/
theorem watchedMachine_run_fst (w : System c × Watch) (es : List (Event × Instant)) :
    ((watchedMachine c).run w es).1 = (systemMachine c).run w.1 es :=
  Machine.run_map (f := Prod.fst) (fun _ _ => rfl) w es

/-- The watch after a run of events from `stopwatch_init`. -/
def Watch.after (c : Config) (hz : UInt32) (vars : Statics) (doPin : Bool) (es : List (Event × Instant)) : Watch :=
  ((watchedMachine c).run (System.boot c hz vars doPin, Watch.init) es).2

/-- What a stopwatch call has to keep to: a read of the clock while RUNNING comes less than `2 ^ 32` cycles after the last one, no
segment is opened at reading zero, and a total is asked for while the time spent RUNNING since the last reset, with a microsecond
more for each segment, is below `2 ^ 32` ms. -/
def CallKept (hz : UInt32) (w : System c × Watch) (t : Instant) (op : Op) : Prop :=
  (w.1.world.sw.state = .running → op.Reads w.1.world.sw → t.cyc < w.2.last.cyc + 2 ^ 32) ∧
  (op.Opens w.1.world.sw → (w.1.world.board.readingAt t).us ≠ 0) ∧
  (op = .getTotalMs →
    w.2.ideal.elapsed t.cyc * 1000000 + hz.toNat * w.2.ideal.count t.cyc < 1000 * hz.toNat * 2 ^ 32)

instance (hz : UInt32) (w : System c × Watch) (t : Instant) (op : Op) : Decidable (CallKept hz w t op) :=
  inferInstanceAs (Decidable (_ ∧ _ ∧ _))

/-- Every stopwatch call an event makes keeps to it. -/
def Kept (hz : UInt32) (w : System c × Watch) (e : Event × Instant) : Prop :=
  ∀ r ∈ (w.1.step e.1 e.2).1, CallKept hz w e.2 r.1

instance (hz : UInt32) (w : System c × Watch) (e : Event × Instant) : Decidable (Kept hz w e) :=
  match h : (w.1.step e.1 e.2).1 with
  | none => isTrue (by simp [Kept, h])
  | some r => decidable_of_iff (CallKept hz w e.2 r.1) (by simp [Kept, h])

/-- The account of `Accurate`, for the firmware and its watch. -/
def Watched (hz : UInt32) (w : System c × Watch) (now : ℕ) : Prop :=
  w.2.last.cyc ≤ now ∧
    ∃ acc i, Accurate hz w.1.core w.2.last.cyc acc i ∧ w.2.ideal = i.map Prod.fst

/-- The step lemma: an event that keeps to the conditions keeps the account. -/
theorem Watched.step {hz : UInt32} (hz0 : 0 < hz.toNat) {w : System c × Watch} {e : Event × Instant}
    (h : Watched hz w e.2.cyc) (hk : Kept hz w e) (hb : e.2.cyc * 1000000 < 2 ^ 64) :
    Watched hz ((watchedMachine c).step w e).2 e.2.cyc := by
  obtain ⟨hle, acc, i, hacc, hi⟩ := h
  have hstep : ((watchedMachine c).step w e).2 = ((w.1.step e.1 e.2).2, match (w.1.step e.1 e.2).1 with
      | none => w.2
      | some (op, _) => w.2.note w.1.world.sw e.2 op) := rfl
  rw [hstep]
  rcases w.1.step_cases e.1 e.2 with ⟨hnone, hcore⟩ | ⟨op, hsome, hcore⟩
  · rw [hnone]
    refine ⟨hle, acc, i, ?_, hi⟩
    rw [hcore]
    exact hacc.moveTo e.2
  · obtain ⟨hpoll, hopen, -⟩ := hk _ (by rw [hsome]; rfl)
    obtain ⟨acc', hacc'⟩ := hacc.step hz0 hle hb hpoll hopen
    rw [hsome]
    refine ⟨?_, acc', i.step op (e.2.cyc, (w.1.core.2.readingAt e.2).us.toNat), ?_, ?_⟩
    · show (if op.Reads w.1.world.sw then e.2 else w.2.last).cyc ≤ e.2.cyc
      split
      · exact Nat.le_refl _
      · exact hle
    · rw [hcore]
      rw [← apply_ite Instant.cyc] at hacc'
      exact hacc'
    · show w.2.ideal.step op e.2.cyc = _
      rw [hi, Ideal.map_step]

/-- The run lemma: so do runs of such events. -/
theorem watched_after {hz : UInt32} {vars : Statics} {doPin : Bool} {es : List (Event × Instant)}
    (hclock : Clocked (fun e => e.2.cyc) es) (hbound : ∀ e ∈ es, e.2.cyc * 1000000 < 2 ^ 64)
    (hkept : (watchedMachine c).Meets (Kept (bootHz hz)) (System.boot c hz vars doPin, Watch.init) es) {now : ℕ}
    (hnow : ∀ e ∈ es, e.2.cyc ≤ now) :
    Watched (bootHz hz) ((watchedMachine c).run (System.boot c hz vars doPin, Watch.init) es) now := by
  have hg := hkept.and (Machine.meets_of_forall (watchedMachine c) (G := fun _ e => e.2.cyc * 1000000 < 2 ^ 64)
    (fun e he _ => hbound e he) (System.boot c hz vars doPin, Watch.init))
  refine (watchedMachine c).run_clocked (fun e => e.2.cyc) (I := fun w t => Watched (bootHz hz) w t)
    (fun w t t' hle h => ⟨h.1.trans hle, h.2⟩) (fun w e hg h => h.step (bootHz_pos hz) hg.1 hg.2) ?_ hg hclock
    (fun _ _ => Nat.zero_le _) (Nat.zero_le now) hnow
  exact ⟨Nat.le_refl _, 0, Ideal.init (0, 0), Accurate.init hz, rfl⟩

/-- In milliseconds: a total within a millisecond of the true time below, and a microsecond above, for each segment. -/
theorem abs_total_sub_le {hz total cyc k : ℕ} (hz0 : 0 < hz) (h1 : 1000 * hz * total ≤ cyc * 1000000 + hz * k)
    (h2 : cyc * 1000000 ≤ 1000 * hz * total + 1000 * hz * k) :
    |(total : ℚ) - 1000 * cyc / hz| ≤ 1001 / 1000 * k := by
  have hq : (0 : ℚ) < hz := by exact_mod_cast hz0
  have h1' : (1000 * hz * total : ℚ) ≤ cyc * 1000000 + hz * k := by exact_mod_cast h1
  have h2' : (cyc * 1000000 : ℚ) ≤ 1000 * hz * total + 1000 * hz * k := by exact_mod_cast h2
  have hk : (0 : ℚ) ≤ k := Nat.cast_nonneg k
  have hup : (total : ℚ) - k / 1000 ≤ 1000 * cyc / hz := by
    rw [le_div_iff₀ hq]
    linarith
  have hlo : (1000 * cyc / hz : ℚ) ≤ total + k := by
    rw [div_le_iff₀ hq]
    linarith
  rw [abs_le]
  constructor <;> linarith

/-- The firmware's totals are accurate while its counter is read. Take any run of the shell, the light thread and the UI thread after
`stopwatch_init`, interleaved in any order, at true cycle counts that never go back and stay below `2 ^ 64 / 10 ^ 6`, in which every
stopwatch call keeps to `CallKept`. Then every value `stopwatch_get_total_ms` returns to any of them differs from the true time
spent RUNNING since the last reset by at most 1.001 ms a segment. -/
theorem total_accurate (c : Config) (hz : UInt32) (vars : Statics) (doPin : Bool) (es : List (Event × Instant))
    (hclock : Clocked (fun e => e.2.cyc) es) (hbound : ∀ e ∈ es, e.2.cyc * 1000000 < 2 ^ 64)
    (hkept : (watchedMachine c).Meets (Kept (bootHz hz)) (System.boot c hz vars doPin, Watch.init) es)
    (pre post : List (Event × Instant)) (e : Event) (t : Instant) (hes : es = pre ++ (e, t) :: post) (v : UInt32)
    (hv : ((systemMachine c).step ((systemMachine c).run (System.boot c hz vars doPin) pre) (e, t)).1 =
      some (.getTotalMs, .ms v)) :
    |(v.toNat : ℚ) - 1000 * ((Watch.after c hz vars doPin pre).ideal.elapsed t.cyc : ℕ) / (bootHz hz).toNat| ≤
      1001 / 1000 * ((Watch.after c hz vars doPin pre).ideal.count t.cyc : ℕ) := by
  subst hes
  obtain ⟨hpre, hlast⟩ := hkept.at_step
  obtain ⟨hclock', hnow⟩ := hclock.at_step
  have hb : t.cyc * 1000000 < 2 ^ 64 := hbound (e, t) (by simp)
  obtain ⟨hle, acc, i, hacc, hi⟩ := watched_after hclock' (fun x hx => hbound x (by simp [hx])) hpre hnow
  rw [← watchedMachine_run_fst (System.boot c hz vars doPin, Watch.init) pre] at hv
  unfold Watch.after
  generalize (watchedMachine c).run (System.boot c hz vars doPin, Watch.init) pre = w at hlast hle hacc hi hv ⊢
  have hs : w.1.core.1.gInited = true := hacc.counts.gInited
  have hz0 := bootHz_pos hz
  rcases w.1.step_cases e t with ⟨hnone, -⟩ | ⟨op, hsome, -⟩
  · have h := hnone.symm.trans hv
    cases h
  · obtain ⟨rfl, hret⟩ := Prod.mk.inj (Option.some.inj (hsome.symm.trans hv))
    rw [board_step_eq hs, step_getTotalMs hs, Ret.ms.injEq] at hret
    obtain ⟨hpoll, -, hfits⟩ := hlast _ (by rw [hsome]; rfl)
    obtain ⟨total, htotal, h1, h2⟩ := hacc.total hz0 hle hb fun hr => hpoll hr (hacc.live hr)
    rw [← hi] at h1 h2
    have hlt : total < 2 ^ 32 := by
      have hlt' := lt_of_le_of_lt h1 (hfits rfl)
      exact Nat.lt_of_mul_lt_mul_left hlt'
    have hvt : v.toNat = total := by
      rw [← hret, htotal, UInt32.toNat_ofNat', Nat.mod_eq_of_lt hlt]
    rw [hvt]
    exact abs_total_sub_le hz0 h1 h2

/-- `sw_start` a second after boot, and a second later a round of the UI thread up to its read of the total. -/
def startAndDraw : List (Event × Instant) :=
  [(.command .swStart, ⟨72000000, 1000⟩), (.shell, ⟨72000000, 1000⟩)] ++ List.replicate 3 (.ui, ⟨144000000, 2000⟩)

/-- Such a run satisfies the hypotheses. -/
theorem total_accurate_start_and_draw :
    |((1000 : UInt32).toNat : ℚ) - 1000 *
        ((Watch.after Config.standard 72000000 Statics.boot false startAndDraw).ideal.elapsed 144000000 : ℕ) /
        (bootHz 72000000).toNat| ≤
      1001 / 1000 * ((Watch.after Config.standard 72000000 Statics.boot false startAndDraw).ideal.count 144000000 : ℕ) :=
  total_accurate Config.standard 72000000 Statics.boot false
    (startAndDraw ++ [(Event.ui, (⟨144000000, 2000⟩ : Instant))]) (by unfold Clocked; decide) (by decide)
    ⟨by decide, by decide, by decide, by decide, by decide, by decide, trivial⟩ startAndDraw [] .ui ⟨144000000, 2000⟩ rfl 1000
    (by decide)

/-- `sw_oled_rate 65535`, `sw_start` with its beep, a round of the UI thread, which then sleeps 65535 ms, and its next round up to the
read of the total. -/
def slowRefresh : List (Event × Instant) :=
  [(.command (.swOledRate (some 65535)), ⟨72000000, 1000⟩), (.shell, ⟨72000000, 1000⟩), (.shell, ⟨72000000, 1000⟩),
    (.command .swStart, ⟨72072000, 1001⟩)] ++ List.replicate 5 (.shell, ⟨72072000, 1001⟩) ++
  List.replicate 18 (.ui, ⟨72144000, 1002⟩) ++ (.shell, ⟨75672000, 1051⟩) :: List.replicate 3 (.ui, ⟨4790664000, 66537⟩)

/-- The second draw shows 5883 ms where the stopwatch has been RUNNING for 65536 ms in one segment: a turn of the cycle counter
passed between the two reads. -/
theorem refresh_loses_a_wrap :
    Clocked (fun e => e.2.cyc) (slowRefresh ++ [(.ui, ⟨4790664000, 66537⟩)]) ∧
    (∀ e ∈ slowRefresh ++ [(Event.ui, (⟨4790664000, 66537⟩ : Instant))], e.2.cyc * 1000000 < 2 ^ 64) ∧
    ((systemMachine Config.standard).step ((systemMachine Config.standard).run
      (System.boot Config.standard 72000000 Statics.boot false) slowRefresh) (.ui, ⟨4790664000, 66537⟩)).1 =
      some (.getTotalMs, .ms 5883) ∧
    ¬|((5883 : UInt32).toNat : ℚ) - 1000 *
        ((Watch.after Config.standard 72000000 Statics.boot false slowRefresh).ideal.elapsed 4790664000 : ℕ) /
        (bootHz 72000000).toNat| ≤
      1001 / 1000 * ((Watch.after Config.standard 72000000 Statics.boot false slowRefresh).ideal.count 4790664000 : ℕ) := by
  have helapsed : (Watch.after Config.standard 72000000 Statics.boot false slowRefresh).ideal.elapsed 4790664000 =
      4718592000 := by decide +kernel
  have hcount : (Watch.after Config.standard 72000000 Statics.boot false slowRefresh).ideal.count 4790664000 = 1 := by
    decide +kernel
  have hhz : (bootHz 72000000).toNat = 72000000 := by decide
  have hms : (5883 : UInt32).toNat = 5883 := by decide
  refine ⟨by unfold Clocked; decide, by decide, by decide +kernel, ?_⟩
  rw [helapsed, hcount, hhz, hms]
  norm_num

end RtStopwatch
