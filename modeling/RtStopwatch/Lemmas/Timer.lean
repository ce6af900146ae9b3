import RtStopwatch.Lib.Queue
import RtStopwatch.Timer

/-!
# Timers over a wrapping tick

The code on its 32-bit ticks (`TickArith.wrapping`) does what it does on true counts (`TickArith.exact`), as long as no timer of the
list is overdue by too much (`Punctual`). `Timers.Sorted` is the invariant on the true side, `SameTimers` relates the two.
-/

namespace RtStopwatch

open Lib

/-! ## The comparisons -/

theorem wrapping_goesBefore {a b : ℕ} (hb : b < a + 0x7FFFFFFF) (ha : a ≤ b + 0x80000001) :
    TickArith.wrapping.goesBefore (UInt32.ofNat a) (UInt32.ofNat b) = TickArith.exact.goesBefore a b := by
  have hmax : (tickMax / 2).toNat = 0x7FFFFFFF := by decide
  have hsub : (UInt32.ofNat b - UInt32.ofNat a).toNat = (4294967296 - a % 4294967296 + b % 4294967296) % 4294967296 := by
    rw [UInt32.toNat_sub]
    simp
  have hne : (UInt32.ofNat b - UInt32.ofNat a ≠ 0) ↔ (UInt32.ofNat b - UInt32.ofNat a).toNat ≠ 0 := by
    rw [Ne, Ne, ← UInt32.toNat_inj]
    rfl
  have hlt : (UInt32.ofNat b - UInt32.ofNat a < tickMax / 2) ↔ (UInt32.ofNat b - UInt32.ofNat a).toNat < 0x7FFFFFFF := by
    rw [UInt32.lt_iff_toNat_lt, hmax]
  have hiff : (UInt32.ofNat b - UInt32.ofNat a ≠ 0 ∧ UInt32.ofNat b - UInt32.ofNat a < tickMax / 2) ↔ a < b := by
    rw [hne, hlt, hsub]
    omega
  simp only [TickArith.wrapping, TickArith.exact, ← hiff, Bool.decide_and]

theorem wrapping_reached {now t : ℕ} (ht : t ≤ now + 0x80000001) (hnow : now < t + 0x7FFFFFFF) :
    TickArith.wrapping.reached (UInt32.ofNat now) (UInt32.ofNat t) = TickArith.exact.reached now t := by
  have hmax : (tickMax / 2).toNat = 0x7FFFFFFF := by decide
  have hsub : (UInt32.ofNat now - UInt32.ofNat t).toNat = (4294967296 - t % 4294967296 + now % 4294967296) % 4294967296 := by
    rw [UInt32.toNat_sub]
    simp
  have hiff : (UInt32.ofNat now - UInt32.ofNat t < tickMax / 2) ↔ t ≤ now := by
    rw [UInt32.lt_iff_toNat_lt, hmax, hsub]
    omega
  simp only [TickArith.wrapping, TickArith.exact, ← hiff]

theorem wrapping_add (t : ℕ) (d : UInt32) :
    TickArith.wrapping.add (UInt32.ofNat t) d = UInt32.ofNat (TickArith.exact.add t d) := by
  show UInt32.ofNat t + d = UInt32.ofNat (t + d.toNat)
  rw [UInt32.ofNat_add, UInt32.ofNat_toNat]

/-! ## The two runs -/

variable {ι τ : Type}

/-- The same timer, the one with a timeout of 32 bits and the other with the true one. -/
structure SameTimer (w : RtTimer UInt32) (x : RtTimer ℕ) : Prop where
  activated : w.activated = x.activated
  periodic : w.periodic = x.periodic
  initTick : w.initTick = x.initTick
  timeoutTick : w.timeoutTick = UInt32.ofNat x.timeoutTick

/-- The same timers in the same lists. -/
structure SameTimers (w : Timers ι UInt32) (x : Timers ι ℕ) : Prop where
  softTimerList : w.softTimerList = x.softTimerList
  calling : w.calling = x.calling
  list : w.list = x.list
  timer : ∀ i, SameTimer (w.timer i) (x.timer i)

/-- Two states, or none on either side. -/
def SameOption (a : Option (Timers ι UInt32)) (b : Option (Timers ι ℕ)) : Prop :=
  match a, b with
  | some w, some x => SameTimers w x
  | none, none => True
  | _, _ => False

theorem sameOption_none {a : Option (Timers ι UInt32)} (h : SameOption a none) : a = none := by
  cases a with
  | none => rfl
  | some w => exact h.elim

theorem sameOption_some {a : Option (Timers ι UInt32)} {x : Timers ι ℕ} (h : SameOption a (some x)) : ∃ w, a = some w ∧ SameTimers w x := by
  cases a with
  | none => exact h.elim
  | some w => exact ⟨w, rfl, h⟩

/-- The timers of the list, each in it once, stand in the order of their timeouts, none of which is further away than a timer may be
set. -/
structure Timers.Sorted (x : Timers ι ℕ) (now : ℕ) : Prop where
  nodup : x.softTimerList.Nodup
  sorted : x.softTimerList.Pairwise fun a b => (x.timer a).timeoutTick ≤ (x.timer b).timeoutTick
  near : ∀ i ∈ x.softTimerList, (x.timer i).timeoutTick < now + 0x7FFFFFFF

theorem Timers.Sorted.mono {x : Timers ι ℕ} {now now' : ℕ} (h : x.Sorted now) (hle : now ≤ now') : x.Sorted now' :=
  ⟨h.nodup, h.sorted, fun i hi => (h.near i hi).trans_le (by omega)⟩

/-- Timers may leave the list, and what is not their timeout may change. -/
theorem Timers.Sorted.sublist {x y : Timers ι ℕ} {now : ℕ} (h : x.Sorted now) (hsub : y.softTimerList.Sublist x.softTimerList)
    (ht : ∀ i, (y.timer i).timeoutTick = (x.timer i).timeoutTick) : y.Sorted now := by
  refine ⟨h.nodup.sublist hsub, ?_, fun i hi => ?_⟩
  · simp only [ht]
    exact h.sorted.sublist hsub
  · rw [ht]
    exact h.near i (hsub.subset hi)

variable [DecidableEq ι]

namespace Timers

/-- Another field of one timer. -/
theorem modify_timeoutTick (x : Timers ι τ) (i j : ι) {f : RtTimer τ → RtTimer τ} (hf : ∀ t, (f t).timeoutTick = t.timeoutTick) :
    ((x.modify i f).timer j).timeoutTick = (x.timer j).timeoutTick := by
  by_cases hj : j = i
  · subst hj
    simp [modify, hf]
  · simp [modify, hj]

theorem modify_initTick (x : Timers ι τ) (i j : ι) {f : RtTimer τ → RtTimer τ} (hf : ∀ t, (f t).initTick = t.initTick) :
    ((x.modify i f).timer j).initTick = (x.timer j).initTick := by
  by_cases hj : j = i
  · subst hj
    simp [modify, hf]
  · simp [modify, hj]

/-- The timers after `rt_timer_start`. -/
def started (K : TickArith τ) (now : ℕ) (x : Timers ι τ) (i : ι) : Timers ι τ :=
  let timer := Function.update x.timer i
    { (x.timer i) with activated := true, timeoutTick := K.add (K.rtTickGet now) (x.timer i).initTick }
  { timer := timer
    softTimerList := (x.softTimerList.erase i).orderedInsert
      (fun a b => K.goesBefore (timer a).timeoutTick (timer b).timeoutTick = true) i
    calling := x.calling, list := x.list.erase i }

theorem rtTimerStart_eq (K : TickArith τ) (now : ℕ) (x : Timers ι τ) (i : ι) :
    x.rtTimerStart K now i = if (x.timer i).initTick < tickMax / 2 then some (x.started K now i) else none := by
  simp only [rtTimerStart, started, remove, modify, Function.update_self, Function.update_idem]
  split
  · congr 2
    refine orderedInsert_congr fun b _ => ?_
    by_cases hb : b = i
    · subst hb
      simp
    · simp [hb]
  · rfl

theorem started_timer_self (K : TickArith τ) (now : ℕ) (x : Timers ι τ) (i : ι) :
    (x.started K now i).timer i =
      { (x.timer i) with activated := true, timeoutTick := K.add (K.rtTickGet now) (x.timer i).initTick } := by
  simp [started]

theorem started_timer_of_ne (K : TickArith τ) (now : ℕ) (x : Timers ι τ) {i j : ι} (hj : j ≠ i) :
    (x.started K now i).timer j = x.timer j := by
  simp [started, hj]

theorem mem_started (K : TickArith τ) (now : ℕ) (x : Timers ι τ) (i j : ι) :
    j ∈ (x.started K now i).softTimerList ↔ j = i ∨ j ∈ x.softTimerList.erase i :=
  List.mem_orderedInsert _

theorem started_nodup (K : TickArith τ) (now : ℕ) {x : Timers ι τ} (h : x.softTimerList.Nodup) (i : ι) :
    (x.started K now i).softTimerList.Nodup :=
  (List.perm_orderedInsert _ i _).nodup_iff.mpr (List.nodup_cons.mpr ⟨h.not_mem_erase, h.erase i⟩)

end Timers

/-- Starting a timer keeps the list in order. -/
theorem Timers.Sorted.started {x : Timers ι ℕ} {now : ℕ} (h : x.Sorted now) {i : ι}
    (hi : (x.timer i).initTick < tickMax / 2) : (x.started .exact now i).Sorted now := by
  have hne : ∀ j ∈ x.softTimerList.erase i, j ≠ i := by
    rintro j hj rfl
    exact h.nodup.not_mem_erase hj
  have hnear : (x.timer i).initTick.toNat < 0x7FFFFFFF := UInt32.lt_iff_toNat_lt.mp hi
  refine ⟨Timers.started_nodup .exact now h.nodup i, ?_, fun j hj => ?_⟩
  · refine pairwise_orderedInsert (f := fun j => ((x.started .exact now i).timer j).timeoutTick) (fun b _ => ?_) ?_
    · exact decide_eq_true_iff
    · refine (h.sorted.sublist List.erase_sublist).imp_of_mem fun {a b} ha hb hab => ?_
      rw [Timers.started_timer_of_ne _ _ _ (hne a ha), Timers.started_timer_of_ne _ _ _ (hne b hb)]
      exact hab
  · rcases (Timers.mem_started _ _ _ _ _).mp hj with rfl | hj
    · rw [Timers.started_timer_self]
      show now + (x.timer j).initTick.toNat < _
      omega
    · rw [Timers.started_timer_of_ne _ _ _ (hne j hj)]
      exact h.near j (List.mem_of_mem_erase hj)

/-- The timers when the function of the first one is called. -/
def Timers.called (x : Timers ι τ) (t : ι) : Timers ι τ :=
  let y := x.remove t
  let y := if !(y.timer t).periodic then y.modify t fun t => { t with activated := false } else y
  { y with list := t :: y.list, calling := some t }

theorem Timers.called_softTimerList (x : Timers ι τ) (t : ι) : (x.called t).softTimerList = x.softTimerList.erase t := by
  unfold Timers.called
  simp only
  split
  · rfl
  · rfl

theorem Timers.called_timeoutTick (x : Timers ι τ) (t i : ι) : ((x.called t).timer i).timeoutTick = (x.timer i).timeoutTick := by
  unfold Timers.called
  simp only
  split
  · exact (x.remove t).modify_timeoutTick t i fun _ => rfl
  · rfl

theorem Timers.called_initTick (x : Timers ι τ) (t i : ι) : ((x.called t).timer i).initTick = (x.timer i).initTick := by
  unfold Timers.called
  simp only
  split
  · exact (x.remove t).modify_initTick t i fun _ => rfl
  · rfl

/-- The timers when its function has returned, before the timer is started again. -/
def Timers.returned (x : Timers ι τ) (t : ι) : Timers ι τ :=
  { x with calling := none, list := x.list.erase t }.modify t fun t => { t with activated := false }

theorem Timers.returned_timeoutTick (x : Timers ι τ) (t i : ι) : ((x.returned t).timer i).timeoutTick = (x.timer i).timeoutTick :=
  Timers.modify_timeoutTick { x with calling := none, list := x.list.erase t } t i fun _ => rfl

theorem Timers.checkReturn_eq (K : TickArith τ) (now : ℕ) (x : Timers ι τ) (t : ι) :
    x.checkReturn K now t =
      if x.list.isEmpty then some { x with calling := none }
      else if (x.timer t).periodic && (x.timer t).activated then (x.returned t).rtTimerStart K now t
      else some { x with calling := none, list := x.list.erase t } := rfl

/-- What a step may do: timers leave the list, or nothing happens to it; a timer is started, by an event or because its function has
returned; or the time of the first one has come. -/
theorem timer_step_cases (K : TickArith τ) (x : Timers ι τ) (e : TimerEvent ι) (now : ℕ) :
    (∃ y : Timers ι τ, (timerMachine ι K).step (some x) (e, now) = (none, some y) ∧ y.softTimerList.Sublist x.softTimerList ∧
      (y.calling = x.calling ∨ y.calling = none) ∧ (∀ i, (y.timer i).timeoutTick = (x.timer i).timeoutTick) ∧
      ∀ i, (y.timer i).initTick = (x.timer i).initTick ∧ (∀ ticks, e ≠ .setTime i ticks) ∨ e = .setTime i (y.timer i).initTick) ∨
    (∃ (y : Timers ι τ) (i : ι), (timerMachine ι K).step (some x) (e, now) = (none, y.rtTimerStart K now i) ∧
      y.softTimerList = x.softTimerList ∧ (e = .start i ∧ y.calling = x.calling ∨ e = .ret ∧ x.calling = some i ∧ y.calling = none) ∧
      (∀ j, (y.timer j).timeoutTick = (x.timer j).timeoutTick) ∧ ∀ j, (y.timer j).initTick = (x.timer j).initTick) ∨
    (∃ t rest, x.softTimerList = t :: rest ∧ e = .check ∧ K.reached (K.rtTickGet now) (x.timer t).timeoutTick = true ∧
      (timerMachine ι K).step (some x) (e, now) = (some t, some (x.called t))) := by
  cases e with
  | start i => exact Or.inr (Or.inl ⟨x, i, rfl, rfl, Or.inl ⟨rfl, rfl⟩, fun _ => rfl, fun _ => rfl⟩)
  | stop i =>
    refine Or.inl ⟨x.rtTimerStop i, rfl, ?_⟩
    unfold Timers.rtTimerStop
    split
    · exact ⟨List.erase_sublist, Or.inl rfl, fun j => (x.remove i).modify_timeoutTick i j fun _ => rfl,
        fun j => Or.inl ⟨(x.remove i).modify_initTick i j fun _ => rfl, nofun⟩⟩
    · exact ⟨List.Sublist.refl _, Or.inl rfl, fun _ => rfl, fun _ => Or.inl ⟨rfl, nofun⟩⟩
  | setTime i ticks =>
    refine Or.inl ⟨_, rfl, List.Sublist.refl _, Or.inl rfl, fun j => x.modify_timeoutTick i j fun _ => rfl, fun j => ?_⟩
    by_cases hj : j = i
    · subst hj
      exact Or.inr (by simp [Timers.modify])
    · refine Or.inl ⟨by simp [Timers.modify, hj], ?_⟩
      rintro _ ⟨⟩
      exact hj rfl
  | setPeriodic i p =>
    exact Or.inl ⟨_, rfl, List.Sublist.refl _, Or.inl rfl, fun j => x.modify_timeoutTick i j fun _ => rfl,
      fun j => Or.inl ⟨x.modify_initTick i j fun _ => rfl, nofun⟩⟩
  | check =>
    cases hc : x.calling with
    | some t =>
      simp only [timerMachine, hc]
      exact Or.inl ⟨x, rfl, List.Sublist.refl _, Or.inl hc, fun _ => rfl, fun _ => Or.inl ⟨rfl, nofun⟩⟩
    | none =>
      cases hl : x.softTimerList with
      | nil =>
        simp only [timerMachine, hc, Timers.checkCall, hl]
        exact Or.inl ⟨x, rfl, hl ▸ List.Sublist.refl _, Or.inl hc, fun _ => rfl, fun _ => Or.inl ⟨rfl, nofun⟩⟩
      | cons t rest =>
        cases hr : K.reached (K.rtTickGet now) (x.timer t).timeoutTick with
        | true =>
          refine Or.inr (Or.inr ⟨t, rest, rfl, rfl, hr, ?_⟩)
          simp only [timerMachine, hc, Timers.checkCall, hl, hr, if_true]
          rfl
        | false =>
          simp only [timerMachine, hc, Timers.checkCall, hl, hr, Bool.false_eq_true, if_false]
          exact Or.inl ⟨x, rfl, hl ▸ List.Sublist.refl _, Or.inl hc, fun _ => rfl, fun _ => Or.inl ⟨rfl, nofun⟩⟩
  | ret =>
    cases hc : x.calling with
    | none =>
      simp only [timerMachine, hc]
      exact Or.inl ⟨x, rfl, List.Sublist.refl _, Or.inr hc, fun _ => rfl, fun _ => Or.inl ⟨rfl, nofun⟩⟩
    | some t =>
      simp only [timerMachine, hc, Timers.checkReturn_eq]
      by_cases he : x.list.isEmpty = true
      · rw [if_pos he]
        exact Or.inl ⟨_, rfl, List.Sublist.refl _, Or.inr rfl, fun _ => rfl, fun _ => Or.inl ⟨rfl, nofun⟩⟩
      · rw [if_neg he]
        by_cases hp : ((x.timer t).periodic && (x.timer t).activated) = true
        · rw [if_pos hp]
          refine Or.inr (Or.inl ⟨x.returned t, t, rfl, rfl, Or.inr ⟨trivial, rfl, rfl⟩, x.returned_timeoutTick t, fun j => ?_⟩)
          exact Timers.modify_initTick { x with calling := none, list := x.list.erase t } t j fun _ => rfl
        · rw [if_neg hp]
          exact Or.inl ⟨_, rfl, List.Sublist.refl _, Or.inr rfl, fun _ => rfl, fun _ => Or.inl ⟨rfl, nofun⟩⟩

/-- The step lemma: every event keeps the list in order. -/
theorem Timers.Sorted.step {x : Timers ι ℕ} {now : ℕ} (h : x.Sorted now) (e : TimerEvent ι) {y : Timers ι ℕ}
    (hy : ((timerMachine ι .exact).step (some x) (e, now)).2 = some y) : y.Sorted now := by
  rcases timer_step_cases .exact x e now with ⟨z, hz, hsub, -, ht, -⟩ | ⟨z, i, hz, hlist, -, ht, -⟩ | ⟨t, rest, hl, -, -, hz⟩
  · rw [hz] at hy
    cases hy
    exact h.sublist hsub ht
  · rw [hz] at hy
    replace hy : z.rtTimerStart .exact now i = some y := hy
    rw [Timers.rtTimerStart_eq] at hy
    split at hy
    · rename_i hi
      cases hy
      have hs : z.Sorted now := h.sublist (hlist ▸ List.Sublist.refl _) ht
      exact hs.started hi
    · cases hy
  · rw [hz] at hy
    cases hy
    refine h.sublist ?_ (x.called_timeoutTick t)
    rw [x.called_softTimerList]
    exact List.erase_sublist

/-! ### Side by side -/

/-- No timer of the list is overdue by so much that the code would take it for one that is still to come: at a start, together with the
ticks the timer is set to, and at a check. -/
def Timers.Punctual (x : Timers ι ℕ) (now : ℕ) : TimerEvent ι → Prop
  | .start i => ∀ t ∈ x.softTimerList, now + (x.timer i).initTick.toNat ≤ (x.timer t).timeoutTick + 0x80000001
  | .check => ∀ t ∈ x.softTimerList, now < (x.timer t).timeoutTick + 0x7FFFFFFF
  | .ret => ∀ i, x.calling = some i →
      ∀ t ∈ x.softTimerList, now + (x.timer i).initTick.toNat ≤ (x.timer t).timeoutTick + 0x80000001
  | .stop _ | .setTime _ _ | .setPeriodic _ _ => True

instance (x : Timers ι ℕ) (now : ℕ) : (e : TimerEvent ι) → Decidable (x.Punctual now e)
  | .start i =>
    inferInstanceAs (Decidable (∀ t ∈ x.softTimerList, now + (x.timer i).initTick.toNat ≤ (x.timer t).timeoutTick + 0x80000001))
  | .check => inferInstanceAs (Decidable (∀ t ∈ x.softTimerList, now < (x.timer t).timeoutTick + 0x7FFFFFFF))
  | .ret =>
    inferInstanceAs (Decidable (∀ i ∈ x.calling,
      ∀ t ∈ x.softTimerList, now + (x.timer i).initTick.toNat ≤ (x.timer t).timeoutTick + 0x80000001))
  | .stop _ | .setTime _ _ | .setPeriodic _ _ => isTrue trivial

variable {w : Timers ι UInt32} {x : Timers ι ℕ} {now : ℕ}

theorem SameTimers.modify (h : SameTimers w x) (i : ι) {f : RtTimer UInt32 → RtTimer UInt32} {g : RtTimer ℕ → RtTimer ℕ}
    (hfg : ∀ a b, SameTimer a b → SameTimer (f a) (g b)) : SameTimers (w.modify i f) (x.modify i g) := by
  refine ⟨h.softTimerList, h.calling, h.list, fun j => ?_⟩
  by_cases hj : j = i
  · subst hj
    simpa [Timers.modify] using hfg _ _ (h.timer j)
  · simpa [Timers.modify, hj] using h.timer j

theorem SameTimers.remove (h : SameTimers w x) (i : ι) : SameTimers (w.remove i) (x.remove i) :=
  ⟨by simp [Timers.remove, h.softTimerList], h.calling, by simp [Timers.remove, h.list], h.timer⟩

/-- Deactivated on both sides. -/
theorem SameTimer.deactivate {a : RtTimer UInt32} {b : RtTimer ℕ} (h : SameTimer a b) :
    SameTimer { a with activated := false } { b with activated := false } := ⟨rfl, h.periodic, h.initTick, h.timeoutTick⟩

/-- A timer started among punctual ones comes to the same place. -/
theorem SameTimers.start (h : SameTimers w x) (hs : x.Sorted now) {i : ι}
    (hp : ∀ t ∈ x.softTimerList, now + (x.timer i).initTick.toNat ≤ (x.timer t).timeoutTick + 0x80000001) :
    SameOption (w.rtTimerStart .wrapping now i) (x.rtTimerStart .exact now i) := by
  rw [Timers.rtTimerStart_eq, Timers.rtTimerStart_eq, (h.timer i).initTick]
  split
  · have htimer : ∀ j, SameTimer ((w.started .wrapping now i).timer j) ((x.started .exact now i).timer j) := by
      intro j
      by_cases hj : j = i
      · subst hj
        rw [Timers.started_timer_self, Timers.started_timer_self, (h.timer j).initTick]
        exact ⟨rfl, (h.timer j).periodic, (h.timer j).initTick, wrapping_add now _⟩
      · rw [Timers.started_timer_of_ne _ _ _ hj, Timers.started_timer_of_ne _ _ _ hj]
        exact h.timer j
    refine ⟨?_, h.calling, by simp [Timers.started, h.list], htimer⟩
    show List.orderedInsert _ i (w.softTimerList.erase i) = List.orderedInsert _ i (x.softTimerList.erase i)
    rw [h.softTimerList]
    refine orderedInsert_congr fun b hb => ?_
    have hbi : b ≠ i := by
      rintro rfl
      exact hs.nodup.not_mem_erase hb
    have hnear := hs.near b (List.mem_of_mem_erase hb)
    have hlate := hp b (List.mem_of_mem_erase hb)
    show TickArith.wrapping.goesBefore ((w.started .wrapping now i).timer i).timeoutTick ((w.started .wrapping now i).timer b).timeoutTick = true ↔
      TickArith.exact.goesBefore ((x.started .exact now i).timer i).timeoutTick ((x.started .exact now i).timer b).timeoutTick = true
    rw [(htimer i).timeoutTick, (htimer b).timeoutTick, wrapping_goesBefore]
    · rw [Timers.started_timer_of_ne _ _ _ hbi, Timers.started_timer_self]
      show _ < now + (x.timer i).initTick.toNat + _
      omega
    · rw [Timers.started_timer_of_ne _ _ _ hbi, Timers.started_timer_self]
      exact hlate
  · trivial

theorem SameTimers.called (h : SameTimers w x) (t : ι) : SameTimers (w.called t) (x.called t) := by
  have hr := h.remove t
  have hper : ((w.remove t).timer t).periodic = ((x.remove t).timer t).periodic := (hr.timer t).periodic
  have hmod := hr.modify t fun a b hab => hab.deactivate
  unfold Timers.called
  simp only [hper]
  split
  · exact ⟨hmod.softTimerList, rfl, congrArg (t :: ·) hmod.list, hmod.timer⟩
  · exact ⟨hr.softTimerList, rfl, congrArg (t :: ·) hr.list, hr.timer⟩

/-- The step lemma: from the same timers, a punctual event calls the same function and leads to the same timers. -/
theorem SameTimers.step (h : SameTimers w x) (hs : x.Sorted now) {e : TimerEvent ι} (hp : x.Punctual now e) :
    ((timerMachine ι .wrapping).step (some w) (e, now)).1 = ((timerMachine ι .exact).step (some x) (e, now)).1 ∧
      SameOption ((timerMachine ι .wrapping).step (some w) (e, now)).2 ((timerMachine ι .exact).step (some x) (e, now)).2 := by
  cases e with
  | start i => exact ⟨rfl, h.start hs hp⟩
  | stop i =>
    refine ⟨rfl, ?_⟩
    show SameTimers (w.rtTimerStop i) (x.rtTimerStop i)
    unfold Timers.rtTimerStop
    rw [(h.timer i).activated]
    split
    · exact (h.remove i).modify i fun a b hab => hab.deactivate
    · exact h
  | setTime i ticks =>
    refine ⟨rfl, h.modify i fun a b hab => ?_⟩
    exact ⟨hab.activated, hab.periodic, rfl, hab.timeoutTick⟩
  | setPeriodic i p =>
    refine ⟨rfl, h.modify i fun a b hab => ?_⟩
    exact ⟨hab.activated, rfl, hab.initTick, hab.timeoutTick⟩
  | check =>
    simp only [timerMachine, h.calling]
    cases hc : x.calling with
    | some t => exact ⟨rfl, h⟩
    | none =>
      simp only [Timers.checkCall, h.softTimerList]
      cases hl : x.softTimerList with
      | nil => exact ⟨rfl, h⟩
      | cons t rest =>
        have ht : t ∈ x.softTimerList := by simp [hl]
        have hnear := hs.near t ht
        have hreach : TickArith.wrapping.reached (UInt32.ofNat now) (w.timer t).timeoutTick =
            TickArith.exact.reached now (x.timer t).timeoutTick := by
          rw [(h.timer t).timeoutTick]
          exact wrapping_reached (by omega) (hp t ht)
        have hreach' : TickArith.wrapping.reached (TickArith.wrapping.rtTickGet now) (w.timer t).timeoutTick =
            TickArith.exact.reached (TickArith.exact.rtTickGet now) (x.timer t).timeoutTick := hreach
        simp only [hreach']
        split
        · exact ⟨rfl, h.called t⟩
        · exact ⟨rfl, h⟩
  | ret =>
    simp only [timerMachine, h.calling]
    cases hc : x.calling with
    | none => exact ⟨rfl, h⟩
    | some t =>
      refine ⟨rfl, ?_⟩
      simp only [Timers.checkReturn_eq, h.list, (h.timer t).periodic, (h.timer t).activated]
      split
      · exact ⟨h.softTimerList, rfl, rfl, h.timer⟩
      · have hret : SameTimers { w with calling := none, list := x.list.erase t } { x with calling := none, list := x.list.erase t } :=
          ⟨h.softTimerList, rfl, rfl, h.timer⟩
        split
        · have hmod : SameTimers (w.returned t) (x.returned t) := by
            unfold Timers.returned
            rw [h.list]
            exact hret.modify t fun a b hab => hab.deactivate
          have hsort : (x.returned t).Sorted now := hs.sublist (List.Sublist.refl _) (x.returned_timeoutTick t)
          refine hmod.start hsort fun s hs' => ?_
          rw [x.returned_timeoutTick]
          have hinit : ((x.returned t).timer t).initTick = (x.timer t).initTick :=
            Timers.modify_initTick { x with calling := none, list := x.list.erase t } t t fun _ => rfl
          rw [hinit]
          exact hp t hc s hs'
        · exact hret

end RtStopwatch
