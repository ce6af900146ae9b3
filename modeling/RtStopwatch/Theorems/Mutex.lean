import RtStopwatch.Lemmas.Mutex

/-!
# The kernel's mutex under any use

What holds of a mutex with `RT_IPC_FLAG_PRIO`, as `stopwatch_init` creates one, after any takes, releases and timeouts of any threads:
who runs at which priority (`mutex_priority_inheritance`), and how often a waiting thread is passed over (`mutex_bounded_overtaking`).
-/

namespace RtStopwatch

open Lib

variable {ι : Type} [DecidableEq ι]

/-- The invariant of the mutex holds in every state it can reach. -/
theorem ipc_run_inv {base : ι → UInt8} {k : Ipc ι} (h : Ipc.Inv base k) (es : List (IpcEvent ι)) : Ipc.Inv base ((ipcMachine ι).run k es) :=
  (ipcMachine ι).run_invariant (fun _ e hk => hk.step e) h es

/-- Priority inheritance. Whatever happens to a mutex, nobody waits for it while it is free; its owner does not wait for it and runs at
a priority at least as urgent as its own and as that of every thread that waits; everyone else runs at their own priority; and the
waiting threads, each in the queue once, stand in the order of their urgency. -/
theorem mutex_priority_inheritance (base : ι → UInt8) (es : List (IpcEvent ι)) :
    let k := (ipcMachine ι).run (Ipc.init .prio base) es
    (k.mutex.owner = none → k.mutex.suspendThread = []) ∧
      (∀ o, k.mutex.owner = some o →
        o ∉ k.mutex.suspendThread ∧ k.priority o ≤ base o ∧ ∀ w ∈ k.mutex.suspendThread, k.priority o ≤ base w) ∧
      (∀ i, k.mutex.owner ≠ some i → k.priority i = base i) ∧
      k.mutex.suspendThread.Nodup ∧ k.mutex.suspendThread.Pairwise fun a b => base a ≤ base b := by
  have h := ipc_run_inv (Ipc.Inv.init base) es
  refine ⟨fun hnone => (h.free hnone).2.2, fun o ho => ?_, h.others, h.nodup, h.sorted⟩
  obtain ⟨-, -, hnot, -, hle, hwait⟩ := h.held o ho
  exact ⟨hnot, hle, hwait⟩

/-! ## Overtaking -/

/-- How often the mutex changes hands in a run. -/
def grants (k : Ipc ι) : List (IpcEvent ι) → ℕ
  | [] => 0
  | e :: es =>
    let k' := ((ipcMachine ι).step k e).2
    (if k'.mutex.owner = k.mutex.owner then 0 else 1) + grants k' es

/-- A thread more urgent than `w` asks for the mutex. -/
def IpcEvent.Urgent (base : ι → UInt8) (w : ι) : IpcEvent ι → Prop
  | .take i _ => base i < base w
  | .release _ | .timeout _ => False

instance (base : ι → UInt8) (w : ι) : DecidablePred (IpcEvent.Urgent base w) := fun e =>
  match e with
  | .take i _ => inferInstanceAs (Decidable (base i < base w))
  | .release _ | .timeout _ => inferInstanceAs (Decidable False)

variable {base : ι → UInt8} {k : Ipc ι} {w : ι}

/-- A thread that starts to wait gets before `w` only if it is more urgent. -/
theorem ahead_take (h : Ipc.Inv base k) (hw : w ∈ k.mutex.suspendThread) {i : ι} (hi : i ∉ k.mutex.suspendThread) (time : Int32) :
    (k.rtMutexTake i time).2.mutex.owner = k.mutex.owner ∧
      (k.rtMutexTake i time).2.mutex.suspendThread.idxOf w ≤
        k.mutex.suspendThread.idxOf w + if base i < base w then 1 else 0 := by
  have hle : k.mutex.suspendThread.idxOf w ≤ k.mutex.suspendThread.idxOf w + if base i < base w then 1 else 0 := by omega
  cases ho : k.mutex.owner with
  | none =>
    rw [(h.free ho).2.2] at hw
    cases hw
  | some o =>
    by_cases hoi : o = i
    · subst hoi
      rw [Ipc.take_own ho]
      split
      · exact ⟨ho, hle⟩
      · exact ⟨ho, hle⟩
    · by_cases htime : time = 0
      · subst htime
        rw [Ipc.take_refused h ho hoi]
        exact ⟨ho, hle⟩
      · have herr : Ipc.Inv base (k.setError i .eok) := h.congr rfl (Ipc.setError_priority k i .eok)
        have hm := Ipc.listSuspend_mutex ((k.setError i .eok).inherit o i) i (by rw [Ipc.inherit_mutex]; exact h.flag)
        rw [Ipc.inherit_mutex] at hm
        have hk : (k.rtMutexTake i time).2.mutex = (((k.setError i .eok).inherit o i).listSuspend i).mutex := by
          rw [Ipc.take_held h ho hoi htime]
          split
          · rfl
          · rfl
        rw [hk, hm]
        refine ⟨ho, ?_⟩
        have hiw : i ≠ w := by
          rintro rfl
          exact hi hw
        exact idxOf_orderedInsert (f := fun a => (base a).toNat) (herr.queue (i := i) ho hoi) h.sorted hw hiw

/-- A release that hands the mutex over brings `w` one place forward. -/
theorem ahead_release (h : Ipc.Inv base k) (hw : w ∈ k.mutex.suspendThread) (i : ι)
    (hw' : w ∈ (k.rtMutexRelease i).2.mutex.suspendThread) :
    (if (k.rtMutexRelease i).2.mutex.owner = k.mutex.owner then 0 else 1) + (k.rtMutexRelease i).2.mutex.suspendThread.idxOf w ≤
      k.mutex.suspendThread.idxOf w := by
  by_cases ho : k.mutex.owner = some i
  · by_cases hh : k.mutex.hold - 1 = 0
    · cases hl : k.mutex.suspendThread with
      | nil =>
        rw [hl] at hw
        cases hw
      | cons j rest =>
        obtain ⟨hm, -⟩ := Ipc.release_hand h ho hh hl
        have hnd := h.nodup
        rw [hl] at hnd
        obtain ⟨hj, -⟩ := List.nodup_cons.mp hnd
        rw [hm] at hw' ⊢
        have hjw : j ≠ w := by
          rintro rfl
          exact hj hw'
        rw [List.idxOf_cons_ne _ hjw]
        split
        · simp
        · simp only
          omega
    · rw [Ipc.release_hold ho hh]
      simp
  · rw [Ipc.release_other ho]
    simp

/-- The step lemma: while `w` waits, a change of hands brings it one place forward, and only a more urgent thread gets before it. -/
theorem ahead_step (h : Ipc.Inv base k) (hw : w ∈ k.mutex.suspendThread) (e : IpcEvent ι)
    (hw' : w ∈ ((ipcMachine ι).step k e).2.mutex.suspendThread) :
    (if ((ipcMachine ι).step k e).2.mutex.owner = k.mutex.owner then 0 else 1) +
        ((ipcMachine ι).step k e).2.mutex.suspendThread.idxOf w ≤
      k.mutex.suspendThread.idxOf w + if e.Urgent base w then 1 else 0 := by
  cases e with
  | take i time =>
    by_cases hi : i ∈ k.mutex.suspendThread
    · simp [ipcMachine, hi]
    · obtain ⟨ho, hle⟩ := ahead_take h hw hi time
      simp only [ipcMachine, hi, if_false, ho, if_true, Nat.zero_add]
      exact hle
  | release i =>
    by_cases hi : i ∈ k.mutex.suspendThread
    · simp [ipcMachine, hi]
    · simp only [ipcMachine, hi, if_false] at hw' ⊢
      exact (ahead_release h hw i hw').trans (Nat.le_add_right _ _)
  | timeout i =>
    by_cases hi : i ∈ k.mutex.suspendThread ∧ (k.thread i).threadTimer = true
    · simp only [ipcMachine, hi] at hw' ⊢
      have hiw : i ≠ w := by
        rintro rfl
        exact h.nodup.not_mem_erase hw'
      have hle := idxOf_erase_le (l := k.mutex.suspendThread) hiw
      simpa [Ipc.rtThreadTimeout] using hle.trans (Nat.le_add_right _ _)
    · simp [ipcMachine, hi]

/-- Bounded overtaking. While a thread waits for the mutex, the mutex changes hands no more often than there were threads before it in
the queue, and threads more urgent than itself that asked for it since. -/
theorem mutex_bounded_overtaking (base : ι → UInt8) (pre es : List (IpcEvent ι)) (w : ι)
    (hwait : (ipcMachine ι).Meets (fun k _ => w ∈ k.mutex.suspendThread) ((ipcMachine ι).run (Ipc.init .prio base) pre) es)
    (hend : w ∈ ((ipcMachine ι).run (Ipc.init .prio base) (pre ++ es)).mutex.suspendThread) :
    grants ((ipcMachine ι).run (Ipc.init .prio base) pre) es +
        ((ipcMachine ι).run (Ipc.init .prio base) (pre ++ es)).mutex.suspendThread.idxOf w ≤
      ((ipcMachine ι).run (Ipc.init .prio base) pre).mutex.suspendThread.idxOf w + es.countP fun e => e.Urgent base w := by
  rw [Machine.run_append] at hend ⊢
  have h := ipc_run_inv (Ipc.Inv.init base) pre
  generalize (ipcMachine ι).run (Ipc.init .prio base) pre = k at *
  induction es generalizing k with
  | nil => simp [grants, Machine.run]
  | cons e es ih =>
    obtain ⟨hw, hrest⟩ := hwait
    have hw' : w ∈ ((ipcMachine ι).step k e).2.mutex.suspendThread := by
      cases es with
      | nil => exact hend
      | cons e' es => exact hrest.1
    have hstep := ahead_step h hw e hw'
    have hrun := ih _ hrest hend (h.step e)
    rw [Machine.run_cons, grants, List.countP_cons]
    simp only [decide_eq_true_eq]
    omega

/-- Thread 1 waits while thread 0 gets before it and is handed the mutex. -/
theorem mutex_bounded_overtaking_two :
    let pre : List (IpcEvent ℕ) := [.take 2 (-1), .take 1 (-1)]
    let es : List (IpcEvent ℕ) := [.take 0 (-1), .release 2]
    grants ((ipcMachine ℕ).run (Ipc.init .prio UInt8.ofNat) pre) es = 1 ∧
      grants ((ipcMachine ℕ).run (Ipc.init .prio UInt8.ofNat) pre) es +
          ((ipcMachine ℕ).run (Ipc.init .prio UInt8.ofNat) (pre ++ es)).mutex.suspendThread.idxOf 1 ≤
        ((ipcMachine ℕ).run (Ipc.init .prio UInt8.ofNat) pre).mutex.suspendThread.idxOf 1 +
          es.countP fun e => e.Urgent UInt8.ofNat 1 :=
  ⟨by decide, mutex_bounded_overtaking UInt8.ofNat [.take 2 (-1), .take 1 (-1)] [.take 0 (-1), .release 2] 1
    ⟨by decide, by decide, trivial⟩ (by decide)⟩

end RtStopwatch
