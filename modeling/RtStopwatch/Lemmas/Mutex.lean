import RtStopwatch.Mutex

/-!
# The invariant of the mutex

`Ipc.Inv`: who owns the mutex, who waits for it and at which priorities they run, kept by every call and every timeout. A mutex with
the flag `RT_IPC_FLAG_PRIO` is meant: with `RT_IPC_FLAG_FIFO` a thread that is handed the mutex does not inherit from those still
waiting. `mutexLock` is a lock in the states of the invariant.
-/

namespace RtStopwatch

open Lib

variable {ι : Type}

namespace Ipc

/-- The priority a thread runs at. -/
def priority (k : Ipc ι) (i : ι) : UInt8 := (k.thread i).currentPriority

/-- A mutex nobody owns is free and nobody waits for it. One that is owned is held by its owner, who runs at a priority at least as
urgent as that of every waiting thread; all others run at their own, and the waiting ones stand in the order of urgency. -/
structure Inv (base : ι → UInt8) (k : Ipc ι) : Prop where
  flag : k.mutex.flag = .prio
  free : k.mutex.owner = none → k.mutex.value = 1 ∧ k.mutex.hold = 0 ∧ k.mutex.suspendThread = []
  held : ∀ o, k.mutex.owner = some o → k.mutex.value = 0 ∧ 0 < k.mutex.hold ∧ o ∉ k.mutex.suspendThread ∧
    k.mutex.originalPriority = base o ∧ k.priority o ≤ base o ∧ ∀ w ∈ k.mutex.suspendThread, k.priority o ≤ base w
  others : ∀ i, k.mutex.owner ≠ some i → k.priority i = base i
  nodup : k.mutex.suspendThread.Nodup
  sorted : k.mutex.suspendThread.Pairwise fun a b => base a ≤ base b

variable {base : ι → UInt8} {k : Ipc ι} {i : ι}

theorem Inv.init (base : ι → UInt8) : Inv base (Ipc.init .prio base) where
  flag := rfl
  free _ := ⟨rfl, rfl, rfl⟩
  held := nofun
  others _ _ := rfl
  nodup := List.nodup_nil
  sorted := List.Pairwise.nil

/-- The invariant reads the mutex and the priorities only. -/
theorem Inv.congr (h : Inv base k) {k' : Ipc ι} (hm : k'.mutex = k.mutex) (hp : k'.priority = k.priority) : Inv base k' := by
  obtain ⟨h1, h2, h3, h4, h5, h6⟩ := h
  exact ⟨hm ▸ h1, hm ▸ h2, by rw [hm, hp]; exact h3, by rw [hm, hp]; exact h4, hm ▸ h5, hm ▸ h6⟩

/-- A waiting thread does not own the mutex, and runs at its own priority. -/
theorem Inv.waits (h : Inv base k) (hi : i ∈ k.mutex.suspendThread) : k.mutex.owner ≠ some i ∧ k.priority i = base i := by
  have hne : k.mutex.owner ≠ some i := by
    intro ho
    exact (h.held i ho).2.2.1 hi
  exact ⟨hne, h.others i hne⟩

/-- A free mutex is taken. -/
theorem Inv.taken (h : Inv base k) (ho : k.mutex.owner = none) (i : ι) {k' : Ipc ι} (hp : k'.priority = k.priority)
    (hm : k'.mutex = { k.mutex with value := 0, owner := some i, originalPriority := base i, hold := 1 }) : Inv base k' := by
  obtain ⟨-, -, hl⟩ := h.free ho
  have hbase : ∀ j, k'.priority j = base j := by
    intro j
    rw [hp]
    exact h.others j (by rw [ho]; nofun)
  refine ⟨by rw [hm]; exact h.flag, by rw [hm]; nofun, ?_, fun j _ => hbase j, by rw [hm]; exact h.nodup, by rw [hm]; exact h.sorted⟩
  rw [hm]
  rintro o ⟨⟩
  refine ⟨rfl, by show (0 : UInt8) < 1; decide, by simp [hl], rfl, ?_, by simp [hl]⟩
  rw [hbase]
  exact UInt8.le_refl _

/-- The mutex of threads that never take it twice: it is held once, or not at all. -/
def Once (base : ι → UInt8) (k : Ipc ι) : Prop := Inv base k ∧ k.mutex.hold ≤ 1

/-- Its owner gives up the last hold. -/
theorem Once.last (h : Once base k) (ho : k.mutex.owner = some i) : k.mutex.hold - 1 = 0 := by
  obtain ⟨-, hpos, -⟩ := h.1.held i ho
  have hone : k.mutex.hold = 1 := UInt8.le_antisymm h.2 (UInt8.le_iff_toNat_le.mpr (UInt8.lt_iff_toNat_lt.mp hpos))
  rw [hone]
  rfl

/-! ## What the calls do -/

section Calls

variable [DecidableEq ι]

@[simp] theorem setError_mutex (k : Ipc ι) (i : ι) (e : IpcErr) : (k.setError i e).mutex = k.mutex := rfl

@[simp] theorem setTimer_mutex (k : Ipc ι) (i : ι) (b : Bool) : (k.setTimer i b).mutex = k.mutex := rfl

@[simp] theorem changePriority_mutex (k : Ipc ι) (i : ι) (p : UInt8) : (k.changePriority i p).mutex = k.mutex := rfl

@[simp] theorem setError_priority (k : Ipc ι) (i : ι) (e : IpcErr) : (k.setError i e).priority = k.priority := by
  funext j
  by_cases hj : j = i
  · simp [priority, setError, hj]
  · simp [priority, setError, hj]

@[simp] theorem setTimer_priority (k : Ipc ι) (i : ι) (b : Bool) : (k.setTimer i b).priority = k.priority := by
  funext j
  by_cases hj : j = i
  · simp [priority, setTimer, hj]
  · simp [priority, setTimer, hj]

@[simp] theorem changePriority_priority (k : Ipc ι) (i : ι) (p : UInt8) :
    (k.changePriority i p).priority = Function.update k.priority i p := by
  funext j
  by_cases hj : j = i
  · simp [priority, changePriority, hj]
  · simp [priority, changePriority, hj]

theorem take_own (ho : k.mutex.owner = some i) (time : Int32) :
    k.rtMutexTake i time =
      if k.mutex.hold < rtMutexHoldMax then
        (some .eok, { k.setError i .eok with mutex := { k.mutex with hold := k.mutex.hold + 1 } })
      else (some .efull, k.setError i .eok) := by
  simp [rtMutexTake, ho]

theorem take_free (h : Inv base k) (ho : k.mutex.owner = none) (i : ι) (time : Int32) :
    k.rtMutexTake i time =
      (some .eok, { k.setError i .eok with
        mutex := { k.mutex with value := 0, owner := some i, originalPriority := base i, hold := 1 } }) := by
  obtain ⟨hv, hh, -⟩ := h.free ho
  have hp : ((k.setError i .eok).thread i).currentPriority = base i := by
    have hi : (k.setError i .eok).priority i = k.priority i := by rw [setError_priority]
    exact hi.trans (h.others i (by rw [ho]; nofun))
  have hh' : (0 : UInt8) + 1 = 1 := rfl
  simp [rtMutexTake, ho, hv, hh, hp, rtMutexHoldMax, hh']

@[simp] theorem inherit_mutex (k : Ipc ι) (o i : ι) : (k.inherit o i).mutex = k.mutex := by
  unfold inherit
  split
  · rfl
  · rfl

theorem inherit_priority_of_ne (k : Ipc ι) {o j : ι} (i : ι) (hj : j ≠ o) : (k.inherit o i).priority j = k.priority j := by
  unfold inherit
  split
  · simp [hj]
  · rfl

/-- The owner is then at least as urgent as it was, and as the thread it inherits from. -/
theorem inherit_priority_le (k : Ipc ι) (o i : ι) :
    (k.inherit o i).priority o ≤ k.priority o ∧ (k.inherit o i).priority o ≤ k.priority i := by
  unfold inherit
  split
  · rename_i hlt
    simp only [changePriority_priority, Function.update_self]
    exact ⟨UInt8.le_of_lt hlt, UInt8.le_refl _⟩
  · rename_i hle
    exact ⟨UInt8.le_refl _, UInt8.not_lt.mp hle⟩

theorem take_held (h : Inv base k) {o : ι} (ho : k.mutex.owner = some o) (hne : o ≠ i) {time : Int32} (htime : time ≠ 0) :
    k.rtMutexTake i time =
      (none, if 0 < time then (((k.setError i .eok).inherit o i).listSuspend i).setTimer i true
        else ((k.setError i .eok).inherit o i).listSuspend i) := by
  obtain ⟨hv, -⟩ := h.held o ho
  simp [rtMutexTake, ho, hne, hv, htime, inherit]

theorem take_refused (h : Inv base k) {o : ι} (ho : k.mutex.owner = some o) (hne : o ≠ i) :
    k.rtMutexTake i 0 = (some .etimeout, (k.setError i .eok).setError i .etimeout) := by
  obtain ⟨hv, -⟩ := h.held o ho
  simp [rtMutexTake, ho, hne, hv]

/-- The queue of a mutex that is waited for. -/
theorem listSuspend_mutex (k : Ipc ι) (i : ι) (hf : k.mutex.flag = .prio) :
    (k.listSuspend i).mutex =
      { k.mutex with suspendThread := k.mutex.suspendThread.orderedInsert (fun a b => k.priority a < k.priority b) i } := by
  have hp : (fun a => ((k.setTimer i false).thread a).currentPriority) = k.priority := setTimer_priority k i false
  have hp' : ∀ a, ((k.setTimer i false).thread a).currentPriority = k.priority a := congrFun hp
  simp only [listSuspend, setTimer_mutex, hf, hp']

@[simp] theorem listSuspend_priority (k : Ipc ι) (i : ι) : (k.listSuspend i).priority = k.priority :=
  setTimer_priority k i false

/-- The queue compares the priorities the threads have of themselves. -/
theorem Inv.queue (h : Inv base k) {o : ι} (ho : k.mutex.owner = some o) (hne : o ≠ i) :
    ∀ b ∈ k.mutex.suspendThread,
      (k.inherit o i).priority i < (k.inherit o i).priority b ↔ (base i).toNat < (base b).toNat := by
  obtain ⟨-, -, hnot, -⟩ := h.held o ho
  intro b hb
  have hbo : b ≠ o := by
    rintro rfl
    exact hnot hb
  rw [inherit_priority_of_ne k i (Ne.symm hne), inherit_priority_of_ne k i hbo, (h.waits hb).2,
    h.others i (by rw [ho]; exact fun e => hne (Option.some.inj e))]
  exact UInt8.lt_iff_toNat_lt

/-- A thread waits for a mutex another thread owns. -/
theorem Inv.suspended (h : Inv base k) {o : ι} (ho : k.mutex.owner = some o) (hne : o ≠ i) (hi : i ∉ k.mutex.suspendThread) :
    Inv base ((k.inherit o i).listSuspend i) := by
  have hm := listSuspend_mutex (k.inherit o i) i (by rw [inherit_mutex]; exact h.flag)
  rw [inherit_mutex] at hm
  have hpi : (k.inherit o i).priority i = base i := by
    rw [inherit_priority_of_ne k i (Ne.symm hne)]
    exact h.others i (by rw [ho]; exact fun e => hne (Option.some.inj e))
  obtain ⟨hv, hh, hnot, horig, hle, hwait⟩ := h.held o ho
  obtain ⟨hle1, hle2⟩ := inherit_priority_le k o i
  refine ⟨?_, ?_, ?_, ?_, ?_, ?_⟩
  · rw [hm]
    exact h.flag
  · rw [hm]
    intro hnone
    rw [show k.mutex.owner = none from hnone] at ho
    cases ho
  · intro o' ho'
    rw [hm] at ho' ⊢
    have hoo : o' = o := Option.some.inj ((show k.mutex.owner = some o' from ho').symm.trans ho)
    subst hoo
    rw [listSuspend_priority]
    refine ⟨hv, hh, ?_, horig, UInt8.le_trans hle1 hle, ?_⟩
    · rw [List.mem_orderedInsert]
      rintro (rfl | hmem)
      · exact hne rfl
      · exact hnot hmem
    · intro w hw
      rw [List.mem_orderedInsert] at hw
      rcases hw with rfl | hw
      · rw [← hpi, inherit_priority_of_ne k w (Ne.symm hne)]
        exact hle2
      · exact UInt8.le_trans hle1 (hwait w hw)
  · intro j hj
    rw [hm] at hj
    have hjo : j ≠ o := by
      rintro rfl
      exact hj ho
    rw [listSuspend_priority, inherit_priority_of_ne k i hjo]
    exact h.others j hj
  · rw [hm]
    exact (List.perm_orderedInsert _ i _).nodup_iff.mpr (List.nodup_cons.mpr ⟨hi, h.nodup⟩)
  · rw [hm]
    exact pairwise_orderedInsert (f := fun a => (base a).toNat) (h.queue ho hne) h.sorted

/-- `rt_mutex_take` keeps the invariant. -/
theorem Inv.take (h : Inv base k) (hi : i ∉ k.mutex.suspendThread) (time : Int32) : Inv base (k.rtMutexTake i time).2 := by
  cases ho : k.mutex.owner with
  | none =>
    rw [take_free h ho]
    exact h.taken ho i (setError_priority k i .eok) rfl
  | some o =>
    by_cases hoi : o = i
    · subst hoi
      rw [take_own ho]
      split
      · rename_i hmax
        have hlt : k.mutex.hold.toNat < 255 := UInt8.lt_iff_toNat_lt.mp hmax
        have hpos : (0 : UInt8) < k.mutex.hold + 1 := by
          rw [UInt8.lt_iff_toNat_lt, UInt8.toNat_add]
          simp
          omega
        refine ⟨h.flag, ?_, ?_, ?_, h.nodup, h.sorted⟩
        · intro hnone
          rw [show k.mutex.owner = none from hnone] at ho
          cases ho
        · intro o' ho'
          obtain ⟨hv, -, hrest⟩ := h.held o' ho'
          refine ⟨hv, hpos, ?_⟩
          rw [show Ipc.priority { k.setError o .eok with mutex := { k.mutex with hold := k.mutex.hold + 1 } } = k.priority from
            setError_priority k o .eok]
          exact hrest
        · intro j hj
          exact (congrFun (setError_priority k o .eok) j).trans (h.others j hj)
      · exact h.congr rfl (setError_priority k o .eok)
    · by_cases htime : time = 0
      · subst htime
        rw [take_refused h ho hoi]
        exact h.congr rfl (by simp)
      · rw [take_held h ho hoi htime]
        have hsus : Inv base (((k.setError i .eok).inherit o i).listSuspend i) :=
          (h.congr rfl (setError_priority k i .eok) : Inv base (k.setError i .eok)).suspended ho hoi hi
        split
        · exact hsus.congr rfl (setTimer_priority _ i true)
        · exact hsus

@[simp] theorem restore_mutex (k : Ipc ι) (i : ι) : (k.restore i).mutex = k.mutex := by
  unfold restore
  split
  · rfl
  · rfl

theorem restore_priority (k : Ipc ι) (i : ι) : (k.restore i).priority = Function.update k.priority i k.mutex.originalPriority := by
  unfold restore
  split
  · exact changePriority_priority k i _
  · rename_i he
    rw [show k.mutex.originalPriority = k.priority i from not_not.mp he, Function.update_eq_self]

/-- After the last hold is given up, everyone runs at their own priority. -/
theorem Inv.restored (h : Inv base k) (ho : k.mutex.owner = some i) (m : RtMutex ι) (hm : m.originalPriority = k.mutex.originalPriority) :
    (Ipc.restore { k with mutex := m } i).priority = base := by
  obtain ⟨-, -, -, horig, -⟩ := h.held i ho
  rw [restore_priority]
  funext j
  by_cases hj : j = i
  · subst hj
    simp only [Function.update_self, hm, horig]
  · rw [Function.update_of_ne hj]
    exact h.others j (by rw [ho]; exact fun e => hj (Option.some.inj e).symm)

theorem release_other (ho : k.mutex.owner ≠ some i) : k.rtMutexRelease i = (.error, k.setError i .error) := by
  simp [rtMutexRelease, ho]

theorem release_hold (ho : k.mutex.owner = some i) (hh : k.mutex.hold - 1 ≠ 0) :
    k.rtMutexRelease i = (.eok, { k with mutex := { k.mutex with hold := k.mutex.hold - 1 } }) := by
  simp [rtMutexRelease, ho, hh]

theorem release_last (ho : k.mutex.owner = some i) (hh : k.mutex.hold - 1 = 0) :
    k.rtMutexRelease i = (Ipc.restore { k with mutex := { k.mutex with hold := 0 } } i).wakeup := by
  simp [rtMutexRelease, ho, hh]

/-- The last hold is given up and a thread waits: the first in the queue gets the mutex. -/
theorem release_hand (h : Inv base k) (ho : k.mutex.owner = some i) (hh : k.mutex.hold - 1 = 0) {j : ι} {rest : List ι}
    (hl : k.mutex.suspendThread = j :: rest) :
    (k.rtMutexRelease i).2.mutex = { k.mutex with owner := some j, originalPriority := base j, hold := 1, suspendThread := rest } ∧
      (k.rtMutexRelease i).2.priority = base := by
  have hp := h.restored ho { k.mutex with hold := 0 } rfl
  have hm := restore_mutex { k with mutex := { k.mutex with hold := 0 } } i
  rw [release_last ho hh]
  generalize Ipc.restore { k with mutex := { k.mutex with hold := 0 } } i = k₁ at hp hm
  have hpj : (k₁.thread j).currentPriority = base j := congrFun hp j
  have hw : k₁.wakeup =
      (.eok, ({ k₁ with
        mutex := { k.mutex with owner := some j, originalPriority := base j, hold := 1, suspendThread := rest } } : Ipc ι).setTimer
          j false) := by
    simp only [wakeup, hm, hl, hpj]
    rfl
  rw [hw]
  exact ⟨rfl, (setTimer_priority _ j false).trans hp⟩

/-- The last hold is given up and no thread waits. -/
theorem release_free (h : Inv base k) (ho : k.mutex.owner = some i) (hh : k.mutex.hold - 1 = 0) (hl : k.mutex.suspendThread = []) :
    (k.rtMutexRelease i).2.mutex = { k.mutex with value := 1, owner := none, originalPriority := 0xff, hold := 0 } ∧
      (k.rtMutexRelease i).2.priority = base := by
  have hp := h.restored ho { k.mutex with hold := 0 } rfl
  have hm := restore_mutex { k with mutex := { k.mutex with hold := 0 } } i
  obtain ⟨hv, -⟩ := h.held i ho
  rw [release_last ho hh]
  generalize Ipc.restore { k with mutex := { k.mutex with hold := 0 } } i = k₁ at hp hm
  have hw : k₁.wakeup =
      (.eok, { k₁ with mutex := { k.mutex with value := 1, owner := none, originalPriority := 0xff, hold := 0 } }) := by
    simp only [wakeup, hm, hl, hv]
    rfl
  rw [hw]
  exact ⟨rfl, hp⟩

/-- `rt_mutex_release` keeps the invariant. -/
theorem Inv.release (h : Inv base k) (i : ι) : Inv base (k.rtMutexRelease i).2 := by
  by_cases ho : k.mutex.owner = some i
  · obtain ⟨hv, hpos, hnot, horig, hle, hwait⟩ := h.held i ho
    by_cases hh : k.mutex.hold - 1 = 0
    · cases hl : k.mutex.suspendThread with
      | nil =>
        obtain ⟨hm, hp⟩ := release_free h ho hh hl
        refine ⟨by rw [hm]; exact h.flag, ?_, by rw [hm]; nofun, fun j _ => congrFun hp j, by rw [hm]; exact h.nodup,
          by rw [hm]; exact h.sorted⟩
        rw [hm]
        exact fun _ => ⟨rfl, rfl, hl⟩
      | cons j rest =>
        obtain ⟨hm, hp⟩ := release_hand h ho hh hl
        have hnd := h.nodup
        have hsort := h.sorted
        rw [hl] at hnd hsort
        obtain ⟨hj, hnd⟩ := List.nodup_cons.mp hnd
        obtain ⟨hfirst, hsort⟩ := List.pairwise_cons.mp hsort
        refine ⟨by rw [hm]; exact h.flag, by rw [hm]; nofun, ?_, fun j _ => congrFun hp j, by rw [hm]; exact hnd,
          by rw [hm]; exact hsort⟩
        rw [hm, hp]
        rintro o ⟨⟩
        exact ⟨hv, by show (0 : UInt8) < 1; decide, hj, rfl, UInt8.le_refl _, hfirst⟩
    · rw [release_hold ho hh]
      refine ⟨h.flag, fun hnone => ?_, fun o ho' => ?_, h.others, h.nodup, h.sorted⟩
      · rw [show k.mutex.owner = none from hnone] at ho
        cases ho
      · obtain ⟨hv, -, hrest⟩ := h.held o ho'
        exact ⟨hv, UInt8.pos_iff_ne_zero.mpr hh, hrest⟩
  · rw [release_other ho]
    exact h.congr rfl (setError_priority k i .error)

/-- `rt_thread_timeout` keeps the invariant: the thread leaves the queue, and the owner keeps what it inherited. -/
theorem Inv.timeout (h : Inv base k) (hi : i ∈ k.mutex.suspendThread) : Inv base (k.rtThreadTimeout i) := by
  have hp : (k.rtThreadTimeout i).priority = k.priority :=
    (setTimer_priority (k.setError i .etimeout) i false).trans (setError_priority k i .etimeout)
  have hm : (k.rtThreadTimeout i).mutex = { k.mutex with suspendThread := k.mutex.suspendThread.erase i } := rfl
  refine ⟨h.flag, fun hnone => ?_, fun o ho => ?_, fun j hj => ?_, h.nodup.erase i, h.sorted.sublist List.erase_sublist⟩
  · obtain ⟨-, -, hnil⟩ := h.free hnone
    rw [hnil] at hi
    cases hi
  · obtain ⟨hv, hh, hnot, horig, hle, hwait⟩ := h.held o ho
    rw [hp, hm]
    exact ⟨hv, hh, fun hmem => hnot (List.mem_of_mem_erase hmem), horig, hle, fun w hw => hwait w (List.mem_of_mem_erase hw)⟩
  · rw [hp]
    exact h.others j hj

/-- The step lemma: every event keeps the invariant. -/
theorem Inv.step (h : Inv base k) (e : IpcEvent ι) : Inv base ((ipcMachine ι).step k e).2 := by
  cases e with
  | take i time =>
    by_cases hi : i ∈ k.mutex.suspendThread
    · simpa [ipcMachine, hi] using h
    · simpa [ipcMachine, hi] using h.take hi time
  | release i =>
    by_cases hi : i ∈ k.mutex.suspendThread
    · simpa [ipcMachine, hi] using h
    · simpa [ipcMachine, hi] using h.release i
  | timeout i =>
    by_cases hi : i ∈ k.mutex.suspendThread ∧ (k.thread i).threadTimer = true
    · simpa [ipcMachine, hi] using h.timeout hi.1
    · simpa [ipcMachine, hi] using h

/-! ## The mutex as a lock -/

/-- Asking for a free mutex. -/
theorem enter_free (h : Inv base k) (ho : k.mutex.owner = none) (i : ι) :
    (mutexLock ι).enter i k =
      (true, { k.setError i .eok with
        mutex := { k.mutex with value := 0, owner := some i, originalPriority := base i, hold := 1 } }) := by
  simp only [mutexLock, take_free h ho]

/-- Asking for a mutex another thread owns. -/
theorem enter_held (h : Inv base k) {o : ι} (ho : k.mutex.owner = some o) (hne : o ≠ i) :
    (mutexLock ι).enter i k = (false, ((k.setError i .eok).inherit o i).listSuspend i) := by
  have htime : rtWaitingForever ≠ 0 := by decide
  have hneg : ¬0 < rtWaitingForever := by decide
  simp only [mutexLock, take_held h ho hne htime, if_neg hneg]

/-- The queue after that. -/
theorem mem_suspendThread_enter (h : Inv base k) (o i j : ι) :
    j ∈ (((k.setError i .eok).inherit o i).listSuspend i).mutex.suspendThread ↔ j = i ∨ j ∈ k.mutex.suspendThread := by
  have hm := listSuspend_mutex ((k.setError i .eok).inherit o i) i (by rw [inherit_mutex]; exact h.flag)
  rw [hm, inherit_mutex]
  exact List.mem_orderedInsert _

/-- What the owner leaves: the mutex of the first waiting thread, or a free one. -/
theorem Once.leave (h : Once base k) (ho : k.mutex.owner = some i) :
    (∃ j rest, k.mutex.suspendThread = j :: rest ∧
      (k.rtMutexRelease i).2.mutex = { k.mutex with owner := some j, originalPriority := base j, hold := 1, suspendThread := rest }) ∨
    (k.mutex.suspendThread = [] ∧
      (k.rtMutexRelease i).2.mutex = { k.mutex with value := 1, owner := none, originalPriority := 0xff, hold := 0 }) := by
  cases hl : k.mutex.suspendThread with
  | nil => exact Or.inr ⟨rfl, (release_free h.1 ho (h.last ho) hl).1⟩
  | cons j rest => exact Or.inl ⟨j, rest, rfl, (release_hand h.1 ho (h.last ho) hl).1⟩

/-- In these states the mutex is a lock. -/
theorem mutexLock_lawful (base : ι → UInt8) : (mutexLock ι).Lawful (Once base) where
  owner_awake {k i} h ho := by
    obtain ⟨-, -, hnot, -⟩ := h.1.held i ho
    simpa [mutexLock] using hnot
  busy {k i} h hs hnone := by
    obtain ⟨-, -, hnil⟩ := h.1.free hnone
    simp [mutexLock, hnil] at hs
  enter_inv {k i} h hne hs := by
    have hi : i ∉ k.mutex.suspendThread := by simpa [mutexLock] using hs
    have htake := h.1.take hi rtWaitingForever
    cases ho : k.mutex.owner with
    | none =>
      rw [take_free h.1 ho] at htake
      rw [enter_free h.1 ho]
      exact ⟨htake, UInt8.le_refl _⟩
    | some o =>
      have hoi : o ≠ i := fun e => hne (e ▸ ho)
      have hm := listSuspend_mutex ((k.setError i .eok).inherit o i) i (by rw [inherit_mutex]; exact h.1.flag)
      rw [take_held h.1 ho hoi (by decide), if_neg (by decide)] at htake
      rw [enter_held h.1 ho hoi]
      refine ⟨htake, ?_⟩
      rw [hm, inherit_mutex]
      exact h.2
  enter_true {k i} h hne _ hgot := by
    cases ho : k.mutex.owner with
    | none =>
      rw [enter_free h.1 ho]
      exact ⟨ho, rfl, fun j => rfl⟩
    | some o =>
      have hoi : o ≠ i := fun e => hne (e ▸ ho)
      rw [enter_held h.1 ho hoi] at hgot
      cases hgot
  enter_false {k i} h hne _ hgot := by
    cases ho : k.mutex.owner with
    | none =>
      rw [enter_free h.1 ho] at hgot
      cases hgot
    | some o =>
      have hoi : o ≠ i := fun e => hne (e ▸ ho)
      have hm := listSuspend_mutex ((k.setError i .eok).inherit o i) i (by rw [inherit_mutex]; exact h.1.flag)
      rw [enter_held h.1 ho hoi]
      refine ⟨?_, ?_, ?_⟩
      · show (((k.setError i .eok).inherit o i).listSuspend i).mutex.owner = k.mutex.owner
        rw [hm, inherit_mutex]
        rfl
      · simp [mutexLock, mem_suspendThread_enter h.1]
      · intro j hj
        simp [mutexLock, mem_suspendThread_enter h.1, hj]
  leave_inv {k i} h ho := by
    refine ⟨h.1.release i, ?_⟩
    show (k.rtMutexRelease i).2.mutex.hold ≤ 1
    rcases h.leave ho with ⟨j, rest, -, hm⟩ | ⟨-, hm⟩
    · rw [hm]
      exact UInt8.le_refl _
    · rw [hm]
      show (0 : UInt8) ≤ 1
      decide
  leave_next {k i j} h ho hn := by
    have hn : (k.rtMutexRelease i).2.mutex.owner = some j := hn
    rcases h.leave ho with ⟨j', rest, hl, hm⟩ | ⟨-, hm⟩
    · rw [hm] at hn
      cases hn
      simp [mutexLock, hl]
    · rw [hm] at hn
      cases hn
  leave_rest {k i j} h ho hn := by
    have hn : (k.rtMutexRelease i).2.mutex.owner ≠ some j := hn
    show decide (j ∈ (k.rtMutexRelease i).2.mutex.suspendThread) = decide (j ∈ k.mutex.suspendThread)
    rcases h.leave ho with ⟨j', rest, hl, hm⟩ | ⟨-, hm⟩
    · rw [hm] at hn ⊢
      have hj : j ≠ j' := fun e => hn (e ▸ rfl)
      simp [hl, hj]
    · rw [hm]

end Calls

end Ipc

end RtStopwatch
