import Mathlib.Data.UInt
import RtStopwatch.Lib.Critical
import RtStopwatch.Lib.Queue

/-!
# The mutex of the kernel

`rt-thread/src/ipc.c`: `rt_mutex_init`, `rt_mutex_take`, `rt_mutex_release`, with what they do to the threads: the queue of the
suspended ones, the priority of the owner, the timer of a wait that is not forever (`rt_thread_timeout`). Each call runs with the
interrupts off, up to the point where the thread is suspended: taking is one step, that says what it returns or that the thread is now
suspended. The threads are any type.
-/

namespace RtStopwatch

open Lib

variable {ι : Type} [DecidableEq ι]

/-- `RT_IPC_FLAG_FIFO` and `RT_IPC_FLAG_PRIO`. -/
inductive IpcFlag where
  | fifo | prio
  deriving DecidableEq, Repr

/-- The `rt_err_t` values of the mutex calls. -/
inductive IpcErr where
  | eok | error | etimeout | efull
  deriving DecidableEq, Repr

/-- `struct rt_mutex`, with the list of suspended threads and the flag of its object. -/
structure RtMutex (ι : Type) where
  value : UInt16
  originalPriority : UInt8
  hold : UInt8
  owner : Option ι
  suspendThread : List ι
  flag : IpcFlag
  deriving DecidableEq, Repr

/-- What the mutex calls read and write of a thread; `threadTimer` says that its timer runs. -/
structure IpcThread where
  currentPriority : UInt8
  error : IpcErr
  threadTimer : Bool
  deriving DecidableEq, Repr

/-- A mutex and the threads. -/
structure Ipc (ι : Type) where
  mutex : RtMutex ι
  thread : ι → IpcThread

/-- `RT_WAITING_FOREVER`. -/
def rtWaitingForever : Int32 := -1

/-- `RT_MUTEX_HOLD_MAX`. -/
def rtMutexHoldMax : UInt8 := 255

/-- `RT_MUTEX_VALUE_MAX`. -/
def rtMutexValueMax : UInt16 := 65535

/-- `rt_mutex_init`. -/
def rtMutexInit (flag : IpcFlag) : RtMutex ι :=
  { value := 1, owner := none, originalPriority := 0xFF, hold := 0, suspendThread := [], flag := flag }

namespace Ipc

/-- The mutex just initialised, the threads at their own priorities. -/
def init (flag : IpcFlag) (priority : ι → UInt8) : Ipc ι :=
  { mutex := rtMutexInit flag, thread := fun i => { currentPriority := priority i, error := .eok, threadTimer := false } }

/-- `thread->error = e`. -/
def setError (k : Ipc ι) (i : ι) (e : IpcErr) : Ipc ι :=
  { k with thread := Function.update k.thread i { k.thread i with error := e } }

/-- `rt_thread_control(thread, RT_THREAD_CTRL_CHANGE_PRIORITY, &p)`. -/
def changePriority (k : Ipc ι) (i : ι) (p : UInt8) : Ipc ι :=
  { k with thread := Function.update k.thread i { k.thread i with currentPriority := p } }

/-- `rt_timer_start` and `rt_timer_stop` of the thread's timer. -/
def setTimer (k : Ipc ι) (i : ι) (runs : Bool) : Ipc ι :=
  { k with thread := Function.update k.thread i { k.thread i with threadTimer := runs } }

/-- `rt_ipc_list_suspend`: in the order of arrival, or before the first thread that is less urgent. -/
def listSuspend (k : Ipc ι) (i : ι) : Ipc ι :=
  let k := k.setTimer i false
  let list :=
    match k.mutex.flag with
    | .fifo => k.mutex.suspendThread ++ [i]
    | .prio =>
      k.mutex.suspendThread.orderedInsert (fun a b => (k.thread a).currentPriority < (k.thread b).currentPriority) i
  { k with mutex := { k.mutex with suspendThread := list } }

/-- The owner of the mutex gets the priority of a thread that is more urgent. -/
def inherit (k : Ipc ι) (o i : ι) : Ipc ι :=
  if (k.thread i).currentPriority < (k.thread o).currentPriority then k.changePriority o (k.thread i).currentPriority else k

/-- `rt_mutex_take`: what it returns, or nothing when the thread is suspended. A suspended thread returns its `error`. -/
def rtMutexTake (k : Ipc ι) (i : ι) (time : Int32) : Option IpcErr × Ipc ι :=
  let k := k.setError i .eok
  if k.mutex.owner = some i then
    if k.mutex.hold < rtMutexHoldMax then
      (some .eok, { k with mutex := { k.mutex with hold := k.mutex.hold + 1 } })
    else (some .efull, k)
  else if 0 < k.mutex.value then
    let m : RtMutex ι :=
      { k.mutex with
        value := k.mutex.value - 1, owner := some i, originalPriority := (k.thread i).currentPriority }
    if m.hold < rtMutexHoldMax then (some .eok, { k with mutex := { m with hold := m.hold + 1 } })
    else (some .efull, { k with mutex := m })
  else if time = 0 then (some .etimeout, k.setError i .etimeout)
  else
    -- the owner inherits the priority of a more urgent thread; a mutex that is not free has an owner (`Ipc.Inv`)
    let k :=
      match k.mutex.owner with
      | some o => k.inherit o i
      | none => k
    let k := k.listSuspend i
    (none, if 0 < time then k.setTimer i true else k)

/-- The owner that lets go of the mutex gets its own priority back. -/
def restore (k : Ipc ι) (i : ι) : Ipc ι :=
  if k.mutex.originalPriority ≠ (k.thread i).currentPriority then k.changePriority i k.mutex.originalPriority else k

/-- The mutex goes to the first suspended thread, which `rt_ipc_list_resume` takes out of the list and whose timer it stops, or it is
free. -/
def wakeup (k : Ipc ι) : IpcErr × Ipc ι :=
  match k.mutex.suspendThread with
  | j :: rest =>
    let m : RtMutex ι := { k.mutex with owner := some j, originalPriority := (k.thread j).currentPriority }
    if m.hold < rtMutexHoldMax then
      (.eok, { k with mutex := { m with hold := m.hold + 1, suspendThread := rest } }.setTimer j false)
    else (.efull, { k with mutex := m })
  | [] =>
    if k.mutex.value < rtMutexValueMax then
      (.eok, { k with mutex := { k.mutex with value := k.mutex.value + 1, owner := none, originalPriority := 0xff } })
    else (.efull, k)

/-- `rt_mutex_release`. -/
def rtMutexRelease (k : Ipc ι) (i : ι) : IpcErr × Ipc ι :=
  if k.mutex.owner ≠ some i then (.error, k.setError i .error)
  else
    let k := { k with mutex := { k.mutex with hold := k.mutex.hold - 1 } }
    if k.mutex.hold = 0 then (k.restore i).wakeup else (.eok, k)

/-- `rt_thread_timeout`: the timer of a suspended thread has run out. -/
def rtThreadTimeout (k : Ipc ι) (i : ι) : Ipc ι :=
  let k := (k.setError i .etimeout).setTimer i false
  { k with mutex := { k.mutex with suspendThread := k.mutex.suspendThread.erase i } }

end Ipc

/-- What may happen to a mutex: a thread takes or releases it, or the timer of a suspended thread runs out. -/
inductive IpcEvent (ι : Type) where
  | take (i : ι) (time : Int32)
  | release (i : ι)
  | timeout (i : ι)
  deriving DecidableEq, Repr

/-- The mutex under any events. A suspended thread makes no call, and only a timer that runs can run out. -/
def ipcMachine (ι : Type) [DecidableEq ι] : Machine (Ipc ι) (IpcEvent ι) (Option IpcErr) where
  step k
    | .take i time => if i ∈ k.mutex.suspendThread then (none, k) else k.rtMutexTake i time
    | .release i =>
      if i ∈ k.mutex.suspendThread then (none, k)
      else
        let (e, k) := k.rtMutexRelease i
        (some e, k)
    | .timeout i => if i ∈ k.mutex.suspendThread ∧ (k.thread i).threadTimer then (none, k.rtThreadTimeout i) else (none, k)

/-- The mutex as the lock of its callers: they wait forever, and go on whatever `rt_mutex_take` returns. -/
def mutexLock (ι : Type) [DecidableEq ι] : Lock ι (Ipc ι) where
  enter i k :=
    match k.rtMutexTake i rtWaitingForever with
    | (none, k) => (false, k)
    | (some _, k) => (true, k)
  leave i k := (k.rtMutexRelease i).2
  suspended k i := decide (i ∈ k.mutex.suspendThread)
  owner k := k.mutex.owner

end RtStopwatch
