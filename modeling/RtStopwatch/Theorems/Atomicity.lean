import RtStopwatch.Lib.Linear
import RtStopwatch.Lemmas.Board
import RtStopwatch.Lemmas.Locked
import RtStopwatch.Lemmas.Mutex

/-!
# The stopwatch calls are atomic

However the scheduler interleaves the accesses of any number of threads, the calls of `stopwatch.h` return what the calls of
`boardPlatform` return one after another, each at one instant of its own (`stopwatch_calls_atomic`): what the header calls a
thread-safe snapshot, down to `rt_mutex_take` and `rt_mutex_release`.
-/

namespace RtStopwatch

open Lib

variable {c : Config} {ι : Type} [DecidableEq ι]

/-- An instant is no later than another when both counts are. -/
instance : Preorder Instant := Preorder.lift fun i => (i.cyc, i.tick)

instance (i j : Instant) : Decidable (i ≤ j) := inferInstanceAs (Decidable (i.cyc ≤ j.cyc ∧ i.tick ≤ j.tick))

/-- Two stopwatches that differ at most in the tick that is stored and never read. -/
def Stopwatch.SameButTick (s s' : Stopwatch c) : Prop := s' = { s with stateStartTick := s'.stateStartTick }

theorem sameButTick_of_eq {s s' : Stopwatch c} {x : UInt32} (h : s' = { s with stateStartTick := x }) : s.SameButTick s' := by
  subst h
  rfl

/-- No call reads the tick. -/
theorem step_sameButTick {s s' : Stopwatch c} (h : s.SameButTick s') (hs : s.gInited = true) (op : Op) (r : Reading) :
    (s'.step op r).1 = (s.step op r).1 ∧ (s.step op r).2.SameButTick (s'.step op r).2 ∧ (op.Reads s' ↔ op.Reads s) := by
  rw [Stopwatch.SameButTick] at h
  generalize s'.stateStartTick = x at h
  subst h
  have hs' : ({ s with stateStartTick := x } : Stopwatch c).gInited = true := hs
  cases op with
  | start =>
    by_cases hr : s.state = .running
    · rw [step_start_of_running hs _ hr, step_start_of_running hs' _ hr]
      exact ⟨rfl, rfl, Iff.rfl⟩
    · rw [step_start hs _ hr, step_start hs' _ hr]
      exact ⟨rfl, rfl, Iff.rfl⟩
  | stop =>
    by_cases hr : s.state = .running
    · rw [step_stop hs _ hr, step_stop hs' _ hr]
      exact ⟨rfl, rfl, Iff.rfl⟩
    · rw [step_stop_of_not_running hs _ hr, step_stop_of_not_running hs' _ hr]
      exact ⟨rfl, rfl, Iff.rfl⟩
  | reset =>
    by_cases hr : s.state = .running
    · rw [step_reset_of_running hs _ hr, step_reset_of_running hs' _ hr]
      exact ⟨rfl, rfl, Iff.rfl⟩
    · rw [step_reset_of_not_running hs _ hr, step_reset_of_not_running hs' _ hr]
      exact ⟨rfl, rfl, Iff.rfl⟩
  | lap =>
    rw [step_lap hs, step_lap hs']
    refine ⟨rfl, ?_, Iff.rfl⟩
    by_cases hlt : s.lapCount.toNat < c.maxLaps
    · simp only [Stopwatch.storeLap, dif_pos hlt]
      rfl
    · simp only [Stopwatch.storeLap, dif_neg hlt]
      rfl
  | clearLaps =>
    rw [step_clearLaps hs, step_clearLaps hs']
    exact ⟨rfl, rfl, Iff.rfl⟩
  | getState =>
    rw [step_getState hs, step_getState hs']
    exact ⟨rfl, rfl, Iff.rfl⟩
  | getTotalMs =>
    rw [step_getTotalMs hs, step_getTotalMs hs']
    exact ⟨rfl, rfl, Iff.rfl⟩
  | getLapCount =>
    rw [step_getLapCount hs, step_getLapCount hs']
    exact ⟨rfl, rfl, Iff.rfl⟩
  | getLapMs i =>
    rw [step_getLapMs hs, step_getLapMs hs']
    exact ⟨rfl, rfl, Iff.rfl⟩
  | getLatestLapMs =>
    rw [step_getLatestLapMs hs, step_getLatestLapMs hs']
    exact ⟨rfl, rfl, Iff.rfl⟩

/-- The board on its hardware, without the registers that time moves. -/
def SameHw (hw : Hw) (b : Board) : Prop := ∀ t, b.hw.moveTo t = hw.moveTo t

theorem sameHw_moveTo {hw : Hw} {b : Board} (h : SameHw hw b) (t : Instant) : SameHw hw (b.moveTo t) := fun u => h u

/-- The memory of the threads is that of the atomic calls, up to the tick. -/
structure SameMem (hw : Hw) (m : SwMem c) (w : Stopwatch c × Board) : Prop where
  inited : w.1.gInited = true
  sw : w.1.SameButTick m.sw
  tb : m.tb = w.2.tb
  hw : SameHw hw w.2

/-- Every call makes an access. -/
theorem execAt_code_nil (hw : Hw) (m : SwMem c) (op : Op) : (Locked.code c op).strip.execAt (Access.perform hw) m [] = none := by
  cases op with
  | start | stop | reset | lap | clearLaps | getState | getTotalMs | getLapCount | getLapMs | getLatestLapMs => rfl

/-- One call, run with nothing between its accesses, is the atomic call at one of its instants. -/
theorem call_atomic {hw : Hw} {m m' : SwMem c} {w : Stopwatch c × Board} (hm : SameMem hw m w) {d : Done Instant Op Ret}
    (hrun : (Locked.code c d.op).strip.execAt (Access.perform hw) m d.times = some (d.ret, m')) :
    ∃ t ∈ d.times, ((boardPlatform.machine c).step w (d.op, t)).1 = d.ret ∧
      SameMem hw m' ((boardPlatform.machine c).step w (d.op, t)).2 := by
  have hT : ∃ t, t ∈ d.times := by
    apply List.exists_mem_of_ne_nil
    intro hnil
    rw [hnil, execAt_code_nil] at hrun
    cases hrun
  have hms : m.sw.gInited = true := by
    rw [hm.sw]
    exact hm.inited
  have hwp : (Locked.code c d.op).strip.wp (Access.perform hw) (· ∈ d.times) (Locked.Does hw (· ∈ d.times) d.op m) m :=
    Locked.wp_code hT hms d.op
  obtain ⟨t, ht, x, hret, hsw, htb⟩ := hwp.sound (fun _ => id) hrun
  have hus : Locked.us hw m t = (boardPlatform.timebaseGetUs (w.2.moveTo t)).1 := by
    show (timebaseGetUs m.tb (hw.moveTo t)).1 = (timebaseGetUs w.2.tb (w.2.hw.moveTo t)).1
    rw [hm.tb, hm.hw t]
  have htick : (hw.moveTo t).rtTick = boardPlatform.rtTickGet (w.2.moveTo t) := by
    show _ = (w.2.hw.moveTo t).rtTick
    rw [hm.hw t]
  obtain ⟨hout, hsame, hreads⟩ := step_sameButTick hm.sw hm.inited d.op
    ⟨(boardPlatform.timebaseGetUs (w.2.moveTo t)).1, boardPlatform.rtTickGet (w.2.moveTo t)⟩
  rw [hus, htick] at hret hsw
  refine ⟨t, ht, ?_, ?_⟩
  · simp only [Platform.machine, Op.run_eq boardPlatform d.op w.1 _ hm.inited]
    exact (hret.trans hout).symm
  · simp only [Platform.machine, Op.run_eq boardPlatform d.op w.1 _ hm.inited]
    refine ⟨step_gInited hm.inited _ _, ?_, ?_, ?_⟩
    · rw [Stopwatch.SameButTick] at hsame
      rw [hsw, hsame]
      rfl
    · rw [htb]
      by_cases hr : d.op.Reads w.1
      · rw [if_pos (hreads.mpr hr), if_pos hr]
        show (timebaseGetUs m.tb (hw.moveTo t)).2 = (timebaseGetUs w.2.tb (w.2.hw.moveTo t)).2
        rw [hm.tb, hm.hw t]
      · rw [if_neg (mt hreads.mp hr), if_neg hr]
        exact hm.tb
    · split
      · exact sameHw_moveTo hm.hw t
      · exact sameHw_moveTo hm.hw t

/-- Calls one after another are atomic calls, each at one of its instants. -/
theorem calls_atomic {hw : Hw} {m m' : SwMem c} {w : Stopwatch c × Board} (hm : SameMem hw m w) {hist : List (Done Instant Op Ret)}
    (hser : Serial (Access.perform hw) (fun op => (Locked.code c op).strip) m hist m') :
    ∃ ts : List Instant, List.Forall₂ (fun t d => t ∈ d.times) ts hist ∧
      (boardPlatform.machine c).outs w ((hist.map Done.op).zip ts) = hist.map Done.ret ∧
      SameMem hw m' ((boardPlatform.machine c).run w ((hist.map Done.op).zip ts)) := by
  induction hist generalizing m w with
  | nil =>
    cases hser
    exact ⟨[], List.Forall₂.nil, rfl, hm⟩
  | cons d hist ih =>
    obtain ⟨u, hd, hrest⟩ := hser
    obtain ⟨t, ht, hret, hu⟩ := call_atomic hm hd
    obtain ⟨ts, hts, houts, hm'⟩ := ih hu hrest
    refine ⟨t :: ts, List.Forall₂.cons ht hts, ?_, hm'⟩
    simp only [List.map_cons, List.zip_cons_cons, Machine.outs_cons, hret, houts]

/-- The stopwatch calls are atomic. Whatever threads make whatever calls, at whatever priorities and under whatever schedule: the calls
that have returned are, in the order of their returns, calls made one after another, each as a whole at an instant of the run, the
instants never going back; they return the same, and while nobody holds the mutex they leave the same stopwatch and time base, except
for the tick that `stopwatch_start` stores and nothing reads. And the threads never block each other for good: as long as a call is not
over, a thread that is in a call can go on. -/
theorem stopwatch_calls_atomic (c : Config) (base : ι → UInt8) (b : Board) (es : List (Sched ι Op × Instant))
    (hclock : Clocked Prod.snd es) :
    ∃ calls : List (Op × Instant), Clocked Prod.snd calls ∧ (∀ x ∈ calls, x.2 ∈ es.map Prod.snd) ∧
      ((lockedMachine ι c b.hw).outs (Threads.start (Ipc.init .prio base) ⟨Stopwatch.fresh c, b.tb⟩) es).filterMap id =
        (calls.map Prod.fst).zip ((boardPlatform.machine c).outs (Stopwatch.fresh c, b) calls) ∧
      (let S := (lockedMachine ι c b.hw).run (Threads.start (Ipc.init .prio base) ⟨Stopwatch.fresh c, b.tb⟩) es
       let w := (boardPlatform.machine c).run (Stopwatch.fresh c, b) calls
       (S.lock.mutex.owner = none → w.1.SameButTick S.mem.sw ∧ S.mem.tb = w.2.tb) ∧
        ((∃ i, (S.call i).isSome) → ∃ i, (S.call i).isSome ∧ i ∉ S.lock.mutex.suspendThread)) := by
  have hcode : ∀ op, (Locked.code c op).Outside (Access.perform b.hw) (SwMem.Inited (c := c)) := Locked.outside_code
  obtain ⟨hist, m', hout, hser, hsorted, hmem, hfree, hrun⟩ :=
    serial_of_run (Ipc.mutexLock_lawful base) hcode ⟨Ipc.Inv.init base, UInt8.zero_le⟩
      rfl (fun _ => rfl) (m := ⟨Stopwatch.fresh c, b.tb⟩) rfl hclock
  have hstart : SameMem b.hw ⟨Stopwatch.fresh c, b.tb⟩ (Stopwatch.fresh c, b) := ⟨rfl, rfl, rfl, fun _ => rfl⟩
  obtain ⟨ts, hts, houts, hm'⟩ := calls_atomic hstart hser
  have hsub := sublist_flatMap_times hts
  have hlen : ts.length = (hist.map Done.op).length := by
    rw [List.length_map]
    exact hts.length_eq
  have hsnd : ((hist.map Done.op).zip ts).map Prod.snd = ts := List.map_snd_zip hlen.le
  have hfst : ((hist.map Done.op).zip ts).map Prod.fst = hist.map Done.op := List.map_fst_zip hlen.ge
  refine ⟨(hist.map Done.op).zip ts, ?_, ?_, ?_, ?_, ?_⟩
  · rw [Clocked, hsnd]
    exact hsorted.sublist hsub
  · intro x hx
    have : x.2 ∈ ts := hsnd ▸ List.mem_map_of_mem hx
    exact hmem _ (hsub.subset this)
  · rw [hfst, houts, List.zip_map']
    exact hout.symm
  · intro hnone
    have := hfree hnone
    exact ⟨this ▸ hm'.sw, this ▸ hm'.tb⟩
  · rintro ⟨i, hi⟩
    obtain ⟨x, hx⟩ := Option.isSome_iff_exists.mp hi
    obtain ⟨j, d, hj, hs⟩ := hrun i x hx
    exact ⟨j, by rw [lockedMachine, hj]; rfl, of_decide_eq_false hs⟩

/-- A thread starts the stopwatch while another asks for its state. -/
def twoThreads : List (Sched Bool Op × Instant) :=
  [(.begin true .start, ⟨5, 0⟩), (.begin false .getState, ⟨6, 0⟩), (.step true, ⟨7, 0⟩), (.step true, ⟨8, 0⟩),
    (.step false, ⟨9, 0⟩), (.step false, ⟨10, 0⟩)] ++
    List.replicate 14 (.step true, ⟨11, 0⟩) ++ List.replicate 3 (.step false, ⟨12, 0⟩)

/-- The second waits for the first, and both return. -/
theorem stopwatch_calls_atomic_two :
    let b := (Board.boot 72000000 true).init
    ∃ calls : List (Op × Instant), Clocked Prod.snd calls ∧
      [(.start, .done), (.getState, .state .running)] =
        (calls.map Prod.fst).zip ((boardPlatform.machine Config.standard).outs (Stopwatch.fresh Config.standard, b) calls) := by
  have hclock : Clocked Prod.snd twoThreads := by
    unfold Clocked
    decide
  obtain ⟨calls, h, -, hout, -⟩ :=
    stopwatch_calls_atomic Config.standard (fun _ : Bool => 20) (Board.boot 72000000 true).init twoThreads hclock
  refine ⟨calls, h, ?_⟩
  rw [← hout]
  rfl

end RtStopwatch
