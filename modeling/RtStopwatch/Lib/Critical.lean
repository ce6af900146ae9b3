import RtStopwatch.Lib.Machine
import RtStopwatch.Lib.Prog

/-!
# Critical sections

Threads whose calls access shared memory under one lock, and every interleaving of them. A call asks for the lock, is suspended if it
is not free, accesses the memory, gives the lock back and returns; before it asks it may only read what no call changes (`Outside`,
`Inside`). The lock is any that hands over as `Lock.Lawful` says. `Lib.Linear` proves that whatever the schedule, the calls return what
they return one after another.
-/

namespace Lib

/-- What a call does: ask for the lock, wait until it is handed over, give it back, or access what it protects. -/
inductive LockAct (A : Type) where
  | enter | resume | leave
  | access (a : A)

/-- The results: asking says whether the lock was free. -/
@[reducible] def LockAct.Result {A : Type} (R : A → Type) : LockAct A → Type
  | .enter => Bool
  | .resume | .leave => Unit
  | .access a => R a

/-- A program that takes and gives back a lock. -/
abbrev LockProg (A : Type) (R : A → Type) (α : Type) : Type := Prog (LockAct A) (LockAct.Result R) α

/-- A lock with states `κ`, of threads `ι`. -/
structure Lock (ι κ : Type) where
  enter : ι → κ → Bool × κ
  leave : ι → κ → κ
  suspended : κ → ι → Bool
  owner : κ → Option ι

/-- What makes it a lock, in the states of an invariant: who enters a free lock owns it, who does not is suspended as long as another
owns it, and the one who leaves hands it to a suspended thread or frees it. -/
structure Lock.Lawful {ι κ : Type} (L : Lock ι κ) (Inv : κ → Prop) : Prop where
  owner_awake : ∀ {k i}, Inv k → L.owner k = some i → L.suspended k i = false
  busy : ∀ {k i}, Inv k → L.suspended k i = true → L.owner k ≠ none
  enter_inv : ∀ {k i}, Inv k → L.owner k ≠ some i → L.suspended k i = false → Inv (L.enter i k).2
  enter_true : ∀ {k i}, Inv k → L.owner k ≠ some i → L.suspended k i = false → (L.enter i k).1 = true →
    L.owner k = none ∧ L.owner (L.enter i k).2 = some i ∧ ∀ j, L.suspended (L.enter i k).2 j = L.suspended k j
  enter_false : ∀ {k i}, Inv k → L.owner k ≠ some i → L.suspended k i = false → (L.enter i k).1 = false →
    L.owner (L.enter i k).2 = L.owner k ∧ L.suspended (L.enter i k).2 i = true ∧
      ∀ j, j ≠ i → L.suspended (L.enter i k).2 j = L.suspended k j
  leave_inv : ∀ {k i}, Inv k → L.owner k = some i → Inv (L.leave i k)
  leave_next : ∀ {k i j}, Inv k → L.owner k = some i → L.owner (L.leave i k) = some j → L.suspended k j = true
  leave_rest : ∀ {k i j}, Inv k → L.owner k = some i → L.owner (L.leave i k) ≠ some j →
    L.suspended (L.leave i k) j = L.suspended k j

namespace Prog

variable {A : Type} {R : A → Type} {α σ θ : Type}

/-- A run of a program, its accesses at the instants given, one each. -/
def execAt (h : θ → (a : A) → σ → R a × σ) : Prog A R α → σ → List θ → Option (α × σ)
  | .pure x, s, [] => some (x, s)
  | .act a k, s, t :: ts => execAt h (k (h t a s).1) (h t a s).2 ts
  | .pure _, _, _ :: _ => none
  | .act _ _, _, [] => none

/-- The accesses of a locked program: the program that nothing interrupts. -/
def strip : LockProg A R α → Prog A R α
  | .pure x => .pure x
  | .act .enter k => strip (k true)
  | .act .resume k => strip (k ())
  | .act .leave k => strip (k ())
  | .act (.access a) k => .act a fun r => strip (k r)

section Discipline

variable (h : θ → (a : A) → σ → R a × σ) (J : σ → Prop)

/-- Inside the critical section: accesses that keep `J`, then the lock is given back and the call returns. -/
def Inside : LockProg A R α → Prop
  | .act (.access a) k => (∀ t s, J s → J (h t a s).2) ∧ ∀ r, Inside (k r)
  | .act .leave k => ∃ x, k () = .pure x
  | .pure _ | .act .enter _ | .act .resume _ => False

/-- Before the critical section: accesses that change nothing and have the same result as long as `J` holds, then the lock is asked
for, and waited for if it was not free. -/
def Outside : LockProg A R α → Prop
  | .act (.access a) k => ∃ r, (∀ t s, J s → h t a s = (r, s)) ∧ Outside (k r)
  | .act .enter k => Inside h J (k true) ∧ k false = .act .resume fun _ => k true
  | .pure _ | .act .leave _ | .act .resume _ => False

end Discipline

end Prog

/-! ## The threads -/

section Threads

variable {A : Type} {R : A → Type} {ι κ σ θ O V : Type}

/-- The lock, the memory, and for each thread the call it is in and what is left of it. -/
structure Threads (ι κ σ O A : Type) (R : A → Type) (V : Type) where
  lock : κ
  mem : σ
  call : ι → Option (O × LockProg A R V)

/-- What may happen: a thread that is in no call begins one, or a thread does its next action. -/
inductive Sched (ι O : Type) where
  | begin (i : ι) (op : O)
  | step (i : ι)
  deriving DecidableEq

variable [DecidableEq ι]

/-- The thread goes on with the rest of its call, or returns from it. -/
def Threads.goOn (S : Threads ι κ σ O A R V) (i : ι) (op : O) : LockProg A R V → Option (O × V) × Threads ι κ σ O A R V
  | .pure x => (some (op, x), { S with call := Function.update S.call i none })
  | .act a k => (none, { S with call := Function.update S.call i (some (op, .act a k)) })

/-- The next action of a call, at an instant. A suspended thread does not run. -/
def Threads.act (L : Lock ι κ) (h : θ → (a : A) → σ → R a × σ) (S : Threads ι κ σ O A R V) (i : ι) (t : θ) (op : O) :
    LockProg A R V → Option (O × V) × Threads ι κ σ O A R V
  | .pure x => S.goOn i op (.pure x)
  | .act .enter k =>
    let (got, lock) := L.enter i S.lock
    { S with lock := lock }.goOn i op (k got)
  | .act .resume k => if L.suspended S.lock i then (none, S) else S.goOn i op (k ())
  | .act .leave k => { S with lock := L.leave i S.lock }.goOn i op (k ())
  | .act (.access a) k =>
    let (r, mem) := h t a S.mem
    { S with mem := mem }.goOn i op (k r)

/-- The threads as a machine. Its output is the call that has returned, and what it returned. -/
def threadsMachine (L : Lock ι κ) (h : θ → (a : A) → σ → R a × σ) (code : O → LockProg A R V) :
    Machine (Threads ι κ σ O A R V) (Sched ι O × θ) (Option (O × V)) where
  step S e :=
    match e.1 with
    | .begin i op =>
      match S.call i with
      | none => (none, { S with call := Function.update S.call i (some (op, code op)) })
      | some _ => (none, S)
    | .step i =>
      match S.call i with
      | none => (none, S)
      | some (op, p) => S.act L h i e.2 op p

/-- A call that has returned: what it returned, and the instants of its accesses. -/
structure Done (θ O V : Type) where
  op : O
  ret : V
  times : List θ

/-- The calls one after another, nothing between their accesses, lead from a memory to a memory. -/
def Serial (h : θ → (a : A) → σ → R a × σ) (code : O → Prog A R V) : σ → List (Done θ O V) → σ → Prop
  | s, [], s' => s' = s
  | s, c :: cs, s' => ∃ u, (code c.op).execAt h s c.times = some (c.ret, u) ∧ Serial h code u cs s'

end Threads

end Lib
