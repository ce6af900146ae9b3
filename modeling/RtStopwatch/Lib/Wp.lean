import RtStopwatch.Lib.Critical

/-!
# Weakest preconditions of the code under a lock

What a call computes when nothing comes between its accesses (`Prog.wp`), whatever the instants of the accesses are, as long as they
are among `T`; and the rules that show a call to take and give back its lock as it should.
-/

namespace Lib

variable {A : Type} {R : A → Type} {α β σ θ : Type}

namespace Prog

/-- From the state `s` the program ends with `Q`, its accesses at any instants of `T`. -/
def wp (h : θ → (a : A) → σ → R a × σ) (T : θ → Prop) : Prog A R α → (α → σ → Prop) → σ → Prop
  | .pure x, Q, s => Q x s
  | .act a k, Q, s => ∀ t, T t → wp h T (k (h t a s).1) Q (h t a s).2

variable {h : θ → (a : A) → σ → R a × σ} {T : θ → Prop}

/-- What `wp` promises is what a run gives. -/
theorem wp.sound {p : Prog A R α} {Q : α → σ → Prop} {s : σ} (hp : p.wp h T Q s) {ts : List θ} (hts : ∀ t ∈ ts, T t) {x : α} {s' : σ}
    (hrun : p.execAt h s ts = some (x, s')) : Q x s' := by
  induction p generalizing s ts with
  | pure y =>
    cases ts with
    | nil =>
      cases hrun
      exact hp
    | cons t ts => cases hrun
  | act a k ih =>
    cases ts with
    | nil => cases hrun
    | cons t ts => exact ih _ (hp t (hts t (by simp))) (fun u hu => hts u (by simp [hu])) hrun

@[simp] theorem wp_pure (x : α) (Q : α → σ → Prop) (s : σ) : (Pure.pure x : Prog A R α).wp h T Q s ↔ Q x s := Iff.rfl

@[simp] theorem wp_bind (p : Prog A R α) (f : α → Prog A R β) (Q : β → σ → Prop) (s : σ) :
    (p >>= f).wp h T Q s ↔ p.wp h T (fun x => (f x).wp h T Q) s := by
  induction p generalizing s with
  | pure x => exact Iff.rfl
  | act a k ih => exact forall₂_congr fun t _ => ih _ _

theorem wp_act (a : A) (Q : R a → σ → Prop) (s : σ) :
    (Prog.act a .pure).wp h T Q s ↔ ∀ t, T t → Q (h t a s).1 (h t a s).2 := Iff.rfl

/-- An access to which the instant does not matter. -/
theorem wp_act_of_const {a : A} {Q : R a → σ → Prop} {s : σ} {r : R a} {s' : σ} (hT : ∃ t, T t) (ha : ∀ t, h t a s = (r, s')) :
    (Prog.act a .pure).wp h T Q s ↔ Q r s' := by
  rw [wp_act]
  constructor
  · intro hq
    obtain ⟨t, ht⟩ := hT
    have := hq t ht
    rwa [ha t] at this
  · intro hq t _
    rwa [ha t]

/-- The rule of consequence. -/
theorem wp.mono {p : Prog A R α} {Q Q' : α → σ → Prop} {s : σ} (hp : p.wp h T Q s) (hQ : ∀ x s, Q x s → Q' x s) : p.wp h T Q' s := by
  induction p generalizing s with
  | pure x => exact hQ x s hp
  | act a k ih => exact fun t ht => ih _ (hp t ht)

/-! ### The code without its lock -/

@[simp] theorem strip_pure (x : α) : strip (Pure.pure x : LockProg A R α) = Pure.pure x := rfl

@[simp] theorem strip_bind (p : LockProg A R α) (f : α → LockProg A R β) :
    strip (p >>= f) = strip p >>= fun x => strip (f x) := by
  induction p with
  | pure x => rfl
  | act a k ih =>
    cases a with
    | enter => exact ih true
    | resume => exact ih ()
    | leave => exact ih ()
    | access a => exact congrArg (Prog.act a) (funext ih)

theorem strip_ite (p : Prop) [Decidable p] (x y : LockProg A R α) : strip (if p then x else y) = if p then strip x else strip y := by
  split
  · rfl
  · rfl

/-! ### Code inside the critical section -/

section Keeps

variable (h : θ → (a : A) → σ → R a × σ) (J : σ → Prop)

/-- The code only accesses the memory, and keeps `J`. -/
def Keeps : LockProg A R α → Prop
  | .pure _ => True
  | .act (.access a) k => (∀ t s, J s → J (h t a s).2) ∧ ∀ r, Keeps (k r)
  | .act .enter _ | .act .resume _ | .act .leave _ => False

end Keeps

variable {J : σ → Prop}

theorem Keeps.pure (x : α) : (Pure.pure x : LockProg A R α).Keeps h J := trivial

theorem Keeps.access {a : A} (ha : ∀ t s, J s → J (h t a s).2) : (Prog.act (.access a) .pure : LockProg A R (R a)).Keeps h J :=
  ⟨ha, fun _ => trivial⟩

theorem Keeps.bind {p : LockProg A R α} (hp : p.Keeps h J) {f : α → LockProg A R β} (hf : ∀ x, (f x).Keeps h J) :
    (p >>= f).Keeps h J := by
  induction p with
  | pure x => exact hf x
  | act a k ih =>
    cases a with
    | access a => exact ⟨hp.1, fun r => ih r (hp.2 r)⟩
    | enter | resume | leave => exact hp.elim

theorem Keeps.ite {p : Prop} [Decidable p] {x y : LockProg A R α} (hx : x.Keeps h J) (hy : y.Keeps h J) :
    (if p then x else y).Keeps h J := by
  split
  · exact hx
  · exact hy

theorem Keeps.inside {p : LockProg A R α} (hp : p.Keeps h J) {f : α → LockProg A R β} (hf : ∀ x, (f x).Inside h J) :
    (p >>= f).Inside h J := by
  induction p with
  | pure x => exact hf x
  | act a k ih =>
    cases a with
    | access a => exact ⟨hp.1, fun r => ih r (hp.2 r)⟩
    | enter | resume | leave => exact hp.elim

end Prog

end Lib
