import Mathlib.Logic.Basic

/-!
# Programs of atomic actions

The code of a thread as a tree: an action, and for each result it may have what the thread does next. Between two actions other
threads may run; what an action does to the state they share is a handler `(a : A) → σ → R a × σ`.
-/

namespace Lib

/-- A program over actions `A`, where an action `a` has a result in `R a`. -/
inductive Prog (A : Type) (R : A → Type) (α : Type) where
  | pure (x : α)
  | act (a : A) (k : R a → Prog A R α)

namespace Prog

variable {A : Type} {R : A → Type} {α β σ : Type}

/-- One program after another. -/
def bind : Prog A R α → (α → Prog A R β) → Prog A R β
  | .pure x, f => f x
  | .act a k, f => .act a fun r => bind (k r) f

instance : Monad (Prog A R) where
  pure := .pure
  bind := bind

/-- The actions of a run that nothing interrupts. -/
def acts (h : (a : A) → σ → R a × σ) : Prog A R α → σ → List A
  | .pure _, _ => []
  | .act a k, s => a :: acts h (k (h a s).1) (h a s).2

/-- The result of a run that nothing interrupts, and the state it leaves. -/
def exec (h : (a : A) → σ → R a × σ) : Prog A R α → σ → α × σ
  | .pure x, s => (x, s)
  | .act a k, s => exec h (k (h a s).1) (h a s).2

/-- Every action the program may take satisfies `U`. -/
def Uses (U : A → Prop) : Prog A R α → Prop
  | .pure _ => True
  | .act a k => U a ∧ ∀ r, Uses U (k r)

/-- Every run of the program ends with the action `a`, and takes it only there. -/
def EndsWith (a : A) : Prog A R α → Prop
  | .pure _ => False
  | .act b k => b = a ∧ (∀ r, ∃ x, k r = .pure x) ∨ b ≠ a ∧ ∀ r, EndsWith a (k r)

@[simp] theorem acts_pure (h : (a : A) → σ → R a × σ) (x : α) (s : σ) : acts h (Pure.pure x : Prog A R α) s = [] := rfl

@[simp] theorem exec_pure (h : (a : A) → σ → R a × σ) (x : α) (s : σ) : exec h (Pure.pure x : Prog A R α) s = (x, s) := rfl

@[simp] theorem acts_act (h : (a : A) → σ → R a × σ) (a : A) (k : R a → Prog A R α) (s : σ) :
    acts h (.act a k) s = a :: acts h (k (h a s).1) (h a s).2 := rfl

@[simp] theorem exec_act (h : (a : A) → σ → R a × σ) (a : A) (k : R a → Prog A R α) (s : σ) :
    exec h (.act a k) s = exec h (k (h a s).1) (h a s).2 := rfl

/-- The actions of one program after another. -/
@[simp] theorem acts_bind (h : (a : A) → σ → R a × σ) (p : Prog A R α) (f : α → Prog A R β) (s : σ) :
    acts h (p >>= f) s = acts h p s ++ acts h (f (exec h p s).1) (exec h p s).2 := by
  induction p generalizing s with
  | pure x => rfl
  | act a k ih => exact congrArg (a :: ·) (ih _ _)

@[simp] theorem exec_bind (h : (a : A) → σ → R a × σ) (p : Prog A R α) (f : α → Prog A R β) (s : σ) :
    exec h (p >>= f) s = exec h (f (exec h p s).1) (exec h p s).2 := by
  induction p generalizing s with
  | pure x => rfl
  | act a k ih => exact ih _ _

theorem acts_ite (h : (a : A) → σ → R a × σ) (p : Prop) [Decidable p] (x y : Prog A R α) (s : σ) :
    acts h (if p then x else y) s = if p then acts h x s else acts h y s := by
  split
  · rfl
  · rfl

theorem exec_ite (h : (a : A) → σ → R a × σ) (p : Prop) [Decidable p] (x y : Prog A R α) (s : σ) :
    exec h (if p then x else y) s = if p then exec h x s else exec h y s := by
  split
  · rfl
  · rfl

theorem Uses.bind {U : A → Prop} {p : Prog A R α} (hp : p.Uses U) {f : α → Prog A R β} (hf : ∀ x, (f x).Uses U) :
    (p >>= f).Uses U := by
  induction p with
  | pure x => exact hf x
  | act a k ih => exact ⟨hp.1, fun r => ih r (hp.2 r)⟩

theorem EndsWith.bind {a : A} {p : Prog A R α} (hp : p.Uses (· ≠ a)) {f : α → Prog A R β} (hf : ∀ x, (f x).EndsWith a) :
    (p >>= f).EndsWith a := by
  induction p with
  | pure x => exact hf x
  | act b k ih => exact Or.inr ⟨hp.1, fun r => ih r (hp.2 r)⟩

end Prog

end Lib
