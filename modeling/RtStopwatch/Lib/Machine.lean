import Mathlib.Order.Basic
import Mathlib.Data.List.Basic

/-!
# Deterministic machines and their runs

A machine takes an event, gives an output and moves to its next state. Nothing here knows what the events are. The rules at the
end are the ones a development over such a machine is made of: an invariant kept by every step holds at the end of every run,
also when the events carry times that never go back (`run_clocked`), also when each step is only known to keep it under a
guard that the run meets (`Meets`), and for two machines driven by the same events at once (`prod`).
-/

namespace Lib

/-- The times of the events never go back. -/
def Clocked {ε T : Type} [LE T] (time : ε → T) (es : List ε) : Prop := (es.map time).Pairwise (· ≤ ·)

/-- Up to any event of such a run the times are no later than its own. -/
theorem Clocked.at_step {ε T : Type} [LE T] {time : ε → T} {pre post : List ε} {e : ε}
    (h : Clocked time (pre ++ e :: post)) : Clocked time pre ∧ ∀ x ∈ pre, time x ≤ time e := by
  rw [Clocked, List.map_append, List.pairwise_append] at h
  obtain ⟨hpre, -, hle⟩ := h
  refine ⟨hpre, ?_⟩
  intro x hx
  exact hle _ (List.mem_map_of_mem hx) _ (by simp)

/-- A deterministic machine with states `σ`, events `ε` and an output `ο` for each event. -/
structure Machine (σ ε ο : Type) where
  step : σ → ε → ο × σ

namespace Machine

variable {σ σ' ε ο ο' : Type}

/-- The state a list of events leads to. -/
def run (M : Machine σ ε ο) : σ → List ε → σ
  | s, [] => s
  | s, e :: es => run M (M.step s e).2 es

/-- The outputs of a list of events, in order. -/
def outs (M : Machine σ ε ο) : σ → List ε → List ο
  | _, [] => []
  | s, e :: es => (M.step s e).1 :: outs M (M.step s e).2 es

/-- Every step of the run meets the guard `G`, read in the state the step is taken from. -/
def Meets (M : Machine σ ε ο) (G : σ → ε → Prop) : σ → List ε → Prop
  | _, [] => True
  | s, e :: es => G s e ∧ Meets M G (M.step s e).2 es

/-- A guard that can be decided at each step can be decided on a run. -/
instance decidableMeets (M : Machine σ ε ο) (G : σ → ε → Prop) [∀ s e, Decidable (G s e)] (s : σ) :
    (es : List ε) → Decidable (M.Meets G s es)
  | [] => isTrue trivial
  | e :: es => @instDecidableAnd _ _ _ (decidableMeets M G (M.step s e).2 es)

/-- Two machines driven by the same events. -/
def prod (M : Machine σ ε ο) (N : Machine σ' ε ο') : Machine (σ × σ') ε (ο × ο') where
  step s e := (((M.step s.1 e).1, (N.step s.2 e).1), ((M.step s.1 e).2, (N.step s.2 e).2))

@[simp] theorem run_cons (M : Machine σ ε ο) (s : σ) (e : ε) (es : List ε) :
    M.run s (e :: es) = M.run (M.step s e).2 es := rfl

@[simp] theorem outs_cons (M : Machine σ ε ο) (s : σ) (e : ε) (es : List ε) :
    M.outs s (e :: es) = (M.step s e).1 :: M.outs (M.step s e).2 es := rfl

theorem run_append (M : Machine σ ε ο) (s : σ) (es fs : List ε) : M.run s (es ++ fs) = M.run (M.run s es) fs := by
  induction es generalizing s with
  | nil => rfl
  | cons e es ih => exact ih _

/-- A run of the product is a run of each machine. -/
theorem run_prod (M : Machine σ ε ο) (N : Machine σ' ε ο') (s : σ) (t : σ') (es : List ε) :
    (M.prod N).run (s, t) es = (M.run s es, N.run t es) := by
  induction es generalizing s t with
  | nil => rfl
  | cons e es ih => exact ih _ _

/-- A guard on the events alone is met by every run over such events. -/
theorem meets_of_forall (M : Machine σ ε ο) {G : σ → ε → Prop} {es : List ε} (h : ∀ e ∈ es, ∀ s, G s e) (s : σ) :
    M.Meets G s es := by
  induction es generalizing s with
  | nil => trivial
  | cons e es ih => exact ⟨h e (by simp) s, ih (fun e' he' => h e' (by simp [he'])) _⟩

theorem Meets.and {M : Machine σ ε ο} {G H : σ → ε → Prop} {s : σ} {es : List ε} (hg : M.Meets G s es)
    (hh : M.Meets H s es) : M.Meets (fun s e => G s e ∧ H s e) s es := by
  induction es generalizing s with
  | nil => trivial
  | cons e es ih => exact ⟨⟨hg.1, hh.1⟩, ih hg.2 hh.2⟩

/-! ### A machine seen through a part of its state -/

section Project

variable {M : Machine σ ε ο} {N : Machine σ' ε ο'} {f : σ' → σ}
  (hf : ∀ s e, f (N.step s e).2 = (M.step (f s) e).2)
include hf

/-- A machine whose state projects to that of another, step by step, projects run by run. -/
theorem run_map (s : σ') (es : List ε) : f (N.run s es) = M.run (f s) es := by
  induction es generalizing s with
  | nil => rfl
  | cons e es ih => rw [run_cons, run_cons, ih, hf]

/-- A guard on the projection is met by the one exactly when it is met by the other. -/
theorem meets_map {G : σ → ε → Prop} (s : σ') (es : List ε) :
    N.Meets (fun s e => G (f s) e) s es ↔ M.Meets G (f s) es := by
  induction es generalizing s with
  | nil => exact Iff.rfl
  | cons e es ih =>
    unfold Meets
    rw [ih, hf]

end Project

/-- The guard is met at every step of a run: at the event after any part of it. -/
theorem Meets.at_step {M : Machine σ ε ο} {G : σ → ε → Prop} {s : σ} {pre post : List ε} {e : ε}
    (h : M.Meets G s (pre ++ e :: post)) : M.Meets G s pre ∧ G (M.run s pre) e := by
  induction pre generalizing s with
  | nil => exact ⟨trivial, h.1⟩
  | cons a pre ih =>
    obtain ⟨hpre, he⟩ := ih h.2
    exact ⟨⟨h.1, hpre⟩, he⟩

/-- The invariant rule: what every step keeps holds at the end of every run. -/
theorem run_invariant (M : Machine σ ε ο) {I : σ → Prop} (hstep : ∀ s e, I s → I (M.step s e).2) {s : σ} (h : I s)
    (es : List ε) : I (M.run s es) := by
  induction es generalizing s with
  | nil => exact h
  | cons e es ih => exact ih (hstep s e h)

/-- The invariant rule for what relates the state to all the outputs so far. -/
theorem run_outs_invariant (M : Machine σ ε ο) {I : List ο → σ → Prop}
    (hstep : ∀ os s e, I os s → I (os ++ [(M.step s e).1]) (M.step s e).2) {os : List ο} {s : σ} (h : I os s) (es : List ε) :
    I (os ++ M.outs s es) (M.run s es) := by
  induction es generalizing os s with
  | nil => rw [outs, List.append_nil]; exact h
  | cons e es ih =>
    have := ih (hstep os s e h)
    rw [List.append_assoc] at this
    exact this

/-- The rule for two machines of which one is driven by a part of the events of the other: what their guarded steps keep between their
states holds between the ends of their runs. -/
theorem run_related {ε' : Type} (M : Machine σ ε ο) (N : Machine σ' ε' ο') (g : ε' → ε) {G : σ → ε → Prop} {H : ε' → Prop}
    {R : σ → σ' → Prop} (hstep : ∀ s x e, R s x → G s (g e) → H e → R (M.step s (g e)).2 (N.step x e).2) {s : σ} {x : σ'} (h : R s x)
    {es : List ε'} (hm : M.Meets G s (es.map g)) (hH : ∀ e ∈ es, H e) : R (M.run s (es.map g)) (N.run x es) := by
  induction es generalizing s x with
  | nil => exact h
  | cons e es ih =>
    exact ih (hstep s x e h hm.1 (hH e List.mem_cons_self)) hm.2 fun e' he' => hH e' (List.mem_cons_of_mem _ he')

/-- The simulation rule: where each guarded step of `M` is matched by `N`, in the state that stands for it, so is each run. -/
theorem run_simulated (M : Machine σ ε ο) (N : Machine σ' ε ο') {G : σ → ε → Prop} {I : σ → Prop} {P : ο' → ο → Prop}
    (conc : σ → σ') (hstep : ∀ s e, I s → G s e → I (M.step s e).2 ∧ P (N.step (conc s) e).1 (M.step s e).1 ∧
      (N.step (conc s) e).2 = conc (M.step s e).2) {s : σ} (h : I s) {es : List ε} (hm : M.Meets G s es) :
    I (M.run s es) ∧ N.run (conc s) es = conc (M.run s es) ∧ List.Forall₂ P (N.outs (conc s) es) (M.outs s es) := by
  induction es generalizing s with
  | nil => exact ⟨h, rfl, List.Forall₂.nil⟩
  | cons e es ih =>
    obtain ⟨hI, hP, hs⟩ := hstep s e h hm.1
    obtain ⟨hI', hrun, houts⟩ := ih hI hm.2
    rw [← hs] at hrun houts
    exact ⟨hI', hrun, List.Forall₂.cons hP houts⟩

/-- The bisimulation rule: states that answer every event alike and stay related give the same outputs on every run. -/
theorem outs_eq_of_bisim (M : Machine σ ε ο) {R : σ → σ → Prop}
    (hstep : ∀ s t e, R s t → (M.step s e).1 = (M.step t e).1 ∧ R (M.step s e).2 (M.step t e).2) {s t : σ} (h : R s t)
    (es : List ε) : M.outs s es = M.outs t es := by
  induction es generalizing s t with
  | nil => rfl
  | cons e es ih =>
    obtain ⟨ho, hr⟩ := hstep s t e h
    rw [outs_cons, outs_cons, ho, ih hr]

/-- The invariant rule for runs whose events carry times that never go back. `I s t` says the state is right as of time `t`; it
stays right as time passes, and a guarded step at `t` keeps it at `t`. -/
theorem run_clocked {T : Type} [Preorder T] (M : Machine σ ε ο) (time : ε → T) {G : σ → ε → Prop} {I : σ → T → Prop}
    (hmono : ∀ s t t', t ≤ t' → I s t → I s t') (hstep : ∀ s e, G s e → I s (time e) → I (M.step s e).2 (time e))
    {s : σ} {t₀ : T} (h : I s t₀) {es : List ε} (hm : M.Meets G s es) (hs : Clocked time es)
    (hlo : ∀ e ∈ es, t₀ ≤ time e) {now : T} (hnow : t₀ ≤ now) (hhi : ∀ e ∈ es, time e ≤ now) : I (M.run s es) now := by
  induction es generalizing s t₀ with
  | nil => exact hmono _ _ _ hnow h
  | cons e es ih =>
    rw [Clocked, List.map_cons, List.pairwise_cons] at hs
    have he : I (M.step s e).2 (time e) := hstep s e hm.1 (hmono _ _ _ (hlo e (by simp)) h)
    exact ih he hm.2 hs.2 (fun e' he' => hs.1 _ (List.mem_map_of_mem he')) (hhi e (by simp))
      (fun e' he' => hhi e' (by simp [he']))

end Machine

end Lib
