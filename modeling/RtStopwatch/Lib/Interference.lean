import RtStopwatch.Lib.Machine
import RtStopwatch.Lib.Prog

/-!
# Programs under interference

A thread whose actions others may interrupt. Between two of its actions the state changes as the others may change it (`rely`), and
an action may fail or have different results (`ω` is what decides between them). `Safe` says that whatever the others do, no action
fails, after each action `guar` holds, and at the end `post` does; its rules are those of a sequence of assertions, each of which the
others leave true. A thread that runs a safe program again and again is safe in every run (`run_loopMachine`).
-/

namespace Lib

variable {A : Type} {R : A → Type} {α β σ ω ε : Type}

/-- A turn of the thread, or of the others. -/
inductive Turn (ω ε : Type) where
  | own (o : ω)
  | other (e : ε)

/-- A thread that runs `loop` again and again, every interleaving with the others. The state is the rest of the round and what is
shared, or nothing when an action has failed; the output is the action taken. -/
def loopMachine (perform : ω → (a : A) → σ → Option (R a × σ)) (env : ε → σ → σ) (loop : Prog A R Unit) :
    Machine (Option (Prog A R Unit × σ)) (Turn ω ε) (Option A) where
  step
    | none, _ => (none, none)
    | some (p, s), .other e => (none, some (p, env e s))
    | some (.pure _, s), .own _ => (none, some (loop, s))
    | some (.act a k, s), .own o => (some a, (perform o a s).map fun q => (k q.1, q.2))

/-- What the others may do between two actions, what an action does, and what holds after it. -/
structure Parties (A : Type) (R : A → Type) (σ ω : Type) where
  rely : σ → σ → Prop
  refl : ∀ s, rely s s
  trans : ∀ {s t u}, rely s t → rely t u → rely s u
  perform : ω → (a : A) → σ → Option (R a × σ)
  guar : A → σ → Prop

/-- The others leave the assertion true. -/
def Parties.Stable (P : Parties A R σ ω) (I : σ → Prop) : Prop := ∀ s t, I s → P.rely s t → I t

namespace Prog

/-- The program cannot fail under interference, and ends with `post`. -/
def Safe (P : Parties A R σ ω) (post : α → σ → Prop) : Prog A R α → σ → Prop
  | .pure x, s => ∀ t, P.rely s t → post x t
  | .act a k, s => ∀ t, P.rely s t → ∀ o, ∃ r u, P.perform o a t = some (r, u) ∧ P.guar a u ∧ Safe P post (k r) u

variable {P : Parties A R σ ω} {post : α → σ → Prop} {p : Prog A R α} {s t : σ}

/-- Safety is not lost while others run. -/
theorem Safe.interrupt (h : p.Safe P post s) (hr : P.rely s t) : p.Safe P post t := by
  cases p with
  | pure x => exact fun u hu => h u (P.trans hr hu)
  | act a k => exact fun u hu => h u (P.trans hr hu)

/-- The rule of the sequence. -/
theorem Safe.bind (h : p.Safe P post s) {f : α → Prog A R β} {post' : β → σ → Prop}
    (hf : ∀ x t, post x t → (f x).Safe P post' t) : (p >>= f).Safe P post' s := by
  induction p generalizing s with
  | pure x => exact hf x s (h s (P.refl s))
  | act a k ih =>
    intro t ht o
    obtain ⟨r, u, hp, hg, hk⟩ := h t ht o
    exact ⟨r, u, hp, hg, ih r hk⟩

/-- The rule of consequence. -/
theorem Safe.weaken (h : p.Safe P post s) {post' : α → σ → Prop} (himp : ∀ x t, post x t → post' x t) : p.Safe P post' s := by
  induction p generalizing s with
  | pure x => exact fun t ht => himp x t (h t ht)
  | act a k ih =>
    intro t ht o
    obtain ⟨r, u, hp, hg, hk⟩ := h t ht o
    exact ⟨r, u, hp, hg, ih r hk⟩

theorem Safe.pure {I : σ → Prop} (hI : P.Stable I) (hs : I s) {x : α} (h : ∀ t, I t → post x t) :
    (Pure.pure x : Prog A R α).Safe P post s :=
  fun t ht => h t (hI s t hs ht)

/-- The rule of an action, from an assertion to an assertion that the others leave true. -/
theorem Safe.act {I : σ → Prop} {a : A} {post : R a → σ → Prop} (hI : P.Stable I) (hpost : ∀ r, P.Stable (post r)) (hs : I s)
    (h : ∀ t o, I t → ∃ r u, P.perform o a t = some (r, u) ∧ P.guar a u ∧ post r u) :
    (Prog.act a .pure).Safe P post s := by
  intro t ht o
  obtain ⟨r, u, hp, hg, hu⟩ := h t o (hI s t hs ht)
  exact ⟨r, u, hp, hg, fun v hv => hpost r u v hu hv⟩

/-- A program whose actions all keep an assertion keeps it. -/
theorem Safe.of_uses {I : σ → Prop} {U : A → Prop} (hI : P.Stable I) (hp : p.Uses U) (hs : I s)
    (h : ∀ a t o, U a → I t → ∃ r u, P.perform o a t = some (r, u) ∧ P.guar a u ∧ I u) : p.Safe P (fun _ => I) s := by
  induction p generalizing s with
  | pure x => exact fun t ht => hI s t hs ht
  | act a k ih =>
    intro t ht o
    obtain ⟨r, u, hperf, hg, hu⟩ := h a t o hp.1 (hI s t hs ht)
    exact ⟨r, u, hperf, hg, ih r (hp.2 r) hu⟩

end Prog

/-! ## The loop -/

section Loop

variable {P : Parties A R σ ω} {env : ε → σ → σ} {loop : Prog A R Unit} {I : σ → Prop}
  (henv : ∀ e s, P.rely s (env e s)) (hI : P.Stable I) (hloop : ∀ s, I s → loop.Safe P (fun _ => I) s)

/-- A turn from a safe state: nothing fails, an action is followed by its guarantee, and the rest is safe. -/
theorem Prog.Safe.step {p : Prog A R Unit} {s : σ} (henv : ∀ e s, P.rely s (env e s))
    (hloop : ∀ s, I s → loop.Safe P (fun _ => I) s) (h : p.Safe P (fun _ => I) s) (t : Turn ω ε) :
    ∃ q u, ((loopMachine P.perform env loop).step (some (p, s)) t).2 = some (q, u) ∧ q.Safe P (fun _ => I) u ∧
      ∀ a, ((loopMachine P.perform env loop).step (some (p, s)) t).1 = some a → P.guar a u := by
  cases t with
  | other e => exact ⟨p, env e s, rfl, h.interrupt (henv e s), nofun⟩
  | own o =>
    cases p with
    | pure x => exact ⟨loop, s, rfl, hloop s (h s (P.refl s)), nofun⟩
    | act a k =>
      obtain ⟨r, u, hp, hg, hk⟩ := h s (P.refl s) o
      refine ⟨k r, u, ?_, hk, ?_⟩
      · show (P.perform o a s).map _ = _
        rw [hp]
        rfl
      · rintro a ⟨⟩
        exact hg

include henv hI hloop

/-- The run lemma: from a state with the invariant of the loop, every run is in a safe state. -/
theorem run_loopMachine {s : σ} (h : I s) (ts : List (Turn ω ε)) :
    ∃ p u, (loopMachine P.perform env loop).run (some (.pure (), s)) ts = some (p, u) ∧ p.Safe P (fun _ => I) u := by
  refine (loopMachine P.perform env loop).run_invariant (I := fun c => ∃ p u, c = some (p, u) ∧ p.Safe P (fun _ => I) u) ?_
    ⟨.pure (), s, rfl, fun u hu => hI s u h hu⟩ ts
  rintro c t ⟨p, u, rfl, hp⟩
  obtain ⟨q, v, hstep, hq, -⟩ := hp.step henv hloop t
  exact ⟨q, v, hstep, hq⟩

end Loop

end Lib
