import RtStopwatch.Lib.Critical

/-!
# Calls under a lock happen one after another

The invariant of the threads of `Lib.Critical` under every schedule, and `serial_of_run`: the calls return what they return one after
another, in the order in which they give the lock back, each access of a call at an instant of its own critical section.

`base` is the memory the calls that have returned left, `past` the instants of their accesses. Only the owner of the lock has changed
the memory since, and what it has done so far is a first part of its call run from `base`.
-/

namespace Lib

variable {A : Type} {R : A → Type} {ι κ σ θ O V : Type}

section Invariant

variable [Preorder θ] (L : Lock ι κ) (h : θ → (a : A) → σ → R a × σ) (J : σ → Prop) (code : O → LockProg A R V) (T : θ → Prop)

/-- A call that has not entered its critical section has only read what it may read at any time. -/
def Prelude (p₀ p : LockProg A R V) : Prop :=
  ∀ s t, J s → ∃ n, ∀ ts, p₀.strip.execAt h s (List.replicate n t ++ ts) = p.strip.execAt h s ts

/-- Where a thread stands. -/
inductive Stands (k : κ) (mem base : σ) (past : List θ) (now : θ) (i : ι) : Option (O × LockProg A R V) → Prop
  | idle : L.owner k ≠ some i → L.suspended k i = false → Stands k mem base past now i none
  | outside {op p} : L.owner k ≠ some i → L.suspended k i = false → p.Outside h J → Prelude h J (code op) p →
      Stands k mem base past now i (some (op, p))
  | waiting {op p} : L.owner k ≠ some i → L.suspended k i = true → p.Inside h J → Prelude h J (code op) p →
      Stands k mem base past now i (some (op, .act .resume fun _ => p))
  | handed {op p} : L.owner k = some i → mem = base → p.Inside h J → Prelude h J (code op) p →
      Stands k mem base past now i (some (op, .act .resume fun _ => p))
  | inside {op p ts} : L.owner k = some i → p.Inside h J →
      (∀ us, (code op).strip.execAt h base (ts ++ us) = p.strip.execAt h mem us) →
      (past ++ ts).Pairwise (· ≤ ·) → (∀ x ∈ ts, T x ∧ x ≤ now) → Stands k mem base past now i (some (op, p))

/-- The run so far is the calls `hist` one after another, and part of the call of the thread that owns the lock. -/
structure Linear (Inv : κ → Prop) (s₀ : σ) (hist : List (Done θ O V)) (base : σ) (S : Threads ι κ σ O A R V) (now : θ) : Prop where
  lock : Inv S.lock
  serial : Serial h (fun op => (code op).strip) s₀ hist base
  base_ok : J base
  mem_ok : J S.mem
  free : L.owner S.lock = none → S.mem = base
  sorted : (hist.flatMap Done.times).Pairwise (· ≤ ·)
  past : ∀ x ∈ hist.flatMap Done.times, T x ∧ x ≤ now
  stands : ∀ i, Stands L h J code T S.lock S.mem base (hist.flatMap Done.times) now i (S.call i)

end Invariant

variable {L : Lock ι κ} {Inv : κ → Prop} {h : θ → (a : A) → σ → R a × σ} {J : σ → Prop} {code : O → LockProg A R V} {T : θ → Prop}

theorem Prelude.refl (p : LockProg A R V) : Prelude h J p p := fun _ _ _ => ⟨0, fun _ => rfl⟩

/-- One more read of what may be read at any time. -/
theorem Prelude.access {p₀ : LockProg A R V} {a : A} {k : R a → LockProg A R V} (hp : Prelude h J p₀ (.act (.access a) k)) {r : R a}
    (hr : ∀ t s, J s → h t a s = (r, s)) : Prelude h J p₀ (k r) := by
  intro s t hs
  obtain ⟨n, hn⟩ := hp s t hs
  refine ⟨n + 1, fun ts => ?_⟩
  rw [List.replicate_succ', List.append_assoc, hn]
  show (Prog.strip (k (h t a s).1)).execAt h (h t a s).2 ts = _
  rw [hr t s hs]

theorem Serial.append {code' : O → Prog A R V} {s u : σ} {hist : List (Done θ O V)} (hh : Serial h code' s hist u) {c : Done θ O V} {v : σ}
    (hc : (code' c.op).execAt h u c.times = some (c.ret, v)) : Serial h code' s (hist ++ [c]) v := by
  induction hist generalizing s with
  | nil =>
    cases hh
    exact ⟨v, hc, rfl⟩
  | cons d hist ih =>
    obtain ⟨w, hd, hrest⟩ := hh
    exact ⟨w, hd, ih hrest⟩

/-- One instant of each call, in order, is a sublist of all instants. -/
theorem sublist_flatMap_times {ts : List θ} {hist : List (Done θ O V)} (h : List.Forall₂ (fun t c => t ∈ c.times) ts hist) :
    List.Sublist ts (hist.flatMap Done.times) := by
  induction h with
  | nil => exact List.Sublist.slnil
  | cons ht _ ih => exact (List.singleton_sublist.mpr ht).append ih

section GoOn

variable [DecidableEq ι]

theorem Prog.Inside.goOn {p : LockProg A R V} (hp : p.Inside h J) (S : Threads ι κ σ O A R V) (i : ι) (op : O) :
    S.goOn i op p = (none, { S with call := Function.update S.call i (some (op, p)) }) := by
  cases p with
  | pure x => exact hp.elim
  | act a k => rfl

theorem Prog.Outside.goOn {p : LockProg A R V} (hp : p.Outside h J) (S : Threads ι κ σ O A R V) (i : ι) (op : O) :
    S.goOn i op p = (none, { S with call := Function.update S.call i (some (op, p)) }) := by
  cases p with
  | pure x => exact hp.elim
  | act a k => rfl

end GoOn

variable [Preorder θ]

/-- The reads before the critical section, all moved to the instant it is entered at. -/
theorem Prelude.entered {p₀ p : LockProg A R V} (hp : Prelude h J p₀ p) {s : σ} (hs : J s) {past : List θ} {now : θ}
    (hsorted : past.Pairwise (· ≤ ·)) (hpast : ∀ x ∈ past, T x ∧ x ≤ now) (hnow : T now) :
    ∃ ts, (∀ us, p₀.strip.execAt h s (ts ++ us) = p.strip.execAt h s us) ∧ (past ++ ts).Pairwise (· ≤ ·) ∧
      ∀ x ∈ ts, T x ∧ x ≤ now := by
  obtain ⟨n, hn⟩ := hp s now hs
  refine ⟨List.replicate n now, hn, ?_, ?_⟩
  · rw [List.pairwise_append]
    refine ⟨hsorted, List.pairwise_replicate.mpr (Or.inr le_rfl), ?_⟩
    intro x hx y hy
    rw [List.eq_of_mem_replicate hy]
    exact (hpast x hx).2
  · intro x hx
    rw [List.eq_of_mem_replicate hx]
    exact ⟨hnow, le_rfl⟩

/-! ## A thread that does not move -/

section Others

variable {k k' : κ} {mem mem' base base' : σ} {past past' : List θ} {now now' : θ} {j : ι} {c : Option (O × LockProg A R V)}

/-- A thread that neither gets nor loses the lock stands where it stood; the memory matters to the owner only. -/
theorem Stands.others (hj : Stands L h J code T k mem base past now j c) (ho : L.owner k' = some j ↔ L.owner k = some j)
    (hs : L.suspended k' j = L.suspended k j) (hm : L.owner k = some j → mem' = mem ∧ base' = base ∧ past' = past)
    (hnow : now ≤ now') : Stands L h J code T k' mem' base' past' now' j c := by
  cases hj with
  | idle ho' hs' => exact .idle (mt ho.mp ho') (hs.trans hs')
  | outside ho' hs' hp hpre => exact .outside (mt ho.mp ho') (hs.trans hs') hp hpre
  | waiting ho' hs' hp hpre => exact .waiting (mt ho.mp ho') (hs.trans hs') hp hpre
  | handed ho' he hp hpre =>
    obtain ⟨rfl, rfl, rfl⟩ := hm ho'
    exact .handed (ho.mpr ho') he hp hpre
  | inside ho' hp hrun hsort hle =>
    obtain ⟨rfl, rfl, rfl⟩ := hm ho'
    exact .inside (ho.mpr ho') hp hrun hsort fun x hx => ⟨(hle x hx).1, (hle x hx).2.trans hnow⟩

/-- A suspended thread that is handed the lock. -/
theorem Stands.handover (hj : Stands L h J code T k mem base past now j c) (hL : L.Lawful Inv) (hk : Inv k)
    (hs : L.suspended k j = true) (ho : L.owner k' = some j) : Stands L h J code T k' mem' mem' past' now' j c := by
  have hne : L.owner k ≠ some j := by
    intro h1
    rw [hL.owner_awake hk h1] at hs
    cases hs
  cases hj with
  | idle _ hs' => rw [hs] at hs'; cases hs'
  | outside _ hs' _ _ => rw [hs] at hs'; cases hs'
  | waiting _ _ hp hpre => exact .handed ho rfl hp hpre
  | handed ho' _ _ _ => exact absurd ho' hne
  | inside ho' _ _ _ _ => exact absurd ho' hne

end Others

/-! ## A step -/

/-- Time passes. -/
theorem Linear.wait {s₀ base : σ} {hist : List (Done θ O V)} {S : Threads ι κ σ O A R V} {now t : θ}
    (H : Linear L h J code T Inv s₀ hist base S now) (hnow : now ≤ t) :
    Linear L h J code T Inv s₀ hist base S t :=
  ⟨H.lock, H.serial, H.base_ok, H.mem_ok, H.free, H.sorted, fun x hx => ⟨(H.past x hx).1, (H.past x hx).2.trans hnow⟩,
    fun j => (H.stands j).others Iff.rfl rfl (fun _ => ⟨rfl, rfl, rfl⟩) hnow⟩

/-- A thread that gets the lock, asking for it or handed it, is inside its critical section: so far its call has only read. -/
theorem Linear.entered {s₀ base : σ} {hist : List (Done θ O V)} {S : Threads ι κ σ O A R V} {now t : θ} {i : ι} {op : O}
    (H : Linear L h J code T Inv s₀ hist base S now) (hnow : now ≤ t) (ht : T t) {k : κ}
    {p : LockProg A R V} (ho : L.owner k = some i) (hmem : S.mem = base) (hin : p.Inside h J)
    (hpre : Prelude h J (code op) p) :
    Stands L h J code T k S.mem base (hist.flatMap Done.times) t i (some (op, p)) := by
  obtain ⟨ts, hrun, hsort, hle⟩ := hpre.entered H.base_ok H.sorted (fun x hx => ⟨(H.past x hx).1, (H.past x hx).2.trans hnow⟩) ht
  exact .inside ho hin (hmem ▸ hrun) hsort hle

section Step

variable [DecidableEq ι] {s₀ base : σ} {hist : List (Done θ O V)} {S : Threads ι κ σ O A R V} {now t : θ} {i : ι} {op : O}

/-- A step in which no call returns: the thread moves, the others stand where they stood. -/
theorem Linear.move (H : Linear L h J code T Inv s₀ hist base S now) (hnow : now ≤ t) {k : κ} {m : σ}
    {c : Option (O × LockProg A R V)} (hk : Inv k) (hm : J m) (hfree : L.owner k = none → m = base)
    (hothers : ∀ j, j ≠ i → (L.owner k = some j ↔ L.owner S.lock = some j) ∧ L.suspended k j = L.suspended S.lock j ∧
      (L.owner S.lock = some j → m = S.mem))
    (hi : Stands L h J code T k m base (hist.flatMap Done.times) t i c) :
    Linear L h J code T Inv s₀ hist base { lock := k, mem := m, call := Function.update S.call i c } t := by
  refine ⟨hk, H.serial, H.base_ok, hm, hfree, H.sorted, fun x hx => ⟨(H.past x hx).1, (H.past x hx).2.trans hnow⟩, ?_⟩
  intro j
  by_cases hj : j = i
  · subst hj
    simpa using hi
  · obtain ⟨ho, hs, hmem⟩ := hothers j hj
    simp only [Function.update_of_ne hj]
    exact (H.stands j).others ho hs (fun h1 => ⟨hmem h1, rfl, rfl⟩) hnow

/-- The call gives the lock back and returns: it has run from `base` with nothing between its accesses. -/
theorem Linear.commit (hL : L.Lawful Inv) (H : Linear L h J code T Inv s₀ hist base S now) (hnow : now ≤ t) {x : V} {ts : List θ}
    (ho : L.owner S.lock = some i) (hrun : (code op).strip.execAt h base ts = some (x, S.mem))
    (hsort : (hist.flatMap Done.times ++ ts).Pairwise (· ≤ ·)) (hle : ∀ y ∈ ts, T y ∧ y ≤ now) :
    Linear L h J code T Inv s₀ (hist ++ [⟨op, x, ts⟩]) S.mem
      { lock := L.leave i S.lock, mem := S.mem, call := Function.update S.call i none } t := by
  have hpast : (hist ++ [(⟨op, x, ts⟩ : Done θ O V)]).flatMap Done.times = hist.flatMap Done.times ++ ts := by simp
  have hsi : L.suspended S.lock i = false := hL.owner_awake H.lock ho
  refine ⟨hL.leave_inv H.lock ho, H.serial.append hrun, H.mem_ok, H.mem_ok, fun _ => rfl, hpast ▸ hsort, ?_, ?_⟩
  · intro y hy
    rw [hpast, List.mem_append] at hy
    rcases hy with hy | hy
    · exact ⟨(H.past y hy).1, (H.past y hy).2.trans hnow⟩
    · exact ⟨(hle y hy).1, (hle y hy).2.trans hnow⟩
  · intro j
    by_cases hn : L.owner (L.leave i S.lock) = some j
    · have hs : L.suspended S.lock j = true := hL.leave_next H.lock ho hn
      have hj : j ≠ i := by
        rintro rfl
        rw [hsi] at hs
        cases hs
      simp only [Function.update_of_ne hj]
      exact (H.stands j).handover hL H.lock hs hn
    · have hrest := hL.leave_rest H.lock ho hn
      by_cases hj : j = i
      · subst hj
        simp only [Function.update_self]
        exact .idle hn (hrest.trans hsi)
      · have hne : L.owner S.lock ≠ some j := by
          rw [ho]
          exact fun e => hj (Option.some.inj e).symm
        simp only [Function.update_of_ne hj]
        exact (H.stands j).others (iff_of_false hn hne) hrest (fun h1 => absurd h1 hne) hnow

/-- Asking for a free lock. -/
theorem Linear.enter_true (hL : L.Lawful Inv) (H : Linear L h J code T Inv s₀ hist base S now) (hnow : now ≤ t) (ht : T t)
    {p : LockProg A R V}
    (ho : L.owner S.lock ≠ some i) (hs : L.suspended S.lock i = false) (hgot : (L.enter i S.lock).1 = true) (hin : p.Inside h J)
    (hpre : Prelude h J (code op) p) :
    Linear L h J code T Inv s₀ hist base
      { lock := (L.enter i S.lock).2, mem := S.mem, call := Function.update S.call i (some (op, p)) } t := by
  obtain ⟨hnone, hown, hsus⟩ := hL.enter_true H.lock ho hs hgot
  have hbase : S.mem = base := H.free hnone
  refine H.move hnow (hL.enter_inv H.lock ho hs) H.mem_ok (fun _ => hbase) ?_ (H.entered hnow ht hown hbase hin hpre)
  intro j hj
  refine ⟨iff_of_false ?_ ?_, hsus j, fun _ => rfl⟩
  · rw [hown]
    exact fun e => hj (Option.some.inj e).symm
  · rw [hnone]
    nofun

/-- Asking for a lock that is not free. -/
theorem Linear.enter_false (hL : L.Lawful Inv) (H : Linear L h J code T Inv s₀ hist base S now) (hnow : now ≤ t)
    {p : LockProg A R V}
    (ho : L.owner S.lock ≠ some i) (hs : L.suspended S.lock i = false) (hgot : (L.enter i S.lock).1 = false) (hin : p.Inside h J)
    (hpre : Prelude h J (code op) p) :
    Linear L h J code T Inv s₀ hist base
      { lock := (L.enter i S.lock).2, mem := S.mem
        call := Function.update S.call i (some (op, .act .resume fun _ => p)) } t := by
  obtain ⟨hown, hsi, hsus⟩ := hL.enter_false H.lock ho hs hgot
  refine H.move hnow (hL.enter_inv H.lock ho hs) H.mem_ok (fun h1 => H.free (hown ▸ h1)) ?_ (.waiting (hown ▸ ho) hsi hin hpre)
  intro j hj
  exact ⟨by rw [hown], hsus j hj, fun _ => rfl⟩

/-- An access of the owner of the lock. -/
theorem Linear.access (H : Linear L h J code T Inv s₀ hist base S now) (hnow : now ≤ t) (ht : T t) {a : A} {k : R a → LockProg A R V}
    {ts : List θ}
    (ho : L.owner S.lock = some i) (hkeep : J (h t a S.mem).2) (hin : (k (h t a S.mem).1).Inside h J)
    (hrun : ∀ us, (code op).strip.execAt h base (ts ++ us) = (Prog.strip (.act (.access a) k)).execAt h S.mem us)
    (hsort : (hist.flatMap Done.times ++ ts).Pairwise (· ≤ ·)) (hle : ∀ x ∈ ts, T x ∧ x ≤ now) :
    Linear L h J code T Inv s₀ hist base
      { lock := S.lock, mem := (h t a S.mem).2, call := Function.update S.call i (some (op, k (h t a S.mem).1)) } t := by
  have hrun' : ∀ us, (code op).strip.execAt h base (ts ++ [t] ++ us) = (Prog.strip (k (h t a S.mem).1)).execAt h (h t a S.mem).2 us := by
    intro us
    rw [List.append_assoc, hrun]
    rfl
  have hle' : ∀ x ∈ ts ++ [t], T x ∧ x ≤ t := by
    intro x hx
    rcases List.mem_append.mp hx with hx | hx
    · exact ⟨(hle x hx).1, (hle x hx).2.trans hnow⟩
    · rw [List.mem_singleton.mp hx]
      exact ⟨ht, le_rfl⟩
  have hsort' : (hist.flatMap Done.times ++ (ts ++ [t])).Pairwise (· ≤ ·) := by
    rw [← List.append_assoc, List.pairwise_append]
    refine ⟨hsort, List.pairwise_singleton _ _, ?_⟩
    intro x hx y hy
    rw [List.mem_singleton.mp hy]
    rcases List.mem_append.mp hx with hx | hx
    · exact (H.past x hx).2.trans hnow
    · exact (hle x hx).2.trans hnow
  refine H.move hnow H.lock hkeep ?_ ?_ (.inside ho hin hrun' hsort' hle')
  · intro h1
    rw [ho] at h1
    cases h1
  · intro j hj
    refine ⟨Iff.rfl, rfl, fun h1 => ?_⟩
    rw [ho] at h1
    exact absurd (Option.some.inj h1).symm hj

/-- The next action of a call, by where its thread stands. -/
theorem Linear.act (hL : L.Lawful Inv) (H : Linear L h J code T Inv s₀ hist base S now) (hnow : now ≤ t) (ht : T t)
    {p : LockProg A R V}
    (hp : S.call i = some (op, p)) :
    ∃ new base', Linear L h J code T Inv s₀ (hist ++ new) base' (S.act L h i t op p).2 t ∧
      new.map (fun c => (c.op, c.ret)) = (S.act L h i t op p).1.toList := by
  have hi := H.stands i
  rw [hp] at hi
  rcases hi with _ | ⟨ho, hs, hout, hpre⟩ | ⟨ho, hs, hin, hpre⟩ | ⟨ho, hmem, hin, hpre⟩ | ⟨ho, hin, hrun, hsort, hle⟩
  · match p, hout with
    | .act (.access a) k, ⟨r, hr, hk⟩ =>
      have hact : S.act L h i t op (.act (.access a) k) = (none, { S with call := Function.update S.call i (some (op, k r)) }) := by
        simp only [Threads.act, hr t S.mem H.mem_ok]
        exact hk.goOn _ _ _
      rw [hact]
      refine ⟨[], base, ?_, rfl⟩
      rw [List.append_nil]
      exact H.move hnow H.lock H.mem_ok H.free (fun _ _ => ⟨Iff.rfl, rfl, fun _ => rfl⟩) (.outside ho hs hk (hpre.access hr))
    | .act .enter k, ⟨hin, hwait⟩ =>
      cases hgot : (L.enter i S.lock).1 with
      | true =>
        have hact : S.act L h i t op (.act .enter k) =
            (none, { S with lock := (L.enter i S.lock).2, call := Function.update S.call i (some (op, k true)) }) := by
          simp only [Threads.act, hgot]
          exact hin.goOn _ _ _
        rw [hact]
        refine ⟨[], base, ?_, rfl⟩
        rw [List.append_nil]
        exact H.enter_true hL hnow ht ho hs hgot hin hpre
      | false =>
        have hact : S.act L h i t op (.act .enter k) =
            (none, { S with
              lock := (L.enter i S.lock).2
              call := Function.update S.call i (some (op, .act .resume fun _ => k true)) }) := by
          simp only [Threads.act, hgot]
          rw [show k false = _ from hwait]
          rfl
        rw [hact]
        refine ⟨[], base, ?_, rfl⟩
        rw [List.append_nil]
        exact H.enter_false hL hnow ho hs hgot hin hpre
  · refine ⟨[], base, ?_, ?_⟩
    · simp only [Threads.act, hs, if_true, List.append_nil]
      exact H.wait hnow
    · simp [Threads.act, hs]
  · have hs : L.suspended S.lock i = false := hL.owner_awake H.lock ho
    refine ⟨[], base, ?_, ?_⟩
    · simp only [Threads.act, hs, hin.goOn, List.append_nil]
      exact H.move hnow H.lock H.mem_ok H.free (fun _ _ => ⟨Iff.rfl, rfl, fun _ => rfl⟩) (H.entered hnow ht ho hmem hin hpre)
    · simp [Threads.act, hs, hin.goOn]
  · match p, hin with
    | .act (.access a) k, ⟨hkeep, hk⟩ =>
      have hact : S.act L h i t op (.act (.access a) k) =
          (none, { S with
            mem := (h t a S.mem).2
            call := Function.update S.call i (some (op, k (h t a S.mem).1)) }) := (hk _).goOn _ _ _
      rw [hact]
      refine ⟨[], base, ?_, rfl⟩
      rw [List.append_nil]
      exact H.access hnow ht ho (hkeep t _ H.mem_ok) (hk _) hrun hsort hle
    | .act .leave k, ⟨x, hx⟩ =>
      have hact : S.act L h i t op (.act .leave k) =
          (some (op, x), { S with lock := L.leave i S.lock, call := Function.update S.call i none }) := by
        simp only [Threads.act]
        rw [show k () = _ from hx]
        rfl
      rw [hact]
      refine ⟨[⟨op, x, _⟩], S.mem, H.commit hL hnow ho ?_ hsort hle, rfl⟩
      have hend := hrun []
      rw [List.append_nil] at hend
      rw [hend, Prog.strip, show k () = _ from hx]
      rfl

/-- The step lemma: an event adds to the history the call that returns in it, if one does. -/
theorem Linear.step (hL : L.Lawful Inv) (hcode : ∀ op, (code op).Outside h J) (H : Linear L h J code T Inv s₀ hist base S now)
    (e : Sched ι O × θ) (hnow : now ≤ e.2) (ht : T e.2) :
    ∃ new base', Linear L h J code T Inv s₀ (hist ++ new) base' ((threadsMachine L h code).step S e).2 e.2 ∧
      new.map (fun c => (c.op, c.ret)) = ((threadsMachine L h code).step S e).1.toList := by
  obtain ⟨e, t⟩ := e
  cases e with
  | begin i op =>
    cases hc : S.call i with
    | none =>
      have hi := H.stands i
      rw [hc] at hi
      obtain ⟨ho, hs⟩ := hi
      refine ⟨[], base, ?_, ?_⟩
      · simp only [threadsMachine, hc, List.append_nil]
        exact H.move hnow H.lock H.mem_ok H.free (fun _ _ => ⟨Iff.rfl, rfl, fun _ => rfl⟩)
          (.outside ho hs (hcode op) (Prelude.refl _))
      · simp [threadsMachine, hc]
    | some q =>
      refine ⟨[], base, ?_, ?_⟩
      · simp only [threadsMachine, hc, List.append_nil]
        exact H.wait hnow
      · simp [threadsMachine, hc]
  | step i =>
    cases hc : S.call i with
    | none =>
      refine ⟨[], base, ?_, ?_⟩
      · simp only [threadsMachine, hc, List.append_nil]
        exact H.wait hnow
      · simp [threadsMachine, hc]
    | some q =>
      simp only [threadsMachine, hc]
      exact H.act hL hnow ht hc

/-- The run lemma. -/
theorem Linear.run (hL : L.Lawful Inv) (hcode : ∀ op, (code op).Outside h J) (H : Linear L h J code T Inv s₀ hist base S now)
    {es : List (Sched ι O × θ)} (hes : Clocked Prod.snd es) (hlo : ∀ e ∈ es, now ≤ e.2) (hT : ∀ e ∈ es, T e.2) :
    ∃ new base' now', Linear L h J code T Inv s₀ (hist ++ new) base' ((threadsMachine L h code).run S es) now' ∧
      new.map (fun c => (c.op, c.ret)) = ((threadsMachine L h code).outs S es).filterMap id := by
  induction es generalizing S hist base now with
  | nil => exact ⟨[], base, now, by simpa [Machine.run] using H, rfl⟩
  | cons e es ih =>
    rw [Clocked, List.map_cons, List.pairwise_cons] at hes
    obtain ⟨new, base', H', hout⟩ := H.step hL hcode e (hlo e (by simp)) (hT e (by simp))
    obtain ⟨new', base'', now', H'', hout'⟩ := ih H' hes.2 (fun e' he' => hes.1 _ (List.mem_map_of_mem he')) fun e' he' => hT e' (by simp [he'])
    refine ⟨new ++ new', base'', now', ?_, ?_⟩
    · rw [← List.append_assoc]
      exact H''
    · rw [List.map_append, hout, hout', Machine.outs_cons]
      cases ((threadsMachine L h code).step S e).1 with
      | none => rfl
      | some x => rfl

end Step

/-- There is no deadlock: a suspended thread waits for the owner of the lock, which is in a call and runs. -/
theorem Linear.enabled {s₀ base : σ} {hist : List (Done θ O V)} {S : Threads ι κ σ O A R V} {now : θ} (hL : L.Lawful Inv)
    (H : Linear L h J code T Inv s₀ hist base S now) {i : ι} {c : O × LockProg A R V} (hi : S.call i = some c) :
    ∃ j d, S.call j = some d ∧ L.suspended S.lock j = false := by
  cases hs : L.suspended S.lock i with
  | false => exact ⟨i, c, hi, hs⟩
  | true =>
    obtain ⟨j, hj⟩ := Option.ne_none_iff_exists'.mp (hL.busy H.lock hs)
    have hst := H.stands j
    cases hc : S.call j with
    | none =>
      rw [hc] at hst
      obtain ⟨ho, -⟩ := hst
      exact absurd hj ho
    | some d => exact ⟨j, d, hc, hL.owner_awake H.lock hj⟩

/-- The threads before any call. -/
def Threads.start (k : κ) (m : σ) : Threads ι κ σ O A R V := { lock := k, mem := m, call := fun _ => none }

/-- Calls under a lock are linearisable. Whatever the schedule, the calls that have returned return what they return one after another,
in the order of their returns, their accesses at instants of the run that never go back; while nobody holds the lock the memory is the one they
leave; and as long as a call is not over, a thread that is in a call can go on. -/
theorem serial_of_run [DecidableEq ι] (hL : L.Lawful Inv) (hcode : ∀ op, (code op).Outside h J) {k : κ} {m : σ} (hk : Inv k)
    (hfree : L.owner k = none) (hidle : ∀ i, L.suspended k i = false) (hm : J m) {es : List (Sched ι O × θ)} (hes : Clocked Prod.snd es) :
    ∃ hist m', hist.map (fun c => (c.op, c.ret)) = ((threadsMachine L h code).outs (Threads.start k m) es).filterMap id ∧
      Serial h (fun op => (code op).strip) m hist m' ∧ (hist.flatMap Done.times).Pairwise (· ≤ ·) ∧
      (∀ t ∈ hist.flatMap Done.times, t ∈ es.map Prod.snd) ∧
      (L.owner ((threadsMachine L h code).run (Threads.start k m) es).lock = none →
        ((threadsMachine L h code).run (Threads.start k m) es).mem = m') ∧
      ∀ i c, ((threadsMachine L h code).run (Threads.start k m) es).call i = some c →
        ∃ j d, ((threadsMachine L h code).run (Threads.start k m) es).call j = some d ∧
          L.suspended ((threadsMachine L h code).run (Threads.start k m) es).lock j = false := by
  cases es with
  | nil => exact ⟨[], m, rfl, rfl, List.Pairwise.nil, nofun, fun _ => rfl, nofun⟩
  | cons e es =>
    have hno : ∀ i, L.owner k ≠ some i := by
      intro i h1
      rw [hfree] at h1
      cases h1
    have H : Linear L h J code (· ∈ (e :: es).map Prod.snd) Inv m [] m (Threads.start k m) e.2 :=
      ⟨hk, rfl, hm, hm, fun _ => rfl, List.Pairwise.nil, nofun, fun i => .idle (hno i) (hidle i)⟩
    have hlo : ∀ x ∈ e :: es, e.2 ≤ x.2 := by
      rw [Clocked, List.map_cons, List.pairwise_cons] at hes
      intro x hx
      rcases List.mem_cons.mp hx with rfl | hx
      · exact le_rfl
      · exact hes.1 _ (List.mem_map_of_mem hx)
    obtain ⟨hist, m', now', H', hout⟩ := H.run hL hcode hes hlo fun x hx => List.mem_map_of_mem hx
    exact ⟨hist, m', hout, H'.serial, H'.sorted, fun t ht => (H'.past t ht).1, H'.free, fun i c hi => H'.enabled hL hi⟩

end Lib
