import Mathlib.Data.Set.Finite.Lattice
import Mathlib.Order.WellFounded

/-!
# Labelled transition systems: invariants, runs, observers, termination

A program whose state is explicit is a set of initial states and a labelled
step relation. Everything later that speaks of "every reachable state",
"every run" or "no infinite run" is an instance of the rules of this file:

* `Reachable.invariant` packages the induction along a run once, so that an
  invariant is two goals: it holds initially, and one step preserves it.
* `Run` keeps the moves of a run, so that a property of each move ("when
  this section ends, …") can be stated for a whole run; `Run.forall_iff`
  lifts an equivalence proved for one move from a reachable state.
* `resume` starts again from a state that has been reached.
* `handleAll` is for systems that handle inputs one after the other.
* `observe` adds a history variable. It neither removes nor adds behaviour
  (`observe_reachable`, `Run.exists_observe`).
* `Run.project` looks at a part of a system.
* `guard` keeps the runs whose every move meets a condition.
* `Execution` is an infinite run; `Execution.finite_of_wellFounded` is the
  termination rule with a measure in any well-founded order, for runs in
  which a finite number of disturbing moves may raise the measure.
-/

namespace Lib

/-- A labelled transition system over states `σ` and actions `α`. -/
structure Lts (σ α : Type*) where
  init : σ → Prop
  step : σ → α → σ → Prop

/-- One move of a run: the state before, the action, the state after. -/
structure Move (σ α : Type*) where
  pre : σ
  act : α
  post : σ

namespace Lts

variable {σ α γ : Type*} {M : Lts σ α}

/-- The states some finite run leads to. -/
inductive Reachable (M : Lts σ α) : σ → Prop
  | init {s : σ} : M.init s → Reachable M s
  | step {s s' : σ} {a : α} : Reachable M s → M.step s a s' → Reachable M s'

/-- The invariant rule: initial, and preserved by every step. -/
theorem Reachable.invariant {I : σ → Prop} (hinit : ∀ s, M.init s → I s)
    (hstep : ∀ s a s', I s → M.step s a s' → I s') {s : σ} (h : M.Reachable s) :
    I s := by
  induction h with
  | init hs => exact hinit _ hs
  | step _ hs ih => exact hstep _ _ _ ih hs

/-- `Leads s s'`: some steps lead from `s` to `s'`. -/
inductive Leads (M : Lts σ α) (s : σ) : σ → Prop
  | refl : Leads M s s
  | step {s' s'' : σ} {a : α} : Leads M s s' → M.step s' a s'' → Leads M s s''

theorem Leads.trans {s s' s'' : σ} (h : M.Leads s s') (h' : M.Leads s' s'') :
    M.Leads s s'' := by
  induction h' with
  | refl => exact h
  | step _ hs ih => exact .step ih hs

theorem Reachable.leads {s s' : σ} (h : M.Reachable s) (hl : M.Leads s s') : M.Reachable s' := by
  induction hl with
  | refl => exact h
  | step _ hs ih => exact .step ih hs

/-! ## Runs that remember their moves -/

/-- `Run ms s`: the moves `ms`, in order, lead from an initial state to `s`. -/
inductive Run (M : Lts σ α) : List (Move σ α) → σ → Prop
  | start {s : σ} : M.init s → Run M [] s
  | snoc {ms : List (Move σ α)} {s s' : σ} {a : α} :
      Run M ms s → M.step s a s' → Run M (ms ++ [⟨s, a, s'⟩]) s'

theorem Run.reachable {ms : List (Move σ α)} {s : σ} (h : M.Run ms s) : M.Reachable s := by
  induction h with
  | start hs => exact .init hs
  | snoc _ hs ih => exact .step ih hs

theorem Reachable.exists_run {s : σ} (h : M.Reachable s) : ∃ ms, M.Run ms s := by
  induction h with
  | init hs => exact ⟨[], .start hs⟩
  | step _ hs ih =>
    obtain ⟨ms, hrun⟩ := ih
    exact ⟨_, hrun.snoc hs⟩

/-- Every move of a run is a step taken from a reachable state. -/
theorem Run.move {ms : List (Move σ α)} {s : σ} (h : M.Run ms s) :
    ∀ m ∈ ms, M.Reachable m.pre ∧ M.step m.pre m.act m.post := by
  induction h with
  | start => intro m hm; cases hm
  | @snoc ms s s' a hrun hs ih =>
    intro m hm
    rcases List.mem_append.mp hm with hm | hm
    · exact ih m hm
    · obtain rfl := List.mem_singleton.mp hm
      exact ⟨hrun.reachable, hs⟩

/-- Two properties of moves that agree on every step from a reachable state
agree on whole runs. -/
theorem Run.forall_iff {P Q : Move σ α → Prop}
    (hPQ : ∀ m : Move σ α, M.Reachable m.pre → M.step m.pre m.act m.post → (P m ↔ Q m))
    {ms : List (Move σ α)} {s : σ} (h : M.Run ms s) :
    (∀ m ∈ ms, P m) ↔ ∀ m ∈ ms, Q m := by
  have hmove := h.move
  constructor
  · intro hP m hm
    exact (hPQ m (hmove m hm).1 (hmove m hm).2).mp (hP m hm)
  · intro hQ m hm
    exact (hPQ m (hmove m hm).1 (hmove m hm).2).mpr (hQ m hm)

/-- A state property that the start satisfies and that a move keeps exactly
when `Q` holds of the move: it holds all along a run iff `Q` does. -/
theorem Run.forall_post_iff {I : σ → Prop} {Q : Move σ α → Prop}
    (hinit : ∀ s, M.init s → I s)
    (hQ : ∀ m : Move σ α, M.Reachable m.pre → M.step m.pre m.act m.post →
      I m.pre → (I m.post ↔ Q m))
    {ms : List (Move σ α)} {s : σ} (h : M.Run ms s) :
    (∀ m ∈ ms, I m.post) ↔ ∀ m ∈ ms, Q m := by
  -- the induction also carries that the state reached satisfies `I`
  have hlast : ((∀ m ∈ ms, I m.post) ↔ ∀ m ∈ ms, Q m) ∧ ((∀ m ∈ ms, I m.post) → I s) := by
    induction h with
    | start hs => exact ⟨by simp, fun _ => hinit _ hs⟩
    | @snoc ms s s' a hrun hs ih =>
      obtain ⟨ihiff, ihlast⟩ := ih
      have hstep := hQ ⟨s, a, s'⟩ hrun.reachable hs
      simp only [List.mem_append, List.mem_singleton, or_imp, forall_and, forall_eq]
      refine ⟨?_, fun hI => hI.2⟩
      constructor
      · intro hboth
        obtain ⟨hI, hI'⟩ := hboth
        exact ⟨ihiff.mp hI, (hstep (ihlast hI)).mp hI'⟩
      · intro hboth
        obtain ⟨hq, hq'⟩ := hboth
        have hI := ihiff.mpr hq
        exact ⟨hI, (hstep (ihlast hI)).mpr hq'⟩
  exact hlast.1

/-! ## Runs that go on from a state -/

/-- The runs of `M` that start in the state `t`. -/
def resume (M : Lts σ α) (t : σ) : Lts σ α where
  init s := s = t
  step := M.step

/-- A run that goes on from a reachable state stays in reachable states. -/
theorem Reachable.resume {t s : σ} (ht : M.Reachable t) (h : (M.resume t).Reachable s) :
    M.Reachable s := by
  induction h with
  | init hs =>
    obtain rfl : _ = t := hs
    exact ht
  | step _ hs ih => exact .step ih hs

/-! ## Systems given by a partial step function -/

/-- The system that starts in one state and steps by a function. -/
def ofStep (start : σ) (step : σ → α → Option σ) : Lts σ α where
  init s := s = start
  step s a s' := step s a = some s'

/-- The moves that a list of actions makes from a state, and where it ends. -/
def trace (step : σ → α → Option σ) : σ → List α → Option (List (Move σ α) × σ)
  | s, [] => some ([], s)
  | s, a :: as =>
    match step s a with
    | none => none
    | some s' => (trace step s' as).map fun r => (⟨s, a, s'⟩ :: r.1, r.2)

/-- A list of actions that can be taken from the start is a run. -/
theorem run_of_trace {start : σ} {step : σ → α → Option σ} {as : List α}
    {ms : List (Move σ α)} {t : σ} (h : trace step start as = some (ms, t)) :
    (ofStep start step).Run ms t := by
  have hext : ∀ (as : List α) (s : σ) (pre ms : List (Move σ α)) (t : σ),
      (ofStep start step).Run pre s → trace step s as = some (ms, t) →
        (ofStep start step).Run (pre ++ ms) t := by
    intro as
    induction as with
    | nil =>
      intro s pre ms t hpre ht
      obtain ⟨rfl, rfl⟩ := Prod.mk.inj (Option.some.inj ht)
      rwa [List.append_nil]
    | cons a as ih =>
      intro s pre ms t hpre ht
      simp only [trace] at ht
      split at ht
      next => cases ht
      next s' hs =>
        obtain ⟨⟨ms', t'⟩, hrest, hr⟩ := Option.map_eq_some_iff.mp ht
        obtain ⟨rfl, rfl⟩ := Prod.mk.inj hr
        have hstep : (ofStep start step).step s a s' := hs
        have := ih s' _ ms' t' (hpre.snoc hstep) hrest
        rwa [List.append_assoc] at this
  exact hext as start [] ms t (.start rfl) h

/-- The actions of its moves are the list's. -/
theorem acts_of_trace {step : σ → α → Option σ} {s t : σ} {as : List α} {ms : List (Move σ α)}
    (h : trace step s as = some (ms, t)) : ms.map Move.act = as := by
  induction as generalizing s ms with
  | nil =>
    obtain ⟨rfl, -⟩ := Prod.mk.inj (Option.some.inj h)
    rfl
  | cons a as ih =>
    simp only [trace] at h
    split at h
    next => cases h
    next s' hs =>
      obtain ⟨⟨ms', t'⟩, hrest, hr⟩ := Option.map_eq_some_iff.mp h
      obtain ⟨rfl, rfl⟩ := Prod.mk.inj hr
      rw [List.map_cons, ih hrest]

/-! ## Handlers -/

section Handlers

variable {μ ω : Type*} {handle : σ → μ → Option (σ × List ω)} {s s' s'' : σ} {m : μ}
  {ms : List μ} {out out' : List ω}

/-- Inputs handled one after the other, and everything that is put out. -/
def handleAll (handle : σ → μ → Option (σ × List ω)) : σ → List μ → Option (σ × List ω)
  | s, [] => some (s, [])
  | s, m :: ms =>
    (handle s m).bind fun r => (handleAll handle r.1 ms).map fun r' => (r'.1, r.2 ++ r'.2)

theorem handleAll_cons (h : handle s m = some (s', out)) :
    handleAll handle s (m :: ms) = (handleAll handle s' ms).map fun r => (r.1, out ++ r.2) := by
  rw [handleAll, h]
  rfl

theorem handleAll_cons_eq_some (h : handleAll handle s (m :: ms) = some (s'', out)) :
    ∃ s' o o', handle s m = some (s', o) ∧ handleAll handle s' ms = some (s'', o') ∧
      out = o ++ o' := by
  obtain ⟨⟨s', o⟩, hfirst, hrest⟩ := Option.bind_eq_some_iff.mp h
  obtain ⟨⟨u, o'⟩, hall, he⟩ := Option.map_eq_some_iff.mp hrest
  obtain ⟨rfl, rfl⟩ := Prod.mk.inj he
  exact ⟨s', o, o', hfirst, hall, rfl⟩

/-- One more input at the end. -/
theorem handleAll_snoc (h : handleAll handle s ms = some (s', out))
    (hm : handle s' m = some (s'', out')) :
    handleAll handle s (ms ++ [m]) = some (s'', out ++ out') := by
  induction ms generalizing s out with
  | nil =>
    obtain ⟨rfl, rfl⟩ := Prod.mk.inj (Option.some.inj h)
    rw [List.nil_append, handleAll_cons hm]
    simp [handleAll]
  | cons x xs ih =>
    obtain ⟨u, o, o', hx, hxs, rfl⟩ := handleAll_cons_eq_some h
    rw [List.cons_append, handleAll_cons hx, ih hxs, Option.map_some, List.append_assoc]

end Handlers

/-! ## Observers -/

/-- `M` with a history variable: it starts at `g₀` and every step updates it
from the state before the step and the action. -/
def observe (M : Lts σ α) (g₀ : γ) (upd : γ → σ → α → γ) : Lts (σ × γ) α where
  init s := M.init s.1 ∧ s.2 = g₀
  step s a s' := M.step s.1 a s'.1 ∧ s'.2 = upd s.2 s.1 a

/-- Forgetting the history variable gives a run of the observed system. -/
theorem observe_reachable {g₀ : γ} {upd : γ → σ → α → γ} {s : σ × γ}
    (h : (M.observe g₀ upd).Reachable s) : M.Reachable s.1 := by
  induction h with
  | init hs => exact .init hs.1
  | step _ hs ih => exact .step ih hs.1

/-- A move without the history variable. -/
def forget (m : Move (σ × γ) α) : Move σ α :=
  ⟨m.pre.1, m.act, m.post.1⟩

/-- The history variable never blocks a run. -/
theorem Run.exists_observe {ms : List (Move σ α)} {s : σ} (h : M.Run ms s) (g₀ : γ)
    (upd : γ → σ → α → γ) :
    ∃ ms' g, (M.observe g₀ upd).Run ms' (s, g) ∧ ms'.map forget = ms := by
  induction h with
  | start hs => exact ⟨[], g₀, .start ⟨hs, rfl⟩, rfl⟩
  | @snoc ms s s' a _ hs ih =>
    obtain ⟨ms', g, hrun, rfl⟩ := ih
    have hstep : (M.observe g₀ upd).step (s, g) a (s', upd g s a) := ⟨hs, rfl⟩
    refine ⟨_, _, hrun.snoc hstep, ?_⟩
    rw [List.map_append]
    rfl

/-- The step function of an observed system. -/
def observeStep (step : σ → α → Option σ) (upd : γ → σ → α → γ) (s : σ × γ) (a : α) :
    Option (σ × γ) :=
  (step s.1 a).map fun s' => (s', upd s.2 s.1 a)

/-- Observing a system given by a step function gives such a system again. -/
theorem observe_ofStep (start : σ) (step : σ → α → Option σ) (g₀ : γ) (upd : γ → σ → α → γ) :
    (ofStep start step).observe g₀ upd = ofStep (start, g₀) (observeStep step upd) := by
  unfold ofStep observe observeStep
  congr 1
  · funext s
    apply propext
    constructor
    · intro hinit
      obtain ⟨hs, hg⟩ := hinit
      exact Prod.ext hs hg
    · intro hs
      rw [hs]
      exact ⟨rfl, rfl⟩
  · funext s a s'
    apply propext
    rw [Option.map_eq_some_iff]
    constructor
    · intro hstep
      obtain ⟨hs, hg⟩ := hstep
      exact ⟨s'.1, hs, Prod.ext rfl hg.symm⟩
    · intro hmap
      obtain ⟨t, ht, rfl⟩ := hmap
      exact ⟨ht, rfl⟩

/-- Actions that can be taken from the start are a run of the observed system. -/
theorem observe_run_of_trace {start : σ} {step : σ → α → Option σ} {g₀ : γ}
    {upd : γ → σ → α → γ} {as : List α} {ms : List (Move (σ × γ) α)} {t : σ × γ}
    (h : trace (observeStep step upd) (start, g₀) as = some (ms, t)) :
    ((ofStep start step).observe g₀ upd).Run ms t := by
  rw [observe_ofStep]
  exact run_of_trace h

/-- Actions that can be taken from a state are a run of the observed system
that goes on from there. -/
theorem resume_run_of_trace (start : σ) (g₀ : γ) {t : σ} {step : σ → α → Option σ} {g : γ}
    {upd : γ → σ → α → γ} {as : List α} {ms : List (Move (σ × γ) α)} {u : σ × γ}
    (h : trace (observeStep step upd) (t, g) as = some (ms, u)) :
    (((ofStep start step).observe g₀ upd).resume (t, g)).Run ms u := by
  rw [observe_ofStep]
  exact run_of_trace h

/-! ## A part of a system -/

/-- Every step of `M` leaves the part `proj` as it is or is a step of `N` there;
so a run of `M` is a run of `N` in that part. -/
theorem Run.project {τ β : Type*} {N : Lts τ β} {f : Move σ α → Option β} (proj : σ → τ)
    (hinit : ∀ s, M.init s → N.init (proj s))
    (hstep : ∀ s a s', M.Reachable s → M.step s a s' →
      (f ⟨s, a, s'⟩ = none ∧ proj s' = proj s) ∨
        ∃ b, f ⟨s, a, s'⟩ = some b ∧ N.step (proj s) b (proj s'))
    {ms : List (Move σ α)} {s : σ} (h : M.Run ms s) :
    ∃ ms', N.Run ms' (proj s) ∧ ms'.map Move.act = ms.filterMap f := by
  induction h with
  | start hs => exact ⟨[], .start (hinit _ hs), rfl⟩
  | @snoc ms s s' a hrun hs ih =>
    obtain ⟨ms', hrun', hacts⟩ := ih
    rw [List.filterMap_append]
    rcases hstep s a s' hrun.reachable hs with ⟨hnone, hsame⟩ | ⟨b, hsome, hs'⟩
    · refine ⟨ms', hsame ▸ hrun', ?_⟩
      rw [List.filterMap_cons_none hnone, List.filterMap_nil, List.append_nil, hacts]
    · refine ⟨_, hrun'.snoc hs', ?_⟩
      rw [List.map_append, hacts, List.filterMap_cons_some hsome]
      rfl

/-! ## Runs under a condition -/

/-- The runs of `M` whose every step is taken in a state and by an action
that meet `ok`. -/
def guard (M : Lts σ α) (ok : σ → α → Prop) : Lts σ α where
  init := M.init
  step s a s' := ok s a ∧ M.step s a s'

/-- A run whose every move meets the condition is a run under it. -/
theorem Run.guard {ok : σ → α → Prop} {ms : List (Move σ α)} {s : σ} (h : M.Run ms s)
    (hok : ∀ m ∈ ms, ok m.pre m.act) : (M.guard ok).Run ms s := by
  induction h with
  | start hs => exact .start hs
  | @snoc ms s s' a _ hs ih =>
    have hlast := hok ⟨s, a, s'⟩ List.mem_concat_self
    exact .snoc (ih fun m hm => hok m (List.mem_append_left _ hm)) ⟨hlast, hs⟩

/-- What is reached under the condition is reached. -/
theorem Leads.of_guard {ok : σ → α → Prop} {s s' : σ} (h : (M.guard ok).Leads s s') :
    M.Leads s s' := by
  induction h with
  | refl => exact .refl
  | step _ hs ih => exact .step ih hs.2

/-! ## Infinite runs -/

/-- An infinite run: the state and the action at each time. -/
structure Execution (M : Lts σ α) (x : ℕ → σ) (e : ℕ → α) : Prop where
  init : M.init (x 0)
  step : ∀ k, M.step (x k) (e k) (x (k + 1))

theorem Execution.reachable {x : ℕ → σ} {e : ℕ → α} (h : M.Execution x e) :
    ∀ k, M.Reachable (x k) := by
  intro k
  induction k with
  | zero => exact .init h.init
  | succ k ih => exact .step ih (h.step k)

/-- A sequence that from time `N` on either stays or strictly descends in a
well-founded order descends only finitely often. -/
theorem finite_descents {β : Type*} {r : β → β → Prop} (hwf : WellFounded r)
    (μ : ℕ → β) (D : ℕ → Prop) (N : ℕ)
    (hdesc : ∀ k, N ≤ k → D k → r (μ (k + 1)) (μ k))
    (hstay : ∀ k, N ≤ k → ¬D k → μ (k + 1) = μ k) : {k | D k}.Finite := by
  classical
  -- well-founded induction on the value at the time we start looking
  have htail : ∀ b, ∀ k, N ≤ k → μ k = b → {j | k ≤ j ∧ D j}.Finite := by
    intro b
    induction b using hwf.induction with
    | _ b ih =>
      intro k hk hb
      by_cases hex : ∃ j, k ≤ j ∧ D j
      · -- the first descent at or after `k` still starts from the value `b`
        have hspec := Nat.find_spec hex
        have hleast : ∀ i, k ≤ i → i < Nat.find hex → ¬D i := fun i hki hi hD =>
          Nat.find_min hex hi ⟨hki, hD⟩
        have hflat : ∀ i, k ≤ i → i ≤ Nat.find hex → μ i = b := by
          intro i hki
          induction i, hki using Nat.le_induction with
          | base => intro _; exact hb
          | succ i hki ihi =>
            intro hi
            rw [hstay i (by omega) (hleast i hki (by omega))]
            exact ihi (by omega)
        have hlt : r (μ (Nat.find hex + 1)) b := by
          have := hdesc _ (le_trans hk hspec.1) hspec.2
          rwa [hflat _ hspec.1 le_rfl] at this
        have hrest := ih _ hlt (Nat.find hex + 1) (by omega) rfl
        refine (hrest.union (Set.finite_singleton (Nat.find hex))).subset ?_
        intro j hj
        obtain ⟨hkj, hD⟩ := hj
        rcases Nat.lt_trichotomy j (Nat.find hex) with hj | hj | hj
        · exact absurd hD (hleast j hkj hj)
        · exact Or.inr hj
        · exact Or.inl ⟨hj, hD⟩
      · refine Set.finite_empty.subset ?_
        intro j hj
        exact hex ⟨j, hj⟩
  refine ((Set.finite_lt_nat N).union (htail _ N le_rfl rfl)).subset ?_
  intro k hD
  rcases Nat.lt_or_ge k N with hk | hk
  · exact Or.inl hk
  · exact Or.inr ⟨hk, hD⟩

/-- The termination rule. `μ` strictly descends at every `D`-move from a
reachable state and stays at every other move that is no disturbance `B`;
then an infinite run with finitely many disturbances has finitely many
`D`-moves. -/
theorem Execution.finite_of_wellFounded {β : Type*} {r : β → β → Prop}
    (hwf : WellFounded r) (μ : σ → β) (D B : σ → α → Prop)
    (hdesc : ∀ s a s', M.Reachable s → M.step s a s' → D s a → r (μ s') (μ s))
    (hstay : ∀ s a s', M.Reachable s → M.step s a s' → ¬D s a → ¬B s a → μ s' = μ s)
    {x : ℕ → σ} {e : ℕ → α} (h : M.Execution x e)
    (hB : {k | B (x k) (e k)}.Finite) : {k | D (x k) (e k)}.Finite := by
  obtain ⟨N, hN⟩ := hB.bddAbove
  have hquiet : ∀ k, N + 1 ≤ k → ¬B (x k) (e k) := by
    intro k hk hBk
    have := hN hBk
    omega
  refine finite_descents hwf (fun k => μ (x k)) (fun k => D (x k) (e k)) (N + 1) ?_ ?_
  · intro k _ hD
    exact hdesc _ _ _ (h.reachable k) (h.step k) hD
  · intro k hk hD
    exact hstay _ _ _ (h.reachable k) (h.step k) hD (hquiet k hk)

/-- A property that always admits a `Q`-move keeping it can be followed for
ever, once a first step has established it. -/
theorem exists_execution {J : σ → Prop} {Q : σ → α → Prop}
    (hprog : ∀ s, J s → ∃ a s', M.step s a s' ∧ Q s a ∧ J s') {s₀ s₁ : σ} {a₀ : α}
    (hinit : M.init s₀) (hfirst : M.step s₀ a₀ s₁) (h₁ : J s₁) :
    ∃ (x : ℕ → σ) (e : ℕ → α), M.Execution x e ∧ e 0 = a₀ ∧ ∀ k, Q (x (k + 1)) (e (k + 1)) := by
  choose act next hstep hQ hJ using hprog
  -- the iteration runs over the states that satisfy `J`
  let advance : {s // J s} → {s // J s} := fun s => ⟨next s.1 s.2, hJ s.1 s.2⟩
  let state : ℕ → {s // J s} := fun k => advance^[k] ⟨s₁, h₁⟩
  have hnext : ∀ k, state (k + 1) = advance (state k) := fun k => Function.iterate_succ_apply' ..
  refine ⟨fun k => match k with | 0 => s₀ | k + 1 => (state k).1,
    fun k => match k with | 0 => a₀ | k + 1 => act (state k).1 (state k).2, ⟨hinit, ?_⟩, rfl, ?_⟩
  · intro k
    cases k with
    | zero => exact hfirst
    | succ k =>
      show M.step (state k).1 _ (state (k + 1)).1
      rw [hnext]
      exact hstep _ (state k).2
  · intro k
    exact hQ _ (state k).2

end Lts

end Lib
