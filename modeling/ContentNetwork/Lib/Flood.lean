import ContentNetwork.Lib.Wiring
import Mathlib.Data.Set.Card
import Mathlib.Order.Bounds.Basic

/-!
# Asynchronous flooding of hop counts

Leaves of a wiring send a message with hop count 0 to their node. A node that
receives hop count `k` on a port either adopts it, when it has no value yet or
one that is no smaller, and sends `k + 1` through its other ports, or ignores
it. Messages are delivered in any order and none is lost.

The values only go down (`step_best_le`); every invariant below rests on this:

* From *any* initial values, a message with `k` hops leaves at least `k` nodes
  behind that hold a smaller value (`reachable_room`). An adopting node does
  not, so it is one more: hop counts stay below the number of nodes
  (`hops_lt_card`), although ties are adopted and sent on again.
* From no values at all, `Sound`: the port of a node's value leads to a leaf
  that has sent, or to a node with a strictly smaller value, so the ports form
  trails (`exists_trail`). `FloodInv` adds that for each value that is known,
  its neighbours know as good a value or will be told (`Covered`). Once nothing
  is in flight the values are the distances to the nearest source
  (`converged`).
-/

namespace Lib.Flood

open Wiring

/-- A message that is to arrive at a port of a node. -/
structure Msg (R P : Type*) where
  node : R
  port : P
  hops : ℕ

/-- The value and port each node holds, the messages in flight, and the leaves
that have sent. -/
@[ext] structure State (R P H : Type*) where
  best : R → Option (ℤ × P)
  flight : Multiset (Msg R P)
  sources : Set H

inductive Event (R P H : Type*)
  | originate (h : H)
  | deliver (m : Msg R P)

variable {R P H : Type*} [DecidableEq R]

/-- One event. What an adopting node sends is given by its members. -/
inductive Step (W : Wiring R P H) (s : State R P H) : Event R P H → State R P H → Prop
  | originate (h : H) :
      Step W s (.originate h)
        { s with
          flight := ⟨(W.attach h).1, (W.attach h).2, 0⟩ ::ₘ s.flight
          sources := insert h s.sources }
  | adopt {m : Msg R P} {rest new : Multiset (Msg R P)} :
      s.flight = m ::ₘ rest →
      (∀ b p, s.best m.node = some (b, p) → (m.hops : ℤ) ≤ b) →
      (∀ x, x ∈ new ↔ x.hops = m.hops + 1 ∧
        ∃ p, p ≠ m.port ∧ W.far m.node p = some (.node x.node x.port)) →
      Step W s (.deliver m)
        { s with
          best := Function.update s.best m.node (some ((m.hops : ℤ), m.port))
          flight := rest + new }
  | ignore {m : Msg R P} {rest : Multiset (Msg R P)} {b : ℤ} {p : P} :
      s.flight = m ::ₘ rest → s.best m.node = some (b, p) → b < m.hops →
      Step W s (.deliver m) { s with flight := rest }

/-- The flood that starts from the values `best`, with nothing in flight. -/
def flood (W : Wiring R P H) (best : R → Option (ℤ × P)) : Lts (State R P H) (Event R P H) where
  init s := s = ⟨best, 0, ∅⟩
  step := Step W

variable {W : Wiring R P H} {s s' : State R P H} {a : Event R P H} {r : R} {k : ℤ}

/-! ## Values only go down -/

/-- Node `r` holds a value below `k`. -/
def BestLt (s : State R P H) (r : R) (k : ℤ) : Prop :=
  ∃ b p, s.best r = some (b, p) ∧ b < k

theorem step_best_le (h : Step W s a s') {b : ℤ} {p : P} (hb : s.best r = some (b, p)) :
    ∃ b' p', s'.best r = some (b', p') ∧ b' ≤ b := by
  cases h with
  | originate h => exact ⟨b, p, hb, le_rfl⟩
  | @adopt m rest new _ hle _ =>
    by_cases hr : r = m.node
    · subst hr
      exact ⟨m.hops, m.port, Function.update_self .., hle b p hb⟩
    · refine ⟨b, p, ?_, le_rfl⟩
      show Function.update _ _ _ r = _
      rw [Function.update_of_ne hr, hb]
  | ignore => exact ⟨b, p, hb, le_rfl⟩

theorem BestLt.step (h : Step W s a s') (hr : BestLt s r k) : BestLt s' r k := by
  obtain ⟨b, p, hb, hlt⟩ := hr
  obtain ⟨b', p', hb', hle⟩ := step_best_le h hb
  exact ⟨b', p', hb', lt_of_le_of_lt hle hlt⟩

omit [DecidableEq R] in
theorem BestLt.mono {k' : ℤ} (hk : k ≤ k') (hr : BestLt s r k) : BestLt s r k' := by
  obtain ⟨b, p, hb, hlt⟩ := hr
  exact ⟨b, p, hb, lt_of_lt_of_le hlt hk⟩

theorem step_sources (h : Step W s a s') : s.sources ⊆ s'.sources := by
  cases h with
  | originate h => exact Set.subset_insert h s.sources
  | adopt => exact subset_rfl
  | ignore => exact subset_rfl

/-! ## Hop counts stay below the number of nodes -/

section Room

variable [Finite R]

/-- A message with `k` hops has left `k` nodes behind that hold less. -/
def Room (s : State R P H) : Prop :=
  ∀ m ∈ s.flight, m.hops ≤ {v | BestLt s v m.hops}.ncard

omit [DecidableEq R] in
/-- The node that adopts a message is not among those it left behind. -/
theorem adopt_room {m : Msg R P} (hroom : m.hops ≤ {v | BestLt s v m.hops}.ncard)
    (hle : ∀ b p, s.best m.node = some (b, p) → (m.hops : ℤ) ≤ b) :
    m.hops + 1 ≤ (insert m.node {v | BestLt s v m.hops}).ncard := by
  have hnot : m.node ∉ {v | BestLt s v m.hops} := by
    intro hlt
    obtain ⟨b, p, hb, hlt⟩ := hlt
    have := hle b p hb
    omega
  rw [Set.ncard_insert_of_notMem hnot (Set.toFinite _)]
  omega

theorem step_room (hi : Room s) (h : Step W s a s') : Room s' := by
  -- a message that stays in flight keeps its room, since values only go down
  have hstay : ∀ m ∈ s.flight, m.hops ≤ {v | BestLt s' v m.hops}.ncard := by
    intro m hm
    refine le_trans (hi m hm) (Set.ncard_le_ncard ?_ (Set.toFinite _))
    intro v hv
    exact BestLt.step h hv
  cases h with
  | originate h =>
    intro m hm
    rcases Multiset.mem_cons.mp hm with hm | hm
    · rw [hm]
      exact Nat.zero_le _
    · exact hstay m hm
  | @adopt m rest new hflight hle hnew =>
    have hadopt := adopt_room (hi m (hflight ▸ Multiset.mem_cons_self m rest)) hle
    intro x hx
    rcases Multiset.mem_add.mp hx with hx | hx
    · exact hstay x (hflight ▸ Multiset.mem_cons_of_mem hx)
    · obtain ⟨hhops, -⟩ := (hnew x).mp hx
      rw [hhops]
      refine le_trans hadopt (Set.ncard_le_ncard ?_ (Set.toFinite _))
      intro v hv
      rcases Set.mem_insert_iff.mp hv with hv | hv
      · rw [hv]
        refine ⟨m.hops, m.port, Function.update_self .., ?_⟩
        omega
      · refine (BestLt.step (.adopt hflight hle hnew) hv).mono ?_
        omega
  | @ignore m rest b p hflight hb hlt =>
    intro x hx
    exact hstay x (hflight ▸ Multiset.mem_cons_of_mem hx)

theorem reachable_room {best : R → Option (ℤ × P)} (h : (flood W best).Reachable s) : Room s := by
  refine h.invariant ?_ ?_
  · intro s hs m hm
    rw [hs] at hm
    exact absurd hm (Multiset.notMem_zero m)
  · intro s a s' hi hs
    exact step_room hi hs

omit [DecidableEq R] in
/-- A hop count that can be adopted is below the number of nodes. -/
theorem Room.lt_card (hi : Room s) {m : Msg R P} (hm : m ∈ s.flight)
    (hle : ∀ b p, s.best m.node = some (b, p) → (m.hops : ℤ) ≤ b) : m.hops < Nat.card R := by
  have hadopt := adopt_room (hi m hm) hle
  have hcard := Set.ncard_le_card (insert m.node {v | BestLt s v m.hops})
  omega

theorem hops_lt_card {best : R → Option (ℤ × P)} (h : (flood W best).Reachable s) {m : Msg R P}
    (hm : m ∈ s.flight) (hle : ∀ b p, s.best m.node = some (b, p) → (m.hops : ℤ) ≤ b) :
    m.hops < Nat.card R :=
  (reachable_room h).lt_card hm hle

end Room

/-! ## Values name a source -/

/-- A value `k` for port `p` of node `r` has a reason: a source sits there, or
the node there holds a smaller value. -/
def Supported (W : Wiring R P H) (s : State R P H) (r : R) (p : P) (k : ℤ) : Prop :=
  (k = 0 ∧ ∃ h ∈ s.sources, W.attach h = (r, p)) ∨
    ∃ r' p', W.far r p = some (.node r' p') ∧ BestLt s r' k

/-- Node `r` holds `k` or less, or a message will bring it. -/
def Covered (s : State R P H) (r : R) (k : ℤ) : Prop :=
  BestLt s r (k + 1) ∨ ∃ m ∈ s.flight, m.node = r ∧ (m.hops : ℤ) ≤ k

theorem Supported.step {p : P} (h : Step W s a s') (hp : Supported W s r p k) :
    Supported W s' r p k := by
  rcases hp with ⟨hk, x, hx, hatt⟩ | ⟨r', p', hfar, hlt⟩
  · exact Or.inl ⟨hk, x, step_sources h hx, hatt⟩
  · exact Or.inr ⟨r', p', hfar, hlt.step h⟩

/-- A delivered message leaves its hop count, or less, at its node. -/
theorem deliver_bestLt {m : Msg R P} (h : Step W s (.deliver m) s') :
    BestLt s' m.node (m.hops + 1) := by
  cases h with
  | adopt => exact ⟨m.hops, m.port, Function.update_self .., by omega⟩
  | ignore _ hb hlt => exact ⟨_, _, hb, by omega⟩

theorem Covered.step (h : Step W s a s') (hr : Covered s r k) : Covered s' r k := by
  rcases hr with hlt | ⟨m, hm, hmr, hmk⟩
  · exact Or.inl (hlt.step h)
  · cases a with
    | originate x =>
      cases h with
      | originate => exact Or.inr ⟨m, Multiset.mem_cons_of_mem hm, hmr, hmk⟩
    | deliver x =>
      -- either `m` is what was delivered, or it is still in flight
      by_cases hx : m = x
      · refine Or.inl ?_
        have := deliver_bestLt h
        rw [← hx, hmr] at this
        exact this.mono (by omega)
      · refine Or.inr ⟨m, ?_, hmr, hmk⟩
        cases h with
        | adopt hflight _ _ =>
          rw [hflight] at hm
          exact Multiset.mem_add.mpr (Or.inl ((Multiset.mem_cons.mp hm).resolve_left hx))
        | ignore hflight _ _ =>
          rw [hflight] at hm
          exact (Multiset.mem_cons.mp hm).resolve_left hx

/-- Every value and every message has a reason. -/
structure Sound (W : Wiring R P H) (s : State R P H) : Prop where
  nat : ∀ r b p, s.best r = some (b, p) → 0 ≤ b
  message : ∀ m ∈ s.flight, Supported W s m.node m.port m.hops
  value : ∀ r b p, s.best r = some (b, p) → Supported W s r p b

omit [DecidableEq R] in
theorem start_sound : Sound W ⟨fun _ => none, 0, ∅⟩ where
  nat := fun _ _ _ h => by cases h
  message := fun _ h => absurd h (Multiset.notMem_zero _)
  value := fun _ _ _ h => by cases h

/-- What a node holds after it has adopted a message. -/
theorem adopted_value {m : Msg R P} {b : ℤ} {p : P}
    (hb : Function.update s.best m.node (some ((m.hops : ℤ), m.port)) r = some (b, p)) :
    (r = m.node ∧ b = m.hops ∧ p = m.port) ∨ s.best r = some (b, p) := by
  by_cases hr : r = m.node
  · rw [hr, Function.update_self] at hb
    obtain ⟨hb, hp⟩ := Prod.mk.inj (Option.some.inj hb)
    exact Or.inl ⟨hr, hb.symm, hp.symm⟩
  · rw [Function.update_of_ne hr] at hb
    exact Or.inr hb

theorem step_sound (hi : Sound W s) (h : Step W s a s') : Sound W s' := by
  have hstep := h
  cases h with
  | originate h =>
    refine ⟨hi.nat, ?_, fun r b p hb => (hi.value r b p hb).step hstep⟩
    intro m hm
    rcases Multiset.mem_cons.mp hm with hm | hm
    · rw [hm]
      exact Or.inl ⟨rfl, h, Set.mem_insert h s.sources, rfl⟩
    · exact (hi.message m hm).step hstep
  | @adopt m rest new hflight hle hnew =>
    have hm := hi.message m (hflight ▸ Multiset.mem_cons_self m rest)
    refine ⟨?_, ?_, ?_⟩
    · intro r b p hb
      rcases adopted_value hb with ⟨-, hb, -⟩ | hb
      · omega
      · exact hi.nat r b p hb
    · intro x hx
      rcases Multiset.mem_add.mp hx with hx | hx
      · exact (hi.message x (hflight ▸ Multiset.mem_cons_of_mem hx)).step hstep
      · -- a new message comes from the node that has just adopted
        obtain ⟨hhops, p, -, hfar⟩ := (hnew x).mp hx
        refine Or.inr ⟨m.node, p, W.symm hfar, m.hops, m.port, Function.update_self .., ?_⟩
        omega
    · intro r b p hb
      rcases adopted_value hb with ⟨hr, hb, hp⟩ | hb
      · rw [hr, hb, hp]
        exact hm.step hstep
      · exact (hi.value r b p hb).step hstep
  | @ignore m rest b p hflight hb hlt =>
    refine ⟨hi.nat, fun x hx => ?_, fun r b p hb => (hi.value r b p hb).step hstep⟩
    exact (hi.message x (hflight ▸ Multiset.mem_cons_of_mem hx)).step hstep

/-! ## What follows from the reasons -/

namespace Sound

variable {b : ℤ} {p : P}

omit [DecidableEq R]

/-- The port of a value that leads to a node leads to a smaller value. -/
theorem loop_free (hi : Sound W s) (hb : s.best r = some (b, p)) {r' : R} {p' : P}
    (hfar : W.far r p = some (.node r' p')) : BestLt s r' b := by
  rcases hi.value r b p hb with ⟨-, h, -, hatt⟩ | ⟨r'', p'', hfar', hlt⟩
  · rw [W.leaf.mpr hatt] at hfar
    cases hfar
  · rw [hfar'] at hfar
    cases hfar
    exact hlt

/-- The port of a value that leads to a leaf leads to a source. -/
theorem leaf_source (hi : Sound W s) (hb : s.best r = some (b, p)) {h : H}
    (hfar : W.far r p = some (.leaf h)) : h ∈ s.sources := by
  rcases hi.value r b p hb with ⟨-, h', hh', hatt⟩ | ⟨r'', p'', hfar', -⟩
  · rw [W.leaf.mpr hatt] at hfar
    cases hfar
    exact hh'
  · rw [hfar'] at hfar
    cases hfar

/-- From a node with value `b` the ports lead to a source, over distinct nodes
of values up to `b`. -/
theorem exists_trail (hi : Sound W s) : ∀ (n : ℕ) (r : R) (p : P),
    s.best r = some ((n : ℤ), p) →
      ∃ l, ∃ h ∈ s.sources, W.Trail (fun v => (s.best v).map Prod.snd) r l h ∧
        l.length ≤ n + 1 ∧ ∀ v ∈ l, BestLt s v (n + 1) := by
  intro n
  induction n using Nat.strong_induction_on with
  | _ n ih =>
    intro r p hb
    have hcrumb : (s.best r).map Prod.snd = some p := by rw [hb]; rfl
    rcases hi.value r n p hb with ⟨-, h, hh, hatt⟩ | ⟨r', p', hfar, b', q, hb', hlt⟩
    · refine ⟨[r], h, hh, .last hcrumb (W.leaf.mpr hatt), by simp, ?_⟩
      intro v hv
      rw [List.mem_singleton] at hv
      rw [hv]
      exact ⟨n, p, hb, by omega⟩
    · have hnn := hi.nat r' b' q hb'
      obtain ⟨n', rfl⟩ := Int.eq_ofNat_of_zero_le hnn
      obtain ⟨l, h, hh, htrail, hlen, hsmall⟩ := ih n' (by omega) r' q hb'
      refine ⟨r :: l, h, hh, .hop hcrumb hfar htrail ?_, ?_, ?_⟩
      · -- the nodes behind hold values below `n`
        intro hmem
        obtain ⟨b'', p'', hb'', hlt''⟩ := hsmall r hmem
        rw [hb] at hb''
        cases hb''
        omega
      · rw [List.length_cons]
        omega
      · intro v hv
        rcases List.mem_cons.mp hv with hv | hv
        · rw [hv]
          exact ⟨n, p, hb, by omega⟩
        · exact (hsmall v hv).mono (by omega)

/-- A value is no smaller than the length of a walk from some source. -/
theorem exists_walk (hi : Sound W s) : ∀ (n : ℕ) (r : R) (p : P),
    s.best r = some ((n : ℤ), p) →
      ∃ h ∈ s.sources, ∃ k ≤ n, W.Walk (W.attach h).1 r k := by
  intro n
  induction n using Nat.strong_induction_on with
  | _ n ih =>
    intro r p hb
    rcases hi.value r n p hb with ⟨-, h, hh, hatt⟩ | ⟨r', p', hfar, b', q, hb', hlt⟩
    · refine ⟨h, hh, 0, Nat.zero_le n, ?_⟩
      rw [hatt]
      exact .nil
    · obtain ⟨n', rfl⟩ := Int.eq_ofNat_of_zero_le (hi.nat r' b' q hb')
      obtain ⟨h, hh, k, hk, hwalk⟩ := ih n' (by omega) r' q hb'
      exact ⟨h, hh, k + 1, by omega, hwalk.snoc (W.symm hfar)⟩

/-- If no walk from a source is shorter than the value at its end, a node that
some walk joins to a source holds its distance to the nearest source, and its
port leads to a source or to a node one nearer. -/
theorem converged (hi : Sound W s)
    (hnear : ∀ h ∈ s.sources, ∀ v n, W.Walk (W.attach h).1 v n → BestLt s v (n + 1)) {h : H}
    (hh : h ∈ s.sources) {k : ℕ} (hwalk : W.Walk (W.attach h).1 r k) :
    ∃ (n : ℕ) (p : P), s.best r = some ((n : ℤ), p) ∧
      IsLeast {k | ∃ h ∈ s.sources, W.Walk (W.attach h).1 r k} n ∧
      ((n = 0 ∧ ∃ h ∈ s.sources, W.far r p = some (.leaf h)) ∨
        ∃ (r' : R) (p' q : P) (n' : ℕ), W.far r p = some (.node r' p') ∧
          s.best r' = some ((n' : ℤ), q) ∧ n' + 1 = n) := by
  obtain ⟨b, p, hb, -⟩ := hnear h hh r k hwalk
  obtain ⟨n, rfl⟩ := Int.eq_ofNat_of_zero_le (hi.nat r b p hb)
  -- no walk is shorter than the value, and some walk is no longer
  have hlower : ∀ x ∈ s.sources, ∀ j, W.Walk (W.attach x).1 r j → n ≤ j := by
    intro x hx j hj
    obtain ⟨b', p', hb', hlt⟩ := hnear x hx r j hj
    rw [hb] at hb'
    cases hb'
    omega
  have hleast : IsLeast {k | ∃ h ∈ s.sources, W.Walk (W.attach h).1 r k} n := by
    obtain ⟨x, hx, j, hj, hwalk⟩ := hi.exists_walk n r p hb
    obtain rfl : j = n := le_antisymm hj (hlower x hx j hwalk)
    refine ⟨⟨x, hx, hwalk⟩, ?_⟩
    intro k hk
    obtain ⟨y, hy, hwalk'⟩ := hk
    exact hlower y hy k hwalk'
  refine ⟨n, p, hb, hleast, ?_⟩
  rcases hi.value r n p hb with ⟨hn, x, hx, hatt⟩ | ⟨r', p', hfar, b', q, hb', hlt⟩
  · exact Or.inl ⟨by omega, x, hx, W.leaf.mpr hatt⟩
  · obtain ⟨n', rfl⟩ := Int.eq_ofNat_of_zero_le (hi.nat r' b' q hb')
    obtain ⟨x, hx, j, hj, hwalk⟩ := hi.exists_walk n' r' q hb'
    have := hlower x hx (j + 1) (hwalk.snoc (W.symm hfar))
    exact Or.inr ⟨r', p', q, n', hfar, hb', by omega⟩

end Sound

/-! ## Neighbours are told -/

/-- The invariant of a flood that starts from no values. -/
structure FloodInv (W : Wiring R P H) (s : State R P H) : Prop where
  nat : ∀ r b p, s.best r = some (b, p) → 0 ≤ b
  message : ∀ m ∈ s.flight, Supported W s m.node m.port m.hops
  value : ∀ r b p, s.best r = some (b, p) → Supported W s r p b
  source : ∀ h ∈ s.sources, Covered s (W.attach h).1 0
  neighbour : ∀ r b p, s.best r = some (b, p) →
    ∀ q r' q', W.far r q = some (.node r' q') → Covered s r' (b + 1)

omit [DecidableEq R] in
theorem FloodInv.sound (hi : FloodInv W s) : Sound W s :=
  ⟨hi.nat, hi.message, hi.value⟩

omit [DecidableEq R] in
theorem Sound.floodInv (hi : Sound W s) (hsource : ∀ h ∈ s.sources, Covered s (W.attach h).1 0)
    (hneighbour : ∀ r b p, s.best r = some (b, p) →
      ∀ q r' q', W.far r q = some (.node r' q') → Covered s r' (b + 1)) : FloodInv W s :=
  ⟨hi.nat, hi.message, hi.value, hsource, hneighbour⟩

omit [DecidableEq R] in
theorem start_floodInv : FloodInv W ⟨fun _ => none, 0, ∅⟩ :=
  start_sound.floodInv (fun _ h => absurd h (Set.notMem_empty _)) fun _ _ _ h => by cases h

omit [DecidableEq R] in
/-- A new message through another port covers its node; a message is not sent
back to where it came from, but a smaller value is known there. -/
theorem adopt_neighbour {m : Msg R P} {rest new : Multiset (Msg R P)} (hi : Sound W s)
    (hflight : s.flight = m ::ₘ rest)
    (hnew : ∀ x, x ∈ new ↔ x.hops = m.hops + 1 ∧
      ∃ p, p ≠ m.port ∧ W.far m.node p = some (.node x.node x.port))
    {q q' : P} {r' : R} (hfar : W.far m.node q = some (.node r' q')) :
    BestLt s r' m.hops ∨ ⟨r', q', m.hops + 1⟩ ∈ new := by
  by_cases hq : q = m.port
  · rcases hi.message m (hflight ▸ Multiset.mem_cons_self m rest) with
      ⟨-, h, -, hatt⟩ | ⟨r'', p'', hfar', hlt⟩
    · rw [hq, W.leaf.mpr hatt] at hfar
      cases hfar
    · rw [hq, hfar'] at hfar
      cases hfar
      exact Or.inl hlt
  · exact Or.inr ((hnew _).mpr ⟨rfl, q, hq, hfar⟩)

theorem step_floodInv (hi : FloodInv W s) (h : Step W s a s') : FloodInv W s' := by
  refine (step_sound hi.sound h).floodInv ?_ ?_
  · intro x hx
    have hold : x ∈ s.sources → Covered s' (W.attach x).1 0 := by
      intro hx
      exact (hi.source x hx).step h
    cases h with
    | originate h =>
      rcases Set.mem_insert_iff.mp hx with hx | hx
      · rw [hx]
        exact Or.inr ⟨_, Multiset.mem_cons_self _ _, rfl, le_rfl⟩
      · exact hold hx
    | adopt => exact hold hx
    | ignore => exact hold hx
  · intro r b p hb q r' q' hfar
    have hold : s.best r = some (b, p) → Covered s' r' (b + 1) := by
      intro hb
      exact (hi.neighbour r b p hb q r' q' hfar).step h
    have hstep := h
    cases h with
    | originate => exact hold hb
    | ignore => exact hold hb
    | @adopt m rest new hflight hle hnew =>
      rcases adopted_value hb with ⟨rfl, rfl, -⟩ | hb
      · rcases adopt_neighbour hi.sound hflight hnew hfar with hlt | hmem
        · exact Or.inl ((hlt.step hstep).mono (by omega))
        · refine Or.inr ⟨_, Multiset.mem_add.mpr (Or.inr hmem), rfl, ?_⟩
          show ((m.hops + 1 : ℕ) : ℤ) ≤ _
          omega
      · exact hold hb

theorem reachable_floodInv (h : (flood W fun _ => none).Reachable s) : FloodInv W s := by
  refine h.invariant ?_ ?_
  · intro s hs
    rw [hs]
    exact start_floodInv
  · intro s a s' hi hs
    exact step_floodInv hi hs

/-! ## What the invariant says -/

namespace FloodInv

variable {b : ℤ} {p : P}

omit [DecidableEq R]

theorem loop_free (hi : FloodInv W s) (hb : s.best r = some (b, p)) {r' : R} {p' : P}
    (hfar : W.far r p = some (.node r' p')) : BestLt s r' b :=
  hi.sound.loop_free hb hfar

theorem leaf_source (hi : FloodInv W s) (hb : s.best r = some (b, p)) {h : H}
    (hfar : W.far r p = some (.leaf h)) : h ∈ s.sources :=
  hi.sound.leaf_source hb hfar

theorem exists_trail (hi : FloodInv W s) (n : ℕ) (r : R) (p : P)
    (hb : s.best r = some ((n : ℤ), p)) :
    ∃ l, ∃ h ∈ s.sources, W.Trail (fun v => (s.best v).map Prod.snd) r l h ∧
      l.length ≤ n + 1 ∧ ∀ v ∈ l, BestLt s v (n + 1) :=
  hi.sound.exists_trail n r p hb

/-- With nothing in flight, no walk from a source is shorter than the value. -/
theorem bestLt_of_walk (hi : FloodInv W s) (hquiet : s.flight = 0) {h : H} (hh : h ∈ s.sources)
    {n : ℕ} (hwalk : W.Walk (W.attach h).1 r n) : BestLt s r (n + 1) := by
  have hknown : ∀ {v : R} {k : ℤ}, Covered s v k → BestLt s v (k + 1) := by
    intro v k hv
    rcases hv with hlt | ⟨m, hm, -⟩
    · exact hlt
    · rw [hquiet] at hm
      exact absurd hm (Multiset.notMem_zero m)
  induction hwalk with
  | nil => exact hknown (hi.source h hh)
  | snoc _ hfar ih =>
    obtain ⟨b, p, hb, hlt⟩ := ih
    have := hknown (hi.neighbour _ b p hb _ _ _ hfar)
    exact this.mono (by omega)

/-- **Convergence.** With nothing in flight, a node that some walk joins to a
source holds its distance to the nearest source, and its port leads to a
source or to a node one nearer. -/
theorem converged (hi : FloodInv W s) (hquiet : s.flight = 0) {h : H} (hh : h ∈ s.sources)
    {k : ℕ} (hwalk : W.Walk (W.attach h).1 r k) :
    ∃ (n : ℕ) (p : P), s.best r = some ((n : ℤ), p) ∧
      IsLeast {k | ∃ h ∈ s.sources, W.Walk (W.attach h).1 r k} n ∧
      ((n = 0 ∧ ∃ h ∈ s.sources, W.far r p = some (.leaf h)) ∨
        ∃ (r' : R) (p' q : P) (n' : ℕ), W.far r p = some (.node r' p') ∧
          s.best r' = some ((n' : ℤ), q) ∧ n' + 1 = n) :=
  hi.sound.converged (fun _ hh _ _ hwalk => hi.bestLt_of_walk hquiet hh hwalk) hh hwalk

end FloodInv

end Lib.Flood
