import ContentNetwork.Lib.Lts
import Mathlib.Data.List.Nodup
import Mathlib.Order.Lattice.Nat
import Mathlib.SetTheory.Cardinal.NatCard

/-!
# Nodes wired port to port, and journeys along their ports

A network of nodes `R` with ports `P` and leaves `H`, where every port is
wired to one far end: a port of another node, a leaf, or nothing. Wires are
symmetric, and a leaf sits on one port (`Wiring`).

`Walk` counts the links between two nodes. `Trail` follows one pointer per
node to a leaf. `Journey` follows a token through a run of a transition
system: a node hands it on to a far end, and other steps may come before the
next node does; `Journey.bounded` is the rule for it. The rule needs a bound
on the forwardings left that steps do not raise and each forwarding lowers.
-/

namespace Lib

/-- What is at the far end of a wire. -/
inductive Far (R P H : Type*)
  | node (r : R) (p : P)
  | leaf (h : H)
  deriving DecidableEq

/-- A wiring: the far end of each port, and the port of each leaf. -/
structure Wiring (R P H : Type*) where
  far : R → P → Option (Far R P H)
  attach : H → R × P
  symm : ∀ {r p r' p'}, far r p = some (.node r' p') → far r' p' = some (.node r p)
  leaf : ∀ {r p h}, far r p = some (.leaf h) ↔ attach h = (r, p)

namespace Wiring

variable {R P H : Type*} {W : Wiring R P H} {r r' s : R} {p p' : P} {h : H} {k : ℕ}

theorem far_attach (W : Wiring R P H) (h : H) :
    W.far (W.attach h).1 (W.attach h).2 = some (.leaf h) :=
  W.leaf.mpr rfl

/-- `Walk s r k`: `k` links lead from `s` to `r`. -/
inductive Walk (W : Wiring R P H) (s : R) : R → ℕ → Prop
  | nil : Walk W s s 0
  | snoc {r r' : R} {p p' : P} {k : ℕ} :
      Walk W s r k → W.far r p = some (.node r' p') → Walk W s r' (k + 1)

/-! ## Trails -/

/-- `Trail crumb r l h`: following the ports `crumb` from `r` visits the nodes
`l`, no one twice, and ends at the leaf `h`. -/
inductive Trail (W : Wiring R P H) (crumb : R → Option P) : R → List R → H → Prop
  | last {r : R} {p : P} {h : H} :
      crumb r = some p → W.far r p = some (.leaf h) → Trail W crumb r [r] h
  | hop {r r' : R} {p p' : P} {l : List R} {h : H} :
      crumb r = some p → W.far r p = some (.node r' p') → Trail W crumb r' l h → r ∉ l →
        Trail W crumb r (r :: l) h

namespace Trail

variable {crumb crumb' : R → Option P} {l : List R}

/-- A trail visits distinct nodes. -/
theorem nodup (ht : W.Trail crumb r l h) : l.Nodup := by
  induction ht with
  | last => exact List.nodup_singleton _
  | hop _ _ _ hnot ih => exact List.nodup_cons.mpr ⟨hnot, ih⟩

/-- Every node of a trail has a pointer. -/
theorem isSome (ht : W.Trail crumb r l h) : ∀ x ∈ l, (crumb x).isSome := by
  induction ht with
  | last hc =>
    intro x hx
    rw [List.mem_singleton] at hx
    rw [hx, hc]
    rfl
  | hop hc _ _ _ ih =>
    intro x hx
    rcases List.mem_cons.mp hx with hx | hx
    · rw [hx, hc]
      rfl
    · exact ih x hx

/-- A trail depends on the pointers of its own nodes only. -/
theorem congr (hcrumb : ∀ x ∈ l, crumb' x = crumb x) (ht : W.Trail crumb r l h) :
    W.Trail crumb' r l h := by
  induction ht with
  | last hc hfar => exact .last ((hcrumb _ (List.mem_singleton_self _)).trans hc) hfar
  | hop hc hfar _ hnot ih =>
    refine .hop ((hcrumb _ (List.mem_cons_self ..)).trans hc) hfar ?_ hnot
    exact ih fun x hx => hcrumb x (List.mem_cons_of_mem _ hx)

/-- The pointer of every node of a trail leads somewhere. -/
theorem exists_far (ht : W.Trail crumb r l h) {x : R} (hx : x ∈ l) :
    ∃ p e, crumb x = some p ∧ W.far x p = some e := by
  induction ht with
  | last hc hfar =>
    obtain rfl := List.mem_singleton.mp hx
    exact ⟨_, _, hc, hfar⟩
  | hop hc hfar _ _ ih =>
    rcases List.mem_cons.mp hx with rfl | hx
    · exact ⟨_, _, hc, hfar⟩
    · exact ih hx

/-- Adding pointers where there were none keeps every trail. -/
theorem mono (hmono : ∀ x p, crumb x = some p → crumb' x = some p)
    (ht : W.Trail crumb r l h) : W.Trail crumb' r l h := by
  induction ht with
  | last hc hfar => exact .last (hmono _ _ hc) hfar
  | hop hc hfar _ hnot ih => exact .hop (hmono _ _ hc) hfar ih hnot

/-- A node without a pointer may point to any node that has a trail. -/
theorem extend (hmono : ∀ x p, crumb x = some p → crumb' x = some p) (hr : crumb r = none)
    (hr' : crumb' r = some p) (hfar : W.far r p = some (.node r' p'))
    (ht : W.Trail crumb r' l h) : W.Trail crumb' r (r :: l) h := by
  refine .hop hr' hfar (ht.mono hmono) fun hmem => ?_
  have := ht.isSome r hmem
  rw [hr] at this
  cases this

/-- The first step of a trail. -/
theorem uncons (ht : W.Trail crumb r l h) :
    ∃ p, crumb r = some p ∧
      ((l.length = 1 ∧ W.far r p = some (.leaf h)) ∨
        ∃ r' p' l', W.far r p = some (.node r' p') ∧ l.length = l'.length + 1 ∧
          W.Trail crumb r' l' h) := by
  cases ht with
  | last hc hfar => exact ⟨_, hc, Or.inl ⟨rfl, hfar⟩⟩
  | hop hc hfar ht' _ => exact ⟨_, hc, Or.inr ⟨_, _, _, hfar, rfl, ht'⟩⟩

/-- Its last node points to the leaf. -/
theorem exists_last (ht : W.Trail crumb r l h) :
    ∃ x p, crumb x = some p ∧ W.far x p = some (.leaf h) := by
  induction ht with
  | @last r p h hc hfar => exact ⟨r, p, hc, hfar⟩
  | hop _ _ _ _ ih => exact ih

theorem length_pos (ht : W.Trail crumb r l h) : 1 ≤ l.length := by
  cases ht <;> simp

/-- A pointer to a node leaves the rest of the trail. -/
theorem to_node (ht : W.Trail crumb r l h) (hc : crumb r = some p)
    (hfar : W.far r p = some (.node r' p')) :
    ∃ l', l.length = l'.length + 1 ∧ W.Trail crumb r' l' h := by
  obtain ⟨q, hq, hnext⟩ := ht.uncons
  rw [hc] at hq
  cases hq
  rcases hnext with ⟨-, hfar'⟩ | ⟨r'', p'', l', hfar', hlen, ht'⟩
  · rw [hfar] at hfar'
    cases hfar'
  · rw [hfar] at hfar'
    cases hfar'
    exact ⟨l', hlen, ht'⟩

/-- A pointer to a leaf ends the trail there. -/
theorem to_leaf {h' : H} (ht : W.Trail crumb r l h) (hc : crumb r = some p)
    (hfar : W.far r p = some (.leaf h')) : h' = h := by
  obtain ⟨q, hq, hnext⟩ := ht.uncons
  rw [hc] at hq
  cases hq
  rcases hnext with ⟨-, hfar'⟩ | ⟨r'', p'', l', hfar', -, -⟩
  · rw [hfar] at hfar'
    cases hfar'
    rfl
  · rw [hfar] at hfar'
    cases hfar'

/-- The first node of a trail has a pointer. -/
theorem head_isSome (ht : W.Trail crumb r l h) : (crumb r).isSome := by
  obtain ⟨p, hp, -⟩ := ht.uncons
  rw [hp]
  rfl

end Trail

/-! ## How long a trail is -/

section TrailLength

variable {crumb crumb' : R → Option P} {l : List R}

/-- The number of nodes of the trail from `r`. -/
noncomputable def trailLength (W : Wiring R P H) (crumb : R → Option P) (r : R) : ℕ :=
  sInf {n | ∃ l h, W.Trail crumb r l h ∧ l.length = n}

theorem trailLength_le (ht : W.Trail crumb r l h) : W.trailLength crumb r ≤ l.length :=
  Nat.sInf_le ⟨l, h, ht, rfl⟩

theorem exists_trailLength (ht : W.Trail crumb r l h) :
    ∃ l h, W.Trail crumb r l h ∧ l.length = W.trailLength crumb r :=
  Nat.sInf_mem (s := {n | ∃ l h, W.Trail crumb r l h ∧ l.length = n}) ⟨_, l, h, ht, rfl⟩

theorem trailLength_pos (ht : W.Trail crumb r l h) : 1 ≤ W.trailLength crumb r := by
  obtain ⟨l', h', ht', hlen⟩ := exists_trailLength ht
  rw [← hlen]
  exact ht'.length_pos

/-- A trail visits each node at most once. -/
theorem trailLength_le_card [Finite R] (ht : W.Trail crumb r l h) :
    W.trailLength crumb r ≤ Nat.card R :=
  (trailLength_le ht).trans ht.nodup.length_le_natCard

/-- Adding pointers where there were none makes no trail longer. -/
theorem trailLength_mono (hmono : ∀ x p, crumb x = some p → crumb' x = some p)
    (ht : W.Trail crumb r l h) : W.trailLength crumb' r ≤ W.trailLength crumb r := by
  obtain ⟨l', h', ht', hlen⟩ := exists_trailLength ht
  rw [← hlen]
  exact trailLength_le (ht'.mono hmono)

/-- One step along the pointers is one node less. -/
theorem trailLength_lt (ht : W.Trail crumb r l h) (hc : crumb r = some p)
    (hfar : W.far r p = some (.node r' p')) : W.trailLength crumb r' < W.trailLength crumb r := by
  obtain ⟨l', h', ht', hlen⟩ := exists_trailLength ht
  obtain ⟨l'', hlen', ht''⟩ := ht'.to_node hc hfar
  have := trailLength_le ht''
  omega

end TrailLength

end Wiring

/-! ## Journeys -/

section Journey

variable {R P H σ α : Type*} (M : Lts σ α) (forwards : σ → R → Far R P H → Prop)

/-- `Journey s r k s' e`: a token at `r` in state `s` has been handed on `k`
times, the last time in state `s'` and to the far end `e`. -/
inductive Journey (s : σ) (r : R) : ℕ → σ → Far R P H → Prop
  | send {e : Far R P H} : forwards s r e → Journey s r 1 s e
  | relay {k : ℕ} {s' s'' : σ} {r' : R} {p' : P} {e : Far R P H} :
      Journey s r k s' (.node r' p') → M.Leads s' s'' → forwards s'' r' e →
        Journey s r (k + 1) s'' e

variable {M forwards}

/-- The rule for journeys. `Bound s r n` says that at most `n + 1` forwardings
are left from `r`; steps keep it, a forwarding to a node uses one up, and a
forwarding to a leaf is allowed by `E`. -/
theorem Journey.bounded {Bound : σ → R → ℕ → Prop} {E : σ → H → Prop}
    (hstep : ∀ s s' r n, M.Reachable s → M.Leads s s' → Bound s r n → Bound s' r n)
    (hnode : ∀ s r n r' p', M.Reachable s → Bound s r n → forwards s r (.node r' p') →
      ∃ m, m + 1 ≤ n ∧ Bound s r' m)
    (hleaf : ∀ s r n h, M.Reachable s → Bound s r n → forwards s r (.leaf h) → E s h)
    {s s' : σ} {r : R} {k n : ℕ} {e : Far R P H} (hs : M.Reachable s) (hb : Bound s r n)
    (hj : Journey M forwards s r k s' e) :
    M.Reachable s' ∧ k ≤ n + 1 ∧
      match e with
      | .node r' _ => ∃ m, m + k ≤ n ∧ Bound s' r' m
      | .leaf h => E s' h := by
  induction hj with
  | @send e hf =>
    cases e with
    | node r' p' =>
      obtain ⟨m, hm, hb'⟩ := hnode _ _ _ _ _ hs hb hf
      exact ⟨hs, by omega, m, hm, hb'⟩
    | leaf h => exact ⟨hs, by omega, hleaf _ _ _ _ hs hb hf⟩
  | @relay k s' s'' r' p' e _ hlead hf ih =>
    obtain ⟨hs', -, m, hm, hbm⟩ := ih
    have hs'' := hs'.leads hlead
    have hbm'' := hstep _ _ _ _ hs' hlead hbm
    cases e with
    | node r'' p'' =>
      obtain ⟨m', hm', hb'⟩ := hnode _ _ _ _ _ hs'' hbm'' hf
      exact ⟨hs'', by omega, m', by omega, hb'⟩
    | leaf h => exact ⟨hs'', by omega, hleaf _ _ _ _ hs'' hbm'' hf⟩

end Journey

end Lib
