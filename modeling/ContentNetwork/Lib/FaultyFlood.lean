import ContentNetwork.Lib.Flood

/-!
# Flooding over links that lose and duplicate

The links of a flood may now lose a message or deliver it twice (`FaultyStep`).
Neither touches a value, so what rests on values going down still holds: every
value has a reason (`faultyStep_sound`) and hop counts stay below the number of
nodes (`faultyStep_room`). What is lost is that neighbours are told.

It is won back by sending again. Fix the sources `A`, and the distances `Near`
to them. No value is ever below its node's distance, so a message that carries
the distance of its node is adopted whatever the node holds, and sent on. From
the state where the sources begin to send again, `Restored` collects the nodes
that have adopted such a message: each holds its distance and has passed it
on. When every source has sent again and nothing is in flight, these are all
nodes that are joined to a source (`Restored.bestLt_of_walk`).
-/

namespace Lib.Flood

open Wiring

inductive FaultyEvent (R P H : Type*)
  | flood (a : Event R P H)
  | lose (m : Msg R P)
  | duplicate (m : Msg R P)

variable {R P H : Type*} [DecidableEq R]

/-- One event of the flood, or a fault of a link. -/
inductive FaultyStep (W : Wiring R P H) (s : State R P H) :
    FaultyEvent R P H → State R P H → Prop
  | flood {a : Event R P H} {s' : State R P H} :
      Step W s a s' → FaultyStep W s (.flood a) s'
  | lose {m : Msg R P} {rest : Multiset (Msg R P)} :
      s.flight = m ::ₘ rest → FaultyStep W s (.lose m) { s with flight := rest }
  | duplicate {m : Msg R P} :
      m ∈ s.flight → FaultyStep W s (.duplicate m) { s with flight := m ::ₘ s.flight }

variable {W : Wiring R P H} {s s' : State R P H} {r : R}

/-! ## What faults keep -/

/-- What every message in flight satisfies, by itself and the values, is kept
by a fault. -/
theorem forall_flight_of_fault {Q : Msg R P → Prop} {a : FaultyEvent R P H}
    (ha : ∀ e, a ≠ .flood e) (h : FaultyStep W s a s') (hQ : ∀ m ∈ s.flight, Q m) :
    s'.best = s.best ∧ s'.sources = s.sources ∧ ∀ m ∈ s'.flight, Q m := by
  cases h with
  | flood => exact absurd rfl (ha _)
  | lose hflight =>
    exact ⟨rfl, rfl, fun x hx => hQ x (hflight ▸ Multiset.mem_cons_of_mem hx)⟩
  | duplicate hm =>
    refine ⟨rfl, rfl, fun x hx => ?_⟩
    rcases Multiset.mem_cons.mp hx with hx | hx
    · rw [hx]
      exact hQ _ hm
    · exact hQ x hx

theorem faultyStep_sound {a : FaultyEvent R P H} (hi : Sound W s) (h : FaultyStep W s a s') :
    Sound W s' := by
  by_cases ha : ∃ e, a = .flood e
  · obtain ⟨e, rfl⟩ := ha
    cases h with
    | flood h => exact step_sound hi h
  · obtain ⟨hbest, hsources, hflight⟩ :=
      forall_flight_of_fault (fun e he => ha ⟨e, he⟩) h hi.message
    obtain ⟨best, flight, sources⟩ := s'
    dsimp only at hbest hsources
    subst hbest hsources
    exact ⟨hi.nat, hflight, hi.value⟩

theorem faultyStep_room [Finite R] {a : FaultyEvent R P H} (hi : Room s)
    (h : FaultyStep W s a s') : Room s' := by
  by_cases ha : ∃ e, a = .flood e
  · obtain ⟨e, rfl⟩ := ha
    cases h with
    | flood h => exact step_room hi h
  · obtain ⟨hbest, -, hflight⟩ := forall_flight_of_fault (fun e he => ha ⟨e, he⟩) h hi
    intro m hm
    unfold BestLt
    rw [hbest]
    exact hflight m hm

theorem BestLt.faultyStep {a : FaultyEvent R P H} {k : ℤ} (h : FaultyStep W s a s')
    (hr : BestLt s r k) : BestLt s' r k := by
  cases h with
  | flood h => exact hr.step h
  | lose => exact hr
  | duplicate => exact hr

theorem faultyStep_sources {a : FaultyEvent R P H} (h : FaultyStep W s a s') :
    s.sources ⊆ s'.sources := by
  cases h with
  | flood h => exact step_sources h
  | lose => exact subset_rfl
  | duplicate => exact subset_rfl

/-! ## Sending again -/

section Restore

variable {A B : Set H} {S : Set R} {n k : ℕ}

/-- `n` links lead from the nearest source in `A` to node `r`. -/
def Near (W : Wiring R P H) (A : Set H) (r : R) (n : ℕ) : Prop :=
  IsLeast {k | ∃ h ∈ A, W.Walk (W.attach h).1 r k} n

omit [DecidableEq R] in
theorem near_source {h : H} (hh : h ∈ A) : Near W A (W.attach h).1 0 :=
  ⟨⟨h, hh, .nil⟩, fun _ _ => Nat.zero_le _⟩

omit [DecidableEq R] in
/-- A node that is not at a source has a neighbour that is one nearer. -/
theorem Near.pred (h : Near W A r (n + 1)) :
    ∃ r' q p, W.far r' q = some (.node r p) ∧ Near W A r' n := by
  obtain ⟨⟨x, hx, hwalk⟩, hleast⟩ := h
  cases hwalk with
  | @snoc r' _ q p _ hwalk hfar =>
    refine ⟨r', q, p, hfar, ⟨x, hx, hwalk⟩, fun j hj => ?_⟩
    obtain ⟨y, hy, hj⟩ := hj
    have := hleast ⟨y, hy, hj.snoc hfar⟩
    omega

omit [DecidableEq R] in
/-- No value is below the distance of its node. -/
theorem Near.not_bestLt (hi : Sound W s) (hA : s.sources ⊆ A) (h : Near W A r n) :
    ¬BestLt s r n := by
  intro hlt
  obtain ⟨b, p, hb, hlt⟩ := hlt
  obtain ⟨m, rfl⟩ := Int.eq_ofNat_of_zero_le (hi.nat r b p hb)
  obtain ⟨x, hx, k, hk, hwalk⟩ := hi.exists_walk m r p hb
  have := h.2 ⟨x, hA hx, hwalk⟩
  omega

/-- A message with the distance `n` of node `r` is on its way there. -/
def Brings (s : State R P H) (r : R) (n : ℕ) : Prop :=
  ∃ m ∈ s.flight, m.node = r ∧ m.hops = n

/-- The sources `B` have sent again; the nodes `S` hold their distance since
and have passed it on. -/
structure Restored (W : Wiring R P H) (A : Set H) (s : State R P H) (B : Set H) (S : Set R) :
    Prop where
  holds : ∀ r ∈ S, ∀ n, Near W A r n → BestLt s r (n + 1)
  passed : ∀ r ∈ S, ∀ n, Near W A r n → ∀ q r' q', W.far r q = some (.node r' q') →
    Near W A r' (n + 1) → r' ∈ S ∨ Brings s r' (n + 1)
  sent : ∀ h ∈ B, (W.attach h).1 ∈ S ∨ Brings s (W.attach h).1 0

omit [DecidableEq R] in
/-- Before any source has sent again. -/
theorem restored_empty : Restored W A s ∅ ∅ :=
  ⟨fun _ h => absurd h (Set.notMem_empty _), fun _ h => absurd h (Set.notMem_empty _),
    fun _ h => absurd h (Set.notMem_empty _)⟩

omit [DecidableEq R] in
/-- As long as values go down and messages that bring a distance stay, or their
node is added, everything stays restored. -/
theorem Restored.mono {S' : Set R} (hi : Restored W A s B S) (hS : S ⊆ S')
    (hbest : ∀ r k, BestLt s r k → BestLt s' r k)
    (hbrings : ∀ r n, Near W A r n → Brings s r n → r ∈ S' ∨ Brings s' r n)
    (hnew : ∀ r ∈ S', r ∉ S → ∀ n, Near W A r n → BestLt s' r (n + 1) ∧
      ∀ q r' q', W.far r q = some (.node r' q') → Near W A r' (n + 1) → Brings s' r' (n + 1))
    (hB : B ⊆ A) : Restored W A s' B S' := by
  refine ⟨?_, ?_, ?_⟩
  · intro r hr n hn
    by_cases hold : r ∈ S
    · exact hbest _ _ (hi.holds r hold n hn)
    · exact (hnew r hr hold n hn).1
  · intro r hr n hn q r' q' hfar hn'
    by_cases hold : r ∈ S
    · rcases hi.passed r hold n hn q r' q' hfar hn' with h | h
      · exact Or.inl (hS h)
      · exact hbrings r' (n + 1) hn' h
    · exact Or.inr ((hnew r hr hold n hn).2 q r' q' hfar hn')
  · intro h hh
    rcases hi.sent h hh with h' | h'
    · exact Or.inl (hS h')
    · exact hbrings _ 0 (near_source (hB hh)) h'

omit [DecidableEq R] in
/-- More messages in flight keep everything restored. -/
theorem Restored.more (hi : Restored W A s B S) (hB : B ⊆ A) (hbest : s'.best = s.best)
    (hflight : ∀ m ∈ s.flight, m ∈ s'.flight) : Restored W A s' B S := by
  refine hi.mono subset_rfl ?_ ?_ (fun r hr hnot => absurd hr hnot) hB
  · intro r k hr
    unfold BestLt
    rw [hbest]
    exact hr
  · intro r n _ hbrings
    obtain ⟨x, hx, hxr, hxn⟩ := hbrings
    exact Or.inr ⟨x, hflight x hx, hxr, hxn⟩

/-- The sources that have sent again after one more event. -/
def sentAfter (B : Set H) : FaultyEvent R P H → Set H
  | .flood (.originate h) => insert h B
  | _ => B

omit [DecidableEq R] in
theorem subset_sentAfter (a : FaultyEvent R P H) : B ⊆ sentAfter B a := by
  unfold sentAfter
  split
  · exact Set.subset_insert ..
  · exact subset_rfl

/-- A message that carries another hop count than the distance of its node is
of no account. -/
theorem Restored.deliver_far {m : Msg R P} (hi : Restored W A s B S) (hB : B ⊆ A)
    (h : Step W s (.deliver m) s') (hm : ¬Near W A m.node m.hops) : Restored W A s' B S := by
  refine hi.mono subset_rfl (fun r k hr => hr.step h) ?_ ?_ hB
  · intro r n hn hbrings
    obtain ⟨x, hx, hxr, hxn⟩ := hbrings
    have hne : x ≠ m := by
      rintro rfl
      exact hm (hxr ▸ hxn ▸ hn)
    refine Or.inr ⟨x, ?_, hxr, hxn⟩
    cases h with
    | adopt hflight =>
      rw [hflight] at hx
      exact Multiset.mem_add.mpr (Or.inl ((Multiset.mem_cons.mp hx).resolve_left hne))
    | ignore hflight =>
      rw [hflight] at hx
      exact (Multiset.mem_cons.mp hx).resolve_left hne
  · intro r hr hnot
    exact absurd hr hnot

/-- A message that carries the distance of its node restores the node. -/
theorem Restored.deliver_near {m : Msg R P} (hi : Restored W A s B S) (hsound : Sound W s)
    (hA : s.sources ⊆ A) (hB : B ⊆ A) (h : Step W s (.deliver m) s')
    (hm : Near W A m.node m.hops) : Restored W A s' B (insert m.node S) := by
  have hstep := h
  cases h with
  | ignore _ hb hlt => exact absurd ⟨_, _, hb, hlt⟩ (hm.not_bestLt hsound hA)
  | @adopt _ rest new hflight hle hnew =>
    refine hi.mono (Set.subset_insert _ _) (fun r k hr => hr.step hstep) ?_ ?_ hB
    · intro r n hn hbrings
      obtain ⟨x, hx, hxr, hxn⟩ := hbrings
      rw [hflight] at hx
      rcases Multiset.mem_cons.mp hx with rfl | hx
      · exact Or.inl (hxr ▸ Set.mem_insert ..)
      · exact Or.inr ⟨x, Multiset.mem_add.mpr (Or.inl hx), hxr, hxn⟩
    · intro r hr hnot n hn
      obtain rfl : r = m.node := (Set.mem_insert_iff.mp hr).resolve_right hnot
      obtain rfl : n = m.hops := hn.unique hm
      refine ⟨deliver_bestLt hstep, fun q r' q' hfar hn' => ?_⟩
      rcases adopt_neighbour hsound hflight hnew hfar with hlt | hmem
      · -- the neighbour the message came from is nearer, not farther
        exact absurd (hlt.mono (by push_cast; omega)) (hn'.not_bestLt hsound hA)
      · exact ⟨_, Multiset.mem_add.mpr (Or.inr hmem), rfl, rfl⟩

/-- A source that has sent again is a source. -/
theorem sentAfter_subset {a : FaultyEvent R P H} (hA : s'.sources ⊆ A) (hB : B ⊆ A)
    (h : FaultyStep W s a s') : sentAfter B a ⊆ A := by
  cases h with
  | lose => exact hB
  | duplicate => exact hB
  | flood h =>
    cases h with
    | originate x => exact Set.insert_subset (hA (Set.mem_insert _ _)) hB
    | adopt => exact hB
    | ignore => exact hB

/-- Every event but a loss keeps the nodes restored. -/
theorem Restored.step {a : FaultyEvent R P H} (hi : Restored W A s B S) (hsound : Sound W s)
    (hA : s'.sources ⊆ A) (hB : B ⊆ A) (h : FaultyStep W s a s') (ha : ∀ m, a ≠ .lose m) :
    ∃ S', Restored W A s' (sentAfter B a) S' := by
  have hA' : s.sources ⊆ A := (faultyStep_sources h).trans hA
  cases h with
  | lose => exact absurd rfl (ha _)
  | duplicate hm =>
    exact ⟨S, hi.more hB rfl fun m hm => Multiset.mem_cons_of_mem hm⟩
  | @flood a _ h =>
    cases a with
    | deliver m =>
      by_cases hm : Near W A m.node m.hops
      · exact ⟨_, hi.deliver_near hsound hA' hB h hm⟩
      · exact ⟨S, hi.deliver_far hB h hm⟩
    | originate x =>
      cases h with
      | originate =>
        obtain ⟨hholds, hpassed, hsent⟩ :=
          @Restored.more _ _ _ _ _ { s with
            flight := ⟨(W.attach x).1, (W.attach x).2, 0⟩ ::ₘ s.flight
            sources := insert x s.sources } _ _ _ hi hB rfl fun m hm => Multiset.mem_cons_of_mem hm
        refine ⟨S, hholds, hpassed, fun h hh => ?_⟩
        rcases Set.mem_insert_iff.mp hh with rfl | hh
        · exact Or.inr ⟨_, Multiset.mem_cons_self _ _, rfl, rfl⟩
        · exact hsent h hh

omit [DecidableEq R] in
/-- When all sources have sent again and nothing is in flight, every node that
is joined to a source is restored. -/
theorem Restored.mem_of_near (hi : Restored W A s A S) (hquiet : s.flight = 0) :
    ∀ n r, Near W A r n → r ∈ S := by
  have hnothing : ∀ {r : R} {n : ℕ}, ¬Brings s r n := by
    intro r n hbrings
    obtain ⟨m, hm, -⟩ := hbrings
    rw [hquiet] at hm
    exact absurd hm (Multiset.notMem_zero m)
  intro n
  induction n with
  | zero =>
    intro r hn
    obtain ⟨x, hx, hwalk⟩ := hn.1
    cases hwalk with
    | nil => exact (hi.sent x hx).resolve_right hnothing
  | succ n ih =>
    intro r hn
    obtain ⟨r', q, p, hfar, hn'⟩ := hn.pred
    exact (hi.passed r' (ih r' hn') n hn' q r p hfar hn).resolve_right hnothing

omit [DecidableEq R] in
/-- Then no walk from a source is shorter than the value at its end. -/
theorem Restored.bestLt_of_walk (hi : Restored W A s A S) (hquiet : s.flight = 0) {h : H}
    (hh : h ∈ A) (hwalk : W.Walk (W.attach h).1 r k) : BestLt s r (k + 1) := by
  classical
  have hex : ∃ j, ∃ x ∈ A, W.Walk (W.attach x).1 r j := ⟨k, h, hh, hwalk⟩
  have hnear : Near W A r (Nat.find hex) :=
    ⟨Nat.find_spec hex, fun j hj => Nat.find_min' hex hj⟩
  have hle : Nat.find hex ≤ k := Nat.find_min' hex ⟨h, hh, hwalk⟩
  refine (hi.holds r (hi.mem_of_near hquiet _ r hnear) _ hnear).mono ?_
  omega

end Restore

end Lib.Flood
