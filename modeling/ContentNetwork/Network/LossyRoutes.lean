import ContentNetwork.Lib.FaultyFlood
import ContentNetwork.Network.Faulty
import ContentNetwork.Network.LoopFree

/-!
# Routes over unreliable links

The announcements of one content are a flood over links that lose and
duplicate (`faultyStep_floods`). Two things survive that. At every moment the
records lead to a host that has announced the content (`lossy_loopFree`),
whatever has been lost: a request that is not lost itself arrives there. And
what has been lost is repaired by announcing again: once every announcer of `c`
has done so, and none of the packets since was lost, the routes to `c` are
shortest paths whatever the state was before (`reannounced_converges`).
-/

namespace ContentNetwork.Network

open Lib Simplified

variable {R H : Type*} [DecidableEq R] {T : Topology R H} {s s' t : State R H} {c : UInt8} {r : R}
  {e : FaultyEvent R H}

/-! ## Faults are faults of the flood -/

variable (T) in
/-- A packet is taken out of the network: a message of the flood is lost, or
nothing is. -/
theorem lose_floods {before after : List (Envelope R H)} {x : Envelope R H}
    (hsplit : s.inFlight = before ++ x :: after) :
    floodState c { s with inFlight := before ++ after } = floodState c s ∨
      ∃ m, Flood.FaultyStep T.toWiring (floodState c s) (.lose m)
        (floodState c { s with inFlight := before ++ after }) := by
  cases hx : floodMsg c x with
  | none =>
    refine Or.inl (Flood.State.ext rfl ?_ rfl)
    show bag (floodMsg c) (before ++ after) = bag (floodMsg c) s.inFlight
    rw [hsplit, bag_split_none hx]
  | some m =>
    refine Or.inr ⟨m, .lose ?_⟩
    show bag (floodMsg c) s.inFlight = _
    rw [hsplit, bag_split_some hx]

variable (T) in
theorem duplicate_floods {x : Envelope R H} (hx : x ∈ s.inFlight) :
    floodState c { s with inFlight := s.inFlight ++ [x] } = floodState c s ∨
      ∃ m, Flood.FaultyStep T.toWiring (floodState c s) (.duplicate m)
        (floodState c { s with inFlight := s.inFlight ++ [x] }) := by
  cases hm : floodMsg c x with
  | none =>
    refine Or.inl (Flood.State.ext rfl ?_ rfl)
    exact bag_push_none hm
  | some m =>
    have hpost : floodState c { s with inFlight := s.inFlight ++ [x] }
        = { floodState c s with flight := m ::ₘ (floodState c s).flight } :=
      Flood.State.ext rfl (bag_push_some hm) rfl
    rw [hpost]
    exact Or.inr ⟨m, .duplicate (mem_bag.mpr ⟨x, hx, hm⟩)⟩

/-- The events that send a packet of the flood, or that may lose one, are the
same in the flood. -/
def SameEvent (c : UInt8) (e : FaultyEvent R H) (a : Flood.FaultyEvent R Int H) : Prop :=
  (∀ x, e = .event (.announce x c) → a = .flood (.originate x)) ∧
    ∀ m, a = .lose m → ∃ k, e = .lose k

/-- **An event of the lossy network is an event of the flood over lossy links,
or none.** -/
theorem faultyStep_floods [Finite R] (hcard : Nat.card R ≤ 255) (hu : UniqueTables s.tables)
    (hroom : Flood.Room (floodState c s)) (h : T.FaultyStep s e s') :
    (floodState c s' = floodState c s ∧ ∀ x, e ≠ .event (.announce x c)) ∨
      ∃ a, Flood.FaultyStep T.toWiring (floodState c s) a (floodState c s') ∧
        SameEvent c e a := by
  cases h with
  | @event e _ h =>
    rcases step_floods_of_room hcard hu hroom h with ⟨heq, hnot⟩ | ⟨a, ha, hsame⟩
    · exact Or.inl ⟨heq, fun x hx => hnot x (FaultyEvent.event.inj hx)⟩
    · refine Or.inr ⟨.flood a, .flood ha, fun x hx => ?_, fun m hm => nomatch hm⟩
      rw [hsame x (FaultyEvent.event.inj hx)]
  | @lose before after x hsplit =>
    rcases lose_floods T hsplit with heq | ⟨m, hm⟩
    · exact Or.inl ⟨heq, fun _ hx => nomatch hx⟩
    · exact Or.inr ⟨_, hm, ⟨fun _ hx => (nomatch hx), fun _ _ => ⟨_, rfl⟩⟩⟩
  | @duplicate k x hx =>
    rcases duplicate_floods T hx with heq | ⟨m, hm⟩
    · exact Or.inl ⟨heq, fun _ hx => nomatch hx⟩
    · exact Or.inr ⟨_, hm, ⟨fun _ hx => (nomatch hx), fun _ hm => nomatch hm⟩⟩
  | @timerPending r l hl =>
    refine Or.inl ⟨Flood.State.ext ?_ rfl rfl, fun _ hx => nomatch hx⟩
    show (fun r' => routeOf c (Function.update s.tables r _ r')) = _
    rw [routeOf_update]
    exact Function.update_eq_self r _

/-- The invariant of the lossy network: the part of a flood's that no fault
touches. -/
structure LossyInv (T : Topology R H) (c : UInt8) (s : State R H) : Prop where
  unique : UniqueTables s.tables
  room : Flood.Room (floodState c s)
  sound : Flood.Sound T.toWiring (floodState c s)

section Invariant

variable [Finite R]

theorem step_lossyInv (hcard : Nat.card R ≤ 255) (hi : LossyInv T c s)
    (h : T.lossyNetwork.step s e s') : LossyInv T c s' := by
  have hstep := Topology.faultyStep_cases h
  refine ⟨faultyStep_unique hi.unique hstep, ?_, ?_⟩
  · rcases faultyStep_floods hcard hi.unique hi.room hstep with ⟨heq, -⟩ | ⟨a, ha, -⟩
    · rw [heq]
      exact hi.room
    · exact Flood.faultyStep_room hi.room ha
  · rcases faultyStep_floods hcard hi.unique hi.room hstep with ⟨heq, -⟩ | ⟨a, ha, -⟩
    · rw [heq]
      exact hi.sound
    · exact Flood.faultyStep_sound hi.sound ha

theorem reachable_lossyInv (hcard : Nat.card R ≤ 255) (h : T.lossyNetwork.Reachable s)
    (c : UInt8) : LossyInv T c s := by
  refine h.invariant ?_ ?_
  · intro s hs
    obtain rfl : s = _ := hs
    have hstart : floodState c (⟨fun _ => .empty, [], []⟩ : State R H)
        = ⟨fun _ => none, 0, ∅⟩ := Flood.State.ext rfl rfl (by ext; simp [floodState])
    refine ⟨uniqueTables_empty, ?_, ?_⟩
    · rw [hstart]
      exact fun m hm => absurd hm (Multiset.notMem_zero m)
    · rw [hstart]
      exact Flood.start_sound
  · intro s e s' hi hs
    exact step_lossyInv hcard hi hs

end Invariant

/-! ## Routes stay free of loops -/

/-- What a record for content `c` at router `r` is worth in state `s`, whatever
the links lose from then on. -/
structure LeadsThroughLoss (T : Topology R H) (s : State R H) (c : UInt8) (r : R)
    (record : RTrecord) : Prop where
  /-- The next router has a record with fewer hops. -/
  closer : ∀ r' i', T.far r record.interface = some (.node r' i') →
    ∃ record' ∈ (s.tables r').RoutingTable,
      record'.cID = c.toNat ∧ record'.num_hops < record.num_hops
  /-- The interfaces lead to a host that has announced `c`. -/
  trail : ∃ l h, T.Trail (fun v => (routeOf c (s.tables v)).map Prod.snd) r l h ∧
    (h, c) ∈ s.announced ∧ (l.length : ℤ) ≤ record.num_hops + 1
  /-- A request is forwarded at most `num_hops + 1` times; every router it comes
  to forwards it, whenever it does; a host it comes to has announced `c`. -/
  journey : ∀ {k : ℕ} {s' : State R H} {e : Far R Int H},
    Journey T.lossyNetwork (Forwards T c) s r k s' e →
      (k : ℤ) ≤ record.num_hops + 1 ∧
        match e with
        | .node r' _ => ∀ s'', T.lossyNetwork.Leads s' s'' → ∃ e', Forwards T c s'' r' e'
        | .leaf h => (h, c) ∈ s'.announced

section LoopFree

variable [Finite R]

theorem lossy_bestLt (hcard : Nat.card R ≤ 255) {k : ℤ} (h : T.lossyNetwork.Reachable s)
    (hl : T.lossyNetwork.Leads s s') (hlt : Flood.BestLt (floodState c s) r k) :
    Flood.BestLt (floodState c s') r k := by
  induction hl with
  | refl => exact hlt
  | step hl hs ih =>
    have hi := reachable_lossyInv hcard (h.leads hl) c
    have hstep := Topology.faultyStep_cases hs
    rcases faultyStep_floods hcard hi.unique hi.room hstep with ⟨heq, -⟩ | ⟨a, ha, -⟩
    · rw [heq]
      exact ih
    · exact ih.faultyStep ha

omit [DecidableEq R] [Finite R] in
/-- A router with a value forwards, to a router with a smaller value or to a
host that has announced the content. -/
theorem LossyInv.exists_forwards {k : ℤ} (hi : LossyInv T c s)
    (hlt : Flood.BestLt (floodState c s) r k) : ∃ e, Forwards T c s r e := by
  obtain ⟨b, i, hbest, -⟩ := hlt
  rcases hi.sound.value r b i hbest with ⟨-, x, -, hatt⟩ | ⟨r', i', hfar, -⟩
  · exact ⟨_, forwards_of_route hbest (T.leaf.mpr hatt)⟩
  · exact ⟨_, forwards_of_route hbest hfar⟩

omit [DecidableEq R] [Finite R] in
/-- A forwarding to a router uses up one of the hops that are left. -/
theorem LossyInv.forwards_node {n : ℕ} {r' : R} {i' : Int} (hi : LossyInv T c s)
    (hlt : Flood.BestLt (floodState c s) r (n + 1)) (hf : Forwards T c s r (.node r' i')) :
    ∃ m, m + 1 ≤ n ∧ Flood.BestLt (floodState c s) r' (m + 1) := by
  obtain ⟨b, i, hbest, hlt⟩ := hlt
  obtain ⟨b', i'', hbest', hfar⟩ := route_of_forwards hf
  rw [hbest] at hbest'
  cases hbest'
  obtain ⟨b', i', hb', hlt'⟩ := hi.sound.loop_free hbest hfar
  have := hi.sound.nat r' b' i' hb'
  exact ⟨n - 1, by omega, b', i', hb', by omega⟩

omit [DecidableEq R] [Finite R] in
theorem LossyInv.forwards_leaf {x : H} (hi : LossyInv T c s) (hf : Forwards T c s r (.leaf x)) :
    (x, c) ∈ s.announced := by
  obtain ⟨b, i, hbest, hfar⟩ := route_of_forwards hf
  exact hi.sound.leaf_source hbest hfar

/-- **Over unreliable links every record leads to a source, at every moment.** -/
theorem lossy_loopFree (hcard : Nat.card R ≤ 255) (h : T.lossyNetwork.Reachable s)
    {record : RTrecord} (hmem : record ∈ (s.tables r).RoutingTable)
    (hc : record.cID = c.toNat) : LeadsThroughLoss T s c r record := by
  have hi := reachable_lossyInv hcard h c
  have hbest : (floodState c s).best r = some (record.num_hops, record.interface) := by
    show routeOf c (s.tables r) = _
    unfold routeOf
    rw [← hc, Keyed.lookup_of_mem (hi.unique r) hmem]
    rfl
  obtain ⟨n, hn⟩ := Int.eq_ofNat_of_zero_le (hi.sound.nat r _ _ hbest)
  refine ⟨?_, ?_, ?_⟩
  · intro r' i' hfar
    obtain ⟨b, i, hb, hlt⟩ := hi.sound.loop_free hbest hfar
    obtain ⟨record', hlookup, hroute⟩ := Option.map_eq_some_iff.mp hb
    obtain ⟨rfl, -⟩ := Prod.mk.inj hroute
    exact ⟨record', Keyed.lookup_mem hlookup, Keyed.lookup_key hlookup, hlt⟩
  · rw [hn] at hbest ⊢
    obtain ⟨l, x, hx, htrail, hlen, -⟩ := hi.sound.exists_trail n r _ hbest
    exact ⟨l, x, htrail, hx, by omega⟩
  · intro k s' e hj
    -- at most as many forwardings are left as the router has hops
    have hlt : Flood.BestLt (floodState c s) r (n + 1) := ⟨_, _, hbest, by omega⟩
    obtain ⟨hs', hk, hend⟩ := @Journey.bounded R Int H _ _ T.lossyNetwork (Forwards T c)
      (fun s r n => Flood.BestLt (floodState c s) r (n + 1)) (fun s x => (x, c) ∈ s.announced)
      (fun _ _ _ _ hs hl hb => lossy_bestLt hcard hs hl hb)
      (fun _ _ _ _ _ hs hb hf => (reachable_lossyInv hcard hs c).forwards_node hb hf)
      (fun _ _ _ _ hs _ hf => (reachable_lossyInv hcard hs c).forwards_leaf hf)
      s s' r k n e h hlt hj
    refine ⟨by omega, ?_⟩
    cases e with
    | leaf x => exact hend
    | node r' i' =>
      obtain ⟨m, -, hm⟩ := hend
      intro s'' hl
      have hlt := lossy_bestLt hcard hs' hl hm
      exact (reachable_lossyInv hcard (hs'.leads hl) c).exists_forwards hlt

end LoopFree

/-- The announcement is delivered twice to the first router, and one of the two
packets the router sends on is lost. -/
def lossyLine : List (FaultyEvent Bool Bool) :=
  [.event (.announce false 7), .duplicate 0, .event (.deliver 0), .event (.deliver 0), .lose 0,
    .event (.deliver 0)]

theorem lossy_loopFree_line :
    ∃ ms s, line.lossyNetwork.Run ms s ∧ LeadsThroughLoss line s 7 true ⟨7, 0, 1, 25⟩ := by
  have htrace : Lts.trace line.faultyStep ⟨fun _ => .empty, [], []⟩ lossyLine = some (_, _) := rfl
  have hrun : line.lossyNetwork.Run _ _ := Lts.run_of_trace htrace
  exact ⟨_, _, hrun, lossy_loopFree (by simp) hrun.reachable (List.mem_cons_self ..) rfl⟩

/-! ## Announcing again -/

section Reannounce

variable [Finite R] {ms : List (Move (State R H) (FaultyEvent R H))}

/-- Along a run that loses nothing, what the announcements in it have restored
grows. -/
theorem run_restored (hcard : Nat.card R ≤ 255) (ht : T.lossyNetwork.Reachable t)
    (hrun : (T.lossyNetwork.resume t).Run ms s) (hloss : ∀ m ∈ ms, ∀ k, m.act ≠ .lose k)
    {A : Set H} (hA : (floodState c s).sources ⊆ A) :
    ∃ B S, Flood.Restored T.toWiring A (floodState c s) B S ∧ B ⊆ A ∧
      ∀ h, (∃ m ∈ ms, m.act = .event (.announce h c)) → h ∈ B := by
  induction hrun with
  | start => exact ⟨∅, ∅, Flood.restored_empty, Set.empty_subset A, by simp⟩
  | @snoc ms s s' e hrun hs ih =>
    have hi := reachable_lossyInv hcard (ht.resume hrun.reachable) c
    have hstep := Topology.faultyStep_cases hs
    have hlast : ∀ k, e ≠ .lose k := hloss _ List.mem_concat_self
    have hearlier := fun m hm => hloss m (List.mem_append_left _ hm)
    rcases faultyStep_floods hcard hi.unique hi.room hstep with ⟨heq, hnot⟩ | ⟨a, ha, hsame⟩
    · rw [heq] at hA ⊢
      obtain ⟨B, S, hrestored, hB, hsent⟩ := ih hearlier hA
      refine ⟨B, S, hrestored, hB, fun h hh => hsent h ?_⟩
      obtain ⟨m, hm, hact⟩ := hh
      rcases List.mem_append.mp hm with hm | hm
      · exact ⟨m, hm, hact⟩
      · obtain rfl := List.mem_singleton.mp hm
        exact absurd hact (hnot h)
    · obtain ⟨B, S, hrestored, hB, hsent⟩ := ih hearlier ((Flood.faultyStep_sources ha).trans hA)
      have hkept : ∀ m, a ≠ .lose m := by
        intro m hm
        obtain ⟨k, hk⟩ := hsame.2 m hm
        exact hlast k hk
      obtain ⟨S', hS'⟩ := hrestored.step hi.sound hA hB ha hkept
      refine ⟨_, S', hS', Flood.sentAfter_subset hA hB ha, fun h hh => ?_⟩
      obtain ⟨m, hm, hact⟩ := hh
      rcases List.mem_append.mp hm with hm | hm
      · exact Flood.subset_sentAfter a (hsent h ⟨m, hm, hact⟩)
      · obtain rfl := List.mem_singleton.mp hm
        rw [hsame.1 h hact]
        exact Set.mem_insert ..

/-- **Announcing again restores shortest paths.** From whatever state the
faults have left, once every host that has announced `c` has announced it
again, none of the packets since has been lost, and no announcement of `c` is
on its way. -/
theorem reannounced_converges (hcard : Nat.card R ≤ 255) (ht : T.lossyNetwork.Reachable t)
    (hrun : (T.lossyNetwork.resume t).Run ms s) (hloss : ∀ m ∈ ms, ∀ k, m.act ≠ .lose k)
    (hagain : ∀ h, (h, c) ∈ s.announced → ∃ m ∈ ms, m.act = .event (.announce h c))
    (hquiet : Quiet c s) {x : H} (hx : (x, c) ∈ s.announced) {k : ℕ}
    (hwalk : T.Walk (T.attach x).1 r k) : HoldsShortestRoute T s c r := by
  have hi := reachable_lossyInv hcard (ht.resume hrun.reachable) c
  have hzero : (floodState c s).flight = 0 := bag_eq_zero hquiet
  obtain ⟨B, S, hrestored, hB, hsent⟩ := run_restored hcard ht hrun hloss subset_rfl
  obtain rfl : B = (floodState c s).sources :=
    hB.antisymm fun h hh => hsent h (hagain h hh)
  obtain ⟨n, i, hbest, hleast, hnext⟩ := hi.sound.converged
    (fun _ hh _ _ hwalk => hrestored.bestLt_of_walk hzero hh hwalk) hx hwalk
  obtain ⟨record, hrecord, hhops, rfl⟩ := record_of_route hi.unique hbest
  refine ⟨record, n, hrecord, hhops, hleast, ?_⟩
  rcases hnext with ⟨hn, y, hy, hfar⟩ | ⟨r', i', q, n', hfar, hbest', hn'⟩
  · exact Or.inl ⟨hn, y, hy, hfar⟩
  · obtain ⟨record', hrecord', hhops', -⟩ := record_of_route hi.unique hbest'
    refine Or.inr ⟨r', i', record', hfar, hrecord', ?_⟩
    rw [hhops']
    omega

end Reannounce

/-- A host of `line` announces content 7 and the packet is lost. It announces
again, and both routers handle what reaches them. -/
theorem reannounced_line :
    ∃ ms t ms' s, line.lossyNetwork.Run ms t ∧ (line.lossyNetwork.resume t).Run ms' s ∧
      HoldsShortestRoute line s 7 true := by
  have hbefore : Lts.trace line.faultyStep ⟨fun _ => .empty, [], []⟩
      [.event (.announce false 7), .lose 0] = some (_, _) := rfl
  have hlost : line.lossyNetwork.Run _ _ := Lts.run_of_trace hbefore
  have hafter : Lts.trace line.faultyStep ⟨fun _ => .empty, [], [(false, 7)]⟩
      [.event (.announce false 7), .event (.deliver 0), .event (.deliver 0)] = some (_, _) := rfl
  have hrun : (line.lossyNetwork.resume _).Run _ _ := Lts.run_of_trace hafter
  have hfar : line.far (line.attach false).1 0 = some (.node true 0) := rfl
  have hwalk : line.Walk (line.attach false).1 true (0 + 1) := .snoc .nil hfar
  refine ⟨_, _, _, _, hlost, hrun, reannounced_converges (by simp) hlost.reachable hrun (by simp)
    ?_ ?_ (List.mem_cons_self ..) hwalk⟩
  · intro h hh
    have hh : (h, (7 : UInt8)) ∈ [(false, 7), (false, 7)] := hh
    obtain rfl : h = false := by simpa using hh
    exact ⟨_, List.mem_cons_self .., rfl⟩
  · intro x hx
    obtain rfl := List.mem_singleton.mp hx
    rfl

end ContentNetwork.Network
