import ContentNetwork.Network.Convergence

/-!
# Routes are free of loops at every moment

In every state that is reachable from empty tables, settled or not, the
interface of a record for `c` leads to a router whose record for `c` has fewer
hops, or to a host that has announced `c` (`routes_loopFree`).

So a request for `c` reaches such a host. It does so along the records as they
are in one state (the `Trail`), and also when the tables change on the way:
a `Journey` of the request is any alternation of routers forwarding it and
steps of the network. Every router it comes to can forward it, and it is
forwarded at most `num_hops + 1` times.
-/

namespace ContentNetwork.Network

open Lib Simplified

variable {R H : Type*} {T : Topology R H} {s s' : State R H} {c : UInt8} {r : R}

/-- Router `r` forwards requests for content `c`, from whatever host, to `e`. -/
def Forwards (T : Topology R H) (c : UInt8) (s : State R H) (r : R) (e : Far R Int H) : Prop :=
  ∀ hostID, T.SendsOn (octets .REQUEST c hostID) s r e

/-- A router with a record forwards to the far end of its interface. -/
theorem forwards_of_route {b i : Int} {e : Far R Int H}
    (hbest : (floodState c s).best r = some (b, i)) (hfar : T.far r i = some e) :
    Forwards T c s r e := by
  intro hostID i'
  obtain ⟨record, hlookup, hroute⟩ := Option.map_eq_some_iff.mp hbest
  obtain ⟨-, rfl⟩ := Prod.mk.inj hroute
  obtain ⟨h0, h1⟩ := T.in_range hfar
  obtain ⟨t, ht⟩ := @handlePacket_forward (T.num_interfaces r) (s.tables r)
    ⟨octets .REQUEST c hostID, i'⟩ (ofOctet_octets ..) record hlookup h0 h1
  exact ⟨t, _, ht, Topology.send_singleton hfar⟩

/-- A router that forwards has a record, and does so through its interface. -/
theorem route_of_forwards {e : Far R Int H} (hf : Forwards T c s r e) :
    ∃ b i, (floodState c s).best r = some (b, i) ∧ T.far r i = some e := by
  obtain ⟨t, sent, i, ht, hmem, hfar⟩ := (hf 0).exists_sent
  have hroute := ((handlePacket_request (ofOctet_octets ..) ht).2.2 _ hmem).2
  obtain ⟨record, hlookup, rfl⟩ := Option.map_eq_some_iff.mp hroute
  exact ⟨record.num_hops, record.interface, congrArg (Option.map RTrecord.route) hlookup, hfar⟩

/-- What a record for content `c` at router `r` promises in state `s`. -/
structure LeadsToSource [DecidableEq R] (T : Topology R H) (s : State R H) (c : UInt8) (r : R)
    (record : RTrecord) : Prop where
  /-- The next router has a record with fewer hops. -/
  closer : ∀ r' i', T.far r record.interface = some (.node r' i') →
    ∃ record' ∈ (s.tables r').RoutingTable,
      record'.cID = c.toNat ∧ record'.num_hops < record.num_hops
  /-- The interfaces lead to a host that has announced `c`. -/
  trail : ∃ l h, T.Trail (fun v => (routeOf c (s.tables v)).map Prod.snd) r l h ∧
    (h, c) ∈ s.announced ∧ (l.length : ℤ) ≤ record.num_hops + 1
  /-- The router forwards a request. -/
  forwards : ∃ e, Forwards T c s r e
  /-- A request is forwarded at most `num_hops + 1` times; every router it comes
  to forwards it, whenever it does; a host it comes to has announced `c`. -/
  journey : ∀ {k : ℕ} {s' : State R H} {e : Far R Int H},
    Journey T.emptyNetwork (Forwards T c) s r k s' e →
      (k : ℤ) ≤ record.num_hops + 1 ∧
        match e with
        | .node r' _ => ∀ s'', T.emptyNetwork.Leads s' s'' → ∃ e', Forwards T c s'' r' e'
        | .leaf h => (h, c) ∈ s'.announced

variable [DecidableEq R] [Finite R]

/-- Values of the flood only go down along a run. -/
theorem leads_bestLt (hcard : Nat.card R ≤ 255) {k : ℤ} (h : T.emptyNetwork.Reachable s)
    (hl : T.emptyNetwork.Leads s s') (hlt : Flood.BestLt (floodState c s) r k) :
    Flood.BestLt (floodState c s') r k := by
  induction hl with
  | refl => exact hlt
  | step hl hs ih =>
    obtain ⟨hu, hflood⟩ := reachable_floods hcard uniqueTables_empty (h.leads hl)
    rcases step_floods hcard hu (hflood c) (Topology.step_cases hs) with heq | ⟨a, ha⟩
    · rw [heq]
      exact ih
    · exact ih.step ha

/-- A router with a value forwards, to a router with a smaller value or to a
host that has announced the content. -/
theorem exists_forwards (hcard : Nat.card R ≤ 255) {k : ℤ} (h : T.emptyNetwork.Reachable s)
    (hlt : Flood.BestLt (floodState c s) r k) : ∃ e, Forwards T c s r e := by
  obtain ⟨b, i, hbest, -⟩ := hlt
  rcases (reachable_floodInv hcard h c).2.value r b i hbest with ⟨-, x, -, hatt⟩ | ⟨r', i', hfar, -⟩
  · exact ⟨_, forwards_of_route hbest (T.leaf.mpr hatt)⟩
  · exact ⟨_, forwards_of_route hbest hfar⟩

/-- **Every record leads to a source, at every moment.** -/
theorem routes_loopFree (hcard : Nat.card R ≤ 255) (h : T.emptyNetwork.Reachable s)
    {record : RTrecord} (hmem : record ∈ (s.tables r).RoutingTable)
    (hc : record.cID = c.toNat) : LeadsToSource T s c r record := by
  obtain ⟨hu, hinv⟩ := reachable_floodInv hcard h c
  have hbest : (floodState c s).best r = some (record.num_hops, record.interface) := by
    show routeOf c (s.tables r) = _
    unfold routeOf
    rw [← hc, Keyed.lookup_of_mem (hu r) hmem]
    rfl
  obtain ⟨n, hn⟩ := Int.eq_ofNat_of_zero_le (hinv.nat r _ _ hbest)
  have hlt : Flood.BestLt (floodState c s) r (n + 1) := ⟨_, _, hbest, by omega⟩
  refine ⟨?_, ?_, exists_forwards hcard h hlt, ?_⟩
  · intro r' i' hfar
    obtain ⟨b, i, hb, hlt'⟩ := hinv.loop_free hbest hfar
    obtain ⟨record', hlookup, hroute⟩ := Option.map_eq_some_iff.mp hb
    obtain ⟨rfl, -⟩ := Prod.mk.inj hroute
    exact ⟨record', Keyed.lookup_mem hlookup, Keyed.lookup_key hlookup, hlt'⟩
  · rw [hn] at hbest ⊢
    obtain ⟨l, x, hx, htrail, hlen, -⟩ := hinv.exists_trail n r _ hbest
    exact ⟨l, x, htrail, hx, by omega⟩
  · intro k s' e hj
    -- at most as many forwardings are left as the router has hops
    have hbounded := @Journey.bounded R Int H _ _ T.emptyNetwork (Forwards T c)
      (fun s r n => Flood.BestLt (floodState c s) r (n + 1)) (fun s x => (x, c) ∈ s.announced)
      ?_ ?_ ?_ s s' r k n e h hlt hj
    · obtain ⟨hs', hk, hend⟩ := hbounded
      refine ⟨by omega, ?_⟩
      cases e with
      | node r' i' =>
        obtain ⟨m, -, hm⟩ := hend
        intro s'' hl
        exact exists_forwards hcard (hs'.leads hl) (leads_bestLt hcard hs' hl hm)
      | leaf x => exact hend
    · intro s s' r n hs hl hb
      exact leads_bestLt hcard hs hl hb
    · intro s r n r' i' hs hb hf
      obtain ⟨b, i, hbest, hlt⟩ := hb
      obtain ⟨b', i'', hbest', hfar⟩ := route_of_forwards hf
      rw [hbest] at hbest'
      cases hbest'
      obtain ⟨-, hinv⟩ := reachable_floodInv hcard hs c
      obtain ⟨b', i', hb', hlt'⟩ := hinv.loop_free hbest hfar
      have := hinv.nat r' b' i' hb'
      exact ⟨n - 1, by omega, b', i', hb', by omega⟩
    · intro s r n x hs hb hf
      obtain ⟨b, i, hbest, hfar⟩ := route_of_forwards hf
      exact (reachable_floodInv hcard hs c).2.leaf_source hbest hfar

/-- The other router of `line` knows content 7 one link away. -/
theorem routes_loopFree_line :
    ∃ ms s, line.emptyNetwork.Run ms s ∧ LeadsToSource line s 7 true ⟨7, 0, 1, 25⟩ := by
  have htrace : Lts.trace line.step ⟨fun _ => .empty, [], []⟩ lineFlood = some (_, _) := rfl
  have hrun := Lts.run_of_trace htrace
  exact ⟨_, _, hrun, routes_loopFree (by simp) hrun.reachable (List.mem_cons_self ..) rfl⟩

end ContentNetwork.Network
