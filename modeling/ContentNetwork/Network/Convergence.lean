import ContentNetwork.Network.AnnouncementFlood

/-!
# Announcements converge to shortest paths

From empty tables, once no announcement of `c` is on its way to a router,
every router that is connected to an announcing host's router holds one
record for `c`; its hop count is the number of links to the nearest such
router, and its interface leads there (`converges`).

The order of deliveries does not matter, nor do announcements of other
contents, requests and responses that are handled in between.
-/

namespace ContentNetwork.Network

open Lib Simplified

variable {R H : Type*} [DecidableEq R] {T : Topology R H} {s : State R H}

/-- No announcement of content `c` is on its way to a router. -/
def Quiet (c : UInt8) (s : State R H) : Prop :=
  ∀ x ∈ s.inFlight, floodMsg c x = none

/-- The records for content `c`. -/
def recordsFor (c : UInt8) (t : Tables) : List RTrecord :=
  t.RoutingTable.filter fun r : RTrecord => r.cID = (c.toNat : Int)

/-- Router `r` has exactly one record for `c`. Its hop count is the least
number of links from a router with a host that has announced `c`, and its
interface leads to such a host, at hop count 0, or to a router whose only
record has one hop less. -/
def HoldsShortestRoute (T : Topology R H) (s : State R H) (c : UInt8) (r : R) : Prop :=
  ∃ (record : RTrecord) (n : ℕ),
    recordsFor c (s.tables r) = [record] ∧
    record.num_hops = n ∧
    IsLeast {k | ∃ h, (h, c) ∈ s.announced ∧ T.Walk (T.attach h).1 r k} n ∧
    ((n = 0 ∧ ∃ h, (h, c) ∈ s.announced ∧ T.far r record.interface = some (.leaf h)) ∨
      ∃ r' i' record', T.far r record.interface = some (.node r' i') ∧
        recordsFor c (s.tables r') = [record'] ∧ record'.num_hops + 1 = n)

/-- From empty tables, the flood of every content keeps its invariant. -/
theorem reachable_floodInv [Finite R] (hcard : Nat.card R ≤ 255)
    (h : T.emptyNetwork.Reachable s) (c : UInt8) :
    UniqueTables s.tables ∧ Flood.FloodInv T.toWiring (floodState c s) := by
  obtain ⟨hu, hflood⟩ := reachable_floods hcard uniqueTables_empty h
  exact ⟨hu, Flood.reachable_floodInv (hflood c)⟩

omit [DecidableEq R] in
/-- A router's route is that of its only record for the content. -/
theorem record_of_route {c : UInt8} {r : R} {b i : Int} (hu : UniqueTables s.tables)
    (h : (floodState c s).best r = some (b, i)) :
    ∃ record, recordsFor c (s.tables r) = [record] ∧
      record.num_hops = b ∧ record.interface = i := by
  obtain ⟨record, hlookup, hroute⟩ := Option.map_eq_some_iff.mp h
  obtain ⟨hb, hi⟩ := Prod.mk.inj hroute
  exact ⟨record, Keyed.filter_of_lookup (hu r) hlookup, hb, hi⟩

/-- **Shortest-path convergence.** -/
theorem converges [Finite R] (hcard : Nat.card R ≤ 255) (h : T.emptyNetwork.Reachable s)
    {c : UInt8} (hquiet : Quiet c s) {x : H} (hx : (x, c) ∈ s.announced) {r : R} {k : ℕ}
    (hwalk : T.Walk (T.attach x).1 r k) : HoldsShortestRoute T s c r := by
  obtain ⟨hu, hinv⟩ := reachable_floodInv hcard h c
  have hzero : (floodState c s).flight = 0 := bag_eq_zero hquiet
  obtain ⟨n, i, hbest, hleast, hnext⟩ := hinv.converged hzero hx hwalk
  obtain ⟨record, hrecord, hhops, rfl⟩ := record_of_route hu hbest
  refine ⟨record, n, hrecord, hhops, hleast, ?_⟩
  rcases hnext with ⟨hn, y, hy, hfar⟩ | ⟨r', i', q, n', hfar, hbest', hn'⟩
  · exact Or.inl ⟨hn, y, hy, hfar⟩
  · obtain ⟨record', hrecord', hhops', -⟩ := record_of_route hu hbest'
    refine Or.inr ⟨r', i', record', hfar, hrecord', ?_⟩
    rw [hhops']
    omega

/-- A host of `line` announces content 7, and both routers handle what reaches
them; what is left is on its way to the other host. -/
def lineFlood : List (Event Bool) :=
  [.announce false 7, .deliver 0, .deliver 0]

theorem converges_line :
    ∃ ms s, line.emptyNetwork.Run ms s ∧ s.inFlight.length = 1 ∧
      HoldsShortestRoute line s 7 true := by
  have htrace : Lts.trace line.step ⟨fun _ => .empty, [], []⟩ lineFlood = some (_, _) := rfl
  have hrun := Lts.run_of_trace htrace
  have hfar : line.far (line.attach false).1 0 = some (.node true 0) := rfl
  have hwalk : line.Walk (line.attach false).1 true (0 + 1) := .snoc .nil hfar
  refine ⟨_, _, hrun, rfl, converges (by simp) hrun.reachable ?_ (List.mem_cons_self ..) hwalk⟩
  intro x hx
  obtain rfl := List.mem_singleton.mp hx
  rfl

end ContentNetwork.Network
