import ContentNetwork.Lib.Bag
import ContentNetwork.Lib.Flood
import ContentNetwork.Network.Topology

/-!
# The announcements of one content are a flood

For a content ID `c`, a network state is read as a state of the flood of hop
counts (`floodState`): a router's value is hop count and interface of its
record for `c`, the messages are the announcements of `c` on their way to a
router, and the sources are the hosts that have announced `c`. Every event of
the network is then one event of the flood or none (`step_floods`), so what
holds of every flood holds of every run of the network (`reachable_floods`).

Two things are on the way. The table of a router is searched from the front
and rewritten by erase and push; that is a map from content IDs to routes as
long as no content ID occurs twice (`UniqueTables`). And the hop count is an
octet: it is `hops + 1` and not modulo 256 because an adopting router is in a
network of at most 255.
-/

namespace ContentNetwork.Network

open Lib Simplified

variable {R H : Type*}

/-- An announcement of content `c` on its way to a router. -/
def floodMsg (c : UInt8) (x : Envelope R H) : Option (Flood.Msg R Int) :=
  match x.dest with
  | .node r i =>
    if PacketTypes.ofOctet x.packet.packetType = some .ANNOUNCEMENT ∧ x.packet.contentID = c then
      some ⟨r, i, x.packet.hostIDOrHops.toNat⟩
    else none
  | .leaf _ => none

/-- Hop count and interface of the first record for content `c`. -/
def routeOf (c : UInt8) (t : Tables) : Option (Int × Int) :=
  (Keyed.lookup RTrecord.cID c.toNat t.RoutingTable).map RTrecord.route

/-- A network state as a state of the flood of content `c`. -/
def floodState (c : UInt8) (s : State R H) : Flood.State R Int H :=
  { best := fun r => routeOf c (s.tables r)
    flight := bag (floodMsg c) s.inFlight
    sources := {h | (h, c) ∈ s.announced} }

/-- No routing table holds two records of one content. -/
def UniqueTables (tables : R → Tables) : Prop :=
  ∀ r, Keyed.Unique RTrecord.cID (tables r).RoutingTable

theorem uniqueTables_empty : UniqueTables fun _ : R => Tables.empty :=
  fun _ => List.nodup_nil

/-! ## Packets in flight -/

section Flight

variable {c : UInt8} {x : Envelope R H}

theorem floodMsg_of_type (h : PacketTypes.ofOctet x.packet.packetType ≠ some .ANNOUNCEMENT) :
    floodMsg c x = none := by
  unfold floodMsg
  split
  · rw [if_neg fun hx => h hx.1]
  · rfl

theorem floodMsg_of_content (h : x.packet.contentID ≠ c) : floodMsg c x = none := by
  unfold floodMsg
  split
  · rw [if_neg fun hx => h hx.2]
  · rfl

theorem floodMsg_eq_some {m : Flood.Msg R Int} :
    floodMsg c x = some m ↔
      PacketTypes.ofOctet x.packet.packetType = some .ANNOUNCEMENT ∧ x.packet.contentID = c ∧
        x.dest = .node m.node m.port ∧ x.packet.hostIDOrHops.toNat = m.hops := by
  obtain ⟨dest, packet⟩ := x
  obtain ⟨r, i, k⟩ := m
  unfold floodMsg
  cases dest with
  | node r' i' =>
    dsimp only
    split
    next h => simp [h]; tauto
    next h => simp; tauto
  | leaf => simp

end Flight

/-! ## One router -/

section Router

variable {T : Topology R H} {c : UInt8} {n : Nat} {t t' : Tables} {r : R} {i : Int}
  {packet : HeaderOctets} {sent : List Sent}

theorem contentID_ne {c' : UInt8} (h : packet.contentID ≠ c') :
    packet.ContentID ≠ (c'.toNat : Int) := by
  intro he
  unfold HeaderOctets.ContentID at he
  exact h (UInt8.toNat_inj.mp (by omega))

/-- Any packet but an announcement leaves the routing table. -/
theorem handlePacket_routing_of_type
    (ht : PacketTypes.ofOctet packet.packetType ≠ some .ANNOUNCEMENT)
    (h : handlePacket n t ⟨packet, i⟩ = some (t', sent)) :
    t'.RoutingTable = t.RoutingTable ∧ ∀ x ∈ sent, x.2 = packet := by
  cases htype : PacketTypes.ofOctet packet.packetType with
  | none =>
    obtain ⟨rfl, rfl⟩ := handlePacket_default htype h
    exact ⟨rfl, fun x hx => absurd hx List.not_mem_nil⟩
  | some type =>
    cases type with
    | REQUEST =>
      obtain ⟨hR, -, hsent⟩ := handlePacket_request htype h
      exact ⟨hR, fun x hx => (hsent x hx).1⟩
    | RESPONSE =>
      obtain ⟨rfl, hsent⟩ := handlePacket_response htype h
      exact ⟨rfl, fun x hx => (hsent x hx).1⟩
    | ANNOUNCEMENT => exact absurd htype ht

/-- Handling a packet keeps the content IDs of a routing table unique. -/
theorem handlePacket_unique (hu : Keyed.Unique RTrecord.cID t.RoutingTable)
    (h : handlePacket n t ⟨packet, i⟩ = some (t', sent)) :
    Keyed.Unique RTrecord.cID t'.RoutingTable := by
  by_cases ht : PacketTypes.ofOctet packet.packetType = some .ANNOUNCEMENT
  · exact (handlePacket_announcement hu ht h).2.1
  · rw [(handlePacket_routing_of_type ht h).1]
    exact hu

/-- A packet that is no announcement of `c` changes no route of `c`, and what
is sent is no announcement of `c` either. -/
theorem handlePacket_other (hu : Keyed.Unique RTrecord.cID t.RoutingTable)
    (hne : ¬(PacketTypes.ofOctet packet.packetType = some .ANNOUNCEMENT ∧ packet.contentID = c))
    (h : handlePacket n t ⟨packet, i⟩ = some (t', sent)) :
    routeOf c t' = routeOf c t ∧ bag (floodMsg c) (T.send r sent) = 0 := by
  by_cases ht : PacketTypes.ofOctet packet.packetType = some .ANNOUNCEMENT
  · have hc : packet.contentID ≠ c := fun hc => hne ⟨ht, hc⟩
    refine ⟨?_, bag_eq_zero fun x hx => ?_⟩
    · unfold routeOf
      rw [(handlePacket_announcement hu ht h).2.2.2 _ (contentID_ne hc)]
    · obtain ⟨j, hmem, -⟩ := Topology.mem_send hx
      have hx2 : x.packet = packet.nextHop := handlePacket_announcement_sent ht h _ hmem
      exact floodMsg_of_content (hx2 ▸ hc)
  · obtain ⟨hR, hsent⟩ := handlePacket_routing_of_type ht h
    refine ⟨?_, bag_eq_zero fun x hx => ?_⟩
    · unfold routeOf
      rw [hR]
    · obtain ⟨j, hmem, -⟩ := Topology.mem_send hx
      have hx2 : x.packet = packet := hsent _ hmem
      exact floodMsg_of_type (hx2 ▸ ht)

/-- The hop octet of an announcement that is sent on, below 255. -/
theorem nextHop_toNat (h : packet.hostIDOrHops.toNat < 255) :
    packet.nextHop.hostIDOrHops.toNat = packet.hostIDOrHops.toNat + 1 := by
  have h0 : 0 ≤ packet.hostOrHops + 1 := by
    show 0 ≤ (packet.hostIDOrHops.toNat : Int) + 1
    omega
  have h1 : packet.hostOrHops + 1 ≤ 255 := by
    show (packet.hostIDOrHops.toNat : Int) + 1 ≤ 255
    omega
  have hval : (packet.nextHop.hostIDOrHops.toNat : Int) = packet.hostIDOrHops.toNat + 1 :=
    toNat_ofInt h0 h1
  omega

/-- The announcements a router sends when it adopts: one more hop, to every
router behind another interface. -/
theorem mem_bag_broadcast (ht : PacketTypes.ofOctet packet.packetType = some .ANNOUNCEMENT)
    (hc : packet.contentID = c) (hhops : packet.hostIDOrHops.toNat < 255) {m : Flood.Msg R Int} :
    m ∈ bag (floodMsg c) (T.send r (broadcast (T.num_interfaces r) i packet.nextHop)) ↔
      m.hops = packet.hostIDOrHops.toNat + 1 ∧
        ∃ j, j ≠ i ∧ T.far r j = some (.node m.node m.port) := by
  rw [mem_bag]
  constructor
  · intro h
    obtain ⟨x, hx, hm⟩ := h
    obtain ⟨-, -, hdest, hk⟩ := floodMsg_eq_some.mp hm
    obtain ⟨j, hmem, hfar⟩ := Topology.mem_send hx
    obtain ⟨-, -, hne, hp⟩ := mem_broadcast.mp hmem
    have hp : x.packet = packet.nextHop := hp
    refine ⟨?_, j, hne, hdest ▸ hfar⟩
    rw [← hk, hp, nextHop_toNat hhops]
  · intro h
    obtain ⟨hk, j, hne, hfar⟩ := h
    obtain ⟨h0, h1⟩ := T.in_range hfar
    refine ⟨⟨.node m.node m.port, packet.nextHop⟩, ?_, ?_⟩
    · refine List.mem_filterMap.mpr ⟨(j, packet.nextHop), mem_broadcast.mpr ⟨h0, h1, hne, rfl⟩, ?_⟩
      rw [hfar]
      rfl
    · refine floodMsg_eq_some.mpr ⟨ht, hc, rfl, ?_⟩
      rw [hk, nextHop_toNat hhops]

end Router

/-! ## The network -/

section Network

variable [DecidableEq R] {T : Topology R H} {s s' : State R H} {e : Event H}

theorem step_unique (hu : UniqueTables s.tables) (h : T.Step s e s') : UniqueTables s'.tables := by
  cases h with
  | announce => exact hu
  | request => exact hu
  | @handle before after r i packet t sent hsplit hh =>
    intro r'
    show Keyed.Unique _ (Function.update s.tables r t r').RoutingTable
    by_cases hr : r' = r
    · rw [hr, Function.update_self]
      exact handlePacket_unique (hu r) hh
    · rw [Function.update_of_ne hr]
      exact hu r'
  | throws => exact hu
  | hostReceive => exact hu

/-- The routes after one router's tables have changed. -/
theorem routeOf_update (c : UInt8) (tables : R → Tables) (r : R) (t : Tables) :
    (fun r' => routeOf c (Function.update tables r t r'))
      = Function.update (fun r' => routeOf c (tables r')) r (routeOf c t) := by
  exact Function.comp_update (routeOf c) tables r t

section Handle

variable {c : UInt8} {before after : List (Envelope R H)} {r : R}
  {i : Int} {packet : HeaderOctets} {t : Tables} {sent : List Sent}

omit [DecidableEq R] in
/-- A router that has handled an announcement of `c` has the announced route. -/
theorem routeOf_handled (hu : UniqueTables s.tables)
    (hh : handlePacket (T.num_interfaces r) (s.tables r) ⟨packet, i⟩ = some (t, sent))
    (ht : PacketTypes.ofOctet packet.packetType = some .ANNOUNCEMENT)
    (hc : packet.contentID = c) :
    routeOf c t = some (announcedRecord (s.tables r) ⟨packet, i⟩).route := by
  have hlookup := (handlePacket_announcement (hu r) ht hh).2.2.1
  unfold routeOf
  rw [← hc]
  exact congrArg _ hlookup

omit [DecidableEq R] in
/-- The announcement in flight, as a message of the flood. -/
theorem flight_handled (hsplit : s.inFlight = before ++ ⟨.node r i, packet⟩ :: after)
    (ht : PacketTypes.ofOctet packet.packetType = some .ANNOUNCEMENT)
    (hc : packet.contentID = c) :
    (floodState c s).flight
      = ⟨r, i, packet.hostIDOrHops.toNat⟩ ::ₘ bag (floodMsg c) (before ++ after) := by
  have hmsg : floodMsg c (⟨.node r i, packet⟩ : Envelope R H)
      = some ⟨r, i, packet.hostIDOrHops.toNat⟩ := floodMsg_eq_some.mpr ⟨ht, hc, rfl, rfl⟩
  show bag (floodMsg c) s.inFlight = _
  rw [hsplit, bag_split_some hmsg]

/-- An announcement that is adopted: the new value is the message's, and the
message is sent on. -/
theorem adopt_floods [Finite R] (hcard : Nat.card R ≤ 255) (hu : UniqueTables s.tables)
    (hroom : Flood.Room (floodState c s))
    (hsplit : s.inFlight = before ++ ⟨.node r i, packet⟩ :: after)
    (hh : handlePacket (T.num_interfaces r) (s.tables r) ⟨packet, i⟩ = some (t, sent))
    (ht : PacketTypes.ofOctet packet.packetType = some .ANNOUNCEMENT)
    (hc : packet.contentID = c) (ha : Adopts (s.tables r) ⟨packet, i⟩) :
    Flood.Step T.toWiring (floodState c s) (.deliver ⟨r, i, packet.hostIDOrHops.toNat⟩)
      (floodState c { s with
        tables := Function.update s.tables r t
        inFlight := before ++ after ++ T.send r sent }) := by
  have hflight := flight_handled hsplit ht hc
  have hroute := routeOf_handled hu hh ht hc
  obtain ⟨hroute', hsent⟩ := handlePacket_adopt ht hh ha
  have hle : ∀ b p, (floodState c s).best r = some (b, p) →
      ((packet.hostIDOrHops.toNat : ℕ) : ℤ) ≤ b := by
    intro b p hb
    obtain ⟨rec₀, hrec, hroute₀⟩ := Option.map_eq_some_iff.mp hb
    rw [← hc] at hrec
    have := ha rec₀ hrec
    obtain ⟨rfl, -⟩ := Prod.mk.inj hroute₀
    exact this
  have hmem :
      (⟨r, i, packet.hostIDOrHops.toNat⟩ : Flood.Msg R Int) ∈ (floodState c s).flight := by
    rw [hflight]
    exact Multiset.mem_cons_self ..
  have hlt : packet.hostIDOrHops.toNat < Nat.card R := hroom.lt_card hmem hle
  have hnew := @mem_bag_broadcast R H T c r i packet ht hc (by omega)
  have hpost : floodState c { s with
        tables := Function.update s.tables r t
        inFlight := before ++ after ++ T.send r sent }
      = { floodState c s with
        best := Function.update (floodState c s).best r
          (some ((packet.hostIDOrHops.toNat : ℤ), i))
        flight := bag (floodMsg c) (before ++ after) + bag (floodMsg c) (T.send r sent) } := by
    unfold floodState
    rw [routeOf_update, hroute, hroute', bag_append]
    rfl
  rw [hpost, hsent]
  exact .adopt hflight hle fun x => hnew

/-- An announcement that is ignored: a smaller value is known. -/
theorem ignore_floods (hu : UniqueTables s.tables)
    (hsplit : s.inFlight = before ++ ⟨.node r i, packet⟩ :: after)
    (hh : handlePacket (T.num_interfaces r) (s.tables r) ⟨packet, i⟩ = some (t, sent))
    (ht : PacketTypes.ofOctet packet.packetType = some .ANNOUNCEMENT)
    (hc : packet.contentID = c) (ha : ¬Adopts (s.tables r) ⟨packet, i⟩) :
    Flood.Step T.toWiring (floodState c s) (.deliver ⟨r, i, packet.hostIDOrHops.toNat⟩)
      (floodState c { s with
        tables := Function.update s.tables r t
        inFlight := before ++ after ++ T.send r sent }) := by
  have hroute := routeOf_handled hu hh ht hc
  obtain ⟨r₀, hr₀, hlt⟩ := not_adopts ha
  obtain ⟨hroute', hsent⟩ := handlePacket_ignore ht hh hr₀ hlt
  have hbest : (floodState c s).best r = some (r₀.num_hops, r₀.interface) := by
    show (Keyed.lookup RTrecord.cID (c.toNat : Int) (s.tables r).RoutingTable).map _ = _
    rw [← hc]
    exact congrArg _ hr₀
  have hpost : floodState c { s with
        tables := Function.update s.tables r t
        inFlight := before ++ after ++ T.send r sent }
      = { floodState c s with flight := bag (floodMsg c) (before ++ after) } := by
    unfold floodState
    rw [routeOf_update, hroute, hroute', hsent, bag_append]
    refine Flood.State.ext ?_ ?_ rfl
    · exact Function.update_eq_self_iff.mpr hbest.symm
    · show bag (floodMsg c) (before ++ after) + bag (floodMsg c) [] = _
      exact add_zero _
  rw [hpost]
  exact .ignore (flight_handled hsplit ht hc) hbest hlt

/-- A router that handles an announcement of `c` makes one step of the flood. -/
theorem handle_floods [Finite R] (hcard : Nat.card R ≤ 255) (hu : UniqueTables s.tables)
    (hroom : Flood.Room (floodState c s))
    (hsplit : s.inFlight = before ++ ⟨.node r i, packet⟩ :: after)
    (hh : handlePacket (T.num_interfaces r) (s.tables r) ⟨packet, i⟩ = some (t, sent))
    (ht : PacketTypes.ofOctet packet.packetType = some .ANNOUNCEMENT)
    (hc : packet.contentID = c) :
    Flood.Step T.toWiring (floodState c s) (.deliver ⟨r, i, packet.hostIDOrHops.toNat⟩)
      (floodState c { s with
        tables := Function.update s.tables r t
        inFlight := before ++ after ++ T.send r sent }) := by
  by_cases ha : Adopts (s.tables r) ⟨packet, i⟩
  · exact adopt_floods hcard hu hroom hsplit hh ht hc ha
  · exact ignore_floods hu hsplit hh ht hc ha

end Handle

/-- An announcement by a host is a source of the flood of its content. -/
theorem announce_floods (c : UInt8) (x : H) :
    Flood.Step T.toWiring (floodState c s) (.originate x)
      (floodState c { s with
        inFlight := s.inFlight ++ [T.fromHost x (octets .ANNOUNCEMENT c 0)]
        announced := (x, c) :: s.announced }) := by
  have hmsg : floodMsg c (T.fromHost x (octets .ANNOUNCEMENT c 0))
      = some ⟨(T.attach x).1, (T.attach x).2, 0⟩ :=
    floodMsg_eq_some.mpr ⟨ofOctet_octets .., rfl, rfl, rfl⟩
  have hpost : floodState c { s with
        inFlight := s.inFlight ++ [T.fromHost x (octets .ANNOUNCEMENT c 0)]
        announced := (x, c) :: s.announced }
      = { floodState c s with
        flight := ⟨(T.attach x).1, (T.attach x).2, 0⟩ ::ₘ (floodState c s).flight
        sources := insert x (floodState c s).sources } := by
    refine Flood.State.ext rfl ?_ ?_
    · show bag (floodMsg c) (s.inFlight ++ [_]) = _
      rw [bag_push_some hmsg]
      rfl
    · show {h | (h, c) ∈ (x, c) :: s.announced} = _
      ext h
      simp [floodState]
  rw [hpost]
  exact .originate x

omit [DecidableEq R] in
/-- It is nothing to the floods of other contents. -/
theorem announce_floods_ne {c c' : UInt8} (hc : c' ≠ c) (x : H) :
    floodState c { s with
        inFlight := s.inFlight ++ [T.fromHost x (octets .ANNOUNCEMENT c' 0)]
        announced := (x, c') :: s.announced }
      = floodState c s := by
  refine Flood.State.ext rfl ?_ ?_
  · show bag (floodMsg c) (s.inFlight ++ [_]) = _
    rw [bag_push_none (floodMsg_of_content hc)]
    rfl
  · show {h | (h, c) ∈ (x, c') :: s.announced} = _
    ext h
    simp [floodState, Ne.symm hc]

/-- With room for every hop count in flight, an event of the network is one
step of the flood or none; an announcement of the content is its source. -/
theorem step_floods_of_room [Finite R] (hcard : Nat.card R ≤ 255) {c : UInt8}
    (hu : UniqueTables s.tables) (hroom : Flood.Room (floodState c s)) (h : T.Step s e s') :
    (floodState c s' = floodState c s ∧ ∀ x, e ≠ .announce x c) ∨
      ∃ a, Flood.Step T.toWiring (floodState c s) a (floodState c s') ∧
        ∀ x, e = .announce x c → a = .originate x := by
  cases h with
  | announce x c' =>
    by_cases hc : c' = c
    · subst hc
      refine Or.inr ⟨_, announce_floods c' x, fun y hy => ?_⟩
      cases hy
      rfl
    · refine Or.inl ⟨announce_floods_ne hc x, fun y hy => hc ?_⟩
      cases hy
      rfl
  | request x c' =>
    refine Or.inl ⟨Flood.State.ext rfl ?_ rfl, fun _ hy => by cases hy⟩
    have hmsg : floodMsg c (T.fromHost x (octets .REQUEST c' (T.hostID x))) = none := by
      exact floodMsg_of_type (octets_type_ne (by decide))
    show bag (floodMsg c) (s.inFlight ++ [_]) = _
    rw [bag_push_none hmsg]
    rfl
  | @handle before after r i packet t sent hsplit hh =>
    by_cases hann :
        PacketTypes.ofOctet packet.packetType = some .ANNOUNCEMENT ∧ packet.contentID = c
    · exact Or.inr ⟨_, handle_floods hcard hu hroom hsplit hh hann.1 hann.2,
        fun _ hy => by cases hy⟩
    · refine Or.inl ⟨Flood.State.ext ?_ ?_ rfl, fun _ hy => by cases hy⟩
      · obtain ⟨hroute, -⟩ := @handlePacket_other R H T c _ _ _ r _ _ _ (hu r) hann hh
        show (fun r' => routeOf c (Function.update s.tables r t r')) = _
        rw [routeOf_update, hroute]
        exact Function.update_eq_self _ _
      · obtain ⟨-, hzero⟩ := @handlePacket_other R H T c _ _ _ r _ _ _ (hu r) hann hh
        have hmsg : floodMsg c (⟨.node r i, packet⟩ : Envelope R H) = none := by
          unfold floodMsg
          exact if_neg hann
        show bag (floodMsg c) (before ++ after ++ T.send r sent) = bag (floodMsg c) s.inFlight
        rw [bag_append, hzero, add_zero, hsplit, bag_split_none hmsg]
  | @throws before after r i packet hsplit hh =>
    refine Or.inl ⟨Flood.State.ext rfl ?_ rfl, fun _ hy => by cases hy⟩
    have hmsg : floodMsg c (⟨.node r i, packet⟩ : Envelope R H) = none :=
      floodMsg_of_type (handlePacket_eq_none hh)
    show bag (floodMsg c) (before ++ after) = bag (floodMsg c) s.inFlight
    rw [hsplit, bag_split_none hmsg]
  | @hostReceive before after x packet hasFile hsplit =>
    refine Or.inl ⟨Flood.State.ext rfl ?_ rfl, fun _ hy => by cases hy⟩
    have hzero : bag (floodMsg c) (T.hostReply x hasFile packet) = 0 := by
      refine bag_eq_zero fun y hy => ?_
      obtain ⟨-, rfl⟩ := Topology.mem_hostReply hy
      exact floodMsg_of_type (octets_type_ne (by decide))
    show bag (floodMsg c) (before ++ after ++ T.hostReply x hasFile packet)
      = bag (floodMsg c) s.inFlight
    rw [bag_append, hzero, add_zero, hsplit, bag_split_none rfl]

/-- **Every event of the network is one step of the flood, or none.** -/
theorem step_floods [Finite R] (hcard : Nat.card R ≤ 255) {c : UInt8}
    {best : R → Option (ℤ × Int)} (hu : UniqueTables s.tables)
    (hflood : (Flood.flood T.toWiring best).Reachable (floodState c s)) (h : T.Step s e s') :
    floodState c s' = floodState c s ∨
      ∃ a, Flood.Step T.toWiring (floodState c s) a (floodState c s') := by
  rcases step_floods_of_room hcard hu (Flood.reachable_room hflood) h with ⟨heq, -⟩ | ⟨a, ha, -⟩
  · exact Or.inl heq
  · exact Or.inr ⟨a, ha⟩

/-- Every run of the network is a run of the flood. -/
theorem reachable_floods [Finite R] (hcard : Nat.card R ≤ 255) {tables : R → Tables}
    (hu : UniqueTables tables) (h : (T.network tables).Reachable s) :
    UniqueTables s.tables ∧ ∀ c,
      (Flood.flood T.toWiring fun r => routeOf c (tables r)).Reachable (floodState c s) := by
  induction h with
  | init hs =>
    rw [hs]
    refine ⟨hu, fun c => .init (Flood.State.ext rfl rfl ?_)⟩
    ext h
    exact ⟨fun hmem => absurd hmem List.not_mem_nil, fun hmem => absurd hmem (Set.notMem_empty h)⟩
  | step _ hs ih =>
    obtain ⟨hus, hflood⟩ := ih
    have hstep := Topology.step_cases hs
    refine ⟨step_unique hus hstep, fun c => ?_⟩
    rcases step_floods hcard hus (hflood c) hstep with heq | ⟨a, ha⟩
    · rw [heq]
      exact hflood c
    · exact .step (hflood c) ha

end Network

end ContentNetwork.Network
