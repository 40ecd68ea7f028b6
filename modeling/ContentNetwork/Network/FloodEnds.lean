import ContentNetwork.Network.AnnouncementFlood

/-!
# Announcement floods end

Announcements with an equal hop count are adopted and sent on again, so the
tables do not improve with every step. What descends is the bag of
announcements in flight: a router takes one out and puts in any number with
one more hop, and hop counts stay below the number of routers. So in a run
with finitely many announcements by hosts, routers handle finitely many, from
any routing tables with at most one record for each content (`floods_end`).

With two records for one content that is lost, since the router searches the
table from the front and pushes what it adopts to the back: it compares each
announcement with another record. In `flood_never_ends` one announcement goes
round four routers for ever, its hop octet wrapping at 256.
-/

namespace ContentNetwork.Network

open Lib Simplified

variable {R H : Type*}

/-- A host announces a content. -/
def Announces (e : Event H) : Prop :=
  ∃ h c, e = .announce h c

/-- A router handles an announcement. -/
def HandlesAnnouncement (s : State R H) (e : Event H) : Prop :=
  ∃ k r i packet, e = .deliver k ∧ s.inFlight[k]? = some ⟨.node r i, packet⟩ ∧
    PacketTypes.ofOctet packet.packetType = some .ANNOUNCEMENT

/-- How far the hop count of an announcement on its way to a router is from
255. -/
def hopsLeft (x : Envelope R H) : Option ℕ :=
  match x.dest with
  | .node _ _ =>
    if PacketTypes.ofOctet x.packet.packetType = some .ANNOUNCEMENT then
      some (255 - x.packet.hostIDOrHops.toNat)
    else none
  | .leaf _ => none

theorem hopsLeft_of_type {x : Envelope R H}
    (h : PacketTypes.ofOctet x.packet.packetType ≠ some .ANNOUNCEMENT) : hopsLeft x = none := by
  unfold hopsLeft
  split
  · rw [if_neg h]
  · rfl

theorem hopsLeft_eq_some {x : Envelope R H} {k : ℕ} (h : hopsLeft x = some k) :
    k = 255 - x.packet.hostIDOrHops.toNat := by
  unfold hopsLeft at h
  split at h
  · split at h
    · exact (Option.some.inj h).symm
    · cases h
  · cases h

variable [DecidableEq R] {T : Topology R H} {s s' : State R H} {e : Event H}

/-- A router that handles an announcement takes it out and puts announcements
with more hops in. -/
theorem handle_descends [Finite R] (hcard : Nat.card R ≤ 255) {best : R → Option (ℤ × Int)}
    {before after : List (Envelope R H)} {r : R} {i : Int} {packet : HeaderOctets} {t : Tables}
    {sent : List Sent}
    (hflood : (Flood.flood T.toWiring best).Reachable (floodState packet.contentID s))
    (hsplit : s.inFlight = before ++ ⟨.node r i, packet⟩ :: after)
    (hh : handlePacket (T.num_interfaces r) (s.tables r) ⟨packet, i⟩ = some (t, sent))
    (ht : PacketTypes.ofOctet packet.packetType = some .ANNOUNCEMENT) :
    Multiset.IsDershowitzMannaLT (bag hopsLeft (before ++ after ++ T.send r sent))
      (bag hopsLeft s.inFlight) := by
  have hmsg : hopsLeft (⟨.node r i, packet⟩ : Envelope R H)
      = some (255 - packet.hostIDOrHops.toNat) := by
    unfold hopsLeft
    exact if_pos ht
  rw [hsplit, bag_split_some hmsg, bag_append]
  refine bag_lt fun k hk => ?_
  obtain ⟨x, hx, hkx⟩ := mem_bag.mp hk
  obtain ⟨j, hmem, -⟩ := Topology.mem_send hx
  have hpacket : x.packet = packet.nextHop := handlePacket_announcement_sent ht hh _ hmem
  -- something was sent, so the announcement was adopted and its hop count is small
  have hlt : packet.hostIDOrHops.toNat < Nat.card R := by
    have ha : Adopts (s.tables r) ⟨packet, i⟩ := by
      by_contra hna
      obtain ⟨r₀, hr₀, hlt⟩ := not_adopts hna
      rw [(handlePacket_ignore ht hh hr₀ hlt).2] at hmem
      exact absurd hmem List.not_mem_nil
    have hin : (⟨r, i, packet.hostIDOrHops.toNat⟩ : Flood.Msg R Int)
        ∈ (floodState packet.contentID s).flight := by
      exact mem_bag.mpr ⟨⟨.node r i, packet⟩, Topology.mem_split hsplit,
        floodMsg_eq_some.mpr ⟨ht, rfl, rfl, rfl⟩⟩
    refine Flood.hops_lt_card hflood hin fun b p hb => ?_
    obtain ⟨record, hlookup, hroute⟩ := Option.map_eq_some_iff.mp hb
    obtain ⟨rfl, -⟩ := Prod.mk.inj hroute
    exact ha record hlookup
  rw [hopsLeft_eq_some hkx, hpacket, nextHop_toNat (by omega)]
  omega

/-- An event in which a router handles an announcement descends. -/
theorem step_descends [Finite R] (hcard : Nat.card R ≤ 255) {best : UInt8 → R → Option (ℤ × Int)}
    (hflood : ∀ c, (Flood.flood T.toWiring (best c)).Reachable (floodState c s))
    (h : T.Step s e s') (hd : HandlesAnnouncement s e) :
    Multiset.IsDershowitzMannaLT (bag hopsLeft s'.inFlight) (bag hopsLeft s.inFlight) := by
  obtain ⟨k, r, i, packet, he, hk, ht⟩ := hd
  cases h with
  | announce => cases he
  | request => cases he
  | hostReceive => cases he
  | handle hsplit hh =>
    obtain rfl := Event.deliver.inj he
    rw [Topology.getElem?_of_split hsplit] at hk
    cases hk
    exact handle_descends hcard (hflood _) hsplit hh ht
  | throws hsplit hh =>
    obtain rfl := Event.deliver.inj he
    rw [Topology.getElem?_of_split hsplit] at hk
    cases hk
    exact absurd ht (handlePacket_eq_none hh)

/-- Any other event of a run, but a host's announcement, leaves the bag. -/
theorem step_stays (h : T.Step s e s') (hd : ¬HandlesAnnouncement s e) (ha : ¬Announces e) :
    bag hopsLeft s'.inFlight = bag hopsLeft s.inFlight := by
  cases h with
  | announce x c => exact absurd ⟨x, c, rfl⟩ ha
  | request x c =>
    exact bag_push_none (hopsLeft_of_type (octets_type_ne (by decide)))
  | @handle before after r i packet t sent hsplit hh =>
    have ht : PacketTypes.ofOctet packet.packetType ≠ some .ANNOUNCEMENT := by
      intro ht
      exact hd ⟨before.length, r, i, packet, rfl, Topology.getElem?_of_split hsplit, ht⟩
    have hzero : bag hopsLeft (T.send r sent) = 0 := by
      refine bag_eq_zero fun x hx => hopsLeft_of_type ?_
      obtain ⟨j, hmem, -⟩ := Topology.mem_send hx
      have hpacket : x.packet = packet := (handlePacket_routing_of_type ht hh).2 _ hmem
      rw [hpacket]
      exact ht
    have hmsg : hopsLeft (⟨.node r i, packet⟩ : Envelope R H) = none := hopsLeft_of_type ht
    show bag hopsLeft (before ++ after ++ T.send r sent) = _
    rw [bag_append, hzero, add_zero, hsplit, bag_split_none hmsg]
  | @throws before after r i packet hsplit hh =>
    have hmsg : hopsLeft (⟨.node r i, packet⟩ : Envelope R H) = none :=
      hopsLeft_of_type (handlePacket_eq_none hh)
    show bag hopsLeft (before ++ after) = _
    rw [hsplit, bag_split_none hmsg]
  | @hostReceive before after x packet hasFile hsplit =>
    have hzero : bag hopsLeft (T.hostReply x hasFile packet) = 0 := by
      refine bag_eq_zero fun y hy => ?_
      obtain ⟨-, rfl⟩ := Topology.mem_hostReply hy
      exact hopsLeft_of_type (octets_type_ne (by decide))
    show bag hopsLeft (before ++ after ++ T.hostReply x hasFile packet) = _
    rw [bag_append, hzero, add_zero, hsplit, bag_split_none rfl]

/-- **Floods end.** In an infinite run from routing tables with at most one
record for each content, in which hosts announce finitely often, routers
handle finitely many announcements. -/
theorem floods_end [Finite R] (hcard : Nat.card R ≤ 255) {tables : R → Tables}
    (hu : UniqueTables tables) {x : ℕ → State R H} {e : ℕ → Event H}
    (hrun : (T.network tables).Execution x e) (hfinite : {k | Announces (e k)}.Finite) :
    {k | HandlesAnnouncement (x k) (e k)}.Finite := by
  refine Lts.Execution.finite_of_wellFounded Multiset.wellFounded_isDershowitzMannaLT
    (fun s => bag hopsLeft s.inFlight) HandlesAnnouncement (fun _ e => Announces e) ?_ ?_ hrun
    hfinite
  · intro s e s' hs hstep hd
    obtain ⟨-, hflood⟩ := reachable_floods hcard hu hs
    exact step_descends hcard hflood (Topology.step_cases hstep) hd
  · intro s e s' hs hstep hd ha
    exact step_stays (Topology.step_cases hstep) hd ha

/-- The first packet in flight is delivered, and if there is none, host `false`
asks for content 7. -/
def serveFirst (s : State Bool Bool) : Event Bool :=
  match s.inFlight with
  | [] => .request false 7
  | ⟨.node _ _, _⟩ :: _ => .deliver 0
  | ⟨.leaf _, _⟩ :: _ => .hostReceive 0 true

theorem serveFirst_step (s : State Bool Bool) : ∃ s', line.step s (serveFirst s) = some s' := by
  obtain ⟨tables, inFlight, announced⟩ := s
  match inFlight with
  | [] => exact ⟨_, rfl⟩
  | ⟨.leaf _, _⟩ :: _ => exact ⟨_, rfl⟩
  | ⟨.node r i, packet⟩ :: rest =>
    unfold serveFirst Topology.step
    dsimp only [List.getElem?_cons_zero]
    split <;> exact ⟨_, rfl⟩

/-- Host `true` of `line` announces content 7, both routers learn of it, and host
`false` asks for it for ever. -/
theorem exists_lineExecution : ∃ x e, line.emptyNetwork.Execution x e ∧
    (∀ k, e (k + 1) = serveFirst (x (k + 1))) ∧ ∀ r, (routeOf 7 ((x 3).tables r)).isSome := by
  have hprog : ∀ s : State Bool Bool, True →
      ∃ e s', line.emptyNetwork.step s e s' ∧ e = serveFirst s ∧ True := by
    intro s _
    obtain ⟨s', hs'⟩ := serveFirst_step s
    exact ⟨_, s', hs', rfl, trivial⟩
  obtain ⟨x, e, hrun, h0, hnext⟩ := Lts.exists_execution hprog rfl
    (show line.emptyNetwork.step ⟨fun _ => .empty, [], []⟩ (.announce true 7) _ from rfl) trivial
  refine ⟨x, e, hrun, hnext, ?_⟩
  -- the first three steps
  have hfirst : line.step ⟨fun _ => .empty, [], []⟩ (.announce true 7) = some (x 1) := by
    rw [← h0, ← show x 0 = ⟨fun _ => .empty, [], []⟩ from hrun.init]
    exact hrun.step 0
  have hstep : ∀ k, line.step (x (k + 1)) (serveFirst (x (k + 1))) = some (x (k + 2)) := by
    intro k
    rw [← hnext]
    exact hrun.step (k + 1)
  have hthird : (line.step ⟨fun _ => .empty, [], []⟩ (.announce true 7)).bind (fun s =>
      (line.step s (serveFirst s)).bind fun s => line.step s (serveFirst s)) = some (x 3) := by
    rw [hfirst, Option.bind_some, hstep 0, Option.bind_some, hstep 1]
  intro r
  rw [← Option.some.inj hthird]
  cases r <;> rfl

/-- On this way both routers have handled the announcement. -/
theorem floods_end_line :
    ∃ x e, line.emptyNetwork.Execution x e ∧ (∀ r, (routeOf 7 ((x 3).tables r)).isSome) ∧
      {k | HandlesAnnouncement (x k) (e k)}.Finite := by
  obtain ⟨x, e, hrun, hnext, hknown⟩ := exists_lineExecution
  refine ⟨x, e, hrun, hknown, floods_end (by simp) uniqueTables_empty hrun ?_⟩
  refine (Set.finite_singleton 0).subset fun k hk => ?_
  cases k with
  | zero => rfl
  | succ k =>
    obtain ⟨h, c, hk⟩ := hk
    rw [hnext] at hk
    unfold serveFirst at hk
    split at hk <;> cases hk

/-! ## With several records for one content -/

/-- Four routers, numbered in binary. -/
abbrev RingRouter := Bool × Bool

def RingRouter.number (r : RingRouter) : ℕ := 2 * r.1.toNat + r.2.toNat

def RingRouter.next (r : RingRouter) : RingRouter := (r.1 ^^ r.2, !r.2)

def RingRouter.prev (r : RingRouter) : RingRouter := (r.1 ^^ !r.2, !r.2)

theorem RingRouter.next_prev : ∀ r : RingRouter, next (prev r) = r := by decide

theorem RingRouter.prev_next : ∀ r : RingRouter, prev (next r) = r := by decide

theorem RingRouter.number_lt : ∀ r : RingRouter, r.number < 4 := by decide

/-- The linked interfaces are below the number of interfaces. -/
theorem ring_in_range {r : RingRouter} {i : Int}
    (h : i = 0 ∨ i = 1 ∨ (r = (false, false) ∧ i = 2)) :
    0 ≤ i ∧ i < ((if r = (false, false) then 3 else 2 : ℕ) : Int) := by
  obtain h0 | h1 | ⟨hr, h2⟩ := h
  · split <;> omega
  · split <;> omega
  · rw [if_pos hr]
    omega

/-- Four routers in a ring, interface 1 of each linked to interface 0 of the
next, and a host at interface 2 of router 0. -/
def ring : Topology RingRouter Unit where
  far r i :=
    if i = 0 then some (.node (RingRouter.prev r) 1)
    else if i = 1 then some (.node (RingRouter.next r) 0)
    else if r = (false, false) ∧ i = 2 then some (.leaf ())
    else none
  attach _ := ((false, false), 2)
  num_interfaces r := if r = (false, false) then 3 else 2
  hostID _ := 1
  symm := by
    intro r i r' i' h
    split_ifs at h with h0 h1 h2
    · cases h
      rw [h0, RingRouter.next_prev]
      rfl
    · cases h
      rw [h1, RingRouter.prev_next]
      rfl
    · cases h
  leaf := by
    intro r i h
    constructor
    · intro hfar
      split_ifs at hfar with h0 h1 h2
      · cases hfar
      · cases hfar
      · rw [h2.1, h2.2]
    · intro hatt
      cases hatt
      rfl
  in_range := by
    intro r i e h
    split_ifs at h with h0 h1 h2
    · exact ring_in_range (.inl h0)
    · exact ring_in_range (.inr (.inl h1))
    · exact ring_in_range (.inr (.inr h2))

/-- Content ID and hop count of the records of router `r` after `v` of them
have been moved to the back. -/
def ringRecords (r : RingRouter) (v : ℕ) : List (Int × Int) :=
  (List.range 64).map fun j : ℕ => (7, (r.number + 4 * ((v + j) % 64) : ℕ))

/-- Router `r` starts with 64 records for content 7, with every fourth hop
count. -/
def ringTables (r : RingRouter) : Tables :=
  ⟨(ringRecords r 0).map fun x => ⟨x.1, 0, x.2, g_ROUTING_TABLE_EXPIRY_TIME⟩, []⟩

/-- The front record has the hop count `r + 4 * v` modulo 256; it is also the
one that `v + 1` has at the back. -/
theorem ringRecords_rotate (r : RingRouter) (v : ℕ) :
    ∃ rest, ringRecords r v = (7, ((r.number + 4 * (v % 64) : ℕ) : Int)) :: rest ∧
      ringRecords r (v + 1) = rest ++ [(7, ((r.number + 4 * (v % 64) : ℕ) : Int))] := by
  refine ⟨(List.range 63).map fun j : ℕ => (7, ((r.number + 4 * ((v + 1 + j) % 64) : ℕ) : Int)),
    ?_, ?_⟩
  · unfold ringRecords
    rw [List.range_succ_eq_map, List.map_cons, List.map_map]
    refine congrArg₂ List.cons rfl (List.map_congr_left fun j _ => ?_)
    have hshift : v + (j + 1) = v + 1 + j := by omega
    show ((7 : Int), ((r.number + 4 * ((v + (j + 1)) % 64) : ℕ) : Int)) = _
    rw [hshift]
  · have hback : (v + 1 + 63) % 64 = v % 64 := by omega
    unfold ringRecords
    rw [List.range_succ, List.map_append, List.map_singleton, hback]

/-- An announcement of `q + 4 * v` hops modulo 256 is at router `q`, which has
moved `v` records; routers before it have moved one more. -/
def RingInv (s : State RingRouter Unit) : Prop :=
  ∃ (v : ℕ) (q : RingRouter),
    (∀ r, (s.tables r).RoutingTable.map (fun x => (x.cID, x.num_hops))
      = ringRecords r (if RingRouter.number r < q.number then v + 1 else v)) ∧
    ∃ i, i ≠ 1 ∧ ⟨.node q i, octets .ANNOUNCEMENT 7 (UInt8.ofNat (q.number + 4 * v))⟩ ∈ s.inFlight

/-- A router that has the hop count of an announcement in its front record
moves that record to the back and sends the announcement on. -/
theorem handlePacket_front {n : Nat} {t : Tables} {i : Int} {packet : HeaderOctets} {x : RTrecord}
    {rest : List RTrecord} (ht : PacketTypes.ofOctet packet.packetType = some .ANNOUNCEMENT)
    (htable : t.RoutingTable = x :: rest) (hc : x.cID = packet.ContentID)
    (hh : x.num_hops = packet.hostOrHops) :
    ∃ record : RTrecord, record.cID = packet.ContentID ∧ record.num_hops = packet.hostOrHops ∧
      handlePacket n t ⟨packet, i⟩
        = some ({ t with RoutingTable := rest ++ [record] }, broadcast n i packet.nextHop) := by
  have hlookup : Keyed.lookup RTrecord.cID packet.ContentID t.RoutingTable = some x := by
    rw [htable]
    simp [Keyed.lookup, hc]
  have ha : Adopts t ⟨packet, i⟩ := by
    intro r hr
    have hr : Keyed.lookup RTrecord.cID packet.ContentID t.RoutingTable = some r := hr
    rw [hlookup] at hr
    obtain rfl := Option.some.inj hr
    exact le_of_eq hh.symm
  obtain ⟨t', sent, hsome⟩ := @handlePacket_announcement_isSome n t ⟨packet, i⟩ ht
  obtain ⟨hroute, hsent⟩ := handlePacket_adopt ht hsome ha
  have hcID : (announcedRecord t ⟨packet, i⟩).cID = packet.ContentID := announcedRecord_cID
  refine ⟨announcedRecord t ⟨packet, i⟩, hcID, congrArg Prod.fst hroute, ?_⟩
  obtain ⟨work, hd, rfl⟩ := handlePacket_eq_some hsome
  rw [dispatch_announcement ht] at hd
  obtain rfl := announcementCase_work (Option.some.inj hd)
  rw [hsome, hsent]
  have hflag : (Keyed.lookup RTrecord.cID (⟨packet, i⟩ : Message)._recvPacket.ContentID
      t.RoutingTable).isSome = true := by
    rw [Option.isSome_iff_exists]
    exact ⟨x, hlookup⟩
  have herase : t.RoutingTable.eraseP (fun y => y.cID = packet.ContentID) = rest := by
    rw [htable, List.eraseP_cons_of_pos (by simpa using hc)]
  simp only [Work.commit, commitAnnouncement, hflag, if_true, hcID, Keyed.replace, herase]

/-- The router after `q`, and how often it has been visited. -/
theorem ring_next (v : ℕ) (q : RingRouter) :
    ∃ v' : ℕ, q.next.number + 4 * v' = q.number + 4 * v + 1 ∧
      (if q.number < q.next.number then v' + 1 else v') = v + 1 ∧
      ∀ r : RingRouter, r ≠ q → (if r.number < q.next.number then v' + 1 else v')
        = if r.number < q.number then v + 1 else v := by
  rcases q with ⟨_ | _, _ | _⟩
  · refine ⟨v, by simp [RingRouter.number, RingRouter.next]; omega, rfl, ?_⟩
    intro r hr
    rcases r with ⟨_ | _, _ | _⟩ <;> first | rfl | exact absurd rfl hr
  · refine ⟨v, by simp [RingRouter.number, RingRouter.next]; omega, rfl, ?_⟩
    intro r hr
    rcases r with ⟨_ | _, _ | _⟩ <;> first | rfl | exact absurd rfl hr
  · refine ⟨v, by simp [RingRouter.number, RingRouter.next]; omega, rfl, ?_⟩
    intro r hr
    rcases r with ⟨_ | _, _ | _⟩ <;> first | rfl | exact absurd rfl hr
  · -- from router 3 back to router 0
    refine ⟨v + 1, by simp [RingRouter.number, RingRouter.next]; omega, rfl, ?_⟩
    intro r hr
    rcases r with ⟨_ | _, _ | _⟩ <;> first | rfl | exact absurd rfl hr

theorem ring_step {s : State RingRouter Unit} (hs : RingInv s) :
    ∃ e s', (ring.network ringTables).step s e s' ∧ (HandlesAnnouncement s e ∧ ¬Announces e) ∧
      RingInv s' := by
  obtain ⟨v, q, htables, i, hi, hmem⟩ := hs
  obtain ⟨k, hk⟩ := List.mem_iff_getElem?.mp hmem
  obtain ⟨front, hfront, hback⟩ := ringRecords_rotate q v
  -- the front record of router `q`
  have hq := htables q
  rw [if_neg (lt_irrefl q.number), hfront] at hq
  obtain ⟨x, rest, htable, hx, hrest⟩ := List.map_eq_cons_iff.mp hq
  obtain ⟨hxc, hxh⟩ := Prod.mk.inj hx
  have hhops : x.num_hops
      = (octets .ANNOUNCEMENT 7 (UInt8.ofNat (q.number + 4 * v))).hostOrHops := by
    show x.num_hops = ((UInt8.ofNat (q.number + 4 * v)).toNat : Int)
    rw [hxh, UInt8.toNat_ofNat']
    have hnumber := RingRouter.number_lt q
    omega
  have hcontent : x.cID = (octets .ANNOUNCEMENT 7 (UInt8.ofNat (q.number + 4 * v))).ContentID := hxc
  obtain ⟨record, hrc, hrh, hhandle⟩ := @handlePacket_front (ring.num_interfaces q) (s.tables q) i
    _ x rest (ofOctet_octets ..) htable hcontent hhops
  obtain ⟨v', hv', hself, hother⟩ := ring_next v q
  have hstep : (ring.network ringTables).step s (.deliver k)
      { s with
        tables := Function.update s.tables q
          { s.tables q with RoutingTable := rest ++ [record] }
        inFlight := s.inFlight.eraseIdx k ++ ring.send q (broadcast (ring.num_interfaces q) i
          (octets .ANNOUNCEMENT 7 (UInt8.ofNat (q.number + 4 * v))).nextHop) } := by
    show ring.step s (.deliver k) = some _
    simp only [Topology.step, hk, hhandle]
  refine ⟨_, _, hstep, ⟨⟨k, q, i, _, rfl, hk, ofOctet_octets ..⟩, ?_⟩, ?_⟩
  · intro h
    obtain ⟨_, _, h⟩ := h
    cases h
  · refine ⟨v', q.next, ?_, 0, by decide, ?_⟩
    · intro r
      by_cases hr : r = q
      · subst hr
        dsimp only
        rw [Function.update_self, hself, hback]
        rw [List.map_append, hrest, List.map_singleton, hrc, hrh, ← hhops, hxh]
        rfl
      · dsimp only
        rw [Function.update_of_ne hr, hother r hr]
        exact htables r
    · refine List.mem_append_right _ (List.mem_filterMap.mpr
        ⟨(1, _), mem_broadcast.mpr ⟨?_, ?_, ?_, rfl⟩, ?_⟩)
      · show (0 : Int) ≤ 1
        omega
      · show (1 : Int) < (if q = (false, false) then 3 else 2 : ℕ)
        split <;> decide
      · exact Ne.symm hi
      · show some (⟨.node q.next 0, (octets .ANNOUNCEMENT 7
          (UInt8.ofNat (q.number + 4 * v))).nextHop⟩ : Envelope RingRouter Unit) = _
        rw [nextHop_octets, hv']

/-- One announcement by the host, and the routers handle announcements of it
for ever. -/
theorem flood_never_ends :
    Nat.card RingRouter ≤ 255 ∧
      ∃ x e, (ring.network ringTables).Execution x e ∧ {k | Announces (e k)}.Finite ∧
        ¬{k | HandlesAnnouncement (x k) (e k)}.Finite := by
  refine ⟨by simp, ?_⟩
  have hfirst : RingInv
      ⟨ringTables, [ring.fromHost () (octets .ANNOUNCEMENT 7 0)], [((), 7)]⟩ := by
    refine ⟨0, (false, false), ?_, 2, by decide, List.mem_singleton.mpr rfl⟩
    intro r
    have hnot : ¬ r.number < RingRouter.number (false, false) := Nat.not_lt_zero _
    rw [if_neg hnot]
    unfold ringTables
    rw [List.map_map]
    exact List.map_id _
  obtain ⟨x, e, hrun, h0, hQ⟩ := Lts.exists_execution (fun s => ring_step) rfl
    (show (ring.network ringTables).step ⟨ringTables, [], []⟩ (.announce () 7) _ from rfl) hfirst
  refine ⟨x, e, hrun, ?_, ?_⟩
  · refine (Set.finite_singleton 0).subset fun k hk => ?_
    cases k with
    | zero => rfl
    | succ k => exact absurd hk (hQ k).2
  · intro hfinite
    refine Set.infinite_of_injective_forall_mem Nat.succ_injective (fun k => ?_) hfinite
    exact (hQ k).1

end ContentNetwork.Network
