import ContentNetwork.Network.Wire
import ContentNetwork.Simplified.Provenance

/-!
# How far packets get on the wire

An announcement that a router sends on has a header of four octets, and a
second router cannot send it on within its arrays. A router that adopts it
sends it on unless it has no other interface. So as long as no byte outside an
array is touched, the only records are those of a router for the contents of
its own hosts, and those of a router with a single interface, which has no
hosts, for the contents of the hosts of the next router (`wire_horizon`).

Then a request goes from a host to its router and from there to a host of the
same router, and the response comes back the same way: farther away a content
cannot be had, however large the network is (`reachable_horizonInv`).
-/

namespace ContentNetwork.Network

open Lib Simplified

variable {R H : Type*} {T : Topology R H} {s s' : WireState R H} {e : WireEvent R H}

/-- Where an announcement or a request that comes to router `r` is from: an
announcement from a host at the interface, or at the router behind it; a request
from the host at the interface. -/
structure NearBy (T : Topology R H) (s : WireState R H) (r : R) (m : Message) : Prop where
  announcement : PacketTypes.ofOctet m._recvPacket.packetType = some .ANNOUNCEMENT →
    ∃ y, (y, m._recvPacket.contentID) ∈ s.announced ∧
      ((m._recvPacket.hostIDOrHops = 0 ∧ T.attach y = (r, m._RxInterface_Num)) ∨
        (m._recvPacket.hostIDOrHops = 1 ∧
          ∃ i', T.far r m._RxInterface_Num = some (.node (T.attach y).1 i')))
  request : PacketTypes.ofOctet m._recvPacket.packetType = some .REQUEST →
    ∃ x, (x, m._recvPacket.contentID) ∈ s.asked ∧ T.attach x = (r, m._RxInterface_Num)

/-- What a router may learn from: announcements that have come over a router
only if there is no interface to send them on through. -/
def Known (T : Topology R H) (s : WireState R H) (r : R) (m : Message) : Prop :=
  NearBy T s r m ∧ (m._recvPacket.hostIDOrHops = 1 →
    PacketTypes.ofOctet m._recvPacket.packetType = some .ANNOUNCEMENT → T.num_interfaces r ≤ 1)

/-- The response holds a file that host `y` has read. -/
def ServedBy (s : WireState R H) (y : H) (bytes : List UInt8) : Prop :=
  ∃ c h file, (y, c, file) ∈ s.served ∧ bytes = Host.responseDatagram c h file

/-- Where the datagrams that come to a router or a host are from. -/
def Local (T : Topology R H) (s : WireState R H) (d : Datagram R H) : Prop :=
  match d.dest with
  | .node r i => NearBy T s r ⟨octetsOf d.bytes, i⟩ ∧
    (PacketTypes.ofOctet (octetsOf d.bytes).packetType = some .RESPONSE →
      ∃ y, T.attach y = (r, i) ∧ ServedBy s y d.bytes)
  | .leaf x => PacketTypes.ofOctet (octetsOf d.bytes).packetType = some .RESPONSE →
    ∃ y, (T.attach y).1 = (T.attach x).1 ∧ ServedBy s y d.bytes

/-- All that routers know, and all that is on its way, comes from nearby. -/
structure HorizonInv (T : Topology R H) (s : WireState R H) : Prop where
  learned : ∀ r, (s.tables r).LearnedFrom (Known T s r)
  flight : ∀ d ∈ s.inFlight, Local T s d

/-! ## The past grows -/

/-- Nothing that has been announced, asked for or served is forgotten. -/
structure Grows (s s' : WireState R H) : Prop where
  announced : s.announced ⊆ s'.announced
  asked : s.asked ⊆ s'.asked
  served : s.served ⊆ s'.served

theorem Grows.of_eq (ha : s'.announced = s.announced) (hk : s'.asked = s.asked)
    (hs : s'.served = s.served) : Grows s s' :=
  ⟨ha ▸ List.Subset.refl _, hk ▸ List.Subset.refl _, hs ▸ List.Subset.refl _⟩

theorem NearBy.mono {r : R} {m : Message} (hg : Grows s s') (h : NearBy T s r m) :
    NearBy T s' r m := by
  refine ⟨fun ht => ?_, fun ht => ?_⟩
  · obtain ⟨y, hy, hnear⟩ := h.announcement ht
    exact ⟨y, hg.announced hy, hnear⟩
  · obtain ⟨x, hx, hatt⟩ := h.request ht
    exact ⟨x, hg.asked hx, hatt⟩

theorem Known.mono {r : R} {m : Message} (hg : Grows s s') (h : Known T s r m) :
    Known T s' r m :=
  ⟨h.1.mono hg, h.2⟩

theorem ServedBy.mono {y : H} {bytes : List UInt8} (hg : Grows s s') (h : ServedBy s y bytes) :
    ServedBy s' y bytes := by
  obtain ⟨c, id, file, hmem, hbytes⟩ := h
  exact ⟨c, id, file, hg.served hmem, hbytes⟩

theorem Local.mono {d : Datagram R H} (hg : Grows s s') (h : Local T s d) : Local T s' d := by
  obtain ⟨dest, bytes⟩ := d
  cases dest with
  | node r i =>
    refine ⟨h.1.mono hg, fun ht => ?_⟩
    obtain ⟨y, hatt, hserved⟩ := h.2 ht
    exact ⟨y, hatt, hserved.mono hg⟩
  | leaf x =>
    intro ht
    obtain ⟨y, hatt, hserved⟩ := h ht
    exact ⟨y, hatt, hserved.mono hg⟩

/-- An event that changes no table. -/
theorem HorizonInv.of_flight (hi : HorizonInv T s) (hg : Grows s s')
    (htables : s'.tables = s.tables)
    (hflight : ∀ d ∈ s'.inFlight, d ∈ s.inFlight ∨ Local T s' d) : HorizonInv T s' := by
  refine ⟨fun r => ?_, fun d hd => ?_⟩
  · rw [htables]
    exact (hi.learned r).mono fun _ => Known.mono hg
  · rcases hflight d hd with hd | hd
    · exact (hi.flight d hd).mono hg
    · exact hd

/-- An event at router `r` that adds nothing to the past. -/
theorem HorizonInv.of_tables [DecidableEq R] {r : R} {t : Tables} (hi : HorizonInv T s)
    (hg : Grows s s') (htables : s'.tables = Function.update s.tables r t)
    (ht : t.LearnedFrom (Known T s r))
    (hflight : ∀ d ∈ s'.inFlight, Local T s d) : HorizonInv T s' := by
  refine ⟨fun r' => ?_, fun d hd => (hflight d hd).mono hg⟩
  rw [htables]
  by_cases hr : r' = r
  · subst hr
    rw [Function.update_self]
    exact ht.mono fun _ => Known.mono hg
  · rw [Function.update_of_ne hr]
    exact (hi.learned r').mono fun _ => Known.mono hg

/-! ## One hop -/

/-- An announcement on the wire has hop count 0 or 1. -/
theorem carried_hops {served : List (H × UInt8 × List UInt8)} {bytes : List UInt8}
    (hc : Carried served bytes)
    (ht : PacketTypes.ofOctet (octetsOf bytes).packetType = some .ANNOUNCEMENT) :
    (octetsOf bytes).hostIDOrHops = 0 ∨ (octetsOf bytes).hostIDOrHops = 1 := by
  cases hc with
  | request c h => cases ht
  | response h hmem hlen => cases ht
  | announced c => exact .inl rfl
  | relayed c residue => exact .inr rfl

/-- One more hop. -/
theorem nextHop_hops {p : HeaderOctets} {k : Nat} (hk : p.hostIDOrHops = UInt8.ofNat k) :
    p.nextHop.hostIDOrHops = UInt8.ofNat (k + 1) := by
  have := congrArg HeaderOctets.hostIDOrHops (nextHop_octets .REQUEST 0 k)
  unfold HeaderOctets.nextHop HeaderOctets.hostOrHops at this ⊢
  rw [hk]
  exact this

section Relay

variable {bytes bytes' : List UInt8} {r : R} {i j : Int} {t : Tables} {e : Far R Int H}
  {sent : List Sent}

/-- An announcement that is sent on was sent by a host, and comes from the next
router then. -/
theorem announcement_local (hc' : Carried s.served bytes')
    (hsent : octetsOf bytes' = (octetsOf bytes).nextHop)
    (hnear : NearBy T s r ⟨octetsOf bytes, i⟩)
    (ht : PacketTypes.ofOctet (octetsOf bytes).packetType = some .ANNOUNCEMENT)
    (hfar : T.far r j = some e) : Local T s ⟨e, bytes'⟩ := by
  have ht' : PacketTypes.ofOctet (octetsOf bytes').packetType = some .ANNOUNCEMENT := by
    rw [hsent]
    exact ht
  have hother : PacketTypes.ofOctet (octetsOf bytes').packetType ≠ some .RESPONSE := by
    rw [ht']
    nofun
  cases e with
  | leaf x => exact fun h => absurd h hother
  | node r' i' =>
    refine ⟨⟨fun _ => ?_, fun h => ?_⟩, fun h => absurd h hother⟩
    · obtain ⟨y, hy, ⟨hzero, hatt⟩ | ⟨hone, -⟩⟩ := hnear.announcement ht
      · refine ⟨y, ?_, .inr ⟨?_, j, ?_⟩⟩
        · rw [hsent]
          exact hy
        · rw [hsent]
          exact nextHop_hops (k := 0) hzero
        · rw [hatt]
          exact T.symm hfar
      · -- there is no second hop
        have htwo : (octetsOf bytes').hostIDOrHops = 2 := by
          rw [hsent]
          exact nextHop_hops (k := 1) hone
        rcases carried_hops hc' ht' with h | h
        · rw [h] at htwo
          exact absurd htwo (by decide)
        · rw [h] at htwo
          exact absurd htwo (by decide)
    · change PacketTypes.ofOctet (octetsOf bytes').packetType = some .REQUEST at h
      rw [ht'] at h
      cases h

/-- A request that is sent on goes to a host that has announced the content. -/
theorem request_toHost (hl : t.LearnedFrom (Known T s r))
    (hnear : NearBy T s r ⟨octetsOf bytes, i⟩)
    (ht : PacketTypes.ofOctet (octetsOf bytes).packetType = some .REQUEST)
    (hroute : (Keyed.lookup RTrecord.cID (octetsOf bytes).ContentID t.RoutingTable).map
      RTrecord.interface = some j)
    (hfar : T.far r j = some e) :
    ∃ y, e = .leaf y ∧ (y, (octetsOf bytes).contentID) ∈ s.announced := by
  obtain ⟨x, -, hatt⟩ := hnear.request ht
  have hleaf : T.far r i = some (.leaf x) := T.leaf.mpr hatt
  obtain ⟨record, hrecord, rfl⟩ := Option.map_eq_some_iff.mp hroute
  obtain ⟨m, ⟨hm, hdead⟩, hta, hc, -, hinterface⟩ :=
    hl.routing record (Keyed.lookup_mem hrecord)
  obtain ⟨y, hy, ⟨-, hatt'⟩ | ⟨hone, i', hfar'⟩⟩ := hm.announcement hta
  · rw [hinterface, T.leaf.mpr hatt'] at hfar
    rw [← contentID_eq (hc.symm.trans (Keyed.lookup_key hrecord))]
    exact ⟨y, (Option.some.inj hfar).symm, hy⟩
  · -- the only interface is that of the host
    have hn := hdead hone hta
    have hhost := T.in_range hleaf
    have hrouter := T.in_range hfar'
    have heq : m._RxInterface_Num = i := by omega
    rw [heq, hleaf] at hfar'
    cases hfar'

theorem request_local (hl : t.LearnedFrom (Known T s r))
    (hnear : NearBy T s r ⟨octetsOf bytes, i⟩)
    (ht : PacketTypes.ofOctet (octetsOf bytes).packetType = some .REQUEST)
    (hroute : (Keyed.lookup RTrecord.cID (octetsOf bytes).ContentID t.RoutingTable).map
      RTrecord.interface = some j)
    (hfar : T.far r j = some e) : Local T s ⟨e, bytes⟩ := by
  obtain ⟨y, rfl, -⟩ := request_toHost hl hnear ht hroute hfar
  intro h
  rw [show PacketTypes.ofOctet (octetsOf bytes).packetType = some .RESPONSE from h] at ht
  cases ht

/-- A response that is sent on goes to a host of the same router. -/
theorem response_local (hl : t.LearnedFrom (Known T s r))
    (hserved : ∃ y, T.attach y = (r, i) ∧ ServedBy s y bytes)
    (hpending : pendingInterface (octetsOf bytes).requestKey t = some j)
    (hfar : T.far r j = some e) : Local T s ⟨e, bytes⟩ := by
  obtain ⟨record, hrecord, rfl⟩ := Option.map_eq_some_iff.mp hpending
  obtain ⟨m, ⟨hm, -⟩, hta, -, hinterface⟩ := hl.pending record (Keyed.lookup_mem hrecord)
  obtain ⟨x, -, hatt⟩ := hm.request hta
  rw [hinterface, T.leaf.mpr hatt] at hfar
  obtain rfl := Option.some.inj hfar
  obtain ⟨y, hatt', hy⟩ := hserved
  exact fun _ => ⟨y, by rw [hatt, hatt'], hy⟩

/-- A router that adopts what has come over another router has no interface to
send it on through. -/
theorem relay_learned {t' : Tables} {i : Int} (hl : t.LearnedFrom (Known T s r))
    (hnear : NearBy T s r ⟨octetsOf bytes, i⟩)
    (hhandle : handlePacket (T.num_interfaces r) t ⟨octetsOf bytes, i⟩ = some (t', sent))
    (hsent : ∀ x ∈ sent, x.2.hostIDOrHops = 2 →
      PacketTypes.ofOctet x.2.packetType ≠ some .ANNOUNCEMENT) :
    t'.LearnedFrom (Known T s r) := by
  by_cases hknown : Known T s r ⟨octetsOf bytes, i⟩
  · exact handlePacket_learned hl hknown hhandle
  · have hfar : (octetsOf bytes).hostIDOrHops = 1 ∧
        PacketTypes.ofOctet (octetsOf bytes).packetType = some .ANNOUNCEMENT ∧
        2 ≤ T.num_interfaces r := by
      by_contra hno
      refine hknown ⟨hnear, fun hone ht => ?_⟩
      by_contra hn
      exact hno ⟨hone, ht, by omega⟩
    obtain ⟨hone, ht, hn⟩ := hfar
    refine handlePacket_ignored_learned hl (fun hadopts => ?_) ht hhandle
    obtain ⟨-, rfl⟩ := handlePacket_adopt ht hhandle hadopts
    -- one of the first two interfaces is another one
    have htwo : (octetsOf bytes).nextHop.hostIDOrHops = 2 := nextHop_hops (k := 1) hone
    have hno : ∀ j : Int, 0 ≤ j → j < T.num_interfaces r → j = i := by
      intro j h0 h1
      by_contra hne
      exact hsent (j, (octetsOf bytes).nextHop) (mem_broadcast.mpr ⟨h0, h1, hne, rfl⟩) htwo ht
    have hzero := hno 0 (by omega) (by omega)
    have hfirst := hno 1 (by omega) (by omega)
    omega

end Relay

/-- What a router knows. -/
theorem HorizonInv.record (hi : HorizonInv T s) {r : R} {record : RTrecord}
    (hmem : record ∈ (s.tables r).RoutingTable) :
    ∃ y c, record.cID = ((c : UInt8).toNat : Int) ∧ (y, c) ∈ s.announced ∧
      ((record.num_hops = 0 ∧ T.attach y = (r, record.interface)) ∨
        (record.num_hops = 1 ∧ T.num_interfaces r ≤ 1 ∧
          ∃ i', T.far r record.interface = some (.node (T.attach y).1 i'))) := by
  obtain ⟨m, ⟨hm, hdead⟩, ht, hc, hhops, hinterface⟩ := (hi.learned r).routing record hmem
  obtain ⟨y, hy, hnear⟩ := hm.announcement ht
  refine ⟨y, m._recvPacket.contentID, hc, hy, ?_⟩
  rw [hhops, hinterface, HeaderOctets.hostOrHops]
  rcases hnear with ⟨hzero, hatt⟩ | ⟨hone, hfar⟩
  · exact .inl ⟨by rw [hzero]; rfl, hatt⟩
  · exact .inr ⟨by rw [hone]; rfl, hdead hone ht, hfar⟩

/-! ## Runs -/

namespace Topology

variable [DecidableEq R] [DecidableEq H]

omit [DecidableEq R] [DecidableEq H] in
/-- What a router sends comes from nearby where it goes. -/
theorem relay_local {bytes : List UInt8} {r : R} {i : Int} {t : Tables}
    {out : List (Int × List UInt8)} (hi : HorizonInv T s) (hlocal : Local T s ⟨.node r i, bytes⟩)
    (hhandle : handlePacket (T.num_interfaces r) (s.tables r) ⟨octetsOf bytes, i⟩
      = some (t, out.map fun x => (x.1, octetsOf x.2)))
    (hout : ∀ x ∈ out, Carried s.served x.2)
    (hsame : PacketTypes.ofOctet (octetsOf bytes).packetType ≠ some .ANNOUNCEMENT →
      ∀ x ∈ out, x.2 = bytes) : ∀ d ∈ T.sendDatagrams r out, Local T s d := by
  intro d hd
  obtain ⟨hnear, hserved⟩ := hlocal
  obtain ⟨x, hx, hd⟩ := List.mem_filterMap.mp hd
  obtain ⟨e, hfar, rfl⟩ := Option.map_eq_some_iff.mp hd
  have hmem : (x.1, octetsOf x.2) ∈ out.map fun x => (x.1, octetsOf x.2) :=
    List.mem_map.mpr ⟨x, hx, rfl⟩
  cases ht : PacketTypes.ofOctet (octetsOf bytes).packetType with
  | none =>
    obtain ⟨-, hnil⟩ := handlePacket_default ht hhandle
    rw [hnil] at hmem
    exact absurd hmem List.not_mem_nil
  | some type =>
    cases type with
    | REQUEST =>
      rw [hsame (by rw [ht]; nofun) x hx]
      exact request_local (hi.learned r) hnear ht ((handlePacket_request ht hhandle).2.2 _ hmem).2
        hfar
    | RESPONSE =>
      rw [hsame (by rw [ht]; nofun) x hx]
      exact response_local (hi.learned r) (hserved ht)
        ((handlePacket_response ht hhandle).2 _ hmem).2 hfar
    | ANNOUNCEMENT =>
      exact announcement_local (hout x hx) (handlePacket_announcement_sent ht hhandle _ hmem)
        hnear ht hfar

theorem WireStep.horizonInv (hstep : T.WireStep s e s') (hi : HorizonInv T s) :
    HorizonInv T s' := by
  cases hstep with
  | announce x c mem =>
    have hg : Grows s { s with announced := (x, c) :: s.announced } :=
      ⟨List.subset_cons_self .., List.Subset.refl _, List.Subset.refl _⟩
    refine hi.of_flight ⟨hg.announced, hg.asked, hg.served⟩ rfl fun d hd => ?_
    rcases List.mem_append.mp hd with hd | hd
    · exact .inl hd
    · obtain rfl := List.mem_singleton.mp hd
      exact .inr ⟨⟨fun _ => ⟨x, List.mem_cons_self .., .inl ⟨rfl, rfl⟩⟩, nofun⟩, nofun⟩
  | request x c mem =>
    have hg : Grows s { s with asked := (x, c) :: s.asked } :=
      ⟨List.Subset.refl _, List.subset_cons_self .., List.Subset.refl _⟩
    refine hi.of_flight ⟨hg.announced, hg.asked, hg.served⟩ rfl fun d hd => ?_
    rcases List.mem_append.mp hd with hd | hd
    · exact .inl hd
    · obtain rfl := List.mem_singleton.mp hd
      exact .inr ⟨⟨nofun, fun _ => ⟨x, List.mem_cons_self .., rfl⟩⟩, nofun⟩
  | @relay before after r i bytes t q out mem hs hhandle hout hsame =>
    have hlocal := hi.flight _ (mem_split hs)
    refine hi.of_tables (.of_eq rfl rfl rfl) rfl (relay_learned (hi.learned r) hlocal.1 hhandle ?_)
      fun d hd => ?_
    · -- nothing on the wire has come over two routers
      intro x hx htwo ht
      obtain ⟨x', hx', rfl⟩ := List.mem_map.mp hx
      rcases carried_hops (hout x' hx') ht with h | h
      · rw [show (octetsOf x'.2).hostIDOrHops = 2 from htwo] at h
        exact absurd h (by decide)
      · rw [show (octetsOf x'.2).hostIDOrHops = 2 from htwo] at h
        exact absurd h (by decide)
    · rcases List.mem_append.mp hd with hd | hd
      · exact hi.flight d (mem_of_split hs hd)
      · exact relay_local hi hlocal hhandle hout hsame d hd
  | throws mem hs hhandle =>
    exact hi.of_flight (.of_eq rfl rfl rfl) rfl fun d hd => .inl (mem_of_split hs hd)
  | @rx before after x bytes q sent saved directory mem hs hq hreacts =>
    refine hi.of_flight
      ⟨List.Subset.refl _, List.Subset.refl _, List.subset_append_right ..⟩ rfl fun d hd => ?_
    rcases List.mem_append.mp hd with hd | hd
    · exact .inl (mem_of_split hs hd)
    · obtain ⟨bytes', hbytes', rfl⟩ := List.mem_map.mp hd
      cases hreacts with
      | @serves file hfile hlen =>
        obtain rfl := List.mem_singleton.mp hbytes'
        refine .inr ⟨⟨nofun, nofun⟩, fun _ => ⟨x, rfl, _, _, file, ?_, rfl⟩⟩
        rw [hfile]
        exact List.mem_cons_self ..
      | saves => exact absurd hbytes' List.not_mem_nil
      | nothing => exact absurd hbytes' List.not_mem_nil
  | lose hs => exact hi.of_flight (.of_eq rfl rfl rfl) rfl fun d hd => .inl (mem_of_split hs hd)
  | drop alloc hs _ =>
    exact hi.of_flight (.of_eq rfl rfl rfl) rfl fun d hd => .inl (mem_of_split hs hd)
  | duplicate hs =>
    refine hi.of_flight (.of_eq rfl rfl rfl) rfl fun d hd => ?_
    rcases List.mem_append.mp hd with hd | hd
    · exact .inl hd
    · obtain rfl := List.mem_singleton.mp hd
      exact .inl (mem_split hs)
  | @timerPending r l hl =>
    exact hi.of_tables (.of_eq rfl rfl rfl) rfl (timerPending_learned (hi.learned r) hl) hi.flight

theorem reachable_horizonInv {port : Far R Int H → ReceivingPort}
    (hreach : (T.wire port).Reachable s) : s.CarriesAll ∧ HorizonInv T s := by
  refine hreach.invariant (I := fun s => s.CarriesAll ∧ HorizonInv T s) ?_ ?_
  · intro s hs
    obtain rfl : s = _ := hs
    exact ⟨fun _ hd => absurd hd List.not_mem_nil, fun _ => empty_learned,
      fun _ hd => absurd hd List.not_mem_nil⟩
  · intro s e s' hinv hstep
    have hcases := wireStep_cases hinv.1 hstep
    exact ⟨hcases.carriesAll hinv.1, hcases.horizonInv hinv.2⟩

/-- **On the wire a router knows the contents of its own hosts**, and if it has no
other interface those of the next router's, in every state that is reached
without touching a byte outside an array. -/
theorem wire_horizon {port : Far R Int H → ReceivingPort} (hreach : (T.wire port).Reachable s)
    {r : R} {record : RTrecord} (hmem : record ∈ (s.tables r).RoutingTable) :
    ∃ y c, record.cID = ((c : UInt8).toNat : Int) ∧ (y, c) ∈ s.announced ∧
      ((record.num_hops = 0 ∧ T.attach y = (r, record.interface)) ∨
        (record.num_hops = 1 ∧ T.num_interfaces r ≤ 1 ∧
          ∃ i', T.far r record.interface = some (.node (T.attach y).1 i'))) :=
  (reachable_horizonInv hreach).2.record hmem

end Topology

/-- The router of the hub knows the content of host 11. -/
theorem wire_horizon_hub : ∃ s : WireState Unit Bool, hubWire.Reachable s ∧
    ∃ record ∈ (s.tables ()).RoutingTable, ∃ y c,
      record.cID = ((c : UInt8).toNat : Int) ∧ (y, c) ∈ s.announced ∧
        ((record.num_hops = 0 ∧ hub.attach y = ((), record.interface)) ∨
          (record.num_hops = 1 ∧ hub.num_interfaces () ≤ 1 ∧
            ∃ i', hub.far () record.interface = some (.node (hub.attach y).1 i'))) := by
  have hrecord : (Lts.trace hub.wireStep
      ⟨fun _ => .empty, fun _ => Host.zeroPort, fun _ => -1, [], [], [], [], []⟩
      hubEvents).map (fun r => (r.2.tables ()).RoutingTable) = some [⟨7, 1, 0, 25⟩] := by
    decide +kernel
  obtain ⟨⟨ms, s⟩, htrace, hs⟩ := Option.map_eq_some_iff.mp hrecord
  have hreach : hubWire.Reachable s := (Lts.run_of_trace htrace).reachable
  have hmem : (⟨7, 1, 0, 25⟩ : RTrecord) ∈ (s.tables ()).RoutingTable := by
    rw [show (s.tables ()).RoutingTable = _ from hs]
    exact List.mem_singleton_self _
  exact ⟨s, hreach, _, hmem, Topology.wire_horizon hreach hmem⟩

end ContentNetwork.Network
