import ContentNetwork.Network.Convergence
import ContentNetwork.Network.Retrace

/-!
# Every request is accounted for

In a network that loses nothing, a request `(c, h)` that a host sends ends in
one of three ways: the router of the host has no route to `c`; it comes to a
host that does not have the file; or a host with ID `h` gets a response. Until
then it, or its response, is in flight, once.

`Ledger` counts the four, and `ledger_balance` says that they balance in every
reachable state. So nothing is dropped further on: a router that has forwarded
a request did so to a router with a route (`Routable`), and a response finds a
pending record at every router it comes to. And nothing is answered twice:
`requests_answered` turns the balance into what a host can rely on.
-/

namespace ContentNetwork.Network

open Lib Lib.Lts Simplified

variable {R H : Type*}

instance (t : PacketTypes) (c h : UInt8) (p : HeaderOctets) : Decidable (IsPacket t c h p) :=
  inferInstanceAs (Decidable (_ ∧ _ ∧ _))

/-- A request `(c, h)` or a response to it. -/
def Exchanged (c h : UInt8) (x : Envelope R H) : Prop :=
  IsPacket .REQUEST c h x.packet ∨ IsPacket .RESPONSE c h x.packet

instance (c h : UInt8) (x : Envelope R H) : Decidable (Exchanged c h x) :=
  inferInstanceAs (Decidable (_ ∨ _))

/-- The requests `(c, h)` and responses to them in flight. -/
def outstanding (c h : UInt8) (l : List (Envelope R H)) : ℕ :=
  l.countP fun x => Exchanged c h x

/-- What has become of the requests `(c, h)`. -/
structure Ledger where
  requested : ℕ
  /-- Dropped by the router of the host, which has no route. -/
  unrouted : ℕ
  /-- Dropped by a host without the file. -/
  unserved : ℕ
  answered : ℕ
  deriving DecidableEq

/-- How an event is entered. -/
def Ledger.update (T : Topology R H) (c h : UInt8) (g : Ledger) (s : State R H) :
    Event H → Ledger
  | .announce _ _ => g
  | .request x c' =>
    if c' = c ∧ T.hostID x = h then { g with requested := g.requested + 1 } else g
  | .deliver k =>
    match s.inFlight[k]? with
    | some ⟨.node r i, packet⟩ =>
      match T.far r i with
      | some (.leaf _) =>
        if IsPacket .REQUEST c h packet ∧ routeOf c (s.tables r) = none then
          { g with unrouted := g.unrouted + 1 }
        else g
      | _ => g
    | _ => g
  | .hostReceive k hasFile =>
    match s.inFlight[k]? with
    | some ⟨.leaf _, packet⟩ =>
      if IsPacket .REQUEST c h packet ∧ hasFile = false then
        { g with unserved := g.unserved + 1 }
      else if IsPacket .RESPONSE c h packet then { g with answered := g.answered + 1 }
      else g
    | _ => g

/-- The ledger balances. -/
def Ledger.Balanced (g : Ledger) (outstanding : ℕ) : Prop :=
  g.requested = outstanding + g.unrouted + g.unserved + g.answered

/-- The network that loses nothing, with the ledger of `(c, h)`. -/
def Topology.ledgerNetwork [DecidableEq R] (T : Topology R H) (c h : UInt8) :
    Lts (State R H × Ledger) (Event H) :=
  T.emptyNetwork.observe ⟨0, 0, 0, 0⟩ (Ledger.update T c h)

section Count

variable {c h : UInt8} {before after l l' : List (Envelope R H)} {x : Envelope R H}

theorem outstanding_append : outstanding c h (l ++ l') = outstanding c h l + outstanding c h l' :=
  List.countP_append

theorem outstanding_split : outstanding c h (before ++ x :: after)
    = outstanding c h (before ++ after) + if Exchanged c h x then 1 else 0 := by
  unfold outstanding
  rw [List.countP_append, List.countP_append, List.countP_cons]
  simp only [decide_eq_true_eq]
  omega

theorem outstanding_eq_zero (hl : ∀ x ∈ l, ¬Exchanged c h x) : outstanding c h l = 0 :=
  List.countP_eq_zero.mpr fun x hx => by simpa using hl x hx

theorem outstanding_singleton (hx : Exchanged c h x) : outstanding c h [x] = 1 := by
  unfold outstanding
  rw [List.countP_singleton, if_pos (decide_eq_true hx)]

/-- A packet of another type is not counted. -/
theorem not_exchanged_of_type (h1 : PacketTypes.ofOctet x.packet.packetType ≠ some .REQUEST)
    (h2 : PacketTypes.ofOctet x.packet.packetType ≠ some .RESPONSE) : ¬Exchanged c h x := by
  intro hx
  rcases hx with hx | hx
  · exact h1 hx.1
  · exact h2 hx.1

/-- The same packet on its way to elsewhere is counted the same. -/
theorem exchanged_congr {e e' : Far R Int H} {packet : HeaderOctets} :
    Exchanged c h (⟨e, packet⟩ : Envelope R H) ↔ Exchanged c h (⟨e', packet⟩ : Envelope R H) :=
  Iff.rfl

end Count

/-! ## One packet at a router -/

section Router

variable [DecidableEq R] {T : Topology R H} {s s' : State R H} {c h : UInt8} {r : R} {i : Int}
  {packet : HeaderOctets}

/-- A request at a router with a route is sent on, once, over a link. -/
theorem request_sent_on [Finite R] (hcard : Nat.card R ≤ 255) (hs : T.emptyNetwork.Reachable s)
    (hp : IsPacket .REQUEST c h packet) {b j : Int}
    (hroute : routeOf c (s.tables r) = some (b, j)) :
    ∃ t e, handlePacket (T.num_interfaces r) (s.tables r) ⟨packet, i⟩ = some (t, [(j, packet)]) ∧
      T.far r j = some e := by
  obtain ⟨ht, hc, -⟩ := hp
  have hsound := (reachable_floodInv hcard hs c).2.sound
  have hfar : ∃ e, T.far r j = some e := by
    rcases hsound.value r b j hroute with ⟨-, y, -, hatt⟩ | ⟨r', i', hfar, -⟩
    · exact ⟨_, T.leaf.mpr hatt⟩
    · exact ⟨_, hfar⟩
  obtain ⟨e, hfar⟩ := hfar
  obtain ⟨record, hlookup, hrecord⟩ := Option.map_eq_some_iff.mp hroute
  obtain ⟨-, rfl⟩ := Prod.mk.inj hrecord
  obtain ⟨h0, h1⟩ := T.in_range hfar
  rw [← hc] at hlookup
  obtain ⟨t, hhandle⟩ := @handlePacket_forward (T.num_interfaces r) (s.tables r) ⟨packet, i⟩ ht
    record hlookup h0 h1
  exact ⟨t, e, hhandle, hfar⟩

omit [DecidableEq R] in
/-- A response at a router with a pending record is sent on, once, over a
link. -/
theorem response_sent_on (hi : RetraceInv T c h s) (hp : IsPacket .RESPONSE c h packet)
    (hcrumb : (crumbs c h s.tables r).isSome) :
    ∃ t j e, handlePacket (T.num_interfaces r) (s.tables r) ⟨packet, i⟩
        = some (t, [(j, packet)]) ∧ T.far r j = some e := by
  obtain ⟨ht, hkey⟩ := hp
  obtain ⟨l, y, htrail, -⟩ := hi.trail r hcrumb
  obtain ⟨j, hj, hnext⟩ := htrail.uncons
  have hfar : ∃ e, T.far r j = some e := by
    rcases hnext with ⟨-, hfar⟩ | ⟨r', i', l', hfar, -⟩
    · exact ⟨_, hfar⟩
    · exact ⟨_, hfar⟩
  obtain ⟨e, hfar⟩ := hfar
  obtain ⟨h0, h1⟩ := T.in_range hfar
  have hkey' : packet.requestKey = ((c.toNat : Int), (h.toNat : Int)) := requestKey_eq.mpr hkey
  have hpending : pendingInterface packet.requestKey (s.tables r) = some j := by
    rw [hkey']
    exact hj
  exact ⟨_, j, e, @handlePacket_retrace _ _ ⟨packet, i⟩ ht _ hpending h0 h1, hfar⟩

omit [DecidableEq R] in
/-- A router sends no request and no response but the one it handles. -/
theorem exchanged_of_sent {t : Tables} {sent : List Sent} {x : Envelope R H}
    (hh : handlePacket (T.num_interfaces r) (s.tables r) ⟨packet, i⟩ = some (t, sent))
    (hx : x ∈ T.send r sent) (he : Exchanged c h x) : x.packet = packet := by
  obtain ⟨j, hmem, -⟩ := Topology.mem_send hx
  by_cases ht : PacketTypes.ofOctet packet.packetType = some .ANNOUNCEMENT
  · have hpacket : x.packet = packet.nextHop := handlePacket_announcement_sent ht hh _ hmem
    have htype : PacketTypes.ofOctet x.packet.packetType = some .ANNOUNCEMENT := hpacket ▸ ht
    refine absurd he (not_exchanged_of_type ?_ ?_)
    · rw [htype]
      exact nofun
    · rw [htype]
      exact nofun
  · exact (handlePacket_routing_of_type ht hh).2 _ hmem

end Router

/-! ## Requests find routes -/

section Routable

variable [DecidableEq R] [Finite R] {T : Topology R H} {s s' : State R H} {c h : UInt8} {r : R}
  {e : Event H}

/-- A request on its way to a router comes from a host, or finds a route. -/
def Routable (T : Topology R H) (c h : UInt8) (s : State R H) : Prop :=
  ∀ x ∈ s.inFlight, IsPacket .REQUEST c h x.packet → ∀ r i, x.dest = .node r i →
    (∃ y, T.far r i = some (.leaf y)) ∨ (routeOf c (s.tables r)).isSome

/-- Without timers no router loses its route. -/
theorem step_route_isSome (hcard : Nat.card R ≤ 255) (hs : T.emptyNetwork.Reachable s)
    (h : T.Step s e s') (hr : (routeOf c (s.tables r)).isSome) :
    (routeOf c (s'.tables r)).isSome := by
  obtain ⟨hu, hflood⟩ := reachable_floods hcard uniqueTables_empty hs
  obtain ⟨⟨b, i⟩, hbest⟩ := Option.isSome_iff_exists.mp hr
  have hbest : (floodState c s).best r = some (b, i) := hbest
  rcases step_floods hcard hu (hflood c) h with heq | ⟨a, ha⟩
  · show ((floodState c s').best r).isSome
    rw [heq, hbest]
    rfl
  · obtain ⟨b', i', hbest', -⟩ := Flood.step_best_le ha hbest
    show ((floodState c s').best r).isSome
    rw [hbest']
    rfl

/-- A request that a router sends on comes to a router with a route, or to a
host. -/
theorem sent_routable (hcard : Nat.card R ≤ 255) (hs : T.emptyNetwork.Reachable s)
    {i : Int} {packet : HeaderOctets} {t : Tables} {sent : List Sent} {x : Envelope R H}
    (hh : handlePacket (T.num_interfaces r) (s.tables r) ⟨packet, i⟩ = some (t, sent))
    (hx : x ∈ T.send r sent) (hp : IsPacket .REQUEST c h x.packet) {r' : R} {i' : Int}
    (hdest : x.dest = .node r' i') : (routeOf c (s.tables r')).isSome := by
  have hpacket := exchanged_of_sent hh hx (Or.inl hp)
  rw [hpacket] at hp
  obtain ⟨j, hmem, hfar⟩ := Topology.mem_send hx
  have hroute := ((handlePacket_request hp.1 hh).2.2 _ hmem).2
  obtain ⟨record, hlookup, rfl⟩ := Option.map_eq_some_iff.mp hroute
  have hbest : (floodState c s).best r = some record.route := by
    show (Keyed.lookup RTrecord.cID (c.toNat : Int) (s.tables r).RoutingTable).map _ = _
    rw [← hp.2.1]
    exact congrArg _ hlookup
  rw [hdest] at hfar
  obtain ⟨b', j', hb', -⟩ := (reachable_floodInv hcard hs c).2.loop_free hbest hfar
  have hb' : routeOf c (s.tables r') = some (b', j') := hb'
  rw [hb']
  rfl

theorem step_routable (hcard : Nat.card R ≤ 255) (hs : T.emptyNetwork.Reachable s)
    (hi : Routable T c h s) (hstep : T.Step s e s') : Routable T c h s' := by
  have hkept : ∀ x ∈ s.inFlight, IsPacket .REQUEST c h x.packet → ∀ r i, x.dest = .node r i →
      (∃ y, T.far r i = some (.leaf y)) ∨ (routeOf c (s'.tables r)).isSome := by
    intro x hx hp r i hdest
    rcases hi x hx hp r i hdest with hleaf | hroute
    · exact Or.inl hleaf
    · exact Or.inr (step_route_isSome hcard hs hstep hroute)
  intro x hx hp r i hdest
  have hroutes := fun r hr => @step_route_isSome R H _ _ T s s' c r e hcard hs hstep hr
  cases hstep with
  | announce y c' =>
    rcases List.mem_append.mp hx with hx | hx
    · exact hkept x hx hp r i hdest
    · obtain rfl := List.mem_singleton.mp hx
      exact absurd hp.1 (octets_type_ne nofun)
  | request y c' =>
    rcases List.mem_append.mp hx with hx | hx
    · exact hkept x hx hp r i hdest
    · obtain rfl := List.mem_singleton.mp hx
      obtain ⟨rfl, rfl⟩ := Far.node.inj hdest
      exact Or.inl ⟨y, T.far_attach y⟩
  | @handle before after r₀ i₀ packet t sent hsplit hh =>
    rcases List.mem_append.mp hx with hx | hx
    · exact hkept x (Topology.mem_of_split hsplit hx) hp r i hdest
    · exact Or.inr (hroutes r (sent_routable hcard hs hh hx hp hdest))
  | throws hsplit => exact hkept x (Topology.mem_of_split hsplit hx) hp r i hdest
  | hostReceive hasFile hsplit =>
    rcases List.mem_append.mp hx with hx | hx
    · exact hkept x (Topology.mem_of_split hsplit hx) hp r i hdest
    · obtain ⟨-, rfl⟩ := Topology.mem_hostReply hx
      exact absurd hp.1 (octets_type_ne nofun)

theorem reachable_routable (hcard : Nat.card R ≤ 255) (hs : T.emptyNetwork.Reachable s) :
    Routable T c h s := by
  induction hs with
  | init hinit =>
    obtain rfl : _ = _ := hinit
    exact fun x hx => absurd hx List.not_mem_nil
  | step hs hstep ih => exact step_routable hcard hs ih (Topology.step_cases hstep)

end Routable

/-! ## One event -/

section Step

variable [DecidableEq R] [Finite R] {T : Topology R H} {s s' : State R H} {c h : UInt8} {r : R}
  {i : Int} {packet : HeaderOctets} {before after : List (Envelope R H)} {g : Ledger}

/-- A router that handles a request or a response sends it on, or drops a
request of a host to which it has no route. -/
theorem handled_cases (hcard : Nat.card R ≤ 255) (hs : T.emptyNetwork.Reachable s)
    (hsplit : s.inFlight = before ++ ⟨.node r i, packet⟩ :: after)
    (he : Exchanged c h (⟨.node r i, packet⟩ : Envelope R H)) :
    (∃ t j e, handlePacket (T.num_interfaces r) (s.tables r) ⟨packet, i⟩
        = some (t, [(j, packet)]) ∧ T.far r j = some e ∧
        ¬(IsPacket .REQUEST c h packet ∧ routeOf c (s.tables r) = none)) ∨
      (∃ t y, handlePacket (T.num_interfaces r) (s.tables r) ⟨packet, i⟩ = some (t, []) ∧
        T.far r i = some (.leaf y) ∧ IsPacket .REQUEST c h packet ∧
        routeOf c (s.tables r) = none) := by
  have hmem := Topology.mem_split hsplit
  rcases he with hp | hp
  · cases hroute : routeOf c (s.tables r) with
    | none =>
      rcases reachable_routable hcard hs _ hmem hp r i rfl with ⟨y, hleaf⟩ | hsome
      · have hlookup := Option.map_eq_none_iff.mp hroute
        have hp' : IsPacket .REQUEST c h packet := hp
        rw [← hp'.2.1] at hlookup
        obtain ⟨t, ht⟩ := @handlePacket_noRoute (T.num_interfaces r) (s.tables r) ⟨packet, i⟩ hp.1
          hlookup
        exact Or.inr ⟨t, y, ht, hleaf, hp, rfl⟩
      · rw [hroute] at hsome
        cases hsome
    | some best =>
      obtain ⟨t, e, ht, hfar⟩ := @request_sent_on R H _ T s c h r i packet _ hcard hs hp _ _ hroute
      exact Or.inl ⟨t, _, e, ht, hfar, fun hnone => nomatch hnone.2⟩
  · have hi : RetraceInv T c h s := reachable_retraceInv (reachable_rerouted hs)
    obtain ⟨t, j, e, ht, hfar⟩ := @response_sent_on R H T s c h r i packet hi hp
      ((hi.traced _ hmem).2 hp)
    refine Or.inl ⟨t, j, e, ht, hfar, fun hreq => ?_⟩
    have ht' := hreq.1.1
    rw [hp.1] at ht'
    cases ht'

omit [DecidableEq R] [Finite R] in
/-- An entry for a packet at a router, if there is one. -/
theorem update_deliver (hsplit : s.inFlight = before ++ ⟨.node r i, packet⟩ :: after) :
    g.update T c h s (.deliver before.length)
      = match T.far r i with
        | some (.leaf _) =>
          if IsPacket .REQUEST c h packet ∧ routeOf c (s.tables r) = none then
            { g with unrouted := g.unrouted + 1 }
          else g
        | _ => g := by
  simp only [Ledger.update, Topology.getElem?_of_split hsplit]

omit [DecidableEq R] [Finite R] in
/-- There is none unless a request finds no route. -/
theorem update_deliver_of_not (hsplit : s.inFlight = before ++ ⟨.node r i, packet⟩ :: after)
    (hnot : ¬(IsPacket .REQUEST c h packet ∧ routeOf c (s.tables r) = none)) :
    g.update T c h s (.deliver before.length) = g := by
  rw [update_deliver hsplit]
  simp only [if_neg hnot]
  split <;> rfl

/-- A packet handled by a router keeps the balance. -/
theorem handle_balanced (hcard : Nat.card R ≤ 255) (hs : T.emptyNetwork.Reachable s)
    (hg : g.Balanced (outstanding c h s.inFlight))
    (hsplit : s.inFlight = before ++ ⟨.node r i, packet⟩ :: after) {t : Tables}
    {sent : List Sent}
    (hh : handlePacket (T.num_interfaces r) (s.tables r) ⟨packet, i⟩ = some (t, sent)) :
    (g.update T c h s (.deliver before.length)).Balanced
      (outstanding c h (before ++ after ++ T.send r sent)) := by
  rw [hsplit, outstanding_split] at hg
  rw [outstanding_append]
  by_cases he : Exchanged c h (⟨.node r i, packet⟩ : Envelope R H)
  · rw [if_pos he] at hg
    rcases handled_cases hcard hs hsplit he with ⟨t', j, e, hh', hfar, hnot⟩ |
      ⟨t', y, hh', hfar, hp, hroute⟩
    · -- sent on, once
      rw [hh] at hh'
      obtain ⟨rfl, rfl⟩ := Prod.mk.inj (Option.some.inj hh')
      rw [update_deliver_of_not hsplit hnot, Topology.send_singleton hfar,
        outstanding_singleton (exchanged_congr.mp he)]
      exact hg
    · -- dropped by the router of the host
      rw [hh] at hh'
      obtain ⟨rfl, rfl⟩ := Prod.mk.inj (Option.some.inj hh')
      rw [update_deliver hsplit, hfar]
      simp only [if_pos (And.intro hp hroute)]
      have hnothing : outstanding c h (T.send r []) = 0 := rfl
      rw [hnothing]
      unfold Ledger.Balanced at hg ⊢
      dsimp only
      omega
  · rw [if_neg he] at hg
    have hnothing : outstanding c h (T.send r sent) = 0 := by
      refine outstanding_eq_zero fun x hx hex => he ?_
      have hpacket := exchanged_of_sent hh hx hex
      unfold Exchanged at hex ⊢
      rw [hpacket] at hex
      exact hex
    rw [update_deliver_of_not hsplit fun hp => he (Or.inl hp.1), hnothing]
    exact hg

/-- No packet of the exchange makes a router throw. -/
theorem throws_balanced (hcard : Nat.card R ≤ 255) (hs : T.emptyNetwork.Reachable s)
    (hg : g.Balanced (outstanding c h s.inFlight))
    (hsplit : s.inFlight = before ++ ⟨.node r i, packet⟩ :: after)
    (hh : handlePacket (T.num_interfaces r) (s.tables r) ⟨packet, i⟩ = none) :
    (g.update T c h s (.deliver before.length)).Balanced (outstanding c h (before ++ after)) := by
  have he : ¬Exchanged c h (⟨.node r i, packet⟩ : Envelope R H) := by
    intro he
    rcases handled_cases hcard hs hsplit he with ⟨_, _, _, hh', -⟩ | ⟨_, _, hh', -⟩
    · rw [hh] at hh'
      cases hh'
    · rw [hh] at hh'
      cases hh'
  rw [hsplit, outstanding_split, if_neg he] at hg
  rw [update_deliver_of_not hsplit fun hp => he (Or.inl hp.1)]
  exact hg

omit [DecidableEq R] [Finite R] in
/-- A packet handled by a host keeps the balance. -/
theorem hostReceive_balanced {y : H} {hasFile : Bool}
    (hg : g.Balanced (outstanding c h s.inFlight))
    (hsplit : s.inFlight = before ++ ⟨.leaf y, packet⟩ :: after) :
    (g.update T c h s (.hostReceive before.length hasFile)).Balanced
      (outstanding c h (before ++ after ++ T.hostReply y hasFile packet)) := by
  rw [hsplit, outstanding_split] at hg
  rw [outstanding_append]
  simp only [Ledger.update, Topology.getElem?_of_split hsplit]
  by_cases hreq : IsPacket .REQUEST c h packet
  · have hin : Exchanged c h (⟨.leaf y, packet⟩ : Envelope R H) := Or.inl hreq
    rw [if_pos hin] at hg
    cases hasFile with
    | false =>
      rw [if_pos ⟨hreq, rfl⟩]
      have hnothing : outstanding c h (T.hostReply y false packet) = 0 := rfl
      rw [hnothing]
      unfold Ledger.Balanced at hg ⊢
      dsimp only
      omega
    | true =>
      have hnot : ¬IsPacket .RESPONSE c h packet := by
        intro hresp
        have ht := hresp.1
        rw [hreq.1] at ht
        cases ht
      have hreply : T.hostReply y true packet
          = [T.fromHost y (octets .RESPONSE packet.contentID packet.hostIDOrHops)] :=
        if_pos ⟨rfl, hreq.1⟩
      have hanswer : Exchanged c h
          (T.fromHost y (octets .RESPONSE packet.contentID packet.hostIDOrHops)) :=
        Or.inr ⟨ofOctet_octets .., hreq.2⟩
      rw [if_neg (fun hp => nomatch hp.2), if_neg hnot, hreply, outstanding_singleton hanswer]
      exact hg
  · rw [if_neg (fun hp => hreq hp.1)]
    have hnothing : outstanding c h (T.hostReply y hasFile packet) = 0 := by
      refine outstanding_eq_zero fun x hx hex => ?_
      obtain ⟨ht, rfl⟩ := Topology.mem_hostReply hx
      rcases hex with hex | hex
      · exact absurd hex.1 (octets_type_ne nofun)
      · exact hreq ⟨ht, hex.2⟩
    rw [hnothing]
    by_cases hresp : IsPacket .RESPONSE c h packet
    · have hin : Exchanged c h (⟨.leaf y, packet⟩ : Envelope R H) := Or.inr hresp
      rw [if_pos hin] at hg
      rw [if_pos hresp]
      unfold Ledger.Balanced at hg ⊢
      dsimp only
      omega
    · have hout : ¬Exchanged c h (⟨.leaf y, packet⟩ : Envelope R H) :=
        fun hex => hex.elim hreq hresp
      rw [if_neg hout] at hg
      rw [if_neg hresp]
      exact hg

/-- Every event keeps the balance. -/
theorem step_balanced {e : Event H} (hcard : Nat.card R ≤ 255) (hs : T.emptyNetwork.Reachable s)
    (hg : g.Balanced (outstanding c h s.inFlight)) (hstep : T.Step s e s') :
    (g.update T c h s e).Balanced (outstanding c h s'.inFlight) := by
  cases hstep with
  | announce y c' =>
    have hnothing : ¬Exchanged c h (T.fromHost y (octets .ANNOUNCEMENT c' 0)) :=
      not_exchanged_of_type (octets_type_ne nofun) (octets_type_ne nofun)
    show Ledger.Balanced g (outstanding c h (s.inFlight ++ [_]))
    rw [outstanding_split, if_neg hnothing, List.append_nil]
    exact hg
  | request y c' =>
    show Ledger.Balanced _ (outstanding c h (s.inFlight ++ [_]))
    rw [outstanding_split, List.append_nil]
    have hiff : Exchanged c h (T.fromHost y (octets .REQUEST c' (T.hostID y)))
        ↔ c' = c ∧ T.hostID y = h := by
      constructor
      · intro he
        rcases he with he | he
        · exact he.2
        · exact absurd he.1 (octets_type_ne nofun)
      · intro he
        exact Or.inl ⟨ofOctet_octets .., he⟩
    unfold Ledger.Balanced at hg ⊢
    simp only [Ledger.update, hiff]
    split
    · dsimp only
      omega
    · omega
  | handle hsplit hh => exact handle_balanced hcard hs hg hsplit hh
  | throws hsplit hh => exact throws_balanced hcard hs hg hsplit hh
  | hostReceive hasFile hsplit => exact hostReceive_balanced hg hsplit

end Step

/-! ## Every run -/

variable [DecidableEq R] [Finite R] {T : Topology R H} {s t : State R H} {c h : UInt8}
  {g g' : Ledger}

theorem reachable_balanced (hcard : Nat.card R ≤ 255) {sg : State R H × Ledger}
    (hs : (T.ledgerNetwork c h).Reachable sg) : sg.2.Balanced (outstanding c h sg.1.inFlight) := by
  induction hs with
  | @init sg hinit =>
    obtain ⟨s, g⟩ := sg
    obtain ⟨hs, hg⟩ := hinit
    obtain rfl : s = _ := hs
    obtain rfl : g = _ := hg
    rfl
  | @step sg sg' e hsg hstep ih =>
    obtain ⟨s', g'⟩ := sg'
    obtain ⟨hstep, rfl⟩ := hstep
    exact step_balanced hcard (observe_reachable hsg) ih (Topology.step_cases hstep)

/-- **The ledger balances in every reachable state.** -/
theorem ledger_balance (hcard : Nat.card R ≤ 255) (hs : (T.ledgerNetwork c h).Reachable (s, g)) :
    g.requested = outstanding c h s.inFlight + g.unrouted + g.unserved + g.answered :=
  reachable_balanced hcard hs

/-- The request of `lineRequest` has become a response at a router. -/
theorem ledger_balance_line :
    ∃ s g, (line.ledgerNetwork 7 10).Reachable (s, g) ∧ g.requested = 1 ∧ g.answered = 0 ∧
      g.requested = outstanding 7 10 s.inFlight + g.unrouted + g.unserved + g.answered := by
  have htrace : trace (observeStep line.step (Ledger.update line 7 10))
      (⟨fun _ => .empty, [], []⟩, ⟨0, 0, 0, 0⟩) lineRequest = some (_, _) := rfl
  have hrun := observe_run_of_trace htrace
  exact ⟨_, _, hrun.reachable, rfl, rfl, ledger_balance (by simp) hrun.reachable⟩

/-- A host that gets a request `(c, h)` has the file. -/
def Serves (c h : UInt8) (m : Move (State R H × Ledger) (Event H)) : Prop :=
  ∀ k z packet, m.act = .hostReceive k false →
    m.pre.1.inFlight[k]? = some ⟨.leaf z, packet⟩ → ¬IsPacket .REQUEST c h packet

omit [DecidableEq R] [Finite R] in
/-- Nothing is dropped when the routers of the hosts with ID `h` have a route
and the hosts serve. -/
theorem update_undropped {e : Event H} {s' : State R H}
    (hrouted : ∀ x ∈ s.inFlight, IsPacket .REQUEST c h x.packet → ∀ r i, x.dest = .node r i →
      (routeOf c (s.tables r)).isSome)
    (hserved : Serves c h ⟨(s, g), e, (s', g.update T c h s e)⟩) :
    (g.update T c h s e).unrouted = g.unrouted ∧ (g.update T c h s e).unserved = g.unserved := by
  cases e with
  | announce => exact ⟨rfl, rfl⟩
  | request x c' =>
    unfold Ledger.update
    dsimp only
    split <;> exact ⟨rfl, rfl⟩
  | deliver k =>
    cases hk : s.inFlight[k]? with
    | none => simp only [Ledger.update, hk, and_self]
    | some x =>
      obtain ⟨before, after, hsplit, rfl, -⟩ := Topology.split_at hk
      obtain ⟨dest, packet⟩ := x
      cases dest with
      | leaf y => simp only [Ledger.update, hk, and_self]
      | node r i =>
        rw [update_deliver_of_not hsplit]
        · exact ⟨rfl, rfl⟩
        · intro hp
          have hsome := hrouted _ (Topology.mem_split hsplit) hp.1 r i rfl
          rw [hp.2] at hsome
          cases hsome
  | hostReceive k hasFile =>
    unfold Ledger.update
    dsimp only
    split
    next y packet hk =>
      rw [if_neg]
      · split <;> exact ⟨rfl, rfl⟩
      · intro hp
        obtain ⟨hreq, rfl⟩ := hp
        exact hserved k y packet rfl hk hreq
    next => exact ⟨rfl, rfl⟩

/-- A request `(c, h)` at a router comes from the host with ID `h`, or finds a
route. -/
theorem request_routed (hcard : Nat.card R ≤ 255) (hinj : Function.Injective T.hostID) {y : H}
    (hs : T.emptyNetwork.Reachable s) (hroute : (routeOf c (s.tables (T.attach y).1)).isSome) :
    ∀ x ∈ s.inFlight, IsPacket .REQUEST c (T.hostID y) x.packet → ∀ r i, x.dest = .node r i →
      (routeOf c (s.tables r)).isSome := by
  intro x hx hp r i hdest
  rcases reachable_routable hcard hs x hx hp r i hdest with ⟨z, hfar⟩ | hsome
  · have hi : RetraceInv T c (T.hostID y) s := reachable_retraceInv (reachable_rerouted hs)
    have htraced := hi.traced x hx
    obtain ⟨dest, packet⟩ := x
    obtain rfl : dest = .node r i := hdest
    rcases htraced.1 hp with ⟨z', hfar', hz'⟩ | ⟨r', i', hfar', -⟩
    · obtain rfl := hinj hz'
      have hatt := T.leaf.mp hfar'
      rw [hatt] at hroute
      exact hroute
    · rw [hfar] at hfar'
      cases hfar'
  · exact hsome

/-- Along a run in which hosts serve, the router of `y` keeps a route and
nothing is dropped. -/
theorem run_undropped (hcard : Nat.card R ≤ 255) (hinj : Function.Injective T.hostID) {y : H}
    (ht : (T.ledgerNetwork c (T.hostID y)).Reachable (t, g))
    (hroute : (routeOf c (t.tables (T.attach y).1)).isSome)
    {ms : List (Move (State R H × Ledger) (Event H))} {sg : State R H × Ledger}
    (hrun : ((T.ledgerNetwork c (T.hostID y)).resume (t, g)).Run ms sg)
    (hserved : ∀ m ∈ ms, Serves c (T.hostID y) m) :
    (routeOf c (sg.1.tables (T.attach y).1)).isSome ∧ sg.2.unrouted = g.unrouted ∧
      sg.2.unserved = g.unserved := by
  induction hrun with
  | start hs =>
    obtain rfl : _ = _ := hs
    exact ⟨hroute, rfl, rfl⟩
  | @snoc ms sg sg' e hrun hs ih =>
    obtain ⟨hr, hunrouted, hunserved⟩ := ih fun m hm => hserved m (List.mem_append_left _ hm)
    have hlast := hserved _ List.mem_concat_self
    have hreach := observe_reachable (ht.resume hrun.reachable)
    obtain ⟨s', g'⟩ := sg'
    obtain ⟨hstep, rfl⟩ := hs
    obtain ⟨h1, h2⟩ := update_undropped (request_routed hcard hinj hreach hr) hlast
    refine ⟨step_route_isSome hcard hreach (Topology.step_cases hstep) hr, ?_, ?_⟩
    · exact h1.trans hunrouted
    · exact h2.trans hunserved

/-- **Every request is answered, once, and to the host that asked.** While the
router of host `y` has a route to `c`, and the hosts that the requests come to
have the file, each request of `y` adds one answer, now or later: answers and
exchanges under way go up by as many as there are requests, and responses come
to nobody else. -/
theorem requests_answered (hcard : Nat.card R ≤ 255) (hinj : Function.Injective T.hostID) {y : H}
    (ht : (T.ledgerNetwork c (T.hostID y)).Reachable (t, g))
    (hroute : (routeOf c (t.tables (T.attach y).1)).isSome)
    {ms : List (Move (State R H × Ledger) (Event H))}
    (hrun : ((T.ledgerNetwork c (T.hostID y)).resume (t, g)).Run ms (s, g'))
    (hserved : ∀ m ∈ ms, Serves c (T.hostID y) m) :
    g'.answered + outstanding c (T.hostID y) s.inFlight + g.requested
        = g.answered + outstanding c (T.hostID y) t.inFlight + g'.requested ∧
      ∀ m ∈ ms, ∀ x ∈ m.pre.1.inFlight, IsPacket .RESPONSE c (T.hostID y) x.packet →
        ∀ z, x.dest = .leaf z → z = y := by
  have hbefore := reachable_balanced hcard ht
  have hafter := reachable_balanced hcard (ht.resume hrun.reachable)
  obtain ⟨-, hunrouted, hunserved⟩ := run_undropped hcard hinj ht hroute hrun hserved
  unfold Ledger.Balanced at hbefore hafter
  dsimp only at hbefore hafter hunrouted hunserved
  refine ⟨by omega, fun m hm x hx hp z hz => ?_⟩
  have hreach := observe_reachable (ht.resume (hrun.move m hm).1)
  have hi : RetraceInv T c (T.hostID y) m.pre.1 := reachable_retraceInv (reachable_rerouted hreach)
  have htraced := hi.traced x hx
  obtain ⟨dest, packet⟩ := x
  obtain rfl : dest = .leaf z := hz
  exact hinj (htraced.2 hp)

/-- `line` after host 11 has announced content 7. -/
def lineAnnounced : State Bool Bool :=
  { tables :=
      Function.update (Function.update (fun _ => .empty) true ⟨[⟨7, 1, 0, 25⟩], []⟩) false
        ⟨[⟨7, 0, 1, 25⟩], []⟩
    inFlight := [⟨.leaf false, octets .ANNOUNCEMENT 7 2⟩]
    announced := [(true, 7)] }

/-- Host 10 requests content 7 of host 11 and gets its answer. -/
theorem requests_answered_line :
    ∃ ms s g', ((line.ledgerNetwork 7 10).resume (lineAnnounced, ⟨0, 0, 0, 0⟩)).Run ms (s, g') ∧
      g'.requested = 1 ∧ outstanding 7 10 s.inFlight = 0 ∧
        g'.answered + 0 + 0 = 0 + 0 + g'.requested := by
  have hbefore : trace (observeStep line.step (Ledger.update line 7 10))
      (⟨fun _ => .empty, [], []⟩, ⟨0, 0, 0, 0⟩) [.announce true 7, .deliver 0, .deliver 0]
      = some (_, (lineAnnounced, ⟨0, 0, 0, 0⟩)) := rfl
  have ht := (observe_run_of_trace hbefore).reachable
  have hafter : trace (observeStep line.step (Ledger.update line 7 10))
      (lineAnnounced, ⟨0, 0, 0, 0⟩)
      [.request false 7, .deliver 1, .deliver 1, .hostReceive 1 true, .deliver 1, .deliver 1,
        .hostReceive 1 true] = some (_, (_, _)) := rfl
  have hrun : ((line.ledgerNetwork 7 10).resume _).Run _ _ :=
    resume_run_of_trace ⟨fun _ => .empty, [], []⟩ ⟨0, 0, 0, 0⟩ hafter
  have hinj : Function.Injective line.hostID := by
    intro y z hyz
    revert y z
    decide
  refine ⟨_, _, _, hrun, rfl, rfl, (@requests_answered Bool Bool _ _ line _ _ 7 _ _ (by simp) hinj
    false ht rfl _ hrun ?_).1⟩
  intro m hm k z packet he
  revert m
  simp

end ContentNetwork.Network
