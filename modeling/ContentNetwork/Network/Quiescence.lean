import ContentNetwork.Network.FloodEnds
import ContentNetwork.Network.Ledger
import Mathlib.Algebra.Order.BigOperators.Group.List

/-!
# The network comes to rest

In a network that loses nothing, hosts keep it busy and nobody else: an
infinite run has infinitely many packets that hosts send by themselves
(`sends_forever`). Once they stop, what is in flight is handled and ends.

Announcements end as `floods_end` says, and only they change routes. So a
request is on a way that gets shorter (`weight`): each router has fewer hops
than the one before. It turns into a response at a host, and that follows a
trail of pending records, which only gets new branches. The order is
lexicographic: first the announcements in flight, then the sum of the weights.
-/

namespace ContentNetwork.Network

open Lib Lib.Lts Simplified

variable {R H : Type*}

/-- A host sends a packet by itself. -/
def Sends (e : Event H) : Prop :=
  ∃ h c, e = .announce h c ∨ e = .request h c

/-- The hop count of a router's route, or 0. -/
def hopsOf (c : UInt8) (t : Tables) : ℕ :=
  match routeOf c t with
  | some (hops, _) => hops.toNat
  | none => 0

/-- A bound on how often a request or response will still be handled. -/
noncomputable def weight (T : Topology R H) (tables : R → Tables) (x : Envelope R H) : ℕ :=
  match PacketTypes.ofOctet x.packet.packetType, x.dest with
  | some .REQUEST, .node r _ => Nat.card R + 3 + hopsOf x.packet.contentID (tables r)
  | some .REQUEST, .leaf _ => Nat.card R + 2
  | some .RESPONSE, .node r _ =>
    1 + T.trailLength (crumbs x.packet.contentID x.packet.hostIDOrHops tables) r
  | _, _ => 1

/-- The sum of the weights of the packets in flight. -/
noncomputable def load (T : Topology R H) (tables : R → Tables) (l : List (Envelope R H)) : ℕ :=
  (l.map (weight T tables)).sum

section Weight

variable {T : Topology R H} {tables tables' : R → Tables} {x : Envelope R H}
  {l l' before after : List (Envelope R H)}

theorem load_append : load T tables (l ++ l') = load T tables l + load T tables l' := by
  unfold load
  rw [List.map_append, List.sum_append]

theorem load_split : load T tables (before ++ x :: after)
    = load T tables (before ++ after) + weight T tables x := by
  unfold load
  simp only [List.map_append, List.map_cons, List.sum_append, List.sum_cons]
  omega

theorem load_singleton : load T tables [x] = weight T tables x := by
  simp [load]

theorem load_mono (h : ∀ x ∈ l, weight T tables' x ≤ weight T tables x) :
    load T tables' l ≤ load T tables l :=
  List.sum_le_sum h

theorem weight_pos : 0 < weight T tables x := by
  unfold weight
  split <;> omega

/-- The weight of a request at a router. -/
theorem weight_request {r : R} {i : Int} {packet : HeaderOctets}
    (ht : PacketTypes.ofOctet packet.packetType = some .REQUEST) :
    weight T tables ⟨.node r i, packet⟩
      = Nat.card R + 3 + hopsOf packet.contentID (tables r) := by
  simp only [weight, ht]

theorem weight_request_leaf {y : H} {packet : HeaderOctets}
    (ht : PacketTypes.ofOctet packet.packetType = some .REQUEST) :
    weight T tables ⟨.leaf y, packet⟩ = Nat.card R + 2 := by
  simp only [weight, ht]

theorem weight_response {r : R} {i : Int} {packet : HeaderOctets}
    (ht : PacketTypes.ofOctet packet.packetType = some .RESPONSE) :
    weight T tables ⟨.node r i, packet⟩
      = 1 + T.trailLength (crumbs packet.contentID packet.hostIDOrHops tables) r := by
  simp only [weight, ht]

theorem weight_response_leaf {y : H} {packet : HeaderOctets}
    (ht : PacketTypes.ofOctet packet.packetType = some .RESPONSE) :
    weight T tables ⟨.leaf y, packet⟩ = 1 := by
  simp only [weight, ht]

end Weight

/-! ## What a handled packet does to the load -/

section Handle

variable [DecidableEq R] {T : Topology R H} {s s' : State R H} {r : R} {i : Int}
  {packet : HeaderOctets} {before after : List (Envelope R H)} {t : Tables} {sent : List Sent}

/-- A packet that is no announcement leaves all routes. -/
theorem hopsOf_handled {c : UInt8}
    (hh : handlePacket (T.num_interfaces r) (s.tables r) ⟨packet, i⟩ = some (t, sent))
    (ht : PacketTypes.ofOctet packet.packetType ≠ some .ANNOUNCEMENT) (r' : R) :
    hopsOf c (Function.update s.tables r t r') = hopsOf c (s.tables r') := by
  by_cases hr : r' = r
  · rw [hr, Function.update_self]
    unfold hopsOf routeOf
    rw [(handlePacket_routing_of_type ht hh).1]
  · rw [Function.update_of_ne hr]

/-- It makes no packet in flight heavier. -/
theorem weight_handled (hs : T.emptyNetwork.Reachable s)
    (hh : handlePacket (T.num_interfaces r) (s.tables r) ⟨packet, i⟩ = some (t, sent))
    (ht : PacketTypes.ofOctet packet.packetType ≠ some .ANNOUNCEMENT) {x : Envelope R H}
    (hx : x ∈ s.inFlight) :
    weight T (Function.update s.tables r t) x ≤ weight T s.tables x := by
  obtain ⟨dest, p⟩ := x
  cases hp : PacketTypes.ofOctet p.packetType with
  | none => simp only [weight, hp, le_refl]
  | some type =>
    cases type with
    | ANNOUNCEMENT => simp only [weight, hp, le_refl]
    | REQUEST =>
      cases dest with
      | leaf y => rw [weight_request_leaf hp, weight_request_leaf hp]
      | node r' i' => rw [weight_request hp, weight_request hp, hopsOf_handled hh ht]
    | RESPONSE =>
      cases dest with
      | leaf y => rw [weight_response_leaf hp, weight_response_leaf hp]
      | node r' i' =>
        rw [weight_response hp, weight_response hp]
        have hi : RetraceInv T p.contentID p.hostIDOrHops s :=
          reachable_retraceInv (reachable_rerouted hs)
        have hcrumb := (hi.traced _ hx).2 ⟨hp, rfl, rfl⟩
        obtain ⟨l, y, htrail, -⟩ := hi.trail r' hcrumb
        have := Wiring.trailLength_mono (crumbs_mono hh) htrail
        omega

/-- A request that is sent on gets lighter: the next router has fewer hops. -/
theorem request_lighter [Finite R] (hcard : Nat.card R ≤ 255) (hs : T.emptyNetwork.Reachable s)
    (hh : handlePacket (T.num_interfaces r) (s.tables r) ⟨packet, i⟩ = some (t, sent))
    (ht : PacketTypes.ofOctet packet.packetType = some .REQUEST) :
    load T (Function.update s.tables r t) (T.send r sent)
      < weight T s.tables ⟨.node r i, packet⟩ := by
  rw [weight_request ht]
  cases hroute : routeOf packet.contentID (s.tables r) with
  | none =>
    obtain ⟨t', ht'⟩ := @handlePacket_noRoute (T.num_interfaces r) (s.tables r) ⟨packet, i⟩ ht
      (Option.map_eq_none_iff.mp hroute)
    rw [hh] at ht'
    obtain ⟨-, rfl⟩ := Prod.mk.inj (Option.some.inj ht')
    show 0 < _
    omega
  | some best =>
    obtain ⟨b, j⟩ := best
    obtain ⟨t', e, ht', hfar⟩ := @request_sent_on R H _ T s packet.contentID packet.hostIDOrHops r
      i packet _ hcard hs ⟨ht, rfl, rfl⟩ _ _ hroute
    rw [hh] at ht'
    obtain ⟨-, rfl⟩ := Prod.mk.inj (Option.some.inj ht')
    rw [Topology.send_singleton hfar, load_singleton]
    cases e with
    | leaf y =>
      rw [weight_request_leaf ht]
      omega
    | node r' i' =>
      have hnot : PacketTypes.ofOctet packet.packetType ≠ some .ANNOUNCEMENT := by
        rw [ht]
        exact nofun
      rw [weight_request ht, hopsOf_handled hh hnot]
      have hsound := (reachable_floodInv hcard hs packet.contentID).2.sound
      obtain ⟨b', j', hb', hlt⟩ := hsound.loop_free hroute hfar
      have hnat := hsound.nat r' b' j' hb'
      have hb' : routeOf packet.contentID (s.tables r') = some (b', j') := hb'
      have hhops : hopsOf packet.contentID (s.tables r) = b.toNat := by
        unfold hopsOf
        rw [hroute]
      have hhops' : hopsOf packet.contentID (s.tables r') = b'.toNat := by
        unfold hopsOf
        rw [hb']
      omega

/-- A response that is sent on gets lighter: the trail is one router shorter. -/
theorem response_lighter (hs : T.emptyNetwork.Reachable s)
    (hsplit : s.inFlight = before ++ ⟨.node r i, packet⟩ :: after)
    (hh : handlePacket (T.num_interfaces r) (s.tables r) ⟨packet, i⟩ = some (t, sent))
    (ht : PacketTypes.ofOctet packet.packetType = some .RESPONSE) :
    load T (Function.update s.tables r t) (T.send r sent)
      < weight T s.tables ⟨.node r i, packet⟩ := by
  have hi : RetraceInv T packet.contentID packet.hostIDOrHops s :=
    reachable_retraceInv (reachable_rerouted hs)
  have hp : IsPacket .RESPONSE packet.contentID packet.hostIDOrHops packet := ⟨ht, rfl, rfl⟩
  have hcrumb := (hi.traced _ (Topology.mem_split hsplit)).2 hp
  obtain ⟨l, y, htrail, -⟩ := hi.trail r hcrumb
  obtain ⟨t', j, e, ht', hfar⟩ := @response_sent_on R H T s _ _ r i packet hi hp hcrumb
  rw [hh] at ht'
  obtain ⟨-, rfl⟩ := Prod.mk.inj (Option.some.inj ht')
  obtain ⟨rfl, hsent⟩ := handlePacket_response ht hh
  have hj := (hsent _ (List.mem_singleton_self _)).2
  rw [Function.update_eq_self, Topology.send_singleton hfar, load_singleton, weight_response ht]
  have hpos := Wiring.trailLength_pos htrail
  cases e with
  | leaf z =>
    rw [weight_response_leaf ht]
    omega
  | node r' i' =>
    rw [weight_response ht]
    have := Wiring.trailLength_lt htrail hj hfar
    omega

/-- What a host answers is lighter than the request. -/
theorem hostReply_lighter [Finite R] (hs : T.emptyNetwork.Reachable s) {y : H} {hasFile : Bool}
    (hsplit : s.inFlight = before ++ ⟨.leaf y, packet⟩ :: after) :
    load T s.tables (T.hostReply y hasFile packet) < weight T s.tables ⟨.leaf y, packet⟩ := by
  unfold Topology.hostReply
  split
  next hreq =>
    rw [load_singleton, weight_request_leaf hreq.2]
    have hi : RetraceInv T packet.contentID packet.hostIDOrHops s :=
      reachable_retraceInv (reachable_rerouted hs)
    have hcrumb := (hi.traced _ (Topology.mem_split hsplit)).1 ⟨hreq.2, rfl, rfl⟩
    obtain ⟨l, z, htrail, -⟩ := hi.trail _ hcrumb
    have hlen := Wiring.trailLength_le_card htrail
    have hweight : weight T s.tables
        (T.fromHost y (octets .RESPONSE packet.contentID packet.hostIDOrHops))
        = 1 + T.trailLength (crumbs packet.contentID packet.hostIDOrHops s.tables)
          (T.attach y).1 := weight_response (ofOctet_octets ..)
    omega
  next => exact weight_pos

/-- Every event in which no host sends by itself and no announcement is handled
by a router lightens the load. -/
theorem step_lighter [Finite R] (hcard : Nat.card R ≤ 255) (hs : T.emptyNetwork.Reachable s)
    {e : Event H} (h : T.Step s e s') (hd : ¬HandlesAnnouncement s e) (hsends : ¬Sends e) :
    load T s'.tables s'.inFlight < load T s.tables s.inFlight := by
  cases h with
  | announce y c => exact absurd ⟨y, c, Or.inl rfl⟩ hsends
  | request y c => exact absurd ⟨y, c, Or.inr rfl⟩ hsends
  | @handle before after r i packet t sent hsplit hh =>
    have ht : PacketTypes.ofOctet packet.packetType ≠ some .ANNOUNCEMENT := by
      intro ht
      exact hd ⟨before.length, r, i, packet, rfl, Topology.getElem?_of_split hsplit, ht⟩
    have hstay : load T (Function.update s.tables r t) (before ++ after)
        ≤ load T s.tables (before ++ after) :=
      load_mono fun x hx => weight_handled hs hh ht (Topology.mem_of_split hsplit hx)
    have hsent : load T (Function.update s.tables r t) (T.send r sent)
        < weight T s.tables ⟨.node r i, packet⟩ := by
      cases htype : PacketTypes.ofOctet packet.packetType with
      | none =>
        obtain ⟨-, rfl⟩ := handlePacket_default htype hh
        exact weight_pos
      | some type =>
        cases type with
        | REQUEST => exact request_lighter hcard hs hh htype
        | RESPONSE => exact response_lighter hs hsplit hh htype
        | ANNOUNCEMENT => exact absurd htype ht
    show load T (Function.update s.tables r t) (before ++ after ++ T.send r sent) < _
    rw [load_append, hsplit, load_split]
    omega
  | @throws before after r i packet hsplit hh =>
    show load T s.tables (before ++ after) < _
    have hpos := @weight_pos R H T s.tables ⟨.node r i, packet⟩
    rw [hsplit, load_split]
    omega
  | @hostReceive before after y packet hasFile hsplit =>
    show load T s.tables (before ++ after ++ T.hostReply y hasFile packet) < _
    have hreply := @hostReply_lighter R H _ T s packet before after _ hs y hasFile hsplit
    rw [load_append, hsplit, load_split]
    omega

end Handle

/-! ## Every run -/

variable [DecidableEq R] [Finite R] {T : Topology R H} {s s' : State R H} {e : Event H}

/-- The announcements in flight, and the load of the rest. -/
noncomputable def measure (T : Topology R H) (s : State R H) : Multiset ℕ × ℕ :=
  (bag hopsLeft s.inFlight, load T s.tables s.inFlight)

/-- The lexicographic order of the measure. -/
def Lighter : Multiset ℕ × ℕ → Multiset ℕ × ℕ → Prop :=
  Prod.Lex Multiset.IsDershowitzMannaLT (· < ·)

theorem lighter_wellFounded : WellFounded Lighter :=
  Multiset.wellFounded_isDershowitzMannaLT.prod_lex wellFounded_lt

/-- Every event but a host's own sending descends. -/
theorem step_measure (hcard : Nat.card R ≤ 255) (hs : T.emptyNetwork.Reachable s)
    (h : T.Step s e s') (hsends : ¬Sends e) : Lighter (measure T s') (measure T s) := by
  by_cases hd : HandlesAnnouncement s e
  · obtain ⟨-, hflood⟩ := reachable_floods hcard uniqueTables_empty hs
    exact Prod.Lex.left _ _ (step_descends hcard hflood h hd)
  · have hannounces : ¬Announces e := by
      intro ha
      obtain ⟨y, c, rfl⟩ := ha
      exact hsends ⟨y, c, Or.inl rfl⟩
    unfold measure
    rw [step_stays h hd hannounces]
    exact Prod.Lex.right _ (step_lighter hcard hs h hd hsends)

/-- **Only hosts keep the network busy.** In every infinite run, hosts send
packets by themselves again and again. -/
theorem sends_forever (hcard : Nat.card R ≤ 255) {x : ℕ → State R H} {e : ℕ → Event H}
    (hrun : T.emptyNetwork.Execution x e) : {k | Sends (e k)}.Infinite := by
  intro hfinite
  have hrest : {k | ¬Sends (e k)}.Finite := by
    refine Execution.finite_of_wellFounded lighter_wellFounded (measure T) (fun _ e => ¬Sends e)
      (fun _ e => Sends e) ?_ ?_ hrun hfinite
    · intro s e s' hs hstep hd
      exact step_measure hcard hs (Topology.step_cases hstep) hd
    · intro s e s' _ _ hd hsends
      exact absurd hsends hd
  have hall : (Set.univ : Set ℕ).Finite := by
    refine (hfinite.union hrest).subset fun k _ => ?_
    exact em (Sends (e k))
  exact Set.infinite_univ hall

/-- All that is sent is delivered, and host `false` asks again each time. -/
theorem sends_forever_line :
    ∃ x e, line.emptyNetwork.Execution x e ∧ (∀ k, e (k + 1) = serveFirst (x (k + 1))) ∧
      {k | Sends (e k)}.Infinite := by
  obtain ⟨x, e, hrun, hnext, -⟩ := exists_lineExecution
  exact ⟨x, e, hrun, hnext, sends_forever (by simp) hrun⟩

end ContentNetwork.Network
