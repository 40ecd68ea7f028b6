import ContentNetwork.Network.Topology

/-!
# Responses retrace the path of the request

A router that handles a request `(c, h)` for the first time records the
interface it came in on, and forwards it wherever the routing table says. The
records for `(c, h)` are crumbs: a new one points to a router that has had
one, or to host `h` itself, and without the timer none is changed or lost. So
from any router with a record they lead, over distinct routers, to host `h`
(`RetraceInv`), whatever the routes were when each of them was made.

`reroutedNetwork` lets the routing tables be anything at the start and change
to anything at any time. `responses_retrace` says that a response is only ever
delivered to the host that asked, and that every router on its way sends it
on, once. Tables of the code name configured interfaces only; its changes of
routes are those of `configuredNetwork`, where `at` never throws
(`configuredNetwork_never_throws`).
-/

namespace ContentNetwork.Network

open Lib Simplified

variable {R H : Type*} [DecidableEq R]

/-- The network with arbitrary changes of the routing tables: nothing is
pending or in flight at the start. -/
def Topology.reroutedNetwork (T : Topology R H) :
    Lts (State R H) (Event H ⊕ R × List RTrecord) where
  init s := (∀ r, (s.tables r).PendingRequestTable = []) ∧ s.inFlight = [] ∧ s.announced = []
  step s e s' :=
    match e with
    | .inl e => T.step s e = some s'
    | .inr (r, l) =>
      s' = { s with tables := Function.update s.tables r { s.tables r with RoutingTable := l } }

/-- A packet of type `t` with content `c` and host or hops `h`. -/
def IsPacket (t : PacketTypes) (c h : UInt8) (p : HeaderOctets) : Prop :=
  PacketTypes.ofOctet p.packetType = some t ∧ p.contentID = c ∧ p.hostIDOrHops = h

/-- The interface of each router's pending record for `(c, h)`. -/
def crumbs (c h : UInt8) (tables : R → Tables) (r : R) : Option Int :=
  pendingInterface (c.toNat, h.toNat) (tables r)

/-- A request `(c, h)` on its way to a router comes from host `h` or from a
router with a record, and one on its way to a host from a router with a
record. A response on its way to a router finds a record there, and one on
its way to a host is at host `h`. -/
def Traced (T : Topology R H) (c h : UInt8) (crumb : R → Option Int) (x : Envelope R H) : Prop :=
  (IsPacket .REQUEST c h x.packet →
    match x.dest with
    | .node r i => (∃ y, T.far r i = some (.leaf y) ∧ T.hostID y = h) ∨
        ∃ r' i', T.far r i = some (.node r' i') ∧ (crumb r').isSome
    | .leaf y => (crumb (T.attach y).1).isSome) ∧
  (IsPacket .RESPONSE c h x.packet →
    match x.dest with
    | .node r _ => (crumb r).isSome
    | .leaf y => T.hostID y = h)

/-- The records for `(c, h)` lead to host `h`, and so do the packets. -/
structure RetraceInv (T : Topology R H) (c h : UInt8) (s : State R H) : Prop where
  trail : ∀ r, (crumbs c h s.tables r).isSome →
    ∃ l y, T.Trail (crumbs c h s.tables) r l y ∧ T.hostID y = h
  traced : ∀ x ∈ s.inFlight, Traced T c h (crumbs c h s.tables) x

variable {T : Topology R H} {c h : UInt8} {s s' : State R H} {x : Envelope R H}
  {crumb crumb' : R → Option Int}

omit [DecidableEq R] in
/-- More records keep a packet traced. -/
theorem Traced.mono (hmono : ∀ r i, crumb r = some i → crumb' r = some i)
    (hx : Traced T c h crumb x) : Traced T c h crumb' x := by
  have hsome : ∀ r, (crumb r).isSome → (crumb' r).isSome := by
    intro r hr
    obtain ⟨i, hi⟩ := Option.isSome_iff_exists.mp hr
    rw [hmono r i hi]
    rfl
  obtain ⟨dest, packet⟩ := x
  obtain ⟨hreq, hresp⟩ := hx
  cases dest with
  | node r i =>
    refine ⟨fun hp => ?_, fun hp => hsome r (hresp hp)⟩
    rcases hreq hp with hleaf | ⟨r', i', hfar, hr'⟩
    · exact Or.inl hleaf
    · exact Or.inr ⟨r', i', hfar, hsome r' hr'⟩
  | leaf y => exact ⟨fun hp => hsome _ (hreq hp), hresp⟩

omit [DecidableEq R] in
/-- A packet of another type is traced. -/
theorem traced_of_type (h1 : PacketTypes.ofOctet x.packet.packetType ≠ some .REQUEST)
    (h2 : PacketTypes.ofOctet x.packet.packetType ≠ some .RESPONSE) : Traced T c h crumb x :=
  ⟨fun hp => absurd hp.1 h1, fun hp => absurd hp.1 h2⟩

omit [DecidableEq R] in
theorem requestKey_eq {p : HeaderOctets} :
    p.requestKey = ((c.toNat : Int), (h.toNat : Int)) ↔ p.contentID = c ∧ p.hostIDOrHops = h := by
  unfold HeaderOctets.requestKey HeaderOctets.ContentID HeaderOctets.hostOrHops
  rw [Prod.mk.injEq, Int.natCast_inj, Int.natCast_inj, UInt8.toNat_inj, UInt8.toNat_inj]

/-! ## One router -/

section Handle

variable {before after : List (Envelope R H)} {r : R} {i : Int} {packet : HeaderOctets}
  {t : Tables} {sent : List Sent}

/-- The records for `(c, h)` after router `r` has handled a packet. -/
theorem crumbs_handle
    (hh : handlePacket (T.num_interfaces r) (s.tables r) ⟨packet, i⟩ = some (t, sent)) :
    crumbs c h (Function.update s.tables r t) = crumbs c h s.tables ∨
      (IsPacket .REQUEST c h packet ∧ crumbs c h s.tables r = none ∧
        crumbs c h (Function.update s.tables r t)
          = Function.update (crumbs c h s.tables) r (some i)) := by
  have hupdate : crumbs c h (Function.update s.tables r t)
      = Function.update (crumbs c h s.tables) r (pendingInterface (c.toNat, h.toNat) t) := by
    exact Function.comp_update (pendingInterface (c.toNat, h.toNat)) s.tables r t
  rw [hupdate]
  rcases handlePacket_pending hh with hsame | ⟨ht, hkey, hnone, hsome⟩
  · rw [hsame]
    exact Or.inl (Function.update_eq_self r _)
  · rw [hsome]
    exact Or.inr ⟨⟨ht, requestKey_eq.mp hkey⟩, hnone, rfl⟩

/-- A router that handles a packet keeps the records it had. -/
theorem crumbs_mono
    (hh : handlePacket (T.num_interfaces r) (s.tables r) ⟨packet, i⟩ = some (t, sent)) :
    ∀ r' j, crumbs c h s.tables r' = some j →
      crumbs c h (Function.update s.tables r t) r' = some j := by
  intro r' j hj
  rcases crumbs_handle hh with hsame | ⟨-, hnone, hsome⟩
  · rw [hsame]
    exact hj
  · rw [hsome]
    by_cases hr : r' = r
    · rw [hr, hnone] at hj
      cases hj
    · rw [Function.update_of_ne hr]
      exact hj

/-- The new record of a router leads to host `h`, as all others do. -/
theorem handle_trail (hi : RetraceInv T c h s)
    (hsplit : s.inFlight = before ++ ⟨.node r i, packet⟩ :: after)
    (hh : handlePacket (T.num_interfaces r) (s.tables r) ⟨packet, i⟩ = some (t, sent)) (r' : R)
    (hr' : (crumbs c h (Function.update s.tables r t) r').isSome) :
    ∃ l y, T.Trail (crumbs c h (Function.update s.tables r t)) r' l y ∧ T.hostID y = h := by
  have hmono := @crumbs_mono R H _ T c h s r i packet t sent hh
  have hold : (crumbs c h s.tables r').isSome →
      ∃ l y, T.Trail (crumbs c h (Function.update s.tables r t)) r' l y ∧ T.hostID y = h := by
    intro hr
    obtain ⟨l, y, htrail, hy⟩ := hi.trail r' hr
    exact ⟨l, y, htrail.mono hmono, hy⟩
  rcases crumbs_handle hh with hsame | ⟨hp, hnone, hsome⟩
  · rw [hsame] at hr'
    exact hold hr'
  · by_cases hr : r' = r
    · -- the record made now: from host `h`, or behind a router that has one
      subst hr
      have hnew : crumbs c h (Function.update s.tables r' t) r' = some i := by
        rw [hsome, Function.update_self]
      have htraced := hi.traced _ (Topology.mem_split hsplit)
      rcases htraced.1 hp with ⟨y, hfar, hy⟩ | ⟨r'', i'', hfar, hr''⟩
      · exact ⟨[r'], y, .last hnew hfar, hy⟩
      · obtain ⟨l, y, htrail, hy⟩ := hi.trail r'' hr''
        exact ⟨r' :: l, y, htrail.extend hmono hnone hnew hfar, hy⟩
    · rw [hsome, Function.update_of_ne hr] at hr'
      exact hold hr'

/-- A request that a router forwards is traced: the router has a record by
now. -/
theorem request_traced
    (hh : handlePacket (T.num_interfaces r) (s.tables r) ⟨packet, i⟩ = some (t, sent))
    (htype : PacketTypes.ofOctet packet.packetType = some .REQUEST) (hx : x ∈ T.send r sent) :
    Traced T c h (crumbs c h (Function.update s.tables r t)) x := by
  obtain ⟨j, hmem, hfar⟩ := Topology.mem_send hx
  have hpacket : x.packet = packet := ((handlePacket_request htype hh).2.2 _ hmem).1
  obtain ⟨dest, packet'⟩ := x
  dsimp only at hpacket hfar
  subst hpacket
  refine ⟨fun hp => ?_, fun hp => ?_⟩
  · have hr : (crumbs c h (Function.update s.tables r t) r).isSome := by
      have hsome := handlePacket_request_pending htype hh
      have hkey : (⟨packet', i⟩ : Message)._recvPacket.requestKey
          = ((c.toNat : Int), (h.toNat : Int)) := requestKey_eq.mpr hp.2
      rw [hkey] at hsome
      unfold crumbs
      rw [Function.update_self]
      exact hsome
    cases dest with
    | node r' i' => exact Or.inr ⟨r, j, T.symm hfar, hr⟩
    | leaf y =>
      have hatt := T.leaf.mp hfar
      show (crumbs c h (Function.update s.tables r t) (T.attach y).1).isSome
      rw [hatt]
      exact hr
  · rw [hp.1] at htype
    cases htype

/-- A response that a router sends on is traced: it goes where the record of
the router leads. -/
theorem response_traced (hi : RetraceInv T c h s)
    (hh : handlePacket (T.num_interfaces r) (s.tables r) ⟨packet, i⟩ = some (t, sent))
    (htype : PacketTypes.ofOctet packet.packetType = some .RESPONSE) (hx : x ∈ T.send r sent) :
    Traced T c h (crumbs c h (Function.update s.tables r t)) x := by
  obtain ⟨j, hmem, hfar⟩ := Topology.mem_send hx
  obtain ⟨rfl, hsent⟩ := handlePacket_response htype hh
  obtain ⟨hpacket, hpending⟩ := hsent _ hmem
  obtain ⟨dest, packet'⟩ := x
  dsimp only at hpacket hfar hpending
  subst hpacket
  refine ⟨fun hp => ?_, fun hp => ?_⟩
  · rw [hp.1] at htype
    cases htype
  · have hkey : (⟨packet', i⟩ : Message)._recvPacket.requestKey
        = ((c.toNat : Int), (h.toNat : Int)) := requestKey_eq.mpr hp.2
    rw [hkey] at hpending
    have hcrumb : crumbs c h s.tables r = some j := hpending
    rw [Function.update_eq_self]
    obtain ⟨l, y, htrail, hy⟩ := hi.trail r (by rw [hcrumb]; rfl)
    cases dest with
    | node r' i' =>
      obtain ⟨l', -, htrail'⟩ := htrail.to_node hcrumb hfar
      exact htrail'.head_isSome
    | leaf y' =>
      obtain rfl := htrail.to_leaf hcrumb hfar
      exact hy

/-- What a router sends is traced. -/
theorem handle_traced (hi : RetraceInv T c h s)
    (hh : handlePacket (T.num_interfaces r) (s.tables r) ⟨packet, i⟩ = some (t, sent))
    (hx : x ∈ T.send r sent) : Traced T c h (crumbs c h (Function.update s.tables r t)) x := by
  cases htype : PacketTypes.ofOctet packet.packetType with
  | none =>
    obtain ⟨j, hmem, -⟩ := Topology.mem_send hx
    rw [(handlePacket_default htype hh).2] at hmem
    exact absurd hmem List.not_mem_nil
  | some type =>
    cases type with
    | REQUEST => exact request_traced hh htype hx
    | RESPONSE => exact response_traced hi hh htype hx
    | ANNOUNCEMENT =>
      obtain ⟨j, hmem, -⟩ := Topology.mem_send hx
      have hpacket : x.packet = packet.nextHop := handlePacket_announcement_sent htype hh _ hmem
      have ht : PacketTypes.ofOctet x.packet.packetType = some .ANNOUNCEMENT := hpacket ▸ htype
      refine traced_of_type ?_ ?_ <;> rw [ht] <;> decide

end Handle

/-! ## Every run -/

/-- No event changes or removes a record. -/
theorem step_crumbs_mono {e : Event H ⊕ R × List RTrecord} (hstep : T.reroutedNetwork.step s e s') :
    ∀ r i, crumbs c h s.tables r = some i → crumbs c h s'.tables r = some i := by
  cases e with
  | inl e =>
    cases Topology.step_cases hstep with
    | handle _ hh => exact crumbs_mono hh
    | announce => exact fun _ _ hc => hc
    | request => exact fun _ _ hc => hc
    | throws => exact fun _ _ hc => hc
    | hostReceive => exact fun _ _ hc => hc
  | inr e =>
    obtain ⟨r, l⟩ := e
    intro r' i hc
    have hstep : s' = _ := hstep
    rw [hstep]
    unfold crumbs
    by_cases hr : r' = r
    · subst hr
      dsimp only
      rw [Function.update_self]
      exact hc
    · dsimp only
      rw [Function.update_of_ne hr]
      exact hc

theorem crumbs_reroute (r : R) (l : List RTrecord) :
    crumbs c h (Function.update s.tables r { s.tables r with RoutingTable := l })
      = crumbs c h s.tables := by
  funext r'
  unfold crumbs
  by_cases hr : r' = r
  · rw [hr, Function.update_self]
    rfl
  · rw [Function.update_of_ne hr]

theorem step_retraceInv {e : Event H ⊕ R × List RTrecord} (hi : RetraceInv T c h s)
    (hstep : T.reroutedNetwork.step s e s') : RetraceInv T c h s' := by
  cases e with
  | inr e =>
    obtain ⟨r, l⟩ := e
    have hstep : s' = _ := hstep
    rw [hstep]
    have hsame := @crumbs_reroute R H _ c h s r l
    refine ⟨?_, ?_⟩
    · dsimp only
      rw [hsame]
      exact hi.trail
    · dsimp only
      rw [hsame]
      exact hi.traced
  | inl e =>
    cases Topology.step_cases hstep with
    | announce y c' =>
      refine ⟨hi.trail, Keyed.forall_push hi.traced ?_⟩
      exact traced_of_type (octets_type_ne (by decide)) (octets_type_ne (by decide))
    | request y c' =>
      refine ⟨hi.trail, Keyed.forall_push hi.traced ?_⟩
      exact ⟨fun hp => Or.inl ⟨y, T.far_attach y, hp.2.2⟩,
        fun hp => absurd hp.1 (octets_type_ne (by decide))⟩
    | @handle before after r i packet t sent hsplit hh =>
      refine ⟨handle_trail hi hsplit hh, fun x hx => ?_⟩
      rcases List.mem_append.mp hx with hx | hx
      · exact (hi.traced x (Topology.mem_of_split hsplit hx)).mono (crumbs_mono hh)
      · exact handle_traced hi hh hx
    | @throws before after r i packet hsplit hh =>
      exact ⟨hi.trail, fun x hx => hi.traced x (Topology.mem_of_split hsplit hx)⟩
    | @hostReceive before after y packet hasFile hsplit =>
      refine ⟨hi.trail, fun x hx => ?_⟩
      rcases List.mem_append.mp hx with hx | hx
      · exact hi.traced x (Topology.mem_of_split hsplit hx)
      · -- the host echoes content and host ID of a request that came through its router
        obtain ⟨htype, rfl⟩ := Topology.mem_hostReply hx
        have hin := hi.traced _ (Topology.mem_split hsplit)
        exact ⟨fun hp => absurd hp.1 (octets_type_ne (by decide)),
          fun hp => hin.1 ⟨htype, hp.2⟩⟩

theorem reachable_retraceInv (hs : T.reroutedNetwork.Reachable s) : RetraceInv T c h s := by
  refine hs.invariant ?_ ?_
  · intro s hinit
    obtain ⟨hpending, hflight, -⟩ := hinit
    refine ⟨fun r hr => ?_, fun x hx => ?_⟩
    · unfold crumbs pendingInterface at hr
      rw [hpending r] at hr
      cases hr
    · rw [hflight] at hx
      exact absurd hx List.not_mem_nil
  · intro s e s' hi hstep
    exact step_retraceInv hi hstep

/-! ## The way of a response -/

/-- `y` is the host with ID `h`. -/
def IsHost (T : Topology R H) (h : UInt8) (y : H) : Prop :=
  T.hostID y = h ∧ ∀ z, T.hostID z = h → z = y

/-- The records for `(c, h)` lead from router `r` over distinct routers to host
`y`. A response at `r` can be sent on; it is sent on at most once per router of
the trail; every router it comes to sends it on, once, whenever it does; and
the only host it comes to is `y`. -/
def ReturnsTo (T : Topology R H) (c h : UInt8) (s : State R H) (r : R) (y : H) : Prop :=
  ∃ l, T.Trail (crumbs c h s.tables) r l y ∧ l.Nodup ∧
    (∃ e, T.SendsOn (octets .RESPONSE c h) s r e) ∧
    ∀ k s' e, Journey T.reroutedNetwork (T.SendsOn (octets .RESPONSE c h)) s r k s' e →
      k ≤ l.length ∧
        match e with
        | .node r' _ => ∀ s'', T.reroutedNetwork.Leads s' s'' →
            ∃ e', T.SendsOn (octets .RESPONSE c h) s'' r' e'
        | .leaf y' => y' = y

theorem leads_trail {r : R} {l : List R} {y : H} (hl : T.reroutedNetwork.Leads s s')
    (ht : T.Trail (crumbs c h s.tables) r l y) : T.Trail (crumbs c h s'.tables) r l y := by
  induction hl with
  | refl => exact ht
  | step _ hstep ih => exact ih.mono (step_crumbs_mono hstep)

omit [DecidableEq R] in
/-- A router with a record sends a response on through its interface. -/
theorem sendsOn_of_crumb {r : R} {i : Int} {e : Far R Int H}
    (hc : crumbs c h s.tables r = some i) (hfar : T.far r i = some e) :
    T.SendsOn (octets .RESPONSE c h) s r e := by
  intro j
  obtain ⟨h0, h1⟩ := T.in_range hfar
  refine ⟨_, _, handlePacket_retrace (ofOctet_octets ..) hc h0 h1, Topology.send_singleton hfar⟩

omit [DecidableEq R] in
theorem crumb_of_sendsOn {r : R} {e : Far R Int H}
    (hs : T.SendsOn (octets .RESPONSE c h) s r e) :
    ∃ i, crumbs c h s.tables r = some i ∧ T.far r i = some e := by
  obtain ⟨t, sent, i, ht, hmem, hfar⟩ := hs.exists_sent
  exact ⟨i, ((handlePacket_response (ofOctet_octets ..) ht).2 _ hmem).2, hfar⟩

omit [DecidableEq R] in
/-- The first router of a trail sends a response on. -/
theorem exists_sendsOn {r : R} {l : List R} {y : H} (ht : T.Trail (crumbs c h s.tables) r l y) :
    ∃ e, T.SendsOn (octets .RESPONSE c h) s r e := by
  obtain ⟨i, hi, hnext⟩ := ht.uncons
  rcases hnext with ⟨-, hfar⟩ | ⟨r', i', l', hfar, -, -⟩
  · exact ⟨_, sendsOn_of_crumb hi hfar⟩
  · exact ⟨_, sendsOn_of_crumb hi hfar⟩

/-- A trail is the way of every response. -/
theorem returnsTo_of_trail {r : R} {l : List R} {y : H} (hs : T.reroutedNetwork.Reachable s)
    (ht : T.Trail (crumbs c h s.tables) r l y) : ReturnsTo T c h s r y := by
  refine ⟨l, ht, ht.nodup, exists_sendsOn ht, fun k s' e hj => ?_⟩
  have hpos := ht.length_pos
  have hbounded := @Journey.bounded R Int H _ _ T.reroutedNetwork
    (T.SendsOn (octets .RESPONSE c h))
    (fun s r n => ∃ l, T.Trail (crumbs c h s.tables) r l y ∧ l.length ≤ n + 1) (fun _ y' => y' = y)
    ?_ ?_ ?_ s s' r k (l.length - 1) e hs ⟨l, ht, by omega⟩ hj
  · obtain ⟨-, hk, hend⟩ := hbounded
    refine ⟨by omega, ?_⟩
    cases e with
    | node r' i' =>
      obtain ⟨m, -, l', ht', -⟩ := hend
      intro s'' hl
      exact exists_sendsOn (leads_trail hl ht')
    | leaf y' => exact hend
  · intro s s' r n _ hl hb
    obtain ⟨l, ht, hlen⟩ := hb
    exact ⟨l, leads_trail hl ht, hlen⟩
  · intro s r n r' i' _ hb hsend
    obtain ⟨l, ht, hlen⟩ := hb
    obtain ⟨i, hi, hfar⟩ := crumb_of_sendsOn hsend
    obtain ⟨l', hlen', ht'⟩ := ht.to_node hi hfar
    have hpos' := ht'.length_pos
    exact ⟨n - 1, by omega, l', ht', by omega⟩
  · intro s r n y' _ hb hsend
    obtain ⟨l, ht, hlen⟩ := hb
    obtain ⟨i, hi, hfar⟩ := crumb_of_sendsOn hsend
    exact ht.to_leaf hi hfar

/-- A record for `(c, h)` leads back to the host with ID `h`. -/
theorem returnsTo_of_crumb (hinj : Function.Injective T.hostID)
    (hs : T.reroutedNetwork.Reachable s) {r : R} (hr : (crumbs c h s.tables r).isSome) :
    ∃ y, IsHost T h y ∧ ReturnsTo T c h s r y := by
  obtain ⟨l, y, ht, hy⟩ := (reachable_retraceInv hs).trail r hr
  exact ⟨y, ⟨hy, fun z hz => hinj (hz.trans hy.symm)⟩, returnsTo_of_trail hs ht⟩

/-- **Responses retrace the path of their request.** From every router with a
record for `(c, h)` the records lead to host `h`, and so does the way of a
response; every response in flight is on such a way, or has come to host
`h`. -/
theorem responses_retrace (hinj : Function.Injective T.hostID)
    (hs : T.reroutedNetwork.Reachable s) (c h : UInt8) :
    (∀ r, ∀ record ∈ (s.tables r).PendingRequestTable,
      record.key = ((c.toNat : Int), (h.toNat : Int)) →
        ∃ y, IsHost T h y ∧ ReturnsTo T c h s r y) ∧
    ∀ x ∈ s.inFlight, IsPacket .RESPONSE c h x.packet →
      match x.dest with
      | .node r _ => ∃ y, IsHost T h y ∧ ReturnsTo T c h s r y
      | .leaf y => IsHost T h y := by
  refine ⟨fun r record hmem hkey => ?_, fun x hx hp => ?_⟩
  · refine returnsTo_of_crumb hinj hs ?_
    unfold crumbs pendingInterface
    rw [Option.isSome_map, Keyed.lookup_isSome]
    exact ⟨record, hmem, hkey⟩
  · have htraced := ((reachable_retraceInv hs).traced x hx).2 hp
    obtain ⟨dest, packet⟩ := x
    cases dest with
    | node r i => exact returnsTo_of_crumb hinj hs htraced
    | leaf y => exact ⟨htraced, fun z hz => hinj (hz.trans htraced.symm)⟩

/-- Runs of the network from empty tables are runs without any change of the
routes. -/
theorem reachable_rerouted (hs : T.emptyNetwork.Reachable s) : T.reroutedNetwork.Reachable s := by
  induction hs with
  | init hinit =>
    rw [hinit]
    exact .init ⟨fun _ => rfl, rfl, rfl⟩
  | @step s s' e _ hstep ih =>
    have hstep : T.reroutedNetwork.step s (.inl e) s' := hstep
    exact .step ih hstep

/-! ## Configured interfaces -/

/-- An event after which a routing table names configured interfaces, if it was
replaced. -/
def Topology.Configured (T : Topology R H) : Event H ⊕ R × List RTrecord → Prop
  | .inl _ => True
  | .inr (r, l) => ∀ record ∈ l, 0 ≤ record.interface ∧ record.interface < T.num_interfaces r

/-- The network with changes of the routing tables as the code can make them:
records name configured interfaces, at the start and after every change. -/
def Topology.configuredNetwork (T : Topology R H) :
    Lts (State R H) (Event H ⊕ R × List RTrecord) where
  init s := T.reroutedNetwork.init s ∧ ∀ r, (s.tables r).InRange (T.num_interfaces r)
  step s e s' := T.Configured e ∧ T.reroutedNetwork.step s e s'

/-- All records name configured interfaces, and packets come in on them. -/
structure InRangeInv (T : Topology R H) (s : State R H) : Prop where
  tables : ∀ r, (s.tables r).InRange (T.num_interfaces r)
  flight : ∀ x ∈ s.inFlight, ∀ r i, x.dest = .node r i → 0 ≤ i ∧ i < T.num_interfaces r

/-- Some table changes. -/
theorem inRange_update {r : R} {t : Tables}
    (h : ∀ r, (s.tables r).InRange (T.num_interfaces r)) (ht : t.InRange (T.num_interfaces r))
    (r' : R) : (Function.update s.tables r t r').InRange (T.num_interfaces r') := by
  by_cases hr : r' = r
  · subst hr
    rw [Function.update_self]
    exact ht
  · rw [Function.update_of_ne hr]
    exact h r'

omit [DecidableEq R] in
/-- What a host sends comes in on the interface that it sits on. -/
theorem fromHost_inRange {y : H} {packet : HeaderOctets} :
    ∀ r i, (T.fromHost y packet).dest = .node r i → 0 ≤ i ∧ i < T.num_interfaces r := by
  intro r i hdest
  cases hdest
  exact T.in_range (T.far_attach y)

omit [DecidableEq R] in
/-- What a router sends comes in at the other end of a link. -/
theorem send_inRange {r : R} {sent : List Sent} (hx : x ∈ T.send r sent) :
    ∀ r' i, x.dest = .node r' i → 0 ≤ i ∧ i < T.num_interfaces r' := by
  intro r' i hdest
  obtain ⟨j, -, hfar⟩ := Topology.mem_send hx
  rw [hdest] at hfar
  exact T.in_range (T.symm hfar)

theorem step_inRangeInv {e : Event H} (hi : InRangeInv T s) (hstep : T.step s e = some s') :
    InRangeInv T s' := by
  cases Topology.step_cases hstep with
  | announce y c' => exact ⟨hi.tables, Keyed.forall_push hi.flight fromHost_inRange⟩
  | request y c' => exact ⟨hi.tables, Keyed.forall_push hi.flight fromHost_inRange⟩
  | @handle before after r i packet t sent hsplit hh =>
    have hin := hi.flight _ (Topology.mem_split hsplit) r i rfl
    refine ⟨inRange_update hi.tables (handlePacket_inRange (hi.tables r) hin hh), fun x hx => ?_⟩
    rcases List.mem_append.mp hx with hx | hx
    · exact hi.flight x (Topology.mem_of_split hsplit hx)
    · exact send_inRange hx
  | throws hsplit _ =>
    exact ⟨hi.tables, fun x hx => hi.flight x (Topology.mem_of_split hsplit hx)⟩
  | hostReceive hasFile hsplit =>
    refine ⟨hi.tables, fun x hx => ?_⟩
    rcases List.mem_append.mp hx with hx | hx
    · exact hi.flight x (Topology.mem_of_split hsplit hx)
    · obtain ⟨-, rfl⟩ := Topology.mem_hostReply hx
      exact fromHost_inRange

theorem reachable_inRangeInv (hs : T.configuredNetwork.Reachable s) : InRangeInv T s := by
  refine hs.invariant ?_ ?_
  · intro s hinit
    obtain ⟨⟨-, hflight, -⟩, htables⟩ := hinit
    refine ⟨htables, fun x hx => ?_⟩
    rw [hflight] at hx
    exact absurd hx List.not_mem_nil
  · intro s e s' hi hstep
    obtain ⟨hconfigured, hstep⟩ := hstep
    cases e with
    | inl e => exact step_inRangeInv hi hstep
    | inr e =>
      obtain ⟨r, l⟩ := e
      have hstep : s' = _ := hstep
      rw [hstep]
      exact ⟨inRange_update hi.tables ⟨hconfigured, (hi.tables r).pending⟩, hi.flight⟩

/-- Such changes of the routes are changes of the routes. -/
theorem reachable_configured (hs : T.configuredNetwork.Reachable s) :
    T.reroutedNetwork.Reachable s := by
  induction hs with
  | init hinit => exact .init hinit.1
  | step _ hstep ih => exact .step ih hstep.2

/-- **On configured interfaces `at` never throws**: every router handles whatever
packet comes, however the routes change. -/
theorem configuredNetwork_never_throws (hs : T.configuredNetwork.Reachable s) (r : R)
    (m : Message) : handlePacket (T.num_interfaces r) (s.tables r) m ≠ none :=
  handlePacket_ne_none ((reachable_inRangeInv hs).tables r)

/-- Nor does it from empty tables. -/
theorem emptyNetwork_never_throws (hs : T.emptyNetwork.Reachable s) (r : R) (m : Message) :
    handlePacket (T.num_interfaces r) (s.tables r) m ≠ none := by
  refine configuredNetwork_never_throws ?_ r m
  induction hs with
  | init hinit =>
    rw [hinit]
    exact .init ⟨⟨fun _ => rfl, rfl, rfl⟩, fun r => Tables.empty_inRange (T.num_interfaces r)⟩
  | @step s s' e _ hstep ih =>
    have hstep : T.configuredNetwork.step s (.inl e) s' := ⟨trivial, hstep⟩
    exact .step ih hstep

/-- Host 11 of `line` announces content 7, host 10 requests it, and host 11
answers. -/
def lineRequest : List (Event Bool) :=
  [.announce true 7, .deliver 0, .deliver 0, .request false 7, .deliver 1, .deliver 1,
    .hostReceive 1 true]

/-- The response at the router of host 11 returns to host 10. -/
theorem responses_retrace_line :
    ∃ ms s, line.emptyNetwork.Run ms s ∧ (∃ x ∈ s.inFlight, IsPacket .RESPONSE 7 10 x.packet) ∧
      ∃ y, IsHost line 10 y ∧ ReturnsTo line 7 10 s true y := by
  have htrace : Lts.trace line.step ⟨fun _ => .empty, [], []⟩ lineRequest = some (_, _) := rfl
  have hrun := Lts.run_of_trace htrace
  have hinj : Function.Injective line.hostID := by
    intro y z hyz
    revert y z
    decide
  refine ⟨_, _, hrun, ⟨_, List.mem_cons_of_mem _ (List.mem_cons_self ..), rfl, rfl, rfl⟩, ?_⟩
  exact (responses_retrace hinj (reachable_rerouted hrun.reachable) 7 10).1 true ⟨7, 10, 0, 35⟩
    (List.mem_cons_self ..) rfl

end ContentNetwork.Network
