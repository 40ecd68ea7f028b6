import ContentNetwork.Network.Threaded
import ContentNetwork.Simplified.Provenance

/-!
# What holds whatever the links and the timers do

In `threadedNetwork` packets are lost, duplicated and delayed, `main` works on
copies of the tables that may be stale, and records expire at any time; routes
may be missing or lead in circles. What every router does know is genuine
(`Genuine`): an announcement has come over links from a host that announced
its content, a request from a host that asked, a response from a host that had
the content announced and answered it. Records are as genuine as the messages
they were learned from (`LearnedInv`).

So a hop count is the length of a walk from an announcer, modulo 256
(`record_walk`). Requests come to announcers only, and a response comes to the
host that asked for it, and was given by a host that announced the content
(`delivered_genuine`).
-/

namespace ContentNetwork.Network

open Lib Lib.Lts Simplified

variable {R H : Type*}

/-! ## The past of a network -/

/-- The contents hosts have asked for, and the requests `(c, h)` they have
answered. -/
structure Asked (H : Type*) where
  requested : List (H × UInt8)
  answered : List (H × UInt8 × UInt8)

/-- How an event updates the history. -/
def Asked.update (g : Asked H) (s : ThreadedState R H) : ThreadedEvent R H → Asked H
  | .request x c => { g with requested := (x, c) :: g.requested }
  | .hostReceive k true =>
    match s.inFlight[k]? with
    | some ⟨.leaf x, packet⟩ =>
      if PacketTypes.ofOctet packet.packetType = some .REQUEST then
        { g with answered := (x, packet.contentID, packet.hostIDOrHops) :: g.answered }
      else g
    | _ => g
  | _ => g

/-- The threaded network with that history. -/
def Topology.askedNetwork [DecidableEq R] (T : Topology R H) :
    Lts (ThreadedState R H × Asked H) (ThreadedEvent R H) :=
  T.threadedNetwork.observe ⟨[], []⟩ Asked.update

/-- Who has announced, asked and answered. -/
structure Past (H : Type*) where
  announced : List (H × UInt8)
  asked : Asked H

/-- One past is part of another. -/
structure Past.Sub (p p' : Past H) : Prop where
  announced : p.announced ⊆ p'.announced
  requested : p.asked.requested ⊆ p'.asked.requested
  answered : p.asked.answered ⊆ p'.asked.answered

/-! ## Genuine packets -/

/-- A packet with hop count `k` has come to port `i` of `r` over `k` links,
modulo 256, from a host that has announced `c`. -/
def Travelled (T : Topology R H) (p : Past H) (c : UInt8) (r : R) (i : Int) (k : ℕ) : Prop :=
  (k = 0 ∧ ∃ y, (y, c) ∈ p.announced ∧ T.attach y = (r, i)) ∨
    ∃ r' i' n, T.far r i = some (.node r' i') ∧ k = (n + 1) % 256 ∧
      ∃ y, (y, c) ∈ p.announced ∧ T.Walk (T.attach y).1 r' n

/-- A host with ID `h` has asked for `c`. -/
def AskedFor (T : Topology R H) (p : Past H) (c h : UInt8) : Prop :=
  ∃ y, T.hostID y = h ∧ (y, c) ∈ p.asked.requested

/-- A host that has announced `c` has answered a request `(c, h)`. -/
def Answered (p : Past H) (c h : UInt8) : Prop :=
  ∃ z, (z, c, h) ∈ p.asked.answered ∧ (z, c) ∈ p.announced

/-- What the arrival of a message at router `r` says about the past. -/
structure GenuineAt (T : Topology R H) (p : Past H) (r : R) (m : Message) : Prop where
  announcement : PacketTypes.ofOctet m._recvPacket.packetType = some .ANNOUNCEMENT →
    Travelled T p m._recvPacket.contentID r m._RxInterface_Num m._recvPacket.hostIDOrHops.toNat
  request : PacketTypes.ofOctet m._recvPacket.packetType = some .REQUEST →
    AskedFor T p m._recvPacket.contentID m._recvPacket.hostIDOrHops ∧
      ∀ y, T.far r m._RxInterface_Num = some (.leaf y) →
        T.hostID y = m._recvPacket.hostIDOrHops ∧
          (y, m._recvPacket.contentID) ∈ p.asked.requested
  response : PacketTypes.ofOctet m._recvPacket.packetType = some .RESPONSE →
    Answered p m._recvPacket.contentID m._recvPacket.hostIDOrHops

/-- What the arrival of a packet at host `y` says about the past. -/
structure GenuineTo (T : Topology R H) (p : Past H) (y : H) (packet : HeaderOctets) : Prop where
  request : PacketTypes.ofOctet packet.packetType = some .REQUEST →
    (y, packet.contentID) ∈ p.announced ∧ AskedFor T p packet.contentID packet.hostIDOrHops
  response : PacketTypes.ofOctet packet.packetType = some .RESPONSE →
    T.hostID y = packet.hostIDOrHops ∧ (y, packet.contentID) ∈ p.asked.requested ∧
      Answered p packet.contentID packet.hostIDOrHops

/-- What a packet in flight says about the past. -/
def Genuine (T : Topology R H) (p : Past H) (x : Envelope R H) : Prop :=
  match x.dest with
  | .node r i => GenuineAt T p r ⟨x.packet, i⟩
  | .leaf y => GenuineTo T p y x.packet

section Past

variable {T : Topology R H} {p p' : Past H} {c h : UInt8} {r : R} {i : Int} {k : ℕ}
  {x : Envelope R H}

/-- The router is as many links away, modulo 256. -/
theorem Travelled.exists_walk (ht : Travelled T p c r i k) :
    ∃ y n, (y, c) ∈ p.announced ∧ T.Walk (T.attach y).1 r n ∧ k = n % 256 := by
  rcases ht with ⟨rfl, y, hy, hatt⟩ | ⟨r', i', n, hfar, rfl, y, hy, hwalk⟩
  · refine ⟨y, 0, hy, ?_, rfl⟩
    rw [hatt]
    exact .nil
  · exact ⟨y, n + 1, hy, hwalk.snoc (T.symm hfar), rfl⟩

/-- What comes in from a host is its own announcement. -/
theorem Travelled.of_leaf {y : H} (ht : Travelled T p c r i k)
    (hfar : T.far r i = some (.leaf y)) : k = 0 ∧ (y, c) ∈ p.announced := by
  rcases ht with ⟨rfl, y', hy', hatt⟩ | ⟨r', i', n, hfar', -⟩
  · rw [T.leaf.mpr hatt] at hfar
    cases hfar
    exact ⟨rfl, hy'⟩
  · rw [hfar'] at hfar
    cases hfar

theorem Travelled.mono (hp : p.Sub p') (ht : Travelled T p c r i k) :
    Travelled T p' c r i k := by
  rcases ht with ⟨hk, y, hy, hatt⟩ | ⟨r', i', n, hfar, hk, y, hy, hwalk⟩
  · exact Or.inl ⟨hk, y, hp.announced hy, hatt⟩
  · exact Or.inr ⟨r', i', n, hfar, hk, y, hp.announced hy, hwalk⟩

theorem AskedFor.mono (hp : p.Sub p') (ha : AskedFor T p c h) : AskedFor T p' c h := by
  obtain ⟨y, hy, hmem⟩ := ha
  exact ⟨y, hy, hp.requested hmem⟩

theorem Answered.mono (hp : p.Sub p') (ha : Answered p c h) : Answered p' c h := by
  obtain ⟨z, hz, hmem⟩ := ha
  exact ⟨z, hp.answered hz, hp.announced hmem⟩

theorem GenuineAt.mono {m : Message} (hp : p.Sub p') (hg : GenuineAt T p r m) :
    GenuineAt T p' r m where
  announcement ht := (hg.announcement ht).mono hp
  request ht := by
    obtain ⟨hasked, hleaf⟩ := hg.request ht
    refine ⟨hasked.mono hp, fun y hy => ?_⟩
    exact ⟨(hleaf y hy).1, hp.requested (hleaf y hy).2⟩
  response ht := (hg.response ht).mono hp

theorem GenuineTo.mono {y : H} {packet : HeaderOctets} (hp : p.Sub p')
    (hg : GenuineTo T p y packet) : GenuineTo T p' y packet where
  request ht := ⟨hp.announced (hg.request ht).1, (hg.request ht).2.mono hp⟩
  response ht := by
    obtain ⟨hy, hmem, hans⟩ := hg.response ht
    exact ⟨hy, hp.requested hmem, hans.mono hp⟩

theorem Genuine.mono (hp : p.Sub p') (hg : Genuine T p x) : Genuine T p' x := by
  obtain ⟨dest, packet⟩ := x
  cases dest with
  | node r i => exact GenuineAt.mono hp hg
  | leaf y => exact GenuineTo.mono hp hg

end Past

/-! ## What a router sends -/

section Send

variable {T : Topology R H} {p : Past H} {r : R} {m : Message} {x : Envelope R H} {i : Int}

/-- The hop octet of an announcement that is sent on. -/
theorem nextHop_toNat_mod (packet : HeaderOctets) :
    packet.nextHop.hostIDOrHops.toNat = (packet.hostIDOrHops.toNat + 1) % 256 := by
  show (UInt8.ofInt ((packet.hostIDOrHops.toNat : Int) + 1)).toNat = _
  rw [UInt8.ofInt, UInt8.toNat_ofNat']
  omega

/-- A request that is sent on is genuine: the router has learned of an
announcement from there. -/
theorem request_genuine (hm : GenuineAt T p r m)
    (ht : PacketTypes.ofOctet m._recvPacket.packetType = some .REQUEST) {a : Message}
    (ha : GenuineAt T p r a)
    (hta : PacketTypes.ofOctet a._recvPacket.packetType = some .ANNOUNCEMENT)
    (hc : a._recvPacket.ContentID = m._recvPacket.ContentID)
    (hpacket : x.packet = m._recvPacket) (hfar : T.far r a._RxInterface_Num = some x.dest) :
    Genuine T p x := by
  obtain ⟨dest, packet⟩ := x
  dsimp only at hpacket hfar
  subst hpacket
  have htravelled := ha.announcement hta
  rw [contentID_eq hc] at htravelled
  cases dest with
  | node r' i' =>
    refine ⟨fun ht' => ?_, fun _ => ⟨(hm.request ht).1, fun y hy => ?_⟩, fun ht' => ?_⟩
    · rw [ht] at ht'
      cases ht'
    · -- the far end is a router
      rw [T.symm hfar] at hy
      cases hy
    · rw [ht] at ht'
      cases ht'
  | leaf y =>
    refine ⟨fun _ => ⟨(htravelled.of_leaf hfar).2, (hm.request ht).1⟩, fun ht' => ?_⟩
    rw [ht] at ht'
    cases ht'

/-- A response that is sent on is genuine: the router has learned of a request
from there. -/
theorem response_genuine (hm : GenuineAt T p r m)
    (ht : PacketTypes.ofOctet m._recvPacket.packetType = some .RESPONSE) {a : Message}
    (ha : GenuineAt T p r a)
    (hta : PacketTypes.ofOctet a._recvPacket.packetType = some .REQUEST)
    (hkey : a._recvPacket.requestKey = m._recvPacket.requestKey)
    (hpacket : x.packet = m._recvPacket) (hfar : T.far r a._RxInterface_Num = some x.dest) :
    Genuine T p x := by
  obtain ⟨dest, packet⟩ := x
  dsimp only at hpacket hfar
  subst hpacket
  obtain ⟨hc, hh⟩ := requestKey_inj hkey
  cases dest with
  | node r' i' =>
    refine ⟨fun ht' => ?_, fun ht' => ?_, fun _ => hm.response ht⟩ <;>
    · rw [ht] at ht'
      cases ht'
  | leaf y =>
    refine ⟨fun ht' => ?_, fun _ => ?_⟩
    · rw [ht] at ht'
      cases ht'
    · obtain ⟨hy, hmem⟩ := (ha.request hta).2 y hfar
      rw [hc] at hmem
      exact ⟨hy.trans hh, hmem, hm.response ht⟩

/-- An announcement that is sent on is genuine: it has come one link farther. -/
theorem announcement_genuine (hm : GenuineAt T p r m)
    (ht : PacketTypes.ofOctet m._recvPacket.packetType = some .ANNOUNCEMENT)
    (hpacket : x.packet = m._recvPacket.nextHop) (hfar : T.far r i = some x.dest) :
    Genuine T p x := by
  obtain ⟨dest, packet⟩ := x
  dsimp only at hpacket hfar
  have htype : PacketTypes.ofOctet packet.packetType = some .ANNOUNCEMENT := by
    rw [hpacket]
    exact ht
  have hother : ∀ t : PacketTypes, t ≠ .ANNOUNCEMENT →
      PacketTypes.ofOctet packet.packetType ≠ some t := by
    intro t hne ht'
    rw [htype] at ht'
    exact hne (Option.some.inj ht').symm
  cases dest with
  | node r' i' =>
    refine ⟨fun _ => ?_, fun ht' => absurd ht' (hother _ (by decide)),
      fun ht' => absurd ht' (hother _ (by decide))⟩
    obtain ⟨y, n, hy, hwalk, hk⟩ := (hm.announcement ht).exists_walk
    refine Or.inr ⟨r, i, n, T.symm hfar, ?_, y, ?_, hwalk⟩
    · show packet.hostIDOrHops.toNat = _
      rw [hpacket, nextHop_toNat_mod, hk]
      omega
    · rw [hpacket]
      exact hy
  | leaf y =>
    exact ⟨fun ht' => absurd ht' (hother _ (by decide)),
      fun ht' => absurd ht' (hother _ (by decide))⟩

/-- What a router sends is as genuine as what it has learned. -/
theorem send_genuine {n : Nat} {sent : List Sent} (hm : GenuineAt T p r m)
    (hsent : ∀ y ∈ sent, Justified (GenuineAt T p r) n m y) (hx : x ∈ T.send r sent) :
    Genuine T p x := by
  obtain ⟨i, hmem, hfar⟩ := Topology.mem_send hx
  rcases hsent _ hmem with ⟨ht, hpacket, a, ha, hta, hc, rfl⟩ |
    ⟨ht, hpacket, a, ha, hta, hkey, rfl⟩ | ⟨ht, hpacket, -⟩
  · exact request_genuine hm ht ha hta hc hpacket hfar
  · exact response_genuine hm ht ha hta hkey hpacket hfar
  · exact announcement_genuine hm ht hpacket hfar

end Send

/-! ## Every run -/

section Run

variable [DecidableEq R] {T : Topology R H} {s s' : ThreadedState R H} {g : Asked H}
  {e : ThreadedEvent R H} {p p' : Past H}

/-- Everything the routers have learned, and everything in flight, is
genuine. -/
structure GenuineInv (T : Topology R H) (p : Past H) (s : ThreadedState R H) : Prop where
  learned : ∀ r, LearnedInv (T.num_interfaces r) (GenuineAt T p r) (s.routers r)
  flight : ∀ x ∈ s.inFlight, Genuine T p x

omit [DecidableEq R] in
theorem GenuineInv.mono (hp : p.Sub p') (hi : GenuineInv T p s) : GenuineInv T p' s :=
  ⟨fun r => (hi.learned r).mono fun _ hm => hm.mono hp, fun x hx => (hi.flight x hx).mono hp⟩

/-- A step of one router keeps what all routers have learned genuine. -/
theorem GenuineInv.update (hi : GenuineInv T p s) {r : R} {a : Action} {u : RouterState}
    (ha : ∀ m, a = .dispatch m → GenuineAt T p r m)
    (hu : Simplified.step (T.num_interfaces r) (s.routers r) a = some u) :
    ∀ r', LearnedInv (T.num_interfaces r') (GenuineAt T p r')
      (Function.update s.routers r u r') := by
  intro r'
  by_cases hr : r' = r
  · subst hr
    rw [Function.update_self]
    exact step_learnedInv (hi.learned r') ha hu
  · rw [Function.update_of_ne hr]
    exact hi.learned r'

/-- The past of a state. -/
def pastOf (s : ThreadedState R H) (g : Asked H) : Past H := ⟨s.announced, g⟩

omit [DecidableEq R] in
theorem Asked.update_sub : g.requested ⊆ (g.update s e).requested ∧
    g.answered ⊆ (g.update s e).answered := by
  unfold Asked.update
  split
  · exact ⟨List.subset_cons_self .., List.Subset.refl _⟩
  · split
    · split
      · exact ⟨List.Subset.refl _, List.subset_cons_self ..⟩
      · exact ⟨List.Subset.refl _, List.Subset.refl _⟩
    · exact ⟨List.Subset.refl _, List.Subset.refl _⟩
  · exact ⟨List.Subset.refl _, List.Subset.refl _⟩

omit [DecidableEq R] in
/-- A request that a host answers is remembered. -/
theorem Asked.mem_answered {before after : List (Envelope R H)} {y : H} {packet : HeaderOctets}
    (hsplit : s.inFlight = before ++ ⟨.leaf y, packet⟩ :: after)
    (ht : PacketTypes.ofOctet packet.packetType = some .REQUEST) :
    (y, packet.contentID, packet.hostIDOrHops)
      ∈ (g.update s (.hostReceive before.length true)).answered := by
  simp only [Asked.update, Topology.getElem?_of_split hsplit, if_pos ht]
  exact List.mem_cons_self ..

theorem step_past (h : T.ThreadedStep s e s') : (pastOf s g).Sub (pastOf s' (g.update s e)) := by
  refine ⟨?_, Asked.update_sub.1, Asked.update_sub.2⟩
  cases h with
  | announce => exact List.subset_cons_self ..
  | request => exact List.Subset.refl _
  | hostReceive => exact List.Subset.refl _
  | pop => exact List.Subset.refl _
  | throws => exact List.Subset.refl _
  | router => exact List.Subset.refl _
  | lose => exact List.Subset.refl _
  | duplicate => exact List.Subset.refl _

omit [DecidableEq R] in
/-- The answer of a host is genuine, once it is remembered. -/
theorem hostReply_genuine {y : H} {hasFile : Bool} {packet : HeaderOctets} {x : Envelope R H}
    (hto : GenuineTo T p y packet)
    (hans : hasFile = true → PacketTypes.ofOctet packet.packetType = some .REQUEST →
      (y, packet.contentID, packet.hostIDOrHops) ∈ p.asked.answered)
    (hx : x ∈ T.hostReply y hasFile packet) : Genuine T p x := by
  have hfile : hasFile = true := by
    cases hasFile with
    | true => rfl
    | false => exact absurd hx List.not_mem_nil
  obtain ⟨ht, rfl⟩ := Topology.mem_hostReply hx
  refine ⟨fun ht' => absurd ht' (octets_type_ne (by decide)),
    fun ht' => absurd ht' (octets_type_ne (by decide)), fun _ => ?_⟩
  exact ⟨y, hans hfile ht, (hto.request ht).1⟩

omit [DecidableEq R] in
theorem announce_genuine {y : H} {c : UInt8} (hy : (y, c) ∈ p.announced) :
    Genuine T p (T.fromHost y (octets .ANNOUNCEMENT c 0)) :=
  ⟨fun _ => Or.inl ⟨rfl, y, hy, rfl⟩, fun ht => absurd ht (octets_type_ne (by decide)),
    fun ht => absurd ht (octets_type_ne (by decide))⟩

omit [DecidableEq R] in
theorem ask_genuine {y : H} {c : UInt8} (hy : (y, c) ∈ p.asked.requested) :
    Genuine T p (T.fromHost y (octets .REQUEST c (T.hostID y))) := by
  refine ⟨fun ht => absurd ht (octets_type_ne (by decide)), fun _ => ⟨⟨y, rfl, hy⟩, ?_⟩,
    fun ht => absurd ht (octets_type_ne (by decide))⟩
  intro y' hfar
  have hatt : T.far (T.attach y).1 (T.attach y).2 = some (.leaf y') := hfar
  rw [T.far_attach y] at hatt
  cases hatt
  exact ⟨rfl, hy⟩

/-- **Every event keeps all packets and records genuine.** -/
theorem step_genuineInv (hi : GenuineInv T (pastOf s g) s) (h : T.ThreadedStep s e s') :
    GenuineInv T (pastOf s' (g.update s e)) s' := by
  have hi' := hi.mono (step_past h)
  cases h with
  | announce y c =>
    exact ⟨hi'.learned, Keyed.forall_push hi'.flight (announce_genuine (List.mem_cons_self ..))⟩
  | request y c =>
    exact ⟨hi'.learned, Keyed.forall_push hi'.flight (ask_genuine (List.mem_cons_self ..))⟩
  | @hostReceive before after y packet hasFile hsplit =>
    refine ⟨hi'.learned, fun x hx => ?_⟩
    rcases List.mem_append.mp hx with hx | hx
    · exact hi'.flight x (Topology.mem_of_split hsplit hx)
    · refine hostReply_genuine (hi'.flight _ (Topology.mem_split hsplit)) ?_ hx
      intro hfile ht
      subst hfile
      exact Asked.mem_answered hsplit ht
  | @pop before after r i packet u sent work hsplit hu hd =>
    have hm : GenuineAt T _ r ⟨packet, i⟩ := hi'.flight _ (Topology.mem_split hsplit)
    refine ⟨hi'.update (fun m he => ?_) hu, fun x hx => ?_⟩
    · obtain rfl := Action.dispatch.inj he
      exact hm
    · rcases List.mem_append.mp hx with hx | hx
      · exact hi'.flight x (Topology.mem_of_split hsplit hx)
      · exact send_genuine hm (dispatch_justified (hi'.learned r).cache hd) hx
  | @throws before after r i packet u hsplit hu hd =>
    have hm : GenuineAt T _ r ⟨packet, i⟩ := hi'.flight _ (Topology.mem_split hsplit)
    refine ⟨hi'.update (fun m he => ?_) hu,
      fun x hx => hi'.flight x (Topology.mem_of_split hsplit hx)⟩
    obtain rfl := Action.dispatch.inj he
    exact hm
  | @router r a u hnot hu =>
    exact ⟨hi'.update (fun m he => absurd he (hnot m)) hu, hi'.flight⟩
  | lose hsplit =>
    exact ⟨hi'.learned, fun x hx => hi'.flight x (Topology.mem_of_split hsplit hx)⟩
  | duplicate hx => exact ⟨hi'.learned, Keyed.forall_push hi'.flight (hi'.flight _ hx)⟩

theorem reachable_genuineInv {sg : ThreadedState R H × Asked H}
    (h : T.askedNetwork.Reachable sg) : GenuineInv T (pastOf sg.1 sg.2) sg.1 := by
  induction h with
  | @init sg hinit =>
    obtain ⟨s, g⟩ := sg
    obtain ⟨hs, -⟩ := hinit
    obtain rfl : s = _ := hs
    exact ⟨fun r => start_learnedInv, fun x hx => absurd hx List.not_mem_nil⟩
  | @step sg sg' e _ hs ih =>
    obtain ⟨s', g'⟩ := sg'
    obtain ⟨hstep, rfl⟩ := hs
    exact step_genuineInv ih (Topology.threadedStep_cases hstep)

end Run

/-! ## What this is worth -/

/-- Content 7 is announced over a link that duplicates, a timer ages a record;
the other host asks for it and the answer comes back. -/
def answeredLine : List (ThreadedEvent Bool Bool) :=
  [.announce false 7] ++ iteration false 0 ++ [.duplicate 0] ++ iteration true 0 ++
    [.router true .timerRouting, .lose 0, .request true 7] ++ iteration true 1 ++
    iteration false 1 ++ [.hostReceive 1 true] ++ iteration false 1 ++ iteration true 1

variable [DecidableEq R] {T : Topology R H} {s : ThreadedState R H} {g : Asked H}

/-- **A hop count is the length of a walk from an announcer, modulo 256**,
whatever the links, the threads and the timers have done; and a route to a host
is one to an announcer, with hop count 0. -/
theorem record_walk (h : T.threadedNetwork.Reachable s) {r : R} {record : RTrecord}
    (hmem : record ∈ (s.routers r).shared.RoutingTable) :
    ∃ c, record.cID = ((c : UInt8).toNat : Int) ∧
      (∃ x n, (x, c) ∈ s.announced ∧ T.Walk (T.attach x).1 r n ∧
        record.num_hops = ((n % 256 : ℕ) : Int)) ∧
      ∀ y, T.far r record.interface = some (.leaf y) →
        (y, c) ∈ s.announced ∧ record.num_hops = 0 := by
  obtain ⟨ms, hrun⟩ := h.exists_run
  obtain ⟨ms', g, hrun', -⟩ := hrun.exists_observe (⟨[], []⟩ : Asked H) Asked.update
  have hi := reachable_genuineInv hrun'.reachable
  obtain ⟨m, hm, ht, hc, hhops, hinterface⟩ := (hi.learned r).shared.routing record hmem
  have htravelled := hm.announcement ht
  obtain ⟨x, n, hx, hwalk, hn⟩ := htravelled.exists_walk
  refine ⟨m._recvPacket.contentID, hc, ⟨x, n, hx, hwalk, ?_⟩, fun y hfar => ?_⟩
  · rw [hhops, ← hn]
    rfl
  · rw [hinterface] at hfar
    obtain ⟨hzero, hy⟩ := htravelled.of_leaf hfar
    refine ⟨hy, ?_⟩
    rw [hhops]
    exact congrArg Nat.cast hzero

theorem record_walk_line :
    ∃ s : ThreadedState Bool Bool, line.threadedNetwork.Reachable s ∧
      ∃ c, (7 : Int) = ((c : UInt8).toNat : Int) ∧
        (∃ x n, (x, c) ∈ s.announced ∧ line.Walk (line.attach x).1 true n ∧
          (1 : Int) = ((n % 256 : ℕ) : Int)) ∧
        ∀ y, line.far true 0 = some (.leaf y) → (y, c) ∈ s.announced ∧ (1 : Int) = 0 := by
  have htrace : trace line.threadedStep ⟨fun _ => .start, [], []⟩ answeredLine
      = some (_, _) := rfl
  have hrun := run_of_trace htrace
  have hmem : (⟨7, 0, 1, 15⟩ : RTrecord) ∈ [(⟨7, 0, 1, 15⟩ : RTrecord)] := List.mem_cons_self ..
  exact ⟨_, hrun.reachable, @record_walk Bool Bool _ line _ hrun.reachable true _ hmem⟩

/-- **What comes to a host is for it**: a request comes to a host that has
announced the content, and some host with the ID in it has asked; a response
comes to the host that has asked for the content, and a host that has announced
it has answered. -/
theorem delivered_genuine (h : T.askedNetwork.Reachable (s, g)) {y : H} {packet : HeaderOctets}
    (hmem : ⟨.leaf y, packet⟩ ∈ s.inFlight) : GenuineTo T (pastOf s g) y packet :=
  (reachable_genuineInv h).flight _ hmem

theorem delivered_genuine_line :
    ∃ s g, line.askedNetwork.Reachable (s, g) ∧
      GenuineTo line (pastOf s g) true (octets .RESPONSE 7 11) := by
  have htrace : trace (observeStep line.threadedStep Asked.update)
      (⟨fun _ => .start, [], []⟩, ⟨[], []⟩) answeredLine = some (_, _) := rfl
  have hrun := observe_run_of_trace htrace
  have hmem : (⟨.leaf true, octets .RESPONSE 7 11⟩ : Envelope Bool Bool)
      ∈ [⟨.leaf true, octets .ANNOUNCEMENT 7 2⟩, ⟨.leaf true, octets .RESPONSE 7 11⟩] :=
    List.mem_cons_of_mem _ (List.mem_singleton_self _)
  exact ⟨_, _, hrun.reachable, delivered_genuine hrun.reachable hmem⟩

end ContentNetwork.Network
