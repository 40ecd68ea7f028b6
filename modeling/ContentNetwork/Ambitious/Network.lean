import ContentNetwork.Ambitious.Router
import ContentNetwork.Network.Topology

/-!
# A network of concurrent routers and hosts

The wiring, the envelopes and the sending are those of the network of
simplified routers; the routers and the hosts are those of the other version.
Its `host.cpp` answers a request under its *own* host ID: `rxthread` passes
`sh->hostID` to `MakeResponsePacket`, where the simplified host passes on the
third octet of the request.

An event is a host sending, any packet in flight being handled, or the timer
of a pending record of some router expiring. Nothing is lost.

Each router is a process of its own, and `returns` says of each whether its
`pthread_cancel` returns (see `RoutingTable.stopTimer`). A router whose process
ends has taken the packet and sends nothing. That it handles no packet
afterwards is not asked for: the runs here are those of the network, and more.
-/

namespace ContentNetwork.Ambitious

open Lib Simplified Network

/-- The tables of every router, the packets in flight, and which host has
announced which content. -/
structure State (R H : Type*) where
  routers : R → Router
  inFlight : List (Envelope R H)
  announced : List (H × UInt8)

inductive Event (R H : Type*)
  | announce (h : H) (contentID : UInt8)
  | request (h : H) (contentID : UInt8)
  | deliver (k : Nat)
  | hostReceive (k : Nat) (hasFile : Bool)
  | expire (r : R) (e : Sleeper)

variable {R H : Type*} (T : Topology R H) (returns : R → Bool)

/-- `rxthread`: a host answers a request with the file, under its own ID; it
sends nothing for other packets, or without the file. -/
def hostReply (h : H) (hasFile : Bool) (packet : HeaderOctets) : List (Envelope R H) :=
  if hasFile = true ∧ PacketTypes.ofOctet packet.packetType = some .REQUEST then
    [T.fromHost h (octets .RESPONSE packet.contentID (T.hostID h))]
  else []

variable [DecidableEq R]

/-- One event of the network. -/
def networkStep (s : State R H) : Event R H → Option (State R H)
  | .announce h contentID =>
    some { s with
      inFlight := s.inFlight ++ [T.fromHost h (octets .ANNOUNCEMENT contentID 0)]
      announced := (h, contentID) :: s.announced }
  | .request h contentID =>
    some { s with
      inFlight := s.inFlight ++ [T.fromHost h (octets .REQUEST contentID (T.hostID h))] }
  | .deliver k =>
    match s.inFlight[k]? with
    | some ⟨.node r i, packet⟩ =>
      match handlePacket (returns r) (T.num_interfaces r) (s.routers r) ⟨packet, i⟩ with
      | some (t, sent) =>
        some { s with
          routers := Function.update s.routers r t
          inFlight := s.inFlight.eraseIdx k ++ T.send r sent }
      | none => some { s with inFlight := s.inFlight.eraseIdx k }
    | some ⟨.leaf _, _⟩ => none
    | none => none
  | .hostReceive k hasFile =>
    match s.inFlight[k]? with
    | some ⟨.leaf h, packet⟩ =>
      some { s with inFlight := s.inFlight.eraseIdx k ++ hostReply T h hasFile packet }
    | some ⟨.node _ _, _⟩ => none
    | none => none
  | .expire r e =>
    if e ∈ (s.routers r).p_PendingTable.sleeping then
      some { s with
        routers := Function.update s.routers r
          { s.routers r with p_PendingTable := (s.routers r).p_PendingTable.expire e } }
    else none

/-- The network that starts with the given tables and nothing in flight. -/
def network (routers : R → Router) : Lts (State R H) (Event R H) :=
  .ofStep ⟨routers, [], []⟩ (networkStep T returns)

/-- What each event does. -/
inductive NetworkStep (s : State R H) : Event R H → State R H → Prop
  | announce (h : H) (c : UInt8) :
      NetworkStep s (.announce h c) { s with
        inFlight := s.inFlight ++ [T.fromHost h (octets .ANNOUNCEMENT c 0)]
        announced := (h, c) :: s.announced }
  | request (h : H) (c : UInt8) :
      NetworkStep s (.request h c) { s with
        inFlight := s.inFlight ++ [T.fromHost h (octets .REQUEST c (T.hostID h))] }
  | handle {before after : List (Envelope R H)} {r : R} {i : Int} {packet : HeaderOctets}
      {t : Router} {sent : List Sent} :
      s.inFlight = before ++ ⟨.node r i, packet⟩ :: after →
      handlePacket (returns r) (T.num_interfaces r) (s.routers r) ⟨packet, i⟩ = some (t, sent) →
      NetworkStep s (.deliver before.length) { s with
        routers := Function.update s.routers r t
        inFlight := before ++ after ++ T.send r sent }
  | ends {before after : List (Envelope R H)} {r : R} {i : Int} {packet : HeaderOctets} :
      s.inFlight = before ++ ⟨.node r i, packet⟩ :: after →
      handlePacket (returns r) (T.num_interfaces r) (s.routers r) ⟨packet, i⟩ = none →
      NetworkStep s (.deliver before.length) { s with inFlight := before ++ after }
  | hostReceive {before after : List (Envelope R H)} {h : H} {packet : HeaderOctets}
      (hasFile : Bool) :
      s.inFlight = before ++ ⟨.leaf h, packet⟩ :: after →
      NetworkStep s (.hostReceive before.length hasFile) { s with
        inFlight := before ++ after ++ hostReply T h hasFile packet }
  | expire {r : R} {e : Sleeper} : e ∈ (s.routers r).p_PendingTable.sleeping →
      NetworkStep s (.expire r e) { s with
        routers := Function.update s.routers r
          { s.routers r with p_PendingTable := (s.routers r).p_PendingTable.expire e } }

variable {T} {returns} {s s' : State R H} {e : Event R H}

/-- The inversion lemma: every event is one of the six. -/
theorem networkStep_cases (h : networkStep T returns s e = some s') :
    NetworkStep T returns s e s' := by
  cases e with
  | announce x c =>
    obtain rfl := Option.some.inj h
    exact .announce x c
  | request x c =>
    obtain rfl := Option.some.inj h
    exact .request x c
  | deliver k =>
    simp only [networkStep] at h
    split at h
    next r i packet hk =>
      obtain ⟨before, after, hsplit, rfl, herase⟩ := Topology.split_at hk
      rw [herase] at h
      split at h
      next t sent hh =>
        obtain rfl := Option.some.inj h
        exact .handle hsplit hh
      next hh =>
        obtain rfl := Option.some.inj h
        exact .ends hsplit hh
    next => cases h
    next => cases h
  | hostReceive k hasFile =>
    simp only [networkStep] at h
    split at h
    next x packet hk =>
      obtain ⟨before, after, hsplit, rfl, herase⟩ := Topology.split_at hk
      rw [herase] at h
      obtain rfl := Option.some.inj h
      exact .hostReceive hasFile hsplit
    next => cases h
    next => cases h
  | expire r e =>
    simp only [networkStep] at h
    split at h
    next he =>
      obtain rfl := Option.some.inj h
      exact .expire he
    next => cases h

/-! ## Announcements -/

/-- A packet in flight is an announcement. -/
def IsAnnouncement (x : Envelope R H) : Prop :=
  PacketTypes.ofOctet x.packet.packetType = some .ANNOUNCEMENT

omit [DecidableEq R] in
/-- A host that receives something announces nothing. -/
theorem not_isAnnouncement_hostReply {h : H} {hasFile : Bool} {packet : HeaderOctets}
    {x : Envelope R H} (hx : x ∈ hostReply T h hasFile packet) : ¬IsAnnouncement x := by
  unfold hostReply at hx
  split at hx
  · obtain rfl := List.mem_singleton.mp hx
    exact octets_type_ne (by decide)
  · exact absurd hx List.not_mem_nil

omit [DecidableEq R] in
/-- What a router sends for an announcement: the announcement with one more
hop, to the far end of every interface. -/
theorem mem_send_announcement {r : R} {packet : HeaderOctets} {x : Envelope R H} :
    x ∈ T.send r ((List.range (T.num_interfaces r)).map fun index : Nat =>
        ((index : Int), packet.nextHop))
      ↔ x.packet = packet.nextHop ∧ ∃ i, T.far r i = some x.dest := by
  constructor
  · intro hx
    obtain ⟨i, hmem, hfar⟩ := Topology.mem_send hx
    obtain ⟨index, -, he⟩ := List.mem_map.mp hmem
    exact ⟨(congrArg Prod.snd he).symm, i, hfar⟩
  · intro hx
    obtain ⟨hpacket, i, hfar⟩ := hx
    obtain ⟨h0, h1⟩ := T.in_range hfar
    refine List.mem_filterMap.mpr ⟨(i, packet.nextHop), List.mem_map.mpr ⟨i.toNat, ?_, ?_⟩, ?_⟩
    · rw [List.mem_range]
      omega
    · rw [Int.toNat_of_nonneg h0]
    · dsimp only
      rw [hfar, ← hpacket]
      rfl

/-- An event that sends announcements to routers or hosts: those in flight
afterwards were there, or a host has announced them, or a router has handled
one with one hop less, which did not end its process. -/
theorem step_isAnnouncement (h : networkStep T returns s e = some s') {x : Envelope R H}
    (hx : x ∈ s'.inFlight) (ha : IsAnnouncement x) :
    x ∈ s.inFlight ∨
      (∃ y c, e = .announce y c ∧ x = T.fromHost y (octets .ANNOUNCEMENT c 0)) ∨
      ∃ k r i packet j, e = .deliver k ∧ s.inFlight[k]? = some ⟨.node r i, packet⟩ ∧
        PacketTypes.ofOctet packet.packetType = some .ANNOUNCEMENT ∧
        (s.routers r).p_RoutingTable.handleAnnouncement (returns r) packet.ContentID
          packet.hostOrHops i ≠ none ∧
        x.packet = packet.nextHop ∧ T.far r j = some x.dest := by
  cases networkStep_cases h with
  | announce y c =>
    rcases List.mem_append.mp hx with hx | hx
    · exact Or.inl hx
    · exact Or.inr (Or.inl ⟨y, c, rfl, List.mem_singleton.mp hx⟩)
  | request y c =>
    rcases List.mem_append.mp hx with hx | hx
    · exact Or.inl hx
    · obtain rfl := List.mem_singleton.mp hx
      exact absurd ha (octets_type_ne (by decide))
  | @handle before after r i packet t sent hsplit hh =>
    rcases List.mem_append.mp hx with hx | hx
    · exact Or.inl (Topology.mem_of_split hsplit hx)
    · by_cases ht : PacketTypes.ofOctet packet.packetType = some .ANNOUNCEMENT
      · obtain ⟨hrt, -, rfl⟩ := announcement_handled ht hh
        obtain ⟨hpacket, j, hfar⟩ := mem_send_announcement.mp hx
        exact Or.inr (Or.inr ⟨_, r, i, packet, j, rfl, Topology.getElem?_of_split hsplit, ht,
          Option.ne_none_iff_exists'.mpr ⟨_, hrt⟩, hpacket, hfar⟩)
      · -- any other packet is sent on as it is
        obtain ⟨j, hmem, -⟩ := Topology.mem_send hx
        have hpacket : x.packet = packet := (handlePacket_other ht hh).2 _ hmem
        rw [IsAnnouncement, hpacket] at ha
        exact absurd ha ht
  | ends hsplit => exact Or.inl (Topology.mem_of_split hsplit hx)
  | hostReceive hasFile hsplit =>
    rcases List.mem_append.mp hx with hx | hx
    · exact Or.inl (Topology.mem_of_split hsplit hx)
    · exact absurd ha (not_isAnnouncement_hostReply hx)
  | expire => exact Or.inl hx

/-- The routing tables after an event: only handling an announcement changes
one. -/
theorem step_routing (h : NetworkStep T returns s e s') (q : R) :
    (s'.routers q).p_RoutingTable = (s.routers q).p_RoutingTable ∨
      ∃ k i packet, e = .deliver k ∧ s.inFlight[k]? = some ⟨.node q i, packet⟩ ∧
        PacketTypes.ofOctet packet.packetType = some .ANNOUNCEMENT ∧
        (s.routers q).p_RoutingTable.handleAnnouncement (returns q) packet.ContentID
          packet.hostOrHops i = some (s'.routers q).p_RoutingTable := by
  cases h with
  | announce => exact Or.inl rfl
  | request => exact Or.inl rfl
  | ends => exact Or.inl rfl
  | hostReceive => exact Or.inl rfl
  | @handle before after r i packet t sent hsplit hh =>
    by_cases hq : q = r
    · subst hq
      dsimp only
      rw [Function.update_self]
      by_cases ht : PacketTypes.ofOctet packet.packetType = some .ANNOUNCEMENT
      · exact Or.inr ⟨_, i, packet, rfl, Topology.getElem?_of_split hsplit, ht,
          (announcement_handled ht hh).1⟩
      · exact Or.inl (handlePacket_other ht hh).1
    · dsimp only
      rw [Function.update_of_ne hq]
      exact Or.inl rfl
  | @expire r e he =>
    by_cases hq : q = r
    · subst hq
      dsimp only
      rw [Function.update_self]
      exact Or.inl rfl
    · dsimp only
      rw [Function.update_of_ne hq]
      exact Or.inl rfl

end ContentNetwork.Ambitious
