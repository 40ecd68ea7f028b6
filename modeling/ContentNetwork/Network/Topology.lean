import ContentNetwork.Lib.Wiring
import ContentNetwork.Simplified.Atomic

/-!
# A network of simplified routers and hosts

Routers and hosts are processes that send each other UDP datagrams; the
configuration files pair the ports up. `Topology` is that wiring: interface
`i` of a router leads to an interface of a router or to a host, links are
symmetric, and each host sits on one interface.

A network state has the tables of every router and the packets in flight. An
event is a host sending (`bcast`, the request of `main`), or any packet in
flight, in whatever order, being handled: by a router, as `handlePacket`, or
by a host, as the body of `rxthread`. There is no timer and no loss. A router
whose `MySendingPorts.at` throws has ended, but goes on here to handle packets.
That only adds runs, and where the records name configured interfaces, as they
do from empty tables on, no router gets there
(`emptyNetwork_never_throws` in `Network.Retrace`).

`announced` records which host has announced which content.
-/

namespace ContentNetwork.Network

open Lib Simplified

/-- Routers `R` and hosts `H`: the wiring of the interfaces, their number at
each router, and the ID of each host. -/
structure Topology (R H : Type*) extends Wiring R Int H where
  num_interfaces : R → Nat
  hostID : H → UInt8
  in_range : ∀ {r i e}, far r i = some e → 0 ≤ i ∧ i < num_interfaces r

/-- A packet and the interface or host it is to arrive at. -/
structure Envelope (R H : Type*) where
  dest : Far R Int H
  packet : HeaderOctets
  deriving DecidableEq

structure State (R H : Type*) where
  tables : R → Tables
  inFlight : List (Envelope R H)
  announced : List (H × UInt8)

inductive Event (H : Type*)
  | announce (h : H) (contentID : UInt8)
  | request (h : H) (contentID : UInt8)
  | deliver (k : Nat)
  | hostReceive (k : Nat) (hasFile : Bool)
  deriving DecidableEq

namespace Topology

variable {R H : Type*} (T : Topology R H)

/-- A packet that host `h` sends. -/
def fromHost (h : H) (packet : HeaderOctets) : Envelope R H :=
  ⟨.node (T.attach h).1 (T.attach h).2, packet⟩

/-- What a router sends: each packet to the far end of its interface. -/
def send (r : R) (sent : List Sent) : List (Envelope R H) :=
  sent.filterMap fun s => (T.far r s.1).map fun e => ⟨e, s.2⟩

/-- `rxthread`: a host answers a request with the file, under the host ID of
the request; it sends nothing for other packets, or without the file. -/
def hostReply (h : H) (hasFile : Bool) (packet : HeaderOctets) : List (Envelope R H) :=
  if hasFile = true ∧ PacketTypes.ofOctet packet.packetType = some .REQUEST then
    [T.fromHost h (octets .RESPONSE packet.contentID packet.hostIDOrHops)]
  else []

variable [DecidableEq R]

/-- One event of the network. -/
def step (s : State R H) : Event H → Option (State R H)
  | .announce h contentID =>
    some { s with
      inFlight := s.inFlight ++ [T.fromHost h (octets .ANNOUNCEMENT contentID 0)]
      announced := (h, contentID) :: s.announced }
  | .request h contentID =>
    some { s with
      inFlight := s.inFlight ++ [T.fromHost h (octets .REQUEST contentID (T.hostID h))] }
  | .deliver k =>
    match s.inFlight[k]? with
    | some ⟨.node r i, packet⟩ =>
      match handlePacket (T.num_interfaces r) (s.tables r) ⟨packet, i⟩ with
      | some (t, sent) =>
        some { s with
          tables := Function.update s.tables r t
          inFlight := s.inFlight.eraseIdx k ++ T.send r sent }
      | none => some { s with inFlight := s.inFlight.eraseIdx k }
    | some ⟨.leaf _, _⟩ => none
    | none => none
  | .hostReceive k hasFile =>
    match s.inFlight[k]? with
    | some ⟨.leaf h, packet⟩ =>
      some { s with inFlight := s.inFlight.eraseIdx k ++ T.hostReply h hasFile packet }
    | some ⟨.node _ _, _⟩ => none
    | none => none

/-- The network that starts with the given tables and nothing in flight. -/
def network (tables : R → Tables) : Lts (State R H) (Event H) :=
  .ofStep ⟨tables, [], []⟩ T.step

/-- The network of routers that have just been started. -/
def emptyNetwork : Lts (State R H) (Event H) :=
  T.network fun _ => .empty

/-- What each event does. -/
inductive Step (s : State R H) : Event H → State R H → Prop
  | announce (h : H) (c : UInt8) :
      Step s (.announce h c) { s with
        inFlight := s.inFlight ++ [T.fromHost h (octets .ANNOUNCEMENT c 0)]
        announced := (h, c) :: s.announced }
  | request (h : H) (c : UInt8) :
      Step s (.request h c) { s with
        inFlight := s.inFlight ++ [T.fromHost h (octets .REQUEST c (T.hostID h))] }
  | handle {before after : List (Envelope R H)} {r : R} {i : Int} {packet : HeaderOctets}
      {t : Tables} {sent : List Sent} :
      s.inFlight = before ++ ⟨.node r i, packet⟩ :: after →
      handlePacket (T.num_interfaces r) (s.tables r) ⟨packet, i⟩ = some (t, sent) →
      Step s (.deliver before.length) { s with
        tables := Function.update s.tables r t
        inFlight := before ++ after ++ T.send r sent }
  | throws {before after : List (Envelope R H)} {r : R} {i : Int} {packet : HeaderOctets} :
      s.inFlight = before ++ ⟨.node r i, packet⟩ :: after →
      handlePacket (T.num_interfaces r) (s.tables r) ⟨packet, i⟩ = none →
      Step s (.deliver before.length) { s with inFlight := before ++ after }
  | hostReceive {before after : List (Envelope R H)} {h : H} {packet : HeaderOctets}
      (hasFile : Bool) :
      s.inFlight = before ++ ⟨.leaf h, packet⟩ :: after →
      Step s (.hostReceive before.length hasFile) { s with
        inFlight := before ++ after ++ T.hostReply h hasFile packet }

/-- A list around its `k`-th element. -/
theorem split_at {α : Type*} {l : List α} {k : Nat} {x : α} (h : l[k]? = some x) :
    ∃ before after, l = before ++ x :: after ∧ before.length = k ∧
      l.eraseIdx k = before ++ after := by
  obtain ⟨hk, rfl⟩ := List.getElem?_eq_some_iff.mp h
  refine ⟨l.take k, l.drop (k + 1), ?_, by simp; omega, List.eraseIdx_eq_take_drop_succ l k⟩
  rw [List.getElem_cons_drop, List.take_append_drop]

/-- What is left when one thing is taken out was there before. -/
theorem mem_of_split {α : Type*} {l before after : List α} {x y : α}
    (h : l = before ++ x :: after) (hy : y ∈ before ++ after) : y ∈ l := by
  rw [h]
  exact ((List.sublist_cons_self x after).append_left before).subset hy

theorem getElem?_of_split {α : Type*} {l before after : List α} {x : α}
    (h : l = before ++ x :: after) : l[before.length]? = some x := by
  rw [h]
  simp

/-- What is taken out was there. -/
theorem mem_split {α : Type*} {l before after : List α} {x : α}
    (h : l = before ++ x :: after) : x ∈ l := by
  rw [h]
  exact List.mem_append_right _ (List.mem_cons_self ..)

variable {T} {s s' : State R H} {e : Event H}

/-- The inversion lemma: every event is one of the five. -/
theorem step_cases (h : T.step s e = some s') : T.Step s e s' := by
  cases e with
  | announce x c =>
    obtain rfl := Option.some.inj h
    exact .announce x c
  | request x c =>
    obtain rfl := Option.some.inj h
    exact .request x c
  | deliver k =>
    simp only [step] at h
    split at h
    next r i packet hk =>
      obtain ⟨before, after, hsplit, rfl, herase⟩ := split_at hk
      rw [herase] at h
      split at h
      next t sent hh =>
        obtain rfl := Option.some.inj h
        exact .handle hsplit hh
      next hh =>
        obtain rfl := Option.some.inj h
        exact .throws hsplit hh
    next => cases h
    next => cases h
  | hostReceive k hasFile =>
    simp only [step] at h
    split at h
    next x packet hk =>
      obtain ⟨before, after, hsplit, rfl, herase⟩ := split_at hk
      rw [herase] at h
      obtain rfl := Option.some.inj h
      exact .hostReceive hasFile hsplit
    next => cases h
    next => cases h

omit [DecidableEq R] in
/-- A packet that a router sends arrives at the far end of its interface. -/
theorem mem_send {r : R} {sent : List Sent} {x : Envelope R H} (h : x ∈ T.send r sent) :
    ∃ i, (i, x.packet) ∈ sent ∧ T.far r i = some x.dest := by
  obtain ⟨⟨i, p⟩, hmem, hx⟩ := List.mem_filterMap.mp h
  obtain ⟨e, hfar, rfl⟩ := Option.map_eq_some_iff.mp hx
  exact ⟨i, hmem, hfar⟩

omit [DecidableEq R] in
/-- A host sends nothing but responses to the requests it receives. -/
theorem mem_hostReply {h : H} {hasFile : Bool} {packet : HeaderOctets} {x : Envelope R H}
    (hx : x ∈ T.hostReply h hasFile packet) :
    PacketTypes.ofOctet packet.packetType = some .REQUEST ∧
      x = T.fromHost h (octets .RESPONSE packet.contentID packet.hostIDOrHops) := by
  unfold hostReply at hx
  split at hx
  next hreq => exact ⟨hreq.2, List.mem_singleton.mp hx⟩
  next => exact absurd hx List.not_mem_nil

/-- Router `r` sends `packet`, whatever interface it came in on, to `e`,
unchanged and once. -/
def SendsOn (T : Topology R H) (packet : HeaderOctets) (s : State R H) (r : R)
    (e : Far R Int H) : Prop :=
  ∀ i, ∃ t sent, handlePacket (T.num_interfaces r) (s.tables r) ⟨packet, i⟩ = some (t, sent) ∧
    T.send r sent = [⟨e, packet⟩]

omit [DecidableEq R] in
/-- What is sent through one interface arrives at its far end. -/
theorem send_singleton {r : R} {i : Int} {e : Far R Int H} {packet : HeaderOctets}
    (hfar : T.far r i = some e) : T.send r [(i, packet)] = [⟨e, packet⟩] := by
  unfold send
  rw [List.filterMap_cons_some (by rw [hfar]; rfl)]
  rfl

omit [DecidableEq R] in
/-- A packet that is sent on goes through some interface. -/
theorem SendsOn.exists_sent {packet : HeaderOctets} {r : R} {e : Far R Int H}
    (h : T.SendsOn packet s r e) :
    ∃ t sent i, handlePacket (T.num_interfaces r) (s.tables r) ⟨packet, 0⟩ = some (t, sent) ∧
      (i, packet) ∈ sent ∧ T.far r i = some e := by
  obtain ⟨t, sent, ht, hsent⟩ := h 0
  obtain ⟨i, hmem, hfar⟩ := mem_send (hsent ▸ List.mem_singleton.mpr rfl)
  exact ⟨t, sent, i, ht, hmem, hfar⟩

end Topology

/-- Two routers with a host each: interface 0 of the routers is their link, and
host `h` is at interface 1 of router `h`. The hosts' IDs are 10 and 11. -/
def line : Topology Bool Bool where
  far r i :=
    if i = 0 then some (.node (!r) 0)
    else if i = 1 then some (.leaf r)
    else none
  attach h := (h, 1)
  num_interfaces _ := 2
  hostID h := if h then 11 else 10
  symm := by
    intro r i r' i' h
    split_ifs at h with h0 h1
    · cases h
      rw [h0, Bool.not_not]
      rfl
    · cases h
  leaf := by
    intro r i h
    constructor
    · intro hfar
      split_ifs at hfar with h0 h1
      · cases hfar
      · cases hfar
        rw [h1]
    · intro hatt
      cases hatt
      rfl
  in_range := by
    intro r i e h
    split_ifs at h with h0 h1 <;> omega

end ContentNetwork.Network
