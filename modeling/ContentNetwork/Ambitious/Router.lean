import ContentNetwork.Ambitious.PendingTable
import ContentNetwork.Ambitious.RoutingTable
import ContentNetwork.Simplified.Cases

/-!
# The three packet cases of the concurrent router

`HandleAnnouncementPacket`, `HandleRequestPackets` and the `switch` in `main`
of the other version's `Router.cpp`, on the message popped from the queue.
Unlike the simplified router, `main` works on the shared tables themselves,
and the only thing that runs beside it are the timer threads of the pending
records; so a packet is one step.

Packets and messages are those of the simplified router. An announcement is
sent on whether or not it improved the table, and through every interface, the
one it came in on included. But the process may end before that: see
`RoutingTable.stopTimer` for the parameter `returns`.
-/

namespace ContentNetwork.Ambitious

open Lib Simplified

/-- The tables of a router. -/
structure Router where
  p_RoutingTable : RoutingTable
  p_PendingTable : PendingTable
  deriving DecidableEq, Repr

def Router.empty : Router := ⟨.empty, .empty⟩

/-- The table after an announcement, the packet with its hop count increased,
and whether it is to be broadcast; `none` when the process has ended. -/
def HandleAnnouncementPacket (returns : Bool) (rt : RoutingTable) (recvPacket : HeaderOctets)
    (incomingRxInterface : Int) : Option (RoutingTable × HeaderOctets × Bool) :=
  (rt.handleAnnouncement returns recvPacket.ContentID recvPacket.hostOrHops
    incomingRxInterface).map fun rt => (rt, recvPacket.nextHop, true)

/-- The pending table after a request, and the interface of the route. -/
def HandleRequestPackets (rt : RoutingTable) (pt : PendingTable) (recvPacket : HeaderOctets)
    (incomingRxInterface : Int) : PendingTable × Int :=
  (pt.handleRequest recvPacket.ContentID recvPacket.hostOrHops incomingRxInterface,
    rt.GetInterfaceFromRoutingTable recvPacket.ContentID)

/-- `case REQUEST`, with `n` interfaces. `none` is the uncaught
`std::out_of_range` of `MySendingPorts.at`. -/
def requestCase (n : Nat) (t : Router) (p_message : Message) : Option (Router × List Sent) :=
  let (pt, TxIndex_) := HandleRequestPackets t.p_RoutingTable t.p_PendingTable
    p_message._recvPacket p_message._RxInterface_Num
  if TxIndex_ ≠ -1 then
    (sendThrough n TxIndex_ p_message._recvPacket).map fun sent =>
      ({ t with p_PendingTable := pt }, sent)
  else some ({ t with p_PendingTable := pt }, [])

/-- `case RESPONSE`, likewise. -/
def responseCase (n : Nat) (t : Router) (p_message : Message) : Option (Router × List Sent) :=
  match t.p_PendingTable.handleResponse p_message._recvPacket.ContentID
    p_message._recvPacket.hostOrHops with
  | (pt, some TxIndex) =>
    (sendThrough n TxIndex p_message._recvPacket).map fun sent =>
      ({ t with p_PendingTable := pt }, sent)
  | (_, none) => some (t, [])

/-- `case ANNOUNCEMENT`: the loop over the sending ports leaves none out. `none`
when the process has ended in `stopTimer`. -/
def announcementCase (returns : Bool) (n : Nat) (t : Router) (p_message : Message) :
    Option (Router × List Sent) :=
  match HandleAnnouncementPacket returns t.p_RoutingTable p_message._recvPacket
    p_message._RxInterface_Num with
  | some (rt, packet, broadcast) =>
    some ({ t with p_RoutingTable := rt },
      if broadcast then (List.range n).map fun index : Nat => ((index : Int), packet) else [])
  | none => none

/-- The `switch` of `main`. -/
def handlePacket (returns : Bool) (n : Nat) (t : Router) (p_message : Message) :
    Option (Router × List Sent) :=
  match PacketTypes.ofOctet p_message._recvPacket.packetType with
  | some .REQUEST => requestCase n t p_message
  | some .RESPONSE => responseCase n t p_message
  | some .ANNOUNCEMENT => announcementCase returns n t p_message
  | none => some (t, [])

variable {returns : Bool} {n : Nat} {t t' : Router} {m : Message} {sent : List Sent}

/-- An announcement that does not end the process is sent through every
interface. -/
theorem announcementCase_eq : announcementCase returns n t m
    = (t.p_RoutingTable.handleAnnouncement returns m._recvPacket.ContentID
        m._recvPacket.hostOrHops m._RxInterface_Num).map fun rt =>
      ({ t with p_RoutingTable := rt },
        (List.range n).map fun index : Nat => ((index : Int), m._recvPacket.nextHop)) := by
  unfold announcementCase HandleAnnouncementPacket
  cases t.p_RoutingTable.handleAnnouncement returns m._recvPacket.ContentID
    m._recvPacket.hostOrHops m._RxInterface_Num with
  | none => rfl
  | some rt => rfl

theorem handlePacket_announcement
    (ht : PacketTypes.ofOctet m._recvPacket.packetType = some .ANNOUNCEMENT) :
    handlePacket returns n t m
      = (t.p_RoutingTable.handleAnnouncement returns m._recvPacket.ContentID
          m._recvPacket.hostOrHops m._RxInterface_Num).map fun rt =>
        ({ t with p_RoutingTable := rt },
          (List.range n).map fun index : Nat => ((index : Int), m._recvPacket.nextHop)) := by
  unfold handlePacket
  rw [ht]
  exact announcementCase_eq

/-- What a router that has handled an announcement has done. -/
theorem announcement_handled
    (ht : PacketTypes.ofOctet m._recvPacket.packetType = some .ANNOUNCEMENT)
    (h : handlePacket returns n t m = some (t', sent)) :
    t.p_RoutingTable.handleAnnouncement returns m._recvPacket.ContentID m._recvPacket.hostOrHops
        m._RxInterface_Num = some t'.p_RoutingTable ∧
      t'.p_PendingTable = t.p_PendingTable ∧
      sent = (List.range n).map fun index : Nat => ((index : Int), m._recvPacket.nextHop) := by
  rw [handlePacket_announcement ht] at h
  obtain ⟨rt, hrt, he⟩ := Option.map_eq_some_iff.mp h
  obtain ⟨rfl, rfl⟩ := Prod.mk.inj he
  exact ⟨hrt, rfl, rfl⟩

variable (returns) in
/-- A request is recorded, and sent along the route if there is one. -/
theorem handlePacket_request
    (ht : PacketTypes.ofOctet m._recvPacket.packetType = some .REQUEST) {i : Int}
    (hi : t.p_RoutingTable.GetInterfaceFromRoutingTable m._recvPacket.ContentID = i)
    (h0 : 0 ≤ i) (h1 : i < n) :
    handlePacket returns n t m
      = some ({ t with
          p_PendingTable := t.p_PendingTable.handleRequest m._recvPacket.ContentID
            m._recvPacket.hostOrHops m._RxInterface_Num }, [(i, m._recvPacket)]) := by
  unfold handlePacket requestCase HandleRequestPackets
  rw [ht]
  dsimp only
  rw [hi, if_pos (by omega), sendThrough_of_range h0 h1]
  rfl

variable (returns) in
/-- A response goes where its pending record says; without one it is dropped. -/
theorem handlePacket_response
    (ht : PacketTypes.ofOctet m._recvPacket.packetType = some .RESPONSE) {i : Int}
    (hi : t.p_PendingTable.GetInterfaceFromPendingTable m._recvPacket.ContentID
      m._recvPacket.hostOrHops = i) :
    handlePacket returns n t m = if i = -1 then some (t, [])
      else (sendThrough n i m._recvPacket).map fun sent =>
        ({ t with
          p_PendingTable := t.p_PendingTable.DeleteRecord m._recvPacket.ContentID
            m._recvPacket.hostOrHops }, sent) := by
  unfold handlePacket responseCase PendingTable.handleResponse
  rw [ht]
  dsimp only
  rw [hi]
  by_cases hnone : i = -1
  · rw [if_neg (not_not_intro hnone), if_pos hnone]
  · rw [if_pos hnone, if_neg hnone]

/-- What is sent through one interface is the packet itself. -/
theorem forwarded_unchanged {i : Int} {u : Router} {packet : HeaderOctets}
    (h : ((sendThrough n i packet).map fun sent => (u, sent)) = some (t', sent)) :
    t' = u ∧ ∀ s ∈ sent, s.2 = packet := by
  obtain ⟨sent', hs, he⟩ := Option.map_eq_some_iff.mp h
  obtain ⟨rfl, rfl⟩ := Prod.mk.inj he
  obtain ⟨-, -, rfl⟩ := sendThrough_eq_some hs
  refine ⟨rfl, fun s hmem => ?_⟩
  obtain rfl := List.mem_singleton.mp hmem
  rfl

/-- Any other packet leaves the routing table, and is only sent on unchanged. -/
theorem handlePacket_other
    (ht : PacketTypes.ofOctet m._recvPacket.packetType ≠ some .ANNOUNCEMENT)
    (h : handlePacket returns n t m = some (t', sent)) :
    t'.p_RoutingTable = t.p_RoutingTable ∧ ∀ s ∈ sent, s.2 = m._recvPacket := by
  have hnil : ∀ s ∈ ([] : List Sent), s.2 = m._recvPacket := fun s hs => absurd hs List.not_mem_nil
  unfold handlePacket requestCase responseCase at h
  split at h
  next =>
    dsimp only at h
    split at h
    next =>
      obtain ⟨rfl, hsent⟩ := forwarded_unchanged h
      exact ⟨rfl, hsent⟩
    next =>
      obtain ⟨rfl, rfl⟩ := Prod.mk.inj (Option.some.inj h)
      exact ⟨rfl, hnil⟩
  next =>
    split at h
    next =>
      obtain ⟨rfl, hsent⟩ := forwarded_unchanged h
      exact ⟨rfl, hsent⟩
    next =>
      obtain ⟨rfl, rfl⟩ := Prod.mk.inj (Option.some.inj h)
      exact ⟨rfl, hnil⟩
  next hann => exact absurd hann ht
  next =>
    obtain ⟨rfl, rfl⟩ := Prod.mk.inj (Option.some.inj h)
    exact ⟨rfl, hnil⟩

/-! What a packet does to the pending table. -/

theorem request_handled
    (ht : PacketTypes.ofOctet m._recvPacket.packetType = some .REQUEST)
    (h : handlePacket returns n t m = some (t', sent)) :
    t'.p_PendingTable = t.p_PendingTable.handleRequest m._recvPacket.ContentID
      m._recvPacket.hostOrHops m._RxInterface_Num := by
  unfold handlePacket requestCase at h
  rw [ht] at h
  dsimp only at h
  split at h
  next =>
    rw [(forwarded_unchanged h).1]
    rfl
  next =>
    rw [← (Prod.mk.inj (Option.some.inj h)).1]
    rfl

theorem response_handled
    (ht : PacketTypes.ofOctet m._recvPacket.packetType = some .RESPONSE)
    (h : handlePacket returns n t m = some (t', sent)) :
    t'.p_PendingTable = (t.p_PendingTable.handleResponse m._recvPacket.ContentID
      m._recvPacket.hostOrHops).1 := by
  unfold handlePacket responseCase at h
  rw [ht] at h
  dsimp only at h
  split at h
  next pt TxIndex hresp => rw [(forwarded_unchanged h).1, hresp]
  next pt hresp =>
    obtain rfl := (Prod.mk.inj (Option.some.inj h)).1
    unfold PendingTable.handleResponse at hresp ⊢
    split at hresp
    next => cases (Prod.mk.inj hresp).2
    next hnone => rw [if_neg hnone]

/-- Requests and responses are what changes it. -/
theorem pending_handled (h : handlePacket returns n t m = some (t', sent)) :
    t'.p_PendingTable = t.p_PendingTable ∨
      (PacketTypes.ofOctet m._recvPacket.packetType = some .REQUEST ∧
        t'.p_PendingTable = t.p_PendingTable.handleRequest m._recvPacket.ContentID
          m._recvPacket.hostOrHops m._RxInterface_Num) ∨
      t'.p_PendingTable = (t.p_PendingTable.handleResponse m._recvPacket.ContentID
        m._recvPacket.hostOrHops).1 := by
  cases ht : PacketTypes.ofOctet m._recvPacket.packetType with
  | none =>
    unfold handlePacket at h
    rw [ht] at h
    exact Or.inl (congrArg Router.p_PendingTable (Prod.mk.inj (Option.some.inj h)).1).symm
  | some type =>
    cases type with
    | REQUEST => exact Or.inr (Or.inl ⟨rfl, request_handled ht h⟩)
    | RESPONSE => exact Or.inr (Or.inr (response_handled ht h))
    | ANNOUNCEMENT => exact Or.inl (announcement_handled ht h).2.1

end ContentNetwork.Ambitious
