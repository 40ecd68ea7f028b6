import ContentNetwork.Simplified.Cases

/-!
# The three packet cases of `simple_router`

The `switch` of `rx_function` in the `simple_router.cpp` of the ambitious
version, an earlier router without a message queue. Its records and packets
are those of `router.cpp`, its expiry times are those of the ambitious
`CommonProject.h`, and its timer only sleeps. As there, a case works on local
copies of the tables up to a lock (`dispatch`), and then on the shared tables
(`Work.commit`).

The cases differ from those of `router.cpp` in three places:

- `case RESPONSE` copies every record it scans into `record_test_prt`, and
  the locked section erases the record with the key that stands there then.
  The local `record_test_prt` is not initialized: what it holds when nothing
  is scanned is an argument.
- `case ANNOUNCEMENT` takes over the hop count of a shorter route, but not
  the interface it came from, and sends every announcement on.
- the locked section of `case ANNOUNCEMENT` updates a record in place.
-/

namespace ContentNetwork.SimpleRouter

open Lib
open Simplified (RTrecord PRTrecord Tables HeaderOctets Message Sent sendThrough interfaceSend
  broadcast)

def g_PENDING_TABLE_EXPIRY_TIME : Int := 25
def g_ROUTING_TABLE_EXPIRY_TIME : Int := 30

/-- What a case carries into its locked section. -/
inductive Work
  | request (test_flag : Bool) (record_test_prt : PRTrecord)
  | response (record_test_prt : PRTrecord)
  | announcement (flag : Bool) (record_test_rt : RTrecord)
  | default
  deriving DecidableEq, Repr

/-! ## Before the lock -/

/-- `record_test_prt` after the search of `case REQUEST`. -/
def requestRecord (found : Option PRTrecord) (ContentID HostID interface : Int) : PRTrecord :=
  match found with
  | some r => { r with ttl_val := g_PENDING_TABLE_EXPIRY_TIME }
  | none =>
    { cID := ContentID, hID := HostID, interface := interface
      ttl_val := g_PENDING_TABLE_EXPIRY_TIME }

/-- `case REQUEST`: look the request up, forward it along the route. -/
def requestCase (n : Nat) (cache : Tables) (p_message : Message) : Option (List Sent × Work) :=
  let ContentID := p_message._recvPacket.ContentID
  let HostID := p_message._recvPacket.hostOrHops
  let found :=
    Keyed.lookup PRTrecord.key p_message._recvPacket.requestKey cache.PendingRequestTable
  let work := Work.request found.isSome
    (requestRecord found ContentID HostID p_message._RxInterface_Num)
  let interface_send :=
    interfaceSend (Keyed.lookup RTrecord.cID ContentID cache.RoutingTable)
  if interface_send ≠ -1 then
    (sendThrough n interface_send p_message._recvPacket).map fun sent => (sent, work)
  else some ([], work)

/-- The loop of `case RESPONSE` over the records that are left, with what
`record_test_prt` holds. -/
def responseLoop (n : Nat) (packet : HeaderOctets) (record_test_prt : PRTrecord) :
    List PRTrecord → Option (List Sent × PRTrecord)
  | [] => some ([], record_test_prt)
  | r :: rest =>
    if r.cID = packet.ContentID ∧ r.hID = packet.hostOrHops then
      (sendThrough n r.interface packet).map fun sent => (sent, r)
    else responseLoop n packet r rest

/-- `case RESPONSE`. -/
def responseCase (n : Nat) (uninitialized : PRTrecord) (cache : Tables) (p_message : Message) :
    Option (List Sent × Work) :=
  (responseLoop n p_message._recvPacket uninitialized cache.PendingRequestTable).map fun r =>
    (r.1, .response r.2)

/-- `record_test_rt` after the search of `case ANNOUNCEMENT`. -/
def announcementRecord (found : Option RTrecord) (ContentID hops interface : Int) : RTrecord :=
  match found with
  | some r =>
    { r with
      num_hops := if hops < r.num_hops then hops else r.num_hops
      ttl_rt := g_ROUTING_TABLE_EXPIRY_TIME }
  | none =>
    { cID := ContentID, num_hops := hops, interface := interface
      ttl_rt := g_ROUTING_TABLE_EXPIRY_TIME }

/-- `case ANNOUNCEMENT`. -/
def announcementCase (n : Nat) (cache : Tables) (p_message : Message) : List Sent × Work :=
  let ContentID := p_message._recvPacket.ContentID
  let hops := p_message._recvPacket.hostOrHops
  let found := Keyed.lookup RTrecord.cID ContentID cache.RoutingTable
  (broadcast n p_message._RxInterface_Num p_message._recvPacket.nextHop,
    .announcement found.isSome
      (announcementRecord found ContentID hops p_message._RxInterface_Num))

/-- The `switch`, up to the lock. -/
def dispatch (n : Nat) (uninitialized : PRTrecord) (cache : Tables) (p_message : Message) :
    Option (List Sent × Work) :=
  match PacketTypes.ofOctet p_message._recvPacket.packetType with
  | some .REQUEST => requestCase n cache p_message
  | some .RESPONSE => responseCase n uninitialized cache p_message
  | some .ANNOUNCEMENT => some (announcementCase n cache p_message)
  | none => some ([], .default)

/-! ## Under the lock -/

/-- Under `mutex_prt` after a request: push the new record, or copy the ttl
into the first record with its key. -/
def commitRequest (test_flag : Bool) (record_test_prt : PRTrecord) (t : List PRTrecord) :
    List PRTrecord :=
  if test_flag then
    Keyed.refresh PRTrecord.key record_test_prt.key
      (fun r => { r with ttl_val := record_test_prt.ttl_val }) t
  else t ++ [record_test_prt]

/-- Under `mutex_prt` after a response: erase the first record with the key
of `record_test_prt`. -/
def commitResponse (record_test_prt : PRTrecord) (t : List PRTrecord) : List PRTrecord :=
  t.eraseP fun r => r.key = record_test_prt.key

/-- Under `mutex_rt` after an announcement: push the new record, or copy hop
count and ttl into the first record of its content. -/
def commitAnnouncement (flag : Bool) (record_test_rt : RTrecord) (t : List RTrecord) :
    List RTrecord :=
  if flag then
    Keyed.refresh RTrecord.cID record_test_rt.cID
      (fun r => { r with
        num_hops := record_test_rt.num_hops, ttl_rt := record_test_rt.ttl_rt }) t
  else t ++ [record_test_rt]

def Work.commit (w : Work) (t : Tables) : Tables :=
  match w with
  | .request test_flag record_test_prt =>
    { t with
      PendingRequestTable := commitRequest test_flag record_test_prt t.PendingRequestTable }
  | .response record_test_prt =>
    { t with PendingRequestTable := commitResponse record_test_prt t.PendingRequestTable }
  | .announcement flag record_test_rt =>
    { t with RoutingTable := commitAnnouncement flag record_test_rt t.RoutingTable }
  | .default => t

/-- A packet handled with no other thread in between: the copies are those of
the tables that are changed then. -/
def handlePacket (n : Nat) (uninitialized : PRTrecord) (t : Tables) (p_message : Message) :
    Option (Tables × List Sent) :=
  (dispatch n uninitialized t p_message).map fun r => (r.2.commit t, r.1)

/-! ## What each half can do -/

section Lemmas

variable {n : Nat} {uninitialized : PRTrecord} {cache t : Tables} {m : Message}
  {sent : List Sent} {work : Work}

/-- The record of a request has the key of the packet. -/
theorem requestRecord_key {found : Option PRTrecord} {ContentID HostID interface : Int}
    (hfound : ∀ r, found = some r → r.key = (ContentID, HostID)) :
    (requestRecord found ContentID HostID interface).key = (ContentID, HostID) := by
  unfold requestRecord
  cases found with
  | none => rfl
  | some r => exact hfound r rfl

/-- The record of an announcement has the content of the packet. -/
theorem announcementRecord_cID {found : Option RTrecord} {ContentID hops interface : Int}
    (hfound : ∀ r, found = some r → r.cID = ContentID) :
    (announcementRecord found ContentID hops interface).cID = ContentID := by
  unfold announcementRecord
  cases found with
  | none => rfl
  | some r => exact hfound r rfl

/-- `record_test_prt` of a request on the copies `cache`. -/
def requestedRecord (cache : Tables) (m : Message) : PRTrecord :=
  requestRecord (Keyed.lookup PRTrecord.key m._recvPacket.requestKey cache.PendingRequestTable)
    m._recvPacket.ContentID m._recvPacket.hostOrHops m._RxInterface_Num

/-- `record_test_rt` of an announcement on the copies `cache`. -/
def announcedRecord (cache : Tables) (m : Message) : RTrecord :=
  announcementRecord (Keyed.lookup RTrecord.cID m._recvPacket.ContentID cache.RoutingTable)
    m._recvPacket.ContentID m._recvPacket.hostOrHops m._RxInterface_Num

@[simp] theorem requestedRecord_key : (requestedRecord cache m).key = m._recvPacket.requestKey :=
  requestRecord_key fun _ hr => Keyed.lookup_key hr

@[simp] theorem announcedRecord_cID :
    (announcedRecord cache m).cID = m._recvPacket.ContentID :=
  announcementRecord_cID fun _ hr => Keyed.lookup_key hr

/-- The work of a request. -/
theorem requestCase_work (h : requestCase n cache m = some (sent, work)) :
    work = .request
      (Keyed.lookup PRTrecord.key m._recvPacket.requestKey cache.PendingRequestTable).isSome
      (requestedRecord cache m) := by
  unfold requestCase at h
  dsimp only at h
  split at h
  · obtain ⟨_, _, hs⟩ := Option.map_eq_some_iff.mp h
    exact (congrArg Prod.snd hs).symm
  · exact (congrArg Prod.snd (Option.some.inj h)).symm

/-- The work of a response is some erasure. -/
theorem responseCase_work (h : responseCase n uninitialized cache m = some (sent, work)) :
    ∃ record_test_prt, work = .response record_test_prt := by
  obtain ⟨⟨_, r⟩, _, hs⟩ := Option.map_eq_some_iff.mp h
  exact ⟨r, (congrArg Prod.snd hs).symm⟩

/-- The work of an announcement. -/
theorem announcementCase_work (h : announcementCase n cache m = (sent, work)) :
    work = .announcement
      (Keyed.lookup RTrecord.cID m._recvPacket.ContentID cache.RoutingTable).isSome
      (announcedRecord cache m) :=
  (congrArg Prod.snd h).symm

/-- The four things a dispatched packet can be. -/
theorem dispatch_cases (h : dispatch n uninitialized cache m = some (sent, work)) :
    (PacketTypes.ofOctet m._recvPacket.packetType = some .REQUEST ∧
      requestCase n cache m = some (sent, work)) ∨
    (PacketTypes.ofOctet m._recvPacket.packetType = some .RESPONSE ∧
      responseCase n uninitialized cache m = some (sent, work)) ∨
    (PacketTypes.ofOctet m._recvPacket.packetType = some .ANNOUNCEMENT ∧
      announcementCase n cache m = (sent, work)) ∨
    (PacketTypes.ofOctet m._recvPacket.packetType = none ∧ sent = [] ∧ work = .default) := by
  unfold dispatch at h
  split at h
  next ht => exact Or.inl ⟨ht, h⟩
  next ht => exact Or.inr (Or.inl ⟨ht, h⟩)
  next ht => exact Or.inr (Or.inr (Or.inl ⟨ht, Option.some.inj h⟩))
  next ht =>
    obtain ⟨rfl, rfl⟩ := Prod.mk.inj (Option.some.inj h)
    exact Or.inr (Or.inr (Or.inr ⟨ht, rfl, rfl⟩))

/-- The locked section of a request keeps the keys unique unless it pushes a
record whose key has come in since the copy. -/
theorem commitRequest_unique_iff {record_test_prt : PRTrecord} {test_flag : Bool}
    {t : List PRTrecord} (hu : Keyed.Unique PRTrecord.key t) :
    Keyed.Unique PRTrecord.key (commitRequest test_flag record_test_prt t) ↔
      (test_flag = false → Keyed.lookup PRTrecord.key record_test_prt.key t = none) := by
  unfold commitRequest
  refine Keyed.unique_refresh_or_push_iff ?_ hu
  exact fun _ => rfl

/-- The locked section of an announcement, likewise. -/
theorem commitAnnouncement_unique_iff {record_test_rt : RTrecord} {flag : Bool}
    {t : List RTrecord} (hu : Keyed.Unique RTrecord.cID t) :
    Keyed.Unique RTrecord.cID (commitAnnouncement flag record_test_rt t) ↔
      (flag = false → Keyed.lookup RTrecord.cID record_test_rt.cID t = none) := by
  unfold commitAnnouncement
  refine Keyed.unique_refresh_or_push_iff ?_ hu
  exact fun _ => rfl

end Lemmas

end ContentNetwork.SimpleRouter
