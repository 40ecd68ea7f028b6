import ContentNetwork.Simplified.Tables

/-!
# The three packet cases of the simplified router

The `switch` of `main` in the simplified `router.cpp`, on the message popped
from the queue. Each case reads main's local copies of the tables, sends
packets, and then updates the *shared* tables in a section under a mutex. The
two halves are two functions, because the timer can run between them:

- `dispatch` is the part before the lock. Its result is what is sent and the
  variables that the locked section still needs (`Work`).
- `Work.commit` is the locked section, on the shared tables.

A case sees three octets of the header (type, content ID, host ID or hop
count) and the arrival interface. `MySendingPorts.at(i)` throws
`std::out_of_range` outside the configured interfaces: `dispatch` is `none`
then. `interface_send` starts at `-1` and is compared with `-1`, as in the
source.
-/

namespace ContentNetwork.Simplified

open Lib

/-- The three header octets the cases read. -/
structure HeaderOctets where
  packetType : UInt8
  contentID : UInt8
  hostIDOrHops : UInt8
  deriving DecidableEq, Repr

/-- `class Message`: a received packet and its arrival interface. -/
structure Message where
  _recvPacket : HeaderOctets
  _RxInterface_Num : Int
  deriving DecidableEq, Repr

/-- `(int)getOctet(CONTENTID_POS)`. -/
def HeaderOctets.ContentID (p : HeaderOctets) : Int := p.contentID.toNat

/-- `(int)getOctet(HOSTID_OR_HOPS_POS)`, called `HostID` or `hops`. -/
def HeaderOctets.hostOrHops (p : HeaderOctets) : Int := p.hostIDOrHops.toNat

/-- What a request or response is searched by in the pending table. -/
def HeaderOctets.requestKey (p : HeaderOctets) : Int × Int := (p.ContentID, p.hostOrHops)

/-- The packet after `setOctet(((unsigned char)(hops+1)), HOSTID_OR_HOPS_POS)`. -/
def HeaderOctets.nextHop (p : HeaderOctets) : HeaderOctets :=
  { p with hostIDOrHops := UInt8.ofInt (p.hostOrHops + 1) }

theorem contentID_eq {a b : HeaderOctets} (h : a.ContentID = b.ContentID) :
    a.contentID = b.contentID :=
  UInt8.toNat_inj.mp (Int.natCast_inj.mp h)

theorem requestKey_inj {a b : HeaderOctets} (h : a.requestKey = b.requestKey) :
    a.contentID = b.contentID ∧ a.hostIDOrHops = b.hostIDOrHops := by
  obtain ⟨hc, hh⟩ := Prod.mk.inj h
  exact ⟨contentID_eq hc, UInt8.toNat_inj.mp (Int.natCast_inj.mp hh)⟩

/-- A packet handed to the sending port of an interface. -/
abbrev Sent := Int × HeaderOctets

/-- `MySendingPorts.at(i)->sendPacket(p)` with `n` sending ports. -/
def sendThrough (n : Nat) (i : Int) (p : HeaderOctets) : Option (List Sent) :=
  if 0 ≤ i ∧ i < n then some [(i, p)] else none

/-- The header octets of a packet of type `t`. -/
def octets (t : PacketTypes) (contentID hostIDOrHops : UInt8) : HeaderOctets :=
  ⟨t.octet, contentID, hostIDOrHops⟩

theorem ofOctet_octets (t : PacketTypes) (contentID hostIDOrHops : UInt8) :
    PacketTypes.ofOctet (octets t contentID hostIDOrHops).packetType = some t :=
  PacketTypes.ofOctet_octet t

theorem octets_type_ne {t t' : PacketTypes} {contentID hostIDOrHops : UInt8} (h : t ≠ t') :
    PacketTypes.ofOctet (octets t contentID hostIDOrHops).packetType ≠ some t' := by
  rw [ofOctet_octets]
  exact fun he => h (Option.some.inj he)

/-- One more hop, modulo 256. -/
theorem nextHop_octets (t : PacketTypes) (c : UInt8) (n : Nat) :
    (octets t c (UInt8.ofNat n)).nextHop = octets t c (UInt8.ofNat (n + 1)) := by
  have hoctet : UInt8.ofInt (((UInt8.ofNat n).toNat : Int) + 1) = UInt8.ofNat (n + 1) := by
    apply UInt8.toNat_inj.mp
    rw [UInt8.ofInt, UInt8.toNat_ofNat', UInt8.toNat_ofNat', UInt8.toNat_ofNat']
    omega
  exact congrArg (HeaderOctets.mk _ _) hoctet

/-- The octets that the `Make…Packet` functions write. -/
theorem makeHeader_octets (t : PacketTypes) (cID third : Int) (p : Packet) :
    HeaderOctets.mk ((makeHeader t cID third p).header_.getOctet PACKET_TYPE_POS)
        ((makeHeader t cID third p).header_.getOctet CONTENTID_POS)
        ((makeHeader t cID third p).header_.getOctet HOSTID_OR_HOPS_POS)
      = octets t (UInt8.ofInt cID) (UInt8.ofInt third) := by
  obtain ⟨-, htype, hcontent, hthird⟩ := makeHeader_header t cID third p
  rw [htype, hcontent, hthird]
  rfl

/-- What a case carries into its locked section. -/
inductive Work
  | request (test_flag : Bool) (record_test_prt : PRTrecord)
  | response
  | announcement (flag : Bool) (record_test_rt : RTrecord)
  | default
  deriving DecidableEq, Repr

/-! ## Before the lock -/

/-- A pending record with its ttl put back. -/
def PRTrecord.refreshed (r : PRTrecord) : PRTrecord :=
  { r with ttl_val := g_PENDING_TABLE_EXPIRY_TIME }

@[simp] theorem PRTrecord.key_refreshed (r : PRTrecord) : r.refreshed.key = r.key := rfl

/-- `record_test_prt` after the search of `case REQUEST`: the record found,
with its ttl reset in the copy, or a new one. -/
def requestRecord (found : Option PRTrecord) (ContentID HostID interface : Int) : PRTrecord :=
  match found with
  | some r => r.refreshed
  | none =>
    { cID := ContentID, hID := HostID, interface := interface
      ttl_val := g_PENDING_TABLE_EXPIRY_TIME }

/-- `interface_send` after the search of the routing table. -/
def interfaceSend (found : Option RTrecord) : Int :=
  match found with
  | some r => r.interface
  | none => -1

@[simp] theorem interfaceSend_none : interfaceSend none = -1 := rfl

@[simp] theorem interfaceSend_some (r : RTrecord) : interfaceSend (some r) = r.interface := rfl

/-- `case REQUEST`: look the request up, forward it along the route. -/
def requestCase (n : Nat) (cache : Tables) (p_message : Message) : Option (List Sent × Work) :=
  let ContentID := p_message._recvPacket.ContentID
  let HostID := p_message._recvPacket.hostOrHops
  let found :=
    Keyed.lookup PRTrecord.key p_message._recvPacket.requestKey cache.PendingRequestTable
  let work := Work.request found.isSome
    (requestRecord found ContentID HostID p_message._RxInterface_Num)
  let interface_send :=
    interfaceSend (Keyed.lookup RTrecord.cID ContentID cache.RoutingTable)
  if interface_send ≠ -1 then
    (sendThrough n interface_send p_message._recvPacket).map fun sent => (sent, work)
  else some ([], work)

/-- `case RESPONSE`: send the response through the pending record's
interface, if there is one. -/
def responseCase (n : Nat) (cache : Tables) (p_message : Message) : Option (List Sent × Work) :=
  match
    Keyed.lookup PRTrecord.key p_message._recvPacket.requestKey cache.PendingRequestTable
  with
  | some r =>
    (sendThrough n r.interface p_message._recvPacket).map fun sent => (sent, .response)
  | none => some ([], .response)

/-- The record after the search of `case ANNOUNCEMENT`, and `isBroacast`. The
local copy that the source also updates is cleared before it is read again. -/
def adoptAnnouncement (found : Option RTrecord) (ContentID hops interface : Int) :
    RTrecord × Bool :=
  match found with
  | some r =>
    if hops ≤ r.num_hops then
      ({ r with num_hops := hops, interface := interface
                ttl_rt := g_ROUTING_TABLE_EXPIRY_TIME }, true)
    else ({ r with ttl_rt := g_ROUTING_TABLE_EXPIRY_TIME }, false)
  | none =>
    ({ cID := ContentID, num_hops := hops, interface := interface
       ttl_rt := g_ROUTING_TABLE_EXPIRY_TIME }, true)

/-- The loop that sends `p` through every interface but the one it came in. -/
def broadcast (n : Nat) (interface : Int) (p : HeaderOctets) : List Sent :=
  (List.range n).filterMap fun index : Nat =>
    if (index : Int) ≠ interface then some ((index : Int), p) else none

/-- `case ANNOUNCEMENT`: adopt the route if it is no longer than the known
one, and then send the announcement on with its hop count increased. -/
def announcementCase (n : Nat) (cache : Tables) (p_message : Message) : List Sent × Work :=
  let ContentID := p_message._recvPacket.ContentID
  let hops := p_message._recvPacket.hostOrHops
  let found := Keyed.lookup RTrecord.cID ContentID cache.RoutingTable
  let (record_test_rt, isBroacast) :=
    adoptAnnouncement found ContentID hops p_message._RxInterface_Num
  let sent :=
    if isBroacast then
      broadcast n p_message._RxInterface_Num p_message._recvPacket.nextHop
    else []
  (sent, .announcement found.isSome record_test_rt)

/-- The `switch`, up to the lock. -/
def dispatch (n : Nat) (cache : Tables) (p_message : Message) : Option (List Sent × Work) :=
  match PacketTypes.ofOctet p_message._recvPacket.packetType with
  | some .REQUEST => requestCase n cache p_message
  | some .RESPONSE => responseCase n cache p_message
  | some .ANNOUNCEMENT => some (announcementCase n cache p_message)
  | none => some ([], .default)

/-! ## Under the lock -/

/-- Under `mutex_prt` after a request: push the new record, or reset the ttl
of the first record with its key. -/
def commitRequest (test_flag : Bool) (record_test_prt : PRTrecord) (t : List PRTrecord) :
    List PRTrecord :=
  if test_flag then
    Keyed.refresh PRTrecord.key record_test_prt.key PRTrecord.refreshed t
  else t ++ [record_test_prt]

/-- Under `mutex_rt` after an announcement: push the new record, or move it to
the back in place of the first record of its content. When there is none any
more, nothing happens. -/
def commitAnnouncement (flag : Bool) (record_test_rt : RTrecord) (t : List RTrecord) :
    List RTrecord :=
  if flag then
    if (Keyed.lookup RTrecord.cID record_test_rt.cID t).isSome then
      Keyed.replace RTrecord.cID record_test_rt t
    else t
  else t ++ [record_test_rt]

/-- The locked section of each case. The one of `case RESPONSE` searches the
pending table and sets `erase_response`, but its `erase` is commented out. -/
def Work.commit (w : Work) (t : Tables) : Tables :=
  match w with
  | .request test_flag record_test_prt =>
    { t with
      PendingRequestTable := commitRequest test_flag record_test_prt t.PendingRequestTable }
  | .response => t
  | .announcement flag record_test_rt =>
    { t with RoutingTable := commitAnnouncement flag record_test_rt t.RoutingTable }
  | .default => t

/-! ## What each half can do -/

section Lemmas

variable {n : Nat} {t : Tables} {m : Message} {i : Int} {p : HeaderOctets}

theorem sendThrough_eq_some {sent : List Sent} (h : sendThrough n i p = some sent) :
    0 ≤ i ∧ i < n ∧ sent = [(i, p)] := by
  unfold sendThrough at h
  split at h
  next hi => exact ⟨hi.1, hi.2, (Option.some.inj h).symm⟩
  next => cases h

theorem sendThrough_of_range (h0 : 0 ≤ i) (h1 : i < n) :
    sendThrough n i p = some [(i, p)] := if_pos ⟨h0, h1⟩

theorem mem_broadcast {interface : Int} {s : Sent} :
    s ∈ broadcast n interface p ↔ 0 ≤ s.1 ∧ s.1 < n ∧ s.1 ≠ interface ∧ s.2 = p := by
  obtain ⟨j, q⟩ := s
  simp only [broadcast, List.mem_filterMap, List.mem_range]
  constructor
  · intro hsent
    obtain ⟨index, hindex, hs⟩ := hsent
    split at hs
    next hne =>
      obtain ⟨rfl, rfl⟩ := Prod.mk.inj (Option.some.inj hs)
      exact ⟨by omega, by omega, hne, rfl⟩
    next => cases hs
  · intro hs
    obtain ⟨h0, h1, hne, rfl⟩ := hs
    refine ⟨j.toNat, by omega, ?_⟩
    rw [Int.toNat_of_nonneg h0, if_pos hne]

/-- The record of a request has the key of the packet. -/
theorem requestRecord_key {found : Option PRTrecord} {ContentID HostID interface : Int}
    (hfound : ∀ r, found = some r → r.key = (ContentID, HostID)) :
    (requestRecord found ContentID HostID interface).key = (ContentID, HostID) := by
  unfold requestRecord
  cases found with
  | none => rfl
  | some r => exact hfound r rfl

/-- The record of a request has a full ttl. -/
theorem requestRecord_ttl (found : Option PRTrecord) (ContentID HostID interface : Int) :
    (requestRecord found ContentID HostID interface).ttl_val = g_PENDING_TABLE_EXPIRY_TIME := by
  unfold requestRecord
  cases found <;> rfl

/-- The record an announcement leaves keeps the content ID of what was found. -/
theorem adoptAnnouncement_cID {found : Option RTrecord} {ContentID hops interface : Int}
    (hfound : ∀ r, found = some r → r.cID = ContentID) :
    (adoptAnnouncement found ContentID hops interface).1.cID = ContentID := by
  unfold adoptAnnouncement
  cases found with
  | none => rfl
  | some r =>
    dsimp only
    split <;> exact hfound r rfl

/-- The record an announcement leaves has a full ttl. -/
theorem adoptAnnouncement_ttl (found : Option RTrecord) (ContentID hops interface : Int) :
    (adoptAnnouncement found ContentID hops interface).1.ttl_rt
      = g_ROUTING_TABLE_EXPIRY_TIME := by
  unfold adoptAnnouncement
  cases found with
  | none => rfl
  | some r =>
    dsimp only
    split <;> rfl

/-- An announcement with no more hops than what was found is adopted. -/
theorem adoptAnnouncement_of_le {found : Option RTrecord} {ContentID hops interface : Int}
    (hle : ∀ r, found = some r → hops ≤ r.num_hops) :
    (adoptAnnouncement found ContentID hops interface).1.num_hops = hops ∧
      (adoptAnnouncement found ContentID hops interface).1.interface = interface ∧
      (adoptAnnouncement found ContentID hops interface).2 = true := by
  unfold adoptAnnouncement
  cases found with
  | none => exact ⟨rfl, rfl, rfl⟩
  | some r =>
    dsimp only
    rw [if_pos (hle r rfl)]
    exact ⟨rfl, rfl, rfl⟩

/-- An announcement with more hops than the record found leaves its route. -/
theorem adoptAnnouncement_of_lt {r : RTrecord} {ContentID hops interface : Int}
    (hlt : r.num_hops < hops) :
    (adoptAnnouncement (some r) ContentID hops interface).1.num_hops = r.num_hops ∧
      (adoptAnnouncement (some r) ContentID hops interface).1.interface = r.interface ∧
      (adoptAnnouncement (some r) ContentID hops interface).2 = false := by
  unfold adoptAnnouncement
  dsimp only
  rw [if_neg (Int.not_le.mpr hlt)]
  exact ⟨rfl, rfl, rfl⟩

/-- The record's interface is the one found or the arrival interface. -/
theorem adoptAnnouncement_interface (found : Option RTrecord) (ContentID hops interface : Int) :
    (adoptAnnouncement found ContentID hops interface).1.interface = interface ∨
      ∃ r, found = some r ∧
        (adoptAnnouncement found ContentID hops interface).1.interface = r.interface := by
  unfold adoptAnnouncement
  cases found with
  | none => exact Or.inl rfl
  | some r =>
    dsimp only
    split
    · exact Or.inl rfl
    · exact Or.inr ⟨r, rfl, rfl⟩

end Lemmas

/-! ## The work of a dispatched packet -/

/-- `record_test_prt` of a request on the copies `cache`. -/
def requestedRecord (cache : Tables) (m : Message) : PRTrecord :=
  requestRecord (Keyed.lookup PRTrecord.key m._recvPacket.requestKey cache.PendingRequestTable)
    m._recvPacket.ContentID m._recvPacket.hostOrHops m._RxInterface_Num

/-- `record_test_rt` of an announcement on the copies `cache`. -/
def announcedRecord (cache : Tables) (m : Message) : RTrecord :=
  (adoptAnnouncement (Keyed.lookup RTrecord.cID m._recvPacket.ContentID cache.RoutingTable)
    m._recvPacket.ContentID m._recvPacket.hostOrHops m._RxInterface_Num).1

section Dispatch

variable {n : Nat} {cache : Tables} {m : Message} {sent : List Sent} {work : Work}

@[simp] theorem requestedRecord_key : (requestedRecord cache m).key = m._recvPacket.requestKey :=
  requestRecord_key fun _ hr => Keyed.lookup_key hr

@[simp] theorem requestedRecord_ttl :
    (requestedRecord cache m).ttl_val = g_PENDING_TABLE_EXPIRY_TIME :=
  requestRecord_ttl ..

@[simp] theorem announcedRecord_cID :
    (announcedRecord cache m).cID = m._recvPacket.ContentID :=
  adoptAnnouncement_cID fun _ hr => Keyed.lookup_key hr

@[simp] theorem announcedRecord_ttl :
    (announcedRecord cache m).ttl_rt = g_ROUTING_TABLE_EXPIRY_TIME :=
  adoptAnnouncement_ttl ..

/-- The work of a request. -/
theorem requestCase_work (h : requestCase n cache m = some (sent, work)) :
    work = .request
      (Keyed.lookup PRTrecord.key m._recvPacket.requestKey cache.PendingRequestTable).isSome
      (requestedRecord cache m) := by
  unfold requestCase at h
  dsimp only at h
  split at h
  · obtain ⟨_, _, hs⟩ := Option.map_eq_some_iff.mp h
    exact (congrArg Prod.snd hs).symm
  · exact (congrArg Prod.snd (Option.some.inj h)).symm

/-- The work of a response. -/
theorem responseCase_work (h : responseCase n cache m = some (sent, work)) :
    work = .response := by
  unfold responseCase at h
  split at h
  · obtain ⟨_, _, hs⟩ := Option.map_eq_some_iff.mp h
    exact (congrArg Prod.snd hs).symm
  · exact (congrArg Prod.snd (Option.some.inj h)).symm

/-- What an announcement sends. -/
theorem announcementCase_sent (h : announcementCase n cache m = (sent, work)) :
    sent = if (adoptAnnouncement
          (Keyed.lookup RTrecord.cID m._recvPacket.ContentID cache.RoutingTable)
          m._recvPacket.ContentID m._recvPacket.hostOrHops m._RxInterface_Num).2
        then broadcast n m._RxInterface_Num m._recvPacket.nextHop else [] :=
  (congrArg Prod.fst h).symm

/-- The work of an announcement. -/
theorem announcementCase_work (h : announcementCase n cache m = (sent, work)) :
    work = .announcement
      (Keyed.lookup RTrecord.cID m._recvPacket.ContentID cache.RoutingTable).isSome
      (announcedRecord cache m) :=
  (congrArg Prod.snd h).symm

theorem dispatch_request (ht : PacketTypes.ofOctet m._recvPacket.packetType = some .REQUEST) :
    dispatch n cache m = requestCase n cache m := by
  rw [dispatch, ht]

theorem dispatch_response (ht : PacketTypes.ofOctet m._recvPacket.packetType = some .RESPONSE) :
    dispatch n cache m = responseCase n cache m := by
  rw [dispatch, ht]

theorem dispatch_announcement
    (ht : PacketTypes.ofOctet m._recvPacket.packetType = some .ANNOUNCEMENT) :
    dispatch n cache m = some (announcementCase n cache m) := by
  rw [dispatch, ht]

theorem dispatch_default (ht : PacketTypes.ofOctet m._recvPacket.packetType = none) :
    dispatch n cache m = some ([], .default) := by
  rw [dispatch, ht]

/-- The four things a dispatched packet can be. -/
theorem dispatch_cases (h : dispatch n cache m = some (sent, work)) :
    (PacketTypes.ofOctet m._recvPacket.packetType = some .REQUEST ∧
      requestCase n cache m = some (sent, work)) ∨
    (PacketTypes.ofOctet m._recvPacket.packetType = some .RESPONSE ∧
      responseCase n cache m = some (sent, work)) ∨
    (PacketTypes.ofOctet m._recvPacket.packetType = some .ANNOUNCEMENT ∧
      announcementCase n cache m = (sent, work)) ∨
    (PacketTypes.ofOctet m._recvPacket.packetType = none ∧ sent = [] ∧ work = .default) := by
  unfold dispatch at h
  split at h
  next ht => exact Or.inl ⟨ht, h⟩
  next ht => exact Or.inr (Or.inl ⟨ht, h⟩)
  next ht => exact Or.inr (Or.inr (Or.inl ⟨ht, Option.some.inj h⟩))
  next ht =>
    obtain ⟨rfl, rfl⟩ := Prod.mk.inj (Option.some.inj h)
    exact Or.inr (Or.inr (Or.inr ⟨ht, rfl, rfl⟩))

end Dispatch

end ContentNetwork.Simplified
