import ContentNetwork.Common.Project

/-!
# The header of an announcement along a path of routers

A host builds an announcement on a fresh packet and sends it; each router on
the path receives it, writes the next hop count with `setOctet` and sends the
packet it received. `setOctet` counts a byte each time it is called, also
when it overwrites one, and the count travels as the header size: after `k`
routers the header size is `3 + k` (`announcementPath_getSize`), while the
announcement still has three header bytes. From the second router on the
size exceeds `MAX_HEADER_SIZE`, and `makePacket` reads past `info_`: the
announcement gets over two routers (`announcementPath_isSome_iff`).
-/

namespace ContentNetwork

open Lib (Buf)

/-- What an announcement meets on one hop and does not determine: the
sender's `sendingbuf_`, the receiving router's port as earlier packets left
it, and the memory `new` hands out there. -/
structure Hop where
  sendingbuf_ : Buf UInt8 (MTU_SIZE + 1)
  port : ReceivingPort
  alloc : (n : Nat) → Buf UInt8 n

/-- One hop: `makePacket` at the sender, `receivePacket` at the router, then
the ANNOUNCEMENT case's `setOctet(((unsigned char)(hops+1)), HOSTID_OR_HOPS_POS)`.
The result is the packet the router sends next. -/
def relayAnnouncement (p : Packet) (hop : Hop) : Option Packet := do
  let (buf, pktlen) ← p.makePacket hop.sendingbuf_
  let port ← hop.port.receivePacket hop.alloc (buf.cells.take pktlen)
  let hops : Int := (port.pkt_.header_.getOctet HOSTID_OR_HOPS_POS).toNat
  return { port.pkt_ with
    header_ := port.pkt_.header_.setOctet (UInt8.ofInt (hops + 1)) HOSTID_OR_HOPS_POS }

/-- The packet that the last router of `path` sends, when a host announces
`cID` with hop count 0 on the fresh packet `p`. With no router, it is the
packet the host sends. -/
def announcementPath (p : Packet) (cID : Int) (path : List Hop) : Option Packet :=
  path.foldlM relayAnnouncement (MakeAnnouncementPacket p cID 0)

/-- Sent with header size 3 and header octets `(ANNOUNCEMENT, cID, k)`. -/
def WellFormedAnnouncement (cID : Int) (k : Nat) (p : Packet) : Prop :=
  p.header_.getSize = 3 ∧
    p.header_.getOctet PACKET_TYPE_POS = PacketTypes.ANNOUNCEMENT.octet ∧
    ((p.header_.getOctet CONTENTID_POS).toNat : Int) = cID ∧
    (p.header_.getOctet HOSTID_OR_HOPS_POS).toNat = k

/-- One hop makes the header one byte longer. -/
theorem relayAnnouncement_getSize {p p' : Packet} {hop : Hop}
    (h : relayAnnouncement p hop = some p') :
    p'.header_.getSize = p.header_.getSize + 1 := by
  simp only [relayAnnouncement, Option.bind_eq_bind, Option.bind_eq_some_iff] at h
  obtain ⟨⟨buf, pktlen⟩, hmake, port, hrecv, hp'⟩ := h
  obtain rfl := Option.some.inj hp'
  obtain ⟨hhead, hlen⟩ := Packet.makePacket_head? hmake
  have hle := Packet.makePacket_header_le hmake
  dsimp only at hhead hlen
  -- the datagram starts with the header size, which fits in its byte
  obtain ⟨rest, hcells⟩ : ∃ rest, buf.cells = p.header_.getSize.toUInt8 :: rest :=
    List.head?_eq_some_iff.mp hhead
  obtain ⟨m, rfl⟩ : ∃ m, pktlen = m + 1 := ⟨pktlen - 1, by omega⟩
  rw [hcells, List.take_succ_cons] at hrecv
  have hsize := ReceivingPort.receivePacket_getSize hrecv
  rw [PacketHdr.getSize_setOctet, hsize, Nat.toUInt8, UInt8.toNat_ofNat']
  unfold MAX_HEADER_SIZE at hle
  omega

/-- After `k` routers the header size is three more than `k`. -/
theorem announcementPath_getSize {info : Buf UInt8 MAX_HEADER_SIZE}
    {payload : Buf UInt8 DEFAULT_PAYLOAD_SIZE} {cID : Int} {path : List Hop} {p : Packet}
    (h : announcementPath (Packet.fresh info payload) cID path = some p) :
    p.header_.getSize = 3 + path.length := by
  have hgrow : ∀ (path : List Hop) (q : Packet),
      path.foldlM relayAnnouncement q = some p →
        p.header_.getSize = q.header_.getSize + path.length := by
    intro path
    induction path with
    | nil =>
      intro q hq
      obtain rfl := Option.some.inj hq
      rfl
    | cons hop path ih =>
      intro q hq
      rw [List.foldlM_cons, Option.bind_eq_bind, Option.bind_eq_some_iff] at hq
      obtain ⟨q', hrelay, hq'⟩ := hq
      rw [ih q' hq', relayAnnouncement_getSize hrelay, List.length_cons]
      omega
  rw [hgrow path _ h]
  rfl

/-- A packet without payload whose header size is at most `MAX_HEADER_SIZE` gets
over the next hop, again without payload. -/
theorem relayAnnouncement_isSome {p : Packet} (hop : Hop) (hsize : p.size_ = 0)
    (hheader : p.header_.getSize ≤ MAX_HEADER_SIZE) :
    ∃ p', relayAnnouncement p hop = some p' ∧ p'.size_ = 0 := by
  have hmax : p.header_.getSize ≤ 4 := hheader
  have hfits : p.Fits (MTU_SIZE + 1) := by
    refine ⟨hheader, by omega, ?_⟩
    unfold MTU_SIZE
    omega
  obtain ⟨buf, hmake⟩ := Packet.makePacket_isSome hfits (by decide) hop.sendingbuf_
  obtain ⟨hhead, -⟩ := Packet.makePacket_head? hmake
  -- the datagram is the header size and that many bytes
  obtain ⟨rest, hcells⟩ := List.head?_eq_some_iff.mp hhead
  have hlength := buf.length_eq
  dsimp only at hcells
  rw [hcells, List.length_cons] at hlength
  have htake : buf.cells.take (1 + p.size_ + p.header_.getSize)
      = p.header_.getSize.toUInt8 :: rest.take p.header_.getSize := by
    rw [hcells, hsize, Nat.add_zero, Nat.add_comm, List.take_succ_cons]
  have hoctet : p.header_.getSize.toUInt8.toNat = p.header_.getSize := by
    rw [Nat.toUInt8, UInt8.toNat_ofNat']
    omega
  have hrest : (rest.take p.header_.getSize).length = p.header_.getSize := by
    unfold MTU_SIZE at hlength
    rw [List.length_take]
    omega
  have hin : p.header_.getSize.toUInt8.toNat ≤ (rest.take p.header_.getSize).length := by
    omega
  have hdatagram : (rest.take p.header_.getSize).length + 1 ≤ MAXBUFLENGTH := by
    unfold MAXBUFLENGTH
    omega
  obtain ⟨port, hrecv, hport, -⟩ :=
    hop.port.receivePacket_isSome hop.alloc (hoctet.symm ▸ hheader) hin hdatagram
  have hempty : port.pkt_.size_ = 0 := by
    rw [hport, hoctet, hrest, Nat.sub_self]
  simp only [relayAnnouncement, hmake, htake, hrecv, Option.bind_eq_bind, Option.bind_some]
  exact ⟨_, rfl, hempty⟩

/-- A packet that got over a hop had a header that fits into `info_`. -/
theorem relayAnnouncement_header_le {p p' : Packet} {hop : Hop}
    (h : relayAnnouncement p hop = some p') : p.header_.getSize ≤ MAX_HEADER_SIZE := by
  simp only [relayAnnouncement, Option.bind_eq_bind, Option.bind_eq_some_iff] at h
  obtain ⟨_, hmake, _⟩ := h
  exact Packet.makePacket_header_le hmake

/-- A packet without payload gets over hops until its header is too long. -/
theorem relayPath_isSome_iff (path : List Hop) : ∀ q : Packet, q.size_ = 0 →
    ((∃ p, path.foldlM relayAnnouncement q = some p)
      ↔ path = [] ∨ q.header_.getSize + path.length ≤ MAX_HEADER_SIZE + 1) := by
  induction path with
  | nil => exact fun q _ => ⟨fun _ => Or.inl rfl, fun _ => ⟨q, rfl⟩⟩
  | cons hop path ih =>
    intro q hq
    rw [List.foldlM_cons, Option.bind_eq_bind, List.length_cons]
    by_cases hheader : q.header_.getSize ≤ MAX_HEADER_SIZE
    · obtain ⟨q', hq', hsize⟩ := relayAnnouncement_isSome hop hq hheader
      rw [hq', Option.bind_some, ih q' hsize, relayAnnouncement_getSize hq']
      cases path with
      | nil => simp; omega
      | cons => simp; omega
    · have hnone : relayAnnouncement q hop = none := by
        cases hrelay : relayAnnouncement q hop with
        | none => rfl
        | some q' => exact absurd (relayAnnouncement_header_le hrelay) hheader
      rw [hnone]
      simp
      omega

/-- The announcement gets over two routers. The second one's header size, 5,
exceeds `MAX_HEADER_SIZE`, and its packet cannot be encoded any more. -/
theorem announcementPath_isSome_iff (info : Buf UInt8 MAX_HEADER_SIZE)
    (payload : Buf UInt8 DEFAULT_PAYLOAD_SIZE) (cID : Int) (path : List Hop) :
    (∃ p, announcementPath (Packet.fresh info payload) cID path = some p) ↔ path.length ≤ 2 := by
  have hhost : (MakeAnnouncementPacket (Packet.fresh info payload) cID 0).header_.getSize = 3 := rfl
  unfold announcementPath
  rw [relayPath_isSome_iff path _ rfl, hhost]
  unfold MAX_HEADER_SIZE
  cases path with
  | nil => simp
  | cons => simp; omega

/-- **The announcement header is well formed only on its first link.** The
packet sent by the last of `k` routers has header size 3 and octets
`(ANNOUNCEMENT, cID, k)` exactly when there is no router. -/
theorem announcementPath_wellFormed_iff (info : Buf UInt8 MAX_HEADER_SIZE)
    (payload : Buf UInt8 DEFAULT_PAYLOAD_SIZE) {cID : Int} (h0 : 0 ≤ cID) (h1 : cID ≤ 255)
    (path : List Hop) :
    (∃ p, announcementPath (Packet.fresh info payload) cID path = some p ∧
        WellFormedAnnouncement cID path.length p)
      ↔ path.length = 0 := by
  constructor
  · intro hex
    obtain ⟨p, hp, hsize, -⟩ := hex
    have := announcementPath_getSize hp
    omega
  · intro hk
    obtain rfl := List.length_eq_zero_iff.mp hk
    refine ⟨_, rfl, ?_⟩
    obtain ⟨hsize, htype, hcontent, hhops⟩ :=
      makeHeader_header .ANNOUNCEMENT cID 0 (Packet.fresh info payload)
    refine ⟨hsize, htype, ?_, ?_⟩
    · rw [MakeAnnouncementPacket, hcontent]
      exact toNat_ofInt h0 h1
    · rw [MakeAnnouncementPacket, hhops]
      rfl

/-- A hop whose buffers are all zero. -/
def zeroHop : Hop :=
  { sendingbuf_ := zeroBuf _
    port :=
      { pkt_ := Packet.fresh (zeroBuf _) (zeroBuf _)
        tmpBuffer_ := zeroBuf _ }
    alloc := zeroBuf }

theorem announcementPath_wellFormed_host :
    ∃ p, announcementPath (Packet.fresh (zeroBuf _) (zeroBuf _)) 7 [] = some p ∧
      WellFormedAnnouncement 7 0 p :=
  (announcementPath_wellFormed_iff (zeroBuf _) (zeroBuf _) (by decide) (by decide) []).mpr rfl

/-- Content 7 relayed by one router: the packet it sends has header size 4. -/
theorem announcementPath_one_router :
    (∃ p, announcementPath (Packet.fresh (zeroBuf _) (zeroBuf _)) 7 [zeroHop] = some p ∧
      p.header_.getSize = 4) ∧
    ¬∃ p, announcementPath (Packet.fresh (zeroBuf _) (zeroBuf _)) 7 [zeroHop] = some p ∧
      WellFormedAnnouncement 7 1 p := by
  constructor
  · obtain ⟨p, hp⟩ := (announcementPath_isSome_iff _ _ 7 [zeroHop]).mpr (by decide)
    exact ⟨p, hp, announcementPath_getSize hp⟩
  · intro hex
    obtain ⟨p, hp, hsize, -⟩ := hex
    have := announcementPath_getSize hp
    rw [hsize] at this
    exact absurd this (by decide)

end ContentNetwork
