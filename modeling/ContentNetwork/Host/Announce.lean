import ContentNetwork.Common.Codec

/-!
# A round of announcements

`bcast` of `host.cpp` makes one packet for a round, and for each content of
`list1` writes an announcement into it and sends it. `MakeAnnouncementPacket`
writes three octets at fixed positions, but `setOctet` counts every call: the
header size is 3 for the first announcement of a round, 6 for the second. Then
`makePacket` reads behind the four bytes of `info_`, and the datagram starts
with the wrong size. So a round is as it should be iff it has at most one
announcement (`round_faithful_iff`). Everywhere else a packet is made anew for
each `Make…Packet`.
-/

namespace ContentNetwork.Host

open Lib (Buf)

/-- The loop of `bcast` from `p1` on, and the datagrams it sends. -/
def bcastLoop (my_packet : Packet) (sendingbuf_ : Buf UInt8 (MTU_SIZE + 1)) :
    List Int → Option (List (List UInt8))
  | [] => some []
  | p1 :: rest => do
    let my_packet := MakeAnnouncementPacket my_packet p1 0
    let (buf, pktlen) ← my_packet.makePacket sendingbuf_
    let sent ← bcastLoop my_packet buf rest
    return buf.cells.take pktlen :: sent

/-- One turn of `bcast`: `info` and `payload` are the arrays of the new packet. -/
def bcastRound (info : Buf UInt8 MAX_HEADER_SIZE) (payload : Buf UInt8 DEFAULT_PAYLOAD_SIZE)
    (sendingbuf_ : Buf UInt8 (MTU_SIZE + 1)) (list1 : List Int) : Option (List (List UInt8)) :=
  bcastLoop (Packet.fresh info payload) sendingbuf_ list1

/-- The datagram that announces content `c`. -/
def announcementDatagram (c : Int) : List UInt8 :=
  [3, PacketTypes.ANNOUNCEMENT.octet, UInt8.ofInt c, 0]

/-- One datagram for each content, in the order of the list; whatever port
receives it finds a header of three bytes and no payload. -/
structure FaithfulRound (list1 : List Int) (sent : List (List UInt8)) : Prop where
  datagrams : sent = list1.map announcementDatagram
  received : ∀ d ∈ sent, ∀ (alloc : (n : Nat) → Buf UInt8 n) (port : ReceivingPort),
    ∃ q, port.receivePacket alloc d = some q ∧ q.pkt_.header_.getSize = 3 ∧ q.pkt_.size_ = 0

variable {p : Packet} {c : Int} {buf : Buf UInt8 (MTU_SIZE + 1)}

/-- An announcement is received with its header and without payload. -/
theorem receive_announcementDatagram (c : Int) (alloc : (n : Nat) → Buf UInt8 n)
    (port : ReceivingPort) :
    ∃ q, port.receivePacket alloc (announcementDatagram c) = some q ∧
      q.pkt_.header_.getSize = 3 ∧ q.pkt_.size_ = 0 := by
  have hmax : (3 : UInt8).toNat ≤ MAX_HEADER_SIZE := by
    unfold MAX_HEADER_SIZE
    simp
  have hlen : [PacketTypes.ANNOUNCEMENT.octet, UInt8.ofInt c, 0].length + 1 ≤ MAXBUFLENGTH := by
    unfold MAXBUFLENGTH
    simp
  have hin : (3 : UInt8).toNat ≤ [PacketTypes.ANNOUNCEMENT.octet, UInt8.ofInt c, 0].length :=
    Nat.le_refl 3
  obtain ⟨q, hq, hsize, -⟩ := port.receivePacket_isSome alloc hmax hin hlen
  exact ⟨q, hq, ReceivingPort.receivePacket_getSize hq, hsize⟩

/-- The first announcement in a new packet. -/
theorem firstAnnouncement_datagram (hsize : p.size_ = 0) (hheader : p.header_.getSize = 0)
    (c : Int) (sendingbuf_ : Buf UInt8 (MTU_SIZE + 1)) :
    ∃ buf pktlen, (MakeAnnouncementPacket p c 0).makePacket sendingbuf_ = some (buf, pktlen) ∧
      buf.cells.take pktlen = announcementDatagram c := by
  have hgrown : (MakeAnnouncementPacket p c 0).header_.getSize = 3 := by
    show p.header_.getSize + 3 = 3
    rw [hheader]
  have hempty : (MakeAnnouncementPacket p c 0).size_ = 0 := hsize
  have hfits : (MakeAnnouncementPacket p c 0).Fits (MTU_SIZE + 1) := by
    refine ⟨?_, ?_, ?_⟩
    · rw [hgrown]
      unfold MAX_HEADER_SIZE
      omega
    · rw [hempty]
      exact Nat.zero_le _
    · rw [hgrown, hempty]
      unfold MTU_SIZE
      omega
  have hm : 2 ≤ MTU_SIZE + 1 := by
    unfold MTU_SIZE
    omega
  obtain ⟨buf, hmake⟩ := Packet.makePacket_isSome hfits hm sendingbuf_
  obtain ⟨-, hdatagram⟩ := Packet.makePacket_datagram hmake
  refine ⟨buf, _, hmake, hdatagram.trans ?_⟩
  rw [hgrown, hempty, List.take_zero, List.append_nil, MakeAnnouncementPacket, makeHeader_cells]
  rfl

theorem bcastLoop_cons_eq_some {rest : List Int} {sent : List (List UInt8)}
    (h : bcastLoop p buf (c :: rest) = some sent) :
    ∃ buf' pktlen sent', (MakeAnnouncementPacket p c 0).makePacket buf = some (buf', pktlen) ∧
      bcastLoop (MakeAnnouncementPacket p c 0) buf' rest = some sent' ∧
      sent = buf'.cells.take pktlen :: sent' := by
  obtain ⟨⟨buf', pktlen⟩, hmake, h⟩ := Option.bind_eq_some_iff.mp h
  obtain ⟨sent', hloop, h⟩ := Option.bind_eq_some_iff.mp h
  exact ⟨buf', pktlen, sent', hmake, hloop, (Option.some.inj h).symm⟩

/-- The loop stays inside `info_` only while three more bytes for each
announcement fit into it. -/
theorem bcastLoop_header_le {list1 : List Int} {sent : List (List UInt8)}
    (h : bcastLoop p buf list1 = some sent) :
    list1 = [] ∨ p.header_.getSize + 3 * list1.length ≤ MAX_HEADER_SIZE := by
  induction list1 generalizing p buf sent with
  | nil => exact Or.inl rfl
  | cons c rest ih =>
    obtain ⟨buf', pktlen, sent', hmake, hloop, -⟩ := bcastLoop_cons_eq_some h
    have hgrown : (MakeAnnouncementPacket p c 0).header_.getSize = p.header_.getSize + 3 := rfl
    have hle := Packet.makePacket_header_le hmake
    rw [hgrown] at hle
    refine Or.inr ?_
    rw [List.length_cons]
    rcases ih hloop with rfl | hrest
    · exact hle
    · rw [hgrown] at hrest
      omega

/-- **A round of announcements is faithful iff it announces at most one
content.** -/
theorem round_faithful_iff (info : Buf UInt8 MAX_HEADER_SIZE)
    (payload : Buf UInt8 DEFAULT_PAYLOAD_SIZE) (sendingbuf_ : Buf UInt8 (MTU_SIZE + 1))
    (list1 : List Int) :
    (∃ sent, bcastRound info payload sendingbuf_ list1 = some sent ∧ FaithfulRound list1 sent)
      ↔ list1.length ≤ 1 := by
  constructor
  · rintro ⟨sent, hsent, -⟩
    rcases bcastLoop_header_le hsent with rfl | hle
    · exact Nat.zero_le 1
    · change 0 + 3 * list1.length ≤ 4 at hle
      omega
  · intro hlen
    match list1 with
    | [] => exact ⟨[], rfl, rfl, fun d hd => absurd hd List.not_mem_nil⟩
    | [c] =>
      obtain ⟨buf, pktlen, hmake, hdatagram⟩ :=
        firstAnnouncement_datagram (p := Packet.fresh info payload) rfl rfl c sendingbuf_
      refine ⟨[announcementDatagram c], ?_, rfl, ?_⟩
      · simp only [bcastRound, bcastLoop, hmake, hdatagram, Option.bind_eq_bind, Option.bind_some]
        rfl
      · intro d hd alloc port
        rw [List.mem_singleton.mp hd]
        exact receive_announcementDatagram c alloc port

/-- Contents 7 and 8: there is no second announcement. -/
theorem round_two_contents :
    ¬∃ sent, bcastRound (zeroBuf _) (zeroBuf _) (zeroBuf _) [7, 8] = some sent ∧
      FaithfulRound [7, 8] sent := by
  rintro ⟨sent, hsent, -⟩
  rcases bcastLoop_header_le hsent with hnil | hle
  · cases hnil
  · change 0 + 3 * 2 ≤ 4 at hle
    omega

end ContentNetwork.Host
