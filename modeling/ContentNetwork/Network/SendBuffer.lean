import ContentNetwork.Common.Codec
import ContentNetwork.Host.Content

/-!
# Which packets fit into the sending buffer

`sendPacket` has `makePacket` write into `sendingbuf_`, which has `MTU_SIZE + 1`
bytes, and nothing compares the length with that. The one byte more is the
header size; the header itself is not counted, nor the byte 0xff that a host
appends to a file. So the response to a file fits if the file is four bytes
shorter than `MTU_SIZE`. A router receives up to `MAXBUFLENGTH` bytes and sends
them on, an announcement with one header byte more, so that what it forwards
fits if what it received does (`fitsSendBuffer_iff`).
-/

namespace ContentNetwork

open Lib (Buf)

namespace Packet

/-- What `makePacket` returns. -/
def streamLength (p : Packet) : Nat :=
  1 + p.size_ + p.header_.getSize

/-- `main` of a router handles `p` as an announcement. -/
def IsAnnouncement (p : Packet) : Prop :=
  PacketTypes.ofOctet (p.header_.getOctet PACKET_TYPE_POS) = some .ANNOUNCEMENT

/-- The packet that `main` of a router sends when it has received `p`, if it
sends any: `case ANNOUNCEMENT` writes the next hop count into it before. -/
def forwarded (p : Packet) : Option Packet :=
  match PacketTypes.ofOctet (p.header_.getOctet PACKET_TYPE_POS) with
  | some .ANNOUNCEMENT =>
    let hops : Int := (p.header_.getOctet HOSTID_OR_HOPS_POS).toNat
    some { p with header_ := p.header_.setOctet (UInt8.ofInt (hops + 1)) HOSTID_OR_HOPS_POS }
  | some _ => some p
  | none => none

variable {p p' : Packet} {m : Nat} {s : Buf UInt8 m} {out : Buf UInt8 m × Nat}

/-- A packet that is encoded without touching a byte behind the buffer fits. -/
theorem makePacket_streamLength (h : p.makePacket s = some out) :
    out.2 = p.streamLength ∧ p.streamLength ≤ m := by
  simp only [makePacket, Option.bind_eq_bind, Option.bind_eq_some_iff] at h
  obtain ⟨_, _, _, _, _, _, _, _, payload, hread, _, hwrite, hout⟩ := h
  obtain rfl := Option.some.inj hout
  obtain ⟨hle, -⟩ := Buf.write_eq_some hwrite
  rw [Buf.read_length hread] at hle
  refine ⟨rfl, ?_⟩
  unfold streamLength
  omega

/-- An announcement gets one byte longer on its way, any other packet not. -/
theorem streamLength_forwarded (h : p.forwarded = some p') :
    (p.IsAnnouncement ∧ p'.streamLength = p.streamLength + 1) ∨
      (¬p.IsAnnouncement ∧ p'.streamLength = p.streamLength) := by
  unfold forwarded at h
  split at h
  next ht =>
    obtain rfl := Option.some.inj h
    exact Or.inl ⟨ht, rfl⟩
  next t hne ht =>
    obtain rfl := Option.some.inj h
    exact Or.inr ⟨fun hann => hne (Option.some.inj (ht.symm.trans hann)), rfl⟩
  next => cases h

/-- A packet is as long as the datagram it was received from. -/
theorem streamLength_of_yields {datagram : List UInt8} (h : Yields datagram p) :
    p.streamLength = datagram.length := by
  have hsize := h.size
  unfold streamLength
  omega

end Packet

/-- A response: the header size, three header bytes, and what was read. -/
theorem Host.respondWith_streamLength {mem : Host.Memory} {var2 hID FileSize : Int}
    {Data : List UInt8} {my_packet : Packet}
    (h : Host.respondWith mem var2 hID FileSize Data = some my_packet) :
    my_packet.streamLength = Data.length + 4 := by
  obtain ⟨p, hrespond, -, hsize, -⟩ := Host.respondWith_isSome mem var2 hID FileSize Data
  rw [h] at hrespond
  obtain rfl := Option.some.inj hrespond
  rw [Packet.streamLength, Host.respondWith_getSize h, hsize]
  omega

/-- The response to a file: one byte more, the byte that was appended. -/
theorem Host.respond_streamLength (mem : Host.Memory) (var2 hID : Int) (file : List UInt8) :
    ∃ my_packet, Host.respond mem var2 hID file = some my_packet ∧
      my_packet.streamLength = file.length + 5 := by
  obtain ⟨my_packet, hrespond, -⟩ := Host.respond_isSome mem var2 hID file
  refine ⟨my_packet, hrespond, ?_⟩
  rw [Host.respondWith_streamLength hrespond, Host.readLoop_length]

/-- What a router has received is as long as the datagram. -/
theorem received_streamLength {alloc : (n : Nat) → Buf UInt8 n} {port q : ReceivingPort}
    {datagram : List UInt8} (hlen : datagram.length ≤ MAXBUFLENGTH)
    (h : port.receivePacket alloc datagram = some q) :
    q.pkt_.streamLength = datagram.length := by
  obtain ⟨a, rest, rfl, -⟩ := ReceivingPort.receivePacket_eq_some h hlen
  obtain ⟨hyields, -⟩ := ReceivingPort.receivePacket_yields h hlen
  exact Packet.streamLength_of_yields hyields

/-- **The response to a file fits into the sending buffer iff the file is four
bytes shorter than `MTU_SIZE`; a forwarded packet does iff the datagram had at
most `MTU_SIZE` bytes, or `MTU_SIZE + 1` if it is no announcement.** -/
theorem fitsSendBuffer_iff (mem : Host.Memory) (var2 hID : Int) (file : List UInt8)
    (alloc : (n : Nat) → Buf UInt8 n) (port : ReceivingPort) (datagram : List UInt8) :
    (∃ my_packet, Host.respond mem var2 hID file = some my_packet ∧
      (my_packet.streamLength ≤ MTU_SIZE + 1 ↔ file.length + 4 ≤ MTU_SIZE)) ∧
    ∀ q p, datagram.length ≤ MAXBUFLENGTH →
      port.receivePacket alloc datagram = some q → q.pkt_.forwarded = some p →
      (p.streamLength ≤ MTU_SIZE + 1 ↔ datagram.length ≤ MTU_SIZE ∨
        datagram.length = MTU_SIZE + 1 ∧ ¬q.pkt_.IsAnnouncement) := by
  constructor
  · obtain ⟨my_packet, hrespond, hlength⟩ := Host.respond_streamLength mem var2 hID file
    refine ⟨my_packet, hrespond, ?_⟩
    rw [hlength]
    omega
  · intro q p hlen h hp
    have hreceived := received_streamLength hlen h
    rcases Packet.streamLength_forwarded hp with ⟨hann, hlength⟩ | ⟨hother, hlength⟩
    · have hno : ¬(datagram.length = MTU_SIZE + 1 ∧ ¬q.pkt_.IsAnnouncement) := fun h => h.2 hann
      rw [hlength, hreceived, or_iff_left hno]
      omega
    · rw [hlength, hreceived, and_iff_left hother]
      omega

/-- A request of four bytes is received, and forwarded within the buffer. -/
theorem request_fits_sendBuffer :
    ∃ q p, Host.zeroPort.receivePacket zeroBuf [3, 0, 7, 10] = some q ∧
      q.pkt_.forwarded = some p ∧ p.streamLength ≤ MTU_SIZE + 1 := by
  have hsome : ((Host.zeroPort.receivePacket zeroBuf [3, 0, 7, 10]).bind fun q =>
      q.pkt_.forwarded).isSome = true := by decide +kernel
  obtain ⟨p, hbind⟩ := Option.isSome_iff_exists.mp hsome
  obtain ⟨q, hq, hp⟩ := Option.bind_eq_some_iff.mp hbind
  have hlen : [3, 0, 7, (10 : UInt8)].length ≤ MTU_SIZE := by
    unfold MTU_SIZE
    simp
  exact ⟨q, p, hq, hp, ((fitsSendBuffer_iff Host.zeroMemory 7 10 [] _ _ _).2 q p (by decide) hq
    hp).mpr (Or.inl hlen)⟩

/-- The response to a file of 1500 bytes is four bytes too long. -/
theorem response_overflows_sendBuffer :
    ∃ my_packet, Host.respond Host.zeroMemory 7 10 (List.replicate 1500 0x41) = some my_packet ∧
      my_packet.streamLength = MTU_SIZE + 5 ∧ ¬my_packet.streamLength ≤ MTU_SIZE + 1 := by
  obtain ⟨my_packet, hrespond, hlength⟩ :=
    Host.respond_streamLength Host.zeroMemory 7 10 (List.replicate 1500 0x41)
  rw [List.length_replicate] at hlength
  refine ⟨my_packet, hrespond, hlength, ?_⟩
  rw [hlength]
  unfold MTU_SIZE
  omega

end ContentNetwork
