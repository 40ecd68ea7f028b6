import ContentNetwork.Lib.Buffer

/-!
# Packets on the wire

`PacketHdr`, `Packet` and the receiving half of `ReceivingPort` of
`common.h` / `common.cpp`, with the arrays they own. A datagram is

  `header size (1 byte) | header bytes | payload bytes`.

Mirroring notes:

- `info_` is an array of `MAX_HEADER_SIZE` bytes and `length_` is a counter
  that every setter increments, whatever position it writes. The two are
  independent, exactly as in the class.
- Every `memcpy` is a bounds-checked read followed by a bounds-checked
  write. `none` means that the C++ would touch a byte outside an array
  (undefined behaviour).
- `new char[n]` leaves its bytes indeterminate: allocation is an argument
  (`alloc`), and nothing is assumed about what it returns.
-/

namespace ContentNetwork

open Lib (Buf)

def MAX_HEADER_SIZE : Nat := 4
def MTU_SIZE : Nat := 1500
def MAXBUFLENGTH : Nat := 10000
def DEFAULT_PAYLOAD_SIZE : Nat := 512

/-- An all-zero buffer, as a concrete memory content. -/
def zeroBuf (n : Nat) : Buf UInt8 n :=
  ⟨List.replicate n 0, List.length_replicate⟩

/-- `class PacketHdr`: the header bytes and the header length. -/
structure PacketHdr where
  info_ : Buf UInt8 MAX_HEADER_SIZE
  length_ : Nat

namespace PacketHdr

/-- `setOctet`: store one byte and count it. -/
def setOctet (h : PacketHdr) (c : UInt8) (position : Fin MAX_HEADER_SIZE) : PacketHdr :=
  { info_ := h.info_.set position c
    length_ := h.length_ + 1 }

/-- `getOctet`. -/
def getOctet (h : PacketHdr) (position : Fin MAX_HEADER_SIZE) : UInt8 :=
  h.info_.get position

/-- `getSize`. -/
def getSize (h : PacketHdr) : Nat := h.length_

@[simp] theorem getSize_setOctet (h : PacketHdr) (c : UInt8) (position : Fin MAX_HEADER_SIZE) :
    (h.setOctet c position).getSize = h.getSize + 1 := rfl

@[simp] theorem getOctet_setOctet (h : PacketHdr) (c : UInt8) (p q : Fin MAX_HEADER_SIZE) :
    (h.setOctet c p).getOctet q = if p = q then c else h.getOctet q :=
  Buf.get_set ..

end PacketHdr

/-- `class Packet`: `size_` bytes of the payload buffer are in use, `length_`
are allocated. -/
structure Packet where
  size_ : Nat
  length_ : Nat
  payload_ : Buf UInt8 length_
  header_ : PacketHdr

namespace Packet

/-- `Packet::Packet()`: an empty payload and an empty header; the two arrays
hold whatever the allocator left there. -/
def fresh (info : Buf UInt8 MAX_HEADER_SIZE) (payload : Buf UInt8 DEFAULT_PAYLOAD_SIZE) :
    Packet :=
  { size_ := 0
    length_ := DEFAULT_PAYLOAD_SIZE
    payload_ := payload
    header_ := { info_ := info, length_ := 0 } }

/-- `setPayloadSize`: grow the buffer to one and a half times the size when
it is too small. -/
def setPayloadSize (alloc : (n : Nat) → Buf UInt8 n) (p : Packet) (size : Nat) : Packet :=
  if size > p.length_ then
    { p with size_ := size, length_ := 3 * size / 2, payload_ := alloc (3 * size / 2) }
  else { p with size_ := size }

/-- `fillPayload`: set the size, then copy `size` bytes from `inputstream`. A
negative size reaches `memcpy` as a huge count. -/
def fillPayload (alloc : (n : Nat) → Buf UInt8 n) (p : Packet) (size : Int)
    (inputstream : List UInt8) : Option Packet :=
  if size < 0 ∨ inputstream.length < size.toNat then none
  else
    let p' := p.setPayloadSize alloc size.toNat
    (p'.payload_.write 0 (inputstream.take size.toNat)).map fun payload =>
      { p' with payload_ := payload }

/-- `makePacket`: header size, header and payload into `streambuf`; returns
the buffer and the number of bytes to send. -/
def makePacket {m : Nat} (p : Packet) (streambuf : Buf UInt8 m) : Option (Buf UInt8 m × Nat) := do
  let b ← streambuf.write 0 [(p.header_.getSize &&& 0xff).toUInt8]
  let b ← b.write 1 [0x00]
  let header ← p.header_.info_.read 0 p.header_.getSize
  let b ← b.write 1 header
  let payload ← p.payload_.read 0 p.size_
  let b ← b.write (1 + p.header_.getSize) payload
  return (b, 1 + p.size_ + p.header_.getSize)

/-- `extractHeader`: the first byte is the header size; that many bytes are
copied into `info_`. -/
def extractHeader {m : Nat} (p : Packet) (streambuf : Buf UInt8 m) : Option Packet := do
  let a ← streambuf.cells.head?
  let bytes ← streambuf.read 1 a.toNat
  let info ← p.header_.info_.write 0 bytes
  return { p with header_ := { info_ := info, length_ := a.toNat } }

/-- An encodable packet has a header no longer than `info_`. -/
theorem makePacket_header_le {m : Nat} {p : Packet} {s : Buf UInt8 m} {out : Buf UInt8 m × Nat}
    (h : p.makePacket s = some out) : p.header_.getSize ≤ MAX_HEADER_SIZE := by
  simp only [makePacket, Option.bind_eq_bind, Option.bind_eq_some_iff] at h
  obtain ⟨_, _, _, _, header, hread, _⟩ := h
  have := (Buf.read_eq_some hread).1
  omega

/-- A packet whose header and payload lie inside their arrays, and whose
encoding fits into `m` bytes. -/
structure Fits (p : Packet) (m : Nat) : Prop where
  header : p.header_.getSize ≤ MAX_HEADER_SIZE
  payload : p.size_ ≤ p.length_
  stream : 1 + p.size_ + p.header_.getSize ≤ m

/-- A packet that fits is encoded. -/
theorem makePacket_isSome {m : Nat} {p : Packet} (h : p.Fits m) (hm : 2 ≤ m) (s : Buf UInt8 m) :
    ∃ b, p.makePacket s = some (b, 1 + p.size_ + p.header_.getSize) := by
  obtain ⟨hheader, hpayload, hstream⟩ := h
  obtain ⟨b₀, h₀⟩ : ∃ b, s.write 0 [(p.header_.getSize &&& 0xff).toUInt8] = some b :=
    s.write_of_le (by simp only [List.length_singleton]; omega)
  obtain ⟨b₁, h₁⟩ : ∃ b, b₀.write 1 [0x00] = some b :=
    b₀.write_of_le (by simp only [List.length_singleton]; omega)
  obtain ⟨header, hread⟩ : ∃ l, p.header_.info_.read 0 p.header_.getSize = some l :=
    p.header_.info_.read_of_le (by omega)
  obtain ⟨b₂, h₂⟩ : ∃ b, b₁.write 1 header = some b :=
    b₁.write_of_le (by rw [Buf.read_length hread]; omega)
  obtain ⟨payload, hread'⟩ : ∃ l, p.payload_.read 0 p.size_ = some l :=
    p.payload_.read_of_le (by omega)
  obtain ⟨b₃, h₃⟩ : ∃ b, b₂.write (1 + p.header_.getSize) payload = some b :=
    b₂.write_of_le (by rw [Buf.read_length hread']; omega)
  refine ⟨b₃, ?_⟩
  simp only [makePacket, h₀, h₁, hread, h₂, hread', h₃, Option.bind_eq_bind, Option.bind_some]
  rfl

/-- The first byte of an encoded packet is its header size. -/
theorem makePacket_head? {m : Nat} {p : Packet} {s : Buf UInt8 m} {out : Buf UInt8 m × Nat}
    (h : p.makePacket s = some out) :
    out.1.cells.head? = some p.header_.getSize.toUInt8 ∧ 0 < out.2 := by
  have hle := makePacket_header_le h
  simp only [makePacket, Option.bind_eq_bind, Option.bind_eq_some_iff] at h
  obtain ⟨b₀, h₀, b₁, h₁, header, _, b₂, h₂, payload, _, b₃, h₃, hout⟩ := h
  obtain rfl := Option.some.inj hout
  have hm : 0 < m := by
    have := (Buf.write_eq_some h₀).1
    simp at this
    omega
  have hmask : p.header_.getSize &&& 0xff = p.header_.getSize := by
    rw [show (0xff : Nat) = 2 ^ 8 - 1 from rfl, Nat.and_two_pow_sub_one_eq_mod]
    exact Nat.mod_eq_of_lt (by unfold MAX_HEADER_SIZE at hle; omega)
  refine ⟨?_, by dsimp only; omega⟩
  rw [Buf.write_head? h₃ (by omega) hm, Buf.write_head? h₂ (by omega) hm,
    Buf.write_head? h₁ (by omega) hm, Buf.write_zero_head? h₀, hmask]

/-- The datagram of an encoded packet: header size, header, payload. -/
theorem makePacket_datagram {m : Nat} {p : Packet} {s : Buf UInt8 m} {out : Buf UInt8 m × Nat}
    (h : p.makePacket s = some out) :
    p.size_ ≤ p.length_ ∧ out.1.cells.take out.2
      = p.header_.getSize.toUInt8
        :: (p.header_.info_.cells.take p.header_.getSize ++ p.payload_.cells.take p.size_) := by
  have hle := makePacket_header_le h
  simp only [makePacket, Option.bind_eq_bind, Option.bind_eq_some_iff] at h
  obtain ⟨b₀, h₀, b₁, h₁, header, hread, b₂, h₂, payload, hread', b₃, h₃, hout⟩ := h
  obtain rfl := Option.some.inj hout
  have hmask : p.header_.getSize &&& 0xff = p.header_.getSize := by
    rw [show (0xff : Nat) = 2 ^ 8 - 1 from rfl, Nat.and_two_pow_sub_one_eq_mod]
    exact Nat.mod_eq_of_lt (by unfold MAX_HEADER_SIZE at hle; omega)
  have hheader := Buf.read_length hread
  have hpayload := Buf.read_length hread'
  have hlen : 1 + p.size_ + p.header_.getSize = 1 + p.header_.getSize + payload.length := by omega
  have hlen' : 1 + p.header_.getSize = 1 + header.length := by omega
  have hfirst : b₁.cells.take 1 = [p.header_.getSize.toUInt8] := by
    have hsize := Buf.write_take h₀
    rw [hmask] at hsize
    rw [Buf.write_take_of_le h₁ (Nat.le_refl 1)]
    exact hsize
  constructor
  · have := (Buf.read_eq_some hread').1
    omega
  · dsimp only
    rw [hlen, Buf.write_take h₃, hlen', Buf.write_take h₂, hfirst, (Buf.read_eq_some hread).2,
      (Buf.read_eq_some hread').2]
    rfl

/-- The header size after `extractHeader` is the first byte of the stream. -/
theorem extractHeader_getSize {m : Nat} {p p' : Packet} {s : Buf UInt8 m} {a : UInt8}
    (h : p.extractHeader s = some p') (ha : s.cells.head? = some a) :
    p'.header_.getSize = a.toNat := by
  simp only [extractHeader, Option.bind_eq_bind, Option.bind_eq_some_iff] at h
  obtain ⟨a', ha', _, _, _, _, hp'⟩ := h
  rw [ha, Option.some.injEq] at ha'
  subst ha'
  obtain rfl := Option.some.inj hp'
  rfl

/-- A header that lies inside the stream and fits into `info_` is extracted. -/
theorem extractHeader_isSome {m : Nat} (p : Packet) {s : Buf UInt8 m} {a : UInt8}
    (ha : s.cells.head? = some a) (hmax : a.toNat ≤ MAX_HEADER_SIZE) (hm : 1 + a.toNat ≤ m) :
    ∃ p', p.extractHeader s = some p' := by
  obtain ⟨bytes, hread⟩ : ∃ l, s.read 1 a.toNat = some l := s.read_of_le hm
  obtain ⟨info, hwrite⟩ : ∃ b, p.header_.info_.write 0 bytes = some b :=
    p.header_.info_.write_of_le (by rw [Buf.read_length hread]; omega)
  refine ⟨{ p with header_ := ⟨info, a.toNat⟩ }, ?_⟩
  simp only [extractHeader, ha, hread, hwrite, Option.bind_eq_bind, Option.bind_some]
  rfl

/-- The payload buffer is at least as long as the size that was set. -/
theorem setPayloadSize_size (alloc : (n : Nat) → Buf UInt8 n) (p : Packet) (size : Nat) :
    (p.setPayloadSize alloc size).size_ = size ∧ size ≤ (p.setPayloadSize alloc size).length_ := by
  unfold setPayloadSize
  split
  · refine ⟨rfl, ?_⟩
    dsimp only
    omega
  · exact ⟨rfl, by dsimp only; omega⟩

/-- A payload that lies inside the stream is copied. -/
theorem fillPayload_isSome (alloc : (n : Nat) → Buf UInt8 n) (p : Packet) {size : Nat}
    {input : List UInt8} (h : size ≤ input.length) :
    ∃ p', p.fillPayload alloc size input = some p' ∧ p'.size_ = size ∧ size ≤ p'.length_ := by
  obtain ⟨hsize, hlength⟩ := p.setPayloadSize_size alloc size
  obtain ⟨payload, hwrite⟩ :
      ∃ b, (p.setPayloadSize alloc size).payload_.write 0 (input.take size) = some b :=
    Buf.write_of_le _ (by rw [List.length_take]; omega)
  refine ⟨{ p.setPayloadSize alloc size with payload_ := payload }, ?_, hsize, hlength⟩
  have hnot : ¬((size : Int) < 0 ∨ input.length < (size : Int).toNat) := by omega
  unfold fillPayload
  rw [if_neg hnot, Int.toNat_natCast]
  dsimp only
  rw [hwrite]
  rfl

/-- `fillPayload` leaves the header alone. -/
theorem fillPayload_header {alloc : (n : Nat) → Buf UInt8 n} {p p' : Packet} {size : Int}
    {input : List UInt8} (h : p.fillPayload alloc size input = some p') :
    p'.header_ = p.header_ := by
  unfold fillPayload at h
  split at h
  next => cases h
  next =>
    obtain ⟨payload, _, rfl⟩ := Option.map_eq_some_iff.mp h
    unfold setPayloadSize
    split <;> rfl

end Packet

/-- The part of `ReceivingPort` that `receivePacket` reads and writes: the
packet it hands out a pointer to, and the datagram buffer it reuses. -/
structure ReceivingPort where
  pkt_ : Packet
  tmpBuffer_ : Buf UInt8 MAXBUFLENGTH

/-- `ReceivingPort::receivePacket` on a datagram: `recvfrom` cuts it to
`MAXBUFLENGTH` bytes and leaves the rest of `tmpBuffer_` as it was. -/
def ReceivingPort.receivePacket (alloc : (n : Nat) → Buf UInt8 n) (port : ReceivingPort)
    (datagram : List UInt8) : Option ReceivingPort := do
  let received := datagram.take MAXBUFLENGTH
  let tmp ← port.tmpBuffer_.write 0 received
  let pkt ← port.pkt_.extractHeader tmp
  let hdrSize := pkt.header_.getSize
  let pkt ← pkt.fillPayload alloc ((received.length : Int) - 1 - hdrSize)
    (tmp.cells.drop (hdrSize + 1))
  return { pkt_ := pkt, tmpBuffer_ := tmp }

/-- A datagram that fits into the buffer and holds the header it announces is
received; what is behind the header is the payload. -/
theorem ReceivingPort.receivePacket_isSome (alloc : (n : Nat) → Buf UInt8 n)
    (port : ReceivingPort) {a : UInt8} {rest : List UInt8} (hmax : a.toNat ≤ MAX_HEADER_SIZE)
    (ha : a.toNat ≤ rest.length) (hlen : rest.length + 1 ≤ MAXBUFLENGTH) :
    ∃ port', port.receivePacket alloc (a :: rest) = some port' ∧
      port'.pkt_.size_ = rest.length - a.toNat ∧ port'.pkt_.size_ ≤ port'.pkt_.length_ := by
  have htake : (a :: rest).take MAXBUFLENGTH = a :: rest :=
    List.take_of_length_le (by rwa [List.length_cons])
  obtain ⟨tmp, htmp⟩ : ∃ b, port.tmpBuffer_.write 0 (a :: rest) = some b :=
    port.tmpBuffer_.write_of_le (by rw [List.length_cons]; omega)
  have hhead := Buf.write_zero_head? htmp
  obtain ⟨pkt, hpkt⟩ := port.pkt_.extractHeader_isSome hhead hmax (by omega)
  have hsize := Packet.extractHeader_getSize hpkt hhead
  have hin : rest.length - a.toNat ≤ (tmp.cells.drop (a.toNat + 1)).length := by
    rw [List.length_drop, tmp.length_eq]
    omega
  obtain ⟨pkt', hfill, hsize', hlength'⟩ := pkt.fillPayload_isSome alloc hin
  refine ⟨⟨pkt', tmp⟩, ?_, hsize', hsize' ▸ hlength'⟩
  have hcast :
      ((a :: rest).length : Int) - 1 - a.toNat = ((rest.length - a.toNat : Nat) : Int) := by
    rw [List.length_cons]
    omega
  simp only [receivePacket, htake, htmp, hpkt, hsize, hcast, hfill, Option.bind_eq_bind,
    Option.bind_some]
  rfl

/-- A received packet's header size is the first byte of its datagram. -/
theorem ReceivingPort.receivePacket_getSize {alloc : (n : Nat) → Buf UInt8 n}
    {port port' : ReceivingPort} {a : UInt8} {rest : List UInt8}
    (h : port.receivePacket alloc (a :: rest) = some port') :
    port'.pkt_.header_.getSize = a.toNat := by
  simp only [receivePacket, Option.bind_eq_bind, Option.bind_eq_some_iff] at h
  obtain ⟨tmp, htmp, pkt, hpkt, pkt', hfill, hport⟩ := h
  obtain rfl := Option.some.inj hport
  rw [Packet.fillPayload_header hfill]
  rw [show (a :: rest).take MAXBUFLENGTH = a :: rest.take (MAXBUFLENGTH - 1) from rfl] at htmp
  exact Packet.extractHeader_getSize hpkt (Buf.write_zero_head? htmp)

end ContentNetwork
