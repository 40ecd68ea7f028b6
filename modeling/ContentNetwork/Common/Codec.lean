import ContentNetwork.Common.Receive

/-!
# `makePacket` and its inverse

`makePacket` writes a packet into a datagram; `extractHeader` and `fillPayload`
read it out again. The two sides do not mirror each other: the encoder writes a
zero at index 1 and the header over it, the decoder allocates a new payload
array when the old one is too small, and both leave what was in their buffers
behind the bytes they use. Still each side undoes the other, whatever the
buffers hold, with an empty header and an empty payload included
(`codec_roundTrip`).
-/

namespace ContentNetwork

open Lib (Buf)

namespace Packet

/-- `q` has the header and the payload of `p`. -/
structure Restores (q p : Packet) : Prop where
  headerSize : q.header_.getSize = p.header_.getSize
  header : q.header_.info_.cells.take q.header_.getSize
    = p.header_.info_.cells.take p.header_.getSize
  size : q.size_ = p.size_
  size_le : q.size_ ≤ q.length_
  payload : q.payload_.cells.take q.size_ = p.payload_.cells.take p.size_

variable {alloc : (n : Nat) → Buf UInt8 n} {p q : Packet} {a : UInt8} {datagram rest : List UInt8}
  {m : Nat}

/-- The header size of an encodable packet fits into the first byte. -/
theorem toNat_getSize (h : p.header_.getSize ≤ MAX_HEADER_SIZE) :
    p.header_.getSize.toUInt8.toNat = p.header_.getSize := by
  rw [Nat.toUInt8, UInt8.toNat_ofNat']
  unfold MAX_HEADER_SIZE at h
  omega

/-- What yields the datagram of `p` has the header and the payload of `p`. -/
theorem restores_of_yields (hfits : p.Fits m)
    (h : Yields (p.header_.getSize.toUInt8
      :: (p.header_.info_.cells.take p.header_.getSize ++ p.payload_.cells.take p.size_)) q)
    (hsize : q.header_.getSize = p.header_.getSize) : q.Restores p := by
  obtain ⟨-, hlength, hle, hheader, hpayload⟩ := h
  have hinfo : (p.header_.info_.cells.take p.header_.getSize).length = p.header_.getSize := by
    rw [List.length_take, p.header_.info_.length_eq]
    exact Nat.min_eq_left hfits.header
  have hdata : (p.payload_.cells.take p.size_).length = p.size_ := by
    rw [List.length_take, p.payload_.length_eq]
    exact Nat.min_eq_left hfits.payload
  refine ⟨hsize, ?_, ?_, hle, ?_⟩
  · rw [hheader, hsize]
    exact List.take_left' hinfo
  · rw [List.length_cons, List.length_append, hinfo, hdata, hsize] at hlength
    omega
  · rw [hpayload, hsize, Nat.add_comm, List.drop_succ_cons]
    exact List.drop_left' hinfo

/-- A packet that fits is encoded, and what is decoded from the datagram has its
header and its payload. -/
theorem decode_makePacket (hfits : p.Fits m) (hm : 2 ≤ m) (alloc : (n : Nat) → Buf UInt8 n)
    (streambuf : Buf UInt8 m) (q : Packet) :
    ∃ buf len q', p.makePacket streambuf = some (buf, len) ∧
      q.decode alloc buf len = some q' ∧ q'.Restores p := by
  obtain ⟨buf, hmake⟩ := makePacket_isSome hfits hm streambuf
  obtain ⟨-, hdatagram⟩ := makePacket_datagram hmake
  have hoctet := toNat_getSize hfits.header
  have hlen : 1 + p.size_ + p.header_.getSize
      = (p.header_.info_.cells.take p.header_.getSize ++ p.payload_.cells.take p.size_).length
        + 1 := by
    rw [List.length_append, List.length_take, List.length_take, p.header_.info_.length_eq,
      p.payload_.length_eq, Nat.min_eq_left hfits.header, Nat.min_eq_left hfits.payload]
    omega
  have hin : p.header_.getSize.toUInt8.toNat
      ≤ (p.header_.info_.cells.take p.header_.getSize ++ p.payload_.cells.take p.size_).length := by
    omega
  have hmax : p.header_.getSize.toUInt8.toNat ≤ MAX_HEADER_SIZE := hoctet.symm ▸ hfits.header
  rw [hlen] at hdatagram
  obtain ⟨q', hdecode⟩ := q.decode_isSome alloc hdatagram hmax hin
  obtain ⟨hyields, -⟩ := decode_yields hdecode hdatagram hmax hin
  refine ⟨buf, _, q', hmake, hlen ▸ hdecode, restores_of_yields hfits hyields ?_⟩
  exact (decode_getSize hdecode hdatagram hin).trans hoctet

/-- A datagram that holds the header it announces is decoded, and what is
encoded from the packet is the datagram again. -/
theorem makePacket_decode {k : Nat} {s : Buf UInt8 k}
    (hs : s.cells.take (rest.length + 1) = a :: rest) (hmax : a.toNat ≤ MAX_HEADER_SIZE)
    (ha : a.toNat ≤ rest.length) (hlen : rest.length + 1 ≤ m) (hm : 2 ≤ m)
    (alloc : (n : Nat) → Buf UInt8 n) (streambuf : Buf UInt8 m) (p : Packet) :
    ∃ q buf len, p.decode alloc s (rest.length + 1) = some q ∧
      q.makePacket streambuf = some (buf, len) ∧ buf.cells.take len = a :: rest := by
  obtain ⟨q, hdecode⟩ := p.decode_isSome alloc hs hmax ha
  obtain ⟨⟨-, hlength, hle, hheader, hpayload⟩, -⟩ := decode_yields hdecode hs hmax ha
  have hsize : q.header_.getSize = a.toNat := decode_getSize hdecode hs ha
  rw [hsize, List.length_cons] at hlength
  have hfits : q.Fits m := by
    refine ⟨hsize.symm ▸ hmax, hle, ?_⟩
    rw [hsize]
    omega
  obtain ⟨buf, hmake⟩ := makePacket_isSome hfits hm streambuf
  obtain ⟨-, hdatagram⟩ := makePacket_datagram hmake
  refine ⟨q, buf, _, hdecode, hmake, hdatagram.trans ?_⟩
  have hfirst : a.toNat.toUInt8 = a := UInt8.ofNat_toNat
  rw [hheader, hpayload, hsize, hfirst, Nat.add_comm, List.drop_succ_cons, List.drop_succ_cons,
    List.drop_zero, List.take_append_drop]

end Packet

/-- **Decoding undoes encoding, and encoding undoes decoding.** -/
theorem codec_roundTrip (alloc : (n : Nat) → Buf UInt8 n)
    (streambuf : Buf UInt8 (MTU_SIZE + 1)) (q : Packet) :
    (∀ p : Packet, p.Fits (MTU_SIZE + 1) →
      ∃ buf len q', p.makePacket streambuf = some (buf, len) ∧
        q.decode alloc buf len = some q' ∧ q'.Restores p) ∧
    ∀ (datagram : List UInt8) (a : UInt8) (k : Nat) (s : Buf UInt8 k),
      s.cells.take datagram.length = datagram → datagram.head? = some a →
      a.toNat ≤ MAX_HEADER_SIZE → a.toNat + 1 ≤ datagram.length →
      datagram.length ≤ MTU_SIZE + 1 →
      ∃ q' buf len, q.decode alloc s datagram.length = some q' ∧
        q'.makePacket streambuf = some (buf, len) ∧ buf.cells.take len = datagram := by
  have hm : 2 ≤ MTU_SIZE + 1 := by
    unfold MTU_SIZE
    omega
  constructor
  · intro p hfits
    exact Packet.decode_makePacket hfits hm alloc streambuf q
  · intro datagram a k s hs hhead hmax ha hlen
    obtain ⟨rest, rfl⟩ := List.head?_eq_some_iff.mp hhead
    exact Packet.makePacket_decode hs hmax (Nat.le_of_succ_le_succ ha) hlen hm alloc streambuf q

/-- A response with a payload of two bytes, there and back. -/
theorem codec_roundTrip_response :
    (∃ p, (MakeResponsePacket (Packet.fresh (zeroBuf _) (zeroBuf _)) 7 10).fillPayload zeroBuf 2
          [0x41, 0xff] = some p ∧
        ∃ buf len q', p.makePacket (zeroBuf (MTU_SIZE + 1)) = some (buf, len) ∧
          (Packet.fresh (zeroBuf _) (zeroBuf _)).decode zeroBuf buf len = some q' ∧
          q'.Restores p) ∧
      ∃ q' buf len, (Packet.fresh (zeroBuf _) (zeroBuf _)).decode zeroBuf
          (⟨[3, 1, 7, 10, 0x41, 0xff], rfl⟩ : Buf UInt8 6) 6 = some q' ∧
        q'.makePacket (zeroBuf (MTU_SIZE + 1)) = some (buf, len) ∧
        buf.cells.take len = [3, 1, 7, 10, 0x41, 0xff] := by
  obtain ⟨hpacket, hdatagram⟩ := codec_roundTrip zeroBuf (zeroBuf (MTU_SIZE + 1))
    (Packet.fresh (zeroBuf _) (zeroBuf _))
  constructor
  · obtain ⟨p, hfill, hsize, hle⟩ := Packet.fillPayload_isSome zeroBuf
      (MakeResponsePacket (Packet.fresh (zeroBuf _) (zeroBuf _)) 7 10)
      (Nat.le_refl [0x41, (0xff : UInt8)].length)
    have hheader : p.header_.getSize = 3 := by
      rw [Packet.fillPayload_header hfill]
      rfl
    refine ⟨p, hfill, hpacket p ⟨?_, hsize ▸ hle, ?_⟩⟩
    · rw [hheader]
      unfold MAX_HEADER_SIZE
      omega
    · rw [hheader, hsize]
      show 1 + 2 + 3 ≤ MTU_SIZE + 1
      unfold MTU_SIZE
      omega
  · exact hdatagram [3, 1, 7, 10, 0x41, 0xff] 3 6 ⟨[3, 1, 7, 10, 0x41, 0xff], rfl⟩ rfl rfl
      (by decide) (by decide) (by decide)

end ContentNetwork
