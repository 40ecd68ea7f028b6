import ContentNetwork.Common.Project

/-!
# What a receiving port makes of any datagram

`receivePacket` takes the first byte of a datagram for the size of its header,
and copies that many bytes into the four bytes of `info_` and what is behind
them into the payload. Nothing compares the byte with `MAX_HEADER_SIZE` or
with the length of the datagram. Up to three octets of `info_` are read then,
whatever the header size is: `main` of a router reads the type, and for each type
it knows content and host or hops too; `rxthread` of a host reads all three of
every packet.

So a datagram is received as it should be exactly if its first byte is 3 or 4
and it has that many more bytes (`robust_iff`). A larger first byte writes
behind `info_`, a shorter datagram gives `memcpy` a negative size, and a
smaller first byte leaves octets of an earlier packet to be read.
-/

namespace ContentNetwork

open Lib (Buf)

/-- The octets that are read: type, content ID, and host ID or hops. -/
def Packet.dispatched (p : Packet) : UInt8 × UInt8 × UInt8 :=
  (p.header_.getOctet PACKET_TYPE_POS, p.header_.getOctet CONTENTID_POS,
    p.header_.getOctet HOSTID_OR_HOPS_POS)

/-- `p` is the content of the datagram: header and payload fit, and are copied
from bytes of the datagram. -/
structure Yields (datagram : List UInt8) (p : Packet) : Prop where
  header_le : p.header_.getSize ≤ MAX_HEADER_SIZE
  size : (p.size_ : Int) = datagram.length - 1 - p.header_.getSize
  size_le : p.size_ ≤ p.length_
  header : p.header_.info_.cells.take p.header_.getSize
    = (datagram.drop 1).take p.header_.getSize
  payload : p.payload_.cells.take p.size_ = datagram.drop (1 + p.header_.getSize)

/-- Whatever two ports have received before and wherever they allocate, either
both reject the datagram, or both yield its content and the same octets are read
from both. -/
def Robust (datagram : List UInt8) : Prop :=
  ∀ (alloc alloc' : (n : Nat) → Buf UInt8 n) (port port' : ReceivingPort), ∃ q q',
    port.receivePacket alloc datagram = some q ∧ port'.receivePacket alloc' datagram = some q' ∧
      ((q.pkt_ = port.pkt_ ∧ q'.pkt_ = port'.pkt_) ∨
        (Yields datagram q.pkt_ ∧ Yields datagram q'.pkt_ ∧
          q.pkt_.dispatched = q'.pkt_.dispatched))

variable {alloc : (n : Nat) → Buf UInt8 n} {port q : ReceivingPort} {a : UInt8}
  {datagram rest : List UInt8}

namespace Packet

variable {p p' : Packet} {m : Nat} {s : Buf UInt8 m}

/-- What `extractHeader` does when it stays inside the arrays. -/
theorem extractHeader_eq_some (h : p.extractHeader s = some p') (ha : s.cells.head? = some a) :
    ∃ info, p.header_.info_.write 0 ((s.cells.drop 1).take a.toNat) = some info ∧
      1 + a.toNat ≤ m ∧ p' = { p with header_ := ⟨info, a.toNat⟩ } := by
  simp only [extractHeader, Option.bind_eq_bind, Option.bind_eq_some_iff] at h
  obtain ⟨a', ha', bytes, hread, info, hwrite, hp'⟩ := h
  rw [ha] at ha'
  obtain rfl := Option.some.inj ha'
  obtain ⟨hle, rfl⟩ := Buf.read_eq_some hread
  exact ⟨info, hwrite, hle, (Option.some.inj hp').symm⟩

/-- What `fillPayload` does when it stays inside the arrays. -/
theorem fillPayload_eq_some {size : Int} {input : List UInt8}
    (h : p.fillPayload alloc size input = some p') :
    0 ≤ size ∧ size.toNat ≤ input.length ∧ p'.header_ = p.header_ ∧ p'.size_ = size.toNat ∧
      p'.size_ ≤ p'.length_ ∧ p'.payload_.cells.take p'.size_ = input.take size.toNat := by
  have hheader := fillPayload_header h
  unfold fillPayload at h
  split at h
  next => cases h
  next hin =>
    obtain ⟨payload, hwrite, rfl⟩ := Option.map_eq_some_iff.mp h
    obtain ⟨hsize, hlength⟩ := p.setPayloadSize_size alloc size.toNat
    have htake : (input.take size.toNat).length = size.toNat := by
      rw [List.length_take]
      omega
    refine ⟨by omega, by omega, hheader, hsize, by rwa [hsize], ?_⟩
    dsimp only
    rw [hsize, Buf.write_zero_cells hwrite]
    exact List.take_left' htake

/-- What `receivePacket` does with the `len` bytes at the start of a buffer:
`extractHeader`, then `fillPayload` with what is behind the header. -/
def decode (alloc : (n : Nat) → Buf UInt8 n) (p : Packet) (streambuf : Buf UInt8 m) (len : Nat) :
    Option Packet := do
  let pkt ← p.extractHeader streambuf
  pkt.fillPayload alloc ((len : Int) - 1 - pkt.header_.getSize)
    (streambuf.cells.drop (pkt.header_.getSize + 1))

/-- A buffer that starts with a datagram: its first byte, its header bytes, and
its payload. -/
theorem cells_of_datagram (hs : s.cells.take (rest.length + 1) = a :: rest)
    (ha : a.toNat ≤ rest.length) :
    s.cells.head? = some a ∧ (s.cells.drop 1).take a.toNat = rest.take a.toNat ∧
      (s.cells.drop (a.toNat + 1)).take (rest.length - a.toNat) = rest.drop a.toNat := by
  cases hcells : s.cells with
  | nil =>
    rw [hcells] at hs
    cases hs
  | cons y ys =>
    rw [hcells, List.take_succ_cons] at hs
    obtain ⟨rfl, hrest⟩ := List.cons.inj hs
    refine ⟨rfl, ?_, ?_⟩
    · show ys.take y.toNat = _
      have htake : (ys.take rest.length).take y.toNat = ys.take y.toNat := by
        rw [List.take_take, Nat.min_eq_left ha]
      rw [← htake, hrest]
    · show (ys.drop y.toNat).take _ = _
      rw [← List.drop_take, hrest]

/-- The size that `fillPayload` is given is what is left behind the header. -/
theorem payload_length (ha : a.toNat ≤ rest.length) :
    ((rest.length + 1 : Nat) : Int) - 1 - a.toNat = ((rest.length - a.toNat : Nat) : Int) := by
  omega

/-- A datagram that holds the header it announces is decoded. -/
theorem decode_isSome (alloc : (n : Nat) → Buf UInt8 n) (p : Packet)
    (hs : s.cells.take (rest.length + 1) = a :: rest) (hmax : a.toNat ≤ MAX_HEADER_SIZE)
    (ha : a.toNat ≤ rest.length) : ∃ q, p.decode alloc s (rest.length + 1) = some q := by
  obtain ⟨hhead, -, hpayload⟩ := cells_of_datagram hs ha
  have hm : rest.length + 1 ≤ m := by
    have hlen := congrArg List.length hs
    rw [List.length_take, s.length_eq, List.length_cons] at hlen
    omega
  obtain ⟨pkt, hpkt⟩ := p.extractHeader_isSome hhead hmax (by omega)
  have hsize := extractHeader_getSize hpkt hhead
  have hin : rest.length - a.toNat ≤ (s.cells.drop (a.toNat + 1)).length := by
    rw [List.length_drop, s.length_eq]
    omega
  obtain ⟨q, hfill, -⟩ := pkt.fillPayload_isSome alloc hin
  refine ⟨q, ?_⟩
  simp only [decode, hpkt, hsize, payload_length ha, Option.bind_eq_bind, Option.bind_some]
  exact hfill

/-- The header size of a decoded datagram is its first byte. -/
theorem decode_getSize {q : Packet} (h : p.decode alloc s (rest.length + 1) = some q)
    (hs : s.cells.take (rest.length + 1) = a :: rest) (ha : a.toNat ≤ rest.length) :
    q.header_.getSize = a.toNat := by
  obtain ⟨hhead, -⟩ := cells_of_datagram hs ha
  obtain ⟨pkt, hpkt, hfill⟩ := Option.bind_eq_some_iff.mp h
  rw [fillPayload_header hfill]
  exact extractHeader_getSize hpkt hhead

/-- What a decoded datagram leaves in the packet: its content, and in the
octets behind its header those that were there before. -/
theorem decode_yields {q : Packet} (h : p.decode alloc s (rest.length + 1) = some q)
    (hs : s.cells.take (rest.length + 1) = a :: rest) (hmax : a.toNat ≤ MAX_HEADER_SIZE)
    (ha : a.toNat ≤ rest.length) :
    Yields (a :: rest) q ∧
      (∀ i : Fin MAX_HEADER_SIZE, i < a.toNat → rest[(i : Nat)]? = some (q.header_.getOctet i)) ∧
      ∀ i : Fin MAX_HEADER_SIZE, a.toNat ≤ i →
        q.header_.getOctet i = p.header_.getOctet i := by
  obtain ⟨hhead, hbytes, hrest⟩ := cells_of_datagram hs ha
  obtain ⟨pkt, hpkt, hfill⟩ := Option.bind_eq_some_iff.mp h
  obtain ⟨info, hwrite, -, rfl⟩ := extractHeader_eq_some hpkt hhead
  have hlength : (rest.take a.toNat).length = a.toNat := by
    rw [List.length_take, Nat.min_eq_left ha]
  obtain ⟨-, -, hheader, hsize, hle, hpayload⟩ := fillPayload_eq_some hfill
  dsimp only [PacketHdr.getSize] at hheader hsize hpayload
  rw [payload_length ha, Int.toNat_natCast] at hsize hpayload
  rw [hbytes] at hwrite
  refine ⟨⟨?_, ?_, hle, ?_, ?_⟩, ?_, ?_⟩
  · show q.header_.length_ ≤ _
    rw [hheader]
    exact hmax
  · show (q.size_ : Int) = (a :: rest).length - 1 - q.header_.length_
    rw [hheader, hsize]
    exact (payload_length ha).symm
  · show q.header_.info_.cells.take q.header_.length_ = rest.take q.header_.length_
    rw [hheader]
    dsimp only
    rw [Buf.write_zero_cells hwrite]
    exact List.take_left' hlength
  · show q.payload_.cells.take q.size_ = (a :: rest).drop (1 + q.header_.length_)
    rw [hpayload, hrest, hheader, Nat.add_comm]
    rfl
  · intro i hi
    show rest[(i : Nat)]? = some (q.header_.info_.get i)
    rw [hheader, ← Buf.get_write_zero hwrite (by omega), List.getElem?_take_of_lt hi]
  · -- the cells behind the header are not written
    intro i hi
    show q.header_.info_.get i = p.header_.info_.get i
    rw [hheader]
    exact Buf.get_write_zero_of_le hwrite (by omega)

end Packet

namespace ReceivingPort

/-- A datagram that is received without touching a byte outside the arrays
holds the header it announces, and that is at most four bytes long. -/
theorem receivePacket_eq_some (h : port.receivePacket alloc datagram = some q)
    (hlen : datagram.length ≤ MAXBUFLENGTH) :
    ∃ a rest, datagram = a :: rest ∧ a.toNat ≤ MAX_HEADER_SIZE ∧ a.toNat ≤ rest.length := by
  simp only [receivePacket, Option.bind_eq_bind, Option.bind_eq_some_iff] at h
  obtain ⟨tmp, htmp, pkt, hpkt, pkt', hfill, -⟩ := h
  obtain ⟨hsize, -⟩ := Packet.fillPayload_eq_some hfill
  rw [List.take_of_length_le hlen] at htmp hsize
  cases datagram with
  | nil =>
    -- the first byte is residue, and the size is negative whatever it is
    rw [List.length_nil] at hsize
    omega
  | cons a rest =>
    have hhead := Buf.write_zero_head? htmp
    obtain ⟨info, hwrite, hle, rfl⟩ := Packet.extractHeader_eq_some hpkt hhead
    obtain ⟨hinfo, -⟩ := Buf.write_eq_some hwrite
    rw [List.length_take, List.length_drop, tmp.length_eq] at hinfo
    rw [List.length_cons] at hsize
    dsimp only [PacketHdr.getSize] at hsize
    exact ⟨a, rest, rfl, by omega, by omega⟩

/-- A datagram that fits into the buffer is decoded from its start. -/
theorem receivePacket_eq_decode (port : ReceivingPort)
    (hlen : datagram.length ≤ MAXBUFLENGTH) :
    port.receivePacket alloc datagram = (port.tmpBuffer_.write 0 datagram).bind fun tmp =>
      (port.pkt_.decode alloc tmp datagram.length).map fun pkt => ⟨pkt, tmp⟩ := by
  unfold receivePacket Packet.decode
  rw [List.take_of_length_le hlen]
  simp only [Option.bind_eq_bind, Option.pure_def, Function.comp_def, Option.map_eq_bind,
    Option.bind_assoc]

/-- What a received datagram leaves in the port: its content, and in the
octets behind its header those of an earlier packet. -/
theorem receivePacket_yields (h : port.receivePacket alloc (a :: rest) = some q)
    (hlen : rest.length + 1 ≤ MAXBUFLENGTH) :
    Yields (a :: rest) q.pkt_ ∧
      (∀ i : Fin MAX_HEADER_SIZE, i < a.toNat →
        rest[(i : Nat)]? = some (q.pkt_.header_.getOctet i)) ∧
      ∀ i : Fin MAX_HEADER_SIZE, a.toNat ≤ i →
        q.pkt_.header_.getOctet i = port.pkt_.header_.getOctet i := by
  obtain ⟨a', rest', he, hmax, hin⟩ := receivePacket_eq_some h hlen
  obtain ⟨rfl, rfl⟩ := List.cons.inj he
  have hlen' : (a :: rest).length ≤ MAXBUFLENGTH := hlen
  rw [port.receivePacket_eq_decode hlen'] at h
  obtain ⟨tmp, htmp, hdecode⟩ := Option.bind_eq_some_iff.mp h
  obtain ⟨pkt, hpkt, rfl⟩ := Option.map_eq_some_iff.mp hdecode
  have hstart : tmp.cells.take (rest.length + 1) = a :: rest := by
    have htake := Buf.write_take htmp
    rwa [Nat.zero_add] at htake
  exact Packet.decode_yields hpkt hstart hmax hin

/-- A port after a packet without payload, whose header has four bytes and the
octet `c` at position `i`. -/
def withOctet (i : Fin MAX_HEADER_SIZE) (c : UInt8) : ReceivingPort where
  pkt_ :=
    { size_ := 0
      length_ := MAXBUFLENGTH
      payload_ := zeroBuf _
      header_ := ⟨(zeroBuf _).set i c, MAX_HEADER_SIZE⟩ }
  tmpBuffer_ := zeroBuf _

theorem getOctet_withOctet (i : Fin MAX_HEADER_SIZE) (c : UInt8) :
    (withOctet i c).pkt_.header_.getOctet i = c :=
  (Buf.get_set ..).trans (if_pos rfl)

end ReceivingPort

/-- A datagram whose first byte counts the octets that are read, and which has
them, is received whatever came before. -/
theorem robust_of_header (h3 : 3 ≤ a.toNat) (h4 : a.toNat ≤ MAX_HEADER_SIZE)
    (ha : a.toNat ≤ rest.length) (hlen : rest.length + 1 ≤ MAXBUFLENGTH) :
    Robust (a :: rest) := by
  intro alloc alloc' port port'
  obtain ⟨q, hq, -⟩ := port.receivePacket_isSome alloc h4 ha hlen
  obtain ⟨q', hq', -⟩ := port'.receivePacket_isSome alloc' h4 ha hlen
  obtain ⟨hyields, hoctet, -⟩ := ReceivingPort.receivePacket_yields hq hlen
  obtain ⟨hyields', hoctet', -⟩ := ReceivingPort.receivePacket_yields hq' hlen
  have hsame : ∀ i : Fin MAX_HEADER_SIZE, (i : Nat) < 3 →
      q.pkt_.header_.getOctet i = q'.pkt_.header_.getOctet i := by
    intro i hi
    have h := hoctet i (by omega)
    rw [hoctet' i (by omega)] at h
    exact (Option.some.inj h).symm
  refine ⟨q, q', hq, hq', Or.inr ⟨hyields, hyields', ?_⟩⟩
  unfold Packet.dispatched
  rw [hsame PACKET_TYPE_POS (by decide), hsame CONTENTID_POS (by decide),
    hsame HOSTID_OR_HOPS_POS (by decide)]

/-- With fewer than three header bytes, the third octet of the packet before is
read. -/
theorem header_of_robust (hrobust : Robust (a :: rest))
    (hlen : rest.length + 1 ≤ MAXBUFLENGTH) : 3 ≤ a.toNat := by
  by_contra hlt
  obtain ⟨q, q', hq, hq', hcases⟩ := hrobust zeroBuf zeroBuf
    (.withOctet HOSTID_OR_HOPS_POS 0) (.withOctet HOSTID_OR_HOPS_POS 1)
  obtain ⟨-, -, hstale⟩ := ReceivingPort.receivePacket_yields hq hlen
  obtain ⟨-, -, hstale'⟩ := ReceivingPort.receivePacket_yields hq' hlen
  rcases hcases with ⟨hrejected, -⟩ | ⟨-, -, hsame⟩
  · -- the header size was 4 and is less now
    have hsize := ReceivingPort.receivePacket_getSize hq
    rw [hrejected] at hsize
    change 4 = a.toNat at hsize
    omega
  · have hpos : a.toNat ≤ (HOSTID_OR_HOPS_POS : Nat) := by
      change a.toNat ≤ 2
      omega
    have hoctet : q.pkt_.header_.getOctet HOSTID_OR_HOPS_POS
        = q'.pkt_.header_.getOctet HOSTID_OR_HOPS_POS :=
      congrArg (fun x => x.2.2) hsame
    rw [hstale _ hpos, hstale' _ hpos, ReceivingPort.getOctet_withOctet,
      ReceivingPort.getOctet_withOctet] at hoctet
    exact absurd hoctet (by decide)

/-- **A datagram is received robustly iff its first byte is 3 or 4 and that
many bytes follow.** -/
theorem robust_iff (hlen : datagram.length ≤ MAXBUFLENGTH) :
    Robust datagram ↔ ∃ a rest, datagram = a :: rest ∧ 3 ≤ a.toNat ∧
      a.toNat ≤ MAX_HEADER_SIZE ∧ a.toNat ≤ rest.length := by
  constructor
  · intro hrobust
    obtain ⟨q, -, hq, -⟩ := hrobust zeroBuf zeroBuf (.withOctet PACKET_TYPE_POS 0)
      (.withOctet PACKET_TYPE_POS 0)
    obtain ⟨a, rest, rfl, h4, ha⟩ := ReceivingPort.receivePacket_eq_some hq hlen
    exact ⟨a, rest, rfl, header_of_robust hrobust hlen, h4, ha⟩
  · intro hheader
    obtain ⟨a, rest, rfl, h3, h4, ha⟩ := hheader
    exact robust_of_header h3 h4 ha hlen

/-- A request for content 7 of host 10. -/
theorem robust_request : Robust [3, 0, 7, 10] :=
  (robust_iff (by decide)).mpr ⟨3, [0, 7, 10], rfl, by decide, by decide, by decide⟩

/-- Two bytes are enough for a datagram that is not received robustly: it
announces a header of one byte. -/
theorem not_robust_two_bytes : [1, 0].length ≤ MAXBUFLENGTH ∧ ¬Robust [1, 0] := by
  refine ⟨by decide, fun hrobust => ?_⟩
  exact absurd (header_of_robust hrobust (by decide)) (by decide)

end ContentNetwork
