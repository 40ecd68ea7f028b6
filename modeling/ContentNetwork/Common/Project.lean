import ContentNetwork.Common.Packet

/-!
# The packet types of the project

`CommonProject.h` / `CommonProject.cpp`: the three packet types, the header
positions they use, and the functions that build each packet.
-/

namespace ContentNetwork

/-- `enum PacketTypes`. -/
inductive PacketTypes
  | REQUEST
  | RESPONSE
  | ANNOUNCEMENT
  deriving DecidableEq, Repr

/-- The octet of each packet type. -/
def PacketTypes.octet : PacketTypes → UInt8
  | REQUEST => 0x00
  | RESPONSE => 0x01
  | ANNOUNCEMENT => 0x02

/-- The `case` a `switch` on the type octet takes; `none` is `default`. -/
def PacketTypes.ofOctet (c : UInt8) : Option PacketTypes :=
  if c = 0x00 then some REQUEST
  else if c = 0x01 then some RESPONSE
  else if c = 0x02 then some ANNOUNCEMENT
  else none

@[simp] theorem PacketTypes.ofOctet_octet (t : PacketTypes) : ofOctet t.octet = some t := by
  cases t <;> rfl

/-! `enum HeaderFieldPositions`. -/

def PACKET_TYPE_POS : Fin MAX_HEADER_SIZE := ⟨0, by decide⟩
def CONTENTID_POS : Fin MAX_HEADER_SIZE := ⟨1, by decide⟩
def HOSTID_OR_HOPS_POS : Fin MAX_HEADER_SIZE := ⟨2, by decide⟩

/-- The three `setOctet` calls that each `Make…Packet` function consists of. -/
def makeHeader (t : PacketTypes) (cID third : Int) (p : Packet) : Packet :=
  { p with
    header_ := ((p.header_.setOctet t.octet PACKET_TYPE_POS).setOctet
      (UInt8.ofInt cID) CONTENTID_POS).setOctet (UInt8.ofInt third) HOSTID_OR_HOPS_POS }

def MakeRequestPacket (reqPacket : Packet) (cID hID : Int) : Packet :=
  makeHeader .REQUEST cID hID reqPacket

def MakeResponsePacket (respPacket : Packet) (cID hID : Int) : Packet :=
  makeHeader .RESPONSE cID hID respPacket

def MakeAnnouncementPacket (announcementPacket : Packet) (cID hopCount : Int) : Packet :=
  makeHeader .ANNOUNCEMENT cID hopCount announcementPacket

/-- A made packet's header has grown by three and holds the three octets. -/
theorem makeHeader_header (t : PacketTypes) (cID third : Int) (p : Packet) :
    (makeHeader t cID third p).header_.getSize = p.header_.getSize + 3 ∧
      (makeHeader t cID third p).header_.getOctet PACKET_TYPE_POS = t.octet ∧
      (makeHeader t cID third p).header_.getOctet CONTENTID_POS = UInt8.ofInt cID ∧
      (makeHeader t cID third p).header_.getOctet HOSTID_OR_HOPS_POS = UInt8.ofInt third := by
  refine ⟨rfl, ?_, ?_, ?_⟩ <;>
    simp [makeHeader, PACKET_TYPE_POS, CONTENTID_POS, HOSTID_OR_HOPS_POS]

/-- The three octets stand at the start of the header. -/
theorem makeHeader_cells (t : PacketTypes) (cID third : Int) (p : Packet) :
    (makeHeader t cID third p).header_.info_.cells.take 3
      = [t.octet, UInt8.ofInt cID, UInt8.ofInt third] := by
  obtain ⟨size, length, payload, ⟨⟨cells, hlen⟩, n⟩⟩ := p
  match cells, hlen with
  | [_, _, _, _], _ => rfl

/-- The cast to `unsigned char` keeps a value in `0..255`. -/
theorem toNat_ofInt {x : Int} (h0 : 0 ≤ x) (h1 : x ≤ 255) :
    ((UInt8.ofInt x).toNat : Int) = x := by
  rw [UInt8.ofInt, UInt8.toNat_ofNat']
  omega

/-- An octet that was read as an `int` is written as the same octet. -/
theorem ofInt_toNat (c : UInt8) : UInt8.ofInt c.toNat = c := by
  have hrange : ((UInt8.ofInt c.toNat).toNat : Int) = c.toNat :=
    toNat_ofInt (Int.natCast_nonneg _) (by have := c.toNat_lt; omega)
  exact UInt8.toNat_inj.mp (Int.ofNat.inj hrange)

end ContentNetwork
