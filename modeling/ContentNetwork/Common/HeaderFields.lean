import Mathlib.Data.BitVec
import ContentNetwork.Lib.BigEndian
import ContentNetwork.Common.Packet

/-!
# The fields of a header

The 16 and 32 bit accessors of `PacketHdr`, in `common.cpp`. A writer shifts
the value right, as a signed `int`, and stores the low byte of each shift; a
reader shifts what it has left and or-s the next byte to it, in an `int`, and
the 16 bit reader goes back to a `short` each time.

Mirroring notes:

- `>>` on a negative `int` is the arithmetic shift, and a conversion to a
  narrower type keeps the low bits, as every compiler has it and C++20
  prescribes. The last `val << 8` may move a bit into the sign.
- A field is accessed through a pointer that runs over `info_`; outside of it
  the result is `none`, as in `Packet`.
-/

namespace ContentNetwork

open Lib (Buf)
open Lib.BigEndian

/-- An `unsigned char` in an `int` expression. -/
def promote (c : UInt8) : Int32 := Int32.ofNat c.toNat

/-- An `int` stored in an `unsigned char`. -/
def truncate (a : Int32) : UInt8 := a.toInt8.toUInt8

namespace PacketHdr

def getIntegerInfo (h : PacketHdr) (position : Nat) : Option Int32 := do
  let val := promote (← h.info_.cells[position]?)
  let val := val <<< 8 ||| promote (← h.info_.cells[position + 1]?)
  let val := val <<< 8 ||| promote (← h.info_.cells[position + 2]?)
  let val := val <<< 8 ||| promote (← h.info_.cells[position + 3]?)
  return val

def getShortIntegerInfo (h : PacketHdr) (position : Nat) : Option Int16 := do
  let val := (promote (← h.info_.cells[position]?)).toInt16
  let val := (val.toInt32 <<< 8 ||| promote (← h.info_.cells[position + 1]?)).toInt16
  return val

def setIntegerInfo (h : PacketHdr) (a : Int32) (position : Nat) : Option PacketHdr :=
  let p := [truncate (a >>> 24), truncate ((a >>> 16) &&& 0xFF), truncate ((a >>> 8) &&& 0xFF),
    truncate (a &&& 0xFF)]
  (h.info_.write position p).map fun info => { info_ := info, length_ := h.length_ + 4 }

def setShortIntegerInfo (h : PacketHdr) (b : Int16) (position : Nat) : Option PacketHdr :=
  let p := [truncate (b.toInt32 >>> 8), truncate (b.toInt32 &&& 0xFF)]
  (h.info_.write position p).map fun info => { info_ := info, length_ := h.length_ + 2 }

end PacketHdr

/-! ## Shifts and bytes -/

/-- The byte stored for an `int`. -/
theorem truncate_eq (a : Int32) : truncate a = UInt8.ofInt a.toInt := by
  have h : a.toInt8 = Int8.ofInt a.toInt := by
    apply Int8.toInt_inj.mp
    rw [Int32.toInt_toInt8, Int8.toInt_ofInt]
  rw [truncate, h]
  apply UInt8.toNat_inj.mp
  show (BitVec.ofInt 8 a.toInt).toNat = (UInt8.ofNat (a.toInt % 2 ^ 8).toNat).toNat
  rw [BitVec.toNat_ofInt, UInt8.toNat_ofNat']
  omega

/-- The mask of the writers changes nothing. -/
theorem truncate_mask (a : Int32) : truncate (a &&& 0xFF) = truncate a := by
  apply UInt8.toNat_inj.mp
  show ((a &&& 0xFF).toBitVec.signExtend 8).toNat = (a.toBitVec.signExtend 8).toNat
  rw [Int32.toBitVec_and, BitVec.signExtend_eq_setWidth_of_le _ (by decide),
    BitVec.signExtend_eq_setWidth_of_le _ (by decide), BitVec.toNat_setWidth,
    BitVec.toNat_setWidth, BitVec.toNat_and]
  show (a.toBitVec.toNat &&& (2 ^ 8 - 1)) % 2 ^ 8 = _
  rw [Nat.and_two_pow_sub_one_eq_mod, Nat.mod_mod]

/-- An arithmetic shift by `k` bits divides by `2 ^ k`, rounding down. -/
theorem toInt_shiftRight {a s : Int32} {k : Nat} (hs : (s.toBitVec.smod 32).toNat = k) :
    (a >>> s).toInt = a.toInt / 2 ^ k := by
  show (a >>> s).toBitVec.toInt = _
  rw [Int32.toBitVec_shiftRight, BitVec.sshiftRight', hs, BitVec.toInt_sshiftRight,
    Int.shiftRight_eq_div_pow, Nat.cast_pow]
  rfl

/-- The step of the readers: one more base-256 digit. -/
theorem shift_or (n : Nat) (c : UInt8) :
    Int32.ofNat n <<< 8 ||| promote c = Int32.ofNat (n * 256 + c.toNat) := by
  apply Int32.toBitVec_inj.mp
  rw [Int32.toBitVec_or, Int32.toBitVec_shiftLeft]
  show BitVec.ofNat 32 n <<< 8 ||| BitVec.ofNat 32 c.toNat = BitVec.ofNat 32 (n * 256 + c.toNat)
  have hshift : BitVec.ofNat 32 n <<< 8 = BitVec.ofNat 32 (n <<< 8) := by
    apply BitVec.eq_of_toNat_eq
    simp [Nat.shiftLeft_eq]
  rw [hshift, ← BitVec.ofNat_or, ← Nat.shiftLeft_add_eq_or_of_lt c.toNat_lt, Nat.shiftLeft_eq]

/-- A byte is kept by the conversion to `short`. -/
theorem toInt32_toInt16_promote (c : UInt8) : (promote c).toInt16.toInt32 = promote c := by
  have hc := c.toNat_lt
  have hnat : (promote c).toInt = c.toNat := Int32.toInt_ofNat_of_lt (by omega)
  apply Int32.toInt_inj.mp
  rw [Int16.toInt_toInt32, Int32.toInt_toInt16, hnat]
  exact Int.bmod_eq_of_le (by omega) (by omega)

namespace PacketHdr

variable {h h' : PacketHdr} {position : Nat}

/-- The 32 bit reader returns the value of the four bytes. -/
theorem getIntegerInfo_of_read {l : List UInt8} (hread : h.info_.read position 4 = some l) :
    (h.getIntegerInfo position).map Int32.toInt = some (signed l) := by
  obtain ⟨c₀, c₁, c₂, c₃, rfl⟩ := List.length_eq_four.mp (Buf.read_length hread)
  have h₀ : h.info_.cells[position]? = some c₀ := Buf.getElem?_of_read hread (i := 0) (by decide)
  have h₁ : h.info_.cells[position + 1]? = some c₁ := Buf.getElem?_of_read hread (by decide)
  have h₂ : h.info_.cells[position + 2]? = some c₂ := Buf.getElem?_of_read hread (by decide)
  have h₃ : h.info_.cells[position + 3]? = some c₃ := Buf.getElem?_of_read hread (by decide)
  have hval : h.getIntegerInfo position = some (Int32.ofNat (unsigned [c₀, c₁, c₂, c₃])) := by
    have hfirst : promote c₀ = Int32.ofNat (unsigned [c₀]) := by
      rw [promote, unsigned_singleton]
    simp only [getIntegerInfo, h₀, h₁, h₂, h₃, Option.bind_eq_bind, Option.bind_some]
    rw [hfirst, shift_or, ← unsigned_concat, shift_or, ← unsigned_concat, shift_or,
      ← unsigned_concat]
    rfl
  have hsize : Int32.size = 256 ^ 4 := by decide
  rw [hval, Option.map_some, Int32.toInt_ofNat', hsize]
  exact congrArg some (signed_of_length rfl).symm

/-- The 16 bit reader returns the value of the two bytes. -/
theorem getShortIntegerInfo_of_read {l : List UInt8} (hread : h.info_.read position 2 = some l) :
    (h.getShortIntegerInfo position).map Int16.toInt = some (signed l) := by
  obtain ⟨c₀, c₁, rfl⟩ := List.length_eq_two.mp (Buf.read_length hread)
  have h₀ : h.info_.cells[position]? = some c₀ := Buf.getElem?_of_read hread (i := 0) (by decide)
  have h₁ : h.info_.cells[position + 1]? = some c₁ := Buf.getElem?_of_read hread (by decide)
  have hval : h.getShortIntegerInfo position = some (Int16.ofNat (unsigned [c₀, c₁])) := by
    have hfirst : promote c₀ = Int32.ofNat (unsigned [c₀]) := by
      rw [promote, unsigned_singleton]
    simp only [getShortIntegerInfo, h₀, h₁, Option.bind_eq_bind, Option.bind_some]
    rw [toInt32_toInt16_promote, hfirst, shift_or, ← unsigned_concat, Int32.toInt16_ofNat']
    rfl
  have hsize : Int16.size = 256 ^ 2 := by decide
  rw [hval, Option.map_some, Int16.toInt_ofNat', hsize]
  exact congrArg some (signed_of_length rfl).symm

/-- The 32 bit writer stores the four bytes of its value. -/
theorem setIntegerInfo_eq (a : Int32) :
    h.setIntegerInfo a position = (h.info_.write position (bytes 4 a.toInt)).map fun info =>
      { info_ := info, length_ := h.length_ + 4 } := by
  have h24 : a.toInt / 2 ^ 24 = a.toInt / 256 / 256 / 256 := by omega
  have h16 : a.toInt / 2 ^ 16 = a.toInt / 256 / 256 := by omega
  have hbytes : [truncate (a >>> 24), truncate ((a >>> 16) &&& 0xFF),
      truncate ((a >>> 8) &&& 0xFF), truncate (a &&& 0xFF)] = bytes 4 a.toInt := by
    rw [truncate_mask, truncate_mask, truncate_mask, truncate_eq, truncate_eq, truncate_eq,
      truncate_eq, toInt_shiftRight (k := 24) (by decide), toInt_shiftRight (k := 16) (by decide),
      toInt_shiftRight (k := 8) (by decide), h24, h16]
    rfl
  rw [setIntegerInfo, hbytes]

/-- The 16 bit writer stores the two bytes of its value. -/
theorem setShortIntegerInfo_eq (b : Int16) :
    h.setShortIntegerInfo b position = (h.info_.write position (bytes 2 b.toInt)).map fun info =>
      { info_ := info, length_ := h.length_ + 2 } := by
  have hbytes : [truncate (b.toInt32 >>> 8), truncate (b.toInt32 &&& 0xFF)]
      = bytes 2 b.toInt := by
    rw [truncate_mask, truncate_eq, truncate_eq, toInt_shiftRight (k := 8) (by decide),
      Int16.toInt_toInt32]
    rfl
  rw [setShortIntegerInfo, hbytes]

end PacketHdr

/-! ## Histories of writes -/

/-- A call of one of the three writers. -/
inductive FieldWrite
  | setOctet (c : UInt8) (position : Nat)
  | setShortIntegerInfo (b : Int16) (position : Nat)
  | setIntegerInfo (a : Int32) (position : Nat)
  deriving DecidableEq, Repr

namespace FieldWrite

def position : FieldWrite → Nat
  | .setOctet _ position | .setShortIntegerInfo _ position | .setIntegerInfo _ position => position

/-- The bytes of the value that is written. -/
def field : FieldWrite → List UInt8
  | .setOctet c _ => [c]
  | .setShortIntegerInfo b _ => bytes 2 b.toInt
  | .setIntegerInfo a _ => bytes 4 a.toInt

/-- The field lies inside `info_`. -/
def Fits (w : FieldWrite) : Prop := w.position + w.field.length ≤ MAX_HEADER_SIZE

instance : DecidablePred Fits := fun _ => inferInstanceAs (Decidable (_ ≤ _))

/-- The fields of two writes have no byte in common. -/
def Apart (w w' : FieldWrite) : Prop :=
  w.position + w.field.length ≤ w'.position ∨ w'.position + w'.field.length ≤ w.position

/-- The call, on a header. -/
def run (h : PacketHdr) : FieldWrite → Option PacketHdr
  | .setOctet c position =>
    if hp : position < MAX_HEADER_SIZE then some (h.setOctet c ⟨position, hp⟩) else none
  | .setShortIntegerInfo b position => h.setShortIntegerInfo b position
  | .setIntegerInfo a position => h.setIntegerInfo a position

/-- The value that was written is read at its position. -/
def ReadBack (h : PacketHdr) : FieldWrite → Prop
  | .setOctet c position => ∃ hp : position < MAX_HEADER_SIZE, h.getOctet ⟨position, hp⟩ = c
  | .setShortIntegerInfo b position => h.getShortIntegerInfo position = some b
  | .setIntegerInfo a position => h.getIntegerInfo position = some a

/-- Every writer stores the bytes of its value and counts them. -/
theorem run_eq (w : FieldWrite) (h : PacketHdr) :
    w.run h = (h.info_.write w.position w.field).map fun info =>
      { info_ := info, length_ := h.length_ + w.field.length } := by
  cases w with
  | setOctet c position =>
    unfold run
    dsimp only
    split
    next hp =>
      rw [FieldWrite.position, FieldWrite.field, Buf.write_singleton h.info_ ⟨position, hp⟩]
      rfl
    next hp =>
      have hout : ¬position + [c].length ≤ MAX_HEADER_SIZE := hp
      rw [FieldWrite.position, FieldWrite.field, Buf.write, dif_neg hout]
      rfl
  | setShortIntegerInfo b position => exact PacketHdr.setShortIntegerInfo_eq b
  | setIntegerInfo a position => exact PacketHdr.setIntegerInfo_eq a

/-- A field whose bytes are in the header is read back. -/
theorem readBack_of_read {w : FieldWrite} {h : PacketHdr}
    (hread : h.info_.read w.position w.field.length = some w.field) : w.ReadBack h := by
  cases w with
  | setOctet c position =>
    have hp : position < MAX_HEADER_SIZE := (Buf.read_eq_some hread).1
    have hcell : h.info_.cells[position]? = some c :=
      Buf.getElem?_of_read hread (i := 0) Nat.one_pos
    exact ⟨hp, Option.some.inj ((Buf.getElem?_eq_get h.info_ ⟨position, hp⟩).symm.trans hcell)⟩
  | setShortIntegerInfo b position =>
    have hmin := b.le_toInt
    have hmax := b.toInt_lt
    have hval : (h.getShortIntegerInfo position).map Int16.toInt = some b.toInt :=
      (PacketHdr.getShortIntegerInfo_of_read hread).trans
        (congrArg some (signed_bytes (by omega) (by omega)))
    obtain ⟨v, hv, hvb⟩ := Option.map_eq_some_iff.mp hval
    exact hv.trans (congrArg some (Int16.toInt_inj.mp hvb))
  | setIntegerInfo a position =>
    have hmin := a.le_toInt
    have hmax := a.toInt_lt
    have hval : (h.getIntegerInfo position).map Int32.toInt = some a.toInt :=
      (PacketHdr.getIntegerInfo_of_read hread).trans
        (congrArg some (signed_bytes (by omega) (by omega)))
    obtain ⟨v, hv, hva⟩ := Option.map_eq_some_iff.mp hval
    exact hv.trans (congrArg some (Int32.toInt_inj.mp hva))

end FieldWrite

namespace PacketHdr

variable {h h' : PacketHdr} {ws : List FieldWrite}

/-- A sequence of calls. -/
def runAll (h : PacketHdr) : List FieldWrite → Option PacketHdr
  | [] => some h
  | w :: ws => (w.run h).bind fun h' => h'.runAll ws

/-- The calls as writes to the bytes of the header. -/
def blocks (ws : List FieldWrite) : List (Nat × List UInt8) :=
  ws.map fun w => (w.position, w.field)

/-- A sequence of calls is a history of writes to the bytes of the header. -/
theorem runAll_eq (h : PacketHdr) (ws : List FieldWrite) :
    h.runAll ws = (h.info_.writeAll (blocks ws)).map fun info =>
      { info_ := info, length_ := h.length_ + (ws.map fun w => w.field.length).sum } := by
  induction ws generalizing h with
  | nil => rfl
  | cons w ws ih =>
    have hblocks : h.info_.writeAll (blocks (w :: ws))
        = (h.info_.write w.position w.field).bind fun info => info.writeAll (blocks ws) := rfl
    rw [runAll, w.run_eq, hblocks]
    cases h.info_.write w.position w.field with
    | none => rfl
    | some info =>
      rw [Option.map_some, Option.bind_some, Option.bind_some, ih, List.map_cons, List.sum_cons,
        Nat.add_assoc]

/-- The byte at `k` after the writes: the last one that covers it has put it
there, or it has always been there. -/
def octetAfter (h : PacketHdr) (ws : List FieldWrite) (k : Fin MAX_HEADER_SIZE) : UInt8 :=
  (Buf.lastWritten k (blocks ws)).getD (h.getOctet k)

/-- What the three readers return after the writes. -/
structure ReadsLast (h h' : PacketHdr) (ws : List FieldWrite) : Prop where
  octet : ∀ k, h'.getOctet k = h.octetAfter ws k
  short : ∀ p (hp : p + 2 ≤ MAX_HEADER_SIZE),
    (h'.getShortIntegerInfo p).map Int16.toInt
      = some (signed [h.octetAfter ws ⟨p, by omega⟩, h.octetAfter ws ⟨p + 1, by omega⟩])
  integer : ∀ p (hp : p + 4 ≤ MAX_HEADER_SIZE),
    (h'.getIntegerInfo p).map Int32.toInt
      = some (signed [h.octetAfter ws ⟨p, by omega⟩, h.octetAfter ws ⟨p + 1, by omega⟩,
        h.octetAfter ws ⟨p + 2, by omega⟩, h.octetAfter ws ⟨p + 3, by omega⟩])
  readBack : ∀ before w after, ws = before ++ w :: after → (∀ x ∈ after, w.Apart x) → w.ReadBack h'
  frame : ∀ k : Fin MAX_HEADER_SIZE,
    (∀ w ∈ ws, (k : Nat) < w.position ∨ w.position + w.field.length ≤ k) →
      h'.getOctet k = h.getOctet k

/-- **The header is a big-endian byte store**: after any writes that fit, each
byte is the one of the last write that covers it, the readers return the value
of the bytes they cover, a value not overwritten since is read back, and bytes
outside all fields are unchanged. -/
theorem runAll_readsLast (h : PacketHdr) {ws : List FieldWrite} (hws : ∀ w ∈ ws, w.Fits) :
    ∃ h', h.runAll ws = some h' ∧ ReadsLast h h' ws := by
  have hle : ∀ b ∈ blocks ws, b.1 + b.2.length ≤ MAX_HEADER_SIZE := by
    intro b hb
    obtain ⟨w, hw, rfl⟩ := List.mem_map.mp hb
    exact hws w hw
  obtain ⟨info, hinfo⟩ := h.info_.writeAll_of_le hle
  refine ⟨_, by rw [runAll_eq, hinfo, Option.map_some], ?_⟩
  have hcell : ∀ k : Fin MAX_HEADER_SIZE, info.cells[(k : Nat)]? = some (h.octetAfter ws k) := by
    intro k
    rw [Buf.getElem?_of_writeAll hinfo, Buf.getElem?_eq_get, octetAfter]
    cases Buf.lastWritten k (blocks ws) with
    | none => rfl
    | some c => rfl
  have hoctet : ∀ k, info.get k = h.octetAfter ws k := fun k =>
    Option.some.inj ((Buf.getElem?_eq_get info k).symm.trans (hcell k))
  refine ⟨hoctet, fun p hp => ?_, fun p hp => ?_, fun before w after hsplit hafter => ?_,
    fun k hk => ?_⟩
  · exact getShortIntegerInfo_of_read
      (Buf.read_cons (hcell ⟨p, _⟩) (Buf.read_cons (hcell ⟨p + 1, _⟩) (info.read_nil hp)))
  · exact getIntegerInfo_of_read
      (Buf.read_cons (hcell ⟨p, _⟩) (Buf.read_cons (hcell ⟨p + 1, _⟩)
        (Buf.read_cons (hcell ⟨p + 2, _⟩) (Buf.read_cons (hcell ⟨p + 3, _⟩) (info.read_nil hp)))))
  · subst hsplit
    have hw := hws w (List.mem_append_right _ (List.mem_cons_self ..))
    rw [blocks, List.map_append, List.map_cons] at hinfo
    refine FieldWrite.readBack_of_read (Buf.read_writeAll hinfo hw fun b hb => ?_)
    obtain ⟨x, hx, rfl⟩ := List.mem_map.mp hb
    exact hafter x hx
  · have hnone : Buf.lastWritten k (blocks ws) = none := by
      refine Buf.lastWritten_eq_none fun b hb => ?_
      obtain ⟨w, hw, rfl⟩ := List.mem_map.mp hb
      exact hk w hw
    show info.get k = h.getOctet k
    rw [hoctet, octetAfter, hnone, Option.getD_none]

/-- An `int`, then a `short` over its middle, then the last octet. -/
theorem runAll_overlapping :
    ∃ h', runAll ⟨zeroBuf MAX_HEADER_SIZE, 0⟩
        [.setIntegerInfo (-2) 0, .setShortIntegerInfo (-300) 1, .setOctet 5 3] = some h' ∧
      ReadsLast ⟨zeroBuf MAX_HEADER_SIZE, 0⟩ h'
        [.setIntegerInfo (-2) 0, .setShortIntegerInfo (-300) 1, .setOctet 5 3] :=
  runAll_readsLast _ (by decide)

end PacketHdr

end ContentNetwork
