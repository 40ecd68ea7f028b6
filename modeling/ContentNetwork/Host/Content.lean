import ContentNetwork.Common.Receive

/-!
# A file on its way from host to host

A host that has a requested file reads it into memory, byte by byte, makes a
response of it and sends that; the host that asked writes the payload of the
response to a file of its own. Both ends are `rxthread` of the simplified
`host.cpp`.

Two slips change the file. The read loop tests `good()` before each byte, so
it reads once more at the end of the file and appends the byte 0xff that
`EOF` becomes. And the payload is written as a C string: up to its first zero
byte, wherever that is. So the file that is saved never equals the one that is
served (`saved_ne_served`), although the payload is transferred intact
(`transfer_isSome`).
-/

namespace ContentNetwork.Host

open Lib (Buf)

/-- What `get()` returns at the end of a file. -/
def EOF : Int := -1

/-- `while (file.good()) Data.push_back(file.get())` on the rest of a file. The
`get()` that finds no byte returns `EOF`, and only then `good()` is false. -/
def readLoop : List UInt8 → List UInt8
  | b :: rest => b :: readLoop rest
  | [] => [UInt8.ofInt EOF]

/-- The string at a `char*`. `none` is a read past the end of the array. -/
def cString : List UInt8 → Option (List UInt8)
  | [] => none
  | c :: cells => if c = 0 then some [] else (cString cells).map (c :: ·)

/-- The memory that the two hosts find: the bytes of new arrays, and of the
buffer that the sending port reuses. -/
structure Memory where
  info : Buf UInt8 MAX_HEADER_SIZE
  payload : Buf UInt8 DEFAULT_PAYLOAD_SIZE
  alloc : (n : Nat) → Buf UInt8 n
  sendingbuf_ : Buf UInt8 (MTU_SIZE + 1)
  alloc' : (n : Nat) → Buf UInt8 n

/-- The response of `rxthread` to a request for content `var2` of host `hID`,
once it has read `Data`; `FileSize` is what `tellg` has said. -/
def respondWith (mem : Memory) (var2 hID FileSize : Int) (Data : List UInt8) : Option Packet :=
  let my_packet := MakeResponsePacket (Packet.fresh mem.info mem.payload) var2 hID
  -- `fillPayload` sets the size again, so that a negative one is of no account
  (my_packet.setPayloadSize mem.alloc FileSize.toNat).fillPayload mem.alloc Data.length Data

/-- The response if `FName` names `file` each time it is opened. -/
def respond (mem : Memory) (var2 hID : Int) (file : List UInt8) : Option Packet :=
  respondWith mem var2 hID file.length (readLoop file)

/-- The response is sent, and received on the port of the other host. -/
def transfer (mem : Memory) (var2 hID : Int) (file : List UInt8) (port : ReceivingPort) :
    Option ReceivingPort := do
  let my_packet ← respond mem var2 hID file
  let (buf, pktlen) ← my_packet.makePacket mem.sendingbuf_
  port.receivePacket mem.alloc' (buf.cells.take pktlen)

/-- `myfile << pData->getPayload()`. -/
def saveResponse (pData : Packet) : Option (List UInt8) :=
  cString pData.payload_.cells

/-- A port that has received the datagrams `earlier`. -/
def receiveAll (alloc : (n : Nat) → Buf UInt8 n) (port : ReceivingPort)
    (earlier : List (List UInt8)) : Option ReceivingPort :=
  earlier.foldlM (fun port datagram => port.receivePacket alloc datagram) port

/-- The file that is saved: the port of the requester has received `earlier`,
and the response goes through when it is its turn. -/
def savedFile (mem : Memory) (var2 hID : Int) (file : List UInt8) (port : ReceivingPort)
    (earlier : List (List UInt8)) : Option (List UInt8) := do
  let port ← receiveAll mem.alloc' port earlier
  let port ← transfer mem var2 hID file port
  saveResponse port.pkt_

variable {mem : Memory} {var2 hID : Int} {file cells s : List UInt8} {port q : ReceivingPort}
  {my_packet : Packet}

/-! ## The two ends -/

/-- The loop appends one byte to the file. -/
theorem readLoop_eq (file : List UInt8) : readLoop file = file ++ [0xff] := by
  induction file with
  | nil => rfl
  | cons b rest ih => rw [readLoop, ih, List.cons_append]

theorem readLoop_length (file : List UInt8) : (readLoop file).length = file.length + 1 := by
  rw [readLoop_eq, List.length_append, List.length_singleton]

/-- A string ends at a zero byte. -/
theorem cString_eq_some (h : cString cells = some s) :
    (0 : UInt8) ∉ s ∧ ∃ rest, cells = s ++ 0 :: rest := by
  induction cells generalizing s with
  | nil => cases h
  | cons c cells ih =>
    unfold cString at h
    by_cases hc : c = 0
    · rw [if_pos hc] at h
      obtain rfl := Option.some.inj h
      exact ⟨List.not_mem_nil, cells, by rw [hc]; rfl⟩
    · rw [if_neg hc] at h
      obtain ⟨s', hs', rfl⟩ := Option.map_eq_some_iff.mp h
      obtain ⟨hmem, rest, rfl⟩ := ih hs'
      refine ⟨fun h0 => ?_, rest, rfl⟩
      rcases List.mem_cons.mp h0 with h0 | h0
      · exact hc h0.symm
      · exact hmem h0

/-- And there is one if there is a zero byte. -/
theorem cString_ne_none (h : (0 : UInt8) ∈ cells) : cString cells ≠ none := by
  induction cells with
  | nil => exact absurd h List.not_mem_nil
  | cons c cells ih =>
    unfold cString
    by_cases hc : c = 0
    · rw [if_pos hc]
      exact Option.some_ne_none _
    · rw [if_neg hc, ne_eq, Option.map_eq_none_iff]
      exact ih ((List.mem_cons.mp h).resolve_left fun h0 => hc h0.symm)

/-- The response holds what was read, whatever `tellg` has said. -/
theorem respondWith_isSome (mem : Memory) (var2 hID FileSize : Int) (Data : List UInt8) :
    ∃ my_packet, respondWith mem var2 hID FileSize Data = some my_packet ∧
      my_packet.header_
        = (MakeResponsePacket (Packet.fresh mem.info mem.payload) var2 hID).header_ ∧
      my_packet.size_ = Data.length ∧ my_packet.size_ ≤ my_packet.length_ ∧
      my_packet.payload_.cells.take my_packet.size_ = Data := by
  obtain ⟨p, hfill, hsize, hle⟩ := Packet.fillPayload_isSome mem.alloc
    ((MakeResponsePacket (Packet.fresh mem.info mem.payload) var2 hID).setPayloadSize mem.alloc
      FileSize.toNat) (Nat.le_refl Data.length)
  obtain ⟨-, -, hheader, -, -, hpayload⟩ := Packet.fillPayload_eq_some hfill
  refine ⟨p, hfill, hheader.trans ?_, hsize, by rwa [hsize], ?_⟩
  · unfold Packet.setPayloadSize
    split <;> rfl
  · rw [hpayload, Int.toNat_natCast, List.take_length]

/-- The header of a response has three octets. -/
theorem respondWith_getSize {FileSize : Int} {Data : List UInt8}
    (h : respondWith mem var2 hID FileSize Data = some my_packet) :
    my_packet.header_.getSize = 3 := by
  obtain ⟨p, hrespond, hheader, -⟩ := respondWith_isSome mem var2 hID FileSize Data
  rw [h] at hrespond
  obtain rfl := Option.some.inj hrespond
  rw [hheader]
  rfl

/-- The response fits into the sending buffer unless too much was read. -/
theorem respondWith_fits {FileSize : Int} {Data : List UInt8}
    (h : respondWith mem var2 hID FileSize Data = some my_packet)
    (hlen : Data.length + 3 ≤ MTU_SIZE) : my_packet.Fits (MTU_SIZE + 1) := by
  have hgetSize := respondWith_getSize h
  obtain ⟨p, hrespond, -, hsize, hle, -⟩ := respondWith_isSome mem var2 hID FileSize Data
  rw [h] at hrespond
  obtain rfl := Option.some.inj hrespond
  refine ⟨?_, hle, ?_⟩
  · rw [hgetSize]
    decide
  · rw [hgetSize, hsize]
    omega

/-- The response holds the file and the byte that was appended. -/
theorem respond_isSome (mem : Memory) (var2 hID : Int) (file : List UInt8) :
    ∃ my_packet, respond mem var2 hID file = some my_packet ∧
      my_packet.header_.getSize = 3 ∧ my_packet.size_ = file.length + 1 ∧
      my_packet.size_ ≤ my_packet.length_ ∧
      my_packet.payload_.cells.take my_packet.size_ = file ++ [0xff] := by
  obtain ⟨p, hrespond, -, hsize, hle, hpayload⟩ :=
    respondWith_isSome mem var2 hID file.length (readLoop file)
  rw [readLoop_eq] at hpayload
  refine ⟨p, hrespond, respondWith_getSize hrespond, ?_, hle, hpayload⟩
  rw [hsize, readLoop_length]

/-- The datagram of the response: the header size, three header bytes, and the
file with the byte that was appended. -/
theorem response_datagram {out : Buf UInt8 (MTU_SIZE + 1) × Nat}
    (hrespond : respond mem var2 hID file = some my_packet)
    (hmake : my_packet.makePacket mem.sendingbuf_ = some out) :
    ∃ header : List UInt8, header.length = 3 ∧
      out.1.cells.take out.2 = 3 :: (header ++ (file ++ [0xff])) := by
  obtain ⟨p, hp, hheader, -, -, hpayload⟩ := respond_isSome mem var2 hID file
  rw [hrespond] at hp
  obtain rfl := Option.some.inj hp
  obtain ⟨-, hdatagram⟩ := Packet.makePacket_datagram hmake
  rw [hpayload, hheader] at hdatagram
  refine ⟨_, ?_, hdatagram⟩
  rw [List.length_take, my_packet.header_.info_.length_eq]
  rfl

/-- Whatever is received of the response has the payload that was sent. -/
theorem transfer_payload (h : transfer mem var2 hID file port = some q) :
    q.pkt_.payload_.cells.take (file.length + 1) = file ++ [0xff] := by
  simp only [transfer, Option.bind_eq_bind, Option.bind_eq_some_iff] at h
  obtain ⟨p, hrespond, ⟨buf, pktlen⟩, hmake, hrecv⟩ := h
  obtain ⟨header, hheader, hdatagram⟩ := response_datagram hrespond hmake
  dsimp only at hdatagram hrecv
  have hlen : (buf.cells.take pktlen).length ≤ MTU_SIZE + 1 := by
    rw [List.length_take, buf.length_eq]
    exact Nat.min_le_right ..
  rw [hdatagram] at hrecv hlen
  rw [List.length_cons] at hlen
  -- behind the header size and the three header bytes is the payload
  have hgetSize : q.pkt_.header_.getSize = 3 := ReceivingPort.receivePacket_getSize hrecv
  obtain ⟨⟨-, hsize, -, -, hpayload⟩, -⟩ := ReceivingPort.receivePacket_yields hrecv
    (Nat.le_trans hlen (by decide))
  have hsize' : q.pkt_.size_ = file.length + 1 := by
    rw [hgetSize] at hsize
    simp only [List.length_cons, List.length_append, hheader, List.length_nil] at hsize
    omega
  have hdrop : (3 :: (header ++ (file ++ [0xff]))).drop (1 + 3) = file ++ [0xff] := by
    rw [Nat.add_comm, List.drop_succ_cons, ← hheader, List.drop_left]
  rw [hgetSize, hdrop, hsize'] at hpayload
  exact hpayload

/-- A file of up to 1400 bytes goes through, whatever the port has received. -/
theorem transfer_isSome (mem : Memory) (var2 hID : Int) (port : ReceivingPort)
    (hlen : file.length ≤ 1400) : ∃ q, transfer mem var2 hID file port = some q := by
  obtain ⟨p, hrespond, -⟩ := respond_isSome mem var2 hID file
  have hfits : p.Fits (MTU_SIZE + 1) := by
    apply respondWith_fits hrespond
    rw [readLoop_length]
    unfold MTU_SIZE
    omega
  obtain ⟨buf, hmake⟩ := Packet.makePacket_isSome hfits (by decide) mem.sendingbuf_
  obtain ⟨header, hlength, hdatagram⟩ := response_datagram hrespond hmake
  have hrest : (header ++ (file ++ [0xff])).length = file.length + 4 := by
    rw [List.length_append, List.length_append, hlength, List.length_singleton]
    omega
  have hmax : file.length + 4 + 1 ≤ MAXBUFLENGTH := by
    unfold MAXBUFLENGTH
    omega
  have hin : (3 : UInt8).toNat ≤ (header ++ (file ++ [0xff])).length := by
    rw [hrest]
    simp
  obtain ⟨q, hrecv, -⟩ := port.receivePacket_isSome mem.alloc' (by decide) hin (by rwa [hrest])
  refine ⟨q, ?_⟩
  simp only [transfer, hrespond, hmake, hdatagram, Option.bind_eq_bind, Option.bind_some]
  exact hrecv

/-! ## The saved file -/

/-- A string that starts with a file and a byte other than zero after it is not
the file. -/
theorem cString_ne (hcells : cells.take (file.length + 1) = file ++ [0xff]) :
    cString cells ≠ some file := by
  intro h
  -- a string that is the file has its zero byte where 0xff is
  obtain ⟨-, rest, rfl⟩ := cString_eq_some h
  have htake : (file ++ 0 :: rest).take (file.length + 1) = file ++ [0] := by
    rw [List.take_length_add_append]
    rfl
  rw [htake] at hcells
  have := List.append_cancel_left hcells
  exact absurd this (by decide)

/-- What is saved of a response is not the file. -/
theorem saveResponse_ne (h : transfer mem var2 hID file port = some q) :
    saveResponse q.pkt_ ≠ some file :=
  cString_ne (transfer_payload h)

/-- **The file that is saved is never the file that is served**, whatever the
file and whatever was received before. The response comes through on any port. -/
theorem saved_ne_served (mem : Memory) (var2 hID : Int) (port : ReceivingPort)
    (earlier : List (List UInt8)) (hlen : file.length ≤ 1400) :
    (∀ port', ∃ q, transfer mem var2 hID file port' = some q) ∧
      savedFile mem var2 hID file port earlier ≠ some file := by
  refine ⟨fun port' => transfer_isSome mem var2 hID port' hlen, fun h => ?_⟩
  simp only [savedFile, Option.bind_eq_bind, Option.bind_eq_some_iff] at h
  obtain ⟨port', -, q, htransfer, hsave⟩ := h
  exact saveResponse_ne htransfer hsave

/-- Memory that is all zero, and a port that has received nothing. -/
def zeroMemory : Memory :=
  ⟨zeroBuf _, zeroBuf _, zeroBuf, zeroBuf _, zeroBuf⟩

def zeroPort : ReceivingPort where
  pkt_ := ⟨0, MAXBUFLENGTH, zeroBuf _, ⟨zeroBuf _, 0⟩⟩
  tmpBuffer_ := zeroBuf _

theorem saved_ne_served_one_byte :
    (∀ port', ∃ q, transfer zeroMemory 7 10 [0x41] port' = some q) ∧
      savedFile zeroMemory 7 10 [0x41] zeroPort [] ≠ some [0x41] :=
  saved_ne_served zeroMemory 7 10 zeroPort [] (by simp)

/-- A file of the one byte `A` is saved as `A` and the byte 0xff. -/
theorem saved_one_byte : savedFile zeroMemory 7 10 [0x41] zeroPort [] = some [0x41, 0xff] ∧
    [0x41, 0xff] ≠ ([0x41] : List UInt8) := by
  decide +kernel

end ContentNetwork.Host
