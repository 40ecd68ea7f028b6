import ContentNetwork.Host.Announce
import ContentNetwork.Host.Serve
import ContentNetwork.Network.Faulty

/-!
# The network down to the bytes

The networks of the other modules carry packets of three octets. Here are the
datagrams themselves, and all that reads and writes their bytes: the receiving
ports with what earlier packets have left in them, `makePacket` into sending
buffers, the files that hosts read and the ones they write.

A router receives a datagram, handles its octets and sends on the packet it
received, an announcement with its hop count increased (`relayDatagram`). A
host answers a request with a file, and saves the payload of a response to the
content that it asked for last (`rxDatagram`). Links may lose and repeat
datagrams, and timers age the pending tables. A receiving port may drop a
datagram too, but it decodes it before: the packet of the port has changed then.

`announced`, `asked`, `served` and `saved` are histories; the last two say which
host has read which file for which content, and what has been written to the
file named after a content. A step is `none` when it would touch a byte outside
an array. `announce` is a round of `bcast` at a host that lists one content: a
second announcement of a round does not fit into its header. A router or host
that an exception has ended goes on here, which only adds runs.
-/

namespace ContentNetwork

open Lib (Buf)
open Simplified

namespace Packet

/-- The octets that `main` of a router and `rxthread` of a host read. -/
def headerOctets (p : Packet) : HeaderOctets :=
  ⟨p.header_.getOctet PACKET_TYPE_POS, p.header_.getOctet CONTENTID_POS,
    p.header_.getOctet HOSTID_OR_HOPS_POS⟩

/-- The bytes of a packet on the wire. -/
def datagram (p : Packet) : List UInt8 :=
  p.header_.getSize.toUInt8
    :: (p.header_.info_.cells.take p.header_.getSize ++ p.payload_.cells.take p.size_)

/-- `SendingPort::sendPacket`: the bytes that `makePacket` has put into
`sendingbuf_`. -/
def sendPacket (sendingbuf_ : Buf UInt8 (MTU_SIZE + 1)) (p : Packet) : Option (List UInt8) :=
  (p.makePacket sendingbuf_).map fun out => out.1.cells.take out.2

variable {p : Packet} {sendingbuf_ : Buf UInt8 (MTU_SIZE + 1)} {bytes : List UInt8}

/-- What is sent does not depend on the buffer. -/
theorem sendPacket_eq_some (h : p.sendPacket sendingbuf_ = some bytes) :
    p.Fits (MTU_SIZE + 1) ∧ bytes = p.datagram := by
  obtain ⟨out, hmake, rfl⟩ := Option.map_eq_some_iff.mp h
  obtain ⟨hpayload, hdatagram⟩ := makePacket_datagram hmake
  obtain ⟨-, hlength⟩ := makePacket_streamLength hmake
  exact ⟨⟨makePacket_header_le hmake, hpayload, hlength⟩, hdatagram⟩

/-- A packet that fits is sent. -/
theorem sendPacket_of_fits (h : p.Fits (MTU_SIZE + 1)) (sendingbuf_ : Buf UInt8 (MTU_SIZE + 1)) :
    p.sendPacket sendingbuf_ = some p.datagram := by
  have hm : 2 ≤ MTU_SIZE + 1 := by
    unfold MTU_SIZE
    omega
  obtain ⟨buf, hmake⟩ := makePacket_isSome h hm sendingbuf_
  have hsend : p.sendPacket sendingbuf_
      = some (buf.cells.take (1 + p.size_ + p.header_.getSize)) := by
    rw [sendPacket, hmake]
    rfl
  rw [hsend, ← (sendPacket_eq_some hsend).2]

/-- A packet that was received is sent as the same datagram. -/
theorem datagram_of_yields (h : Yields bytes p) {a : UInt8} {rest : List UInt8}
    (hbytes : bytes = a :: rest) (hsize : p.header_.getSize = a.toNat) :
    p.datagram = bytes := by
  have hfirst : a.toNat.toUInt8 = a := UInt8.ofNat_toNat
  rw [datagram, h.header, h.payload, hsize, hbytes, hfirst, Nat.add_comm, List.drop_succ_cons,
    List.drop_succ_cons, List.drop_zero, List.take_append_drop]

end Packet

/-- The octets of a datagram. -/
def octetsOf (bytes : List UInt8) : HeaderOctets :=
  ⟨bytes.getD 1 0, bytes.getD 2 0, bytes.getD 3 0⟩

/-! ## A router -/

/-- The memory that a router finds: the bytes of new arrays, and the buffer of
the sending port of each interface. -/
structure RouterMemory where
  alloc : (n : Nat) → Buf UInt8 n
  sendingbuf_ : Int → Buf UInt8 (MTU_SIZE + 1)

/-- What `main` makes of the packet, whether or not it sends it: `case
ANNOUNCEMENT` writes the next hop count. The packet shares its header with the
port. -/
def Packet.handled (p : Packet) : Packet := p.forwarded.getD p

/-- A router with `n` interfaces receives a datagram on the port of interface
`i` and handles it; the datagrams that it sends, and through which interfaces. -/
def relayDatagram (n : Nat) (mem : RouterMemory) (t : Tables) (i : Int) (port : ReceivingPort)
    (bytes : List UInt8) : Option (Tables × ReceivingPort × List (Int × List UInt8)) := do
  let q ← port.receivePacket mem.alloc bytes
  match handlePacket n t ⟨q.pkt_.headerOctets, i⟩ with
  | some (t', sent) =>
    let out ← sent.mapM fun s =>
      (q.pkt_.handled.sendPacket (mem.sendingbuf_ s.1)).map fun d => (s.1, d)
    return (t', { q with pkt_ := q.pkt_.handled }, out)
  -- `at` has thrown
  | none => return (t, q, [])

/-! ## A host -/

/-- A host that waits for content `content_number` receives a datagram: the
datagrams that it sends, and what it saves. `directory` holds what the pointer of
`FNgenerator` has it open for a request of each content, if anything; what it
opens as `ReadFile` is of no account for what it sends (`answerWith_of_file`). -/
def rxDatagram (mem : Host.Memory) (directory : Int → Option (List UInt8)) (content_number : Int)
    (port : ReceivingPort) (bytes : List UInt8) :
    Option (ReceivingPort × List (List UInt8) × Option (List UInt8)) := do
  let q ← port.receivePacket mem.alloc' bytes
  let p := q.pkt_.headerOctets
  match PacketTypes.ofOctet p.packetType with
  | some .REQUEST =>
    let opened := directory p.ContentID
    match ← Host.answerWith mem opened opened p.ContentID p.hostOrHops with
    | .sent datagrams => return (q, datagrams, none)
    | .out_of_range => return (q, [], none)
  | some .RESPONSE =>
    if p.ContentID = content_number then
      let saved ← Host.saveResponse q.pkt_
      return (q, [], some saved)
    else return (q, [], none)
  | _ => return (q, [], none)

/-- The file that a host opens for a packet. -/
def fileFor (directory : Int → Option (List UInt8)) (packet : HeaderOctets) :
    Option (List UInt8) :=
  if PacketTypes.ofOctet packet.packetType = some .REQUEST then directory packet.ContentID
  else none

namespace Network

open Lib

/-- A datagram and the interface or host it is to arrive at. -/
structure Datagram (R H : Type*) where
  dest : Far R Int H
  bytes : List UInt8

/-- The tables and ports of the routers, the ports of the hosts and what each
waits for, the datagrams in flight, and what has happened so far. -/
structure WireState (R H : Type*) where
  tables : R → Tables
  port : Far R Int H → ReceivingPort
  content_number : H → Int
  inFlight : List (Datagram R H)
  announced : List (H × UInt8)
  asked : List (H × UInt8)
  served : List (H × UInt8 × List UInt8)
  saved : List (H × UInt8 × List UInt8)

/-- What happens on the wire, with the memory and the files that it meets. -/
inductive WireEvent (R H : Type*)
  | announce (h : H) (contentID : UInt8) (mem : Host.Memory)
  | request (h : H) (contentID : UInt8) (mem : Host.Memory)
  | deliver (k : Nat) (mem : RouterMemory)
  | hostReceive (k : Nat) (directory : Int → Option (List UInt8)) (mem : Host.Memory)
  | lose (k : Nat)
  | drop (k : Nat) (alloc : (n : Nat) → Buf UInt8 n)
  | duplicate (k : Nat)
  | timerPending (r : R)

namespace Topology

variable {R H : Type*} (T : Topology R H)

/-- A datagram that host `h` sends. -/
def datagramFrom (h : H) (bytes : List UInt8) : Datagram R H :=
  ⟨.node (T.attach h).1 (T.attach h).2, bytes⟩

/-- What a router sends: each datagram to the far end of its interface. -/
def sendDatagrams (r : R) (out : List (Int × List UInt8)) : List (Datagram R H) :=
  out.filterMap fun s => (T.far r s.1).map fun e => ⟨e, s.2⟩

variable [DecidableEq R] [DecidableEq H]

/-- One event on the wire. -/
def wireStep (s : WireState R H) : WireEvent R H → Option (WireState R H)
  | .announce h contentID mem =>
    (Host.bcastRound mem.info mem.payload mem.sendingbuf_ [contentID.toNat]).map fun sent =>
      { s with
        inFlight := s.inFlight ++ sent.map (T.datagramFrom h)
        announced := (h, contentID) :: s.announced }
  | .request h contentID mem =>
    let data_req_packet :=
      MakeRequestPacket (.fresh mem.info mem.payload) contentID.toNat (T.hostID h).toNat
    (data_req_packet.sendPacket mem.sendingbuf_).map fun bytes =>
      { s with
        content_number := Function.update s.content_number h contentID.toNat
        inFlight := s.inFlight ++ [T.datagramFrom h bytes]
        asked := (h, contentID) :: s.asked }
  | .deliver k mem =>
    match s.inFlight[k]? with
    | some ⟨.node r i, bytes⟩ =>
      (relayDatagram (T.num_interfaces r) mem (s.tables r) i (s.port (.node r i)) bytes).map
        fun (t, q, out) =>
          { s with
            tables := Function.update s.tables r t
            port := Function.update s.port (.node r i) q
            inFlight := s.inFlight.eraseIdx k ++ T.sendDatagrams r out }
    | some ⟨.leaf _, _⟩ => none
    | none => none
  | .hostReceive k directory mem =>
    match s.inFlight[k]? with
    | some ⟨.leaf h, bytes⟩ =>
      (rxDatagram mem directory (s.content_number h) (s.port (.leaf h)) bytes).map
        fun (q, sent, saved) =>
          let packet := octetsOf bytes
          { s with
            port := Function.update s.port (.leaf h) q
            inFlight := s.inFlight.eraseIdx k ++ sent.map (T.datagramFrom h)
            served :=
              (fileFor directory packet).toList.map (fun file => (h, packet.contentID, file))
                ++ s.served
            saved := saved.toList.map (fun content => (h, packet.contentID, content)) ++ s.saved }
    | some ⟨.node _ _, _⟩ => none
    | none => none
  | .lose k => s.inFlight[k]?.map fun _ => { s with inFlight := s.inFlight.eraseIdx k }
  | .drop k alloc =>
    match s.inFlight[k]? with
    | some ⟨dest, bytes⟩ =>
      -- `LossyReceivingPort::receivePacket` has received the packet, and returns `NULL`
      ((s.port dest).receivePacket alloc bytes).map fun q =>
        { s with
          port := Function.update s.port dest q
          inFlight := s.inFlight.eraseIdx k }
    | none => none
  | .duplicate k => s.inFlight[k]?.map fun x => { s with inFlight := s.inFlight ++ [x] }
  | .timerPending r =>
    (Simplified.timerPending (s.tables r).PendingRequestTable).map fun l =>
      { s with
        tables := Function.update s.tables r { s.tables r with PendingRequestTable := l } }

/-- The wire between routers and hosts that have just been started; nothing is
known of what the memory of their ports holds. -/
def wire (port : Far R Int H → ReceivingPort) : Lts (WireState R H) (WireEvent R H) :=
  .ofStep ⟨fun _ => .empty, port, fun _ => -1, [], [], [], [], []⟩ T.wireStep

end Topology

end Network

end ContentNetwork
