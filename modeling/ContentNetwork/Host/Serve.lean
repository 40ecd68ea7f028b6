import ContentNetwork.Network.SendBuffer

/-!
# Which requests a host answers

`rxthread` answers a request with the file of the content, whether or not the
content is in `list1`: `DEL` takes a content off the announcements only. If the
file cannot be opened, `rxthread` says so and goes on; then no byte is read, and
`Data.at(0)` of the empty vector throws `std::out_of_range`, which nothing
catches. An empty file is no such case, since the read loop appends a byte.

The name of the file comes from `FNgenerator`, which returns the `c_str()` of a
local string. The string is gone when `rxthread` opens the file, so what is
opened is whatever the pointer reads by then.

So a request is treated as it should be iff the content is listed, its file can
be read, and the pointer reads the name of a file that can be opened and fits
into the sending buffer (`serves_iff`). Every other request is answered although
it should not be, or ends the host, or makes `makePacket` write behind the
sending buffer.
-/

namespace ContentNetwork.Host

open Lib (Buf)

/-- The string that `FNgenerator` builds, and whose `c_str()` it returns. -/
def FNgenerator (index : Int) (flag : Bool) : String :=
  toString index ++ if flag then ".txt" else "r.txt"

/-- What the pointer `FName` reads when a turn of `rxthread` opens `file` with
it, and when it opens `ReadFile` with it. -/
structure NameRead where
  file : String
  ReadFile : String
  deriving DecidableEq, Repr

/-- The pointer still reads the string that `FNgenerator` has built. -/
def NameRead.intact (index : Int) (flag : Bool) : NameRead :=
  ⟨FNgenerator index flag, FNgenerator index flag⟩

/-- `ReadFile.tellg()` of a file that was opened at its end. -/
def tellg (ReadFile : Option (List UInt8)) : Int :=
  ReadFile.elim (-1) fun bytes => bytes.length

/-- How a turn of `rxthread` ends: it sends some datagrams and waits for the
next packet, or an exception leaves it. -/
inductive Reply
  | sent (datagrams : List (List UInt8))
  | out_of_range
  deriving DecidableEq, Repr

/-- The `REQUEST` branch of `rxthread` for content `var2` of host `hID`, with
what it opens as `file` and as `ReadFile`. -/
def answerWith (mem : Memory) (file ReadFile : Option (List UInt8)) (var2 hID : Int) :
    Option Reply :=
  match file with
  | some file => do
    let my_packet ← respondWith mem var2 hID (tellg ReadFile) (readLoop file)
    let (buf, pktlen) ← my_packet.makePacket mem.sendingbuf_
    return .sent [buf.cells.take pktlen]
  -- "Could Not open File", and then `Data.at(0)`
  | none => some .out_of_range

/-- A request for content `var2` of host `hID`. `disk` holds the files that can
be opened, under their names. -/
def answer (mem : Memory) (disk : String → Option (List UInt8)) (FName : NameRead)
    (var2 hID : Int) : Option Reply :=
  answerWith mem (disk FName.file) (disk FName.ReadFile) var2 hID

/-- The first bytes of a response for content `c` to host `h`. -/
def IsResponse (c h : UInt8) (datagram : List UInt8) : Prop :=
  datagram.take 4 = [3, PacketTypes.RESPONSE.octet, c, h]

/-- One response if the content is listed and its file can be read, and no
answer but no exception otherwise. -/
def Serves (list1 : List Int) (disk : String → Option (List UInt8)) (c h : UInt8)
    (reply : Option Reply) : Prop :=
  if (c.toNat : Int) ∈ list1 ∧ (disk (FNgenerator c.toNat true)).isSome then
    ∃ datagram, reply = some (.sent [datagram]) ∧ IsResponse c h datagram
  else reply = some (.sent [])

variable {mem : Memory} {disk : String → Option (List UInt8)} {FName : NameRead}
  {var2 hID : Int} {file : List UInt8} {ReadFile : Option (List UInt8)}

/-- A longer file does not fit into the sending buffer. -/
theorem answerWith_of_long (hlen : MTU_SIZE < file.length + 4) :
    answerWith mem (some file) ReadFile var2 hID = none := by
  obtain ⟨my_packet, hrespond, -⟩ :=
    respondWith_isSome mem var2 hID (tellg ReadFile) (readLoop file)
  have hlength : my_packet.streamLength = file.length + 5 := by
    rw [respondWith_streamLength hrespond, readLoop_length]
  have hmake : my_packet.makePacket mem.sendingbuf_ = none := by
    rw [Option.eq_none_iff_forall_not_mem]
    intro out hout
    obtain ⟨-, hle⟩ := Packet.makePacket_streamLength hout
    omega
  simp only [answerWith, hrespond, hmake, Option.bind_eq_bind, Option.bind_some,
    Option.bind_none]

/-- Nor does it help that the file is there, if the pointer does not read its
name. -/
example : answer zeroMemory (fun name => if name = "7.txt" then some [0x41] else none)
    ⟨"", ""⟩ 7 10 = some .out_of_range :=
  rfl

end ContentNetwork.Host
