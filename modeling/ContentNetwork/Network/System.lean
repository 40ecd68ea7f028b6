import ContentNetwork.Host.Announce
import ContentNetwork.Host.Offered
import ContentNetwork.Host.Retransmit
import ContentNetwork.Network.Saved

/-!
# Whole hosts on the wire

In the other networks a host announces and asks for whatever it likes. Here its
process decides. `main` obeys the user's `PUT`, `DEL` and `GET`, `bcast`
announces what is in `list1`, the timers of the sending port send requests
again, and `rxthread` answers with the files that the host has and stops the
timer when it saves a content. Routers and links do what they do on the wire,
and the timers of the routers age both tables.

`files` are what each host opens for a content, by whatever the pointer of
`FNgenerator` reads there; what a host saves has a name of its own and is never
served. A round of `bcast` holds the mutex of
`list1` from its first to its last datagram; as datagrams may be delayed, it is
one step. It is `none` when `makePacket` reads behind the header, so a round has
one announcement at most.

Two things happen to the wire that are none of its own events: a host sends a
request again, and a routing table ages (`SystemStep`).
-/

namespace ContentNetwork.Network

open Lib Simplified

/-- The process of a host: `list1`, and what `main`, `rxthread` and the timers
of the sending port share. -/
structure HostProcess where
  list1 : List Int
  slots : Host.HostState

/-- `GET`. -/
def HostProcess.GET (hostID var1 : Int) (p : HostProcess) : HostProcess :=
  { p with slots := (p.slots.GET hostID var1).1 }

/-- `rxthread` has handled a packet: a response may stop the timer. -/
def HostProcess.received (p : HostProcess) (packet : HeaderOctets) : HostProcess :=
  if PacketTypes.ofOctet packet.packetType = some .RESPONSE then
    { p with slots := (p.slots.receiveResponse packet.contentID).1 }
  else p

/-- The wire, and the processes at its ends. -/
structure SystemState (R H : Type*) where
  wire : WireState R H
  hosts : H → HostProcess

/-- The user of a host types a command; a thread of a host takes its turn; an
event of a router or a link. -/
inductive SystemEvent (R H : Type*)
  | PUT (h : H) (cID behindEnd : Int)
  | DEL (h : H) (var1 : Int)
  | GET (h : H) (var1 : Int) (mem : Host.Memory)
  | expire (h : H) (thread : Nat)
  | bcast (h : H) (mem : Host.Memory)
  | rx (k : Nat) (mem : Host.Memory)
  | deliver (k : Nat) (mem : RouterMemory)
  | lose (k : Nat)
  | drop (k : Nat) (alloc : (n : Nat) → Buf UInt8 n)
  | duplicate (k : Nat)
  | timerPending (r : R)
  | timerRouting (r : R)

/-- The event of the wire that an event of a router or a link is. -/
def SystemEvent.onWire {R H : Type*} : SystemEvent R H → Option (WireEvent R H)
  | .deliver k mem => some (.deliver k mem)
  | .lose k => some (.lose k)
  | .drop k alloc => some (.drop k alloc)
  | .duplicate k => some (.duplicate k)
  | .timerPending r => some (.timerPending r)
  | _ => none

/-- The bytes of a packet that has three header octets and no payload. -/
def requestDatagram (packet : HeaderOctets) : List UInt8 :=
  [3, packet.packetType, packet.contentID, packet.hostIDOrHops]

namespace SystemState

variable {R H : Type*} [DecidableEq H]

/-- One host changes. -/
def modify (s : SystemState R H) (h : H) (f : HostProcess → HostProcess) : SystemState R H :=
  { s with hosts := Function.update s.hosts h (f (s.hosts h)) }

theorem modify_self (s : SystemState R H) (h : H) (f : HostProcess → HostProcess) :
    (s.modify h f).hosts h = f (s.hosts h) :=
  Function.update_self ..

theorem modify_of_ne {s : SystemState R H} {h x : H} {f : HostProcess → HostProcess}
    (hne : x ≠ h) : (s.modify h f).hosts x = s.hosts x :=
  Function.update_of_ne hne ..

/-- What holds of all hosts, and of the new process, holds then. -/
theorem forall_modify {s : SystemState R H} {x : H} {f : HostProcess → HostProcess}
    {P : H → HostProcess → Prop} (hs : ∀ y, P y (s.hosts y)) (hx : P x (f (s.hosts x))) :
    ∀ y, P y ((s.modify x f).hosts y) := by
  intro y
  unfold modify
  by_cases hy : y = x
  · subst hy
    dsimp only
    rw [Function.update_self]
    exact hx
  · dsimp only
    rw [Function.update_of_ne hy]
    exact hs y

end SystemState

namespace Topology

variable {R H : Type*} [DecidableEq R] [DecidableEq H] (T : Topology R H)
  (files : H → Int → Option (List UInt8))

/-- One event of the whole system. -/
def systemStep (s : SystemState R H) : SystemEvent R H → Option (SystemState R H)
  | .PUT h cID behindEnd =>
    some (s.modify h fun p =>
      { p with list1 := Host.PUT p.list1 cID (files h cID).isSome behindEnd })
  | .DEL h var1 => some (s.modify h fun p => { p with list1 := Host.DEL p.list1 var1 })
  | .GET h var1 mem =>
    let data_req_packet := MakeRequestPacket (.fresh mem.info mem.payload) var1 (T.hostID h).toNat
    (data_req_packet.sendPacket mem.sendingbuf_).map fun bytes =>
      { s.modify h (.GET (T.hostID h).toNat var1) with
        wire := { s.wire with
          content_number := Function.update s.wire.content_number h var1
          inFlight := s.wire.inFlight ++ [T.datagramFrom h bytes]
          asked := (h, UInt8.ofInt var1) :: s.wire.asked } }
  | .expire h thread =>
    if thread ∈ (s.hosts h).slots.sleeping then
      let (slots, sent) := (s.hosts h).slots.timerProc thread
      some { s.modify h fun p => { p with slots := slots } with
        wire := { s.wire with
          inFlight := s.wire.inFlight ++ sent.map fun p => T.datagramFrom h (requestDatagram p) } }
    else none
  | .bcast h mem =>
    let list1 := (s.hosts h).list1
    (Host.bcastRound mem.info mem.payload mem.sendingbuf_ list1).map fun sent =>
      { s with wire := { s.wire with
          inFlight := s.wire.inFlight ++ sent.map (T.datagramFrom h)
          announced := list1.map (fun p1 => (h, UInt8.ofInt p1)) ++ s.wire.announced } }
  | .rx k mem =>
    match s.wire.inFlight[k]? with
    | some ⟨.leaf h, bytes⟩ =>
      (T.wireStep s.wire (.hostReceive k (files h) mem)).map fun w =>
        { s.modify h fun p => p.received (octetsOf bytes) with wire := w }
    | some ⟨.node _ _, _⟩ => none
    | none => none
  | .deliver k mem => (T.wireStep s.wire (.deliver k mem)).map fun w => { s with wire := w }
  | .lose k => (T.wireStep s.wire (.lose k)).map fun w => { s with wire := w }
  | .drop k alloc => (T.wireStep s.wire (.drop k alloc)).map fun w => { s with wire := w }
  | .duplicate k => (T.wireStep s.wire (.duplicate k)).map fun w => { s with wire := w }
  | .timerPending r => (T.wireStep s.wire (.timerPending r)).map fun w => { s with wire := w }
  | .timerRouting r =>
    (Simplified.timerRouting (s.wire.tables r).RoutingTable).map fun l =>
      { s with wire := { s.wire with
          tables := Function.update s.wire.tables r { s.wire.tables r with RoutingTable := l } } }

/-- The system whose routers and hosts have just been started. -/
def system (port : Far R Int H → ReceivingPort) (ackflag : H → Bool) :
    Lts (SystemState R H) (SystemEvent R H) :=
  .ofStep ⟨⟨fun _ => .empty, port, fun _ => -1, [], [], [], [], []⟩,
    fun h => ⟨[], .start (ackflag h)⟩⟩ (T.systemStep files)

/-- What an event does. -/
inductive SystemStep (s : SystemState R H) : SystemEvent R H → SystemState R H → Prop
  | PUT (h : H) (cID behindEnd : Int) :
      SystemStep s (.PUT h cID behindEnd) (s.modify h fun p =>
        { p with list1 := Host.PUT p.list1 cID (files h cID).isSome behindEnd })
  | DEL (h : H) (var1 : Int) :
      SystemStep s (.DEL h var1) (s.modify h fun p => { p with list1 := Host.DEL p.list1 var1 })
  | GET {h : H} {var1 : Int} {mem : Host.Memory} {w : WireState R H} :
      T.WireStep s.wire (.request h (UInt8.ofInt var1) mem) w →
      SystemStep s (.GET h var1 mem)
        { s.modify h (.GET (T.hostID h).toNat var1) with
          wire := { w with content_number := Function.update s.wire.content_number h var1 } }
  | expire {h : H} {thread : Nat} {slots : Host.HostState} {sent : List HeaderOctets} :
      thread ∈ (s.hosts h).slots.sleeping →
      (s.hosts h).slots.timerProc thread = (slots, sent) →
      SystemStep s (.expire h thread)
        { s.modify h fun p => { p with slots := slots } with
          wire := { s.wire with
            inFlight := s.wire.inFlight ++
              sent.map fun p => T.datagramFrom h (requestDatagram p) } }
  | idle {h : H} (mem : Host.Memory) : (s.hosts h).list1 = [] → SystemStep s (.bcast h mem) s
  | bcast {h : H} {p1 : Int} {mem : Host.Memory} {w : WireState R H} :
      (s.hosts h).list1 = [p1] → T.WireStep s.wire (.announce h (UInt8.ofInt p1) mem) w →
      SystemStep s (.bcast h mem) { s with wire := w }
  | rx {k : Nat} {h : H} {bytes : List UInt8} {mem : Host.Memory} {w : WireState R H} :
      s.wire.inFlight[k]? = some ⟨.leaf h, bytes⟩ →
      T.WireStep s.wire (.hostReceive k (files h) mem) w →
      SystemStep s (.rx k mem)
        { s.modify h fun p => p.received (octetsOf bytes) with wire := w }
  | onWire {a : SystemEvent R H} {e : WireEvent R H} {w : WireState R H} :
      a.onWire = some e → T.WireStep s.wire e w → SystemStep s a { s with wire := w }
  | timerRouting {r : R} {l : List RTrecord} :
      Simplified.timerRouting (s.wire.tables r).RoutingTable = some l →
      SystemStep s (.timerRouting r) { s with wire := { s.wire with
        tables := Function.update s.wire.tables r { s.wire.tables r with RoutingTable := l } } }

variable {T files} {s s' : SystemState R H} {a : SystemEvent R H}

omit [DecidableEq R] [DecidableEq H] in
/-- The request for any content number is the one for its octet. -/
theorem sendPacket_request (var1 : Int) (h : H) (mem : Host.Memory) :
    (MakeRequestPacket (.fresh mem.info mem.payload) var1 (T.hostID h).toNat).sendPacket
      mem.sendingbuf_
        = some [3, PacketTypes.REQUEST.octet, UInt8.ofInt var1, T.hostID h] := by
  have hoctet : MakeRequestPacket (.fresh mem.info mem.payload) var1 (T.hostID h).toNat
      = makeHeader .REQUEST (UInt8.ofInt var1).toNat (T.hostID h).toNat
          (.fresh mem.info mem.payload) := by
    unfold MakeRequestPacket makeHeader
    rw [ofInt_toNat, ofInt_toNat]
  rw [hoctet]
  exact sendPacket_makeHeader ..

/-- The inversion lemma. -/
theorem systemStep_cases (hcarries : s.wire.CarriesAll)
    (h : T.systemStep files s a = some s') : T.SystemStep files s a s' := by
  have hlink : ∀ {e : WireEvent R H}, a.onWire = some e →
      (T.wireStep s.wire e).map (fun w => { s with wire := w }) = some s' →
        T.SystemStep files s a s' := by
    intro e he hmap
    obtain ⟨w, hw, rfl⟩ := Option.map_eq_some_iff.mp hmap
    exact .onWire he (wireStep_cases hcarries hw)
  cases a with
  | PUT x cID behindEnd =>
    obtain rfl := Option.some.inj h
    exact .PUT x cID behindEnd
  | DEL x var1 =>
    obtain rfl := Option.some.inj h
    exact .DEL x var1
  | GET x var1 mem =>
    obtain ⟨bytes, hsend, rfl⟩ := Option.map_eq_some_iff.mp h
    obtain rfl := Option.some.inj ((sendPacket_request var1 x mem).symm.trans hsend)
    exact .GET (.request x (UInt8.ofInt var1) mem)
  | expire x thread =>
    simp only [systemStep] at h
    split at h
    next hin =>
      obtain rfl := Option.some.inj h
      exact .expire hin rfl
    next => cases h
  | bcast x mem =>
    obtain ⟨sent, hround, rfl⟩ := Option.map_eq_some_iff.mp h
    rcases bcastRound_eq_some hround with ⟨hnil, rfl⟩ | ⟨p1, hone, rfl⟩
    · have hstep : T.SystemStep files s (.bcast x mem) s := .idle mem hnil
      rw [hnil]
      dsimp only
      rw [List.map_nil, List.map_nil, List.append_nil, List.nil_append]
      exact hstep
    · have hstep : T.SystemStep files s (.bcast x mem) _ :=
        .bcast hone (.announce x (UInt8.ofInt p1) mem)
      rw [hone]
      exact hstep
  | rx k mem =>
    simp only [systemStep] at h
    split at h
    next x bytes hk =>
      obtain ⟨w, hw, rfl⟩ := Option.map_eq_some_iff.mp h
      exact .rx hk (wireStep_cases hcarries hw)
    next => cases h
    next => cases h
  | deliver k mem => exact hlink rfl h
  | lose k => exact hlink rfl h
  | drop k alloc => exact hlink rfl h
  | duplicate k => exact hlink rfl h
  | timerPending r => exact hlink rfl h
  | timerRouting r =>
    obtain ⟨l, hl, rfl⟩ := Option.map_eq_some_iff.mp h
    exact .timerRouting hl

end Topology

end ContentNetwork.Network
