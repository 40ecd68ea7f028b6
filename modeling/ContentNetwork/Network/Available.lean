import ContentNetwork.Network.EndToEnd

/-!
# What users can always get

The pointer of `FNgenerator` is taken to read the name that was built whenever a
file is opened with it. The files with such names are those of contents 0 to 255,
and each fits into a response (`Servable`). Then no exception ends a process of
the system: routers know only interfaces that they have, so `at` never throws,
and a request comes only to a host that has the file (`system_survives`).

Nothing that has happened is in the way either, be it lost packets, repeated
ones, or records of long ago. From whatever state the system has reached, a user
can still get a content that a user of the same router has
(`system_available`). The way there is short: the other user puts the content
and its host announces it; all else that is in flight may be lost; then the
request and the response find their way by what the router knows (`Arrives`).
The host IDs of a router's hosts have to be distinct, as a response follows the
host ID. All but the commands is done by the system while no user types
(`unattended`).
-/

namespace ContentNetwork.Network

open Lib Lib.Lts Simplified

variable {R H : Type*} {T : Topology R H} {s : WireState R H}

/-- What a user types. -/
def SystemEvent.Typed : SystemEvent R H → Prop
  | .PUT .. => True
  | .DEL .. => True
  | .GET .. => True
  | _ => False

/-- The system while no user types anything. -/
def Topology.unattended [DecidableEq R] [DecidableEq H] (T : Topology R H)
    (files : H → Int → Option (List UInt8)) (port : Far R Int H → ReceivingPort)
    (ackflag : H → Bool) : Lts (SystemState R H) (SystemEvent R H) :=
  (T.system files port ackflag).guard fun _ a => ¬a.Typed

/-! ## Files and their names -/

/-- What host `y` opens for each content: `disk` holds the files of the hosts
under their names, and `FName` is what the pointer reads. -/
def opened (disk : H → String → Option (List UInt8)) (FName : H → Int → Host.NameRead) (y : H)
    (index : Int) : Option (List UInt8) :=
  disk y (FName y index).file

/-- The files of the contents: those with the names that `FNgenerator` builds. -/
def contentFiles (disk : H → String → Option (List UInt8)) (y : H) (index : Int) :
    Option (List UInt8) :=
  disk y (Host.FNgenerator index true)

/-- What is opened is the file of the content if the pointer reads its name. -/
theorem opened_eq {disk : H → String → Option (List UInt8)} {FName : H → Int → Host.NameRead}
    (hname : ∀ y index, (FName y index).file = Host.FNgenerator index true) :
    opened disk FName = contentFiles disk :=
  funext₂ fun y index => congrArg (disk y) (hname y index)

/-! ## Nothing throws -/

/-- The files are those of contents 0 to 255, and each fits into a response. -/
structure Servable (files : H → Int → Option (List UInt8)) : Prop where
  octet : ∀ {y cID}, (files y cID).isSome → 0 ≤ cID ∧ cID ≤ 255
  fits : ∀ {y cID file}, files y cID = some file → file.length + 4 ≤ MTU_SIZE

/-- Records name configured interfaces. -/
theorem HorizonInv.inRange (hi : HorizonInv T s) (r : R) :
    (s.tables r).InRange (T.num_interfaces r) := by
  refine ⟨fun record hmem => ?_, fun record hmem => ?_⟩
  · obtain ⟨y, c, -, -, ⟨-, hatt⟩ | ⟨-, -, i', hfar⟩⟩ := hi.record hmem
    · exact T.in_range (T.leaf.mpr hatt)
    · exact T.in_range hfar
  · obtain ⟨m, ⟨hm, -⟩, ht, -, hinterface⟩ := (hi.learned r).pending record hmem
    obtain ⟨x, -, hatt⟩ := hm.request ht
    rw [hinterface]
    exact T.in_range (T.leaf.mpr hatt)

/-- What a router with a host knows, a host of that router has. -/
theorem HorizonInv.record_host {x : H} (hi : HorizonInv T s) {record : RTrecord}
    (hmem : record ∈ (s.tables (T.attach x).1).RoutingTable) :
    ∃ z c, record.cID = ((c : UInt8).toNat : Int) ∧ (z, c) ∈ s.announced ∧
      T.attach z = ((T.attach x).1, record.interface) := by
  obtain ⟨z, c, hc, hz, ⟨-, hatt⟩ | ⟨-, hone, i', hfar⟩⟩ := hi.record hmem
  · exact ⟨z, c, hc, hz, hatt⟩
  · -- the only interface is that of the host
    have hhost := T.in_range (T.far_attach x)
    have hrouter := T.in_range hfar
    have heq : record.interface = (T.attach x).2 := by omega
    rw [heq, T.far_attach x] at hfar
    cases hfar

variable {files : H → Int → Option (List UInt8)} {disk : H → String → Option (List UInt8)}
  {FName : H → Int → Host.NameRead} {acts : List (SystemEvent R H)}
  {u u' : SystemState R H} {x y : H} {c : UInt8} {bytes file : List UInt8}

/-- What has been put can be read. -/
theorem Puts.readable (hfiles : Servable files) (h : Puts files acts y c) :
    ∃ file, files y c.toNat = some file ∧ file.length + 4 ≤ MTU_SIZE := by
  obtain ⟨cID, -, -, hopen, rfl⟩ := h
  obtain ⟨h0, h255⟩ := hfiles.octet hopen
  have hoctet : ((UInt8.ofInt cID).toNat : Int) = cID := by
    rw [UInt8.ofInt, UInt8.toNat_ofNat']
    omega
  rw [hoctet]
  obtain ⟨file, hfile⟩ := Option.isSome_iff_exists.mp hopen
  exact ⟨file, hfile, hfiles.fits hfile⟩

namespace Topology

variable [DecidableEq R] [DecidableEq H] {port : Far R Int H → ReceivingPort} {ackflag : H → Bool}

theorem reachable_systemInv (h : (T.system files port ackflag).Reachable u) :
    ∃ acts, SystemInv T files acts u := by
  obtain ⟨ms, hrun⟩ := h.exists_run
  exact ⟨_, run_systemInv hrun⟩

omit [DecidableEq R] [DecidableEq H] in
/-- A request that has come to a host is for a file that the host has. -/
theorem requested_file (hfiles : Servable files) (hinv : SystemInv T files acts u)
    (hmem : ⟨.leaf y, bytes⟩ ∈ u.wire.inFlight)
    (ht : PacketTypes.ofOctet (octetsOf bytes).packetType = some .REQUEST) :
    ∃ file, files y (octetsOf bytes).contentID.toNat = some file ∧
      file.length + 4 ≤ MTU_SIZE :=
  Puts.readable hfiles (hinv.obeys.announced y _ (hinv.wire.directed.flight _ hmem ht))

/-- **No exception ends a process**, in any state that the system reaches, if the
pointer reads the names of the files, the files are those of contents 0 to 255
and each fits into a response: `at` throws at no router, and a host answers
whatever request has come to it with the file of the content. -/
theorem system_survives (hname : ∀ y index, (FName y index).file = Host.FNgenerator index true)
    (hfiles : Servable (contentFiles disk))
    (hreach : (T.system (opened disk FName) port ackflag).Reachable u) :
    (∀ r m, handlePacket (T.num_interfaces r) (u.wire.tables r) m ≠ none) ∧
    ∀ y bytes, ⟨.leaf y, bytes⟩ ∈ u.wire.inFlight →
      PacketTypes.ofOctet (octetsOf bytes).packetType = some .REQUEST →
      ∃ file, contentFiles disk y (octetsOf bytes).ContentID = some file ∧ ∀ mem,
        Host.answer mem (disk y) (FName y (octetsOf bytes).ContentID)
          (octetsOf bytes).ContentID (octetsOf bytes).hostOrHops
            = some (.sent [Host.responseDatagram (octetsOf bytes).contentID
                (octetsOf bytes).hostIDOrHops file]) := by
  rw [opened_eq hname] at hreach
  obtain ⟨acts, hinv⟩ := reachable_systemInv hreach
  refine ⟨fun r m => handlePacket_ne_none (hinv.wire.horizon.inRange r),
    fun y bytes hmem ht => ?_⟩
  obtain ⟨file, hfile, hlen⟩ := requested_file hfiles hinv hmem ht
  refine ⟨file, hfile, fun mem => ?_⟩
  have hopened : disk y (FName y (octetsOf bytes).ContentID).file = some file := by
    rw [hname]
    exact hfile
  rw [Host.answer, hopened]
  unfold HeaderOctets.ContentID HeaderOctets.hostOrHops
  rw [answerWith_of_file, if_pos hlen]

/-! ## One datagram at a time -/

omit [DecidableEq R] [DecidableEq H] in
theorem sendDatagrams_singleton {r : R} {i : Int} {e : Far R Int H}
    (hfar : T.far r i = some e) : T.sendDatagrams r [(i, bytes)] = [⟨e, bytes⟩] := by
  unfold sendDatagrams
  rw [List.filterMap_cons_some (by rw [hfar]; rfl)]
  rfl

/-- The only datagram in flight comes to a router, which can send it on. -/
theorem wire_relay {r : R} {i : Int} (mem : RouterMemory) (hcarries : s.CarriesAll)
    (hi : HorizonInv T s) (hflight : s.inFlight = [⟨.node r i, bytes⟩])
    (hhead : bytes.head? ≠ some 4) :
    ∃ t q out, T.wireStep s (.deliver 0 mem) = some { s with
        tables := Function.update s.tables r t
        port := Function.update s.port (.node r i) q
        inFlight := T.sendDatagrams r out } ∧
      handlePacket (T.num_interfaces r) (s.tables r) ⟨octetsOf bytes, i⟩
        = some (t, out.map fun x => (x.1, octetsOf x.2)) ∧
      (PacketTypes.ofOctet (octetsOf bytes).packetType ≠ some .ANNOUNCEMENT →
        ∀ x ∈ out, x.2 = bytes) := by
  have hc : Carried s.served bytes := hcarries ⟨.node r i, bytes⟩ (by simp [hflight])
  have hrelay : relayDatagram (T.num_interfaces r) mem (s.tables r) i (s.port (.node r i)) bytes
      ≠ none := fun hnone => hhead ((relayDatagram_eq_none_iff hc).mp hnone).1
  obtain ⟨⟨t, q, out⟩, hrelay⟩ := Option.ne_none_iff_exists'.mp hrelay
  rcases relayDatagram_eq_some hc hrelay with ⟨hnone, -, -⟩ | ⟨hhandle, -, hsame⟩
  · exact absurd hnone (handlePacket_ne_none (hi.inRange r))
  · refine ⟨t, q, out, ?_, hhandle, hsame⟩
    simp only [wireStep, hflight, List.getElem?_cons_zero, hrelay, Option.map_some,
      List.eraseIdx_cons_zero, List.nil_append]

/-- It is no announcement, and there is one interface to send it through. -/
theorem wire_forward {r : R} {i j : Int} {t : Tables} {e : Far R Int H} (mem : RouterMemory)
    (hcarries : s.CarriesAll) (hi : HorizonInv T s) (hflight : s.inFlight = [⟨.node r i, bytes⟩])
    (hhead : bytes.head? ≠ some 4)
    (ht : PacketTypes.ofOctet (octetsOf bytes).packetType ≠ some .ANNOUNCEMENT)
    (hhandle : handlePacket (T.num_interfaces r) (s.tables r) ⟨octetsOf bytes, i⟩
      = some (t, [(j, octetsOf bytes)])) (hfar : T.far r j = some e) :
    ∃ q, T.wireStep s (.deliver 0 mem) = some { s with
      tables := Function.update s.tables r t
      port := Function.update s.port (.node r i) q
      inFlight := [⟨e, bytes⟩] } := by
  obtain ⟨t', q, out, hstep, hhandle', hsame⟩ := wire_relay mem hcarries hi hflight hhead
  obtain ⟨rfl, hout⟩ := Prod.mk.inj (Option.some.inj (hhandle.symm.trans hhandle'))
  obtain ⟨⟨j', bytes'⟩, rfl, hj⟩ := List.map_eq_singleton_iff.mp hout.symm
  obtain rfl : bytes' = bytes := hsame ht _ (List.mem_singleton_self _)
  obtain rfl : j' = j := congrArg Prod.fst hj
  refine ⟨q, ?_⟩
  rw [hstep, sendDatagrams_singleton hfar]

/-- It is a request that comes to a host, which has the file. -/
theorem wire_serve {directory : Int → Option (List UInt8)} (mem : Host.Memory)
    (hcarries : s.CarriesAll) (hflight : s.inFlight = [⟨.leaf y, bytes⟩])
    (ht : PacketTypes.ofOctet (octetsOf bytes).packetType = some .REQUEST)
    (hfile : directory (octetsOf bytes).contentID.toNat = some file)
    (hlen : file.length + 4 ≤ MTU_SIZE) :
    ∃ q served, T.wireStep s (.hostReceive 0 directory mem) = some { s with
      port := Function.update s.port (.leaf y) q
      inFlight := [T.datagramFrom y (Host.responseDatagram (octetsOf bytes).contentID
        (octetsOf bytes).hostIDOrHops file)]
      served := served } := by
  have hc : Carried s.served bytes := hcarries ⟨.leaf y, bytes⟩ (by simp [hflight])
  have hfor : fileFor directory (octetsOf bytes) = some file := (if_pos ht).trans hfile
  have hrx : rxDatagram mem directory (s.content_number y) (s.port (.leaf y)) bytes ≠ none := by
    rw [ne_eq, rxDatagram_eq_none_iff hc, hfor]
    rintro (⟨file', hfile', hlong⟩ | ⟨hresponse, -⟩)
    · obtain rfl := Option.some.inj hfile'
      exact absurd hlen (Nat.not_le.mpr hlong)
    · cases ht.symm.trans hresponse
  obtain ⟨⟨q, sent, saved⟩, hrx⟩ := Option.ne_none_iff_exists'.mp hrx
  obtain ⟨-, hreacts⟩ := rxDatagram_eq_some hc hrx
  have hserves : sent = [Host.responseDatagram (octetsOf bytes).contentID
      (octetsOf bytes).hostIDOrHops file] ∧ saved = none := by
    cases hreacts with
    | serves hfor' _ =>
      obtain rfl := Option.some.inj (hfor.symm.trans hfor')
      exact ⟨rfl, rfl⟩
    | saves hnone => cases hfor.symm.trans hnone
    | nothing hnone => cases hfor.symm.trans hnone
  obtain ⟨rfl, rfl⟩ := hserves
  refine ⟨q, (y, (octetsOf bytes).contentID, file) :: s.served, ?_⟩
  simp only [wireStep, hflight, List.getElem?_cons_zero, hrx, hfor]
  rfl

omit [DecidableEq R] [DecidableEq H] in
/-- A response that a host waits for. -/
theorem rxDatagram_response {served : List (H × UInt8 × List UInt8)} {h : UInt8}
    (mem : Host.Memory) (directory : Int → Option (List UInt8)) (p : ReceivingPort)
    (hc : Carried served (Host.responseDatagram c h file)) :
    ∃ q, p.receivePacket mem.alloc' (Host.responseDatagram c h file) = some q ∧
      rxDatagram mem directory c.toNat p (Host.responseDatagram c h file)
        = (Host.saveResponse q.pkt_).map fun saved => (q, [], some saved) := by
  obtain ⟨a, rest, hheaded⟩ := hc.headed
  obtain ⟨q, hq⟩ := hheaded.receive mem.alloc' p
  have ht : PacketTypes.ofOctet (octetsOf (Host.responseDatagram c h file)).packetType
      = some .RESPONSE := rfl
  refine ⟨q, hq, ?_⟩
  unfold rxDatagram
  rw [hq, Option.bind_eq_bind, Option.bind_some, (hheaded.received hq).2.2]
  dsimp only
  rw [ht]
  dsimp only
  rw [if_pos (show (octetsOf (Host.responseDatagram c h file)).ContentID = c.toNat from rfl)]
  cases Host.saveResponse q.pkt_ <;> rfl

/-- It is a response that the host waits for: it is saved, and if the file has a
zero byte it can be. -/
theorem wire_save {directory : Int → Option (List UInt8)} {h : UInt8} (mem : Host.Memory)
    (hcarries : s.CarriesAll) (hflight : s.inFlight = [⟨.leaf x, Host.responseDatagram c h file⟩])
    (hwaits : s.content_number x = c.toNat) :
    (∀ w, T.wireStep s (.hostReceive 0 directory mem) = some w → ∃ residue,
      (x, c, (file ++ 0xff :: residue).takeWhile (· ≠ 0)) ∈ w.saved) ∧
    (0 ∈ file → T.wireStep s (.hostReceive 0 directory mem) ≠ none) := by
  have hc : Carried s.served (Host.responseDatagram c h file) :=
    hcarries ⟨.leaf x, Host.responseDatagram c h file⟩ (by simp [hflight])
  obtain ⟨q, hq, hrx⟩ := rxDatagram_response mem directory (s.port (.leaf x)) hc
  simp only [wireStep, hflight, List.getElem?_cons_zero, hwaits, hrx]
  refine ⟨fun w hw => ?_, fun hzero => ?_⟩
  · obtain ⟨r, hr, rfl⟩ := Option.map_eq_some_iff.mp hw
    obtain ⟨content, hsave, rfl⟩ := Option.map_eq_some_iff.mp hr
    obtain ⟨residue, rfl⟩ := saved_of_response hc hq hsave
    exact ⟨residue, List.mem_cons_self ..⟩
  · obtain ⟨residue, hcells⟩ := response_cells hc hq
    have hsave : Host.saveResponse q.pkt_ ≠ none := by
      refine Host.cString_ne_none ?_
      rw [hcells]
      exact List.mem_append_left _ hzero
    obtain ⟨content, hcontent⟩ := Option.ne_none_iff_exists'.mp hsave
    rw [hcontent]
    exact Option.some_ne_none _

/-! ## What may happen next -/

/-- A router's step on the wire is a step of the system. -/
theorem step_deliver {k : Nat} {mem : RouterMemory} {w : WireState R H}
    (h : T.wireStep u.wire (.deliver k mem) = some w) :
    (T.unattended files port ackflag).step u (.deliver k mem) { u with wire := w } :=
  ⟨id, Option.map_eq_some_iff.mpr ⟨w, h, rfl⟩⟩

/-- All that is in flight may be lost. -/
theorem leads_lost (u : SystemState R H) :
    (T.unattended files port ackflag).Leads u
      { u with wire := { u.wire with inFlight := [] } } := by
  obtain ⟨w, hosts⟩ := u
  obtain ⟨tables, q, content_number, inFlight, announced, asked, served, saved⟩ := w
  dsimp only
  induction inFlight with
  | nil => exact .refl
  | cons d inFlight ih =>
    have hlose : (T.unattended files port ackflag).step
        ⟨⟨tables, q, content_number, d :: inFlight, announced, asked, served, saved⟩, hosts⟩
        (.lose 0)
        ⟨⟨tables, q, content_number, inFlight, announced, asked, served, saved⟩, hosts⟩ :=
      ⟨id, rfl⟩
    exact (Leads.step .refl hlose).trans ih

/-- A host that lists one content announces it. -/
theorem leads_announced (hempty : u.wire.inFlight = [])
    (hlist1 : (u.hosts y).list1 = [(c.toNat : Int)]) :
    ∃ u', (T.unattended files port ackflag).Leads u u' ∧ u'.hosts = u.hosts ∧
      u'.wire.inFlight = [T.datagramFrom y [3, PacketTypes.ANNOUNCEMENT.octet, c, 0]] := by
  let u₁ : SystemState R H := { u with wire := { u.wire with
    inFlight := [T.datagramFrom y [3, PacketTypes.ANNOUNCEMENT.octet, c, 0]]
    announced := (y, c) :: u.wire.announced } }
  have hbcast : T.systemStep files u (.bcast y Host.zeroMemory) = some u₁ := by
    simp only [systemStep, hlist1, bcastRound_singleton, ofInt_toNat, Option.map_some,
      List.map_cons, List.map_nil, List.cons_append, List.nil_append, hempty]
    rfl
  exact ⟨u₁, .step .refl ⟨id, hbcast⟩, rfl, rfl⟩

/-- And its router knows it then. -/
theorem leads_known (hreach : (T.system files port ackflag).Reachable u)
    (hlist1 : (u.hosts y).list1 = [(c.toNat : Int)]) :
    ∃ u', (T.unattended files port ackflag).Leads u u' ∧ u'.hosts = u.hosts ∧
      u'.wire.inFlight = [] ∧ (Keyed.lookup RTrecord.cID c.toNat
        (u'.wire.tables (T.attach y).1).RoutingTable).isSome := by
  have hannounced : ∃ u', (T.unattended files port ackflag).Leads u u' ∧ u'.hosts = u.hosts ∧
      u'.wire.inFlight = [T.datagramFrom y [3, PacketTypes.ANNOUNCEMENT.octet, c, 0]] := by
    obtain ⟨u', hleads, hrest⟩ := leads_announced (u := { u with wire := { u.wire with
      inFlight := [] } }) rfl hlist1
    exact ⟨u', (leads_lost u).trans hleads, hrest⟩
  obtain ⟨u₁, hleads, hhosts, hflight⟩ := hannounced
  obtain ⟨acts, hinv⟩ := reachable_systemInv (hreach.leads hleads.of_guard)
  obtain ⟨t, q, out, hrelay, hhandle, -⟩ := wire_relay zeroRouterMemory hinv.wire.carries
    hinv.wire.horizon hflight (fun hhead => by cases hhead)
  refine ⟨_, (hleads.step (step_deliver hrelay)).trans (leads_lost _), hhosts, rfl, ?_⟩
  dsimp only
  rw [Function.update_self]
  exact handlePacket_announcement_known rfl hhandle

/-- A request for a known content may come to the host that the record leads to,
and is pending then. -/
theorem leads_request {z : H} {record : RTrecord}
    (hreach : (T.system files port ackflag).Reachable u)
    (hflight : u.wire.inFlight
      = [T.datagramFrom x [3, PacketTypes.REQUEST.octet, c, T.hostID x]])
    (hrecord : Keyed.lookup RTrecord.cID c.toNat
      (u.wire.tables (T.attach x).1).RoutingTable = some record)
    (hz : T.attach z = ((T.attach x).1, record.interface)) :
    ∃ u', (T.unattended files port ackflag).Leads u u' ∧
      u'.wire.content_number = u.wire.content_number ∧
      u'.wire.inFlight = [⟨.leaf z, [3, PacketTypes.REQUEST.octet, c, T.hostID x]⟩] ∧
      (pendingInterface (octets .REQUEST c (T.hostID x)).requestKey
        (u'.wire.tables (T.attach x).1)).isSome := by
  obtain ⟨acts, hinv⟩ := reachable_systemInv hreach
  have hfar : T.far (T.attach x).1 record.interface = some (.leaf z) := T.leaf.mpr hz
  obtain ⟨h0, h1⟩ := T.in_range hfar
  obtain ⟨t, hhandle⟩ := handlePacket_forward (n := T.num_interfaces (T.attach x).1)
    (t := u.wire.tables (T.attach x).1)
    (m := ⟨octets .REQUEST c (T.hostID x), (T.attach x).2⟩) rfl hrecord h0 h1
  obtain ⟨q, hrelay⟩ := wire_forward zeroRouterMemory hinv.wire.carries hinv.wire.horizon hflight
    (fun hhead => by cases hhead) (fun ht => by cases ht) hhandle hfar
  refine ⟨_, .step .refl (step_deliver hrelay), rfl, rfl, ?_⟩
  dsimp only
  rw [Function.update_self]
  exact handlePacket_request_pending rfl hhandle

omit [DecidableEq R] [DecidableEq H] in
/-- A pending request of a host goes back to that host. -/
theorem pending_attach {key : HeaderOctets} {j : Int} {r : R} (hd : DirectedInv T s)
    (hid : ∀ z, (T.attach z).1 = r → T.hostID z = key.hostIDOrHops → z = x)
    (hpending : pendingInterface key.requestKey (s.tables r) = some j) :
    T.attach x = (r, j) := by
  obtain ⟨record, hrecord, rfl⟩ := Option.map_eq_some_iff.mp hpending
  obtain ⟨m, hnamed, ht, hkey, hinterface⟩ :=
    (hd.learned r).pending record (Keyed.lookup_mem hrecord)
  obtain ⟨z, hatt, hhost⟩ := hnamed ht
  have hsame := (requestKey_inj (hkey.symm.trans (Keyed.lookup_key hrecord))).2
  obtain rfl := hid z (congrArg Prod.fst hatt) (hhost.symm.trans hsame)
  rw [hatt, hinterface]

/-- The host may answer, and the response may come back. -/
theorem leads_response {z : H} (hreach : (T.system files port ackflag).Reachable u)
    (hflight : u.wire.inFlight = [⟨.leaf z, [3, PacketTypes.REQUEST.octet, c, T.hostID x]⟩])
    (hz : (T.attach z).1 = (T.attach x).1)
    (hpending : (pendingInterface (octets .REQUEST c (T.hostID x)).requestKey
      (u.wire.tables (T.attach x).1)).isSome)
    (hid : ∀ y, (T.attach y).1 = (T.attach x).1 → T.hostID y = T.hostID x → y = x)
    (hfile : files z c.toNat = some file) (hlen : file.length + 4 ≤ MTU_SIZE) :
    ∃ u', (T.unattended files port ackflag).Leads u u' ∧
      u'.wire.content_number = u.wire.content_number ∧
      u'.wire.inFlight = [⟨.leaf x, Host.responseDatagram c (T.hostID x) file⟩] := by
  obtain ⟨acts, hinv⟩ := reachable_systemInv hreach
  -- `rxthread`
  obtain ⟨q, served, hserve⟩ := wire_serve (T := T) Host.zeroMemory hinv.wire.carries hflight rfl
    hfile hlen
  let u₁ : SystemState R H :=
    { u.modify z fun p => p.received (octets .REQUEST c (T.hostID x)) with
      wire := { u.wire with
        port := Function.update u.wire.port (.leaf z) q
        inFlight := [T.datagramFrom z (Host.responseDatagram c (T.hostID x) file)]
        served := served } }
  have hrx : T.systemStep files u (.rx 0 Host.zeroMemory) = some u₁ := by
    simp only [systemStep, hflight, List.getElem?_cons_zero, hserve]
    rfl
  -- the router
  obtain ⟨acts', hinv₁⟩ := reachable_systemInv (hreach.step hrx)
  obtain ⟨j, hj⟩ := Option.isSome_iff_exists.mp hpending
  have hatt : T.attach x = ((T.attach x).1, j) := pending_attach hinv₁.wire.directed hid hj
  have hfar : T.far (T.attach x).1 j = some (.leaf x) := T.leaf.mpr hatt
  obtain ⟨h0, h1⟩ := T.in_range hfar
  have hhandle := handlePacket_retrace
    (m := ⟨octets .RESPONSE c (T.hostID x), (T.attach z).2⟩) rfl hj h0 h1
  rw [← hz] at hhandle hfar
  obtain ⟨q', hrelay⟩ := wire_forward zeroRouterMemory hinv₁.wire.carries hinv₁.wire.horizon
    rfl (fun hhead => by cases hhead) (fun ht => by cases ht) hhandle hfar
  exact ⟨_, .step (.step .refl ⟨id, hrx⟩) (step_deliver hrelay), rfl, rfl⟩

/-! ## A content can always be had -/

/-- A response with a file of content `c`, of a host of the same router, is all
that is in flight. It comes to host `x`, which saves the file with the byte
0xff and the residue behind it, up to the first zero byte. -/
def Arrives (T : Topology R H) (files : H → Int → Option (List UInt8)) (x : H) (c : UInt8)
    (u : SystemState R H) : Prop :=
  ∃ z file, (T.attach z).1 = (T.attach x).1 ∧ files z c.toNat = some file ∧
    u.wire.inFlight = [⟨.leaf x, Host.responseDatagram c (T.hostID x) file⟩] ∧
    (∀ mem u', T.systemStep files u (.rx 0 mem) = some u' → ∃ residue,
      (x, c, (file ++ 0xff :: residue).takeWhile (· ≠ 0)) ∈ u'.wire.saved) ∧
    (0 ∈ file → ∀ mem, T.systemStep files u (.rx 0 mem) ≠ none)

/-- A host that waits for the response saves it. -/
theorem arrives_of_waiting {z : H} (hreach : (T.system files port ackflag).Reachable u)
    (hrouter : (T.attach z).1 = (T.attach x).1) (hfile : files z c.toNat = some file)
    (hflight : u.wire.inFlight = [⟨.leaf x, Host.responseDatagram c (T.hostID x) file⟩])
    (hwaits : u.wire.content_number x = c.toNat) : T.Arrives files x c u := by
  obtain ⟨acts, hinv⟩ := reachable_systemInv hreach
  refine ⟨z, file, hrouter, hfile, hflight, fun mem u' hstep => ?_, fun hzero mem => ?_⟩
  · simp only [systemStep, hflight, List.getElem?_cons_zero] at hstep
    obtain ⟨w, hw, rfl⟩ := Option.map_eq_some_iff.mp hstep
    exact (wire_save mem hinv.wire.carries hflight hwaits).1 w hw
  · simp only [systemStep, hflight, List.getElem?_cons_zero]
    rw [ne_eq, Option.map_eq_none_iff]
    exact (wire_save mem hinv.wire.carries hflight hwaits).2 hzero

/-- The request of a host that waits may be answered, if the router knows the
content. -/
theorem leads_arrives (hfiles : Servable files)
    (hid : ∀ z, (T.attach z).1 = (T.attach x).1 → T.hostID z = T.hostID x → z = x)
    (hreach : (T.system files port ackflag).Reachable u)
    (hflight : u.wire.inFlight
      = [T.datagramFrom x [3, PacketTypes.REQUEST.octet, c, T.hostID x]])
    (hwaits : u.wire.content_number x = c.toNat)
    (hknown : (Keyed.lookup RTrecord.cID c.toNat
      (u.wire.tables (T.attach x).1).RoutingTable).isSome) :
    ∃ u', (T.unattended files port ackflag).Leads u u' ∧ T.Arrives files x c u' := by
  obtain ⟨record, hrecord⟩ := Option.isSome_iff_exists.mp hknown
  -- the host that the record leads to
  obtain ⟨acts, hinv⟩ := reachable_systemInv hreach
  obtain ⟨z, c', hc, hz, hatt⟩ := hinv.wire.horizon.record_host (Keyed.lookup_mem hrecord)
  obtain rfl : c' = c :=
    UInt8.toNat_inj.mp (Int.ofNat.inj (hc.symm.trans (Keyed.lookup_key hrecord)))
  have hrouter : (T.attach z).1 = (T.attach x).1 := by rw [hatt]
  obtain ⟨file, hfile, hlen⟩ := Puts.readable hfiles (hinv.obeys.announced z c' hz)
  -- the exchange
  obtain ⟨u₁, hleads₁, hcontent₁, hflight₁, hpending⟩ := leads_request hreach hflight hrecord hatt
  obtain ⟨u₂, hleads₂, hcontent₂, hflight₂⟩ := leads_response (hreach.leads hleads₁.of_guard)
    hflight₁ hrouter hpending hid hfile hlen
  have hleads := hleads₁.trans hleads₂
  have hwaits₂ : u₂.wire.content_number x = c'.toNat := by
    rw [hcontent₂, hcontent₁, hwaits]
  exact ⟨u₂, hleads, arrives_of_waiting (hreach.leads hleads.of_guard) hrouter hfile hflight₂
    hwaits₂⟩

/-- The user of a host may delete all that it announces. -/
theorem leads_unlisted (u : SystemState R H) (y : H) :
    ∃ u', (T.system files port ackflag).Leads u u' ∧ (u'.hosts y).list1 = [] := by
  induction hn : (u.hosts y).list1.length using Nat.strong_induction_on generalizing u with
  | _ n ih =>
    cases hlist1 : (u.hosts y).list1 with
    | nil => exact ⟨u, .refl, hlist1⟩
    | cons cID list1 =>
      let u₁ := u.modify y fun p => { p with list1 := Host.DEL p.list1 cID }
      have hstep : (T.system files port ackflag).step u (.DEL y cID) u₁ := rfl
      have hlist1' : (u₁.hosts y).list1 = Host.DEL (cID :: list1) cID := by
        rw [← hlist1, SystemState.modify_self]
      have hlt : (u₁.hosts y).list1.length < n := by
        rw [hlist1', ← hn, hlist1, Host.DEL, List.filter_cons_of_neg (by simp)]
        exact Nat.lt_succ_of_le (List.length_filter_le ..)
      obtain ⟨u', hleads, hnil⟩ := ih _ hlt u₁ rfl
      exact ⟨u', (Leads.step .refl hstep).trans hleads, hnil⟩

/-- And put one content. -/
theorem leads_listed (u : SystemState R H) (hfile : (files y c.toNat).isSome) :
    ∃ u', (T.system files port ackflag).Leads u u' ∧
      (u'.hosts y).list1 = [(c.toNat : Int)] := by
  have hunlisted : ∃ u', (T.system files port ackflag).Leads u u' ∧ (u'.hosts y).list1 = [] :=
    leads_unlisted u y
  obtain ⟨u₁, hleads, hnil⟩ := hunlisted
  let u₂ := u₁.modify y fun p =>
    { p with list1 := Host.PUT p.list1 c.toNat (files y c.toNat).isSome 0 }
  have hput : (T.system files port ackflag).step u₁ (.PUT y c.toNat 0) u₂ := rfl
  refine ⟨u₂, hleads.step hput, ?_⟩
  rw [SystemState.modify_self]
  dsimp only
  rw [hnil, Host.PUT, if_pos hfile]
  rfl

/-- The host that has the file puts the content and announces it, and the other
one asks for it. -/
theorem leads_got (hfiles : Servable files)
    (hid : ∀ z, (T.attach z).1 = (T.attach x).1 → T.hostID z = T.hostID x → z = x)
    (hrouter : (T.attach y).1 = (T.attach x).1) (hfile : (files y c.toNat).isSome)
    (hreach : (T.system files port ackflag).Reachable u) :
    ∃ u', (T.system files port ackflag).Leads u u' ∧ T.Arrives files x c u' := by
  have hlisted : ∃ u', (T.system files port ackflag).Leads u u' ∧
      (u'.hosts y).list1 = [(c.toNat : Int)] := leads_listed u hfile
  obtain ⟨u₁, hleads₁, hlist1⟩ := hlisted
  obtain ⟨u₂, hleads₂, -, hempty, hknown⟩ := leads_known (hreach.leads hleads₁) hlist1
  have hleads := hleads₁.trans hleads₂.of_guard
  rw [hrouter] at hknown
  -- `GET`
  let u₃ : SystemState R H := { u₂.modify x (.GET (T.hostID x).toNat c.toNat) with
    wire := { u₂.wire with
      content_number := Function.update u₂.wire.content_number x c.toNat
      inFlight := [T.datagramFrom x [3, PacketTypes.REQUEST.octet, c, T.hostID x]]
      asked := (x, c) :: u₂.wire.asked } }
  have hget : (T.system files port ackflag).step u₂ (.GET x c.toNat Host.zeroMemory) u₃ := by
    show T.systemStep files u₂ (.GET x c.toNat Host.zeroMemory) = some u₃
    simp only [systemStep, sendPacket_request, ofInt_toNat, Option.map_some, hempty,
      List.nil_append]
    rfl
  have hleads₃ := hleads.step hget
  obtain ⟨u₄, hleads₄, harrives⟩ := leads_arrives (u := u₃) hfiles hid (hreach.leads hleads₃) rfl
    (Function.update_self ..) hknown
  exact ⟨u₄, hleads₃.trans hleads₄.of_guard, harrives⟩

/-- **A content that one user has another user can get**, from every state that
the system reaches, whatever has been lost, repeated, asked for or announced
before, if the pointer reads the names of the files. -/
theorem system_available (hname : ∀ y index, (FName y index).file = Host.FNgenerator index true)
    (hfiles : Servable (contentFiles disk))
    (hid : ∀ z, (T.attach z).1 = (T.attach x).1 → T.hostID z = T.hostID x → z = x)
    (hrouter : (T.attach y).1 = (T.attach x).1) (hfile : (contentFiles disk y c.toNat).isSome)
    (hreach : (T.system (opened disk FName) port ackflag).Reachable u) :
    ∃ u', (T.system (opened disk FName) port ackflag).Leads u u' ∧
      T.Arrives (opened disk FName) x c u' := by
  rw [opened_eq hname] at hreach ⊢
  exact leads_got hfiles hid hrouter hfile hreach

end Topology

/-- Host `true` has the file `7.txt`, of the one byte `A`. -/
def theDisk (h : Bool) (name : String) : Option (List UInt8) :=
  if h = true ∧ name = "7.txt" then some [0x41] else none

/-- The pointer always reads the name. -/
def intactNames (_ : Bool) (index : Int) : Host.NameRead :=
  .intact index true

/-- A number whose name is `7.txt` has one digit. -/
theorem octet_of_FNgenerator {cID : Int} (h : Host.FNgenerator cID true = "7.txt") :
    0 ≤ cID ∧ cID ≤ 255 := by
  have hrepr : cID.repr = "7" := (String.append_left_inj ".txt").mp h
  rw [Int.repr_eq_if] at hrepr
  split at hrepr
  next hnonneg =>
    have hlt : cID.toNat < 10 ^ 1 := (Nat.length_repr_le_iff (Nat.zero_lt_succ 0)).mp (by
      rw [hrepr]
      decide)
    omega
  next =>
    -- the sign and a digit
    have hlen := congrArg String.length hrepr
    rw [String.length_append] at hlen
    have hpos := @Nat.length_repr_pos (-cID).toNat
    exact absurd hlen (by
      rw [show "-".length = 1 from rfl, show "7".length = 1 from rfl]
      omega)

theorem theDisk_servable : Servable (contentFiles theDisk) where
  octet {y cID} h := by
    unfold contentFiles theDisk at h
    split at h
    next hboth => exact octet_of_FNgenerator hboth.2
    next => cases h
  fits {y cID file} h := by
    unfold contentFiles theDisk at h
    split at h
    · obtain rfl := Option.some.inj h
      decide
    · cases h

/-- The hub, with the file of host `true`. -/
def hubNamed : Lts (SystemState Unit Bool) (SystemEvent Unit Bool) :=
  hub.system (opened theDisk intactNames) (fun _ => Host.zeroPort) fun _ => false

/-- Host `true` answers the request that has come to it. -/
theorem system_survives_hub : ∃ u, hubNamed.Reachable u ∧ ∃ file,
    contentFiles theDisk true 7 = some file ∧ ∀ mem,
      Host.answer mem (theDisk true) (intactNames true 7) 7 10
        = some (.sent [Host.responseDatagram 7 10 file]) := by
  have hflight : (Lts.trace (hub.systemStep (opened theDisk intactNames))
      ⟨⟨fun _ => .empty, fun _ => Host.zeroPort, fun _ => -1, [], [], [], [], []⟩,
        fun _ => ⟨[], .start false⟩⟩ (offered.take 6)).map
          (fun r => r.2.wire.inFlight.map fun d => (d.dest, d.bytes))
        = some [(.leaf true, [3, PacketTypes.REQUEST.octet, 7, 10])] := by
    decide +kernel
  obtain ⟨⟨ms, u⟩, htrace, hu⟩ := Option.map_eq_some_iff.mp hflight
  obtain ⟨⟨dest, bytes⟩, hd, heq⟩ := List.map_eq_singleton_iff.mp hu
  cases heq
  have hreach : hubNamed.Reachable u := (Lts.run_of_trace htrace).reachable
  have hmem : ⟨.leaf true, [3, PacketTypes.REQUEST.octet, 7, 10]⟩ ∈ u.wire.inFlight :=
    hd ▸ List.mem_singleton_self _
  exact ⟨u, hreach, (Topology.system_survives (fun _ _ => rfl) theDisk_servable hreach).2 _ _
    hmem rfl⟩

/-- Host `false` can get content 7 again. -/
theorem system_available_hub : ∃ u, hubNamed.Reachable u ∧
    (false, 7, [0x41, 0xff]) ∈ u.wire.saved ∧ ∃ u', hubNamed.Leads u u' ∧
      hub.Arrives (opened theDisk intactNames) false 7 u' := by
  have hsaved : (Lts.trace (hub.systemStep (opened theDisk intactNames))
      ⟨⟨fun _ => .empty, fun _ => Host.zeroPort, fun _ => -1, [], [], [], [], []⟩,
        fun _ => ⟨[], .start false⟩⟩ offered).map (fun r => r.2.wire.saved)
        = some [(false, 7, [0x41, 0xff])] := by
    decide +kernel
  obtain ⟨⟨ms, u⟩, htrace, hu⟩ := Option.map_eq_some_iff.mp hsaved
  have hreach : hubNamed.Reachable u := (Lts.run_of_trace htrace).reachable
  have hmem : (false, 7, [0x41, 0xff]) ∈ u.wire.saved := by
    rw [show u.wire.saved = _ from hu]
    exact List.mem_singleton_self _
  have hid : ∀ z, (hub.attach z).1 = (hub.attach false).1 →
      hub.hostID z = hub.hostID false → z = false := by
    decide
  exact ⟨u, hreach, hmem, Topology.system_available (y := true) (fun _ _ => rfl)
    theDisk_servable hid rfl (by decide +kernel) hreach⟩

end ContentNetwork.Network
