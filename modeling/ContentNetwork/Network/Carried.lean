import ContentNetwork.Network.Datagrams

/-!
# What is on the wire

Four kinds of datagrams are carried (`Carried`): a request, a response to it,
an announcement as a host sends it, and one that a router has sent on. `setOctet`
counts the hop count again that it overwrites, so the last kind has a header of
four octets, and there is no fifth kind: a second router would need a header of
five (`handled_relayed`).

A datagram that is carried is received on any port, whatever the port has
received before (`Headed.received`), and what a router sends on is carried
again, with the octets that the router should send (`relayDatagram_eq_some`). A
host answers with the file that it has read (`rxDatagram_eq_some`). The two
`…_eq_none_iff` say what else can happen.
-/

namespace ContentNetwork

open Lib Simplified

/-- The response to a request for content `c` of host `h`. -/
def Host.responseDatagram (c h : UInt8) (file : List UInt8) : List UInt8 :=
  3 :: PacketTypes.RESPONSE.octet :: c :: h :: (file ++ [0xff])

/-- The datagrams that are carried: a request; a response to it, with a file
that has been served; an announcement that comes from a host, or that one
router has sent on. -/
inductive Carried {H : Type*} (served : List (H × UInt8 × List UInt8)) : List UInt8 → Prop
  | request (c h : UInt8) : Carried served [3, PacketTypes.REQUEST.octet, c, h]
  | response {x : H} {c : UInt8} {file : List UInt8} (h : UInt8) :
      (x, c, file) ∈ served → file.length + 4 ≤ MTU_SIZE →
      Carried served (Host.responseDatagram c h file)
  | announced (c : UInt8) : Carried served [3, PacketTypes.ANNOUNCEMENT.octet, c, 0]
  | relayed (c residue : UInt8) :
      Carried served [4, PacketTypes.ANNOUNCEMENT.octet, c, 1, residue]

section Carried

variable {H : Type*} {served served' : List (H × UInt8 × List UInt8)} {bytes : List UInt8}
  {alloc : (n : Nat) → Buf UInt8 n} {port q : ReceivingPort}

theorem Carried.mono (h : Carried served bytes) (hsub : ∀ e ∈ served, e ∈ served') :
    Carried served' bytes := by
  cases h with
  | request c h => exact .request c h
  | response h hmem hlen => exact .response h (hsub _ hmem) hlen
  | announced c => exact .announced c
  | relayed c residue => exact .relayed c residue

/-- A datagram has the header that it announces, of three or four octets, and
fits into the sending buffer. -/
structure Headed (bytes : List UInt8) (a : UInt8) (rest : List UInt8) : Prop where
  bytes_eq : bytes = a :: rest
  header : 3 ≤ a.toNat
  header_le : a.toNat ≤ MAX_HEADER_SIZE
  holds : a.toNat ≤ rest.length
  length_le : rest.length ≤ MTU_SIZE

theorem Carried.headed (h : Carried served bytes) : ∃ a rest, Headed bytes a rest := by
  have hmtu : 4 ≤ MTU_SIZE := by
    unfold MTU_SIZE
    omega
  cases h with
  | request c h => exact ⟨_, _, rfl, by decide, by decide, Nat.le_refl 3, Nat.le_of_succ_le hmtu⟩
  | @response x c file h _ hlen =>
    have hrest : (PacketTypes.RESPONSE.octet :: c :: h :: (file ++ [0xff])).length
        = file.length + 4 := by
      simp only [List.length_cons, List.length_append, List.length_nil]
    exact ⟨_, _, rfl, by decide, by decide, hrest ▸ Nat.le_add_left 3 (file.length + 1),
      hrest ▸ hlen⟩
  | announced c => exact ⟨_, _, rfl, by decide, by decide, Nat.le_refl 3, Nat.le_of_succ_le hmtu⟩
  | relayed c residue => exact ⟨_, _, rfl, by decide, by decide, Nat.le_refl 4, hmtu⟩

variable {a : UInt8} {rest : List UInt8}

theorem Headed.le_maxbuf (h : Headed bytes a rest) : rest.length + 1 ≤ MAXBUFLENGTH := by
  have hlen := h.length_le
  unfold MTU_SIZE at hlen
  unfold MAXBUFLENGTH
  omega

/-- Such a datagram is received, whatever the port has received before. -/
theorem Headed.receive (h : Headed bytes a rest) (alloc : (n : Nat) → Buf UInt8 n)
    (port : ReceivingPort) : ∃ q, port.receivePacket alloc bytes = some q := by
  obtain ⟨q, hq, -⟩ := port.receivePacket_isSome alloc h.header_le h.holds h.le_maxbuf
  exact ⟨q, h.bytes_eq ▸ hq⟩

/-- And this is what is received. -/
theorem Headed.received (h : Headed bytes a rest)
    (hq : port.receivePacket alloc bytes = some q) :
    Yields bytes q.pkt_ ∧ q.pkt_.header_.getSize = a.toNat ∧
      q.pkt_.headerOctets = octetsOf bytes := by
  have hmax := h.le_maxbuf
  have h3 := h.header
  obtain rfl := h.bytes_eq
  obtain ⟨hyields, hoctet, -⟩ := ReceivingPort.receivePacket_yields hq hmax
  have hget : ∀ i : Fin MAX_HEADER_SIZE, (i : Nat) < 3 →
      q.pkt_.header_.getOctet i = (a :: rest).getD (i + 1) 0 := by
    intro i hi
    rw [List.getD_cons_succ, List.getD_eq_getElem?_getD, hoctet i (by omega)]
    rfl
  refine ⟨hyields, ReceivingPort.receivePacket_getSize hq, ?_⟩
  unfold Packet.headerOctets octetsOf
  rw [hget PACKET_TYPE_POS (by decide), hget CONTENTID_POS (by decide),
    hget HOSTID_OR_HOPS_POS (by decide)]
  rfl

end Carried

/-! ## What a router sends on -/

section Relay

variable {H : Type*} {served : List (H × UInt8 × List UInt8)} {bytes : List UInt8}
  {alloc : (n : Nat) → Buf UInt8 n} {port q : ReceivingPort} {p : Packet}
  {a : UInt8} {rest : List UInt8}

/-- Only announcements are written to. -/
theorem handled_of_other (h : PacketTypes.ofOctet p.headerOctets.packetType ≠ some .ANNOUNCEMENT) :
    p.handled = p := by
  unfold Packet.handled Packet.forwarded
  split
  next ht => exact absurd ht h
  next => rfl
  next => rfl

/-- An announcement gets a header octet more, and one more hop. -/
theorem handled_of_announcement
    (h : PacketTypes.ofOctet p.headerOctets.packetType = some .ANNOUNCEMENT) :
    p.handled = { p with
      header_ := p.header_.setOctet
        (UInt8.ofInt ((p.header_.getOctet HOSTID_OR_HOPS_POS).toNat + 1)) HOSTID_OR_HOPS_POS } := by
  have ht : PacketTypes.ofOctet (p.header_.getOctet PACKET_TYPE_POS) = some .ANNOUNCEMENT := h
  unfold Packet.handled Packet.forwarded
  rw [ht]
  rfl

/-- A request or a response is sent on as it came. -/
theorem handled_datagram (h : Headed bytes a rest) (hq : port.receivePacket alloc bytes = some q)
    (hne : PacketTypes.ofOctet (octetsOf bytes).packetType ≠ some .ANNOUNCEMENT) :
    q.pkt_.handled.datagram = bytes := by
  obtain ⟨hyields, hsize, hoctets⟩ := h.received hq
  rw [handled_of_other (hoctets ▸ hne)]
  exact Packet.datagram_of_yields hyields h.bytes_eq hsize

/-- The octets of a header whose third has been written. -/
theorem cells_setOctet (h : PacketHdr) (c : UInt8) :
    (h.setOctet c HOSTID_OR_HOPS_POS).info_.cells
      = [h.getOctet PACKET_TYPE_POS, h.getOctet CONTENTID_POS, c, h.getOctet ⟨3, by decide⟩] := by
  obtain ⟨⟨cells, hlen⟩, n⟩ := h
  match cells, hlen with
  | [_, _, _, _], _ => rfl

/-- The octets of an announcement that is sent on. -/
theorem handled_announcement_cells (h : Headed bytes a rest)
    (hq : port.receivePacket alloc bytes = some q)
    (ht : PacketTypes.ofOctet (octetsOf bytes).packetType = some .ANNOUNCEMENT) :
    q.pkt_.handled.header_.getSize = a.toNat + 1 ∧ q.pkt_.handled.size_ = q.pkt_.size_ ∧
      ∃ residue, q.pkt_.handled.header_.info_.cells
        = [(octetsOf bytes).packetType, (octetsOf bytes).contentID,
            (octetsOf bytes).nextHop.hostIDOrHops, residue] := by
  obtain ⟨-, hsize, hoctets⟩ := h.received hq
  rw [handled_of_announcement (hoctets ▸ ht), ← hoctets]
  exact ⟨congrArg Nat.succ hsize, rfl, _, cells_setOctet ..⟩

/-- The announcement of a host is sent on with a header of four octets. -/
theorem handled_announced {c : UInt8}
    (hq : port.receivePacket alloc [3, PacketTypes.ANNOUNCEMENT.octet, c, 0] = some q) :
    ∃ residue, q.pkt_.handled.datagram = [4, PacketTypes.ANNOUNCEMENT.octet, c, 1, residue] := by
  obtain ⟨a, rest, hheaded⟩ := (@Carried.announced Unit [] c).headed
  obtain ⟨hyields, hsize, -⟩ := hheaded.received hq
  obtain ⟨hgrown, hpayload, residue, hcells⟩ := handled_announcement_cells hheaded hq rfl
  obtain ⟨rfl, rfl⟩ := List.cons.inj hheaded.bytes_eq
  have hempty : q.pkt_.size_ = 0 := by
    have hlength := hyields.size
    rw [hsize] at hlength
    exact Int.ofNat.inj hlength
  refine ⟨residue, ?_⟩
  rw [Packet.datagram, hgrown, hpayload, hempty, hcells]
  rfl

/-- Sent on by a second router, it does not fit into its header. -/
theorem handled_relayed {c residue : UInt8}
    (hq : port.receivePacket alloc [4, PacketTypes.ANNOUNCEMENT.octet, c, 1, residue] = some q) :
    ¬q.pkt_.handled.Fits (MTU_SIZE + 1) := by
  obtain ⟨a, rest, hheaded⟩ := (@Carried.relayed Unit [] c residue).headed
  obtain ⟨hgrown, -⟩ := handled_announcement_cells hheaded hq rfl
  obtain ⟨rfl, rfl⟩ := List.cons.inj hheaded.bytes_eq
  intro hfits
  have hle := hfits.header
  rw [hgrown] at hle
  exact absurd hle (by decide)

/-- What a packet is sent on as. -/
def relayedOctets (packet : HeaderOctets) : HeaderOctets :=
  if PacketTypes.ofOctet packet.packetType = some .ANNOUNCEMENT then packet.nextHop else packet

theorem relayedOctets_type (p : HeaderOctets) : (relayedOctets p).packetType = p.packetType := by
  unfold relayedOctets
  split <;> rfl

/-- A packet that a router can send on is carried again. -/
theorem carried_handled (hc : Carried served bytes) (hq : port.receivePacket alloc bytes = some q)
    (hfits : q.pkt_.handled.Fits (MTU_SIZE + 1)) :
    Carried served q.pkt_.handled.datagram ∧
      octetsOf q.pkt_.handled.datagram = relayedOctets (octetsOf bytes) := by
  obtain ⟨a, rest, hheaded⟩ := hc.headed
  cases hc with
  | request c h =>
    rw [handled_datagram hheaded hq fun hne => by cases hne]
    exact ⟨.request c h, rfl⟩
  | response h hmem hlen =>
    rw [handled_datagram hheaded hq fun hne => by cases hne]
    exact ⟨.response h hmem hlen, rfl⟩
  | announced c =>
    obtain ⟨residue, hdatagram⟩ := handled_announced hq
    rw [hdatagram]
    exact ⟨.relayed c residue, rfl⟩
  | relayed c residue => exact absurd hfits (handled_relayed hq)

/-- A router can send on everything but an announcement that has come over a
router before. -/
theorem fits_handled_iff (hc : Carried served bytes)
    (hq : port.receivePacket alloc bytes = some q) :
    q.pkt_.handled.Fits (MTU_SIZE + 1) ↔ bytes.head? ≠ some 4 := by
  obtain ⟨a, rest, hheaded⟩ := hc.headed
  obtain ⟨hyields, hsize, hoctets⟩ := hheaded.received hq
  have hreceived : q.pkt_.Fits (MTU_SIZE + 1) := by
    refine ⟨hyields.header_le, hyields.size_le, ?_⟩
    have hlength := Packet.streamLength_of_yields hyields
    rw [hheaded.bytes_eq, List.length_cons] at hlength
    exact hlength.trans_le (Nat.succ_le_succ hheaded.length_le)
  cases hc with
  | request c h =>
    rw [handled_of_other (hoctets ▸ fun hne => by cases hne)]
    exact iff_of_true hreceived fun hne => by cases hne
  | response h hmem hlen =>
    rw [handled_of_other (hoctets ▸ fun hne => by cases hne)]
    exact iff_of_true hreceived fun hne => by cases hne
  | announced c =>
    obtain ⟨rfl, rfl⟩ := List.cons.inj hheaded.bytes_eq
    obtain ⟨hgrown, hpayload, -⟩ := handled_announcement_cells hheaded hq rfl
    have hlength := hyields.size
    rw [hsize] at hlength
    have hempty : q.pkt_.size_ = 0 := Int.ofNat.inj hlength
    refine iff_of_true ⟨?_, ?_, ?_⟩ fun hne => by cases hne
    · rw [hgrown]
      exact Nat.le_refl 4
    · rw [hpayload, hempty]
      exact Nat.zero_le _
    · rw [hpayload, hempty, hgrown]
      decide
  | relayed c residue => exact iff_of_false (handled_relayed hq) fun hne => hne rfl

/-- All that is sent is the packet that was received. -/
theorem handlePacket_sent {n : Nat} {t t' : Tables} {i : Int} {packet : HeaderOctets}
    {sent : List Sent} (h : handlePacket n t ⟨packet, i⟩ = some (t', sent)) :
    ∀ s ∈ sent, s.2 = relayedOctets packet := by
  intro s hs
  unfold relayedOctets
  cases ht : PacketTypes.ofOctet packet.packetType with
  | none =>
    obtain ⟨-, rfl⟩ := handlePacket_default ht h
    exact absurd hs List.not_mem_nil
  | some type =>
    cases type with
    | REQUEST => exact ((handlePacket_request ht h).2.2 s hs).1
    | RESPONSE => exact ((handlePacket_response ht h).2 s hs).1
    | ANNOUNCEMENT => exact handlePacket_announcement_sent ht h s hs

/-- Sending one packet through several ports. -/
theorem sendAll_eq_some_iff {buf : Int → Buf UInt8 (MTU_SIZE + 1)} {sent : List Sent}
    {out : List (Int × List UInt8)} :
    sent.mapM (fun s => (p.sendPacket (buf s.1)).map fun d => (s.1, d)) = some out
      ↔ (sent ≠ [] → p.Fits (MTU_SIZE + 1)) ∧ out = sent.map fun s => (s.1, p.datagram) := by
  by_cases hfits : p.Fits (MTU_SIZE + 1)
  · have hall : sent.mapM (fun s => (p.sendPacket (buf s.1)).map fun d => (s.1, d))
        = some (sent.map fun s => (s.1, p.datagram)) := by
      induction sent with
      | nil => rfl
      | cons s sent ih =>
        rw [List.mapM_cons, ih, Packet.sendPacket_of_fits hfits]
        rfl
    rw [hall]
    simp [hfits, eq_comm]
  · have hnone : ∀ i, p.sendPacket (buf i) = none := by
      intro i
      rw [Option.eq_none_iff_forall_not_mem]
      exact fun bytes hbytes => hfits (Packet.sendPacket_eq_some hbytes).1
    cases sent with
    | nil => simp [eq_comm]
    | cons s sent => simp [List.mapM_cons, hnone, hfits]

/-- A router that receives a datagram handles its octets, and sends datagrams
of what it should send, a request or a response unchanged. -/
theorem relayDatagram_eq_some {n : Nat} {mem : RouterMemory} {t t' : Tables} {i : Int}
    {out : List (Int × List UInt8)} (hc : Carried served bytes)
    (h : relayDatagram n mem t i port bytes = some (t', q, out)) :
    (handlePacket n t ⟨octetsOf bytes, i⟩ = none ∧ t' = t ∧ out = []) ∨
      (handlePacket n t ⟨octetsOf bytes, i⟩ = some (t', out.map fun s => (s.1, octetsOf s.2)) ∧
        (∀ s ∈ out, Carried served s.2) ∧
        (PacketTypes.ofOctet (octetsOf bytes).packetType ≠ some .ANNOUNCEMENT →
          ∀ s ∈ out, s.2 = bytes)) := by
  obtain ⟨a, rest, hheaded⟩ := hc.headed
  obtain ⟨q', hq', h⟩ := Option.bind_eq_some_iff.mp h
  rw [(hheaded.received hq').2.2] at h
  cases hhandle : handlePacket n t ⟨octetsOf bytes, i⟩ with
  | none =>
    rw [hhandle] at h
    obtain ⟨rfl, hrest⟩ := Prod.mk.inj (Option.some.inj h)
    exact .inl ⟨rfl, rfl, (Prod.mk.inj hrest).2.symm⟩
  | some result =>
    obtain ⟨t'', sent⟩ := result
    rw [hhandle] at h
    obtain ⟨out', hsend, h⟩ := Option.bind_eq_some_iff.mp h
    obtain ⟨rfl, hrest⟩ := Prod.mk.inj (Option.some.inj h)
    obtain ⟨-, rfl⟩ := Prod.mk.inj hrest
    obtain ⟨hfits, rfl⟩ := sendAll_eq_some_iff.mp hsend
    have hcarried : ∀ s ∈ sent, Carried served q'.pkt_.handled.datagram ∧
        (s.1, octetsOf q'.pkt_.handled.datagram) = s := by
      intro s hs
      obtain ⟨hc', hoctets⟩ := carried_handled hc hq' (hfits (List.ne_nil_of_mem hs))
      exact ⟨hc', Prod.ext rfl (hoctets.trans (handlePacket_sent hhandle s hs).symm)⟩
    refine .inr ⟨?_, fun s hs => ?_, fun hne s hs => ?_⟩
    · rw [List.map_map]
      exact congrArg (fun l => some (t'', l))
        ((List.map_id sent).symm.trans (List.map_congr_left fun s hs => (hcarried s hs).2.symm))
    · obtain ⟨s', hs', rfl⟩ := List.mem_map.mp hs
      exact (hcarried s' hs').1
    · obtain ⟨s', -, rfl⟩ := List.mem_map.mp hs
      exact handled_datagram hheaded hq' hne

/-- Only an announcement that has come over a router and is to be sent on makes
a router touch a byte outside an array. -/
theorem relayDatagram_eq_none_iff {n : Nat} {mem : RouterMemory} {t : Tables} {i : Int}
    (hc : Carried served bytes) :
    relayDatagram n mem t i port bytes = none ↔ bytes.head? = some 4 ∧
      ∃ t' sent, handlePacket n t ⟨octetsOf bytes, i⟩ = some (t', sent) ∧ sent ≠ [] := by
  obtain ⟨a, rest, hheaded⟩ := hc.headed
  obtain ⟨q, hq⟩ := hheaded.receive mem.alloc port
  have hfits := fits_handled_iff hc hq
  have hoctets := (hheaded.received hq).2.2
  unfold relayDatagram
  rw [hq, Option.bind_eq_bind, Option.bind_some, hoctets]
  cases hhandle : handlePacket n t ⟨octetsOf bytes, i⟩ with
  | none => simp
  | some result =>
    obtain ⟨t', sent⟩ := result
    dsimp only
    rw [Option.bind_eq_bind, Option.bind_eq_none_iff]
    simp [sendAll_eq_some_iff, hfits, and_comm]

end Relay

/-! ## What a host sends and saves -/

section Host

variable {H : Type*} {served : List (H × UInt8 × List UInt8)} {bytes : List UInt8}
  {mem : Host.Memory} {directory : Int → Option (List UInt8)} {content_number : Int}
  {port q : ReceivingPort} {file : List UInt8}

/-- A packet that a host makes and sends. -/
theorem sendPacket_makeHeader (t : PacketTypes) (c x : UInt8)
    (info : Buf UInt8 MAX_HEADER_SIZE) (payload : Buf UInt8 DEFAULT_PAYLOAD_SIZE)
    (sendingbuf_ : Buf UInt8 (MTU_SIZE + 1)) :
    (makeHeader t c.toNat x.toNat (.fresh info payload)).sendPacket sendingbuf_
      = some [3, t.octet, c, x] := by
  have hsize : (makeHeader t c.toNat x.toNat (.fresh info payload)).header_.getSize = 3 := rfl
  have hfits : (makeHeader t c.toNat x.toNat (.fresh info payload)).Fits (MTU_SIZE + 1) := by
    refine ⟨?_, Nat.zero_le _, ?_⟩
    · rw [hsize]
      decide
    · rw [hsize]
      unfold MTU_SIZE
      exact Nat.le_add_left 4 1497
  rw [Packet.sendPacket_of_fits hfits, Packet.datagram, hsize, makeHeader_cells, ofInt_toNat,
    ofInt_toNat]
  rfl

/-- A round of `bcast` that stays within its header announces one content, if
there is any. -/
theorem bcastRound_eq_some {mem : Host.Memory} {list1 : List Int} {sent : List (List UInt8)}
    (h : Host.bcastRound mem.info mem.payload mem.sendingbuf_ list1 = some sent) :
    (list1 = [] ∧ sent = []) ∨
      ∃ p1, list1 = [p1] ∧ sent = [[3, PacketTypes.ANNOUNCEMENT.octet, UInt8.ofInt p1, 0]] := by
  rcases Host.bcastLoop_header_le h with rfl | hle
  · exact .inl ⟨rfl, (Option.some.inj h).symm⟩
  · change 0 + 3 * list1.length ≤ 4 at hle
    match list1, hle with
    | [], _ => exact .inl ⟨rfl, (Option.some.inj h).symm⟩
    | [p1], _ =>
      obtain ⟨buf, pktlen, sent', hmake, hloop, rfl⟩ := Host.bcastLoop_cons_eq_some h
      obtain rfl := Option.some.inj hloop
      obtain ⟨buf', pktlen', hmake', hdatagram⟩ := Host.firstAnnouncement_datagram
        (p := Packet.fresh mem.info mem.payload) rfl rfl p1 mem.sendingbuf_
      rw [hmake] at hmake'
      obtain ⟨rfl, rfl⟩ := Prod.mk.inj (Option.some.inj hmake')
      exact .inr ⟨p1, rfl, congrArg (fun d => [d]) hdatagram⟩

/-- And a round for one content is sent. -/
theorem bcastRound_singleton (mem : Host.Memory) (p1 : Int) :
    Host.bcastRound mem.info mem.payload mem.sendingbuf_ [p1]
      = some [[3, PacketTypes.ANNOUNCEMENT.octet, UInt8.ofInt p1, 0]] := by
  obtain ⟨buf, pktlen, hmake, hdatagram⟩ := Host.firstAnnouncement_datagram
    (p := Packet.fresh mem.info mem.payload) rfl rfl p1 mem.sendingbuf_
  simp only [Host.bcastRound, Host.bcastLoop, hmake, hdatagram, Option.bind_eq_bind,
    Option.bind_some]
  rfl

/-- The answer to a request for which a file has been opened. -/
theorem answerWith_of_file (mem : Host.Memory) (file : List UInt8)
    (ReadFile : Option (List UInt8)) (c h : UInt8) :
    Host.answerWith mem (some file) ReadFile c.toNat h.toNat =
      if file.length + 4 ≤ MTU_SIZE then some (.sent [Host.responseDatagram c h file])
      else none := by
  split
  next hlen =>
    obtain ⟨my_packet, hrespond, hheader, -, -, hcells⟩ :=
      Host.respondWith_isSome mem c.toNat h.toNat (Host.tellg ReadFile) (Host.readLoop file)
    have hfits : my_packet.Fits (MTU_SIZE + 1) := by
      apply Host.respondWith_fits hrespond
      rw [Host.readLoop_length]
      omega
    have hdatagram : my_packet.datagram = Host.responseDatagram c h file := by
      rw [Packet.datagram, Host.respondWith_getSize hrespond, hcells, Host.readLoop_eq, hheader,
        MakeResponsePacket, makeHeader_cells, ofInt_toNat, ofInt_toNat]
      rfl
    have hsend := Packet.sendPacket_of_fits hfits mem.sendingbuf_
    obtain ⟨⟨buf, pktlen⟩, hmake, hbytes⟩ := Option.map_eq_some_iff.mp hsend
    rw [← hdatagram, ← hbytes]
    simp only [Host.answerWith, hrespond, hmake, Option.bind_eq_bind, Option.bind_some]
    rfl
  next hlen => exact Host.answerWith_of_long (Nat.not_le.mp hlen)

/-- What a host does with a datagram that is carried. -/
inductive Reacts (directory : Int → Option (List UInt8)) (content_number : Int)
    (bytes : List UInt8) (q : ReceivingPort) : List (List UInt8) → Option (List UInt8) → Prop
  | serves {file : List UInt8} : fileFor directory (octetsOf bytes) = some file →
      file.length + 4 ≤ MTU_SIZE →
      Reacts directory content_number bytes q
        [Host.responseDatagram (octetsOf bytes).contentID (octetsOf bytes).hostIDOrHops file] none
  | saves {content : List UInt8} : fileFor directory (octetsOf bytes) = none →
      PacketTypes.ofOctet (octetsOf bytes).packetType = some .RESPONSE →
      (octetsOf bytes).ContentID = content_number → Host.saveResponse q.pkt_ = some content →
      Reacts directory content_number bytes q [] (some content)
  | nothing : fileFor directory (octetsOf bytes) = none →
      Reacts directory content_number bytes q [] none

/-- A host reacts to a datagram with the file that it asks for, or not at all, or
saves what it holds. -/
theorem rxDatagram_eq_some {sent : List (List UInt8)} {saved : Option (List UInt8)}
    (hc : Carried served bytes)
    (h : rxDatagram mem directory content_number port bytes = some (q, sent, saved)) :
    port.receivePacket mem.alloc' bytes = some q ∧
      Reacts directory content_number bytes q sent saved := by
  obtain ⟨a, rest, hheaded⟩ := hc.headed
  obtain ⟨q', hq', h⟩ := Option.bind_eq_some_iff.mp h
  rw [(hheaded.received hq').2.2] at h
  dsimp only at h
  have hnot : PacketTypes.ofOctet (octetsOf bytes).packetType ≠ some .REQUEST →
      fileFor directory (octetsOf bytes) = none := fun hne => if_neg hne
  cases ht : PacketTypes.ofOctet (octetsOf bytes).packetType with
  | none =>
    rw [ht] at h
    cases h
    exact ⟨hq', .nothing (hnot fun hne => by cases ht.symm.trans hne)⟩
  | some type =>
    rw [ht] at h
    cases type with
    | REQUEST =>
      have hfor : fileFor directory (octetsOf bytes) = directory (octetsOf bytes).ContentID :=
        if_pos ht
      dsimp only at h
      cases hfile : directory (octetsOf bytes).ContentID with
      | none =>
        rw [hfile, Host.answerWith] at h
        cases h
        exact ⟨hq', .nothing (hfor.trans hfile)⟩
      | some file =>
        rw [hfile] at h
        unfold HeaderOctets.ContentID HeaderOctets.hostOrHops at h
        rw [answerWith_of_file] at h
        split at h
        next hlen =>
          cases h
          exact ⟨hq', .serves (hfor.trans hfile) hlen⟩
        next => cases h
    | RESPONSE =>
      dsimp only at h
      split at h
      next hcontent =>
        obtain ⟨content, hsave, h⟩ := Option.bind_eq_some_iff.mp h
        cases h
        exact ⟨hq', .saves (hnot fun hne => by cases ht.symm.trans hne) ht hcontent hsave⟩
      next =>
        cases h
        exact ⟨hq', .nothing (hnot fun hne => by cases ht.symm.trans hne)⟩
    | ANNOUNCEMENT =>
      cases h
      exact ⟨hq', .nothing (hnot fun hne => by cases ht.symm.trans hne)⟩

/-- A host touches a byte outside an array only for a file that is too long, or
a payload without a zero byte behind it. -/
theorem rxDatagram_eq_none_iff (hc : Carried served bytes) :
    rxDatagram mem directory content_number port bytes = none ↔
      (∃ file, fileFor directory (octetsOf bytes) = some file ∧ MTU_SIZE < file.length + 4) ∨
      (PacketTypes.ofOctet (octetsOf bytes).packetType = some .RESPONSE ∧
        (octetsOf bytes).ContentID = content_number ∧
        ∃ q, port.receivePacket mem.alloc' bytes = some q ∧ Host.saveResponse q.pkt_ = none) := by
  obtain ⟨a, rest, hheaded⟩ := hc.headed
  obtain ⟨q, hq⟩ := hheaded.receive mem.alloc' port
  unfold rxDatagram
  rw [hq, Option.bind_eq_bind, Option.bind_some, (hheaded.received hq).2.2]
  dsimp only
  unfold fileFor
  cases ht : PacketTypes.ofOctet (octetsOf bytes).packetType with
  | none => simp
  | some type =>
    cases type with
    | REQUEST =>
      unfold HeaderOctets.ContentID HeaderOctets.hostOrHops
      cases hfile : directory (octetsOf bytes).contentID.toNat with
      | none =>
        rw [Host.answerWith]
        simp
      | some file =>
        rw [answerWith_of_file]
        by_cases hlen : file.length + 4 ≤ MTU_SIZE
        · rw [if_pos hlen]
          simp [Nat.not_lt.mpr hlen]
        · rw [if_neg hlen]
          simp [Nat.not_le.mp hlen]
    | RESPONSE =>
      by_cases hcontent : (octetsOf bytes).ContentID = content_number
      · cases hsave : Host.saveResponse q.pkt_ with
        | none => simp [hcontent, hsave]
        | some content => simp [hcontent, hsave]
      · simp [hcontent]
    | ANNOUNCEMENT => simp

end Host

end ContentNetwork
