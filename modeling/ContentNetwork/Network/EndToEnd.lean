import ContentNetwork.Network.System

/-!
# From one user to another

What the users of the whole system get, in every run of it. A content that is
saved at a host its user has asked for, by its number, and it is the file, to
the first zero byte, that a user of the same router has put.

Requests are what joins the two hosts. A router learns the interface of a
request only where the host with that ID is (`Named`), and it sends a request
only to a host that has announced the content (`Directed`); so a host serves
what it has announced, which is what its user has put and could be opened
(`Obeys`). The response finds its way back to the host that the request has
come from, and that host saves it only while it waits for the content.
-/

namespace ContentNetwork.Network

open Lib Lib.Lts Simplified

variable {R H : Type*} {T : Topology R H} {s s' : WireState R H} {e : WireEvent R H}

/-! ## Where requests come from and go to -/

/-- A request that comes to router `r` carries the ID of the host at the
interface. -/
def Named (T : Topology R H) (r : R) (m : Message) : Prop :=
  PacketTypes.ofOctet m._recvPacket.packetType = some .REQUEST →
    ∃ x, T.attach x = (r, m._RxInterface_Num) ∧ m._recvPacket.hostIDOrHops = T.hostID x

/-- And one that comes to a host is for a content that the host has announced. -/
def Directed (T : Topology R H) (s : WireState R H) (d : Datagram R H) : Prop :=
  match d.dest with
  | .node r i => Named T r ⟨octetsOf d.bytes, i⟩
  | .leaf y => PacketTypes.ofOctet (octetsOf d.bytes).packetType = some .REQUEST →
    (y, (octetsOf d.bytes).contentID) ∈ s.announced

/-- So do the requests that routers have learned from, and hosts read files for
what they have announced only. -/
structure DirectedInv (T : Topology R H) (s : WireState R H) : Prop where
  learned : ∀ r, (s.tables r).LearnedFrom (Named T r)
  flight : ∀ d ∈ s.inFlight, Directed T s d
  served : ∀ y c file, (y, c, file) ∈ s.served → (y, c) ∈ s.announced

theorem Directed.mono {d : Datagram R H} (hsub : s.announced ⊆ s'.announced)
    (h : Directed T s d) : Directed T s' d := by
  obtain ⟨dest, bytes⟩ := d
  cases dest with
  | node r i => exact h
  | leaf y => exact fun ht => hsub (h ht)

/-- What is no request is directed. -/
theorem directed_of_other {d : Datagram R H}
    (h : PacketTypes.ofOctet (octetsOf d.bytes).packetType ≠ some .REQUEST) : Directed T s d := by
  obtain ⟨dest, bytes⟩ := d
  cases dest with
  | node r i => exact fun ht => absurd ht h
  | leaf y => exact fun ht => absurd ht h

/-- An event that changes no table and serves nothing. -/
theorem DirectedInv.of_flight (h : DirectedInv T s) (hsub : s.announced ⊆ s'.announced)
    (htables : s'.tables = s.tables) (hserved : s'.served = s.served)
    (hflight : ∀ d ∈ s'.inFlight, d ∈ s.inFlight ∨ Directed T s' d) : DirectedInv T s' := by
  refine ⟨?_, fun d hd => ?_, fun y c file hmem => ?_⟩
  · rw [htables]
    exact h.learned
  · rcases hflight d hd with hd | hd
    · exact (h.flight d hd).mono hsub
    · exact hd
  · rw [hserved] at hmem
    exact hsub (h.served y c file hmem)

/-- The tables of router `r` change. -/
theorem DirectedInv.update [DecidableEq R] {r : R} {t : Tables} (h : DirectedInv T s)
    (ht : t.LearnedFrom (Named T r)) (r' : R) :
    (Function.update s.tables r t r').LearnedFrom (Named T r') := by
  by_cases hr : r' = r
  · subst hr
    rw [Function.update_self]
    exact ht
  · rw [Function.update_of_ne hr]
    exact h.learned r'

namespace Topology

variable [DecidableEq R] [DecidableEq H]

omit [DecidableEq R] [DecidableEq H] in
/-- What a router sends is directed. -/
theorem relay_directed {bytes : List UInt8} {r : R} {i : Int} {t : Tables}
    {out : List (Int × List UInt8)} (hi : HorizonInv T s) (hlocal : Local T s ⟨.node r i, bytes⟩)
    (hhandle : handlePacket (T.num_interfaces r) (s.tables r) ⟨octetsOf bytes, i⟩
      = some (t, out.map fun x => (x.1, octetsOf x.2))) :
    ∀ d ∈ T.sendDatagrams r out, Directed T s d := by
  intro d hd
  obtain ⟨x, hx, hd⟩ := List.mem_filterMap.mp hd
  obtain ⟨e, hfar, rfl⟩ := Option.map_eq_some_iff.mp hd
  have hmem : (x.1, octetsOf x.2) ∈ out.map fun x => (x.1, octetsOf x.2) :=
    List.mem_map.mpr ⟨x, hx, rfl⟩
  by_cases ht : PacketTypes.ofOctet (octetsOf bytes).packetType = some .REQUEST
  · obtain ⟨hpacket, hroute⟩ := (handlePacket_request ht hhandle).2.2 _ hmem
    obtain ⟨y, rfl, hy⟩ := request_toHost (hi.learned r) hlocal.1 ht hroute hfar
    intro _
    rw [show octetsOf x.2 = octetsOf bytes from hpacket]
    exact hy
  · refine directed_of_other ?_
    rw [show octetsOf x.2 = _ from handlePacket_sent hhandle _ hmem, relayedOctets_type]
    exact ht

/-- Every step keeps requests directed. -/
theorem WireStep.directedInv (hstep : T.WireStep s e s') (hi : HorizonInv T s)
    (h : DirectedInv T s) : DirectedInv T s' := by
  cases hstep with
  | announce x c mem =>
    refine h.of_flight (List.subset_cons_self ..) rfl rfl fun d hd => ?_
    rcases List.mem_append.mp hd with hd | hd
    · exact .inl hd
    · obtain rfl := List.mem_singleton.mp hd
      exact .inr (directed_of_other fun ht => by cases ht)
  | request x c mem =>
    refine h.of_flight (List.Subset.refl _) rfl rfl fun d hd => ?_
    rcases List.mem_append.mp hd with hd | hd
    · exact .inl hd
    · obtain rfl := List.mem_singleton.mp hd
      exact .inr fun _ => ⟨x, rfl, rfl⟩
  | @relay before after r i bytes t q out mem hs hhandle hout hsame =>
    have hd := h.flight _ (mem_split hs)
    have hlocal := hi.flight _ (mem_split hs)
    refine ⟨h.update (handlePacket_learned (h.learned r) hd hhandle), fun d hd => ?_, h.served⟩
    rcases List.mem_append.mp hd with hd | hd
    · exact h.flight d (mem_of_split hs hd)
    · exact relay_directed hi hlocal hhandle d hd
  | throws mem hs hhandle =>
    exact h.of_flight (List.Subset.refl _) rfl rfl fun d hd => .inl (mem_of_split hs hd)
  | @rx before after x bytes q sent saved directory mem hs hq hreacts =>
    have hto := h.flight _ (mem_split hs)
    refine ⟨h.learned, fun d hd => ?_, fun y c file hmem => ?_⟩
    · rcases List.mem_append.mp hd with hd | hd
      · exact h.flight d (mem_of_split hs hd)
      · obtain ⟨bytes', hbytes', rfl⟩ := List.mem_map.mp hd
        cases hreacts with
        | serves =>
          obtain rfl := List.mem_singleton.mp hbytes'
          exact directed_of_other fun ht => by cases ht
        | saves => exact absurd hbytes' List.not_mem_nil
        | nothing => exact absurd hbytes' List.not_mem_nil
    · rcases List.mem_append.mp hmem with hmem | hmem
      · obtain ⟨file', hfile, heq⟩ := List.mem_map.mp hmem
        cases heq
        by_cases ht : PacketTypes.ofOctet (octetsOf bytes).packetType = some .REQUEST
        · exact hto ht
        · rw [fileFor, if_neg ht] at hfile
          exact absurd hfile List.not_mem_nil
      · exact h.served y c file hmem
  | lose hs =>
    exact h.of_flight (List.Subset.refl _) rfl rfl fun d hd => .inl (mem_of_split hs hd)
  | drop alloc hs _ =>
    exact h.of_flight (List.Subset.refl _) rfl rfl fun d hd => .inl (mem_of_split hs hd)
  | duplicate hs =>
    refine h.of_flight (List.Subset.refl _) rfl rfl fun d hd => ?_
    rcases List.mem_append.mp hd with hd | hd
    · exact .inl hd
    · obtain rfl := List.mem_singleton.mp hd
      exact .inl (mem_split hs)
  | @timerPending r l hl =>
    exact ⟨h.update (timerPending_learned (h.learned r) hl), h.flight, h.served⟩

/-- What holds of every wire. -/
structure WireInv (T : Topology R H) (s : WireState R H) : Prop where
  carries : s.CarriesAll
  horizon : HorizonInv T s
  directed : DirectedInv T s

theorem WireStep.wireInv (hstep : T.WireStep s e s') (h : WireInv T s) : WireInv T s' :=
  ⟨hstep.carriesAll h.carries, hstep.horizonInv h.horizon, hstep.directedInv h.horizon h.directed⟩

omit [DecidableEq R] [DecidableEq H] in
/-- It does not depend on what the hosts wait for. -/
theorem WireInv.waiting (h : WireInv T s) (content_number : H → Int) :
    WireInv T { s with content_number := content_number } where
  carries := h.carries
  horizon := h.horizon.of_flight (.of_eq rfl rfl rfl) rfl fun _ hd => .inl hd
  directed := h.directed.of_flight (List.Subset.refl _) rfl rfl fun _ hd => .inl hd

omit [DecidableEq R] [DecidableEq H] in
/-- A host sends requests again. -/
theorem WireInv.resent (h : WireInv T s) {x : H} {sent : List HeaderOctets}
    (hsent : ∀ p ∈ sent, ∃ c, (x, c) ∈ s.asked ∧ p = octets .REQUEST c (T.hostID x)) :
    WireInv T { s with
      inFlight := s.inFlight ++ sent.map fun p => T.datagramFrom x (requestDatagram p) } := by
  have hnew : ∀ d ∈ s.inFlight ++ sent.map (fun p => T.datagramFrom x (requestDatagram p)),
      d ∈ s.inFlight ∨ ∃ c, (x, c) ∈ s.asked ∧
        d = T.datagramFrom x [3, PacketTypes.REQUEST.octet, c, T.hostID x] := by
    intro d hd
    rcases List.mem_append.mp hd with hd | hd
    · exact .inl hd
    · obtain ⟨p, hp, rfl⟩ := List.mem_map.mp hd
      obtain ⟨c, hc, rfl⟩ := hsent p hp
      exact .inr ⟨c, hc, rfl⟩
  refine ⟨fun d hd => ?_, h.horizon.of_flight (.of_eq rfl rfl rfl) rfl fun d hd => ?_,
    h.directed.of_flight (List.Subset.refl _) rfl rfl fun d hd => ?_⟩
  · rcases hnew d hd with hd | ⟨c, hc, rfl⟩
    · exact h.carries d hd
    · exact .request c (T.hostID x)
  · rcases hnew d hd with hd | ⟨c, hc, rfl⟩
    · exact .inl hd
    · exact .inr ⟨⟨fun ht => (by cases ht), fun _ => ⟨x, hc, rfl⟩⟩, fun ht => (by cases ht)⟩
  · rcases hnew d hd with hd | ⟨c, hc, rfl⟩
    · exact .inl hd
    · exact .inr fun _ => ⟨x, rfl, rfl⟩

omit [DecidableEq H] in
/-- A routing table ages. -/
theorem WireInv.timerRouting (h : WireInv T s) {r : R} {l : List RTrecord}
    (hl : Simplified.timerRouting (s.tables r).RoutingTable = some l) :
    WireInv T { s with
      tables := Function.update s.tables r { s.tables r with RoutingTable := l } } where
  carries := h.carries
  horizon := h.horizon.of_tables (.of_eq rfl rfl rfl) rfl
    (timerRouting_learned (h.horizon.learned r) hl) h.horizon.flight
  directed := ⟨h.directed.update (timerRouting_learned (h.directed.learned r) hl),
    h.directed.flight, h.directed.served⟩

end Topology

/-! ## What the users have typed -/

variable {files : H → Int → Option (List UInt8)} {acts acts' : List (SystemEvent R H)}

/-- The user of host `y` has put a content with octet `c`, whose file could be
opened. -/
def Puts (files : H → Int → Option (List UInt8)) (acts : List (SystemEvent R H)) (y : H)
    (c : UInt8) : Prop :=
  ∃ cID behindEnd, .PUT y cID behindEnd ∈ acts ∧ (files y cID).isSome ∧ UInt8.ofInt cID = c

/-- The user of host `x` has asked for content `c`. -/
def Gets (acts : List (SystemEvent R H)) (x : H) (c : UInt8) : Prop :=
  ∃ mem, .GET x c.toNat mem ∈ acts

/-- The hosts do what their users have typed, and read the files they have. -/
structure Obeys (T : Topology R H) (files : H → Int → Option (List UInt8))
    (acts : List (SystemEvent R H)) (s : SystemState R H) : Prop where
  listed : ∀ y, ∀ cID ∈ (s.hosts y).list1, Puts files acts y (UInt8.ofInt cID)
  announced : ∀ y c, (y, c) ∈ s.wire.announced → Puts files acts y c
  served : ∀ y c file, (y, c, file) ∈ s.wire.served → files y c.toNat = some file
  waits : ∀ x c, s.wire.content_number x = (c : UInt8).toNat → Gets acts x c
  agrees : ∀ x, (s.hosts x).slots.content_number = s.wire.content_number x
  lastPkt : ∀ x p, (s.hosts x).slots.lastPkt_ = some p →
    ∃ c, (x, c) ∈ s.wire.asked ∧ p = octets .REQUEST c (T.hostID x)

theorem Puts.mono {y : H} {c : UInt8} (hsub : acts ⊆ acts') (h : Puts files acts y c) :
    Puts files acts' y c := by
  obtain ⟨cID, behindEnd, hmem, hc⟩ := h
  exact ⟨cID, behindEnd, hsub hmem, hc⟩

theorem Gets.mono {x : H} {c : UInt8} (hsub : acts ⊆ acts') (h : Gets acts x c) :
    Gets acts' x c := by
  obtain ⟨mem, hmem⟩ := h
  exact ⟨mem, hsub hmem⟩

/-- `PUT` adds the content that is put, and only if its file can be opened. -/
theorem mem_PUT {list1 : List Int} {cID behindEnd x : Int} {is_open : Bool}
    (h : x ∈ Host.PUT list1 cID is_open behindEnd) :
    x ∈ list1 ∨ (x = cID ∧ is_open = true) := by
  unfold Host.PUT at h
  split at h
  next hopen =>
    dsimp only at h
    split at h
    · rcases List.mem_append.mp h with h | h
      · exact .inl h
      · exact .inr ⟨List.mem_singleton.mp h, hopen⟩
    · exact .inl h
  next => exact .inl h

/-- A timer leaves what the host waits for. -/
theorem timerProc_slots (h : Host.HostState) (thread : Nat) :
    (h.timerProc thread).1.content_number = h.content_number ∧
      (h.timerProc thread).1.lastPkt_ = h.lastPkt_ ∧
      ∀ p ∈ (h.timerProc thread).2, h.lastPkt_ = some p := by
  unfold Host.HostState.timerProc Host.HostState.timerHandler
  split
  · exact ⟨rfl, rfl, fun p hp => Option.mem_toList.mp hp⟩
  · exact ⟨rfl, rfl, fun p hp => absurd hp List.not_mem_nil⟩

/-- And so does a packet. -/
theorem received_slots (p : HostProcess) (packet : HeaderOctets) :
    (p.received packet).list1 = p.list1 ∧
      (p.received packet).slots.content_number = p.slots.content_number ∧
      (p.received packet).slots.lastPkt_ = p.slots.lastPkt_ := by
  unfold HostProcess.received Host.HostState.receiveResponse
  split
  · split <;> exact ⟨rfl, rfl, rfl⟩
  · exact ⟨rfl, rfl, rfl⟩

variable {u u' : SystemState R H} {a : SystemEvent R H}

/-- A host lists nothing new but what its user has put, and waits for what it
waited for. -/
structure Steady (files : H → Int → Option (List UInt8)) (acts : List (SystemEvent R H)) (y : H)
    (p p' : HostProcess) : Prop where
  listed : ∀ cID ∈ p'.list1, cID ∈ p.list1 ∨ Puts files acts y (UInt8.ofInt cID)
  content_number : p'.slots.content_number = p.slots.content_number
  lastPkt : p'.slots.lastPkt_ = p.slots.lastPkt_

theorem Steady.refl (y : H) (p : HostProcess) : Steady files acts y p p :=
  ⟨fun _ => .inl, rfl, rfl⟩

/-- One host changes. -/
theorem steady_modify [DecidableEq H] {x : H} (f : HostProcess → HostProcess)
    (hx : Steady files acts x (u.hosts x) (f (u.hosts x))) :
    ∀ y, Steady files acts y (u.hosts y) ((u.modify x f).hosts y) :=
  SystemState.forall_modify (P := fun y p => Steady files acts y (u.hosts y) p)
    (fun y => .refl y (u.hosts y)) hx

/-- An event that is no `GET`. -/
theorem Obeys.keep (h : Obeys T files acts u) (hsub : acts ⊆ acts')
    (hhosts : ∀ y, Steady files acts' y (u.hosts y) (u'.hosts y))
    (hannounced : ∀ y c, (y, c) ∈ u'.wire.announced →
      (y, c) ∈ u.wire.announced ∨ Puts files acts' y c)
    (hserved : ∀ y c file, (y, c, file) ∈ u'.wire.served →
      (y, c, file) ∈ u.wire.served ∨ files y c.toNat = some file)
    (hwaits : u'.wire.content_number = u.wire.content_number)
    (hasked : u'.wire.asked = u.wire.asked) : Obeys T files acts' u' := by
  refine ⟨fun y cID hmem => ?_, fun y c hmem => ?_, fun y c file hmem => ?_, fun x c hc => ?_,
    fun x => ?_, fun x p hp => ?_⟩
  · exact ((hhosts y).listed cID hmem).elim (fun hold => (h.listed y cID hold).mono hsub) id
  · exact (hannounced y c hmem).elim (fun hold => (h.announced y c hold).mono hsub) id
  · exact (hserved y c file hmem).elim (h.served y c file) id
  · rw [hwaits] at hc
    exact (h.waits x c hc).mono hsub
  · rw [hwaits, (hhosts x).content_number]
    exact h.agrees x
  · rw [hasked]
    rw [(hhosts x).lastPkt] at hp
    exact h.lastPkt x p hp

/-- A `GET`, which fills all slots. -/
theorem Obeys.get [DecidableEq H] {x : H} {var1 : Int} {mem : Host.Memory} {w : WireState R H}
    (h : Obeys T files acts u) (hsub : acts ⊆ acts') (hget : .GET x var1 mem ∈ acts')
    (hannounced : w.announced = u.wire.announced) (hserved : w.served = u.wire.served)
    (hasked : w.asked = (x, UInt8.ofInt var1) :: u.wire.asked) :
    Obeys T files acts' ⟨
      { w with content_number := Function.update u.wire.content_number x var1 },
      (u.modify x (.GET (T.hostID x).toNat var1)).hosts⟩ := by
  have hother : ∀ {y}, y ≠ x →
      (u.modify x (.GET (T.hostID x).toNat var1)).hosts y = u.hosts y :=
    fun hy => SystemState.modify_of_ne hy
  have hself : (u.modify x (.GET (T.hostID x).toNat var1)).hosts x
      = (u.hosts x).GET (T.hostID x).toNat var1 := SystemState.modify_self ..
  refine ⟨fun y cID hmem => ?_, fun y c hmem => ?_, fun y c file hmem => ?_, fun y c hc => ?_,
    fun y => ?_, fun y p hp => ?_⟩
  · by_cases hy : y = x
    · subst hy
      rw [hself] at hmem
      exact (h.listed y cID hmem).mono hsub
    · rw [hother hy] at hmem
      exact (h.listed y cID hmem).mono hsub
  · exact (h.announced y c (hannounced ▸ hmem)).mono hsub
  · exact h.served y c file (hserved ▸ hmem)
  · dsimp only at hc
    by_cases hy : y = x
    · subst hy
      rw [Function.update_self] at hc
      exact ⟨mem, hc ▸ hget⟩
    · rw [Function.update_of_ne hy] at hc
      exact (h.waits y c hc).mono hsub
  · by_cases hy : y = x
    · subst hy
      dsimp only
      rw [hself, Function.update_self]
      rfl
    · dsimp only
      rw [hother hy, Function.update_of_ne hy]
      exact h.agrees y
  · by_cases hy : y = x
    · subst hy
      rw [hself] at hp
      obtain rfl : Host.HostState.requestFor _ _ = p := Option.some.inj hp
      refine ⟨UInt8.ofInt var1, hasked ▸ List.mem_cons_self .., ?_⟩
      rw [Host.HostState.requestFor, ofInt_toNat]
    · rw [hother hy] at hp
      obtain ⟨c, hc, hpacket⟩ := h.lastPkt y p hp
      exact ⟨c, hasked ▸ List.mem_cons_of_mem _ hc, hpacket⟩

/-- An event of a router or a link adds nothing to what hosts have done. -/
theorem onWire_frame [DecidableEq R] [DecidableEq H] {w : WireState R H}
    (ha : a.onWire = some e) (hw : T.WireStep s e w) :
    w.announced = s.announced ∧ w.asked = s.asked ∧ w.served = s.served ∧
      w.content_number = s.content_number ∧ w.saved = s.saved := by
  cases a with
  | deliver k mem =>
    obtain rfl := Option.some.inj ha
    cases hw with
    | relay => exact ⟨rfl, rfl, rfl, rfl, rfl⟩
    | throws => exact ⟨rfl, rfl, rfl, rfl, rfl⟩
  | lose k =>
    obtain rfl := Option.some.inj ha
    cases hw
    exact ⟨rfl, rfl, rfl, rfl, rfl⟩
  | drop k alloc =>
    obtain rfl := Option.some.inj ha
    cases hw
    exact ⟨rfl, rfl, rfl, rfl, rfl⟩
  | duplicate k =>
    obtain rfl := Option.some.inj ha
    cases hw
    exact ⟨rfl, rfl, rfl, rfl, rfl⟩
  | timerPending r =>
    obtain rfl := Option.some.inj ha
    cases hw
    exact ⟨rfl, rfl, rfl, rfl, rfl⟩
  | _ => cases ha

namespace Topology

variable [DecidableEq R] [DecidableEq H]

/-- **Every event keeps the hosts obedient.** -/
theorem SystemStep.obeys (hstep : T.SystemStep files u a u') (h : Obeys T files acts u) :
    Obeys T files (acts ++ [a]) u' := by
  have hsub : acts ⊆ acts ++ [a] := List.subset_append_left ..
  have hlast : a ∈ acts ++ [a] := List.mem_concat_self
  cases hstep with
  | PUT x cID behindEnd =>
    refine h.keep hsub (steady_modify _ ⟨fun c hmem => ?_, rfl, rfl⟩) (fun _ _ => .inl)
      (fun _ _ _ => .inl) rfl rfl
    rcases mem_PUT hmem with hold | ⟨rfl, hopen⟩
    · exact .inl hold
    · exact .inr ⟨c, behindEnd, hlast, hopen, rfl⟩
  | DEL x var1 =>
    exact h.keep hsub
      (steady_modify _ ⟨fun c hmem => .inl (List.mem_of_mem_filter hmem), rfl, rfl⟩)
      (fun _ _ => .inl) (fun _ _ _ => .inl) rfl rfl
  | GET hw =>
    cases hw
    exact h.get hsub hlast rfl rfl rfl
  | @expire x thread slots sent hin htimer =>
    obtain ⟨hcontent, hlastPkt, -⟩ := timerProc_slots (u.hosts x).slots thread
    rw [htimer] at hcontent hlastPkt
    have hhosts : ∀ y, Steady files (acts ++ [.expire x thread]) y (u.hosts y)
        ((u.modify x fun p => { p with slots := slots }).hosts y) :=
      steady_modify _ ⟨fun _ => .inl, hcontent, hlastPkt⟩
    exact h.keep hsub hhosts (fun _ _ => .inl) (fun _ _ _ => .inl) rfl rfl
  | idle mem hnil =>
    exact h.keep hsub (fun _ => .refl _ _) (fun _ _ => .inl) (fun _ _ _ => .inl) rfl rfl
  | @bcast x p1 mem w hone hw =>
    cases hw
    refine h.keep hsub (fun _ => .refl _ _) (fun y c hmem => ?_) (fun _ _ _ => .inl) rfl rfl
    rcases List.mem_cons.mp hmem with heq | hmem
    · cases heq
      exact .inr ((h.listed x p1 (hone ▸ List.mem_singleton_self _)).mono hsub)
    · exact .inl hmem
  | @rx k x bytes mem w hk hw =>
    cases hw with
    | @rx before after x' bytes' q sent saved _ _ hs _ _ =>
      rw [getElem?_of_split hs] at hk
      cases hk
      obtain ⟨hlist1, hcontent, hlastPkt⟩ := received_slots (u.hosts x) (octetsOf bytes)
      have hhosts : ∀ y, Steady files (acts ++ [.rx before.length mem]) y (u.hosts y)
          ((u.modify x (·.received (octetsOf bytes))).hosts y) :=
        steady_modify _ ⟨fun c hmem => .inl (hlist1 ▸ hmem), hcontent, hlastPkt⟩
      refine h.keep hsub hhosts (fun _ _ => .inl) (fun y c file hmem => ?_) rfl rfl
      rcases List.mem_append.mp hmem with hmem | hmem
      · obtain ⟨file', hfile, heq⟩ := List.mem_map.mp hmem
        cases heq
        rw [Option.mem_toList, fileFor] at hfile
        split at hfile
        next => exact .inr hfile
        next => cases hfile
      · exact .inl hmem
  | onWire ha hw =>
    obtain ⟨hannounced, hasked, hserved, hcontent, -⟩ := onWire_frame ha hw
    exact h.keep hsub (fun _ => .refl _ _) (fun _ _ hmem => .inl (hannounced ▸ hmem))
      (fun _ _ _ hmem => .inl (hserved ▸ hmem)) hcontent hasked
  | timerRouting =>
    exact h.keep hsub (fun _ => .refl _ _) (fun _ _ => .inl) (fun _ _ _ => .inl) rfl rfl

/-- And what holds of every wire. -/
theorem SystemStep.wireInv (hstep : T.SystemStep files u a u') (hobeys : Obeys T files acts u)
    (h : WireInv T u.wire) : WireInv T u'.wire := by
  cases hstep with
  | PUT => exact h
  | DEL => exact h
  | GET hw => exact (hw.wireInv h).waiting _
  | @expire x thread slots sent hin htimer =>
    obtain ⟨-, -, hsent⟩ := timerProc_slots (u.hosts x).slots thread
    rw [htimer] at hsent
    exact h.resent fun p hp => hobeys.lastPkt x p (hsent p hp)
  | idle => exact h
  | bcast hone hw => exact hw.wireInv h
  | rx hk hw => exact hw.wireInv h
  | onWire ha hw => exact hw.wireInv h
  | timerRouting hl => exact h.timerRouting hl

/-- What hosts have saved their users have asked for, and other hosts of the
same router have read it. -/
def SavesAsked (T : Topology R H) (acts : List (SystemEvent R H)) (u : SystemState R H) : Prop :=
  ∀ x c content, (x, c, content) ∈ u.wire.saved → Gets acts x c ∧
    ∃ y file residue, (T.attach y).1 = (T.attach x).1 ∧ (y, c, file) ∈ u.wire.served ∧
      content = (file ++ 0xff :: residue).takeWhile (· ≠ 0)

omit [DecidableEq R] [DecidableEq H] in
/-- An event that saves nothing. -/
theorem SavesAsked.keep (h : SavesAsked T acts u) (hsub : acts ⊆ acts')
    (hserved : u'.wire.served = u.wire.served) (hsaved : u'.wire.saved = u.wire.saved) :
    SavesAsked T acts' u' := by
  intro x c content hmem
  rw [hsaved] at hmem
  obtain ⟨hget, hfile⟩ := h x c content hmem
  rw [hserved]
  exact ⟨hget.mono hsub, hfile⟩

theorem SystemStep.savesAsked (hstep : T.SystemStep files u a u') (hobeys : Obeys T files acts u)
    (hwire : WireInv T u.wire) (h : SavesAsked T acts u) : SavesAsked T (acts ++ [a]) u' := by
  have hsub : acts ⊆ acts ++ [a] := List.subset_append_left ..
  cases hstep with
  | PUT => exact h.keep hsub rfl rfl
  | DEL => exact h.keep hsub rfl rfl
  | GET hw =>
    cases hw
    exact h.keep hsub rfl rfl
  | expire => exact h.keep hsub rfl rfl
  | idle => exact h.keep hsub rfl rfl
  | bcast hone hw =>
    cases hw
    exact h.keep hsub rfl rfl
  | @rx k x bytes mem w hk hw =>
    cases hw with
    | @rx before after x' bytes' q sent saved _ _ hs hq hreacts =>
      intro y c content hmem
      have hgrow : ∀ e ∈ u.wire.served, e ∈ (fileFor (files x) (octetsOf bytes')).toList.map
          (fun file => (x', (octetsOf bytes').contentID, file)) ++ u.wire.served :=
        fun _ he => List.mem_append_right _ he
      rcases List.mem_append.mp hmem with hmem | hmem
      · obtain ⟨content', hcontent', heq⟩ := List.mem_map.mp hmem
        obtain rfl := Option.mem_toList.mp hcontent'
        cases heq
        obtain ⟨hwaits, z, file, residue, hrouter, hserved, hcontent⟩ :=
          saves_file (hwire.carries _ (mem_split hs)) (hwire.horizon.flight _ (mem_split hs)) hq
            hreacts
        exact ⟨(hobeys.waits x' _ hwaits).mono hsub, z, file, residue, hrouter,
          hgrow _ hserved, hcontent⟩
      · obtain ⟨hget, z, file, residue, hrouter, hserved, hcontent⟩ := h y c content hmem
        exact ⟨hget.mono hsub, z, file, residue, hrouter, hgrow _ hserved, hcontent⟩
  | onWire ha hw =>
    obtain ⟨-, -, hserved, -, hsaved⟩ := onWire_frame ha hw
    exact h.keep hsub hserved hsaved
  | timerRouting => exact h.keep hsub rfl rfl

/-! ## Every run -/

/-- What holds after the events `acts`. -/
structure SystemInv (T : Topology R H) (files : H → Int → Option (List UInt8))
    (acts : List (SystemEvent R H)) (u : SystemState R H) : Prop where
  obeys : Obeys T files acts u
  wire : WireInv T u.wire
  saved : SavesAsked T acts u

variable {port : Far R Int H → ReceivingPort} {ackflag : H → Bool}
  {ms : List (Move (SystemState R H) (SystemEvent R H))}

theorem run_systemInv (hrun : (T.system files port ackflag).Run ms u) :
    SystemInv T files (ms.map Move.act) u := by
  induction hrun with
  | @start u hu =>
    obtain rfl : u = _ := hu
    refine ⟨⟨?_, ?_, ?_, fun _ c h => ?_, fun _ => rfl, fun _ p h => ?_⟩,
      ⟨?_, ⟨fun _ => empty_learned, ?_⟩, ⟨fun _ => empty_learned, ?_, ?_⟩⟩, ?_⟩
    · exact fun _ _ h => absurd h List.not_mem_nil
    · exact fun _ _ h => absurd h List.not_mem_nil
    · exact fun _ _ _ h => absurd h List.not_mem_nil
    · change (-1 : Int) = c.toNat at h
      omega
    · cases h
    · exact fun _ h => absurd h List.not_mem_nil
    · exact fun _ h => absurd h List.not_mem_nil
    · exact fun _ h => absurd h List.not_mem_nil
    · exact fun _ _ _ h => absurd h List.not_mem_nil
    · exact fun _ _ _ h => absurd h List.not_mem_nil
  | @snoc ms u u' a hrun hs ih =>
    have hstep := systemStep_cases ih.wire.carries hs
    rw [List.map_append]
    exact ⟨hstep.obeys ih.obeys, hstep.wireInv ih.obeys ih.wire,
      hstep.savesAsked ih.obeys ih.wire ih.saved⟩

/-- **What one user gets another user has offered**, in every run of the whole
system: a user who finds a content saved has asked for it by its number, and it
comes from the file of a user of the same router who has put it; and whatever a
router knows, a user of that router or, behind a single interface, of the next
one has put. Contents with the same octet are the same to all but the hosts
that have them. -/
theorem system_offered (hrun : (T.system files port ackflag).Run ms u) :
    (∀ x c content, (x, c, content) ∈ u.wire.saved → Gets (ms.map Move.act) x c ∧
      ∃ y file residue, (T.attach y).1 = (T.attach x).1 ∧ Puts files (ms.map Move.act) y c ∧
        files y c.toNat = some file ∧ content = (file ++ 0xff :: residue).takeWhile (· ≠ 0)) ∧
    ∀ r, ∀ record ∈ (u.wire.tables r).RoutingTable, ∃ y c,
      record.cID = ((c : UInt8).toNat : Int) ∧ Puts files (ms.map Move.act) y c ∧
        ((record.num_hops = 0 ∧ T.attach y = (r, record.interface)) ∨
          (record.num_hops = 1 ∧ T.num_interfaces r ≤ 1 ∧
            ∃ i', T.far r record.interface = some (.node (T.attach y).1 i'))) := by
  obtain ⟨hobeys, hwire, hsaved⟩ := run_systemInv hrun
  refine ⟨fun x c content hmem => ?_, fun r record hmem => ?_⟩
  · obtain ⟨hget, y, file, residue, hrouter, hserved, hcontent⟩ := hsaved x c content hmem
    exact ⟨hget, y, file, residue, hrouter,
      hobeys.announced y c (hwire.directed.served y c file hserved),
      hobeys.served y c file hserved, hcontent⟩
  · obtain ⟨y, c, hc, hy, hnear⟩ := hwire.horizon.record hmem
    exact ⟨y, c, hc, hobeys.announced y c hy, hnear⟩

end Topology

/-- The user of host `true` puts content 7, and the user of host `false` gets it. -/
def offered : List (SystemEvent Unit Bool) :=
  [.PUT true 7 0, .bcast true Host.zeroMemory, .deliver 0 zeroRouterMemory, .lose 0,
    .GET false 7 Host.zeroMemory, .deliver 0 zeroRouterMemory, .rx 0 Host.zeroMemory,
    .deliver 0 zeroRouterMemory, .rx 0 Host.zeroMemory]

/-- The only file there is. -/
def theFile : Bool → Int → Option (List UInt8)
  | true, 7 => some [0x41]
  | _, _ => none

/-- The hub with its hosts. -/
def hubSystem : Lts (SystemState Unit Bool) (SystemEvent Unit Bool) :=
  hub.system theFile (fun _ => Host.zeroPort) fun _ => false

theorem exists_offeredRun :
    ∃ ms u, hubSystem.Run ms u ∧ (false, 7, [0x41, 0xff]) ∈ u.wire.saved := by
  have hsaved : (Lts.trace (hub.systemStep theFile)
      ⟨⟨fun _ => .empty, fun _ => Host.zeroPort, fun _ => -1, [], [], [], [], []⟩,
        fun _ => ⟨[], .start false⟩⟩ offered).map (fun r => r.2.wire.saved)
        = some [(false, 7, [0x41, 0xff])] := by
    decide +kernel
  obtain ⟨⟨ms, u⟩, htrace, hu⟩ := Option.map_eq_some_iff.mp hsaved
  exact ⟨ms, u, Lts.run_of_trace htrace, hu ▸ List.mem_singleton_self _⟩

theorem system_offered_hub : ∃ ms u, hubSystem.Run ms u ∧ Gets (ms.map Move.act) false 7 ∧
    ∃ y, (hub.attach y).1 = (hub.attach false).1 ∧ Puts theFile (ms.map Move.act) y 7 := by
  obtain ⟨ms, u, hrun, hmem⟩ := exists_offeredRun
  obtain ⟨hget, y, -, -, hrouter, hput, -⟩ := (Topology.system_offered hrun).1 _ _ _ hmem
  exact ⟨ms, u, hrun, hget, y, hrouter, hput⟩

end ContentNetwork.Network
