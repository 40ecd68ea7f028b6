import ContentNetwork.Lib.Bisimulation
import ContentNetwork.Network.Carried

/-!
# The wire refines the network of octets

Whatever bytes routers and hosts send, their octets are those of a run of
`lossyNetwork`, event by event, and every datagram in flight is of one of the
known kinds (`wire_refines`). So what is proved of the network of octets holds
down to the bytes.

The other way round the wire can do what the network of octets can, if a round
of `bcast` has one announcement, up to three overruns: a second router sends an
announcement on, a host reads a file that is too long, or saves a payload without
a zero byte (`wireStep_eq_none_iff`).
-/

namespace ContentNetwork

open Lib Simplified

/-! ## The wire as a network of octets -/

namespace Network

variable {R H : Type*}

/-- A datagram as the packet that the other networks carry. -/
def Datagram.envelope (d : Datagram R H) : Envelope R H :=
  ⟨d.dest, octetsOf d.bytes⟩

namespace WireState

/-- The wire as a state of `lossyNetwork`. -/
def octets (s : WireState R H) : State R H :=
  ⟨s.tables, s.inFlight.map Datagram.envelope, s.announced⟩

/-- Whether a host that receives the datagram at `k` has the file for it. -/
def hasFile (s : WireState R H) (k : Nat) (directory : Int → Option (List UInt8)) : Bool :=
  s.inFlight[k]?.any fun d => (fileFor directory (octetsOf d.bytes)).isSome

/-- An event on the wire as an event of `lossyNetwork`. -/
def event (s : WireState R H) : WireEvent R H → FaultyEvent R H
  | .announce h contentID _ => .event (.announce h contentID)
  | .request h contentID _ => .event (.request h contentID)
  | .deliver k _ => .event (.deliver k)
  | .hostReceive k directory _ => .event (.hostReceive k (s.hasFile k directory))
  | .lose k => .lose k
  | .drop k _ => .lose k
  | .duplicate k => .duplicate k
  | .timerPending r => .timerPending r

/-- All datagrams in flight are of the known kinds. -/
def CarriesAll (s : WireState R H) : Prop := ∀ d ∈ s.inFlight, Carried s.served d.bytes

end WireState

namespace Topology

variable [DecidableEq R] [DecidableEq H] (T : Topology R H)

/-- What each event does to a wire that carries known datagrams. -/
inductive WireStep (s : WireState R H) : WireEvent R H → WireState R H → Prop
  | announce (h : H) (c : UInt8) (mem : Host.Memory) :
      WireStep s (.announce h c mem) { s with
        inFlight := s.inFlight ++ [T.datagramFrom h [3, PacketTypes.ANNOUNCEMENT.octet, c, 0]]
        announced := (h, c) :: s.announced }
  | request (h : H) (c : UInt8) (mem : Host.Memory) :
      WireStep s (.request h c mem) { s with
        content_number := Function.update s.content_number h c.toNat
        inFlight := s.inFlight ++ [T.datagramFrom h [3, PacketTypes.REQUEST.octet, c, T.hostID h]]
        asked := (h, c) :: s.asked }
  | relay {before after : List (Datagram R H)} {r : R} {i : Int} {bytes : List UInt8} {t : Tables}
      {q : ReceivingPort} {out : List (Int × List UInt8)} (mem : RouterMemory) :
      s.inFlight = before ++ ⟨.node r i, bytes⟩ :: after →
      handlePacket (T.num_interfaces r) (s.tables r) ⟨octetsOf bytes, i⟩
        = some (t, out.map fun x => (x.1, octetsOf x.2)) →
      (∀ x ∈ out, Carried s.served x.2) →
      (PacketTypes.ofOctet (octetsOf bytes).packetType ≠ some .ANNOUNCEMENT →
        ∀ x ∈ out, x.2 = bytes) →
      WireStep s (.deliver before.length mem) { s with
        tables := Function.update s.tables r t
        port := Function.update s.port (.node r i) q
        inFlight := before ++ after ++ T.sendDatagrams r out }
  | throws {before after : List (Datagram R H)} {r : R} {i : Int} {bytes : List UInt8}
      {q : ReceivingPort} (mem : RouterMemory) :
      s.inFlight = before ++ ⟨.node r i, bytes⟩ :: after →
      handlePacket (T.num_interfaces r) (s.tables r) ⟨octetsOf bytes, i⟩ = none →
      WireStep s (.deliver before.length mem) { s with
        port := Function.update s.port (.node r i) q
        inFlight := before ++ after }
  | rx {before after : List (Datagram R H)} {h : H} {bytes : List UInt8} {q : ReceivingPort}
      {sent : List (List UInt8)} {saved : Option (List UInt8)}
      (directory : Int → Option (List UInt8)) (mem : Host.Memory) :
      s.inFlight = before ++ ⟨.leaf h, bytes⟩ :: after →
      (s.port (.leaf h)).receivePacket mem.alloc' bytes = some q →
      Reacts directory (s.content_number h) bytes q sent saved →
      WireStep s (.hostReceive before.length directory mem) { s with
        port := Function.update s.port (.leaf h) q
        inFlight := before ++ after ++ sent.map (T.datagramFrom h)
        served := (fileFor directory (octetsOf bytes)).toList.map
          (fun file => (h, (octetsOf bytes).contentID, file)) ++ s.served
        saved := saved.toList.map (fun content => (h, (octetsOf bytes).contentID, content))
          ++ s.saved }
  | lose {before after : List (Datagram R H)} {x : Datagram R H} :
      s.inFlight = before ++ x :: after →
      WireStep s (.lose before.length) { s with inFlight := before ++ after }
  | drop {before after : List (Datagram R H)} {x : Datagram R H} {q : ReceivingPort}
      (alloc : (n : Nat) → Buf UInt8 n) :
      s.inFlight = before ++ x :: after → (s.port x.dest).receivePacket alloc x.bytes = some q →
      WireStep s (.drop before.length alloc) { s with
        port := Function.update s.port x.dest q
        inFlight := before ++ after }
  | duplicate {before after : List (Datagram R H)} {x : Datagram R H} :
      s.inFlight = before ++ x :: after →
      WireStep s (.duplicate before.length) { s with inFlight := s.inFlight ++ [x] }
  | timerPending {r : R} {l : List PRTrecord} :
      Simplified.timerPending (s.tables r).PendingRequestTable = some l →
      WireStep s (.timerPending r) { s with
        tables := Function.update s.tables r { s.tables r with PendingRequestTable := l } }

variable {T} {s s' : WireState R H} {e : WireEvent R H}

/-- The inversion lemma. -/
theorem wireStep_cases (hcarries : s.CarriesAll) (h : T.wireStep s e = some s') :
    T.WireStep s e s' := by
  cases e with
  | announce x c mem =>
    obtain ⟨sent, hround, rfl⟩ := Option.map_eq_some_iff.mp h
    obtain rfl := Option.some.inj ((bcastRound_singleton mem c.toNat).symm.trans hround)
    rw [ofInt_toNat]
    exact .announce x c mem
  | request x c mem =>
    obtain ⟨bytes, hsend, rfl⟩ := Option.map_eq_some_iff.mp h
    obtain rfl := Option.some.inj
      ((sendPacket_makeHeader .REQUEST c (T.hostID x) ..).symm.trans hsend)
    exact .request x c mem
  | deliver k mem =>
    simp only [wireStep] at h
    split at h
    next r i bytes hk =>
      obtain ⟨before, after, hsplit, rfl, herase⟩ := split_at hk
      obtain ⟨⟨t, q, out⟩, hrelay, rfl⟩ := Option.map_eq_some_iff.mp h
      have hc := hcarries _ (mem_split hsplit)
      rw [herase]
      rcases relayDatagram_eq_some hc hrelay with ⟨hnone, rfl, rfl⟩ | ⟨hsome, hcarried, hsame⟩
      · have hstep := WireStep.throws (q := q) mem hsplit hnone
        dsimp only
        rw [Function.update_eq_self, sendDatagrams, List.filterMap_nil, List.append_nil]
        exact hstep
      · exact .relay mem hsplit hsome hcarried hsame
    next => cases h
    next => cases h
  | hostReceive k directory mem =>
    simp only [wireStep] at h
    split at h
    next x bytes hk =>
      obtain ⟨before, after, hsplit, rfl, herase⟩ := split_at hk
      obtain ⟨⟨q, sent, saved⟩, hrx, rfl⟩ := Option.map_eq_some_iff.mp h
      obtain ⟨hq, hreacts⟩ := rxDatagram_eq_some (hcarries _ (mem_split hsplit)) hrx
      rw [herase]
      exact .rx directory mem hsplit hq hreacts
    next => cases h
    next => cases h
  | lose k =>
    obtain ⟨x, hk, rfl⟩ := Option.map_eq_some_iff.mp h
    obtain ⟨before, after, hsplit, rfl, herase⟩ := split_at hk
    rw [herase]
    exact .lose hsplit
  | drop k alloc =>
    simp only [wireStep] at h
    split at h
    next dest bytes hk =>
      obtain ⟨before, after, hsplit, rfl, herase⟩ := split_at hk
      obtain ⟨q, hq, rfl⟩ := Option.map_eq_some_iff.mp h
      rw [herase]
      exact .drop alloc hsplit hq
    next => cases h
  | duplicate k =>
    obtain ⟨x, hk, rfl⟩ := Option.map_eq_some_iff.mp h
    obtain ⟨before, after, hsplit, rfl, -⟩ := split_at hk
    exact .duplicate hsplit
  | timerPending r =>
    obtain ⟨l, hl, rfl⟩ := Option.map_eq_some_iff.mp h
    exact .timerPending hl

/-! ## Every step is a step of the lossy network -/

omit [DecidableEq R] [DecidableEq H] in
theorem mem_sendDatagrams {r : R} {out : List (Int × List UInt8)} {d : Datagram R H}
    (h : d ∈ T.sendDatagrams r out) : ∃ x ∈ out, d.bytes = x.2 := by
  obtain ⟨x, hx, hd⟩ := List.mem_filterMap.mp h
  obtain ⟨e, -, rfl⟩ := Option.map_eq_some_iff.mp hd
  exact ⟨x, hx, rfl⟩

/-- What is carried is carried after every step. -/
theorem WireStep.carriesAll (h : T.WireStep s e s') (hcarries : s.CarriesAll) :
    s'.CarriesAll := by
  have hsplit : ∀ {before after : List (Datagram R H)} {x : Datagram R H},
      s.inFlight = before ++ x :: after → ∀ d ∈ before ++ after, Carried s.served d.bytes :=
    fun hs d hd => hcarries d (mem_of_split hs hd)
  cases h with
  | announce x c mem => exact Keyed.forall_push hcarries (.announced c)
  | request x c mem => exact Keyed.forall_push hcarries (.request c _)
  | relay mem hs _ hout _ =>
    intro d hd
    rcases List.mem_append.mp hd with hd | hd
    · exact hsplit hs d hd
    · obtain ⟨x, hx, hbytes⟩ := mem_sendDatagrams hd
      exact hbytes ▸ hout x hx
  | throws mem hs _ => exact hsplit hs
  | @rx _ _ x bytes q sent saved directory mem hs _ hreacts =>
    intro d hd
    rcases List.mem_append.mp hd with hd | hd
    · exact (hsplit hs d hd).mono fun _ he => List.mem_append_right _ he
    · -- what the host sends is the response with the file it has read
      obtain ⟨bytes', hbytes', rfl⟩ := List.mem_map.mp hd
      cases hreacts with
      | serves hfile hlen =>
        obtain rfl := List.mem_singleton.mp hbytes'
        refine .response (x := x) _ ?_ hlen
        rw [hfile]
        exact List.mem_cons_self ..
      | saves => exact absurd hbytes' List.not_mem_nil
      | nothing => exact absurd hbytes' List.not_mem_nil
  | lose hs => exact hsplit hs
  | drop alloc hs _ => exact hsplit hs
  | duplicate hs => exact Keyed.forall_push hcarries (hcarries _ (mem_split hs))
  | timerPending _ => exact hcarries

omit [DecidableEq R] [DecidableEq H] in
/-- The packets of what a router sends. -/
theorem map_sendDatagrams (r : R) (out : List (Int × List UInt8)) :
    (T.sendDatagrams r out).map Datagram.envelope
      = T.send r (out.map fun x => (x.1, octetsOf x.2)) := by
  unfold sendDatagrams send
  rw [List.filterMap_map, List.map_filterMap]
  refine congrArg (List.filterMap · out) (funext fun x => ?_)
  cases h : T.far r x.1 <;> simp [h, Datagram.envelope]

omit [DecidableEq R] [DecidableEq H] in
/-- The packets of what a host sends. -/
theorem map_reacts {h : H} {directory : Int → Option (List UInt8)} {content_number : Int}
    {bytes : List UInt8} {q : ReceivingPort} {sent : List (List UInt8)}
    {saved : Option (List UInt8)} (hr : Reacts directory content_number bytes q sent saved) :
    (sent.map (T.datagramFrom h)).map Datagram.envelope
      = T.hostReply h (fileFor directory (octetsOf bytes)).isSome (octetsOf bytes) := by
  cases hr with
  | serves hfile =>
    have ht : PacketTypes.ofOctet (octetsOf bytes).packetType = some .REQUEST := by
      by_contra hne
      rw [fileFor, if_neg hne] at hfile
      cases hfile
    rw [hfile, hostReply, if_pos ⟨rfl, ht⟩]
    rfl
  | saves hfile =>
    rw [hfile, hostReply, if_neg fun hboth => Bool.false_ne_true hboth.1]
    rfl
  | nothing hfile =>
    rw [hfile, hostReply, if_neg fun hboth => Bool.false_ne_true hboth.1]
    rfl

theorem eraseIdx_of_split {α : Type*} {l before after : List α} {x : α}
    (h : l = before ++ x :: after) : l.eraseIdx before.length = before ++ after := by
  rw [h, List.eraseIdx_append_of_length_le (Nat.le_refl _), Nat.sub_self]
  rfl

omit [DecidableEq R] [DecidableEq H] in
/-- The packets in flight, around one of them. -/
theorem octets_split {before after : List (Datagram R H)} {x : Datagram R H}
    (hs : s.inFlight = before ++ x :: after) :
    s.octets.inFlight[before.length]? = some x.envelope ∧
      s.octets.inFlight.eraseIdx before.length = (before ++ after).map Datagram.envelope := by
  have heq : s.octets.inFlight
      = before.map Datagram.envelope ++ x.envelope :: after.map Datagram.envelope := by
    unfold WireState.octets
    rw [hs, List.map_append, List.map_cons]
  have hget := getElem?_of_split heq
  have herase := eraseIdx_of_split heq
  rw [List.length_map] at hget herase
  rw [← List.map_append] at herase
  exact ⟨hget, herase⟩

/-- **Every step on the wire is a step of the lossy network.** -/
theorem WireStep.faultyStep (h : T.WireStep s e s') :
    T.faultyStep s.octets (s.event e) = some s'.octets := by
  cases h with
  | announce x c mem =>
    simp only [WireState.event, Topology.faultyStep, step, WireState.octets, List.map_append]
    rfl
  | request x c mem =>
    simp only [WireState.event, Topology.faultyStep, step, WireState.octets, List.map_append]
    rfl
  | relay mem hs hhandle _ _ =>
    obtain ⟨hget, herase⟩ := octets_split hs
    simp only [WireState.event, Topology.faultyStep, step, hget, Datagram.envelope, herase]
    rw [show s.octets.tables = s.tables from rfl, hhandle]
    dsimp only
    rw [← map_sendDatagrams, ← List.map_append]
    rfl
  | throws mem hs hhandle =>
    obtain ⟨hget, herase⟩ := octets_split hs
    simp only [WireState.event, Topology.faultyStep, step, hget, Datagram.envelope, herase]
    rw [show s.octets.tables = s.tables from rfl, hhandle]
    rfl
  | @rx before after x bytes q sent saved directory mem hs _ hreacts =>
    obtain ⟨hget, herase⟩ := octets_split hs
    have hfile : s.hasFile before.length directory
        = (fileFor directory (octetsOf bytes)).isSome := by
      rw [WireState.hasFile, getElem?_of_split hs]
      rfl
    simp only [WireState.event, Topology.faultyStep, step, hget, Datagram.envelope, herase, hfile,
      ← map_reacts hreacts, ← List.map_append]
    rfl
  | lose hs =>
    obtain ⟨hget, herase⟩ := octets_split hs
    simp only [WireState.event, Topology.faultyStep, hget, Option.map_some, herase]
    rfl
  | drop alloc hs _ =>
    obtain ⟨hget, herase⟩ := octets_split hs
    simp only [WireState.event, Topology.faultyStep, hget, Option.map_some, herase]
    rfl
  | duplicate hs =>
    obtain ⟨hget, -⟩ := octets_split hs
    simp only [WireState.event, Topology.faultyStep, hget, Option.map_some]
    rw [show s.octets.inFlight = s.inFlight.map Datagram.envelope from rfl]
    simp only [WireState.octets, List.map_append]
    rfl
  | timerPending hl =>
    simp only [WireState.event, Topology.faultyStep]
    rw [show s.octets.tables = s.tables from rfl, hl]
    rfl

/-- The wire follows the lossy network: related states carry known datagrams,
and the packets of these. -/
theorem wire_simulated (port : Far R Int H → ReceivingPort) :
    Lts.Simulation (T.wire port) T.lossyNetwork WireState.event
      fun s t => s.CarriesAll ∧ t = s.octets where
  init s hs := by
    obtain rfl : s = _ := hs
    exact ⟨_, rfl, fun _ hd => absurd hd List.not_mem_nil, rfl⟩
  step s t e s' h hstep := by
    obtain ⟨hcarries, rfl⟩ := h
    have hcases := wireStep_cases hcarries hstep
    exact ⟨s'.octets, hcases.faultyStep, hcases.carriesAll hcarries, rfl⟩

/-- **The wire is the lossy network of octets, down to the bytes**: a run on the
wire is, event by event, a run of the lossy network, with the octets of the
datagrams in flight; and these are of the known kinds. -/
theorem wire_refines {port : Far R Int H → ReceivingPort}
    {ms : List (Move (WireState R H) (WireEvent R H))} (hrun : (T.wire port).Run ms s) :
    (∃ ms', T.lossyNetwork.Run ms' s.octets ∧
      ms'.map Move.act = ms.map fun m => m.pre.event m.act) ∧ s.CarriesAll := by
  obtain ⟨ms', t, hrun', hacts, hcarries, rfl⟩ := (wire_simulated port).run hrun
  exact ⟨⟨ms', hrun', hacts⟩, hcarries⟩

end Topology

/-- One router with two hosts: host `h` is at interface 0 or 1. The hosts' IDs
are 10 and 11. -/
def hub : Topology Unit Bool where
  far _ i :=
    if i = 0 then some (.leaf false)
    else if i = 1 then some (.leaf true)
    else none
  attach h := ((), if h then 1 else 0)
  num_interfaces _ := 2
  hostID h := if h then 11 else 10
  symm := by
    intro r i r' i' h
    split_ifs at h <;> cases h
  leaf := by
    intro r i h
    constructor
    · intro hfar
      split_ifs at hfar with h0 h1
      · cases hfar
        rw [h0]
        rfl
      · cases hfar
        rw [h1]
        rfl
    · intro hatt
      cases hatt
      cases h <;> rfl
  in_range := by
    intro r i e h
    split_ifs at h with h0 h1
    · exact ⟨h0.ge, h0.trans_lt (by decide)⟩
    · exact ⟨h1.ge.trans' (by decide), h1.trans_lt (by decide)⟩

def zeroRouterMemory : RouterMemory :=
  ⟨zeroBuf, fun _ => zeroBuf _⟩

/-- Host 11 has a file of the one byte `A` and announces it as content 7; host
10 asks for it and gets it. -/
def hubEvents : List (WireEvent Unit Bool) :=
  [.announce true 7 Host.zeroMemory, .deliver 0 zeroRouterMemory, .lose 0,
    .request false 7 Host.zeroMemory, .deliver 0 zeroRouterMemory,
    .hostReceive 0 (fun _ => some [0x41]) Host.zeroMemory, .deliver 0 zeroRouterMemory,
    .hostReceive 0 (fun _ => none) Host.zeroMemory]

/-- The wire of the hub, with ports that have received nothing. -/
def hubWire : Lts (WireState Unit Bool) (WireEvent Unit Bool) :=
  hub.wire fun _ => Host.zeroPort

theorem exists_hubRun : ∃ ms s, hubWire.Run ms s ∧ s.saved = [(false, 7, [0x41, 0xff])] := by
  have hsaved : (Lts.trace hub.wireStep
      ⟨fun _ => .empty, fun _ => Host.zeroPort, fun _ => -1, [], [], [], [], []⟩
      hubEvents).map (fun r => r.2.saved) = some [(false, 7, [0x41, 0xff])] := by
    decide +kernel
  obtain ⟨⟨ms, s⟩, htrace, hs⟩ := Option.map_eq_some_iff.mp hsaved
  exact ⟨ms, s, Lts.run_of_trace htrace, hs⟩

theorem wire_refines_hub : ∃ ms s, hubWire.Run ms s ∧ s.saved = [(false, 7, [0x41, 0xff])] ∧
    (∃ ms', hub.lossyNetwork.Run ms' s.octets ∧
      ms'.map Move.act = ms.map fun m => m.pre.event m.act) ∧ s.CarriesAll := by
  obtain ⟨ms, s, hrun, hsaved⟩ := exists_hubRun
  exact ⟨ms, s, hrun, hsaved, Topology.wire_refines hrun⟩

namespace Topology

variable [DecidableEq R] [DecidableEq H] {T : Topology R H} {s s' : WireState R H}
  {e : WireEvent R H}

/-! ## Where the wire touches a byte outside an array -/

/-- A router is to send on an announcement that has come over a router before; a
host reads a file that does not fit into its sending buffer; or it saves a
payload and there is no zero byte in the array. -/
inductive Overruns (T : Topology R H) (s : WireState R H) : WireEvent R H → Prop
  | relay {k : Nat} {r : R} {i : Int} {bytes : List UInt8} {t : Tables} {sent : List Sent}
      (mem : RouterMemory) :
      s.inFlight[k]? = some ⟨.node r i, bytes⟩ → bytes.head? = some 4 →
      handlePacket (T.num_interfaces r) (s.tables r) ⟨octetsOf bytes, i⟩ = some (t, sent) →
      sent ≠ [] → Overruns T s (.deliver k mem)
  | serve {k : Nat} {h : H} {bytes file : List UInt8} {directory : Int → Option (List UInt8)}
      (mem : Host.Memory) :
      s.inFlight[k]? = some ⟨.leaf h, bytes⟩ →
      fileFor directory (octetsOf bytes) = some file → MTU_SIZE < file.length + 4 →
      Overruns T s (.hostReceive k directory mem)
  | save {k : Nat} {h : H} {bytes : List UInt8} {q : ReceivingPort} {mem : Host.Memory}
      (directory : Int → Option (List UInt8)) :
      s.inFlight[k]? = some ⟨.leaf h, bytes⟩ →
      PacketTypes.ofOctet (octetsOf bytes).packetType = some .RESPONSE →
      (octetsOf bytes).ContentID = s.content_number h →
      (s.port (.leaf h)).receivePacket mem.alloc' bytes = some q →
      Host.saveResponse q.pkt_ = none → Overruns T s (.hostReceive k directory mem)

omit [DecidableEq H] in
/-- The lossy network delivers whatever is on its way to a router. -/
theorem faultyStep_deliver_ne_none {k : Nat} {mem : RouterMemory} {r : R} {i : Int}
    {bytes : List UInt8} (hk : s.inFlight[k]? = some ⟨.node r i, bytes⟩) :
    T.faultyStep s.octets (s.event (.deliver k mem)) ≠ none := by
  have hget : s.octets.inFlight[k]? = some ⟨.node r i, octetsOf bytes⟩ := by
    rw [show s.octets.inFlight = s.inFlight.map Datagram.envelope from rfl, List.getElem?_map, hk]
    rfl
  simp only [WireState.event, faultyStep, step, hget]
  split <;> exact Option.some_ne_none _

omit [DecidableEq H] in
/-- And whatever is on its way to a host. -/
theorem faultyStep_hostReceive_ne_none {k : Nat} {mem : Host.Memory} {h : H}
    {directory : Int → Option (List UInt8)} {bytes : List UInt8}
    (hk : s.inFlight[k]? = some ⟨.leaf h, bytes⟩) :
    T.faultyStep s.octets (s.event (.hostReceive k directory mem)) ≠ none := by
  have hget : s.octets.inFlight[k]? = some ⟨.leaf h, octetsOf bytes⟩ := by
    rw [show s.octets.inFlight = s.inFlight.map Datagram.envelope from rfl, List.getElem?_map, hk]
    rfl
  simp only [WireState.event, faultyStep, step, hget]
  exact Option.some_ne_none _

/-- A router stops only where it overruns. -/
theorem wireStep_deliver_eq_none_iff {k : Nat} {mem : RouterMemory} {r : R} {i : Int}
    {bytes : List UInt8} (hc : Carried s.served bytes)
    (hk : s.inFlight[k]? = some ⟨.node r i, bytes⟩) :
    T.wireStep s (.deliver k mem) = none ↔ Overruns T s (.deliver k mem) := by
  simp only [wireStep, hk, Option.map_eq_none_iff, relayDatagram_eq_none_iff hc]
  constructor
  · intro hover
    obtain ⟨hhead, t, sent, hhandle, hsent⟩ := hover
    exact .relay mem hk hhead hhandle hsent
  · intro hover
    cases hover with
    | relay _ hk' hhead hhandle hsent =>
      cases hk.symm.trans hk'
      exact ⟨hhead, _, _, hhandle, hsent⟩

/-- And so does a host. -/
theorem wireStep_hostReceive_eq_none_iff {k : Nat} {mem : Host.Memory} {h : H}
    {directory : Int → Option (List UInt8)} {bytes : List UInt8} (hc : Carried s.served bytes)
    (hk : s.inFlight[k]? = some ⟨.leaf h, bytes⟩) :
    T.wireStep s (.hostReceive k directory mem) = none
      ↔ Overruns T s (.hostReceive k directory mem) := by
  simp only [wireStep, hk, Option.map_eq_none_iff, rxDatagram_eq_none_iff hc]
  constructor
  · intro hover
    rcases hover with ⟨file, hfile, hlen⟩ | ⟨ht, hcontent, q, hq, hsave⟩
    · exact .serve mem hk hfile hlen
    · exact .save directory hk ht hcontent hq hsave
  · intro hover
    cases hover with
    | serve _ hk' hfile hlen =>
      cases hk.symm.trans hk'
      exact .inl ⟨_, hfile, hlen⟩
    | save _ hk' ht hcontent hq hsave =>
      cases hk.symm.trans hk'
      exact .inr ⟨ht, hcontent, _, hq, hsave⟩

/-- **Nothing else stops the wire**: in every state that it reaches, an event is
impossible iff it is in the network of octets or overruns an array. -/
theorem wireStep_eq_none_iff {port : Far R Int H → ReceivingPort}
    (hreach : (T.wire port).Reachable s) (e : WireEvent R H) :
    T.wireStep s e = none ↔
      T.faultyStep s.octets (s.event e) = none ∨ Overruns T s e := by
  obtain ⟨ms, hrun⟩ := hreach.exists_run
  obtain ⟨-, t, -, -, hcarries, -⟩ := (wire_simulated port).run hrun
  have hget : ∀ k, s.octets.inFlight[k]? = s.inFlight[k]?.map Datagram.envelope :=
    fun k => List.getElem?_map ..
  cases e with
  | announce x c mem =>
    refine iff_of_false ?_ (not_or.mpr ⟨Option.some_ne_none _, fun hover => by cases hover⟩)
    simp only [wireStep, bcastRound_singleton]
    exact Option.some_ne_none _
  | request x c mem =>
    refine iff_of_false ?_ (not_or.mpr ⟨Option.some_ne_none _, fun hover => by cases hover⟩)
    simp only [wireStep, MakeRequestPacket, sendPacket_makeHeader]
    exact Option.some_ne_none _
  | deliver k mem =>
    cases hk : s.inFlight[k]? with
    | none => simp [wireStep, WireState.event, faultyStep, step, hget, hk]
    | some d =>
      obtain ⟨dest, bytes⟩ := d
      cases dest with
      | leaf x => simp [wireStep, WireState.event, faultyStep, step, hget, hk, Datagram.envelope]
      | node r i =>
        have hc := hcarries _ (List.mem_of_getElem? hk)
        rw [wireStep_deliver_eq_none_iff hc hk, or_iff_right (faultyStep_deliver_ne_none hk)]
  | hostReceive k directory mem =>
    cases hk : s.inFlight[k]? with
    | none => simp [wireStep, WireState.event, faultyStep, step, hget, hk]
    | some d =>
      obtain ⟨dest, bytes⟩ := d
      cases dest with
      | node r i => simp [wireStep, WireState.event, faultyStep, step, hget, hk, Datagram.envelope]
      | leaf x =>
        have hc := hcarries _ (List.mem_of_getElem? hk)
        rw [wireStep_hostReceive_eq_none_iff hc hk,
          or_iff_right (faultyStep_hostReceive_ne_none hk)]
  | lose k =>
    simp only [wireStep, WireState.event, faultyStep, hget, Option.map_eq_none_iff]
    exact (or_iff_left fun hover => by cases hover).symm
  | drop k alloc =>
    rw [or_iff_left fun hover => by cases hover]
    simp only [wireStep, WireState.event, faultyStep, hget]
    cases hk : s.inFlight[k]? with
    | none => simp
    | some d =>
      -- whatever is on the wire is decoded
      obtain ⟨a, rest, hheaded⟩ := (hcarries _ (List.mem_of_getElem? hk)).headed
      obtain ⟨q, hq⟩ := hheaded.receive alloc (s.port d.dest)
      simp [hq]
  | duplicate k =>
    simp only [wireStep, WireState.event, faultyStep, hget, Option.map_eq_none_iff]
    exact (or_iff_left fun hover => by cases hover).symm
  | timerPending r =>
    simp only [wireStep, WireState.event, faultyStep, Option.map_eq_none_iff]
    exact (or_iff_left fun hover => by cases hover).symm

end Topology

/-- On the line, the announcement of a host is stuck at the second router. -/
theorem overruns_line : ∃ s : WireState Bool Bool,
    (line.wire fun _ => Host.zeroPort).Reachable s ∧
      Topology.Overruns line s (.deliver 0 zeroRouterMemory) := by
  have hstuck : (Lts.trace line.wireStep
      ⟨fun _ => .empty, fun _ => Host.zeroPort, fun _ => -1, [], [], [], [], []⟩
      [.announce true 7 Host.zeroMemory, .deliver 0 zeroRouterMemory]).map
        (fun r => ((line.wireStep r.2 (.deliver 0 zeroRouterMemory)).isSome,
          (line.faultyStep r.2.octets (.event (.deliver 0))).isSome)) = some (false, true) := by
    decide +kernel
  obtain ⟨⟨ms, s⟩, htrace, hs⟩ := Option.map_eq_some_iff.mp hstuck
  obtain ⟨hwire, hoctets⟩ := Prod.mk.inj hs
  have hreach : (line.wire fun _ => Host.zeroPort).Reachable s :=
    (Lts.run_of_trace htrace).reachable
  have hnone := Option.isNone_iff_eq_none.mp (Option.isSome_eq_false_iff.mp hwire)
  rcases (Topology.wireStep_eq_none_iff hreach _).mp hnone with hfaulty | hover
  · rw [show line.faultyStep s.octets (.event (.deliver 0)) = none from hfaulty] at hoctets
    cases hoctets
  · exact ⟨s, hreach, hover⟩

end Network

end ContentNetwork
