import Mathlib.Data.List.Count
import ContentNetwork.Lib.Lts
import ContentNetwork.Simplified.Cases

/-!
# From the receive threads to main

`RxThreadFunc` and the pop in `main`, with the objects they share. The
simplified and the ambitious router have the same code here.

Each receive thread allocates *one* `Message` before its loop. For every
packet it copies the port's `Packet` into that cell, and a copied `Packet`
points to the same `PacketHdr`; then it pushes the address of the cell. So
the queue holds references to cells, cells refer to header objects, and the
header of a port is overwritten by the next packet that arrives there, even
by one that is then dropped as lost. `main` reads the header through the
reference it pops, and `case ANNOUNCEMENT` writes the new hop count into it.

A packet is handed over as it was received only if no reference to its cell
is still queued when the next packet arrives on its interface.
`run_handedOver` is that statement for every run, and `second_overwrites_first`
shows what happens otherwise.
-/

namespace ContentNetwork.Simplified

open Lib Lib.Lts

/-- A header object: the one of a receiving port's packet, or the one a
message was constructed with. -/
inductive HeaderRef (n : Nat)
  | port (i : Fin n)
  | message (i : Fin n)
  deriving DecidableEq

/-- The interface whose receive thread a header object belongs to. -/
def HeaderRef.owner {n : Nat} : HeaderRef n → Fin n
  | .port i => i
  | .message i => i

/-- The interface number of a receive thread. -/
def interfaceNum {n : Nat} (i : Fin n) : Int := i.val

theorem interfaceNum_inj {n : Nat} {i j : Fin n} : interfaceNum i = interfaceNum j ↔ i = j := by
  unfold interfaceNum
  omega

/-- The `Message` of a receive thread: its packet's header is a reference. -/
structure MessageCell (n : Nat) where
  header_ : HeaderRef n
  _RxInterface_Num : Int

/-- Where a receive thread is: in `recvfrom`, or behind it with the packet it
has just extracted. -/
inductive RxPc
  | receiving
  | extracted (packet : HeaderOctets)
  deriving DecidableEq

/-- The shared objects, the receive threads, and what has happened so far:
`received i` are the packets that thread `i` was given, as they arrived, and
`dispatched` the messages that `main` has read. -/
structure HandOver (n : Nat) where
  headers : HeaderRef n → HeaderOctets
  cells : Fin n → MessageCell n
  messageQueue : List (Fin n)
  rx : Fin n → RxPc
  received : Fin n → List HeaderOctets
  dispatched : List Message

inductive HandOverAction (n : Nat)
  | receive (i : Fin n) (packet : HeaderOctets)
  | lose (i : Fin n)
  | storePush (i : Fin n)
  | popDispatch
  deriving DecidableEq

/-- The header after its packet has been dispatched. -/
def HeaderOctets.afterDispatch (p : HeaderOctets) : HeaderOctets :=
  if PacketTypes.ofOctet p.packetType = some .ANNOUNCEMENT then p.nextHop else p

namespace HandOver

variable {n : Nat}

/-- Every thread has its message, the queue is empty; `headers` is what the
header objects hold at first. -/
def start (headers : HeaderRef n → HeaderOctets) : HandOver n :=
  { headers := headers
    cells := fun i => ⟨.message i, interfaceNum i⟩
    messageQueue := []
    rx := fun _ => .receiving
    received := fun _ => []
    dispatched := [] }

/-- One step of a receive thread or of `main`. -/
def step (s : HandOver n) : HandOverAction n → Option (HandOver n)
  | .receive i packet =>
    -- `extractHeader` into the port's packet
    if s.rx i = .receiving then
      some { s with
        headers := Function.update s.headers (.port i) packet
        rx := Function.update s.rx i (.extracted packet) }
    else none
  | .lose i =>
    -- `LossyReceivingPort::receivePacket` returns `NULL`
    match s.rx i with
    | .extracted _ => some { s with rx := Function.update s.rx i .receiving }
    | .receiving => none
  | .storePush i =>
    -- `message->_recvPacket = *recvPkt; messageQueue.push(message)`
    match s.rx i with
    | .extracted packet =>
      some { s with
        cells := Function.update s.cells i { s.cells i with header_ := .port i }
        messageQueue := s.messageQueue ++ [i]
        rx := Function.update s.rx i .receiving
        received := Function.update s.received i (s.received i ++ [packet]) }
    | .receiving => none
  | .popDispatch =>
    match s.messageQueue with
    | i :: rest =>
      let cell := s.cells i
      let packet := s.headers cell.header_
      some { s with
        headers := Function.update s.headers cell.header_ packet.afterDispatch
        messageQueue := rest
        dispatched := s.dispatched ++ [⟨packet, cell._RxInterface_Num⟩] }
    | [] => none

/-- The messages dispatched for interface `i`. -/
def dispatchedOn (s : HandOver n) (i : Fin n) : List HeaderOctets :=
  (s.dispatched.filter fun m => m._RxInterface_Num = interfaceNum i).map Message._recvPacket

/-- What the hand-over is for: every dispatched message names an interface;
the packets dispatched for an interface are the first ones received there, as
they were received and in that order; each of the others has its reference
in the queue. -/
structure ExactlyOnce (s : HandOver n) : Prop where
  interface : ∀ m ∈ s.dispatched, ∃ i : Fin n, m._RxInterface_Num = interfaceNum i
  prefix_received : ∀ i, s.dispatchedOn i <+: s.received i
  length_received : ∀ i,
    (s.received i).length = (s.dispatchedOn i).length + s.messageQueue.count i

end HandOver

/-- The hand-over as a transition system. -/
def handOver (n : Nat) (headers : HeaderRef n → HeaderOctets) :
    Lts (HandOver n) (HandOverAction n) :=
  .ofStep (.start headers) HandOver.step

/-- When a packet arrives, no reference to its interface's cell is queued. -/
def NothingQueued {n : Nat} (s : HandOver n) (a : HandOverAction n) : Prop :=
  match a with
  | .receive i _ => i ∉ s.messageQueue
  | .lose _ | .storePush _ | .popDispatch => True

instance {n : Nat} (s : HandOver n) : (a : HandOverAction n) → Decidable (NothingQueued s a)
  | .receive i _ => inferInstanceAs (Decidable (i ∉ s.messageQueue))
  | .lose _ | .storePush _ | .popDispatch => inferInstanceAs (Decidable True)

/-! ## The invariant of one thread and its cell -/

namespace HandOver

variable {n : Nat} {s : HandOver n} {i j : Fin n} {packet : HeaderOctets}

/-- With at most one reference to a cell in the queue, the cell holds the one
packet that was received and not dispatched. -/
structure ThreadInv (s : HandOver n) (i : Fin n) : Prop where
  num : (s.cells i)._RxInterface_Num = interfaceNum i
  own : (s.cells i).header_.owner = i
  idle : i ∉ s.messageQueue → s.dispatchedOn i = s.received i
  queued : i ∈ s.messageQueue → s.rx i = .receiving ∧
    s.received i = s.dispatchedOn i ++ [s.headers (s.cells i).header_]
  extracted : ∀ packet, s.rx i = .extracted packet → s.headers (.port i) = packet

structure Inv (s : HandOver n) : Prop where
  nodup : s.messageQueue.Nodup
  interface : ∀ m ∈ s.dispatched, ∃ i : Fin n, m._RxInterface_Num = interfaceNum i
  thread : ∀ i, s.ThreadInv i

theorem start_inv (headers : HeaderRef n → HeaderOctets) : (start headers).Inv where
  nodup := List.nodup_nil
  interface := fun _ hm => absurd hm List.not_mem_nil
  thread := fun _ => ⟨rfl, rfl, fun _ => rfl, fun hi => absurd hi List.not_mem_nil,
    fun _ h => by cases h⟩

/-- Writing a header object of one thread leaves the others' alone. -/
theorem update_header_of_owner {r r' : HeaderRef n} (hne : r'.owner ≠ r.owner)
    (headers : HeaderRef n → HeaderOctets) (p : HeaderOctets) :
    Function.update headers r p r' = headers r' := by
  apply Function.update_of_ne
  intro hr
  exact hne (congrArg HeaderRef.owner hr)

/-- The invariant of a thread depends on its own objects only. -/
theorem ThreadInv.frame {s' : HandOver n} (h : s.ThreadInv j) (hcells : s'.cells j = s.cells j)
    (hheaders : ∀ r : HeaderRef n, r.owner = j → s'.headers r = s.headers r)
    (hqueue : j ∈ s'.messageQueue ↔ j ∈ s.messageQueue) (hrx : s'.rx j = s.rx j)
    (hreceived : s'.received j = s.received j)
    (hdispatched : s'.dispatchedOn j = s.dispatchedOn j) : s'.ThreadInv j := by
  obtain ⟨num, own, idle, queued, extracted⟩ := h
  refine ⟨?_, ?_, fun hnot => ?_, fun hin => ?_, fun p hp => ?_⟩
  · rw [hcells]
    exact num
  · rw [hcells]
    exact own
  · rw [hdispatched, hreceived]
    exact idle fun hin => hnot (hqueue.mpr hin)
  · rw [hrx, hreceived, hdispatched, hcells, hheaders _ own]
    exact queued (hqueue.mp hin)
  · rw [hheaders _ rfl]
    rw [hrx] at hp
    exact extracted p hp

/-- A packet that arrives while its cell is not queued disturbs no cell that
is. -/
theorem receive_inv (hi : s.Inv) (hq : i ∉ s.messageQueue) :
    ({ s with
      headers := Function.update s.headers (.port i) packet
      rx := Function.update s.rx i (.extracted packet) } : HandOver n).Inv := by
  refine ⟨hi.nodup, hi.interface, fun j => ?_⟩
  by_cases hj : j = i
  · subst hj
    obtain ⟨num, own, idle, queued, extracted⟩ := hi.thread j
    refine ⟨num, own, idle, fun hmem => absurd hmem hq, fun p hp => ?_⟩
    dsimp only at hp ⊢
    rw [Function.update_self] at hp ⊢
    exact RxPc.extracted.inj hp
  · refine (hi.thread j).frame rfl (fun r hr => ?_) Iff.rfl (Function.update_of_ne hj ..) rfl rfl
    have hne : r.owner ≠ (HeaderRef.port i).owner := hr.trans_ne hj
    exact update_header_of_owner hne ..

theorem lose_inv (hi : s.Inv) :
    ({ s with rx := Function.update s.rx i .receiving } : HandOver n).Inv := by
  refine ⟨hi.nodup, hi.interface, fun j => ?_⟩
  by_cases hj : j = i
  · subst hj
    obtain ⟨num, own, idle, queued, extracted⟩ := hi.thread j
    refine ⟨num, own, idle, fun hmem => ⟨Function.update_self .., (queued hmem).2⟩, ?_⟩
    intro p hp
    dsimp only at hp
    rw [Function.update_self] at hp
    cases hp
  · exact (hi.thread j).frame rfl (fun _ _ => rfl) Iff.rfl (Function.update_of_ne hj ..) rfl rfl

/-- The pushed reference is the only one to its cell. -/
theorem storePush_inv (hi : s.Inv) (hrx : s.rx i = .extracted packet) :
    ({ s with
      cells := Function.update s.cells i { s.cells i with header_ := .port i }
      messageQueue := s.messageQueue ++ [i]
      rx := Function.update s.rx i .receiving
      received := Function.update s.received i (s.received i ++ [packet]) } : HandOver n).Inv := by
  have hq : i ∉ s.messageQueue := by
    intro hmem
    rw [((hi.thread i).queued hmem).1] at hrx
    cases hrx
  refine ⟨?_, hi.interface, fun j => ?_⟩
  · rw [List.nodup_append]
    refine ⟨hi.nodup, List.nodup_singleton i, ?_⟩
    intro a ha b hb
    obtain rfl := List.mem_singleton.mp hb
    intro hab
    exact hq (hab ▸ ha)
  · by_cases hj : j = i
    · subst hj
      obtain ⟨num, own, idle, queued, extracted⟩ := hi.thread j
      have hin : j ∈ s.messageQueue ++ [j] := by simp
      refine ⟨?_, ?_, fun hnot => absurd hin hnot, fun _ => ⟨Function.update_self .., ?_⟩, ?_⟩
      · dsimp only
        rw [Function.update_self]
        exact num
      · dsimp only
        rw [Function.update_self]
        rfl
      · dsimp only [dispatchedOn]
        rw [Function.update_self, Function.update_self, extracted packet hrx, ← idle hq]
        rfl
      · intro p hp
        dsimp only at hp
        rw [Function.update_self] at hp
        cases hp
    · have hmem : j ∈ s.messageQueue ++ [i] ↔ j ∈ s.messageQueue := by simp [hj]
      exact (hi.thread j).frame (Function.update_of_ne hj ..) (fun _ _ => rfl) hmem
        (Function.update_of_ne hj ..) (Function.update_of_ne hj ..) rfl

/-- A dispatched message counts for its own interface only. -/
theorem dispatchedOn_append (l : List Message) (p : HeaderOctets) (k : Int) :
    ({ s with dispatched := l ++ [⟨p, k⟩] } : HandOver n).dispatchedOn i
      = ({ s with dispatched := l } : HandOver n).dispatchedOn i
        ++ if k = interfaceNum i then [p] else [] := by
  unfold dispatchedOn
  rw [List.filter_append, List.map_append]
  by_cases hk : k = interfaceNum i
  · simp [hk]
  · simp [hk]

/-- Main reads the packet that its interface has waiting, and writes to no
header that another interface has in use. -/
theorem popDispatch_inv {rest : List (Fin n)} (hi : s.Inv) (hqueue : s.messageQueue = i :: rest) :
    ({ s with
      headers := Function.update s.headers (s.cells i).header_
        (s.headers (s.cells i).header_).afterDispatch
      messageQueue := rest
      dispatched := s.dispatched
        ++ [⟨s.headers (s.cells i).header_, (s.cells i)._RxInterface_Num⟩] } : HandOver n).Inv := by
  have hnodup := hi.nodup
  rw [hqueue, List.nodup_cons] at hnodup
  have hthread := hi.thread i
  refine ⟨hnodup.2, ?_, fun j => ?_⟩
  · intro m hm
    rcases List.mem_append.mp hm with hm | hm
    · exact hi.interface m hm
    · obtain rfl := List.mem_singleton.mp hm
      exact ⟨i, hthread.num⟩
  · have happ := @dispatchedOn_append n s j s.dispatched
      (s.headers (s.cells i).header_) (s.cells i)._RxInterface_Num
    by_cases hj : j = i
    · subst hj
      obtain ⟨num, own, idle, queued, extracted⟩ := hthread
      have hqueued := queued (hqueue ▸ List.mem_cons_self ..)
      refine ⟨num, own, fun _ => ?_, fun hin => absurd hin hnodup.1, fun p hp => ?_⟩
      · rw [if_pos num] at happ
        exact happ.trans hqueued.2.symm
      · dsimp only at hp
        rw [hqueued.1] at hp
        cases hp
    · have hmem : j ∈ rest ↔ j ∈ s.messageQueue := by rw [hqueue]; simp [hj]
      have hother : (s.cells i)._RxInterface_Num ≠ interfaceNum j := by
        rw [hthread.num, ne_eq, interfaceNum_inj]
        exact Ne.symm hj
      rw [if_neg hother, List.append_nil] at happ
      refine (hi.thread j).frame rfl (fun r hr => ?_) hmem rfl rfl happ
      apply update_header_of_owner
      rw [hr, hthread.own]
      exact hj

/-- Every step that meets the condition keeps the invariant. -/
theorem step_inv {s' : HandOver n} {a : HandOverAction n} (hi : s.Inv) (hok : NothingQueued s a)
    (h : s.step a = some s') : s'.Inv := by
  cases a with
  | receive i packet =>
    simp only [step] at h
    split at h
    next => cases h; exact receive_inv hi hok
    next => cases h
  | lose i =>
    simp only [step] at h
    split at h
    next => cases h; exact lose_inv hi
    next => cases h
  | storePush i =>
    simp only [step] at h
    split at h
    next packet hrx => cases h; exact storePush_inv hi hrx
    next => cases h
  | popDispatch =>
    simp only [step] at h
    split at h
    next i rest hqueue => cases h; exact popDispatch_inv hi hqueue
    next => cases h

/-- What the invariant says about the hand-over. -/
theorem Inv.exactlyOnce (hi : s.Inv) : s.ExactlyOnce := by
  refine ⟨hi.interface, fun i => ?_, fun i => ?_⟩
  · by_cases hmem : i ∈ s.messageQueue
    · rw [((hi.thread i).queued hmem).2]
      exact List.prefix_append ..
    · rw [(hi.thread i).idle hmem]
  · by_cases hmem : i ∈ s.messageQueue
    · rw [((hi.thread i).queued hmem).2, List.count_eq_one_of_mem hi.nodup hmem,
        List.length_append]
      rfl
    · rw [(hi.thread i).idle hmem, List.count_eq_zero_of_not_mem hmem]
      rfl

end HandOver

/-! ## Every run -/

/-- **Every packet is handed over exactly once, as it was received and in
order, along every run in which packets arrive only while nothing is queued
for their interface.** -/
theorem run_handedOver {n : Nat} {headers : HeaderRef n → HeaderOctets}
    {ms : List (Move (HandOver n) (HandOverAction n))} {s : HandOver n}
    (h : (handOver n headers).Run ms s) (hok : ∀ m ∈ ms, NothingQueued m.pre m.act) :
    s.ExactlyOnce ∧ ∀ m ∈ ms, m.post.ExactlyOnce := by
  have hinv : ∀ t, ((handOver n headers).guard NothingQueued).Reachable t → t.Inv := by
    intro t ht
    refine ht.invariant ?_ ?_
    · intro t ht
      rw [ht]
      exact HandOver.start_inv headers
    · intro t a t' hi hs
      exact HandOver.step_inv hi hs.1 hs.2
  have hrun := h.guard hok
  refine ⟨(hinv s hrun.reachable).exactlyOnce, fun m hm => ?_⟩
  obtain ⟨hpre, hs⟩ := hrun.move m hm
  exact (hinv m.post (.step hpre hs)).exactlyOnce

/-- Two requests arrive on an interface before main polls. -/
def twoReceptions (A B : HeaderOctets) : List (HandOverAction 1) :=
  [.receive 0 A, .storePush 0, .receive 0 B, .storePush 0, .popDispatch, .popDispatch]

/-- The second packet is dispatched twice, the first one never. -/
theorem second_overwrites_first :
    ∃ ms s, (handOver 1 fun _ => ⟨0, 0, 0⟩).Run ms s ∧
      s.received 0 = [⟨0x00, 1, 9⟩, ⟨0x00, 2, 9⟩] ∧
      s.dispatched = [⟨⟨0x00, 2, 9⟩, 0⟩, ⟨⟨0x00, 2, 9⟩, 0⟩] ∧ ¬s.ExactlyOnce := by
  have h : trace HandOver.step (.start fun _ => ⟨0, 0, 0⟩)
      (twoReceptions ⟨0x00, 1, 9⟩ ⟨0x00, 2, 9⟩) = some (_, _) := rfl
  refine ⟨_, _, run_of_trace h, rfl, rfl, fun hexact => ?_⟩
  exact absurd (hexact.prefix_received 0) (by decide)

/-- Main pops between the two receptions. -/
def popBetween (A B : HeaderOctets) : List (HandOverAction 1) :=
  [.receive 0 A, .storePush 0, .popDispatch, .receive 0 B, .storePush 0, .popDispatch]

/-- With a pop between the two receptions both are dispatched. -/
theorem both_handed_over :
    ∃ ms s, (handOver 1 fun _ => ⟨0, 0, 0⟩).Run ms s ∧
      s.dispatched = [⟨⟨0x00, 1, 9⟩, 0⟩, ⟨⟨0x00, 2, 9⟩, 0⟩] ∧ s.ExactlyOnce := by
  have h : trace HandOver.step (.start fun _ => ⟨0, 0, 0⟩)
      (popBetween ⟨0x00, 1, 9⟩ ⟨0x00, 2, 9⟩) = some (_, _) := rfl
  exact ⟨_, _, run_of_trace h, rfl, (run_handedOver (run_of_trace h) (by decide)).1⟩

end ContentNetwork.Simplified
