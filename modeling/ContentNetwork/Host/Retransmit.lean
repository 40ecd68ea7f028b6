import ContentNetwork.Lib.Lts
import ContentNetwork.Simplified.Cases

/-!
# The retransmission of requests

A `GET` of the user sends a request and starts a timer of the sending port;
when the timer expires and no response has come, the request is sent again and
the timer started again. All of it works on single slots: the content that is
waited for, the request that was sent last, the flag that its response has
come, and the thread of the timer that was started last.

A second `GET` overwrites the slots, although the first may still wait. Then
two timer threads run, `stopTimer` knows only one of them, and the first
content is neither requested again nor accepted. And a content number is an
`int` in the host but an octet in its request, so the response to a number
above 255 is not recognised. If every `GET` is for an octet and comes while no
timer runs, all is well, and only then (`run_stopAndWait_iff`).

Each handler is one step. Thread identifiers are not used twice.
-/

namespace ContentNetwork.Host

open Lib Lib.Lts Simplified

/-- `content_number` of `host.cpp`, and the part of `mySendingPort` and its
`TxTimer` that the handlers use. `sleeping` are the timer threads that have
been created and neither cancelled nor woken up. -/
structure HostState where
  content_number : Int
  ackflag_ : Bool
  lastPkt_ : Option HeaderOctets
  tid_ : Nat
  sleeping : List Nat
  nextThread : Nat
  deriving DecidableEq, Repr

namespace HostState

/-- A host that starts. Nothing initialises the flag. -/
def start (ackflag : Bool) : HostState := ⟨-1, ackflag, none, 0, [], 0⟩

/-- `TxTimer::startTimer`. -/
def startTimer (h : HostState) : HostState :=
  { h with
    tid_ := h.nextThread
    sleeping := h.sleeping ++ [h.nextThread]
    nextThread := h.nextThread + 1 }

/-- `thread` sleeps no more: it was cancelled, or its sleep is over. -/
def wake (h : HostState) (thread : Nat) : HostState :=
  { h with sleeping := h.sleeping.filter (· ≠ thread) }

/-- `TxTimer::stopTimer`. -/
def stopTimer (h : HostState) : HostState := h.wake h.tid_

/-- `mySendingPort::timerHandler`, and what it sends. -/
def timerHandler (h : HostState) : HostState × List HeaderOctets :=
  if h.ackflag_ = false then (h.startTimer, h.lastPkt_.toList) else (h, [])

/-- `TxTimer::timerProc` of a thread after its sleep. -/
def timerProc (h : HostState) (thread : Nat) : HostState × List HeaderOctets :=
  (h.wake thread).timerHandler

/-- The octets of the request that host `hostID` sends for content `var1`. -/
def requestFor (hostID var1 : Int) : HeaderOctets :=
  octets .REQUEST (UInt8.ofInt var1) (UInt8.ofInt hostID)

/-- They are the octets that `MakeRequestPacket` writes, into any packet. -/
theorem MakeRequestPacket_octets (hostID var1 : Int) (p : Packet) :
    HeaderOctets.mk ((MakeRequestPacket p var1 hostID).header_.getOctet PACKET_TYPE_POS)
        ((MakeRequestPacket p var1 hostID).header_.getOctet CONTENTID_POS)
        ((MakeRequestPacket p var1 hostID).header_.getOctet HOSTID_OR_HOPS_POS)
      = requestFor hostID var1 :=
  makeHeader_octets .REQUEST var1 hostID p

/-- `GET` of `main`, and what it sends. -/
def GET (hostID : Int) (h : HostState) (var1 : Int) : HostState × List HeaderOctets :=
  let data_req_packet := requestFor hostID var1
  (({ h with
      content_number := var1
      lastPkt_ := some data_req_packet
      ackflag_ := false } : HostState).startTimer, [data_req_packet])

/-- The `RESPONSE` branch of `rxthread` for a response with content octet
`octet`, and whether it saves the content. -/
def receiveResponse (h : HostState) (octet : UInt8) : HostState × Bool :=
  if (octet.toNat : Int) = h.content_number then
    (({ h with ackflag_ := true } : HostState).stopTimer, true)
  else (h, false)

end HostState

/-- What happens to the host. -/
inductive HostAction
  | GET (var1 : Int)
  | RESPONSE (octet : UInt8)
  | expire (thread : Nat)
  deriving DecidableEq, Repr

/-- One action; `none` for the expiry of a thread that does not sleep. -/
def hostStep (hostID : Int) (h : HostState) : HostAction → Option HostState
  | .GET var1 => some (h.GET hostID var1).1
  | .RESPONSE octet => some (h.receiveResponse octet).1
  | .expire thread => if thread ∈ h.sleeping then some (h.timerProc thread).1 else none

/-- The contents that the user wanted and that have not been saved since. -/
def waitingAfter (waiting : List Int) (h : HostState) : HostAction → List Int
  | .GET var1 => var1 :: waiting
  | .RESPONSE octet =>
    if (h.receiveResponse octet).2 then waiting.filter (· ≠ (octet.toNat : Int)) else waiting
  | .expire _ => waiting

/-- The host with the contents it waits for. -/
def hostSystem (hostID : Int) (ackflag : Bool) : Lts (HostState × List Int) HostAction :=
  (Lts.ofStep (.start ackflag) (hostStep hostID)).observe [] waitingAfter

/-- At most one timer runs, none after a response is accepted, and each content
that is waited for is requested again when a timer expires and accepted when
it comes. -/
structure StopAndWait (hostID : Int) (s : HostState × List Int) : Prop where
  one_timer : s.1.sleeping.length ≤ 1
  stopped : ∀ octet, (s.1.receiveResponse octet).2 = true →
    (s.1.receiveResponse octet).1.sleeping = []
  waits : s.2 ≠ [] → s.1.sleeping ≠ []
  resent : ∀ c ∈ s.2, ∀ thread ∈ s.1.sleeping,
    HostState.requestFor hostID c ∈ (s.1.timerProc thread).2
  saved : ∀ c ∈ s.2, (s.1.receiveResponse (UInt8.ofInt c)).2 = true

/-- A `GET` is for an octet, and no timer runs when it is given. -/
def InTurn (m : Move (HostState × List Int) HostAction) : Prop :=
  match m.act with
  | .GET var1 => 0 ≤ var1 ∧ var1 ≤ 255 ∧ m.pre.1.sleeping = []
  | _ => True

instance : DecidablePred InTurn
  | ⟨s, .GET var1, _⟩ => inferInstanceAs (Decidable (0 ≤ var1 ∧ var1 ≤ 255 ∧ s.1.sleeping = []))
  | ⟨_, .RESPONSE _, _⟩ => .isTrue trivial
  | ⟨_, .expire _, _⟩ => .isTrue trivial

variable {hostID : Int} {ackflag : Bool} {h : HostState} {waiting : List Int}
  {s s' : HostState × List Int} {a : HostAction}

/-! ## What the slots say -/

/-- The host waits for nothing and has no timer, or waits for one content with
one timer and with all slots set to it. -/
inductive Slots (hostID : Int) : HostState × List Int → Prop
  | idle {h : HostState} : h.sleeping = [] → Slots hostID (h, [])
  | waiting {h : HostState} {c : Int} :
      0 ≤ c → c ≤ 255 → h.content_number = c → h.ackflag_ = false →
      h.lastPkt_ = some (HostState.requestFor hostID c) → h.sleeping = [h.tid_] →
      Slots hostID (h, [c])

/-- The slots after a `GET` that comes in turn. -/
theorem slots_GET {var1 : Int} (h0 : 0 ≤ var1) (h1 : var1 ≤ 255) (hidle : h.sleeping = []) :
    Slots hostID ((h.GET hostID var1).1, [var1]) := by
  refine .waiting h0 h1 rfl rfl rfl ?_
  show h.sleeping ++ [h.nextThread] = [h.nextThread]
  rw [hidle, List.nil_append]

/-- A timer that expires leaves one timer, and sends the request. -/
theorem timerProc_waiting {c : Int} (hack : h.ackflag_ = false)
    (hlast : h.lastPkt_ = some (HostState.requestFor hostID c)) (hone : h.sleeping = [h.tid_]) :
    (h.timerProc h.tid_).2 = [HostState.requestFor hostID c] ∧
      (h.timerProc h.tid_).1.sleeping = [(h.timerProc h.tid_).1.tid_] := by
  have hwake : (h.wake h.tid_).sleeping = [] := by
    unfold HostState.wake
    rw [hone]
    simp
  unfold HostState.timerProc HostState.timerHandler
  rw [if_pos (show (h.wake h.tid_).ackflag_ = false from hack)]
  constructor
  · show h.lastPkt_.toList = _
    rw [hlast]
    rfl
  · show (h.wake h.tid_).sleeping ++ [h.nextThread] = [h.nextThread]
    rw [hwake, List.nil_append]

/-- A response that is accepted. -/
theorem receiveResponse_accepted {octet : UInt8} (ho : (octet.toNat : Int) = h.content_number) :
    h.receiveResponse octet = (({ h with ackflag_ := true } : HostState).stopTimer, true) :=
  if_pos ho

/-- A response that is not. -/
theorem receiveResponse_other {octet : UInt8} (ho : (octet.toNat : Int) ≠ h.content_number) :
    h.receiveResponse octet = (h, false) :=
  if_neg ho

/-- With the slots in order, a response that is accepted stops the timer. -/
theorem sleeping_of_accepted (hslots : Slots hostID (h, waiting)) {octet : UInt8}
    (hsaved : (h.receiveResponse octet).2 = true) :
    (h.receiveResponse octet).1.sleeping = [] := by
  by_cases ho : (octet.toNat : Int) = h.content_number
  · rw [receiveResponse_accepted ho]
    show h.sleeping.filter (· ≠ h.tid_) = []
    cases hslots with
    | idle hidle =>
      rw [hidle]
      rfl
    | waiting _ _ _ _ _ hone =>
      rw [hone]
      simp
  · rw [receiveResponse_other ho] at hsaved
    cases hsaved

/-- The slots after a response. -/
theorem slots_RESPONSE (hslots : Slots hostID (h, waiting)) (octet : UInt8) :
    Slots hostID ((h.receiveResponse octet).1, waitingAfter waiting h (.RESPONSE octet)) := by
  show Slots hostID (_, if (h.receiveResponse octet).2 then _ else _)
  by_cases ho : (octet.toNat : Int) = h.content_number
  · have hsaved : (h.receiveResponse octet).2 = true := by rw [receiveResponse_accepted ho]
    have hgone : waiting.filter (· ≠ (octet.toNat : Int)) = [] := by
      cases hslots with
      | idle => rfl
      | waiting _ _ hc =>
        rw [ho, hc]
        simp
    rw [if_pos hsaved, hgone]
    exact .idle (sleeping_of_accepted hslots hsaved)
  · rw [receiveResponse_other ho, if_neg Bool.false_ne_true]
    exact hslots

/-- The slots after an expiry. -/
theorem slots_expire (hslots : Slots hostID (h, waiting)) {thread : Nat}
    (hin : thread ∈ h.sleeping) : Slots hostID ((h.timerProc thread).1, waiting) := by
  cases hslots with
  | idle hidle =>
    rw [hidle] at hin
    cases hin
  | waiting h0 h1 hc hack hlast hone =>
    rw [hone, List.mem_singleton] at hin
    subst hin
    -- the flag is not set, so the handler starts the timer again
    obtain ⟨-, hone'⟩ := timerProc_waiting hack hlast hone
    have hrestart : (h.timerProc h.tid_).1 = (h.wake h.tid_).startTimer := by
      unfold HostState.timerProc HostState.timerHandler
      rw [if_pos (show (h.wake h.tid_).ackflag_ = false from hack)]
    rw [hrestart] at hone' ⊢
    exact .waiting h0 h1 hc hack hlast hone'

/-- Every action in turn keeps the slots in order. -/
theorem slots_step (hslots : Slots hostID s) (hstep : (hostSystem hostID ackflag).step s a s')
    (hturn : InTurn ⟨s, a, s'⟩) : Slots hostID s' := by
  obtain ⟨h, waiting⟩ := s
  obtain ⟨h', waiting'⟩ := s'
  obtain ⟨hs, hw⟩ := hstep
  dsimp only at hs hw
  subst hw
  cases a with
  | GET var1 =>
    obtain rfl := Option.some.inj hs
    obtain ⟨h0, h1, hidle⟩ := hturn
    cases hslots with
    | idle => exact slots_GET h0 h1 hidle
    | waiting _ _ _ _ _ hone =>
      rw [hone] at hidle
      cases hidle
  | RESPONSE octet =>
    obtain rfl := Option.some.inj hs
    exact slots_RESPONSE hslots octet
  | expire thread =>
    change (if thread ∈ h.sleeping then some (h.timerProc thread).1 else none) = some h' at hs
    split at hs
    next hin =>
      obtain rfl := Option.some.inj hs
      exact slots_expire hslots hin
    next => cases hs

/-- The slots say all that is claimed. -/
theorem stopAndWait_of_slots (hslots : Slots hostID s) : StopAndWait hostID s := by
  obtain ⟨h, waiting⟩ := s
  have hstopped : ∀ octet, (h.receiveResponse octet).2 = true →
      (h.receiveResponse octet).1.sleeping = [] := fun _ => sleeping_of_accepted hslots
  cases hslots with
  | idle hidle =>
    -- nothing is waited for
    refine ⟨?_, hstopped, fun hne => absurd rfl hne, fun c hc => ?_, fun c hc => ?_⟩
    · show h.sleeping.length ≤ 1
      rw [hidle]
      exact Nat.zero_le 1
    · exact absurd hc List.not_mem_nil
    · exact absurd hc List.not_mem_nil
  | @waiting _ c h0 h1 hc hack hlast hone =>
    refine ⟨?_, hstopped, fun _ => ?_, fun c' hc' thread hthread => ?_, fun c' hc' => ?_⟩
    · show h.sleeping.length ≤ 1
      rw [hone]
      exact Nat.le_refl 1
    · show h.sleeping ≠ []
      rw [hone]
      exact List.cons_ne_nil _ _
    · obtain rfl := List.mem_singleton.mp hc'
      dsimp only at hthread ⊢
      rw [hone, List.mem_singleton] at hthread
      rw [hthread, (timerProc_waiting hack hlast hone).1]
      exact List.mem_singleton_self _
    · obtain rfl := List.mem_singleton.mp hc'
      rw [receiveResponse_accepted ((toNat_ofInt h0 h1).trans hc.symm)]

/-! ## Runs -/

/-- A run whose `GET`s all come in turn keeps the slots. -/
theorem run_slots {ms : List (Move (HostState × List Int) HostAction)}
    (hrun : (hostSystem hostID ackflag).Run ms s) (hturn : ∀ m ∈ ms, InTurn m) :
    Slots hostID s ∧ ∀ m ∈ ms, Slots hostID m.post := by
  induction hrun with
  | @start s hs =>
    obtain ⟨h, waiting⟩ := s
    obtain ⟨hs, hw⟩ := hs
    dsimp only at hs hw
    subst hs hw
    exact ⟨.idle rfl, fun m hm => absurd hm List.not_mem_nil⟩
  | @snoc ms s s' a hrun hs ih =>
    obtain ⟨hslots, hposts⟩ := ih fun m hm => hturn m (List.mem_append_left _ hm)
    have hslots' := slots_step hslots hs
      (hturn ⟨s, a, s'⟩ List.mem_concat_self)
    refine ⟨hslots', fun m hm => ?_⟩
    rcases List.mem_append.mp hm with hm | hm
    · exact hposts m hm
    · obtain rfl := List.mem_singleton.mp hm
      exact hslots'

/-- A `GET` out of turn is seen at once: in a second timer, or in a response
that is not accepted. -/
theorem inTurn_of_stopAndWait {m : Move (HostState × List Int) HostAction}
    (hstep : (hostSystem hostID ackflag).step m.pre m.act m.post)
    (hpost : StopAndWait hostID m.post) : InTurn m := by
  obtain ⟨⟨h, waiting⟩, a, ⟨h', waiting'⟩⟩ := m
  obtain ⟨hs, hw⟩ := hstep
  dsimp only at hs hw hpost
  subst hw
  cases a with
  | GET var1 =>
    obtain rfl := Option.some.inj hs
    -- the new content waits and the new timer sleeps, whatever came before
    obtain ⟨hone, -, -, -, hsaved⟩ := hpost
    have hidle : h.sleeping = [] := by
      change (h.sleeping ++ [h.nextThread]).length ≤ 1 at hone
      rw [List.length_append, List.length_singleton] at hone
      exact List.length_eq_zero_iff.mp (by omega)
    have hoctet : ((UInt8.ofInt var1).toNat : Int) = var1 := by
      by_contra hne
      have h := hsaved var1 (List.mem_cons_self ..)
      rw [receiveResponse_other hne] at h
      cases h
    have := (UInt8.ofInt var1).toNat_lt
    exact ⟨by omega, by omega, hidle⟩
  | RESPONSE octet => exact trivial
  | expire thread => exact trivial

/-- **The retransmission is consistent all along a run iff every `GET` is for an
octet and comes while no timer runs.** -/
theorem run_stopAndWait_iff {ms : List (Move (HostState × List Int) HostAction)}
    (hrun : (hostSystem hostID ackflag).Run ms s) :
    (∀ m ∈ ms, StopAndWait hostID m.post) ↔ ∀ m ∈ ms, InTurn m := by
  constructor
  · intro hall m hm
    exact inTurn_of_stopAndWait (hrun.move m hm).2 (hall m hm)
  · intro hturn m hm
    exact stopAndWait_of_slots ((run_slots hrun hturn).2 m hm)

/-- Content 7 is requested twice, its response comes, and content 8 is next. -/
theorem stopAndWait_in_turn :
    ∃ ms s, (hostSystem 10 true).Run ms s ∧ s.1.sleeping.length = 1 ∧
      ∀ m ∈ ms, StopAndWait 10 m.post := by
  have htrace : trace (observeStep (hostStep 10) waitingAfter) (.start true, [])
      [.GET 7, .expire 0, .RESPONSE 7, .GET 8] = some (_, _) := rfl
  have hrun : (hostSystem 10 true).Run _ _ := observe_run_of_trace htrace
  exact ⟨_, _, hrun, rfl, (run_stopAndWait_iff hrun).mpr (by decide)⟩

/-- Content 8 is requested while content 7 has not come: two timers run, and
content 7 is not accepted any more. -/
theorem get_while_waiting :
    ∃ s, (hostSystem 10 true).Reachable s ∧ s.1.sleeping = [0, 1] ∧ s.2 = [8, 7] ∧
      ¬StopAndWait 10 s := by
  have htrace : trace (observeStep (hostStep 10) waitingAfter) (.start true, [])
      [.GET 7, .GET 8] = some (_, _) := rfl
  have hrun : (hostSystem 10 true).Run _ _ := observe_run_of_trace htrace
  refine ⟨_, hrun.reachable, rfl, rfl, fun hconsistent => ?_⟩
  have hone : (2 : Nat) ≤ 1 := hconsistent.one_timer
  omega

end ContentNetwork.Host
