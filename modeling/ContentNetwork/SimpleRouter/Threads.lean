import ContentNetwork.Lib.Threads
import ContentNetwork.SimpleRouter.Cases

/-!
# The receive threads of `simple_router`

`simple_router` has a receive thread for each interface and no other that
touches the tables. A thread takes a packet, copies the pending table under
`mutex_prt` and then the routing table under `mutex_rt`, goes through the
`switch` up to the lock, and commits to the shared tables under one of the
two mutexes. A section under a mutex is one step, and the threads run
interleaved in any way.

A thread clears its copies at the end of each turn, so unlike `main` of
`router.cpp` it never copies behind leftovers. A packet that is lost on
reception changes nothing and has no step. After an uncaught
`std::out_of_range` a thread is `terminated`; in truth the process ends then,
so letting the others go on only adds behaviours. It never happens
(`reachable_inRange`).
-/

namespace ContentNetwork.SimpleRouter

open Lib Lib.Lts
open Simplified (PRTrecord Tables HeaderOctets Message Sent)

/-- What a receive thread does next. -/
inductive RxPc
  | receive
  | copyPending (p_message : Message)
  | copyRouting (p_message : Message)
  | dispatch (p_message : Message)
  | commit (p_message : Message) (work : Work)
  | terminated
  deriving DecidableEq, Repr

/-- A receive thread, with `RoutingTable_local` and `PendingRequestTable_local`. -/
structure RxThread where
  pc : RxPc
  cache : Tables
  deriving DecidableEq, Repr

inductive RxAction
  | receive (packet : HeaderOctets)
  | copyPending
  | copyRouting
  | dispatch (uninitialized : PRTrecord)
  | commit
  deriving DecidableEq, Repr

/-- `rx_function` of interface `i`, section by section, on the shared tables. -/
def rx_function (n : Nat) (i : Fin n) (shared : Tables) (s : RxThread) :
    RxAction → Option (Tables × RxThread)
  | .receive packet =>
    match s.pc with
    | .receive => some (shared, { s with pc := .copyPending ⟨packet, (i : Nat)⟩ })
    | _ => none
  | .copyPending =>
    match s.pc with
    | .copyPending p_message =>
      some (shared,
        { cache := { s.cache with
            PendingRequestTable := s.cache.PendingRequestTable ++ shared.PendingRequestTable }
          pc := .copyRouting p_message })
    | _ => none
  | .copyRouting =>
    match s.pc with
    | .copyRouting p_message =>
      some (shared,
        { cache := { s.cache with RoutingTable := s.cache.RoutingTable ++ shared.RoutingTable }
          pc := .dispatch p_message })
    | _ => none
  | .dispatch uninitialized =>
    match s.pc with
    | .dispatch p_message =>
      match SimpleRouter.dispatch n uninitialized s.cache p_message with
      | some (_, work) => some (shared, { s with pc := .commit p_message work })
      | none => some (shared, { s with pc := .terminated })
    | _ => none
  | .commit =>
    match s.pc with
    | .commit _ work => some (work.commit shared, ⟨.receive, ⟨[], []⟩⟩)
    | _ => none

/-- The shared tables and the receive threads. -/
abbrev RouterState (n : Nat) := Threads (Fin n) Tables RxThread

def start (n : Nat) : RouterState n := ⟨⟨[], []⟩, fun _ => ⟨.receive, ⟨[], []⟩⟩⟩

/-- `simple_router` with `n` interfaces as a transition system. -/
def router (n : Nat) : Lts (RouterState n) (Fin n × RxAction) :=
  Threads.system (start n) (rx_function n)

/-- What each section of a thread does, with the condition under which it is
entered. -/
inductive RxStep (n : Nat) (i : Fin n) (shared : Tables) (s : RxThread) :
    RxAction → Tables → RxThread → Prop
  | receive {packet : HeaderOctets} : s.pc = .receive →
      RxStep n i shared s (.receive packet) shared
        { s with pc := .copyPending ⟨packet, (i : Nat)⟩ }
  | copyPending {m : Message} : s.pc = .copyPending m →
      RxStep n i shared s .copyPending shared
        { cache := { s.cache with
            PendingRequestTable := s.cache.PendingRequestTable ++ shared.PendingRequestTable }
          pc := .copyRouting m }
  | copyRouting {m : Message} : s.pc = .copyRouting m →
      RxStep n i shared s .copyRouting shared
        { cache := { s.cache with RoutingTable := s.cache.RoutingTable ++ shared.RoutingTable }
          pc := .dispatch m }
  | dispatch {uninitialized : PRTrecord} {m : Message} {sent : List Sent} {work : Work} :
      s.pc = .dispatch m →
      SimpleRouter.dispatch n uninitialized s.cache m = some (sent, work) →
      RxStep n i shared s (.dispatch uninitialized) shared { s with pc := .commit m work }
  | throws {uninitialized : PRTrecord} {m : Message} : s.pc = .dispatch m →
      SimpleRouter.dispatch n uninitialized s.cache m = none →
      RxStep n i shared s (.dispatch uninitialized) shared { s with pc := .terminated }
  | commit {m : Message} {work : Work} : s.pc = .commit m work →
      RxStep n i shared s .commit (work.commit shared) ⟨.receive, ⟨[], []⟩⟩

/-- The inversion lemma: every step of a thread is one of the six. -/
theorem rx_function_cases {n : Nat} {i : Fin n} {shared shared' : Tables} {s s' : RxThread}
    {a : RxAction} (h : rx_function n i shared s a = some (shared', s')) :
    RxStep n i shared s a shared' s' := by
  cases a with
  | receive packet =>
    simp only [rx_function] at h
    split at h
    next hpc => cases h; exact .receive hpc
    next => cases h
  | copyPending =>
    simp only [rx_function] at h
    split at h
    next hpc => cases h; exact .copyPending hpc
    next => cases h
  | copyRouting =>
    simp only [rx_function] at h
    split at h
    next hpc => cases h; exact .copyRouting hpc
    next => cases h
  | dispatch uninitialized =>
    simp only [rx_function] at h
    split at h
    next m hpc =>
      split at h
      next sent work hd => cases h; exact .dispatch hpc hd
      next hd => cases h; exact .throws hpc hd
    next => cases h
  | commit =>
    simp only [rx_function] at h
    split at h
    next hpc => cases h; exact .commit hpc
    next => cases h

/-- One turn of a thread: a packet from its arrival to the end of its locked
section. -/
def turn (packet : HeaderOctets) (uninitialized : PRTrecord) : List RxAction :=
  [.receive packet, .copyPending, .copyRouting, .dispatch uninitialized, .commit]

/-- A turn with no other thread in between is `handlePacket`. -/
theorem alone_turn {n : Nat} (i : Fin n) (t : Tables) (packet : HeaderOctets)
    (uninitialized : PRTrecord) :
    Threads.alone (rx_function n) i (t, ⟨.receive, ⟨[], []⟩⟩) (turn packet uninitialized)
      = (handlePacket n uninitialized t ⟨packet, (i : Nat)⟩).map fun r =>
          (r.1, ⟨.receive, ⟨[], []⟩⟩) := by
  unfold handlePacket
  simp only [turn, Threads.alone, rx_function, Option.bind_some, List.nil_append]
  cases SimpleRouter.dispatch n uninitialized t ⟨packet, (i : Nat)⟩ with
  | none => rfl
  | some r => rfl

/-- So the whole router gets from one state to the next by `handlePacket`. -/
theorem leads_handlePacket {n : Nat} {i : Fin n} {s : RouterState n} {t : Tables}
    {packet : HeaderOctets} {uninitialized : PRTrecord} {sent : List Sent}
    (hi : s.threads i = ⟨.receive, ⟨[], []⟩⟩)
    (h : handlePacket n uninitialized s.shared ⟨packet, (i : Nat)⟩ = some (t, sent)) :
    (router n).Leads s ⟨t, s.threads⟩ := by
  have hturn : Threads.alone (rx_function n) i (s.shared, s.threads i) (turn packet uninitialized)
      = some (t, s.threads i) := by
    rw [hi, alone_turn, h]
    rfl
  have hleads := @Threads.leads_alone _ _ _ _ _ (start n) _ _ _ _ _ _ hturn
  rw [Function.update_eq_self] at hleads
  exact hleads

end ContentNetwork.SimpleRouter
