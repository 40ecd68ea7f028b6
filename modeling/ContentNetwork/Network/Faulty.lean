import ContentNetwork.Network.AnnouncementFlood

/-!
# Unreliable links

Routers and hosts talk over UDP, and `LossyReceivingPort` drops what it
receives at random: a packet in flight may be lost, or delivered twice
(`FaultyEvent`). The timer may age the pending table of a router at any time. Its
passes over the routing tables are left out here, so that no routing record
expires.
-/

namespace ContentNetwork.Network

open Lib Simplified

/-- An event of the network, a fault of a link, or a pass of a router's timer
over its pending table. -/
inductive FaultyEvent (R H : Type*)
  | event (e : Event H)
  | lose (k : Nat)
  | duplicate (k : Nat)
  | timerPending (r : R)
  deriving DecidableEq

namespace Topology

variable {R H : Type*} [DecidableEq R] (T : Topology R H)

/-- One event of the lossy network. -/
def faultyStep (s : State R H) : FaultyEvent R H → Option (State R H)
  | .event e => T.step s e
  | .lose k =>
    s.inFlight[k]?.map fun _ => { s with inFlight := s.inFlight.eraseIdx k }
  | .duplicate k =>
    s.inFlight[k]?.map fun x => { s with inFlight := s.inFlight ++ [x] }
  | .timerPending r =>
    (Simplified.timerPending (s.tables r).PendingRequestTable).map fun l =>
      { s with
        tables := Function.update s.tables r { s.tables r with PendingRequestTable := l } }

/-- The network of routers that have just been started, on unreliable links. -/
def lossyNetwork : Lts (State R H) (FaultyEvent R H) :=
  .ofStep ⟨fun _ => .empty, [], []⟩ T.faultyStep

/-- What each event does. -/
inductive FaultyStep (s : State R H) : FaultyEvent R H → State R H → Prop
  | event {e : Event H} {s' : State R H} : T.Step s e s' → FaultyStep s (.event e) s'
  | lose {before after : List (Envelope R H)} {x : Envelope R H} :
      s.inFlight = before ++ x :: after →
      FaultyStep s (.lose before.length) { s with inFlight := before ++ after }
  | duplicate {k : Nat} {x : Envelope R H} : x ∈ s.inFlight →
      FaultyStep s (.duplicate k) { s with inFlight := s.inFlight ++ [x] }
  | timerPending {r : R} {l : List PRTrecord} :
      Simplified.timerPending (s.tables r).PendingRequestTable = some l →
      FaultyStep s (.timerPending r) { s with
        tables := Function.update s.tables r { s.tables r with PendingRequestTable := l } }

variable {T} {s s' : State R H} {e : FaultyEvent R H}

/-- The inversion lemma: every event is one of the four. -/
theorem faultyStep_cases (h : T.faultyStep s e = some s') : T.FaultyStep s e s' := by
  cases e with
  | event e => exact .event (step_cases h)
  | lose k =>
    obtain ⟨x, hk, rfl⟩ := Option.map_eq_some_iff.mp h
    obtain ⟨before, after, hsplit, rfl, herase⟩ := split_at hk
    rw [herase]
    exact .lose hsplit
  | duplicate k =>
    obtain ⟨x, hk, rfl⟩ := Option.map_eq_some_iff.mp h
    exact .duplicate (List.mem_of_getElem? hk)
  | timerPending r =>
    obtain ⟨l, hl, rfl⟩ := Option.map_eq_some_iff.mp h
    exact .timerPending hl

end Topology

variable {R H : Type*} [DecidableEq R] {T : Topology R H} {s s' : State R H} {e : FaultyEvent R H}

theorem faultyStep_unique (hu : UniqueTables s.tables) (h : T.FaultyStep s e s') :
    UniqueTables s'.tables := by
  cases h with
  | event h => exact step_unique hu h
  | lose => exact hu
  | duplicate => exact hu
  | @timerPending r l hl =>
    intro r'
    show Keyed.Unique _ (Function.update s.tables r _ r').RoutingTable
    by_cases hr : r' = r
    · rw [hr, Function.update_self]
      exact hu r
    · rw [Function.update_of_ne hr]
      exact hu r'

end ContentNetwork.Network
