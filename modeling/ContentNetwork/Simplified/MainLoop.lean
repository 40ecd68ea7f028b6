import ContentNetwork.Lib.Lts
import ContentNetwork.Simplified.Cases

/-!
# `main` and the timer thread, section by section

The simplified router runs `main` and `timer_function` concurrently over the
two shared tables. A section under a mutex is one step; everything `main`
does between two sections touches only its own variables and is joined to a
step of its own:

  copy PRT | copy RT | sleep, pop, dispatch | commit, clear the copies

`idle` is a failed pop: `continue` goes back to the top of the loop and does
*not* clear the copies, so that the next iteration appends to them. The
message that `dispatch` pops is arbitrary, up to its arrival interface, which
is one of the configured interfaces because only their receive threads push.

The timer enters its two sections in turn; its ten seconds of sleep are the
freedom to take its steps at any time. `step` is the step function, `Step`
lists what each action does, and `router` is the transition system whose runs
are the interleavings. After an uncaught `std::out_of_range` main is
`terminated`; letting the timer go on from there only adds behaviours.
-/

namespace ContentNetwork.Simplified

open Lib

/-- What `main` does next. -/
inductive MainPc
  | copyPending
  | copyRouting
  | poll
  | commit (p_message : Message) (work : Work)
  | terminated
  deriving DecidableEq, Repr

/-- The section the timer enters next. -/
inductive TimerPc
  | routing
  | pending
  deriving DecidableEq, Repr

/-- The shared tables, main's copies (`RoutingTable_local`,
`PendingRequestTable_local`), and where the two threads are. -/
structure RouterState where
  shared : Tables
  cache : Tables
  main : MainPc
  timer : TimerPc
  deriving DecidableEq, Repr

inductive Action
  | copyPending
  | copyRouting
  | idle
  | dispatch (p_message : Message)
  | commit
  | timerRouting
  | timerPending
  deriving DecidableEq, Repr

def Tables.empty : Tables := ⟨[], []⟩

def RouterState.start : RouterState :=
  { shared := .empty, cache := .empty, main := .copyPending, timer := .routing }

/-- One action of a router with `n` configured interfaces; `none` when the
action is not the next one of its thread. -/
def step (n : Nat) (s : RouterState) : Action → Option RouterState
  | .copyPending =>
    if s.main = .copyPending then
      some { s with
        cache := { s.cache with
          PendingRequestTable :=
            s.cache.PendingRequestTable ++ s.shared.PendingRequestTable }
        main := .copyRouting }
    else none
  | .copyRouting =>
    if s.main = .copyRouting then
      some { s with
        cache := { s.cache with
          RoutingTable := s.cache.RoutingTable ++ s.shared.RoutingTable }
        main := .poll }
    else none
  | .idle =>
    if s.main = .poll then some { s with main := .copyPending } else none
  | .dispatch p_message =>
    if s.main = .poll ∧ 0 ≤ p_message._RxInterface_Num ∧ p_message._RxInterface_Num < n then
      match Simplified.dispatch n s.cache p_message with
      | some (_, work) => some { s with main := .commit p_message work }
      | none => some { s with main := .terminated }
    else none
  | .commit =>
    match s.main with
    | .commit _ work =>
      some { s with shared := work.commit s.shared, cache := .empty, main := .copyPending }
    | _ => none
  | .timerRouting =>
    if s.timer = .routing then
      (timerRouting s.shared.RoutingTable).map fun t =>
        { s with shared := { s.shared with RoutingTable := t }, timer := .pending }
    else none
  | .timerPending =>
    if s.timer = .pending then
      (timerPending s.shared.PendingRequestTable).map fun t =>
        { s with shared := { s.shared with PendingRequestTable := t }, timer := .routing }
    else none

/-- The router as a transition system. -/
def router (n : Nat) : Lts RouterState Action :=
  .ofStep .start (step n)

/-- What each action does, with the condition under which it is taken. -/
inductive Step (n : Nat) (s : RouterState) : Action → RouterState → Prop
  | copyPending : s.main = .copyPending →
      Step n s .copyPending { s with
        cache := { s.cache with
          PendingRequestTable :=
            s.cache.PendingRequestTable ++ s.shared.PendingRequestTable }
        main := .copyRouting }
  | copyRouting : s.main = .copyRouting →
      Step n s .copyRouting { s with
        cache := { s.cache with
          RoutingTable := s.cache.RoutingTable ++ s.shared.RoutingTable }
        main := .poll }
  | idle : s.main = .poll → Step n s .idle { s with main := .copyPending }
  | dispatch {m : Message} {sent : List Sent} {work : Work} : s.main = .poll →
      0 ≤ m._RxInterface_Num → m._RxInterface_Num < n →
      Simplified.dispatch n s.cache m = some (sent, work) →
      Step n s (.dispatch m) { s with main := .commit m work }
  | throws {m : Message} : s.main = .poll →
      Simplified.dispatch n s.cache m = none →
      Step n s (.dispatch m) { s with main := .terminated }
  | commit {m : Message} {work : Work} : s.main = .commit m work →
      Step n s .commit
        { s with shared := work.commit s.shared, cache := .empty, main := .copyPending }
  | timerRouting {t : List RTrecord} : s.timer = .routing →
      Simplified.timerRouting s.shared.RoutingTable = some t →
      Step n s .timerRouting
        { s with shared := { s.shared with RoutingTable := t }, timer := .pending }
  | timerPending {t : List PRTrecord} : s.timer = .pending →
      Simplified.timerPending s.shared.PendingRequestTable = some t →
      Step n s .timerPending
        { s with shared := { s.shared with PendingRequestTable := t }, timer := .routing }

/-- The inversion lemma: every step is one of the eight. -/
theorem step_cases {n : Nat} {s s' : RouterState} {a : Action} (h : step n s a = some s') :
    Step n s a s' := by
  cases a with
  | copyPending =>
    simp only [step] at h
    split at h
    next hpc => cases h; exact .copyPending hpc
    next => cases h
  | copyRouting =>
    simp only [step] at h
    split at h
    next hpc => cases h; exact .copyRouting hpc
    next => cases h
  | idle =>
    simp only [step] at h
    split at h
    next hpc => cases h; exact .idle hpc
    next => cases h
  | dispatch m =>
    simp only [step] at h
    split at h
    next hpc =>
      split at h
      next sent work hd => cases h; exact .dispatch hpc.1 hpc.2.1 hpc.2.2 hd
      next hd => cases h; exact .throws hpc.1 hd
    next => cases h
  | commit =>
    simp only [step] at h
    split at h
    next m work hpc => cases h; exact .commit hpc
    next => cases h
  | timerRouting =>
    simp only [step] at h
    split at h
    next hpc =>
      obtain ⟨t, ht, rfl⟩ := Option.map_eq_some_iff.mp h
      exact .timerRouting hpc ht
    next => cases h
  | timerPending =>
    simp only [step] at h
    split at h
    next hpc =>
      obtain ⟨t, ht, rfl⟩ := Option.map_eq_some_iff.mp h
      exact .timerPending hpc ht
    next => cases h

/-- The message that interface `i` receives when a packet with these octets
arrives there. -/
def received (t : PacketTypes) (contentID hostIDOrHops : UInt8) (i : Int) : Message :=
  ⟨octets t contentID hostIDOrHops, i⟩

/-- The message whose locked section a move is. -/
def commitOf (m : Move RouterState Action) : Option Message :=
  match m.act, m.pre.main with
  | .commit, .commit p_message _ => some p_message
  | _, _ => none

theorem commitOf_eq_some {m : Move RouterState Action} {msg : Message}
    (h : commitOf m = some msg) : m.act = .commit ∧ ∃ work, m.pre.main = .commit msg work := by
  unfold commitOf at h
  split at h
  next work hact hmain =>
    obtain rfl := Option.some.inj h
    exact ⟨hact, work, hmain⟩
  next => cases h

end ContentNetwork.Simplified
