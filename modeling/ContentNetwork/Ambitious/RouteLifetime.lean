import Mathlib.Algebra.Ring.Nat
import ContentNetwork.Ambitious.RoutingTable

/-!
# How long a route lives

A route should live as long as its content is announced: `Router.h` declares
`g_ROUTING_TABLE_EXPIRY_TIME`, has every insertion, re-use and improvement
start a timer for the record, and `DeleteRecord` for the end of it. But
`startTimer` is an empty function, so that the only actions of the table are
announcements; time elapses beside it, in the history `RouteHistory`, and
changes nothing. An improvement stops the timer that was never started, which
ends the router unless `pthread_cancel` returns (`RoutingTable.stopTimer`).

So the half of the requirement that keeps routes fails at an improvement, and
the half that removes them as soon as a content falls silent:
`run_routesLive_iff` is the exact condition. `route_outlives_silence` is a run
that violates the second half, `improvement_ends_router` one that violates the
first.
-/

namespace ContentNetwork.Ambitious

open Lib Lib.Lts

/-- An announcement is handled, or some time elapses. -/
inductive RouteAction (τ : Type*)
  | announce (contentID hops : Int) (interface : Nat)
  | elapse (seconds : τ)

/-- An announcement that was handled, and when. -/
structure Heard (τ : Type*) where
  contentID : Int
  hops : Int
  interface : Nat
  time : τ

/-- The time since the start, and the announcements handled so far. -/
structure RouteHistory (τ : Type*) where
  now : τ
  heard : List (Heard τ)

section Lifetime

variable {τ : Type*}

/-- One action: no timer runs while time elapses. The state is `none` when the
process has ended; then nothing happens any more. -/
def routeStep (returns : Bool) : Option RoutingTable → RouteAction τ →
    Option (Option RoutingTable)
  | some t, .announce contentID hops interface =>
    some (t.handleAnnouncement returns contentID hops interface)
  | some t, .elapse _ => some (some t)
  | none, _ => none

/-- The routing table of a router as a transition system. -/
def routeSystem (returns : Bool) : Lts (Option RoutingTable) (RouteAction τ) :=
  .ofStep (some .empty) (routeStep returns)

variable [AddMonoidWithOne τ]

def RouteHistory.start : RouteHistory τ := ⟨0, []⟩

/-- How an action updates the history. -/
def RouteHistory.update (g : RouteHistory τ) (_ : Option RoutingTable) :
    RouteAction τ → RouteHistory τ
  | .announce contentID hops interface =>
    { g with heard := g.heard ++ [⟨contentID, hops, interface, g.now⟩] }
  | .elapse seconds => { g with now := g.now + seconds }

variable (τ) in
/-- The routing table with that history. -/
def timedRouteSystem (returns : Bool) :
    Lts (Option RoutingTable × RouteHistory τ) (RouteAction τ) :=
  (routeSystem returns).observe .start RouteHistory.update

/-! ## The table holds what has been announced -/

/-- The table is valid, names interfaces, and has a record for exactly the
contents announced so far. -/
structure RouteInv (t : RoutingTable) (g : RouteHistory τ) : Prop where
  valid : t.Valid
  interface : ∀ r ∈ t.Table, 0 ≤ r.PortInterface
  contents : ∀ contentID, contentID ∈ t.Table.map RoutingTableRecord.ContentID
    ↔ ∃ a ∈ g.heard, a.contentID = contentID

variable {returns : Bool}

/-- The invariant, as long as the process has not ended. -/
def RouteInv.OfState (s : Option RoutingTable × RouteHistory τ) : Prop :=
  ∀ t ∈ s.1, RouteInv t s.2

theorem step_routeInv {s s' : Option RoutingTable × RouteHistory τ} {a : RouteAction τ}
    (hi : RouteInv.OfState s) (h : (timedRouteSystem τ returns).step s a s') :
    RouteInv.OfState s' := by
  obtain ⟨t, g⟩ := s
  obtain ⟨u, g'⟩ := s'
  obtain ⟨hstep, hg⟩ := h
  dsimp only at hstep hg
  subst hg
  intro t' ht'
  obtain rfl : u = some t' := ht'
  cases t with
  | none => cases hstep
  | some t =>
    obtain ⟨hvalid, hinterface, hcontents⟩ := hi t rfl
    dsimp only at hcontents
    cases a with
    | announce contentID hops interface =>
      have hann := Option.some.inj hstep
      -- interfaces are numbered from 0, so none of them is `-1`
      refine ⟨RoutingTable.handleAnnouncement_valid hvalid hann, ?_, ?_⟩
      · intro r hr
        rcases RoutingTable.mem_handleAnnouncement hvalid hann hr with hr | rfl
        · exact hinterface r hr
        · exact Int.natCast_nonneg _
      · intro c
        dsimp only
        rw [RoutingTable.mem_contents_handleAnnouncement hvalid hann, hcontents]
        simp only [RouteHistory.update, List.mem_append, List.mem_singleton, or_and_right,
          exists_or, exists_eq_left]
        rw [eq_comm]
    | elapse seconds =>
      obtain rfl := Option.some.inj (Option.some.inj hstep)
      exact ⟨hvalid, hinterface, hcontents⟩

theorem reachable_routeInv {s : Option RoutingTable × RouteHistory τ}
    (h : (timedRouteSystem τ returns).Reachable s) : RouteInv.OfState s := by
  refine h.invariant ?_ fun _ _ _ => step_routeInv
  intro s hs t ht
  obtain ⟨u, g⟩ := s
  obtain ⟨rfl, rfl⟩ := hs
  obtain rfl := Option.some.inj ht
  refine ⟨RoutingTable.empty_valid, fun r hr => absurd hr List.not_mem_nil, fun c => ?_⟩
  simp [RoutingTable.empty, RouteHistory.start]

/-! ## Every run -/

variable [LE τ]

/-- The announcement was handled within the expiry time. -/
def RouteHistory.Recent (g : RouteHistory τ) (a : Heard τ) : Prop :=
  g.now ≤ a.time + g_ROUTING_TABLE_EXPIRY_TIME

/-- The router is there, a route that its own source has announced recently is
found, and no route is found to a content that nobody has announced recently. -/
def RoutesLive (s : Option RoutingTable × RouteHistory τ) : Prop :=
  ∃ t, s.1 = some t ∧
    (∀ r ∈ t.Table,
      (∃ a ∈ s.2.heard, a.contentID = r.ContentID ∧ a.hops = r.NumOfHops ∧
        (a.interface : Int) = r.PortInterface ∧ s.2.Recent a) →
      t.GetInterfaceFromRoutingTable r.ContentID = r.PortInterface) ∧
    ∀ contentID, (∀ a ∈ s.2.heard, a.contentID = contentID → ¬s.2.Recent a) →
      t.GetInterfaceFromRoutingTable contentID = -1

/-- Every content announced so far has been announced recently. -/
def NeverSilent (g : RouteHistory τ) : Prop :=
  ∀ a ∈ g.heard, ∃ b ∈ g.heard, b.contentID = a.contentID ∧ g.Recent b

/-- The action is no announcement that improves a valid record, unless
`pthread_cancel` returns. -/
def Harmless (returns : Bool) (s : Option RoutingTable × RouteHistory τ) : RouteAction τ → Prop
  | .announce contentID hops _ =>
    returns = true ∨ ∀ t ∈ s.1, t.improves contentID hops = false
  | .elapse _ => True

instance [DecidableLE τ] (g : RouteHistory τ) : DecidablePred g.Recent := fun a =>
  inferInstanceAs (Decidable (g.now ≤ a.time + g_ROUTING_TABLE_EXPIRY_TIME))

instance [DecidableLE τ] (g : RouteHistory τ) : Decidable (NeverSilent g) :=
  inferInstanceAs (Decidable (∀ a ∈ g.heard, ∃ b ∈ g.heard, _ ∧ _))

instance (returns : Bool) (s : Option RoutingTable × RouteHistory τ) :
    DecidablePred (Harmless returns s)
  | .announce contentID hops _ =>
    inferInstanceAs (Decidable (returns = true ∨ ∀ t ∈ s.1, t.improves contentID hops = false))
  | .elapse _ => isTrue trivial

/-- In a table, every route is found, and it stays; so silence is what must not
happen. -/
theorem routesLive_iff {t : RoutingTable} {g : RouteHistory τ} (hi : RouteInv t g) :
    RoutesLive (some t, g) ↔ NeverSilent g := by
  obtain ⟨hvalid, hinterface, hcontents⟩ := hi
  constructor
  · intro hlive a ha
    obtain ⟨t', ht', -, hsilence⟩ := hlive
    obtain rfl := Option.some.inj ht'
    by_contra hsilent
    push Not at hsilent
    -- the content of `a` has a record, and its interface is no `-1`
    obtain ⟨r, hr, hc⟩ := List.mem_map.mp ((hcontents a.contentID).mpr ⟨a, ha, rfl⟩)
    have hnone := hsilence a.contentID hsilent
    rw [← hc, RoutingTable.get_of_mem hvalid hr] at hnone
    have := hinterface r hr
    omega
  · intro hnever
    -- a silent content was never announced, so it has no record
    refine ⟨t, rfl, fun r hr _ => RoutingTable.get_of_mem hvalid hr, fun c hsilent => ?_⟩
    refine RoutingTable.get_of_absent fun r hr hc => ?_
    obtain ⟨a, ha, hac⟩ := (hcontents c).mp (hc ▸ List.mem_map_of_mem hr)
    obtain ⟨b, hb, hba, hrecent⟩ := hnever a ha
    exact hsilent b hb (hba.trans hac) hrecent

omit [LE τ] in
/-- A router that takes an action is there afterwards iff the action is
harmless. -/
theorem exists_table_iff {s s' : Option RoutingTable × RouteHistory τ} {a : RouteAction τ}
    (h : (timedRouteSystem τ returns).step s a s') :
    (∃ t, s'.1 = some t) ↔ Harmless returns s a := by
  obtain ⟨t, g⟩ := s
  obtain ⟨t', g'⟩ := s'
  obtain ⟨hstep, -⟩ := h
  dsimp only at hstep ⊢
  cases t with
  | none => cases hstep
  | some t =>
    cases a with
    | elapse seconds => exact ⟨fun _ => trivial, fun _ => ⟨t, (Option.some.inj hstep).symm⟩⟩
    | announce contentID hops interface =>
      obtain rfl := Option.some.inj hstep
      rw [← Option.ne_none_iff_exists', ne_eq, RoutingTable.handleAnnouncement_eq_none]
      simp only [Harmless, Option.mem_def, Option.some.injEq, forall_eq']
      cases returns <;> simp

/-- **Routes live exactly as long as they are announced all along a run iff no
content that has been announced is ever silent for longer than
`g_ROUTING_TABLE_EXPIRY_TIME`, and no announcement improves a valid record
where `pthread_cancel` does not return.** -/
theorem run_routesLive_iff
    {ms : List (Move (Option RoutingTable × RouteHistory τ) (RouteAction τ))}
    {s : Option RoutingTable × RouteHistory τ} (h : (timedRouteSystem τ returns).Run ms s) :
    (∀ m ∈ ms, RoutesLive m.post) ↔
      ∀ m ∈ ms, NeverSilent m.post.2 ∧ Harmless returns m.pre m.act := by
  refine h.forall_iff fun m hpre hs => ?_
  have hi := reachable_routeInv (hpre.step hs)
  obtain ⟨pre, act, ⟨u, g⟩⟩ := m
  rw [← exists_table_iff hs]
  dsimp only
  constructor
  · intro hlive
    obtain ⟨t, rfl, -⟩ := id hlive
    exact ⟨(routesLive_iff (hi t rfl)).mp hlive, t, rfl⟩
  · intro hcond
    obtain ⟨hnever, t, rfl⟩ := hcond
    exact (routesLive_iff (hi t rfl)).mpr hnever

end Lifetime

/-- Content 7 is announced once on interface 0; 31 seconds later the route is
still found. -/
theorem route_outlives_silence :
    ∃ ms s, (timedRouteSystem ℕ false).Run ms s ∧
      s.1.map (·.GetInterfaceFromRoutingTable 7) = some 0 ∧
      s.2.now = 31 ∧ s.2.heard = [⟨7, 1, 0, 0⟩] ∧ ¬RoutesLive s := by
  have h : trace (observeStep (routeStep false) RouteHistory.update)
      (some .empty, (.start : RouteHistory ℕ)) [.announce 7 1 0, .elapse 31] = some (_, _) := rfl
  refine ⟨_, _, observe_run_of_trace h, rfl, zero_add _, rfl, fun hlive => ?_⟩
  obtain ⟨t, ht, -, hsilence⟩ := hlive
  obtain rfl := Option.some.inj ht
  exact absurd (hsilence 7 (by decide)) (by decide)

/-- Content 7 is announced with two hops, then with one, and the router ends. -/
theorem improvement_ends_router :
    ∃ ms s, (timedRouteSystem ℕ false).Run ms s ∧ s.1 = none ∧
      s.2.heard = [⟨7, 2, 0, 0⟩, ⟨7, 1, 1, 0⟩] := by
  have h : trace (observeStep (routeStep false) RouteHistory.update)
      (some .empty, (.start : RouteHistory ℕ)) [.announce 7 2 0, .announce 7 1 1]
      = some (_, _) := rfl
  exact ⟨_, _, observe_run_of_trace h, rfl, rfl⟩

/-- Announced again in time, with no fewer hops, the route is where it should
be. -/
theorem route_announced_again :
    ∃ ms s, (timedRouteSystem ℕ false).Run ms s ∧
      s.1.map (·.GetInterfaceFromRoutingTable 7) = some 0 ∧ ∀ m ∈ ms, RoutesLive m.post := by
  have h : trace (observeStep (routeStep false) RouteHistory.update)
      (some .empty, (.start : RouteHistory ℕ))
      [.announce 7 1 0, .elapse 20, .announce 7 2 1, .announce 7 1 0, .elapse 20]
      = some (_, _) := rfl
  have hrun := observe_run_of_trace h
  exact ⟨_, _, hrun, rfl, (run_routesLive_iff hrun).mpr (by decide)⟩

end ContentNetwork.Ambitious
