import ContentNetwork.Network.Topology

/-!
# Routers with their threads, on unreliable links

The finest of the networks. Every router is the whole process: `main` section
by section, with its copies of the tables, and the timer thread (`router`).
`main` pops a packet in flight and sends what its dispatch sends; the packet's
locked section comes later, and the timer may come in between. Packets are
handled in any order, lost and duplicated.
-/

namespace ContentNetwork.Network

open Lib Simplified

/-- The routers with their threads, the packets in flight, and who has
announced what. -/
structure ThreadedState (R H : Type*) where
  routers : R → RouterState
  inFlight : List (Envelope R H)
  announced : List (H × UInt8)

/-- A host sends, or handles a packet in flight; `main` of the router it is for
pops one; another section of a router; a fault of a link. -/
inductive ThreadedEvent (R H : Type*)
  | announce (h : H) (contentID : UInt8)
  | request (h : H) (contentID : UInt8)
  | hostReceive (k : Nat) (hasFile : Bool)
  | pop (k : Nat)
  | router (r : R) (a : Action)
  | lose (k : Nat)
  | duplicate (k : Nat)
  deriving DecidableEq

/-- One iteration of `main` of router `r`, in which it pops packet `k`. -/
def iteration {R H : Type*} (r : R) (k : Nat) : List (ThreadedEvent R H) :=
  [.router r .copyPending, .router r .copyRouting, .pop k, .router r .commit]

namespace Topology

variable {R H : Type*} [DecidableEq R] (T : Topology R H)

/-- One event of the threaded network. When `at` throws, `main` ends and sends
nothing. -/
def threadedStep (s : ThreadedState R H) : ThreadedEvent R H → Option (ThreadedState R H)
  | .announce h contentID =>
    some { s with
      inFlight := s.inFlight ++ [T.fromHost h (octets .ANNOUNCEMENT contentID 0)]
      announced := (h, contentID) :: s.announced }
  | .request h contentID =>
    some { s with
      inFlight := s.inFlight ++ [T.fromHost h (octets .REQUEST contentID (T.hostID h))] }
  | .hostReceive k hasFile =>
    match s.inFlight[k]? with
    | some ⟨.leaf h, packet⟩ =>
      some { s with inFlight := s.inFlight.eraseIdx k ++ T.hostReply h hasFile packet }
    | _ => none
  | .pop k =>
    match s.inFlight[k]? with
    | some ⟨.node r i, packet⟩ =>
      (Simplified.step (T.num_interfaces r) (s.routers r) (.dispatch ⟨packet, i⟩)).map fun s' =>
        { s with
          routers := Function.update s.routers r s'
          inFlight := s.inFlight.eraseIdx k ++
            match Simplified.dispatch (T.num_interfaces r) (s.routers r).cache ⟨packet, i⟩ with
            | some (sent, _) => T.send r sent
            | none => [] }
    | _ => none
  | .router _ (.dispatch _) => none
  | .router r a =>
    (Simplified.step (T.num_interfaces r) (s.routers r) a).map fun s' =>
      { s with routers := Function.update s.routers r s' }
  | .lose k =>
    s.inFlight[k]?.map fun _ => { s with inFlight := s.inFlight.eraseIdx k }
  | .duplicate k =>
    s.inFlight[k]?.map fun x => { s with inFlight := s.inFlight ++ [x] }

/-- The network of routers that have just been started, with their threads. -/
def threadedNetwork : Lts (ThreadedState R H) (ThreadedEvent R H) :=
  .ofStep ⟨fun _ => .start, [], []⟩ T.threadedStep

/-- What each event does. -/
inductive ThreadedStep (s : ThreadedState R H) :
    ThreadedEvent R H → ThreadedState R H → Prop
  | announce (h : H) (c : UInt8) :
      ThreadedStep s (.announce h c) { s with
        inFlight := s.inFlight ++ [T.fromHost h (octets .ANNOUNCEMENT c 0)]
        announced := (h, c) :: s.announced }
  | request (h : H) (c : UInt8) :
      ThreadedStep s (.request h c) { s with
        inFlight := s.inFlight ++ [T.fromHost h (octets .REQUEST c (T.hostID h))] }
  | hostReceive {before after : List (Envelope R H)} {h : H} {packet : HeaderOctets}
      (hasFile : Bool) :
      s.inFlight = before ++ ⟨.leaf h, packet⟩ :: after →
      ThreadedStep s (.hostReceive before.length hasFile) { s with
        inFlight := before ++ after ++ T.hostReply h hasFile packet }
  | pop {before after : List (Envelope R H)} {r : R} {i : Int} {packet : HeaderOctets}
      {s' : RouterState} {sent : List Sent} {work : Work} :
      s.inFlight = before ++ ⟨.node r i, packet⟩ :: after →
      Simplified.step (T.num_interfaces r) (s.routers r) (.dispatch ⟨packet, i⟩) = some s' →
      Simplified.dispatch (T.num_interfaces r) (s.routers r).cache ⟨packet, i⟩
        = some (sent, work) →
      ThreadedStep s (.pop before.length) { s with
        routers := Function.update s.routers r s'
        inFlight := before ++ after ++ T.send r sent }
  | throws {before after : List (Envelope R H)} {r : R} {i : Int} {packet : HeaderOctets}
      {s' : RouterState} :
      s.inFlight = before ++ ⟨.node r i, packet⟩ :: after →
      Simplified.step (T.num_interfaces r) (s.routers r) (.dispatch ⟨packet, i⟩) = some s' →
      Simplified.dispatch (T.num_interfaces r) (s.routers r).cache ⟨packet, i⟩ = none →
      ThreadedStep s (.pop before.length) { s with
        routers := Function.update s.routers r s'
        inFlight := before ++ after }
  | router {r : R} {a : Action} {s' : RouterState} :
      (∀ m, a ≠ .dispatch m) →
      Simplified.step (T.num_interfaces r) (s.routers r) a = some s' →
      ThreadedStep s (.router r a) { s with routers := Function.update s.routers r s' }
  | lose {before after : List (Envelope R H)} {x : Envelope R H} :
      s.inFlight = before ++ x :: after →
      ThreadedStep s (.lose before.length) { s with inFlight := before ++ after }
  | duplicate {k : Nat} {x : Envelope R H} : x ∈ s.inFlight →
      ThreadedStep s (.duplicate k) { s with inFlight := s.inFlight ++ [x] }

variable {T} {s s' : ThreadedState R H} {e : ThreadedEvent R H}

theorem threadedStep_router {r : R} {a : Action} (h : T.threadedStep s (.router r a) = some s') :
    T.ThreadedStep s (.router r a) s' := by
  have hnot : ∀ m, a ≠ .dispatch m := by
    rintro m rfl
    cases h
  have hmap : (Simplified.step (T.num_interfaces r) (s.routers r) a).map (fun s' =>
      { s with routers := Function.update s.routers r s' }) = some s' := by
    cases a <;> first | exact h | cases h
  obtain ⟨u, hu, rfl⟩ := Option.map_eq_some_iff.mp hmap
  exact .router hnot hu

theorem threadedStep_pop {k : Nat} (h : T.threadedStep s (.pop k) = some s') :
    T.ThreadedStep s (.pop k) s' := by
  simp only [threadedStep] at h
  split at h
  next r i packet hk =>
    obtain ⟨before, after, hsplit, rfl, herase⟩ := split_at hk
    rw [herase] at h
    obtain ⟨u, hu, rfl⟩ := Option.map_eq_some_iff.mp h
    cases hd : Simplified.dispatch (T.num_interfaces r) (s.routers r).cache ⟨packet, i⟩ with
    | none =>
      dsimp only
      rw [List.append_nil]
      exact .throws hsplit hu hd
    | some d =>
      obtain ⟨sent, work⟩ := d
      exact .pop hsplit hu hd
  next => cases h

/-- The inversion lemma: every event is one of the eight. -/
theorem threadedStep_cases (h : T.threadedStep s e = some s') : T.ThreadedStep s e s' := by
  cases e with
  | announce x c =>
    obtain rfl := Option.some.inj h
    exact .announce x c
  | request x c =>
    obtain rfl := Option.some.inj h
    exact .request x c
  | hostReceive k hasFile =>
    simp only [threadedStep] at h
    split at h
    next x packet hk =>
      obtain ⟨before, after, hsplit, rfl, herase⟩ := split_at hk
      rw [herase] at h
      obtain rfl := Option.some.inj h
      exact .hostReceive hasFile hsplit
    next => cases h
  | pop k => exact threadedStep_pop h
  | router r a => exact threadedStep_router h
  | lose k =>
    obtain ⟨x, hk, rfl⟩ := Option.map_eq_some_iff.mp h
    obtain ⟨before, after, hsplit, rfl, herase⟩ := split_at hk
    rw [herase]
    exact .lose hsplit
  | duplicate k =>
    obtain ⟨x, hk, rfl⟩ := Option.map_eq_some_iff.mp h
    exact .duplicate (List.mem_of_getElem? hk)

/-- To each router an event is one of its own steps, or nothing. -/
theorem ThreadedStep.router_cases (h : T.ThreadedStep s e s') (r : R) :
    (s'.routers r = s.routers r ∧ e ≠ .router r .timerRouting) ∨
      ∃ a, Simplified.step (T.num_interfaces r) (s.routers r) a = some (s'.routers r) ∧
        (e = .router r .timerRouting ↔ a = .timerRouting) := by
  have hself : ∀ {a : Action} {u : RouterState},
      Simplified.step (T.num_interfaces r) (s.routers r) a = some u →
        Simplified.step (T.num_interfaces r) (s.routers r) a
          = some (Function.update s.routers r u r) := by
    intro a u hu
    rw [hu, Function.update_self]
  cases h with
  | @pop before after r' i packet u sent work hsplit hu hd =>
    by_cases hr : r = r'
    · subst hr
      exact Or.inr ⟨.dispatch ⟨packet, i⟩, hself hu, nofun, nofun⟩
    · exact Or.inl ⟨Function.update_of_ne hr .., nofun⟩
  | @throws before after r' i packet u hsplit hu hd =>
    by_cases hr : r = r'
    · subst hr
      exact Or.inr ⟨.dispatch ⟨packet, i⟩, hself hu, nofun, nofun⟩
    · exact Or.inl ⟨Function.update_of_ne hr .., nofun⟩
  | @router r' a u hnot hu =>
    by_cases hr : r = r'
    · subst hr
      exact Or.inr ⟨a, hself hu, fun he => (ThreadedEvent.router.inj he).2, fun ha => ha ▸ rfl⟩
    · exact Or.inl ⟨Function.update_of_ne hr .., fun he => hr (ThreadedEvent.router.inj he).1.symm⟩
  | _ => exact Or.inl ⟨rfl, nofun⟩

/-- What holds of every reachable state of a router holds of each router of the
network. -/
theorem reachable_router (h : T.threadedNetwork.Reachable s) (r : R) :
    (Simplified.router (T.num_interfaces r)).Reachable (s.routers r) := by
  induction h with
  | init hs =>
    obtain rfl : _ = _ := hs
    exact .init rfl
  | step _ hs ih =>
    rcases (threadedStep_cases hs).router_cases r with ⟨hsame, -⟩ | ⟨a, ha, -⟩
    · rw [hsame]
      exact ih
    · exact .step ih ha

end Topology

end ContentNetwork.Network
