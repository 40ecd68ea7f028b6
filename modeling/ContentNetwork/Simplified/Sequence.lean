import ContentNetwork.Simplified.TableInv
import ContentNetwork.Simplified.Atomic

/-!
# Sequences of packets, without the timer

`handleAll` handles a list of packets one after the other. It is what `main`
does in any run in which the timer does not run (`run_handleAll`), with the
sections of `main` as they are: failed polls leave copied records behind, and
the table copy that a packet is dispatched on then holds records twice. That
does not matter as long as the leftovers agree with the shared tables, which
only `main` itself changes here (`CacheAgrees`): a search from the front finds
the same record.
-/

namespace ContentNetwork.Simplified

open Lib Lib.Lts

/-- Packets handled one after the other, and everything that is sent. -/
def handleAll (n : Nat) : Tables → List Message → Option (Tables × List Sent)
  | t, [] => some (t, [])
  | t, m :: ms =>
    (handlePacket n t m).bind fun r =>
      (handleAll n r.1 ms).map fun r' => (r'.1, r.2 ++ r'.2)

section Sequence

variable {n : Nat} {t t' t'' : Tables} {m : Message} {ms : List Message} {sent sent' : List Sent}

theorem handleAll_eq (n : Nat) (t : Tables) (ms : List Message) :
    handleAll n t ms = Lts.handleAll (handlePacket n) t ms := by
  induction ms generalizing t with
  | nil => rfl
  | cons m ms ih =>
    rw [handleAll, Lts.handleAll]
    simp only [ih]

theorem handleAll_cons (h : handlePacket n t m = some (t', sent)) :
    handleAll n t (m :: ms) = (handleAll n t' ms).map fun r => (r.1, sent ++ r.2) := by
  rw [handleAll_eq, handleAll_eq]
  exact Lts.handleAll_cons h

theorem handleAll_cons_eq_some (h : handleAll n t (m :: ms) = some (t'', sent)) :
    ∃ t' s s', handlePacket n t m = some (t', s) ∧ handleAll n t' ms = some (t'', s') ∧
      sent = s ++ s' := by
  rw [handleAll_eq] at h
  simp only [handleAll_eq]
  exact Lts.handleAll_cons_eq_some h

theorem handleAll_snoc (h : handleAll n t ms = some (t', sent))
    (hm : handlePacket n t' m = some (t'', sent')) :
    handleAll n t (ms ++ [m]) = some (t'', sent ++ sent') := by
  rw [handleAll_eq] at h ⊢
  exact Lts.handleAll_snoc h hm

end Sequence

/-! ## The packets of one content -/

/-- The packets of a list that carry content `c`, in order. -/
def messagesFor (c : Int) (ms : List Message) : List Message :=
  ms.filter fun m => m._recvPacket.ContentID = c

section MessagesFor

variable {c : Int} {m : Message} {ms : List Message}

theorem messagesFor_concat_self (h : m._recvPacket.ContentID = c) :
    messagesFor c (ms ++ [m]) = messagesFor c ms ++ [m] :=
  Keyed.filter_push (q := fun k => k = c) h

theorem messagesFor_concat_ne (h : m._recvPacket.ContentID ≠ c) :
    messagesFor c (ms ++ [m]) = messagesFor c ms :=
  Keyed.filter_push_of_not (q := fun k => k = c) h

end MessagesFor

/-! ## The copies and the tables -/

/-- Tables in which every search finds the same. -/
structure SameLookups (t t' : Tables) : Prop where
  routing : ∀ c, Keyed.lookup RTrecord.cID c t.RoutingTable
    = Keyed.lookup RTrecord.cID c t'.RoutingTable
  pending : ∀ k, Keyed.lookup PRTrecord.key k t.PendingRequestTable
    = Keyed.lookup PRTrecord.key k t'.PendingRequestTable

/-- Before the lock a case only searches, for the keys of its packet. -/
theorem dispatch_congr {n : Nat} {t t' : Tables} {m : Message}
    (hrouting : Keyed.lookup RTrecord.cID m._recvPacket.ContentID t.RoutingTable
      = Keyed.lookup RTrecord.cID m._recvPacket.ContentID t'.RoutingTable)
    (hpending : Keyed.lookup PRTrecord.key m._recvPacket.requestKey t.PendingRequestTable
      = Keyed.lookup PRTrecord.key m._recvPacket.requestKey t'.PendingRequestTable) :
    dispatch n t m = dispatch n t' m := by
  unfold dispatch requestCase responseCase announcementCase
  simp only [hrouting, hpending]

/-- What a table finds, a longer or newer one finds too. -/
def Finds {ρ κ : Type*} [DecidableEq κ] (key : ρ → κ) (l l' : List ρ) : Prop :=
  ∀ k, Keyed.lookup key k l = none ∨ Keyed.lookup key k l = Keyed.lookup key k l'

/-- Copying a table behind leftovers that agree with it. -/
theorem Finds.append {ρ κ : Type*} [DecidableEq κ] {key : ρ → κ} {l l' : List ρ}
    (h : Finds key l l') (k : κ) : Keyed.lookup key k (l ++ l') = Keyed.lookup key k l' := by
  rw [Keyed.lookup_append]
  rcases h k with hnone | heq
  · rw [hnone, Option.none_or]
  · rw [heq, Option.or_self]

/-- What main's copies have in common with the shared tables while no timer
runs. -/
def CacheAgrees (s : RouterState) : Prop :=
  match s.main with
  | .copyPending =>
    Finds RTrecord.cID s.cache.RoutingTable s.shared.RoutingTable ∧
      Finds PRTrecord.key s.cache.PendingRequestTable s.shared.PendingRequestTable
  | .copyRouting =>
    Finds RTrecord.cID s.cache.RoutingTable s.shared.RoutingTable ∧
      ∀ k, Keyed.lookup PRTrecord.key k s.cache.PendingRequestTable
        = Keyed.lookup PRTrecord.key k s.shared.PendingRequestTable
  | .poll => SameLookups s.cache s.shared
  | .commit _ _ | .terminated => True

/-- The shared tables, with the packet that main has dispatched committed. -/
def RouterState.settled (s : RouterState) : Tables :=
  match s.main with
  | .commit _ work => work.commit s.shared
  | _ => s.shared

/-- The packet a move takes from the queue. -/
def dispatched (m : Move RouterState Action) : Option Message :=
  match m.act with
  | .dispatch p_message => some p_message
  | _ => none

/-- What a move hands to the sending ports. -/
def sentBy (n : Nat) (m : Move RouterState Action) : List Sent :=
  match m.act with
  | .dispatch p_message => ((dispatch n m.pre.cache p_message).map Prod.fst).getD []
  | _ => []

/-- The move is main's. -/
def Action.isMain : Action → Bool
  | .timerRouting | .timerPending => false
  | _ => true

/-- One step of main: the packet it dispatches, if any, is handled at once on
the settled tables. -/
theorem step_handlePacket {n : Nat} {s s' : RouterState} {a : Action} (hi : LoopInv n s)
    (hc : CacheAgrees s) (ha : a.isMain = true) (h : step n s a = some s') :
    CacheAgrees s' ∧
      match dispatched ⟨s, a, s'⟩ with
      | some m => handlePacket n s.settled m = some (s'.settled, sentBy n ⟨s, a, s'⟩)
      | none => s'.settled = s.settled ∧ sentBy n ⟨s, a, s'⟩ = [] := by
  obtain ⟨shared, cache, main, timer⟩ := s
  cases step_cases h with
  | copyPending hmain =>
    obtain rfl : main = .copyPending := hmain
    exact ⟨⟨hc.1, hc.2.append⟩, rfl, rfl⟩
  | copyRouting hmain =>
    obtain rfl : main = .copyRouting := hmain
    exact ⟨⟨hc.1.append, hc.2⟩, rfl, rfl⟩
  | idle hmain =>
    obtain rfl : main = .poll := hmain
    exact ⟨⟨fun c => Or.inr (hc.routing c), fun k => Or.inr (hc.pending k)⟩, rfl, rfl⟩
  | @dispatch m sent work hmain h0 h1 hd =>
    obtain rfl : main = .poll := hmain
    refine ⟨trivial, ?_⟩
    show handlePacket n shared m
      = some (work.commit shared, ((Simplified.dispatch n cache m).map Prod.fst).getD [])
    -- the cache finds what the shared tables hold
    have hshared : Simplified.dispatch n shared m = some (sent, work) :=
      (dispatch_congr (hc.routing _) (hc.pending _)).symm.trans hd
    rw [handlePacket_of_dispatch hshared, hd]
    rfl
  | throws hmain hd => exact absurd hd (dispatch_ne_none hi.cache)
  | @commit m work hmain =>
    obtain rfl : main = .commit m work := hmain
    refine ⟨⟨fun c => Or.inl rfl, fun k => Or.inl rfl⟩, rfl, rfl⟩
  | timerRouting => cases ha
  | timerPending => cases ha

/-- **Without the timer, a run handles its packets one after the other**: the
tables it leaves and what it sends are those of `handleAll` from the start. -/
theorem run_handleAll {n : Nat} {ms : List (Move RouterState Action)} {s : RouterState}
    (h : (router n).Run ms s) (hmain : ∀ m ∈ ms, m.act.isMain = true) :
    handleAll n .empty (ms.filterMap dispatched) = some (s.settled, ms.flatMap (sentBy n)) := by
  have hboth : CacheAgrees s ∧ handleAll n .empty (ms.filterMap dispatched)
      = some (s.settled, ms.flatMap (sentBy n)) := by
    induction h with
    | start hs =>
      rw [show _ = RouterState.start from hs]
      exact ⟨⟨fun c => Or.inl rfl, fun k => Or.inl rfl⟩, rfl⟩
    | @snoc ms s s' a hrun hs ih =>
      obtain ⟨hc, hall⟩ := ih fun m hm => hmain m (List.mem_append_left _ hm)
      have ha := hmain ⟨s, a, s'⟩ List.mem_concat_self
      obtain ⟨hc', hstep⟩ := step_handlePacket (reachable_loopInv hrun.reachable) hc ha hs
      refine ⟨hc', ?_⟩
      rw [List.filterMap_append, List.flatMap_append, List.flatMap_singleton]
      cases hd : dispatched ⟨s, a, s'⟩ with
      | none =>
        rw [hd] at hstep
        rw [List.filterMap_cons_none hd, List.filterMap_nil, List.append_nil, hstep.1, hstep.2,
          List.append_nil]
        exact hall
      | some m =>
        rw [hd] at hstep
        rw [List.filterMap_cons_some hd, List.filterMap_nil]
        exact handleAll_snoc hall hstep
  exact hboth.2

/-- A list of packets from configured interfaces has such a run. -/
theorem exists_run_handleAll {n : Nat} {ps : List Message}
    (hps : ∀ m ∈ ps, 0 ≤ m._RxInterface_Num ∧ m._RxInterface_Num < n) :
    ∃ ms s, (router n).Run ms s ∧ (∀ m ∈ ms, m.act.isMain = true) ∧
      ms.filterMap dispatched = ps ∧ s.cache = .empty ∧ s.main = .copyPending := by
  induction ps using List.reverseRecOn with
  | nil => exact ⟨[], .start, .start rfl, fun m hm => absurd hm List.not_mem_nil, rfl, rfl, rfl⟩
  | append_singleton ps p ih =>
    obtain ⟨ms, s, hrun, hmain, hms, hcache, hpc⟩ :=
      ih fun m hm => hps m (List.mem_append_left _ hm)
    have hp := hps p List.mem_concat_self
    have hinv := reachable_loopInv hrun.reachable
    obtain ⟨⟨sent, work⟩, hd⟩ := Option.ne_none_iff_exists'.mp
      (dispatch_ne_none (m := p) hinv.shared.inRange)
    obtain ⟨shared, cache, main, timer⟩ := s
    obtain rfl : cache = .empty := hcache
    obtain rfl : main = .copyPending := hpc
    -- the four sections of main on `p`
    have h1 : (router n).step ⟨shared, .empty, .copyPending, timer⟩ .copyPending
        ⟨shared, ⟨[], shared.PendingRequestTable⟩, .copyRouting, timer⟩ := rfl
    have h2 : (router n).step ⟨shared, ⟨[], shared.PendingRequestTable⟩, .copyRouting, timer⟩
        .copyRouting ⟨shared, shared, .poll, timer⟩ := rfl
    have h3 : (router n).step ⟨shared, shared, .poll, timer⟩ (.dispatch p)
        ⟨shared, shared, .commit p work, timer⟩ := by
      simp [router, ofStep, step, hp, hd]
    have h4 : (router n).step ⟨shared, shared, .commit p work, timer⟩ .commit
        ⟨work.commit shared, .empty, .copyPending, timer⟩ := rfl
    refine ⟨_, _, (((hrun.snoc h1).snoc h2).snoc h3).snoc h4, ?_, ?_, rfl, rfl⟩
    · simp only [List.mem_append, List.mem_singleton]
      rintro m ((((hm | rfl) | rfl) | rfl) | rfl)
      · exact hmain m hm
      all_goals rfl
    · simp only [List.filterMap_append, hms, List.append_assoc]
      rfl

end ContentNetwork.Simplified
