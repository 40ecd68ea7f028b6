import ContentNetwork.Ambitious.PendingRefines

/-!
# The pending table is a map with expiry

The history variable `PendingHistory` is the map that the actions of a run
themselves describe: a request sets the answer under its key, a response or an
expiry takes it away. `reachable_pendingMap` says that the table is this map
in every reachable state, with unique keys, with one sleeping thread for every
valid record, and with no more responses forwarded than requests handled.
-/

namespace ContentNetwork.Ambitious

open Lib Lib.Lts

/-- What the actions so far say: the interface of the last request for each
key, if neither a response nor an expiry for it has come after it; the
requests handled and the responses forwarded for it. -/
structure PendingHistory where
  expected : Int × Int → Option Nat
  requests : Int × Int → Nat
  forwarded : Int × Int → Nat

def PendingHistory.start : PendingHistory := ⟨fun _ => none, fun _ => 0, fun _ => 0⟩

/-- How an action updates the history. -/
def PendingHistory.update (g : PendingHistory) (t : PendingTable) : PendingAction → PendingHistory
  | .request contentID hostID interface =>
    { g with
      expected := Function.update g.expected (contentID, hostID) (some interface)
      requests := Function.update g.requests (contentID, hostID)
        (g.requests (contentID, hostID) + 1) }
  | .response contentID hostID =>
    { g with
      expected := Function.update g.expected (contentID, hostID) none
      forwarded :=
        if (t.handleResponse contentID hostID).2.isSome then
          Function.update g.forwarded (contentID, hostID) (g.forwarded (contentID, hostID) + 1)
        else g.forwarded }
  | .expire e =>
    match t.Table[e.record]? with
    | some r => { g with expected := Function.update g.expected r.key none }
    | none => g

/-- The pending table with that history. -/
def pendingHistorySystem : Lts (PendingTable × PendingHistory) PendingAction :=
  pendingSystem.observe .start PendingHistory.update

/-- The history as a map to interfaces. -/
def PendingHistory.answers (g : PendingHistory) (k : Int × Int) : Option Int :=
  (g.expected k).map fun interface : Nat => (interface : Int)

theorem PendingHistory.answers_nonneg (g : PendingHistory) :
    ∀ k i, g.answers k = some i → 0 ≤ i := by
  intro k i h
  obtain ⟨interface, -, rfl⟩ := Option.map_eq_some_iff.mp h
  exact Int.natCast_nonneg _

theorem PendingHistory.answers_update (g : PendingHistory) (k : Int × Int) (v : Option Nat) :
    (fun k' => (Function.update g.expected k v k').map fun interface : Nat => (interface : Int))
      = Function.update g.answers k (v.map fun interface : Nat => (interface : Int)) := by
  funext k'
  by_cases hk : k' = k
  · subst hk
    rw [Function.update_self, Function.update_self]
  · rw [Function.update_of_ne hk, Function.update_of_ne hk]
    rfl

/-- The table stands for the history, and every forwarded response has had a
request of its own. -/
structure PendingInv (s : PendingTable × PendingHistory) : Prop where
  refines : s.1.Refines s.2.answers
  forwarded : ∀ k, s.2.forwarded k + (if (s.2.expected k).isSome then 1 else 0) ≤ s.2.requests k

variable {t : PendingTable} {g : PendingHistory}

theorem request_pendingInv (hi : PendingInv (t, g)) (contentID hostID : Int) (interface : Nat) :
    PendingInv (t.handleRequest contentID hostID interface,
      g.update t (.request contentID hostID interface)) := by
  obtain ⟨hrefines, hcount⟩ := hi
  dsimp only at hcount
  refine ⟨?_, fun k => ?_⟩
  · have hanswers := g.answers_update (contentID, hostID) (some interface)
    have := PendingTable.handleRequest_refines hrefines contentID hostID interface
    exact (hanswers ▸ this :)
  · have := hcount k
    by_cases hk : k = (contentID, hostID)
    · subst hk
      simp only [PendingHistory.update, Function.update_self, Option.isSome_some, if_true]
      split at this <;> omega
    · simpa only [PendingHistory.update, Function.update_of_ne hk] using this

theorem response_pendingInv (hi : PendingInv (t, g)) (contentID hostID : Int) :
    PendingInv ((t.handleResponse contentID hostID).1,
      g.update t (.response contentID hostID)) := by
  obtain ⟨hrefines, hcount⟩ := hi
  dsimp only at hcount
  obtain ⟨hnext, hsent⟩ := PendingTable.handleResponse_refines hrefines g.answers_nonneg
    contentID hostID
  refine ⟨?_, fun k => ?_⟩
  · have hanswers := g.answers_update (contentID, hostID) none
    exact (hanswers ▸ hnext :)
  · have hk' := hcount k
    -- a response is forwarded exactly if one was expected
    have hsome : (t.handleResponse contentID hostID).2.isSome
        = (g.expected (contentID, hostID)).isSome := by
      rw [hsent, PendingHistory.answers, Option.isSome_map]
    simp only [PendingHistory.update, hsome]
    by_cases hk : k = (contentID, hostID)
    · subst hk
      rw [Function.update_self]
      split at hk'
      next hpending =>
        rw [if_pos hpending, Function.update_self]
        exact hk'
      next hnot =>
        rw [if_neg hnot]
        exact hk'
    · rw [Function.update_of_ne hk]
      split
      · rw [Function.update_of_ne hk]
        exact hk'
      · exact hk'

theorem expire_pendingInv (hi : PendingInv (t, g)) {e : Sleeper} (hmem : e ∈ t.sleeping) :
    PendingInv (t.expire e, g.update t (.expire e)) := by
  obtain ⟨hrefines, hcount⟩ := hi
  dsimp only at hcount
  obtain ⟨r, hr, -⟩ := hrefines.sleeper hmem
  simp only [PendingHistory.update, hr]
  refine ⟨?_, fun k => ?_⟩
  · have hanswers := g.answers_update r.key none
    have := PendingTable.expire_refines hrefines hmem hr
    exact (hanswers ▸ this :)
  · have := hcount k
    by_cases hk : k = r.key
    · subst hk
      simp only [Function.update_self, Option.isSome_none, Bool.false_eq_true, if_false]
      omega
    · simpa only [Function.update_of_ne hk] using this

theorem step_pendingInv {s s' : PendingTable × PendingHistory} {a : PendingAction}
    (hi : PendingInv s) (h : pendingHistorySystem.step s a s') : PendingInv s' := by
  obtain ⟨t, g⟩ := s
  obtain ⟨t', g'⟩ := s'
  obtain ⟨hstep, hg⟩ := h
  dsimp only at hstep hg
  subst hg
  cases a with
  | request contentID hostID interface =>
    obtain rfl := Option.some.inj hstep
    exact request_pendingInv hi contentID hostID interface
  | response contentID hostID =>
    obtain rfl := Option.some.inj hstep
    exact response_pendingInv hi contentID hostID
  | expire e =>
    change (if e ∈ t.sleeping then some (t.expire e) else none) = some t' at hstep
    split at hstep
    next hmem =>
      obtain rfl := Option.some.inj hstep
      exact expire_pendingInv hi hmem
    next => cases hstep

theorem reachable_pendingInv {s : PendingTable × PendingHistory}
    (h : pendingHistorySystem.Reachable s) : PendingInv s := by
  refine h.invariant ?_ fun _ _ _ => step_pendingInv
  intro s hs
  obtain ⟨t, g⟩ := s
  obtain ⟨rfl, rfl⟩ := hs
  exact ⟨PendingTable.empty_refines, fun k => Nat.le_refl _⟩

/-- **The pending table is a map with expiry**: in every reachable state a
lookup gives the interface of the last request under the key, unless a
response or an expiry under it came after it; keys are unique; the valid
records are those with one sleeping thread, and the others have none; and no
more responses have been forwarded than requests handled. -/
theorem reachable_pendingMap {s : PendingTable × PendingHistory}
    (h : pendingHistorySystem.Reachable s) :
    (∀ contentID hostID, s.1.GetInterfaceFromPendingTable contentID hostID
        = (s.2.answers (contentID, hostID)).getD (-1)) ∧
      Keyed.Unique PendingTableRecord.key s.1.Table ∧
      (∀ (i : Nat) (r : PendingTableRecord), s.1.Table[i]? = some r →
        (s.1.threadsOf i).length = if r.isValid then 1 else 0) ∧
      ∀ k, s.2.forwarded k ≤ s.2.requests k := by
  obtain ⟨hrefines, hcount⟩ := reachable_pendingInv h
  refine ⟨hrefines.get, hrefines.unique, ?_, fun k => ?_⟩
  · intro i r hr
    rw [(hrefines.records i r hr).1]
    split <;> rfl
  · exact Nat.le_trans (Nat.le_add_right _ _) (hcount k)

/-- Two requests for one content and host, the second on another interface:
the answer goes to the second. -/
theorem pendingMap_request_again :
    ∃ ms s, pendingHistorySystem.Run ms s ∧ s.1.Table = [⟨7, 9, 2, true, 1⟩] ∧
      s.1.GetInterfaceFromPendingTable 7 9 = 2 := by
  have h : trace (observeStep pendingStep PendingHistory.update) (.empty, .start)
      [.request 7 9 1, .request 7 9 2] = some (_, _) := rfl
  have hrun := observe_run_of_trace h
  exact ⟨_, _, hrun, rfl, (reachable_pendingMap hrun.reachable).1 7 9⟩

end ContentNetwork.Ambitious
