import ContentNetwork.Simplified.TableInv

/-!
# What a packet is dispatched on

At the top of its loop `main` pushes the shared tables onto its local copies,
and it clears the copies at the bottom, after the locked section. The idle
path leaves in between: a failed pop goes back to the top by `continue`, and
the next copy lands behind the old one.

`Snapshot` is a history variable beside the router: the shared tables as they
were copied in the current iteration, and whether a failed pop since the last
handled packet left copied records behind. `run_currentSnapshot_iff` says
when a run dispatches every packet on the tables it has just copied: exactly
when no packet is dispatched after such a pop. In `forwarded_after_expiry` a
request is sent along a route that had expired before the iteration began.
-/

namespace ContentNetwork.Simplified

open Lib Lib.Lts

/-- The history variable. -/
structure Snapshot where
  /-- The shared tables as copied in this iteration. -/
  copied : Tables
  /-- A pop failed in an iteration that had copied a record, and no packet
  has been handled since. -/
  recordsLeft : Bool
  deriving DecidableEq, Repr

def Snapshot.start : Snapshot := ⟨.empty, false⟩

/-- How an action updates the history. -/
def Snapshot.update (g : Snapshot) (s : RouterState) : Action → Snapshot
  | .copyPending =>
    { g with copied := { g.copied with PendingRequestTable := s.shared.PendingRequestTable } }
  | .copyRouting =>
    { g with copied := { g.copied with RoutingTable := s.shared.RoutingTable } }
  | .idle => { g with recordsLeft := g.recordsLeft || decide (g.copied ≠ .empty) }
  | .commit => { g with recordsLeft := false }
  | .dispatch _ | .timerRouting | .timerPending => g

/-- The router with that history. -/
def snapshotRouter (n : Nat) : Lts (RouterState × Snapshot) Action :=
  (router n).observe .start Snapshot.update

/-- Every run of the router is one with the history beside it. -/
theorem exists_snapshotRun {n : Nat} {ms : List (Move RouterState Action)} {s : RouterState}
    (h : (router n).Run ms s) :
    ∃ ms' g, (snapshotRouter n).Run ms' (s, g) ∧ ms'.map forget = ms :=
  h.exists_observe ..

def Action.isDispatch : Action → Bool
  | .dispatch _ => true
  | _ => false

/-- A dispatch reads copies equal to the tables copied in this iteration. -/
def CurrentSnapshot (m : Move (RouterState × Snapshot) Action) : Prop :=
  m.act.isDispatch = true → m.pre.1.cache = m.pre.2.copied

/-- A dispatch comes with no failed pop since the last handled packet whose
iteration had copied a record. -/
def NoRecordsLeft (m : Move (RouterState × Snapshot) Action) : Prop :=
  m.act.isDispatch = true → m.pre.2.recordsLeft = false

instance : DecidablePred CurrentSnapshot := fun m =>
  inferInstanceAs (Decidable (m.act.isDispatch = true → m.pre.1.cache = m.pre.2.copied))

instance : DecidablePred NoRecordsLeft := fun m =>
  inferInstanceAs (Decidable (m.act.isDispatch = true → m.pre.2.recordsLeft = false))

/-! ## The copies are the leftovers followed by the current tables -/

/-- One table behind another. -/
def Tables.append (t t' : Tables) : Tables :=
  ⟨t.RoutingTable ++ t'.RoutingTable, t.PendingRequestTable ++ t'.PendingRequestTable⟩

theorem Tables.append_empty (t : Tables) : t.append .empty = t := by
  simp [append, empty]

theorem Tables.append_eq_empty {t t' : Tables} :
    t.append t' = .empty ↔ t = .empty ∧ t' = .empty := by
  obtain ⟨R, P⟩ := t
  obtain ⟨R', P'⟩ := t'
  simp only [append, empty, Tables.mk.injEq, List.append_eq_nil_iff]
  tauto

theorem Tables.append_eq_self {t t' : Tables} : t.append t' = t' ↔ t = .empty := by
  obtain ⟨R, P⟩ := t
  obtain ⟨R', P'⟩ := t'
  simp [append, empty]

/-- How much of the current tables main has copied at each point. -/
def copiedAt (g : Snapshot) : MainPc → Tables
  | .copyPending => .empty
  | .copyRouting => ⟨[], g.copied.PendingRequestTable⟩
  | .poll | .commit _ _ | .terminated => g.copied

/-- Main's copies are what earlier iterations left, followed by what this one
has copied; something was left exactly when the history says so. -/
def SnapshotInv (s : RouterState × Snapshot) : Prop :=
  ∃ left : Tables, s.1.cache = left.append (copiedAt s.2 s.1.main) ∧
    (left = .empty ↔ s.2.recordsLeft = false)

theorem step_snapshotInv {n : Nat} {s s' : RouterState × Snapshot} {a : Action}
    (hi : SnapshotInv s) (h : (snapshotRouter n).step s a s') : SnapshotInv s' := by
  obtain ⟨s, g⟩ := s
  obtain ⟨s', g'⟩ := s'
  obtain ⟨hs, hg⟩ := h
  obtain ⟨left, hcache, hleft⟩ := hi
  dsimp only at hs hg hcache hleft
  subst hg
  cases step_cases hs with
  | copyPending hmain =>
    refine ⟨left, ?_, hleft⟩
    rw [hmain] at hcache
    simp [hcache, copiedAt, Snapshot.update, Tables.append, Tables.empty]
  | copyRouting hmain =>
    refine ⟨left, ?_, hleft⟩
    rw [hmain] at hcache
    simp [hcache, copiedAt, Snapshot.update, Tables.append]
  | idle hmain =>
    -- what this iteration copied joins the leftovers
    rw [hmain] at hcache
    refine ⟨left.append g.copied, ?_, ?_⟩
    · exact hcache.trans (Tables.append_empty _).symm
    · rw [Tables.append_eq_empty, hleft]
      simp [Snapshot.update]
  | dispatch hmain h0 h1 hd =>
    rw [hmain] at hcache
    exact ⟨left, hcache, hleft⟩
  | throws hmain hd =>
    rw [hmain] at hcache
    exact ⟨left, hcache, hleft⟩
  | commit hmain => exact ⟨.empty, (Tables.append_empty _).symm, by simp [Snapshot.update]⟩
  | timerRouting => exact ⟨left, hcache, hleft⟩
  | timerPending => exact ⟨left, hcache, hleft⟩

theorem reachable_snapshotInv {n : Nat} {s : RouterState × Snapshot}
    (h : (snapshotRouter n).Reachable s) : SnapshotInv s := by
  refine h.invariant ?_ ?_
  · intro s hs
    obtain ⟨s, g⟩ := s
    obtain ⟨rfl, rfl⟩ := hs
    exact ⟨.empty, (Tables.append_empty _).symm, by simp [Snapshot.start]⟩
  · intro s a s' hi hs
    exact step_snapshotInv hi hs

/-- When main polls, its copies are the tables of this iteration iff nothing
was left from earlier ones. -/
theorem SnapshotInv.cache_eq_iff {s : RouterState × Snapshot} (h : SnapshotInv s)
    (hmain : s.1.main = .poll) : s.1.cache = s.2.copied ↔ s.2.recordsLeft = false := by
  obtain ⟨left, hcache, hleft⟩ := h
  rw [hcache, hmain, ← hleft]
  exact Tables.append_eq_self

/-! ## Every run -/

theorem move_currentSnapshot_iff {n : Nat} {m : Move (RouterState × Snapshot) Action}
    (hpre : (snapshotRouter n).Reachable m.pre) (hs : (snapshotRouter n).step m.pre m.act m.post) :
    CurrentSnapshot m ↔ NoRecordsLeft m := by
  refine forall_congr' fun hact => ?_
  have hmain : m.pre.1.main = .poll := by
    have hstep := step_cases hs.1
    generalize m.act = a at hact hstep
    generalize m.post.1 = s' at hstep
    cases hstep with
    | dispatch hmain _ _ _ => exact hmain
    | throws hmain _ => exact hmain
    | _ => cases hact
  exact (reachable_snapshotInv hpre).cache_eq_iff hmain

/-- **Every packet of a run is dispatched on the tables copied in its own
iteration iff no packet is dispatched after a failed pop that left records in
the copies.** -/
theorem run_currentSnapshot_iff {n : Nat} {ms : List (Move (RouterState × Snapshot) Action)}
    {s : RouterState × Snapshot} (h : (snapshotRouter n).Run ms s) :
    (∀ m ∈ ms, CurrentSnapshot m) ↔ ∀ m ∈ ms, NoRecordsLeft m :=
  h.forall_iff fun _ => move_currentSnapshot_iff

/-- One iteration of main with no packet in the queue. -/
def idleIteration : List Action := [.copyPending, .copyRouting, .idle]

/-- One pass of the timer over both tables. -/
def timerTick : List Action := [.timerRouting, .timerPending]

/-- Content 7 is learned on interface 1; main copies its record and finds no
packet; the record expires; then a request for content 7 comes in. -/
def requestAfterExpiry : List Action :=
  [.copyPending, .copyRouting, .dispatch (received .ANNOUNCEMENT 7 0 1), .commit]
    ++ idleIteration ++ timerTick ++ timerTick ++ timerTick
    ++ [.copyPending, .copyRouting, .dispatch (received .REQUEST 7 9 0)]

/-- The request is dispatched on a record that the shared table had lost when
it was copied, and is forwarded along it. -/
theorem forwarded_after_expiry :
    ∃ ms s, (snapshotRouter 2).Run ms s ∧ (¬∀ m ∈ ms, CurrentSnapshot m) ∧
      s.2.copied = .empty ∧ s.1.cache.RoutingTable = [⟨7, 1, 0, 25⟩] ∧
      (dispatch 2 s.1.cache (received .REQUEST 7 9 0)).map Prod.fst
        = some [(1, (received .REQUEST 7 9 0)._recvPacket)] := by
  have h : trace (observeStep (step 2) Snapshot.update) (.start, .start) requestAfterExpiry
      = some (_, _) := rfl
  exact ⟨_, _, observe_run_of_trace h, by decide, rfl, rfl, rfl⟩

/-- Without the idle iteration the request is dropped for want of a route. -/
theorem current_without_idle :
    ∃ ms s, (snapshotRouter 2).Run ms s ∧ (∀ m ∈ ms, CurrentSnapshot m) ∧
      s.1.cache.RoutingTable = [] := by
  have h : trace (observeStep (step 2) Snapshot.update) (.start, .start)
      ([.copyPending, .copyRouting, .dispatch (received .ANNOUNCEMENT 7 0 1), .commit]
        ++ timerTick ++ timerTick ++ timerTick
        ++ [.copyPending, .copyRouting, .dispatch (received .REQUEST 7 9 0)])
      = some (_, _) := rfl
  have hrun := observe_run_of_trace h
  exact ⟨_, _, hrun, (run_currentSnapshot_iff hrun).mpr (by decide), rfl⟩

end ContentNetwork.Simplified
