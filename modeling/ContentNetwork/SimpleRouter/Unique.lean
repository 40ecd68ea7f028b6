import ContentNetwork.Simplified.TableInv
import ContentNetwork.SimpleRouter.Threads

/-!
# Whether the keys stay unique

A receive thread of `simple_router` decides on its copies whether a record is
new, and pushes it later under a fresh lock. In between, another thread may
have pushed a record with the same key. The routing table then has two records
for a content, or the pending table two for a request, and nothing removes the
second one.

`run_uniqueKeys_iff` is the exact statement: along any run the keys stay unique
iff at every commit of a REQUEST or an ANNOUNCEMENT whose key was absent from
the thread's copy, the key is still absent from the shared table.
`announced_twice` has runs of two threads where it is not.
-/

namespace ContentNetwork.SimpleRouter

open Lib Lib.Lts
open Simplified (RTrecord PRTrecord Tables HeaderOctets Message Sent sendThrough_of_range
  interfaceSend_some octets)

/-- At most one record for each content ID, and at most one for each content
ID and host ID. -/
structure UniqueKeys (t : Tables) : Prop where
  routing : Keyed.Unique RTrecord.cID t.RoutingTable
  pending : Keyed.Unique PRTrecord.key t.PendingRequestTable

instance : DecidablePred UniqueKeys := fun t =>
  decidable_of_iff
    ((t.RoutingTable.map RTrecord.cID).Nodup ∧ (t.PendingRequestTable.map PRTrecord.key).Nodup)
    ⟨fun h => ⟨h.1, h.2⟩, fun h => ⟨h.1, h.2⟩⟩

/-! ## The locked sections -/

section Commit

variable {n : Nat} {uninitialized : PRTrecord} {cache t : Tables} {m : Message}
  {sent : List Sent} {work : Work}

/-- A key that is absent from the copies is absent from the shared table. -/
def StillAbsent (cache shared : Tables) (m : Message) : Prop :=
  (PacketTypes.ofOctet m._recvPacket.packetType = some .REQUEST →
    Keyed.lookup PRTrecord.key m._recvPacket.requestKey cache.PendingRequestTable = none →
      Keyed.lookup PRTrecord.key m._recvPacket.requestKey shared.PendingRequestTable = none) ∧
  (PacketTypes.ofOctet m._recvPacket.packetType = some .ANNOUNCEMENT →
    Keyed.lookup RTrecord.cID m._recvPacket.ContentID cache.RoutingTable = none →
      Keyed.lookup RTrecord.cID m._recvPacket.ContentID shared.RoutingTable = none)

instance (cache shared : Tables) (m : Message) : Decidable (StillAbsent cache shared m) :=
  inferInstanceAs (Decidable ((_ → _ → _) ∧ (_ → _ → _)))

theorem stillAbsent_request {shared : Tables}
    (htype : PacketTypes.ofOctet m._recvPacket.packetType = some .REQUEST) :
    StillAbsent cache shared m ↔
      (Keyed.lookup PRTrecord.key m._recvPacket.requestKey cache.PendingRequestTable = none →
        Keyed.lookup PRTrecord.key m._recvPacket.requestKey shared.PendingRequestTable = none) := by
  unfold StillAbsent
  rw [htype]
  simp

theorem stillAbsent_announcement {shared : Tables}
    (htype : PacketTypes.ofOctet m._recvPacket.packetType = some .ANNOUNCEMENT) :
    StillAbsent cache shared m ↔
      (Keyed.lookup RTrecord.cID m._recvPacket.ContentID cache.RoutingTable = none →
        Keyed.lookup RTrecord.cID m._recvPacket.ContentID shared.RoutingTable = none) := by
  unfold StillAbsent
  rw [htype]
  simp

/-- The other packets push nothing. -/
theorem stillAbsent_other {shared : Tables}
    (hreq : PacketTypes.ofOctet m._recvPacket.packetType ≠ some .REQUEST)
    (hann : PacketTypes.ofOctet m._recvPacket.packetType ≠ some .ANNOUNCEMENT) :
    StillAbsent cache shared m :=
  ⟨fun h => absurd h hreq, fun h => absurd h hann⟩

/-- What a dispatched packet commits keeps the keys unique exactly when its
key has not come in since the copy. -/
theorem commit_uniqueKeys_iff (ht : UniqueKeys t)
    (h : dispatch n uninitialized cache m = some (sent, work)) :
    UniqueKeys (work.commit t) ↔ StillAbsent cache t m := by
  rcases dispatch_cases h with ⟨htype, hreq⟩ | ⟨htype, hresp⟩ | ⟨htype, hann⟩ | ⟨htype, -, rfl⟩
  · obtain rfl := requestCase_work hreq
    have hiff := @commitRequest_unique_iff (requestedRecord cache m)
      (Keyed.lookup PRTrecord.key m._recvPacket.requestKey cache.PendingRequestTable).isSome
      _ ht.pending
    rw [requestedRecord_key, Option.isSome_eq_false_iff, Option.isNone_iff_eq_none] at hiff
    rw [stillAbsent_request htype, ← hiff]
    exact ⟨fun hu => hu.pending, fun hpending => ⟨ht.routing, hpending⟩⟩
  · obtain ⟨r, rfl⟩ := responseCase_work hresp
    refine iff_of_true ⟨ht.routing, ?_⟩ (stillAbsent_other (by simp [htype]) (by simp [htype]))
    exact ht.pending.sublist (List.eraseP_sublist.map PRTrecord.key)
  · obtain rfl := announcementCase_work hann
    have hiff := @commitAnnouncement_unique_iff (announcedRecord cache m)
      (Keyed.lookup RTrecord.cID m._recvPacket.ContentID cache.RoutingTable).isSome
      _ ht.routing
    rw [announcedRecord_cID, Option.isSome_eq_false_iff, Option.isNone_iff_eq_none] at hiff
    rw [stillAbsent_announcement htype, ← hiff]
    exact ⟨fun hu => hu.routing, fun hrouting => ⟨hrouting, ht.pending⟩⟩
  · exact iff_of_true ht (stillAbsent_other (by simp [htype]) (by simp [htype]))

/-- Copies that name configured interfaces never make `at` throw. -/
theorem responseLoop_ne_none {packet : HeaderOctets} {l : List PRTrecord}
    (hl : ∀ r ∈ l, 0 ≤ r.interface ∧ r.interface < n) (record_test_prt : PRTrecord) :
    responseLoop n packet record_test_prt l ≠ none := by
  induction l generalizing record_test_prt with
  | nil => exact Option.some_ne_none _
  | cons r rest ih =>
    rw [responseLoop]
    split
    · obtain ⟨h0, h1⟩ := hl r (List.mem_cons_self ..)
      rw [sendThrough_of_range h0 h1]
      exact Option.some_ne_none _
    · exact ih (fun x hx => hl x (List.mem_cons_of_mem _ hx)) r

theorem dispatch_ne_none (hc : cache.InRange n) :
    dispatch n uninitialized cache m ≠ none := by
  unfold dispatch
  split
  · unfold requestCase
    dsimp only
    cases hr : Keyed.lookup RTrecord.cID m._recvPacket.ContentID cache.RoutingTable with
    | none => simp
    | some r =>
      obtain ⟨h0, h1⟩ := hc.routing r (Keyed.lookup_mem hr)
      rw [interfaceSend_some, if_pos (by omega : r.interface ≠ -1), sendThrough_of_range h0 h1]
      exact Option.some_ne_none _
  · unfold responseCase
    rw [ne_eq, Option.map_eq_none_iff]
    exact responseLoop_ne_none hc.pending uninitialized
  · exact Option.some_ne_none _
  · exact Option.some_ne_none _

/-- The interface of a new record is the arrival interface, and that of a copy
is in the table. -/
theorem requestedRecord_inRange (hc : cache.InRange n)
    (hm : 0 ≤ m._RxInterface_Num ∧ m._RxInterface_Num < n) :
    0 ≤ (requestedRecord cache m).interface ∧ (requestedRecord cache m).interface < n := by
  unfold requestedRecord requestRecord
  split
  next r hr => exact hc.pending r (Keyed.lookup_mem hr)
  next => exact hm

theorem announcedRecord_inRange (hc : cache.InRange n)
    (hm : 0 ≤ m._RxInterface_Num ∧ m._RxInterface_Num < n) :
    0 ≤ (announcedRecord cache m).interface ∧ (announcedRecord cache m).interface < n := by
  unfold announcedRecord announcementRecord
  split
  next r hr => exact hc.routing r (Keyed.lookup_mem hr)
  next => exact hm

/-- A dispatched packet commits configured interfaces only. -/
theorem commit_inRange (ht : t.InRange n) (hc : cache.InRange n)
    (hm : 0 ≤ m._RxInterface_Num ∧ m._RxInterface_Num < n)
    (h : dispatch n uninitialized cache m = some (sent, work)) : (work.commit t).InRange n := by
  rcases dispatch_cases h with ⟨-, hreq⟩ | ⟨-, hresp⟩ | ⟨-, hann⟩ | ⟨-, -, rfl⟩
  · obtain rfl := requestCase_work hreq
    refine ⟨ht.routing, ?_⟩
    apply Keyed.forall_refresh_or_push ht.pending
    · exact fun _ hx => hx
    · exact requestedRecord_inRange hc hm
  · obtain ⟨r, rfl⟩ := responseCase_work hresp
    exact ⟨ht.routing, fun x hx => ht.pending x (List.mem_of_mem_eraseP hx)⟩
  · obtain rfl := announcementCase_work hann
    refine ⟨?_, ht.pending⟩
    apply Keyed.forall_refresh_or_push ht.routing
    · exact fun _ hx => hx
    · exact announcedRecord_inRange hc hm
  · exact ht

end Commit

/-! ## One step, and every run -/

section Runs

variable {n : Nat}

/-- What a thread knows at each point: its packet came in through a configured
interface, and at a commit also where the work came from. -/
def AtPc (n : Nat) (cache : Tables) : RxPc → Prop
  | .receive => True
  | .copyPending m | .copyRouting m | .dispatch m =>
    0 ≤ m._RxInterface_Num ∧ m._RxInterface_Num < n
  | .commit m work =>
    (0 ≤ m._RxInterface_Num ∧ m._RxInterface_Num < n) ∧
      ∃ uninitialized sent, dispatch n uninitialized cache m = some (sent, work)
  | .terminated => False

/-- The invariant of a receive thread. -/
structure RxInv (n : Nat) (s : RxThread) : Prop where
  cache : s.cache.InRange n
  atPc : AtPc n s.cache s.pc

theorem empty_inRange (n : Nat) : (⟨[], []⟩ : Tables).InRange n := Simplified.Tables.empty_inRange n

/-- A thread's step keeps its invariant and the interfaces of the tables. -/
theorem rx_function_inv {i : Fin n} {t t' : Tables} {s s' : RxThread} {a : RxAction}
    (ht : t.InRange n) (hs : RxInv n s) (h : rx_function n i t s a = some (t', s')) :
    t'.InRange n ∧ RxInv n s' := by
  obtain ⟨hcache, hpc⟩ := hs
  cases rx_function_cases h with
  | receive => exact ⟨ht, hcache, Int.natCast_nonneg _, Int.ofNat_lt.mpr i.isLt⟩
  | copyPending hm =>
    rw [hm] at hpc
    exact ⟨ht, ⟨hcache.routing, List.forall_mem_append.mpr ⟨hcache.pending, ht.pending⟩⟩, hpc⟩
  | copyRouting hm =>
    rw [hm] at hpc
    exact ⟨ht, ⟨List.forall_mem_append.mpr ⟨hcache.routing, ht.routing⟩, hcache.pending⟩, hpc⟩
  | dispatch hm hd =>
    rw [hm] at hpc
    exact ⟨ht, hcache, hpc, _, _, hd⟩
  | throws hm hd => exact absurd hd (dispatch_ne_none hcache)
  | commit hm =>
    rw [hm] at hpc
    obtain ⟨hrange, _, _, hd⟩ := hpc
    exact ⟨commit_inRange ht hcache hrange hd, empty_inRange n, trivial⟩

theorem reachable_inv {s : RouterState n} (h : (router n).Reachable s) :
    s.shared.InRange n ∧ ∀ i, RxInv n (s.threads i) := by
  have hinterleaved : (Threads.system (start n) (rx_function n)).Reachable s := h
  refine Threads.reachable_invariant (I := fun t => t.InRange n) (P := fun _ x => RxInv n x)
    (empty_inRange n) ?_ ?_ hinterleaved
  · exact fun _ => ⟨empty_inRange n, trivial⟩
  · intro i t x a t' x' ht hx hf
    exact rx_function_inv ht hx hf

/-- **In every reachable state the tables name configured interfaces only, and
no thread has been ended by `std::out_of_range`.** -/
theorem reachable_inRange {s : RouterState n} (h : (router n).Reachable s) :
    s.shared.InRange n ∧ ∀ i, (s.threads i).pc ≠ .terminated := by
  obtain ⟨hshared, hthreads⟩ := reachable_inv h
  refine ⟨hshared, fun i hi => ?_⟩
  have hpc := (hthreads i).atPc
  rw [hi] at hpc
  exact hpc

/-- The message whose locked section a move is, and the copies it was
dispatched on. -/
def commitOf (m : Move (RouterState n) (Fin n × RxAction)) : Option (Message × Tables) :=
  match m.act.2, (m.pre.threads m.act.1).pc with
  | .commit, .commit p_message _ => some (p_message, (m.pre.threads m.act.1).cache)
  | _, _ => none

/-- When a commit begins, a key that was absent from the thread's copy is
still absent from the shared table: no other thread has pushed it since. -/
def CommitsNew (m : Move (RouterState n) (Fin n × RxAction)) : Prop :=
  ∀ c ∈ commitOf m, StillAbsent c.2 m.pre.shared c.1

instance : DecidablePred (CommitsNew (n := n)) := fun m =>
  inferInstanceAs (Decidable (∀ c ∈ commitOf m, StillAbsent c.2 m.pre.shared c.1))

/-- One move keeps the keys unique exactly when what it commits as new is. -/
theorem move_uniqueKeys_iff {m : Move (RouterState n) (Fin n × RxAction)}
    (hpre : (router n).Reachable m.pre) (hs : (router n).step m.pre m.act m.post)
    (hu : UniqueKeys m.pre.shared) : UniqueKeys m.post.shared ↔ CommitsNew m := by
  obtain ⟨s, ⟨i, a⟩, s'⟩ := m
  have hstep : Threads.step (rx_function n) s (i, a) = some s' := hs
  obtain ⟨t, x, hf, rfl⟩ := Threads.step_eq_some hstep
  have hpc := ((reachable_inv hpre).2 i).atPc
  cases rx_function_cases hf with
  | receive => exact iff_of_true hu fun c hc => by cases hc
  | copyPending => exact iff_of_true hu fun c hc => by cases hc
  | copyRouting => exact iff_of_true hu fun c hc => by cases hc
  | dispatch => exact iff_of_true hu fun c hc => by cases hc
  | throws => exact iff_of_true hu fun c hc => by cases hc
  | @commit p_message work hm =>
    rw [hm] at hpc
    obtain ⟨-, _, _, hd⟩ := hpc
    have hcommit : commitOf ⟨s, (i, .commit), ⟨work.commit s.shared,
        Function.update s.threads i ⟨.receive, ⟨[], []⟩⟩⟩⟩
        = some (p_message, (s.threads i).cache) := by
      unfold commitOf
      dsimp only
      rw [hm]
    refine (commit_uniqueKeys_iff hu hd).trans ⟨fun habsent c hc => ?_, fun hnew => ?_⟩
    · rw [hcommit] at hc
      obtain rfl := Option.some.inj hc
      exact habsent
    · exact hnew _ hcommit

/-- **The keys stay unique along a run iff every commit of a new record finds
its key still absent from the shared table.** -/
theorem run_uniqueKeys_iff {ms : List (Move (RouterState n) (Fin n × RxAction))}
    {s : RouterState n} (h : (router n).Run ms s) :
    (∀ m ∈ ms, UniqueKeys m.post.shared) ↔ ∀ m ∈ ms, CommitsNew m := by
  refine h.forall_post_iff (I := fun s => UniqueKeys s.shared) ?_ fun m hpre hs hi =>
    move_uniqueKeys_iff hpre hs hi
  intro s hs
  rw [show s = start n from hs]
  exact ⟨List.nodup_nil, List.nodup_nil⟩

end Runs

/-! ## Two threads -/

/-- What a stack cell happens to hold. -/
def leftover : PRTrecord := ⟨0, 0, 0, 0⟩

/-- The same packet on both interfaces; the second thread copies before the
first one commits. -/
def overlapping (packet : HeaderOctets) : List (Fin 2 × RxAction) :=
  [(0, .receive packet), (1, .receive packet), (0, .copyPending), (0, .copyRouting),
    (1, .copyPending), (1, .copyRouting), (0, .dispatch leftover), (1, .dispatch leftover),
    (0, .commit), (1, .commit)]

/-- The same packet on both interfaces, one after the other. -/
def oneByOne (packet : HeaderOctets) : List (Fin 2 × RxAction) :=
  [(0, .receive packet), (0, .copyPending), (0, .copyRouting), (0, .dispatch leftover),
    (0, .commit), (1, .receive packet), (1, .copyPending), (1, .copyRouting),
    (1, .dispatch leftover), (1, .commit)]

/-- Content 7, announced on both interfaces at once, ends up in the routing
table twice, and a request made on both at once in the pending table. -/
theorem announced_twice :
    (∃ ms s, (router 2).Run ms s ∧ s.shared.RoutingTable = [⟨7, 0, 1, 30⟩, ⟨7, 1, 1, 30⟩] ∧
      ¬∀ m ∈ ms, UniqueKeys m.post.shared) ∧
    ∃ ms s, (router 2).Run ms s ∧
      s.shared.PendingRequestTable = [⟨7, 10, 0, 25⟩, ⟨7, 10, 1, 25⟩] ∧
      ¬∀ m ∈ ms, UniqueKeys m.post.shared := by
  have hann : trace (Threads.step (rx_function 2)) (start 2)
      (overlapping (octets .ANNOUNCEMENT 7 1)) = some (_, _) := rfl
  have hreq : trace (Threads.step (rx_function 2)) (start 2)
      (overlapping (octets .REQUEST 7 10)) = some (_, _) := rfl
  exact ⟨⟨_, _, run_of_trace hann, rfl, by decide⟩, ⟨_, _, run_of_trace hreq, rfl, by decide⟩⟩

/-- One after the other they are handled well. -/
theorem announced_once :
    ∃ ms s, (router 2).Run ms s ∧ s.shared.RoutingTable = [⟨7, 0, 1, 30⟩] ∧
      ∀ m ∈ ms, UniqueKeys m.post.shared := by
  have h : trace (Threads.step (rx_function 2)) (start 2)
      (oneByOne (octets .ANNOUNCEMENT 7 1)) = some (_, _) := rfl
  exact ⟨_, _, run_of_trace h, rfl, (run_uniqueKeys_iff (run_of_trace h)).mpr (by decide)⟩

end ContentNetwork.SimpleRouter
