import ContentNetwork.Simplified.TableInv

/-!
# Which table updates survive the commit

When `main` finishes the locked section of an ANNOUNCEMENT for `c`, the
shared routing table should hold a record for `c` with a full ttl, and
likewise the pending table after a REQUEST. The locked section, however,
trusts the flag that `main` computed on its copies: if the copy had the key,
the section only looks for the record to replace or refresh, and does nothing
when the timer has erased it in between (or when the copy was stale).

`run_updateKept_iff` is the exact statement: along any run, every commit
leaves the fresh record iff at every commit whose key was in the copy the
shared table still has that key. `lost_announcement` is a run in which the
update is lost.
-/

namespace ContentNetwork.Simplified

open Lib Lib.Lts

/-- After a commit of an ANNOUNCEMENT or a REQUEST the shared table holds the
packet's record with a full ttl. -/
def UpdateKept (m : Move RouterState Action) : Prop :=
  ∀ msg ∈ commitOf m,
    (PacketTypes.ofOctet msg._recvPacket.packetType = some .ANNOUNCEMENT →
      ∃ r ∈ m.post.shared.RoutingTable,
        r.cID = msg._recvPacket.ContentID ∧ r.ttl_rt = g_ROUTING_TABLE_EXPIRY_TIME) ∧
    (PacketTypes.ofOctet msg._recvPacket.packetType = some .REQUEST →
      ∃ r ∈ m.post.shared.PendingRequestTable,
        r.key = msg._recvPacket.requestKey ∧ r.ttl_val = g_PENDING_TABLE_EXPIRY_TIME)

/-- When a commit begins, a record that main's copy had for the packet's key
is still in the shared table: no timer pass has erased it since the copy. -/
def RecordSurvives (m : Move RouterState Action) : Prop :=
  ∀ msg ∈ commitOf m,
    (PacketTypes.ofOctet msg._recvPacket.packetType = some .ANNOUNCEMENT →
      (∃ r ∈ m.pre.cache.RoutingTable, r.cID = msg._recvPacket.ContentID) →
        ∃ r ∈ m.pre.shared.RoutingTable, r.cID = msg._recvPacket.ContentID) ∧
    (PacketTypes.ofOctet msg._recvPacket.packetType = some .REQUEST →
      (∃ r ∈ m.pre.cache.PendingRequestTable, r.key = msg._recvPacket.requestKey) →
        ∃ r ∈ m.pre.shared.PendingRequestTable, r.key = msg._recvPacket.requestKey)

instance : DecidablePred UpdateKept := fun m =>
  inferInstanceAs (Decidable (∀ msg ∈ commitOf m, _ ∧ _))

instance : DecidablePred RecordSurvives := fun m =>
  inferInstanceAs (Decidable (∀ msg ∈ commitOf m, _ ∧ _))

/-- The locked section of an announcement: the record with the new ttl is in
the table afterwards unless it was expected there and is missing. -/
theorem commitAnnouncement_kept_iff {flag : Bool} {rec : RTrecord} {t : List RTrecord}
    (httl : rec.ttl_rt = g_ROUTING_TABLE_EXPIRY_TIME) :
    (∃ r ∈ commitAnnouncement flag rec t,
        r.cID = rec.cID ∧ r.ttl_rt = g_ROUTING_TABLE_EXPIRY_TIME)
      ↔ (flag = true → ∃ r ∈ t, r.cID = rec.cID) := by
  cases flag with
  | false =>
    refine ⟨fun _ h => (Bool.false_ne_true h).elim, fun _ => ⟨rec, ?_, rfl, httl⟩⟩
    exact List.mem_concat_self
  | true =>
    simp only [commitAnnouncement, if_true, true_implies]
    by_cases hin : ∃ r ∈ t, r.cID = rec.cID
    · rw [if_pos (Keyed.lookup_isSome.mpr hin)]
      exact ⟨fun _ => hin, fun _ => ⟨rec, Keyed.mem_replace_self, rfl, httl⟩⟩
    · rw [if_neg fun h => hin (Keyed.lookup_isSome.mp h)]
      refine ⟨fun h => ?_, fun h => absurd h hin⟩
      obtain ⟨r, hr, hc, -⟩ := h
      exact ⟨r, hr, hc⟩

/-- The locked section of a request, likewise. -/
theorem commitRequest_kept_iff {test_flag : Bool} {rec : PRTrecord} {t : List PRTrecord}
    (httl : rec.ttl_val = g_PENDING_TABLE_EXPIRY_TIME) :
    (∃ r ∈ commitRequest test_flag rec t,
        r.key = rec.key ∧ r.ttl_val = g_PENDING_TABLE_EXPIRY_TIME)
      ↔ (test_flag = true → ∃ r ∈ t, r.key = rec.key) := by
  cases test_flag with
  | false =>
    refine ⟨fun _ h => (Bool.false_ne_true h).elim, fun _ => ⟨rec, ?_, rfl, httl⟩⟩
    exact List.mem_concat_self
  | true =>
    simp only [commitRequest, if_true, true_implies]
    constructor
    · intro hkept
      obtain ⟨r, hr, hkey, -⟩ := hkept
      rcases Keyed.mem_refresh hr with hr | ⟨y, hy, hyk, -⟩
      · exact ⟨r, hr, hkey⟩
      · exact ⟨y, hy, hyk⟩
    · intro hin
      -- the record the search finds is the one that is refreshed
      obtain ⟨y, hy⟩ := Option.isSome_iff_exists.mp (Keyed.lookup_isSome.mpr hin)
      have hfound : Keyed.lookup PRTrecord.key rec.key
          (Keyed.refresh PRTrecord.key rec.key PRTrecord.refreshed t) = some y.refreshed := by
        rw [Keyed.lookup_refresh PRTrecord.key_refreshed, hy, Option.map_some, if_pos rfl]
      exact ⟨_, Keyed.lookup_mem hfound, Keyed.lookup_key hfound, rfl⟩

section Commit

variable {n : Nat} {cache t : Tables} {msg : Message} {sent : List Sent} {work : Work}

/-- A dispatched announcement is kept by its commit unless the copy had a
record that the shared table has lost. -/
theorem announcement_kept_iff (h : dispatch n cache msg = some (sent, work))
    (htype : PacketTypes.ofOctet msg._recvPacket.packetType = some .ANNOUNCEMENT) :
    (∃ r ∈ (work.commit t).RoutingTable,
        r.cID = msg._recvPacket.ContentID ∧ r.ttl_rt = g_ROUTING_TABLE_EXPIRY_TIME)
      ↔ ((∃ r ∈ cache.RoutingTable, r.cID = msg._recvPacket.ContentID) →
          ∃ r ∈ t.RoutingTable, r.cID = msg._recvPacket.ContentID) := by
  rw [dispatch_announcement htype] at h
  obtain rfl := announcementCase_work (Option.some.inj h)
  have hkept := @commitAnnouncement_kept_iff
    (Keyed.lookup RTrecord.cID msg._recvPacket.ContentID cache.RoutingTable).isSome
    (announcedRecord cache msg) t.RoutingTable announcedRecord_ttl
  rw [announcedRecord_cID, Keyed.lookup_isSome] at hkept
  exact hkept

/-- A dispatched request, likewise. -/
theorem request_kept_iff (h : dispatch n cache msg = some (sent, work))
    (htype : PacketTypes.ofOctet msg._recvPacket.packetType = some .REQUEST) :
    (∃ r ∈ (work.commit t).PendingRequestTable,
        r.key = msg._recvPacket.requestKey ∧ r.ttl_val = g_PENDING_TABLE_EXPIRY_TIME)
      ↔ ((∃ r ∈ cache.PendingRequestTable, r.key = msg._recvPacket.requestKey) →
          ∃ r ∈ t.PendingRequestTable, r.key = msg._recvPacket.requestKey) := by
  rw [dispatch_request htype] at h
  obtain rfl := requestCase_work h
  have hkept := @commitRequest_kept_iff
    (Keyed.lookup PRTrecord.key msg._recvPacket.requestKey cache.PendingRequestTable).isSome
    (requestedRecord cache msg) t.PendingRequestTable requestedRecord_ttl
  rw [requestedRecord_key, Keyed.lookup_isSome] at hkept
  exact hkept

end Commit

/-- One move of a run keeps its update exactly when the record it was to
update has survived. -/
theorem move_updateKept_iff {n : Nat} {m : Move RouterState Action}
    (hpre : (router n).Reachable m.pre) (hs : (router n).step m.pre m.act m.post) :
    UpdateKept m ↔ RecordSurvives m := by
  refine forall_congr' fun msg => forall_congr' fun hc => ?_
  obtain ⟨sent, work, hd, hshared⟩ := commit_move hpre hs hc
  rw [hshared]
  refine and_congr (forall_congr' fun htype => ?_) (forall_congr' fun htype => ?_)
  · exact announcement_kept_iff hd htype
  · exact request_kept_iff hd htype

/-- **No update is lost along a run iff, at every commit, no record that main
had copied for the packet's key has been erased.** -/
theorem run_updateKept_iff {n : Nat} {ms : List (Move RouterState Action)} {s : RouterState}
    (h : (router n).Run ms s) : (∀ m ∈ ms, UpdateKept m) ↔ ∀ m ∈ ms, RecordSurvives m :=
  h.forall_iff fun _ => move_updateKept_iff

/-- Content 7 is announced on interface 1 of a router with two interfaces,
and three passes of the timer follow; the third comes after main has popped
the next announcement of content 7 and before it commits it. -/
def expiryBeforeCommit : List Action :=
  [.copyPending, .copyRouting, .dispatch (received .ANNOUNCEMENT 7 0 1), .commit,
    .timerRouting, .timerPending, .timerRouting, .timerPending,
    .copyPending, .copyRouting, .dispatch (received .ANNOUNCEMENT 7 0 1),
    .timerRouting, .commit]

/-- In that run the second announcement leaves no record: the routing table
ends up empty. -/
theorem lost_announcement :
    ∃ ms s, (router 2).Run ms s ∧ s.shared.RoutingTable = [] ∧ ¬∀ m ∈ ms, UpdateKept m := by
  have h : trace (step 2) .start expiryBeforeCommit = some (_, _) := rfl
  exact ⟨_, _, run_of_trace h, rfl, by decide⟩

/-- The same announcements with the timer pass after the commit. -/
theorem kept_announcement :
    ∃ ms s, (router 2).Run ms s ∧ s.shared.RoutingTable = [⟨7, 1, 0, 15⟩] ∧
      ∀ m ∈ ms, UpdateKept m := by
  have h : trace (step 2) .start
      [.copyPending, .copyRouting, .dispatch (received .ANNOUNCEMENT 7 0 1), .commit,
        .timerRouting, .timerPending, .timerRouting, .timerPending,
        .copyPending, .copyRouting, .dispatch (received .ANNOUNCEMENT 7 0 1), .commit,
        .timerRouting] = some (_, _) := rfl
  exact ⟨_, _, run_of_trace h, rfl, (run_updateKept_iff (run_of_trace h)).mpr (by decide)⟩

end ContentNetwork.Simplified
