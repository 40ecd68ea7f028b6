import ContentNetwork.Simplified.MainLoop

/-!
# The tables stay well formed

The shared tables of the simplified router keep unique keys, interfaces of
configured ports and positive ttls in every interleaving of `main` with the
timer (`reachable_wellFormed`); so `MySendingPorts.at` never throws.

Uniqueness is the delicate part. `main` decides between `push_back` and an
update on its local copies, which may be stale, and commits later. It goes
through because the shared tables only *lose* keys while main is away: the
timer erases and nobody else pushes. `LoopInv` therefore carries that every
key of a shared table is in main's copy from the moment of the copy to the
commit. A key absent from the copy is then absent from the shared table, and
pushing it is safe; the copy may well hold more, and hold it twice.
-/

namespace ContentNetwork.Simplified

open Lib Lib.Lts

/-- A routing record as the table may hold it: a configured interface and a
live ttl. -/
def RTrecord.Ok (n : Nat) (r : RTrecord) : Prop :=
  (0 ≤ r.interface ∧ r.interface < n) ∧ 0 < r.ttl_rt ∧ r.ttl_rt ≤ g_ROUTING_TABLE_EXPIRY_TIME

/-- A pending record as the table may hold it. -/
def PRTrecord.Ok (n : Nat) (r : PRTrecord) : Prop :=
  (0 ≤ r.interface ∧ r.interface < n) ∧ 0 < r.ttl_val ∧
    r.ttl_val ≤ g_PENDING_TABLE_EXPIRY_TIME

/-- The representation invariant of a pair of tables. -/
structure Tables.WellFormed (n : Nat) (t : Tables) : Prop where
  routing_unique : Keyed.Unique RTrecord.cID t.RoutingTable
  pending_unique : Keyed.Unique PRTrecord.key t.PendingRequestTable
  routing_ok : ∀ r ∈ t.RoutingTable, r.Ok n
  pending_ok : ∀ r ∈ t.PendingRequestTable, r.Ok n

/-- Copies that may be stale or doubled, but name configured interfaces. -/
structure Tables.InRange (n : Nat) (t : Tables) : Prop where
  routing : ∀ r ∈ t.RoutingTable, 0 ≤ r.interface ∧ r.interface < n
  pending : ∀ r ∈ t.PendingRequestTable, 0 ≤ r.interface ∧ r.interface < n

/-- Every routing key of `t` is a routing key of the copy `c`. -/
def RoutingCovered (t c : Tables) : Prop :=
  ∀ r ∈ t.RoutingTable, ∃ x ∈ c.RoutingTable, x.cID = r.cID

/-- Every pending key of `t` is a pending key of the copy `c`. -/
def PendingCovered (t c : Tables) : Prop :=
  ∀ r ∈ t.PendingRequestTable, ∃ x ∈ c.PendingRequestTable, x.key = r.key

/-- What main knows about its copies at each point of the loop; at a commit,
also where the work came from. -/
def AtPc (n : Nat) (shared cache : Tables) : MainPc → Prop
  | .copyPending => True
  | .copyRouting => PendingCovered shared cache
  | .poll => PendingCovered shared cache ∧ RoutingCovered shared cache
  | .commit m work =>
    PendingCovered shared cache ∧ RoutingCovered shared cache ∧
      (0 ≤ m._RxInterface_Num ∧ m._RxInterface_Num < n) ∧
      ∃ sent, dispatch n cache m = some (sent, work)
  | .terminated => False

/-- The loop invariant of the router. -/
structure LoopInv (n : Nat) (s : RouterState) : Prop where
  shared : s.shared.WellFormed n
  cache : s.cache.InRange n
  atPc : AtPc n s.shared s.cache s.main

theorem Tables.WellFormed.inRange {n : Nat} {t : Tables} (h : t.WellFormed n) : t.InRange n :=
  ⟨fun r hr => (h.routing_ok r hr).1, fun r hr => (h.pending_ok r hr).1⟩

theorem Tables.empty_wellFormed (n : Nat) : Tables.empty.WellFormed n := by
  refine ⟨List.nodup_nil, List.nodup_nil, ?_, ?_⟩ <;> intro r hr <;> cases hr

theorem Tables.empty_inRange (n : Nat) : Tables.empty.InRange n :=
  (Tables.empty_wellFormed n).inRange

theorem start_loopInv (n : Nat) : LoopInv n .start :=
  ⟨Tables.empty_wellFormed n, Tables.empty_inRange n, trivial⟩

/-! ## Losing keys keeps what main knows -/

/-- Main's knowledge survives any change of the shared tables that adds no
key. -/
theorem AtPc.mono {n : Nat} {t t' c : Tables} {pc : MainPc}
    (hR : ∀ r' ∈ t'.RoutingTable, ∃ r ∈ t.RoutingTable, r.cID = r'.cID)
    (hP : ∀ r' ∈ t'.PendingRequestTable, ∃ r ∈ t.PendingRequestTable, r.key = r'.key)
    (h : AtPc n t c pc) : AtPc n t' c pc := by
  have hpend : PendingCovered t c → PendingCovered t' c := by
    intro hc r' hr'
    obtain ⟨r, hr, hkey⟩ := hP r' hr'
    obtain ⟨x, hx, hxr⟩ := hc r hr
    exact ⟨x, hx, hxr.trans hkey⟩
  have hrout : RoutingCovered t c → RoutingCovered t' c := by
    intro hc r' hr'
    obtain ⟨r, hr, hkey⟩ := hR r' hr'
    obtain ⟨x, hx, hxr⟩ := hc r hr
    exact ⟨x, hx, hxr.trans hkey⟩
  cases pc with
  | copyPending => trivial
  | copyRouting => exact hpend h
  | poll => exact ⟨hpend h.1, hrout h.2⟩
  | commit m work => exact ⟨hpend h.1, hrout h.2.1, h.2.2⟩
  | terminated => exact h

/-- A timer pass over the routing table keeps the invariant of the tables. -/
theorem timerRouting_wellFormed {n : Nat} {t : Tables} {l : List RTrecord}
    (h : t.WellFormed n) (hl : timerRouting t.RoutingTable = some l) :
    ({ t with RoutingTable := l } : Tables).WellFormed n := by
  refine ⟨h.routing_unique.sublist (timerPass_keys RTrecord.cID_age hl), h.pending_unique, ?_,
    h.pending_ok⟩
  intro r hr
  rcases mem_timerPass hl r hr with hr | ⟨x, hx, rfl, hpos⟩
  · exact h.routing_ok r hr
  · obtain ⟨hrange, -, hle⟩ := h.routing_ok x hx
    refine ⟨hrange, hpos, ?_⟩
    show x.ttl_rt - 10 ≤ _
    omega

/-- A timer pass over the pending table keeps the invariant of the tables. -/
theorem timerPending_wellFormed {n : Nat} {t : Tables} {l : List PRTrecord}
    (h : t.WellFormed n) (hl : timerPending t.PendingRequestTable = some l) :
    ({ t with PendingRequestTable := l } : Tables).WellFormed n := by
  refine ⟨h.routing_unique, h.pending_unique.sublist (timerPass_keys PRTrecord.key_age hl),
    h.routing_ok, ?_⟩
  intro r hr
  rcases mem_timerPass hl r hr with hr | ⟨x, hx, rfl, hpos⟩
  · exact h.pending_ok r hr
  · obtain ⟨hrange, -, hle⟩ := h.pending_ok x hx
    refine ⟨hrange, hpos, ?_⟩
    show x.ttl_val - 10 ≤ _
    omega

/-! ## What a case commits -/

section Dispatch

variable {n : Nat} {cache : Tables} {m : Message} {sent : List Sent} {work : Work}

/-- Copies that name configured interfaces never make `at` throw. -/
theorem dispatch_ne_none (hc : cache.InRange n) : dispatch n cache m ≠ none := by
  unfold dispatch
  split
  · unfold requestCase
    dsimp only
    cases hr : Keyed.lookup RTrecord.cID m._recvPacket.ContentID cache.RoutingTable with
    | none => simp
    | some r =>
      obtain ⟨h0, h1⟩ := hc.routing r (Keyed.lookup_mem hr)
      rw [interfaceSend_some, if_pos (by omega : r.interface ≠ -1), sendThrough_of_range h0 h1]
      simp
  · unfold responseCase
    split
    next r hr =>
      obtain ⟨h0, h1⟩ := hc.pending r (Keyed.lookup_mem hr)
      rw [sendThrough_of_range h0 h1]
      simp
    next => simp
  · simp
  · simp

/-- The record of a request may be held. -/
theorem requestedRecord_ok (hc : cache.InRange n)
    (hm : 0 ≤ m._RxInterface_Num ∧ m._RxInterface_Num < n) : (requestedRecord cache m).Ok n := by
  refine ⟨?_, ?_, ?_⟩
  · unfold requestedRecord requestRecord
    split
    next r hr => exact hc.pending r (Keyed.lookup_mem hr)
    next => exact hm
  · rw [requestedRecord_ttl]
    decide
  · rw [requestedRecord_ttl]

/-- The record of an announcement may be held. -/
theorem announcedRecord_ok (hc : cache.InRange n)
    (hm : 0 ≤ m._RxInterface_Num ∧ m._RxInterface_Num < n) : (announcedRecord cache m).Ok n := by
  refine ⟨?_, ?_, ?_⟩
  · unfold announcedRecord
    rcases adoptAnnouncement_interface
      (Keyed.lookup RTrecord.cID m._recvPacket.ContentID cache.RoutingTable)
      m._recvPacket.ContentID m._recvPacket.hostOrHops m._RxInterface_Num with he | ⟨r, hr, he⟩
    · rw [he]
      exact hm
    · rw [he]
      exact hc.routing r (Keyed.lookup_mem hr)
  · rw [announcedRecord_ttl]
    decide
  · rw [announcedRecord_ttl]

/-- A request's locked section keeps the pending table, if a record is pushed
only when none has its key. -/
theorem commitRequest_ok {test_flag : Bool} {rec : PRTrecord} {t : List PRTrecord}
    (hu : Keyed.Unique PRTrecord.key t) (hok : ∀ r ∈ t, r.Ok n) (hrec : rec.Ok n)
    (hnew : test_flag = false → ∀ r ∈ t, r.key ≠ rec.key) :
    Keyed.Unique PRTrecord.key (commitRequest test_flag rec t) ∧
      ∀ r ∈ commitRequest test_flag rec t, r.Ok n := by
  constructor
  · apply (Keyed.unique_refresh_or_push_iff PRTrecord.key_refreshed hu).mpr
    exact fun hflag => Keyed.lookup_eq_none.mpr (hnew hflag)
  · apply Keyed.forall_refresh_or_push hok _ hrec
    intro y hy
    refine ⟨hy.1, ?_, Int.le_refl _⟩
    show 0 < g_PENDING_TABLE_EXPIRY_TIME
    decide

/-- An announcement's locked section, likewise. -/
theorem commitAnnouncement_ok {flag : Bool} {rec : RTrecord} {t : List RTrecord}
    (hu : Keyed.Unique RTrecord.cID t) (hok : ∀ r ∈ t, r.Ok n) (hrec : rec.Ok n)
    (hnew : flag = false → ∀ r ∈ t, r.cID ≠ rec.cID) :
    Keyed.Unique RTrecord.cID (commitAnnouncement flag rec t) ∧
      ∀ r ∈ commitAnnouncement flag rec t, r.Ok n := by
  cases flag with
  | false =>
    exact ⟨Keyed.unique_push hu (hnew rfl), Keyed.forall_push hok hrec⟩
  | true =>
    simp only [commitAnnouncement, if_true]
    split
    · refine ⟨Keyed.unique_replace hu, fun r hr => ?_⟩
      rcases Keyed.mem_replace hr with hr | hr
      · exact hok r hr
      · rw [hr]
        exact hrec
    · exact ⟨hu, hok⟩

/-- The locked section keeps the tables well formed, given that the copies
the case worked on cover the shared tables. -/
theorem commit_wellFormed {t : Tables} (ht : t.WellFormed n) (hc : cache.InRange n)
    (hP : PendingCovered t cache) (hR : RoutingCovered t cache)
    (hm : 0 ≤ m._RxInterface_Num ∧ m._RxInterface_Num < n)
    (h : dispatch n cache m = some (sent, work)) : (work.commit t).WellFormed n := by
  obtain ⟨hRu, hPu, hRok, hPok⟩ := ht
  rcases dispatch_cases h with ⟨-, hreq⟩ | ⟨-, hresp⟩ | ⟨-, hann⟩ | ⟨-, -, rfl⟩
  · obtain rfl := requestCase_work hreq
    -- absent from the copy, hence absent from the shared table
    have hnew : (Keyed.lookup PRTrecord.key m._recvPacket.requestKey
        cache.PendingRequestTable).isSome = false →
          ∀ r ∈ t.PendingRequestTable, r.key ≠ (requestedRecord cache m).key := by
      intro hflag r hr he
      obtain ⟨x, hx, hxr⟩ := hP r hr
      exact Keyed.lookup_isSome_eq_false.mp hflag x hx (hxr.trans (he.trans requestedRecord_key))
    obtain ⟨hPu', hPok'⟩ := commitRequest_ok hPu hPok (requestedRecord_ok hc hm) hnew
    exact ⟨hRu, hPu', hRok, hPok'⟩
  · obtain rfl := responseCase_work hresp
    exact ⟨hRu, hPu, hRok, hPok⟩
  · obtain rfl := announcementCase_work hann
    have hnew : (Keyed.lookup RTrecord.cID m._recvPacket.ContentID cache.RoutingTable).isSome
        = false → ∀ r ∈ t.RoutingTable, r.cID ≠ (announcedRecord cache m).cID := by
      intro hflag r hr he
      obtain ⟨x, hx, hxr⟩ := hR r hr
      exact Keyed.lookup_isSome_eq_false.mp hflag x hx (hxr.trans (he.trans announcedRecord_cID))
    obtain ⟨hRu', hRok'⟩ := commitAnnouncement_ok hRu hRok (announcedRecord_ok hc hm) hnew
    exact ⟨hRu', hPu, hRok', hPok⟩
  · exact ⟨hRu, hPu, hRok, hPok⟩

/-- It keeps interfaces configured in any case. -/
theorem commit_inRange {t : Tables} (ht : t.InRange n) (hc : cache.InRange n)
    (hm : 0 ≤ m._RxInterface_Num ∧ m._RxInterface_Num < n)
    (h : dispatch n cache m = some (sent, work)) : (work.commit t).InRange n := by
  rcases dispatch_cases h with ⟨-, hreq⟩ | ⟨-, hresp⟩ | ⟨-, hann⟩ | ⟨-, -, rfl⟩
  · obtain rfl := requestCase_work hreq
    exact ⟨ht.routing, Keyed.forall_refresh_or_push ht.pending (fun _ hx => hx)
      (requestedRecord_ok hc hm).1⟩
  · obtain rfl := responseCase_work hresp
    exact ht
  · obtain rfl := announcementCase_work hann
    have hnew := (announcedRecord_ok hc hm).1
    refine ⟨?_, ht.pending⟩
    simp only [Work.commit, commitAnnouncement]
    split
    · split
      · intro r hr
        rcases Keyed.mem_replace hr with hr | rfl
        · exact ht.routing r hr
        · exact hnew
      · exact ht.routing
    · exact Keyed.forall_push ht.routing hnew
  · exact ht

end Dispatch

/-! ## One step, and every run -/

/-- Every action of main or of the timer preserves the loop invariant. -/
theorem step_loopInv {n : Nat} {s s' : RouterState} {a : Action} (hi : LoopInv n s)
    (h : step n s a = some s') : LoopInv n s' := by
  obtain ⟨hshared, hcache, hpc⟩ := hi
  cases step_cases h with
  | copyPending hmain =>
    refine ⟨hshared, ⟨hcache.routing, ?_⟩, ?_⟩
    · exact List.forall_mem_append.mpr ⟨hcache.pending, hshared.inRange.pending⟩
    · intro r hr
      exact ⟨r, List.mem_append_right _ hr, rfl⟩
  | copyRouting hmain =>
    rw [hmain] at hpc
    refine ⟨hshared, ⟨?_, hcache.pending⟩, hpc, ?_⟩
    · exact List.forall_mem_append.mpr ⟨hcache.routing, hshared.inRange.routing⟩
    · intro r hr
      exact ⟨r, List.mem_append_right _ hr, rfl⟩
  | idle hmain => exact ⟨hshared, hcache, trivial⟩
  | @dispatch m sent work hmain h0 h1 hd =>
    rw [hmain] at hpc
    exact ⟨hshared, hcache, hpc.1, hpc.2, ⟨h0, h1⟩, sent, hd⟩
  | throws hmain hd => exact absurd hd (dispatch_ne_none hcache)
  | @commit m work hmain =>
    rw [hmain] at hpc
    obtain ⟨hP, hR, hm, sent, hd⟩ := hpc
    exact ⟨commit_wellFormed hshared hcache hP hR hm hd, Tables.empty_inRange n, trivial⟩
  | @timerRouting t htimer ht =>
    refine ⟨timerRouting_wellFormed hshared ht, hcache, hpc.mono ?_ ?_⟩
    · exact timerPass_key_mem RTrecord.cID_age ht
    · exact fun r hr => ⟨r, hr, rfl⟩
  | @timerPending t htimer ht =>
    refine ⟨timerPending_wellFormed hshared ht, hcache, hpc.mono ?_ ?_⟩
    · exact fun r hr => ⟨r, hr, rfl⟩
    · exact timerPass_key_mem PRTrecord.key_age ht

theorem reachable_loopInv {n : Nat} {s : RouterState} (h : (router n).Reachable s) :
    LoopInv n s := by
  refine h.invariant ?_ ?_
  · intro s hs
    rw [hs]
    exact start_loopInv n
  · intro s a s' hi hs
    exact step_loopInv hi hs

/-- **The tables are well formed in every reachable state**, and main has not
been ended by `std::out_of_range`. -/
theorem reachable_wellFormed {n : Nat} {s : RouterState} (h : (router n).Reachable s) :
    s.shared.WellFormed n ∧ s.main ≠ .terminated := by
  obtain ⟨hshared, -, hpc⟩ := reachable_loopInv h
  refine ⟨hshared, fun hmain => ?_⟩
  rw [hmain] at hpc
  exact hpc

/-- The invariant after an announcement and a timer pass. -/
theorem reachable_wellFormed_aged :
    (⟨[⟨7, 1, 0, 15⟩], []⟩ : Tables).WellFormed 2 ∧ MainPc.copyPending ≠ .terminated := by
  have h : trace (step 2) .start
      [.copyPending, .copyRouting, .dispatch (received .ANNOUNCEMENT 7 0 1), .commit,
        .timerRouting]
      = some (_, ⟨⟨[⟨7, 1, 0, 15⟩], []⟩, .empty, .copyPending, .pending⟩) := rfl
  exact reachable_wellFormed (run_of_trace h).reachable

/-- A commit in a run works on what its message's dispatch left, with the
copies that dispatch read. -/
theorem commit_move {n : Nat} {m : Move RouterState Action} {msg : Message}
    (hpre : (router n).Reachable m.pre) (hs : (router n).step m.pre m.act m.post)
    (hc : commitOf m = some msg) :
    ∃ sent work, dispatch n m.pre.cache msg = some (sent, work) ∧
      m.post.shared = work.commit m.pre.shared := by
  obtain ⟨hact, work, hmain⟩ := commitOf_eq_some hc
  have hpc := (reachable_loopInv hpre).atPc
  rw [hmain] at hpc
  obtain ⟨-, -, -, sent, hd⟩ := hpc
  rw [hact] at hs
  cases h : m.post with
  | mk shared cache main timer =>
    rw [h] at hs
    cases step_cases hs with
    | @commit msg' work' hmain' =>
      rw [hmain] at hmain'
      cases hmain'
      exact ⟨sent, work, hd, rfl⟩

end ContentNetwork.Simplified
