import ContentNetwork.Simplified.Atomic

/-!
# Where records come from, and where packets go

A routing record says: an announcement with this content ID and hop count came
in on this interface. A pending record says the same of a request and its key.
`Tables.LearnedFrom` makes that an invariant, for any set of messages: every
record of the tables was learned from one of them. Neither the timer nor a
copy disturbs it, however stale the copy is, and the work of a dispatched
message adds that message only (`commit_learned`).

So the router never makes up a direction (`dispatch_justified`): a request
leaves where an announcement of its content came in, a response where a
request of its key did. `run_justified` says so for every interleaving of
`main` with the timer.
-/

namespace ContentNetwork.Simplified

open Lib Lib.Lts

/-- The record holds what an announcement said, and where it came in. -/
def RTrecord.LearnedFrom (r : RTrecord) (m : Message) : Prop :=
  PacketTypes.ofOctet m._recvPacket.packetType = some .ANNOUNCEMENT ∧
    r.cID = m._recvPacket.ContentID ∧ r.num_hops = m._recvPacket.hostOrHops ∧
    r.interface = m._RxInterface_Num

/-- The record has the key of a request, and where it came in. -/
def PRTrecord.LearnedFrom (r : PRTrecord) (m : Message) : Prop :=
  PacketTypes.ofOctet m._recvPacket.packetType = some .REQUEST ∧
    r.key = m._recvPacket.requestKey ∧ r.interface = m._RxInterface_Num

/-- Every record was learned from a message in `came`. -/
structure Tables.LearnedFrom (came : Message → Prop) (t : Tables) : Prop where
  routing : ∀ r ∈ t.RoutingTable, ∃ m, came m ∧ r.LearnedFrom m
  pending : ∀ r ∈ t.PendingRequestTable, ∃ m, came m ∧ r.LearnedFrom m

/-- Where a packet may be sent while `m` is handled. -/
def Justified (came : Message → Prop) (n : Nat) (m : Message) (x : Sent) : Prop :=
  (PacketTypes.ofOctet m._recvPacket.packetType = some .REQUEST ∧ x.2 = m._recvPacket ∧
    ∃ a, came a ∧ PacketTypes.ofOctet a._recvPacket.packetType = some .ANNOUNCEMENT ∧
      a._recvPacket.ContentID = m._recvPacket.ContentID ∧ a._RxInterface_Num = x.1) ∨
  (PacketTypes.ofOctet m._recvPacket.packetType = some .RESPONSE ∧ x.2 = m._recvPacket ∧
    ∃ a, came a ∧ PacketTypes.ofOctet a._recvPacket.packetType = some .REQUEST ∧
      a._recvPacket.requestKey = m._recvPacket.requestKey ∧ a._RxInterface_Num = x.1) ∨
  (PacketTypes.ofOctet m._recvPacket.packetType = some .ANNOUNCEMENT ∧
    x.2 = m._recvPacket.nextHop ∧ 0 ≤ x.1 ∧ x.1 < n ∧ x.1 ≠ m._RxInterface_Num)

section Learned

variable {came came' : Message → Prop} {t t' cache : Tables} {m : Message} {n : Nat}
  {sent : List Sent} {work : Work}

theorem empty_learned : Tables.empty.LearnedFrom came :=
  ⟨fun _ hr => absurd hr List.not_mem_nil, fun _ hr => absurd hr List.not_mem_nil⟩

theorem Tables.LearnedFrom.mono (hmono : ∀ m, came m → came' m) (h : t.LearnedFrom came) :
    t.LearnedFrom came' := by
  refine ⟨fun r hr => ?_, fun r hr => ?_⟩
  · obtain ⟨m, hm, hrm⟩ := h.routing r hr
    exact ⟨m, hmono m hm, hrm⟩
  · obtain ⟨m, hm, hrm⟩ := h.pending r hr
    exact ⟨m, hmono m hm, hrm⟩

/-! ## The timer -/

theorem timerRouting_learned {l : List RTrecord} (h : t.LearnedFrom came)
    (hl : timerRouting t.RoutingTable = some l) :
    ({ t with RoutingTable := l } : Tables).LearnedFrom came := by
  refine ⟨fun r hr => ?_, h.pending⟩
  rcases mem_timerPass hl r hr with hr | ⟨x, hx, rfl, -⟩
  · exact h.routing r hr
  · exact h.routing x hx

theorem timerPending_learned {l : List PRTrecord} (h : t.LearnedFrom came)
    (hl : timerPending t.PendingRequestTable = some l) :
    ({ t with PendingRequestTable := l } : Tables).LearnedFrom came := by
  refine ⟨h.routing, fun r hr => ?_⟩
  rcases mem_timerPass hl r hr with hr | ⟨x, hx, rfl, -⟩
  · exact h.pending r hr
  · exact h.pending x hx

/-! ## A dispatched message -/

/-- The record of a request was learned from it, or before. -/
theorem requestedRecord_learned (hc : cache.LearnedFrom came) (hm : came m)
    (ht : PacketTypes.ofOctet m._recvPacket.packetType = some .REQUEST) :
    ∃ a, came a ∧ (requestedRecord cache m).LearnedFrom a := by
  cases hf : Keyed.lookup PRTrecord.key m._recvPacket.requestKey cache.PendingRequestTable with
  | none =>
    refine ⟨m, hm, ht, requestedRecord_key, ?_⟩
    unfold requestedRecord
    rw [hf]
    rfl
  | some r =>
    obtain ⟨a, ha, hra⟩ := hc.pending r (Keyed.lookup_mem hf)
    refine ⟨a, ha, ?_⟩
    unfold requestedRecord
    rw [hf]
    exact hra

/-- The record of an announcement with too many hops was learned before. -/
theorem ignoredRecord_learned (hc : cache.LearnedFrom came) (h : ¬Adopts cache m) :
    ∃ a, came a ∧ (announcedRecord cache m).LearnedFrom a := by
  obtain ⟨r, hr, hlt⟩ := not_adopts h
  obtain ⟨a, ha, hta, hcID, hhops, hinterface⟩ := hc.routing r (Keyed.lookup_mem hr)
  obtain ⟨hhops', hinterface', -⟩ := @adoptAnnouncement_of_lt r
    m._recvPacket.ContentID m._recvPacket.hostOrHops m._RxInterface_Num hlt
  have hkey : r.cID = m._recvPacket.ContentID := Keyed.lookup_key hr
  refine ⟨a, ha, hta, ?_, ?_, ?_⟩
  · exact announcedRecord_cID.trans (hkey.symm.trans hcID)
  · unfold announcedRecord
    rw [hr, hhops', hhops]
  · unfold announcedRecord
    rw [hr, hinterface', hinterface]

/-- The record of an announcement was learned from it, or before. -/
theorem announcedRecord_learned (hc : cache.LearnedFrom came) (hm : came m)
    (ht : PacketTypes.ofOctet m._recvPacket.packetType = some .ANNOUNCEMENT) :
    ∃ a, came a ∧ (announcedRecord cache m).LearnedFrom a := by
  by_cases ha : Adopts cache m
  · obtain ⟨hhops, hinterface, -⟩ := @adoptAnnouncement_of_le _
      m._recvPacket.ContentID m._recvPacket.hostOrHops m._RxInterface_Num ha
    exact ⟨m, hm, ht, announcedRecord_cID, hhops, hinterface⟩
  · exact ignoredRecord_learned hc ha

/-- The locked section of an announcement adds its record at most. -/
theorem commitAnnouncement_learned (h : t.LearnedFrom came) (flag : Bool) {record : RTrecord}
    (hnew : ∃ a, came a ∧ record.LearnedFrom a) :
    ({ t with RoutingTable := commitAnnouncement flag record t.RoutingTable } :
      Tables).LearnedFrom came := by
  refine ⟨?_, h.pending⟩
  simp only [commitAnnouncement]
  split
  · split
    · intro r hr
      rcases Keyed.mem_replace hr with hr | rfl
      · exact h.routing r hr
      · exact hnew
    · exact h.routing
  · exact Keyed.forall_push h.routing hnew

/-- The locked section of a message adds records learned from that message
only, however stale the copies are that it was dispatched on. -/
theorem commit_learned (h : t.LearnedFrom came) (hc : cache.LearnedFrom came) (hm : came m)
    (hd : dispatch n cache m = some (sent, work)) : (work.commit t).LearnedFrom came := by
  rcases dispatch_cases hd with ⟨ht, hreq⟩ | ⟨-, hresp⟩ | ⟨ht, hann⟩ | ⟨-, -, rfl⟩
  · obtain rfl := requestCase_work hreq
    refine ⟨h.routing, ?_⟩
    exact Keyed.forall_refresh_or_push h.pending (fun _ hx => hx)
      (requestedRecord_learned hc hm ht)
  · obtain rfl := responseCase_work hresp
    exact h
  · obtain rfl := announcementCase_work hann
    exact commitAnnouncement_learned h _ (announcedRecord_learned hc hm ht)
  · exact h

/-- What is sent while a message is handled goes where a record leads, and the
record was learned from a message that came in there. -/
theorem dispatch_justified (hc : cache.LearnedFrom came)
    (hd : dispatch n cache m = some (sent, work)) : ∀ x ∈ sent, Justified came n m x := by
  have hnothing : ∀ {x : Sent}, x ∈ ([] : List Sent) → Justified came n m x :=
    fun hx => absurd hx List.not_mem_nil
  intro x hx
  rcases dispatch_cases hd with ⟨ht, hreq⟩ | ⟨ht, hresp⟩ | ⟨ht, hann⟩ | ⟨-, rfl, -⟩
  · unfold requestCase at hreq
    dsimp only at hreq
    split at hreq
    next hne =>
      obtain ⟨sent', hsend, hs⟩ := Option.map_eq_some_iff.mp hreq
      obtain ⟨rfl, -⟩ := Prod.mk.inj hs
      obtain ⟨-, -, rfl⟩ := sendThrough_eq_some hsend
      obtain rfl := List.mem_singleton.mp hx
      cases hr : Keyed.lookup RTrecord.cID m._recvPacket.ContentID cache.RoutingTable with
      | none =>
        rw [hr] at hne
        exact absurd rfl hne
      | some r =>
        obtain ⟨a, ha, hta, hcID, -, hinterface⟩ := hc.routing r (Keyed.lookup_mem hr)
        have hkey : r.cID = m._recvPacket.ContentID := Keyed.lookup_key hr
        exact Or.inl ⟨ht, rfl, a, ha, hta, hcID.symm.trans hkey, hinterface.symm⟩
    next =>
      obtain ⟨rfl, -⟩ := Prod.mk.inj (Option.some.inj hreq)
      exact hnothing hx
  · unfold responseCase at hresp
    split at hresp
    next r hr =>
      obtain ⟨sent', hsend, hs⟩ := Option.map_eq_some_iff.mp hresp
      obtain ⟨rfl, -⟩ := Prod.mk.inj hs
      obtain ⟨-, -, rfl⟩ := sendThrough_eq_some hsend
      obtain rfl := List.mem_singleton.mp hx
      obtain ⟨a, ha, hta, hkey, hinterface⟩ := hc.pending r (Keyed.lookup_mem hr)
      have hkey' : r.key = m._recvPacket.requestKey := Keyed.lookup_key hr
      exact Or.inr (Or.inl ⟨ht, rfl, a, ha, hta, hkey.symm.trans hkey', hinterface.symm⟩)
    next =>
      obtain ⟨rfl, -⟩ := Prod.mk.inj (Option.some.inj hresp)
      exact hnothing hx
  · rw [announcementCase_sent hann] at hx
    split at hx
    · obtain ⟨h0, h1, hne, hp⟩ := mem_broadcast.mp hx
      exact Or.inr (Or.inr ⟨ht, hp, h0, h1, hne⟩)
    · exact hnothing hx
  · exact hnothing hx

/-- The same for a packet handled as one step. -/
theorem handlePacket_learned (h : t.LearnedFrom came) (hm : came m)
    (hh : handlePacket n t m = some (t', sent)) : t'.LearnedFrom came := by
  obtain ⟨work, hd, rfl⟩ := handlePacket_eq_some hh
  exact commit_learned h h hm hd

/-- Nothing is learned from an announcement with too many hops. -/
theorem handlePacket_ignored_learned (h : t.LearnedFrom came) (hnot : ¬Adopts t m)
    (ht : PacketTypes.ofOctet m._recvPacket.packetType = some .ANNOUNCEMENT)
    (hh : handlePacket n t m = some (t', sent)) : t'.LearnedFrom came := by
  obtain ⟨work, hd, rfl⟩ := handlePacket_eq_some hh
  rw [dispatch_announcement ht] at hd
  obtain rfl := announcementCase_work (Option.some.inj hd)
  exact commitAnnouncement_learned h _ (ignoredRecord_learned h hnot)

end Learned

/-! ## Every interleaving -/

/-- `main` has dispatched the message in one of the moves. -/
def Dispatched (ms : List (Move RouterState Action)) (m : Message) : Prop :=
  ∃ mv ∈ ms, mv.act = .dispatch m

/-- Every record of the router, shared or copied, was learned from a message in
`came`, and the message whose locked section is next is one of them. -/
structure LearnedInv (n : Nat) (came : Message → Prop) (s : RouterState) : Prop where
  shared : s.shared.LearnedFrom came
  cache : s.cache.LearnedFrom came
  work : ∀ m work, s.main = .commit m work →
    came m ∧ ∃ sent, dispatch n s.cache m = some (sent, work)

theorem LearnedInv.mono {n : Nat} {s : RouterState} {came came' : Message → Prop}
    (hmono : ∀ m, came m → came' m) (hi : LearnedInv n came s) : LearnedInv n came' s := by
  refine ⟨hi.shared.mono hmono, hi.cache.mono hmono, fun m work he => ?_⟩
  obtain ⟨hm, hsent⟩ := hi.work m work he
  exact ⟨hmono m hm, hsent⟩

/-- Every action keeps the invariant, for messages that include the one it
dispatches. -/
theorem step_learnedInv {n : Nat} {s s' : RouterState} {a : Action} {came : Message → Prop}
    (hi : LearnedInv n came s) (ha : ∀ m, a = .dispatch m → came m) (h : step n s a = some s') :
    LearnedInv n came s' := by
  obtain ⟨hshared, hcache, hwork⟩ := hi
  cases step_cases h with
  | copyPending hmain =>
    refine ⟨hshared, ⟨hcache.routing, ?_⟩, fun _ _ he => nomatch he⟩
    exact List.forall_mem_append.mpr ⟨hcache.pending, hshared.pending⟩
  | copyRouting hmain =>
    refine ⟨hshared, ⟨?_, hcache.pending⟩, fun _ _ he => nomatch he⟩
    exact List.forall_mem_append.mpr ⟨hcache.routing, hshared.routing⟩
  | idle hmain => exact ⟨hshared, hcache, fun _ _ he => nomatch he⟩
  | @dispatch m sent work hmain h0 h1 hd =>
    refine ⟨hshared, hcache, fun m' work' he => ?_⟩
    obtain ⟨rfl, rfl⟩ := MainPc.commit.inj he
    exact ⟨ha m rfl, sent, hd⟩
  | throws hmain hd => exact ⟨hshared, hcache, fun _ _ he => nomatch he⟩
  | @commit m work hmain =>
    obtain ⟨hm, sent, hd⟩ := hwork m work hmain
    exact ⟨commit_learned hshared hcache hm hd, empty_learned, fun _ _ he => nomatch he⟩
  | timerRouting htimer hl => exact ⟨timerRouting_learned hshared hl, hcache, hwork⟩
  | timerPending htimer hl => exact ⟨timerPending_learned hshared hl, hcache, hwork⟩

theorem start_learnedInv {n : Nat} {came : Message → Prop} : LearnedInv n came .start :=
  ⟨empty_learned, empty_learned, fun _ _ he => nomatch he⟩

theorem run_learnedInv {n : Nat} {ms : List (Move RouterState Action)} {s : RouterState}
    (h : (router n).Run ms s) : LearnedInv n (Dispatched ms) s := by
  induction h with
  | start hs =>
    obtain rfl : _ = _ := hs
    exact start_learnedInv
  | @snoc ms s s' a hrun hs ih =>
    refine step_learnedInv (ih.mono fun m hm => ?_) (fun m ha => ?_) hs
    · obtain ⟨mv, hmv, hact⟩ := hm
      exact ⟨mv, List.mem_append_left _ hmv, hact⟩
    · exact ⟨_, List.mem_concat_self, ha⟩

/-- **The router never makes up a direction.** After any interleaving of `main`
with the timer, every record was learned from a message that `main` has
dispatched, and whatever message is next, what is sent for it goes only where
such a message came in. -/
theorem run_justified {n : Nat} {ms : List (Move RouterState Action)} {s : RouterState}
    (h : (router n).Run ms s) :
    s.shared.LearnedFrom (Dispatched ms) ∧
      ∀ m sent work, dispatch n s.cache m = some (sent, work) →
        ∀ x ∈ sent, Justified (Dispatched ms) n m x := by
  have hi := run_learnedInv h
  exact ⟨hi.shared, fun m sent work hd => dispatch_justified hi.cache hd⟩

/-- A request after an announcement of its content and a pass of the timer. -/
theorem run_justified_line :
    ∃ ms s, (router 2).Run ms s ∧ s.shared.LearnedFrom (Dispatched ms) ∧
      ∀ x ∈ [(1, octets .REQUEST 7 10)],
        Justified (Dispatched ms) 2 (received .REQUEST 7 10 0) x := by
  have htrace : trace (step 2) .start
      [.copyPending, .copyRouting, .dispatch (received .ANNOUNCEMENT 7 0 1), .commit,
        .timerRouting, .copyPending, .copyRouting] = some (_, _) := rfl
  have hrun := run_of_trace htrace
  obtain ⟨hlearned, hsent⟩ := run_justified hrun
  exact ⟨_, _, hrun, hlearned, hsent (received .REQUEST 7 10 0) _ _ rfl⟩

end ContentNetwork.Simplified
