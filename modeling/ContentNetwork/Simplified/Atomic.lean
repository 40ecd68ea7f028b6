import ContentNetwork.Simplified.TableInv

/-!
# A packet handled as one step

`handlePacket` is `dispatch` on the tables themselves followed at once by the
locked section. It is what one iteration of `main` does when neither the
timer nor an idle poll comes in between (`iteration_eq_handlePacket`), and
what the routers of a network do with a packet.

The other lemmas say, for each packet type, what happens to the tables and
what is sent.
-/

namespace ContentNetwork.Simplified

open Lib

/-- A packet handled as one step. -/
def handlePacket (n : Nat) (t : Tables) (p_message : Message) : Option (Tables × List Sent) :=
  (dispatch n t p_message).map fun r => (r.2.commit t, r.1)

/-- Interface of the first pending record for a key. -/
def pendingInterface (key : Int × Int) (t : Tables) : Option Int :=
  (Keyed.lookup PRTrecord.key key t.PendingRequestTable).map PRTrecord.interface

section Spec

variable {n : Nat} {t t' : Tables} {m : Message} {sent : List Sent}

theorem handlePacket_eq_some (h : handlePacket n t m = some (t', sent)) :
    ∃ work, dispatch n t m = some (sent, work) ∧ t' = work.commit t := by
  obtain ⟨⟨sent', work⟩, hd, he⟩ := Option.map_eq_some_iff.mp h
  obtain ⟨rfl, rfl⟩ := Prod.mk.inj he
  exact ⟨work, hd, rfl⟩

theorem handlePacket_of_dispatch {work : Work} (h : dispatch n t m = some (sent, work)) :
    handlePacket n t m = some (work.commit t, sent) := by
  rw [handlePacket, h]
  rfl

/-- `at` never throws on interfaces that are configured. -/
theorem handlePacket_ne_none (ht : t.InRange n) : handlePacket n t m ≠ none := by
  unfold handlePacket
  rw [ne_eq, Option.map_eq_none_iff]
  exact dispatch_ne_none ht

/-- And they stay configured. -/
theorem handlePacket_inRange (ht : t.InRange n)
    (hm : 0 ≤ m._RxInterface_Num ∧ m._RxInterface_Num < n)
    (h : handlePacket n t m = some (t', sent)) : t'.InRange n := by
  obtain ⟨work, hd, rfl⟩ := handlePacket_eq_some h
  exact commit_inRange ht ht hm hd

/-- An iteration of main in which nothing comes between its sections. -/
theorem iteration_eq_handlePacket {s : RouterState} (hcache : s.cache = .empty)
    (hmain : s.main = .copyPending)
    (hm : 0 ≤ m._RxInterface_Num ∧ m._RxInterface_Num < n)
    (h : handlePacket n s.shared m = some (t', sent)) :
    (Lts.trace (step n) s [.copyPending, .copyRouting, .dispatch m, .commit]).map Prod.snd
      = some { s with shared := t' } := by
  obtain ⟨work, hd, rfl⟩ := handlePacket_eq_some h
  obtain ⟨shared, cache, main, timer⟩ := s
  dsimp only at hcache hmain hd ⊢
  subst hcache hmain
  simp [Lts.trace, step, Tables.empty, hm, hd]

/-! ## Requests -/

/-- A request changes the pending table only, and is sent along its route. -/
theorem handlePacket_request (ht : PacketTypes.ofOctet m._recvPacket.packetType = some .REQUEST)
    (h : handlePacket n t m = some (t', sent)) :
    t'.RoutingTable = t.RoutingTable ∧
      t'.PendingRequestTable = commitRequest
        (Keyed.lookup PRTrecord.key m._recvPacket.requestKey t.PendingRequestTable).isSome
        (requestedRecord t m) t.PendingRequestTable ∧
      ∀ x ∈ sent, x.2 = m._recvPacket ∧
        (Keyed.lookup RTrecord.cID m._recvPacket.ContentID t.RoutingTable).map
          RTrecord.interface = some x.1 := by
  obtain ⟨work, hd, rfl⟩ := handlePacket_eq_some h
  rw [dispatch_request ht] at hd
  obtain rfl := requestCase_work hd
  refine ⟨rfl, rfl, ?_⟩
  unfold requestCase at hd
  dsimp only at hd
  split at hd
  next hne =>
    obtain ⟨sent', hsend, hs⟩ := Option.map_eq_some_iff.mp hd
    obtain ⟨rfl, -⟩ := Prod.mk.inj hs
    obtain ⟨-, -, rfl⟩ := sendThrough_eq_some hsend
    intro x hx
    rw [List.mem_singleton] at hx
    rw [hx]
    cases hr : Keyed.lookup RTrecord.cID m._recvPacket.ContentID t.RoutingTable with
    | none =>
      rw [hr] at hne
      exact absurd rfl hne
    | some r => exact ⟨rfl, rfl⟩
  · obtain ⟨rfl, -⟩ := Prod.mk.inj (Option.some.inj hd)
    intro x hx
    exact absurd hx List.not_mem_nil

/-- A request is forwarded along the route of its content. -/
theorem handlePacket_forward (ht : PacketTypes.ofOctet m._recvPacket.packetType = some .REQUEST)
    {r : RTrecord}
    (hr : Keyed.lookup RTrecord.cID m._recvPacket.ContentID t.RoutingTable = some r)
    (h0 : 0 ≤ r.interface) (h1 : r.interface < n) :
    ∃ t', handlePacket n t m = some (t', [(r.interface, m._recvPacket)]) := by
  have hne : r.interface ≠ -1 := by omega
  unfold handlePacket
  rw [dispatch_request ht]
  simp only [requestCase, hr, interfaceSend_some, if_pos hne, sendThrough_of_range h0 h1,
    Option.map_some]
  exact ⟨_, rfl⟩

/-- Without a route a request goes nowhere. -/
theorem handlePacket_noRoute (ht : PacketTypes.ofOctet m._recvPacket.packetType = some .REQUEST)
    (hr : Keyed.lookup RTrecord.cID m._recvPacket.ContentID t.RoutingTable = none) :
    ∃ t', handlePacket n t m = some (t', []) := by
  unfold handlePacket
  rw [dispatch_request ht]
  simp only [requestCase, hr, interfaceSend_none]
  exact ⟨_, rfl⟩

/-! ## Responses -/

/-- A response changes no table and is sent through its pending record's
interface. -/
theorem handlePacket_response (ht : PacketTypes.ofOctet m._recvPacket.packetType = some .RESPONSE)
    (h : handlePacket n t m = some (t', sent)) :
    t' = t ∧ ∀ x ∈ sent, x.2 = m._recvPacket ∧
      pendingInterface m._recvPacket.requestKey t = some x.1 := by
  obtain ⟨work, hd, rfl⟩ := handlePacket_eq_some h
  rw [dispatch_response ht] at hd
  obtain rfl := responseCase_work hd
  refine ⟨rfl, ?_⟩
  unfold responseCase at hd
  split at hd
  next r hr =>
    obtain ⟨sent', hsend, hs⟩ := Option.map_eq_some_iff.mp hd
    obtain ⟨rfl, -⟩ := Prod.mk.inj hs
    obtain ⟨-, -, rfl⟩ := sendThrough_eq_some hsend
    intro x hx
    rw [List.mem_singleton] at hx
    rw [hx, pendingInterface, hr]
    exact ⟨rfl, rfl⟩
  next hnone =>
    obtain ⟨rfl, -⟩ := Prod.mk.inj (Option.some.inj hd)
    intro x hx
    exact absurd hx List.not_mem_nil

/-- A response with a pending record goes through its interface. -/
theorem handlePacket_retrace (ht : PacketTypes.ofOctet m._recvPacket.packetType = some .RESPONSE)
    {i : Int} (hi : pendingInterface m._recvPacket.requestKey t = some i) (h0 : 0 ≤ i)
    (h1 : i < n) : handlePacket n t m = some (t, [(i, m._recvPacket)]) := by
  obtain ⟨r, hr, rfl⟩ := Option.map_eq_some_iff.mp hi
  unfold handlePacket
  rw [dispatch_response ht]
  simp only [responseCase, hr, sendThrough_of_range h0 h1, Option.map_some]
  rfl

/-! ## Announcements -/

/-- The hop count of an announcement is no larger than the known one. -/
def Adopts (t : Tables) (m : Message) : Prop :=
  ∀ r, Keyed.lookup RTrecord.cID m._recvPacket.ContentID t.RoutingTable = some r →
    m._recvPacket.hostOrHops ≤ r.num_hops

theorem not_adopts (h : ¬Adopts t m) :
    ∃ r, Keyed.lookup RTrecord.cID m._recvPacket.ContentID t.RoutingTable = some r ∧
      r.num_hops < m._recvPacket.hostOrHops := by
  by_contra hnone
  refine h fun r hr => ?_
  by_contra hlt
  exact hnone ⟨r, hr, Int.not_le.mp hlt⟩

/-- The route of a content: hop count and interface. -/
def RTrecord.route (r : RTrecord) : Int × Int := (r.num_hops, r.interface)

/-- `case ANNOUNCEMENT` never throws. -/
theorem handlePacket_announcement_isSome
    (ht : PacketTypes.ofOctet m._recvPacket.packetType = some .ANNOUNCEMENT) :
    ∃ t' sent, handlePacket n t m = some (t', sent) := by
  unfold handlePacket
  rw [dispatch_announcement ht]
  exact ⟨_, _, rfl⟩

/-- A packet that makes main throw is no announcement. -/
theorem handlePacket_eq_none (h : handlePacket n t m = none) :
    PacketTypes.ofOctet m._recvPacket.packetType ≠ some .ANNOUNCEMENT := by
  intro ht
  obtain ⟨t', sent, hsome⟩ := @handlePacket_announcement_isSome n t m ht
  rw [h] at hsome
  cases hsome

/-- What an announcement does to a routing table with unique content IDs. -/
theorem handlePacket_announcement (hu : Keyed.Unique RTrecord.cID t.RoutingTable)
    (ht : PacketTypes.ofOctet m._recvPacket.packetType = some .ANNOUNCEMENT)
    (h : handlePacket n t m = some (t', sent)) :
    t'.PendingRequestTable = t.PendingRequestTable ∧
      Keyed.Unique RTrecord.cID t'.RoutingTable ∧
      Keyed.lookup RTrecord.cID m._recvPacket.ContentID t'.RoutingTable
        = some (announcedRecord t m) ∧
      (∀ k, m._recvPacket.ContentID ≠ k →
        Keyed.lookup RTrecord.cID k t'.RoutingTable
          = Keyed.lookup RTrecord.cID k t.RoutingTable) := by
  obtain ⟨work, hd, rfl⟩ := handlePacket_eq_some h
  rw [dispatch_announcement ht] at hd
  obtain rfl := announcementCase_work (Option.some.inj hd)
  have hcID : (announcedRecord t m).cID = m._recvPacket.ContentID := announcedRecord_cID
  refine ⟨rfl, ?_⟩
  simp only [Work.commit, commitAnnouncement, hcID]
  cases hf : Keyed.lookup RTrecord.cID m._recvPacket.ContentID t.RoutingTable with
  | none =>
    have hnew := Keyed.lookup_eq_none.mp hf
    rw [← hcID] at hnew
    rw [Option.isSome_none, if_neg Bool.false_ne_true]
    refine ⟨Keyed.unique_push hu hnew, ?_, ?_⟩
    · rw [← hcID]
      exact Keyed.lookup_push_self hnew
    · intro k hk
      exact Keyed.lookup_push_ne (hcID.trans_ne hk)
  | some r =>
    rw [Option.isSome_some, if_pos rfl, if_pos rfl]
    refine ⟨Keyed.unique_replace hu, ?_, ?_⟩
    · rw [← hcID]
      exact Keyed.lookup_replace_self hu
    · intro k hk
      exact Keyed.lookup_replace_ne (hcID.trans_ne hk)

/-- The content of an announcement is known after it. -/
theorem handlePacket_announcement_known
    (ht : PacketTypes.ofOctet m._recvPacket.packetType = some .ANNOUNCEMENT)
    (h : handlePacket n t m = some (t', sent)) :
    (Keyed.lookup RTrecord.cID m._recvPacket.ContentID t'.RoutingTable).isSome := by
  obtain ⟨work, hd, rfl⟩ := handlePacket_eq_some h
  rw [dispatch_announcement ht] at hd
  obtain rfl := announcementCase_work (Option.some.inj hd)
  refine Keyed.lookup_isSome.mpr ⟨announcedRecord t m, ?_, announcedRecord_cID⟩
  simp only [Work.commit, commitAnnouncement, announcedRecord_cID]
  cases Keyed.lookup RTrecord.cID m._recvPacket.ContentID t.RoutingTable with
  | none => exact List.mem_append_right _ (List.mem_singleton_self _)
  | some r =>
    rw [Option.isSome_some, if_pos rfl, if_pos rfl]
    exact Keyed.mem_replace_self

/-- Announcements are sent on with one more hop. -/
theorem handlePacket_announcement_sent
    (ht : PacketTypes.ofOctet m._recvPacket.packetType = some .ANNOUNCEMENT)
    (h : handlePacket n t m = some (t', sent)) : ∀ x ∈ sent, x.2 = m._recvPacket.nextHop := by
  obtain ⟨work, hd, rfl⟩ := handlePacket_eq_some h
  rw [dispatch_announcement ht] at hd
  rw [announcementCase_sent (Option.some.inj hd)]
  intro x hx
  split at hx
  · exact (mem_broadcast.mp hx).2.2.2
  · exact absurd hx List.not_mem_nil

/-- An announcement that is adopted replaces the route and is sent on. -/
theorem handlePacket_adopt (ht : PacketTypes.ofOctet m._recvPacket.packetType = some .ANNOUNCEMENT)
    (h : handlePacket n t m = some (t', sent)) (ha : Adopts t m) :
    (announcedRecord t m).route = (m._recvPacket.hostOrHops, m._RxInterface_Num) ∧
      sent = broadcast n m._RxInterface_Num m._recvPacket.nextHop := by
  obtain ⟨work, hd, rfl⟩ := handlePacket_eq_some h
  rw [dispatch_announcement ht] at hd
  have hsent := announcementCase_sent (Option.some.inj hd)
  obtain ⟨hhops, hinterface, hbroadcast⟩ := @adoptAnnouncement_of_le _
    m._recvPacket.ContentID m._recvPacket.hostOrHops m._RxInterface_Num ha
  refine ⟨Prod.ext hhops hinterface, ?_⟩
  rw [hsent, hbroadcast, if_pos rfl]

/-- An announcement with more hops than the known route leaves the route and
is not sent on. -/
theorem handlePacket_ignore (ht : PacketTypes.ofOctet m._recvPacket.packetType = some .ANNOUNCEMENT)
    (h : handlePacket n t m = some (t', sent)) {r : RTrecord}
    (hr : Keyed.lookup RTrecord.cID m._recvPacket.ContentID t.RoutingTable = some r)
    (hlt : r.num_hops < m._recvPacket.hostOrHops) :
    (announcedRecord t m).route = r.route ∧ sent = [] := by
  obtain ⟨work, hd, rfl⟩ := handlePacket_eq_some h
  rw [dispatch_announcement ht] at hd
  have hsent := announcementCase_sent (Option.some.inj hd)
  obtain ⟨hhops, hinterface, hbroadcast⟩ := @adoptAnnouncement_of_lt r
    m._recvPacket.ContentID m._recvPacket.hostOrHops m._RxInterface_Num hlt
  unfold announcedRecord
  rw [hr] at hsent ⊢
  refine ⟨Prod.ext hhops hinterface, ?_⟩
  rw [hsent, hbroadcast, if_neg Bool.false_ne_true]

/-! ## Other packets -/

theorem handlePacket_default (ht : PacketTypes.ofOctet m._recvPacket.packetType = none)
    (h : handlePacket n t m = some (t', sent)) : t' = t ∧ sent = [] := by
  obtain ⟨work, hd, rfl⟩ := handlePacket_eq_some h
  rw [dispatch_default ht] at hd
  obtain ⟨rfl, rfl⟩ := Prod.mk.inj (Option.some.inj hd)
  exact ⟨rfl, rfl⟩

/-! ## The pending table -/

/-- The pending record of a key after a request. -/
theorem lookup_commitRequest {t : List PRTrecord} {record : PRTrecord} {k : Int × Int} :
    (Keyed.lookup PRTrecord.key k
        (commitRequest (Keyed.lookup PRTrecord.key record.key t).isSome record t)).map
          PRTrecord.interface
      = if record.key = k ∧ Keyed.lookup PRTrecord.key k t = none then some record.interface
        else (Keyed.lookup PRTrecord.key k t).map PRTrecord.interface := by
  unfold commitRequest
  cases hf : Keyed.lookup PRTrecord.key record.key t with
  | none =>
    rw [Option.isSome_none, if_neg Bool.false_ne_true]
    by_cases hk : record.key = k
    · subst hk
      rw [Keyed.lookup_push_self (Keyed.lookup_eq_none.mp hf), if_pos ⟨rfl, hf⟩]
      rfl
    · rw [Keyed.lookup_push_ne hk, if_neg fun h => hk h.1]
  | some r =>
    rw [Option.isSome_some, if_pos rfl, Keyed.lookup_refresh PRTrecord.key_refreshed]
    have hnot : ¬(record.key = k ∧ Keyed.lookup PRTrecord.key k t = none) := by
      intro h
      rw [← h.1, hf] at h
      cases h.2
    rw [if_neg hnot]
    cases Keyed.lookup PRTrecord.key k t with
    | none => rfl
    | some x =>
      by_cases hk : k = record.key
      · simp [hk, PRTrecord.refreshed]
      · simp [hk]

/-- A packet leaves the interface of every pending key; only a request whose
key is not pending yet makes its arrival interface the one of its key. -/
theorem handlePacket_pending {k : Int × Int} (h : handlePacket n t m = some (t', sent)) :
    pendingInterface k t' = pendingInterface k t ∨
      (PacketTypes.ofOctet m._recvPacket.packetType = some .REQUEST ∧
        m._recvPacket.requestKey = k ∧ pendingInterface k t = none ∧
        pendingInterface k t' = some m._RxInterface_Num) := by
  obtain ⟨work, hd, rfl⟩ := handlePacket_eq_some h
  rcases dispatch_cases hd with ⟨ht, hreq⟩ | ⟨-, hresp⟩ | ⟨-, hann⟩ | ⟨-, -, rfl⟩
  · obtain rfl := requestCase_work hreq
    have hlookup := @lookup_commitRequest t.PendingRequestTable (requestedRecord t m) k
    rw [requestedRecord_key] at hlookup
    by_cases hnew : m._recvPacket.requestKey = k ∧
        Keyed.lookup PRTrecord.key k t.PendingRequestTable = none
    · rw [if_pos hnew] at hlookup
      refine Or.inr ⟨ht, hnew.1, ?_, hlookup.trans ?_⟩
      · rw [pendingInterface, hnew.2]
        rfl
      · rw [requestedRecord, hnew.1, hnew.2]
        rfl
    · rw [if_neg hnew] at hlookup
      exact Or.inl hlookup
  · obtain rfl := responseCase_work hresp
    exact Or.inl rfl
  · obtain rfl := announcementCase_work hann
    exact Or.inl rfl
  · exact Or.inl rfl

/-- The key of a request is pending after it. -/
theorem handlePacket_request_pending
    (ht : PacketTypes.ofOctet m._recvPacket.packetType = some .REQUEST)
    (h : handlePacket n t m = some (t', sent)) :
    (pendingInterface m._recvPacket.requestKey t').isSome := by
  have hP := (handlePacket_request ht h).2.1
  have hlookup := @lookup_commitRequest t.PendingRequestTable (requestedRecord t m)
    m._recvPacket.requestKey
  rw [requestedRecord_key] at hlookup
  unfold pendingInterface
  rw [hP, hlookup]
  cases hf : Keyed.lookup PRTrecord.key m._recvPacket.requestKey t.PendingRequestTable with
  | none => rw [if_pos ⟨rfl, rfl⟩]; rfl
  | some r => rw [if_neg (by simp)]; rfl

end Spec

end ContentNetwork.Simplified
