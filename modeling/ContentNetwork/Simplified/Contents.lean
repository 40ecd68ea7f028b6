import ContentNetwork.Simplified.Sequence

/-!
# Contents do not interfere

Each case of the simplified router scans tables that hold the records of all
contents, and moves records to the back when it updates them. Yet a packet
works on the records of its own content only: restricted to the records of
`c`, the tables change as if the other packets were not there
(`handleAll_ofContent`).

The scratch record that a scan leaves behind when nothing matches is harmless
too. A request without a match overwrites the fields it then pushes, and the
locked section of a response, which searches for that record, erases nothing.

`contents_independent` compares whole sequences: with the sequence of the
packets of one content, and with any sequence that has the same packets of
each content in the same order.
-/

namespace ContentNetwork.Simplified

open Lib

/-- The records of content `c`. -/
def Tables.ofContent (c : Int) (t : Tables) : Tables :=
  ⟨t.RoutingTable.filter fun r => r.cID = c, t.PendingRequestTable.filter fun r => r.cID = c⟩

/-- The packets that are sent for content `c`, with their interfaces. -/
def sentFor (c : Int) (sent : List Sent) : List Sent :=
  sent.filter fun s => s.2.ContentID = c

theorem sentFor_append (c : Int) (s s' : List Sent) :
    sentFor c (s ++ s') = sentFor c s ++ sentFor c s' :=
  List.filter_append ..

section Packet

variable {n : Nat} {cache t t' : Tables} {m : Message} {sent : List Sent} {work : Work} {c : Int}

/-- The search for a packet's records finds the same among those of its
content. -/
theorem dispatch_ofContent (hc : m._recvPacket.ContentID = c) :
    dispatch n (t.ofContent c) m = dispatch n t m :=
  dispatch_congr (Keyed.lookup_filter (q := fun k => k = c) hc)
    (Keyed.lookup_filter (q := fun k : Int × Int => k.1 = c) hc)

/-- The locked section of a packet of content `c`, on the records of `c`. -/
theorem commit_ofContent (h : dispatch n cache m = some (sent, work))
    (hc : m._recvPacket.ContentID = c) :
    (work.commit t).ofContent c = work.commit (t.ofContent c) := by
  rcases dispatch_cases h with ⟨-, hreq⟩ | ⟨-, hresp⟩ | ⟨-, hann⟩ | ⟨-, -, rfl⟩
  · obtain rfl := requestCase_work hreq
    have hkey : (requestedRecord cache m).key.1 = c := by
      rw [requestedRecord_key]
      exact hc
    refine congrArg (Tables.mk _) ?_
    show List.filter _ (commitRequest _ _ _) = commitRequest _ _ (List.filter _ _)
    unfold commitRequest
    split
    · exact Keyed.filter_refresh (q := fun k : Int × Int => k.1 = c) PRTrecord.key_refreshed hkey
    · exact Keyed.filter_push (q := fun k : Int × Int => k.1 = c) hkey
  · obtain rfl := responseCase_work hresp
    rfl
  · obtain rfl := announcementCase_work hann
    have hcID : (announcedRecord cache m).cID = c := announcedRecord_cID.trans hc
    refine congrArg (fun R => Tables.mk R _) ?_
    show List.filter _ (commitAnnouncement _ _ _) = commitAnnouncement _ _ (List.filter _ _)
    have hlookup := @Keyed.lookup_filter _ _ _ RTrecord.cID (announcedRecord cache m).cID
      t.RoutingTable (fun k => k = c) _ hcID
    unfold commitAnnouncement
    rw [hlookup]
    split
    · split
      · exact Keyed.filter_replace (q := fun k => k = c) hcID
      · rfl
    · exact Keyed.filter_push (q := fun k => k = c) hcID
  · rfl

/-- The locked section of a packet of another content does not touch them. -/
theorem commit_ofContent_ne (h : dispatch n cache m = some (sent, work))
    (hc : m._recvPacket.ContentID ≠ c) : (work.commit t).ofContent c = t.ofContent c := by
  rcases dispatch_cases h with ⟨-, hreq⟩ | ⟨-, hresp⟩ | ⟨-, hann⟩ | ⟨-, -, rfl⟩
  · obtain rfl := requestCase_work hreq
    have hkey : (requestedRecord cache m).key.1 ≠ c := by
      rw [requestedRecord_key]
      exact hc
    refine congrArg (Tables.mk _) ?_
    show List.filter _ (commitRequest _ _ _) = _
    unfold commitRequest
    split
    · exact Keyed.filter_refresh_of_not (q := fun k : Int × Int => k.1 = c)
        PRTrecord.key_refreshed hkey
    · exact Keyed.filter_push_of_not (q := fun k : Int × Int => k.1 = c) hkey
  · obtain rfl := responseCase_work hresp
    rfl
  · obtain rfl := announcementCase_work hann
    have hcID : (announcedRecord cache m).cID ≠ c := announcedRecord_cID.trans_ne hc
    refine congrArg (fun R => Tables.mk R _) ?_
    show List.filter _ (commitAnnouncement _ _ _) = _
    unfold commitAnnouncement
    split
    · split
      · exact Keyed.filter_replace_of_not (q := fun k => k = c) hcID
      · rfl
    · exact Keyed.filter_push_of_not (q := fun k => k = c) hcID
  · rfl

/-- Everything sent for a packet carries its content. -/
theorem handlePacket_sent_content (h : handlePacket n t m = some (t', sent)) :
    ∀ s ∈ sent, s.2.ContentID = m._recvPacket.ContentID := by
  obtain ⟨work, hd, rfl⟩ := handlePacket_eq_some h
  rcases dispatch_cases hd with ⟨ht, -⟩ | ⟨ht, -⟩ | ⟨ht, -⟩ | ⟨-, rfl, -⟩
  · intro s hs
    rw [((handlePacket_request ht h).2.2 s hs).1]
  · intro s hs
    rw [((handlePacket_response ht h).2 s hs).1]
  · intro s hs
    rw [handlePacket_announcement_sent ht h s hs]
    rfl
  · exact fun s hs => absurd hs List.not_mem_nil

end Packet

/-! ## Sequences -/

section Sequence

variable {n : Nat} {t t' : Tables} {ms : List Message} {sent : List Sent}

/-- Everything sent for a list of packets of content `c` carries `c`. -/
theorem handleAll_sent_content {c : Int} (hms : ∀ m ∈ ms, m._recvPacket.ContentID = c)
    (h : handleAll n t ms = some (t', sent)) : ∀ s ∈ sent, s.2.ContentID = c := by
  induction ms generalizing t sent with
  | nil =>
    obtain ⟨-, rfl⟩ := Prod.mk.inj (Option.some.inj h)
    exact fun s hs => absurd hs List.not_mem_nil
  | cons m ms ih =>
    obtain ⟨u, s₁, s₂, hm, hrest, rfl⟩ := handleAll_cons_eq_some h
    intro s hs
    rcases List.mem_append.mp hs with hs | hs
    · exact (handlePacket_sent_content hm s hs).trans (hms m (List.mem_cons_self ..))
    · exact ih (fun x hx => hms x (List.mem_cons_of_mem _ hx)) hrest s hs

/-- **On the records of `c`, a sequence acts as its packets of `c` alone.** -/
theorem handleAll_ofContent (c : Int) (h : handleAll n t ms = some (t', sent)) :
    handleAll n (t.ofContent c) (messagesFor c ms) = some (t'.ofContent c, sentFor c sent) := by
  induction ms generalizing t sent with
  | nil =>
    obtain ⟨rfl, rfl⟩ := Prod.mk.inj (Option.some.inj h)
    rfl
  | cons m ms ih =>
    obtain ⟨u, s₁, s₂, hm, hrest, rfl⟩ := handleAll_cons_eq_some h
    have hsent := handlePacket_sent_content hm
    obtain ⟨work, hd, rfl⟩ := handlePacket_eq_some hm
    rw [sentFor_append]
    by_cases hc : m._recvPacket.ContentID = c
    · have hfirst : handlePacket n (t.ofContent c) m
          = some ((work.commit t).ofContent c, sentFor c s₁) := by
        have hall : sentFor c s₁ = s₁ := by
          refine List.filter_eq_self.mpr fun s hs => ?_
          simpa using (hsent s hs).trans hc
        rw [hall, commit_ofContent hd hc]
        exact handlePacket_of_dispatch ((dispatch_ofContent hc).trans hd)
      rw [messagesFor, List.filter_cons_of_pos (by simpa using hc), handleAll_cons hfirst,
        ← messagesFor, ih hrest]
      rfl
    · have hnone : sentFor c s₁ = [] := by
        refine List.filter_eq_nil_iff.mpr fun s hs => ?_
        simpa using (hsent s hs).trans_ne hc
      rw [messagesFor, List.filter_cons_of_neg (by simpa using hc), ← messagesFor, hnone,
        List.nil_append, ← ih hrest, commit_ofContent_ne hd hc]

/-- Well-formed tables and packets from configured interfaces: nothing throws. -/
theorem handleAll_isSome (ht : t.WellFormed n)
    (hms : ∀ m ∈ ms, 0 ≤ m._RxInterface_Num ∧ m._RxInterface_Num < n) :
    ∃ t' sent, handleAll n t ms = some (t', sent) := by
  induction ms generalizing t with
  | nil => exact ⟨t, [], rfl⟩
  | cons m ms ih =>
    obtain ⟨⟨sent, work⟩, hd⟩ := Option.ne_none_iff_exists'.mp
      (dispatch_ne_none (m := m) ht.inRange)
    have hm := hms m (List.mem_cons_self ..)
    have hcommit : (work.commit t).WellFormed n :=
      commit_wellFormed ht ht.inRange (fun r hr => ⟨r, hr, rfl⟩) (fun r hr => ⟨r, hr, rfl⟩) hm hd
    obtain ⟨t', sent', hrest⟩ := ih hcommit fun x hx => hms x (List.mem_cons_of_mem _ hx)
    refine ⟨t', sent ++ sent', ?_⟩
    rw [handleAll_cons (handlePacket_of_dispatch hd), hrest]
    rfl

end Sequence

/-- Tables with the same records of each content, in the same order. -/
theorem perm_of_ofContent {t t' : Tables} (h : ∀ c, t.ofContent c = t'.ofContent c) :
    t.RoutingTable.Perm t'.RoutingTable ∧ t.PendingRequestTable.Perm t'.PendingRequestTable :=
  ⟨Keyed.perm_of_filter_eq fun c : Int => congrArg Tables.RoutingTable (h c),
    Keyed.perm_of_filter_eq fun c : Int => congrArg Tables.PendingRequestTable (h c)⟩

/-- **Contents do not interfere.** What is sent for a content and the records
it ends with are those of its own packets; and sequences that differ in the
order of packets of different contents only end with the same records. -/
theorem contents_independent {n : Nat} {t : Tables} (ht : t.WellFormed n) {ms : List Message}
    (hms : ∀ m ∈ ms, 0 ≤ m._RxInterface_Num ∧ m._RxInterface_Num < n) :
    ∃ t' sent, handleAll n t ms = some (t', sent) ∧
      (∀ c, ∃ tc, handleAll n t (messagesFor c ms) = some (tc, sentFor c sent) ∧
        tc.ofContent c = t'.ofContent c) ∧
      ∀ ms', (∀ c, messagesFor c ms' = messagesFor c ms) →
        ∃ t'' sent', handleAll n t ms' = some (t'', sent') ∧
          t''.RoutingTable.Perm t'.RoutingTable ∧
          t''.PendingRequestTable.Perm t'.PendingRequestTable ∧
          ∀ c, sentFor c sent' = sentFor c sent := by
  obtain ⟨t', sent, hall⟩ := handleAll_isSome ht hms
  refine ⟨t', sent, hall, fun c => ?_, fun ms' hms' => ?_⟩
  · obtain ⟨tc, sentc, hallc⟩ := @handleAll_isSome n t (messagesFor c ms) ht
      fun m hm => hms m (List.mem_filter.mp hm).1
    -- handled alone, the packets of `c` restrict to themselves
    have hself : messagesFor c (messagesFor c ms) = messagesFor c ms :=
      List.filter_eq_self.mpr fun m hm => (List.mem_filter.mp hm).2
    have hboth := (handleAll_ofContent c hallc).symm.trans
      ((congrArg (handleAll n (t.ofContent c)) hself).trans (handleAll_ofContent c hall))
    obtain ⟨htables, hsent⟩ := Prod.mk.inj (Option.some.inj hboth)
    have hsentc : sentFor c sentc = sentc := by
      refine List.filter_eq_self.mpr fun s hs => ?_
      have hcarry := handleAll_sent_content (c := c)
        (fun m hm => by simpa using (List.mem_filter.mp hm).2) hallc s hs
      simpa using hcarry
    rw [hsentc] at hsent
    exact ⟨tc, hsent ▸ hallc, htables⟩
  · have hrange : ∀ m ∈ ms', 0 ≤ m._RxInterface_Num ∧ m._RxInterface_Num < n := by
      intro m hm
      have hmem : m ∈ messagesFor m._recvPacket.ContentID ms' :=
        List.mem_filter.mpr ⟨hm, by simp⟩
      rw [hms'] at hmem
      exact hms m (List.mem_filter.mp hmem).1
    obtain ⟨t'', sent', hall'⟩ := handleAll_isSome ht hrange
    have hboth : ∀ c, t''.ofContent c = t'.ofContent c ∧ sentFor c sent' = sentFor c sent := by
      intro c
      have hc := handleAll_ofContent c hall'
      rw [hms', handleAll_ofContent c hall] at hc
      obtain ⟨htables, hsent⟩ := Prod.mk.inj (Option.some.inj hc)
      exact ⟨htables.symm, hsent.symm⟩
    obtain ⟨hrouting, hpending⟩ := perm_of_ofContent fun c => (hboth c).1
    exact ⟨t'', sent', hall', hrouting, hpending, fun c => (hboth c).2⟩

/-- Two contents, announced, asked for and answered. -/
def twoContents : List Message :=
  [received .ANNOUNCEMENT 7 0 1, received .ANNOUNCEMENT 8 0 1, received .REQUEST 7 10 0,
    received .REQUEST 8 10 0, received .RESPONSE 7 10 1, received .RESPONSE 8 10 1]

theorem twoContents_independent :
    ∃ t' sent, handleAll 2 .empty twoContents = some (t', sent) ∧
      (∀ c, ∃ tc, handleAll 2 .empty (messagesFor c twoContents) = some (tc, sentFor c sent) ∧
        tc.ofContent c = t'.ofContent c) := by
  obtain ⟨t', sent, hall, halone, -⟩ := @contents_independent 2 .empty (Tables.empty_wellFormed 2)
    twoContents (by decide)
  exact ⟨t', sent, hall, halone⟩

end ContentNetwork.Simplified
