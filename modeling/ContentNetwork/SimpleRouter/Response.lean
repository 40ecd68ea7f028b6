import ContentNetwork.SimpleRouter.Threads

/-!
# What a response removes

`case RESPONSE` of `simple_router` (the same code in both versions) scans its
copy of the pending table with the scratch record `record_test_prt`, sends the
response if a record matches, and then erases from the shared table the first
record with the key of the scratch record, whether or not one matched. When
none did, the scratch record is the last one scanned, and a pending request
that has nothing to do with the response is lost.

`consumesOwn_iff` is the exact statement for a response handled with no other
thread in between: it removes its own record and no other iff its request is
pending, or no request is.
-/

namespace ContentNetwork.SimpleRouter

open Lib Lib.Lts
open Simplified (PRTrecord Tables HeaderOctets Message Sent sendThrough sendThrough_of_range
  octets)

/-- A response of a pending request is sent once, through the interface of its
record, and exactly that record is removed; any other response is not sent and
changes no table. -/
def ConsumesOwn (n : Nat) (uninitialized : PRTrecord) (t : Tables) (m : Message) : Prop :=
  match Keyed.lookup PRTrecord.key m._recvPacket.requestKey t.PendingRequestTable with
  | some r =>
    handlePacket n uninitialized t m
      = some ({ t with
            PendingRequestTable :=
              t.PendingRequestTable.filter fun x => x.key ≠ m._recvPacket.requestKey },
          [(r.interface, m._recvPacket)])
  | none => handlePacket n uninitialized t m = some (t, [])

section Response

variable {n : Nat} {uninitialized r : PRTrecord} {t : Tables} {m : Message}
  {packet : HeaderOctets} {l : List PRTrecord}

theorem key_eq_requestKey :
    r.key = packet.requestKey ↔ r.cID = packet.ContentID ∧ r.hID = packet.hostOrHops :=
  Prod.mk_inj

/-- A scan that matches sends through the interface of the first match. -/
theorem responseLoop_of_lookup (h : Keyed.lookup PRTrecord.key packet.requestKey l = some r)
    (record_test_prt : PRTrecord) :
    responseLoop n packet record_test_prt l
      = (sendThrough n r.interface packet).map fun sent => (sent, r) := by
  induction l generalizing record_test_prt with
  | nil => cases h
  | cons x rest ih =>
    rw [responseLoop]
    by_cases hx : x.key = packet.requestKey
    · obtain rfl : x = r := by simpa [Keyed.lookup, hx] using h
      rw [if_pos (key_eq_requestKey.mp hx)]
    · rw [if_neg (mt key_eq_requestKey.mpr hx)]
      exact ih (by simpa [Keyed.lookup, hx] using h) x

/-- A scan without match leaves the last record in the scratch record. -/
theorem responseLoop_of_lookup_none (h : Keyed.lookup PRTrecord.key packet.requestKey l = none)
    (record_test_prt : PRTrecord) :
    responseLoop n packet record_test_prt l = some ([], l.getLast?.getD record_test_prt) := by
  induction l generalizing record_test_prt with
  | nil => rfl
  | cons x rest ih =>
    have hx : x.key ≠ packet.requestKey := Keyed.lookup_eq_none.mp h x (List.mem_cons_self ..)
    rw [responseLoop, if_neg (mt key_eq_requestKey.mpr hx),
      ih (by simpa [Keyed.lookup, hx] using h) x, List.getLast?_cons, Option.getD_some]

/-- A pending response, handled: its record is erased. -/
theorem handlePacket_pending (ht : PacketTypes.ofOctet m._recvPacket.packetType = some .RESPONSE)
    (hr : Keyed.lookup PRTrecord.key m._recvPacket.requestKey t.PendingRequestTable = some r) :
    handlePacket n uninitialized t m
      = (sendThrough n r.interface m._recvPacket).map fun sent =>
          ({ t with PendingRequestTable := commitResponse r t.PendingRequestTable }, sent) := by
  rw [handlePacket, dispatch, ht]
  dsimp only
  rw [responseCase, responseLoop_of_lookup hr, Option.map_map, Option.map_map]
  rfl

/-- Any other response, handled: the last record is erased. -/
theorem handlePacket_not_pending
    (ht : PacketTypes.ofOctet m._recvPacket.packetType = some .RESPONSE)
    (hr : Keyed.lookup PRTrecord.key m._recvPacket.requestKey t.PendingRequestTable = none) :
    handlePacket n uninitialized t m
      = some ({ t with
            PendingRequestTable := commitResponse
              (t.PendingRequestTable.getLast?.getD uninitialized) t.PendingRequestTable },
          []) := by
  rw [handlePacket, dispatch, ht]
  dsimp only
  rw [responseCase, responseLoop_of_lookup_none hr]
  rfl

/-- Erasing the last record's key changes a table unless it is empty. -/
theorem commitResponse_last_eq_iff :
    commitResponse (l.getLast?.getD uninitialized) l = l ↔ l = [] := by
  constructor
  · intro hsame
    by_contra hne
    obtain ⟨last, hlast⟩ := Option.ne_none_iff_exists'.mp (mt List.getLast?_eq_none_iff.mp hne)
    rw [hlast, Option.getD_some] at hsame
    have hmem : last ∈ l := List.mem_of_getLast? hlast
    have hlen := List.length_eraseP_of_mem (p := fun x => x.key = last.key) hmem (by simp)
    change (commitResponse last l).length = l.length - 1 at hlen
    rw [hsame] at hlen
    have := List.length_pos_of_mem hmem
    omega
  · intro hnil
    rw [hnil]
    rfl

/-- **A response consumes its own pending record and no other iff its request
is pending, with a configured interface, or no request is pending.** -/
theorem consumesOwn_iff (hu : Keyed.Unique PRTrecord.key t.PendingRequestTable)
    (ht : PacketTypes.ofOctet m._recvPacket.packetType = some .RESPONSE) :
    ConsumesOwn n uninitialized t m ↔
      t.PendingRequestTable = [] ∨
        ∃ r ∈ t.PendingRequestTable, r.key = m._recvPacket.requestKey ∧
          0 ≤ r.interface ∧ r.interface < n := by
  unfold ConsumesOwn
  cases hr : Keyed.lookup PRTrecord.key m._recvPacket.requestKey t.PendingRequestTable with
  | some r =>
    dsimp only
    have hmem := Keyed.lookup_mem hr
    have hkey := Keyed.lookup_key hr
    rw [handlePacket_pending ht hr, commitResponse, hkey, Keyed.erase_eq_filter hu]
    constructor
    · intro hsent
      obtain ⟨sent, hsend, -⟩ := Option.map_eq_some_iff.mp hsent
      obtain ⟨h0, h1, -⟩ := Simplified.sendThrough_eq_some hsend
      exact Or.inr ⟨r, hmem, hkey, h0, h1⟩
    · intro hpending
      rcases hpending with hnil | ⟨x, hx, hxkey, h0, h1⟩
      · rw [hnil] at hmem
        exact absurd hmem List.not_mem_nil
      · -- keys are unique, so the record found is this one
        obtain rfl := hu.eq_of_key hx hmem (hxkey.trans hkey.symm)
        rw [sendThrough_of_range h0 h1]
        rfl
  | none =>
    dsimp only
    rw [handlePacket_not_pending ht hr]
    have habsent := Keyed.lookup_eq_none.mp hr
    constructor
    · intro hsame
      have htables := congrArg Tables.PendingRequestTable (Prod.mk.inj (Option.some.inj hsame)).1
      exact Or.inl (commitResponse_last_eq_iff.mp htables)
    · intro hpending
      rcases hpending with hnil | ⟨x, hx, hxkey, -, -⟩
      · rw [(@commitResponse_last_eq_iff uninitialized _).mpr hnil]
      · exact absurd hxkey (habsent x hx)

end Response

/-- Host 10 waits for content 7 when a response for another host and content
comes in; its record is erased, and the response of content 7 is not sent any
more. -/
theorem response_consumes_other :
    handlePacket 2 ⟨0, 0, 0, 0⟩ ⟨[], [⟨7, 10, 1, 25⟩]⟩ ⟨octets .RESPONSE 8 11, 0⟩
        = some (⟨[], []⟩, []) ∧
      ¬ConsumesOwn 2 ⟨0, 0, 0, 0⟩ ⟨[], [⟨7, 10, 1, 25⟩]⟩ ⟨octets .RESPONSE 8 11, 0⟩ := by
  refine ⟨rfl, fun hown => ?_⟩
  -- nothing is found, so the tables should be the same
  change some ((⟨[], []⟩ : Tables), ([] : List Sent)) = some (⟨[], [⟨7, 10, 1, 25⟩]⟩, []) at hown
  exact absurd hown (by decide)

/-- Of two pending records the response removes its own. -/
theorem response_consumes_own :
    ConsumesOwn 2 ⟨0, 0, 0, 0⟩ ⟨[], [⟨7, 10, 1, 25⟩, ⟨8, 11, 0, 25⟩]⟩
      ⟨octets .RESPONSE 7 10, 0⟩ :=
  (consumesOwn_iff (by unfold Keyed.Unique; decide) rfl).mpr
    (Or.inr ⟨_, List.mem_cons_self .., rfl, by decide, by decide⟩)

end ContentNetwork.SimpleRouter
