import ContentNetwork.Simplified.Atomic

/-!
# Whether the pending table follows the requester

A host that asks again from another place (it reconnected elsewhere, or the
path between it and the router changed) should get the response along its
last request. The table says where that is: after a REQUEST `(c, h)` from
interface `i`, the pending record of `(c, h)` should have the interface `i`.

The locked section of `case REQUEST` writes the interface of a record it
pushes, but to a record it finds it only gives a new ttl. So the record keeps
the interface of the request that created it for as long as requests refresh
it, whatever interface these arrive on.

`run_followsRequester_iff` is the exact statement: along any run, a response
would follow every request iff each request either found no record of its key
in main's copy, and so pushes one, or finds that the record in the shared
table has its own interface. `reconnected` is a run with a second request
from another interface.
-/

namespace ContentNetwork.Simplified

open Lib Lib.Lts

/-- When the locked section of a REQUEST has ended, a RESPONSE of its key,
handled next, is sent through the interface the request arrived on. -/
def FollowsRequester (n : Nat) (m : Move RouterState Action) : Prop :=
  ∀ msg ∈ commitOf m, PacketTypes.ofOctet msg._recvPacket.packetType = some .REQUEST →
    ∀ response : Message,
      PacketTypes.ofOctet response._recvPacket.packetType = some .RESPONSE →
      response._recvPacket.requestKey = msg._recvPacket.requestKey →
      (handlePacket n m.post.shared response).map Prod.snd
        = some [(msg._RxInterface_Num, response._recvPacket)]

/-- When the locked section of a REQUEST begins, main's copy had no record of
its key, or the shared table has one with the request's own interface. -/
def SameRequester (m : Move RouterState Action) : Prop :=
  ∀ msg ∈ commitOf m, PacketTypes.ofOctet msg._recvPacket.packetType = some .REQUEST →
    Keyed.lookup PRTrecord.key msg._recvPacket.requestKey m.pre.cache.PendingRequestTable = none ∨
      pendingInterface msg._recvPacket.requestKey m.pre.shared = some msg._RxInterface_Num

instance : DecidablePred SameRequester := fun m =>
  inferInstanceAs (Decidable (∀ msg ∈ commitOf m, _ → _ ∨ _))

section Response

variable {n : Nat} {t : Tables} {i : Int} {key : Int × Int}

/-- Responses of a key go through one interface exactly when it is the one of
the key's pending record. -/
theorem response_through_iff (h0 : 0 ≤ i) (h1 : i < n) {p : HeaderOctets}
    (hkey : p.requestKey = key) :
    (∀ response : Message,
        PacketTypes.ofOctet response._recvPacket.packetType = some .RESPONSE →
        response._recvPacket.requestKey = key →
        (handlePacket n t response).map Prod.snd = some [(i, response._recvPacket)])
      ↔ pendingInterface key t = some i := by
  constructor
  · intro hall
    -- the response to the request itself, arriving anywhere
    let response : Message := ⟨octets .RESPONSE p.contentID p.hostIDOrHops, 0⟩
    have htype : PacketTypes.ofOctet response._recvPacket.packetType = some .RESPONSE :=
      ofOctet_octets ..
    have hsent := hall response htype hkey
    obtain ⟨⟨t', sent⟩, hh, hs⟩ := Option.map_eq_some_iff.mp hsent
    obtain rfl : sent = [(i, response._recvPacket)] := hs
    have hpending := ((handlePacket_response htype hh).2 _ (List.mem_singleton.mpr rfl)).2
    rwa [show response._recvPacket.requestKey = key from hkey] at hpending
  · intro hpending response htype hrkey
    rw [← hrkey] at hpending
    rw [handlePacket_retrace htype hpending h0 h1]
    rfl

end Response

section Commit

variable {n : Nat} {cache t : Tables} {msg : Message} {sent : List Sent} {work : Work}

/-- What a request leaves as the interface of its key: its own when it pushes
a record, and otherwise what is there. -/
theorem request_pendingInterface (h : dispatch n cache msg = some (sent, work))
    (htype : PacketTypes.ofOctet msg._recvPacket.packetType = some .REQUEST)
    (hcovered : PendingCovered t cache) :
    pendingInterface msg._recvPacket.requestKey (work.commit t)
      = if Keyed.lookup PRTrecord.key msg._recvPacket.requestKey cache.PendingRequestTable = none
        then some msg._RxInterface_Num
        else pendingInterface msg._recvPacket.requestKey t := by
  rw [dispatch_request htype] at h
  obtain rfl := requestCase_work h
  have hkey : (requestedRecord cache msg).key = msg._recvPacket.requestKey := requestedRecord_key
  unfold pendingInterface
  simp only [Work.commit, commitRequest]
  cases hf : Keyed.lookup PRTrecord.key msg._recvPacket.requestKey cache.PendingRequestTable with
  | none =>
    -- the copy covers the shared table, so the pushed record is the first of its key
    have hnew : ∀ r ∈ t.PendingRequestTable, r.key ≠ (requestedRecord cache msg).key := by
      intro r hr he
      obtain ⟨x, hx, hxr⟩ := hcovered r hr
      exact Keyed.lookup_eq_none.mp hf x hx (hxr.trans (he.trans hkey))
    rw [Option.isSome_none, if_neg Bool.false_ne_true, if_pos rfl, ← hkey,
      Keyed.lookup_push_self hnew]
    show some (requestedRecord cache msg).interface = _
    unfold requestedRecord
    rw [hf]
    rfl
  | some r =>
    rw [Option.isSome_some, if_pos rfl, if_neg (Option.some_ne_none r), hkey,
      Keyed.lookup_refresh PRTrecord.key_refreshed]
    cases Keyed.lookup PRTrecord.key msg._recvPacket.requestKey t.PendingRequestTable with
    | none => rfl
    | some x =>
      rw [Option.map_some, if_pos rfl]
      rfl

end Commit

/-- One move of a run lets the response follow exactly when its request pushes
a record or finds its own interface. -/
theorem move_followsRequester_iff {n : Nat} {m : Move RouterState Action}
    (hpre : (router n).Reachable m.pre) (hs : (router n).step m.pre m.act m.post) :
    FollowsRequester n m ↔ SameRequester m := by
  refine forall_congr' fun msg => forall_congr' fun hc => forall_congr' fun htype => ?_
  obtain ⟨sent, work, hd, hshared⟩ := commit_move hpre hs hc
  obtain ⟨hcovered, h0, h1⟩ : PendingCovered m.pre.shared m.pre.cache ∧
      0 ≤ msg._RxInterface_Num ∧ msg._RxInterface_Num < n := by
    obtain ⟨-, work', hmain⟩ := commitOf_eq_some hc
    have hpc := (reachable_loopInv hpre).atPc
    rw [hmain] at hpc
    exact ⟨hpc.1, hpc.2.2.1⟩
  rw [response_through_iff h0 h1 rfl, hshared, request_pendingInterface hd htype hcovered]
  by_cases hf : Keyed.lookup PRTrecord.key msg._recvPacket.requestKey
      m.pre.cache.PendingRequestTable = none
  · simp [hf]
  · simp [hf]

/-- **Responses follow every request of a run iff no request finds a record
of its key that an earlier request left with another interface**, nor one in
the copy that is gone. -/
theorem run_followsRequester_iff {n : Nat} {ms : List (Move RouterState Action)} {s : RouterState}
    (h : (router n).Run ms s) : (∀ m ∈ ms, FollowsRequester n m) ↔ ∀ m ∈ ms, SameRequester m :=
  h.forall_iff fun _ => move_followsRequester_iff

/-- One iteration of main on a packet. -/
def iteration (p_message : Message) : List Action :=
  [.copyPending, .copyRouting, .dispatch p_message, .commit]

/-- Host 10 asks for content 7 from interface 0 and, after a timer pass, from
interface 1: the response goes to interface 0. -/
theorem reconnected :
    ∃ ms s, (router 2).Run ms s ∧ ¬(∀ m ∈ ms, FollowsRequester 2 m) ∧
      handlePacket 2 s.shared (received .RESPONSE 7 10 1)
        = some (s.shared, [(0, octets .RESPONSE 7 10)]) := by
  have h : trace (step 2) .start (iteration (received .REQUEST 7 10 0)
      ++ [.timerRouting, .timerPending] ++ iteration (received .REQUEST 7 10 1))
      = some (_, _) := rfl
  refine ⟨_, _, run_of_trace h, ?_, rfl⟩
  rw [(run_of_trace h).forall_iff fun _ => move_followsRequester_iff]
  decide

/-- Two hosts that keep their interfaces, one of them asking twice. -/
theorem followed :
    ∃ ms s, (router 2).Run ms s ∧
      s.shared.PendingRequestTable = [⟨7, 10, 0, 35⟩, ⟨7, 11, 1, 35⟩] ∧
      ∀ m ∈ ms, FollowsRequester 2 m := by
  have h : trace (step 2) .start (iteration (received .REQUEST 7 10 0)
      ++ iteration (received .REQUEST 7 11 1) ++ [.timerRouting, .timerPending]
      ++ iteration (received .REQUEST 7 10 0)) = some (_, _) := rfl
  exact ⟨_, _, run_of_trace h, rfl, (run_followsRequester_iff (run_of_trace h)).mpr (by decide)⟩

end ContentNetwork.Simplified
