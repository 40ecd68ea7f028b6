import ContentNetwork.Network.Threaded
import ContentNetwork.Simplified.Atomic
import ContentNetwork.Simplified.Lifetime

/-!
# A content that is announced no more

A host that deletes a content stops announcing it; nothing takes the routes
back. What removes them is the timer. Once no announcement of `c` is in flight
and no router is about to commit one (`Withdrawn`), that stays so until a host
announces `c` again, whatever the links lose and duplicate
(`step_withdrawn`). From then on the passes of a router's timer are numbered:
the record of `c` survives those of the records in front of it and its own,
two for each record at most (`withdrawn_forgotten`). How often other contents
are announced in the meantime does not matter.
-/

namespace ContentNetwork.Network

open Lib Lib.Lts Simplified

variable {R H : Type*} {T : Topology R H} {s s' t : ThreadedState R H} {c : UInt8}

/-- The packet is an announcement of `c`. -/
def AnnouncementOf (c : UInt8) (p : HeaderOctets) : Prop :=
  PacketTypes.ofOctet p.packetType = some .ANNOUNCEMENT ∧ p.contentID = c

/-- No announcement of `c` is on its way, nor about to change a table. -/
structure Withdrawn (c : UInt8) (s : ThreadedState R H) : Prop where
  flight : ∀ x ∈ s.inFlight, ¬AnnouncementOf c x.packet
  main : ∀ r msg flag record, (s.routers r).main = .commit msg (.announcement flag record) →
    record.cID ≠ c.toNat

theorem not_announcementOf {type : PacketTypes} {contentID hostIDOrHops : UInt8}
    (h : type ≠ .ANNOUNCEMENT) : ¬AnnouncementOf c (octets type contentID hostIDOrHops) :=
  fun ha => octets_type_ne h ha.1

/-- What a dispatched message sends has its type and its content. -/
theorem dispatch_sent {n : Nat} {cache : Tables} {m : Message} {sent : List Sent} {work : Work}
    (hd : dispatch n cache m = some (sent, work)) : ∀ x ∈ sent,
      x.2.packetType = m._recvPacket.packetType ∧ x.2.contentID = m._recvPacket.contentID := by
  have hh := handlePacket_of_dispatch hd
  intro x hx
  rcases dispatch_cases hd with ⟨ht, -⟩ | ⟨ht, -⟩ | ⟨ht, -⟩ | ⟨-, rfl, -⟩
  · rw [((handlePacket_request ht hh).2.2 x hx).1]
    exact ⟨rfl, rfl⟩
  · rw [((handlePacket_response ht hh).2 x hx).1]
    exact ⟨rfl, rfl⟩
  · rw [handlePacket_announcement_sent ht hh x hx]
    exact ⟨rfl, rfl⟩
  · exact absurd hx List.not_mem_nil

/-- The record that a dispatched announcement is about to commit is of its
content. -/
theorem dispatch_announces {n : Nat} {cache : Tables} {m : Message} {sent : List Sent}
    {flag : Bool} {record : RTrecord}
    (hd : dispatch n cache m = some (sent, .announcement flag record))
    (hm : ¬AnnouncementOf c m._recvPacket) : record.cID ≠ c.toNat := by
  rcases dispatch_cases hd with ⟨-, hreq⟩ | ⟨-, hresp⟩ | ⟨ht, hann⟩ | ⟨-, -, hdef⟩
  · exact nomatch requestCase_work hreq
  · exact nomatch responseCase_work hresp
  · obtain ⟨-, rfl⟩ := Work.announcement.inj (announcementCase_work hann)
    rw [announcedRecord_cID]
    intro he
    exact hm ⟨ht, UInt8.toNat_inj.mp (Int.natCast_inj.mp he)⟩
  · exact nomatch hdef

section Steps

variable [DecidableEq R] {e : ThreadedEvent R H}

/-- A step of one router keeps what every `main` is about to do, if it does so
itself. -/
theorem Withdrawn.main_update (hw : Withdrawn c s) {r : R} {u : RouterState}
    (hu : ∀ msg flag record, u.main = .commit msg (.announcement flag record) →
      record.cID ≠ c.toNat) (r' : R) :
    ∀ msg flag record,
      (Function.update s.routers r u r').main = .commit msg (.announcement flag record) →
        record.cID ≠ c.toNat := by
  by_cases hr : r' = r
  · rw [hr, Function.update_self]
    exact hu
  · rw [Function.update_of_ne hr]
    exact hw.main r'

/-- **A content stays withdrawn until a host announces it.** -/
theorem step_withdrawn (hw : Withdrawn c s) (h : T.ThreadedStep s e s')
    (hsilent : ∀ y, e ≠ .announce y c) : Withdrawn c s' := by
  cases h with
  | announce y c' =>
    refine ⟨Keyed.forall_push hw.flight fun ha => ?_, hw.main⟩
    obtain rfl : c' = c := ha.2
    exact hsilent y rfl
  | request y c' =>
    exact ⟨Keyed.forall_push hw.flight (not_announcementOf nofun), hw.main⟩
  | @hostReceive before after y packet hasFile hsplit =>
    refine ⟨fun x hx => ?_, hw.main⟩
    rcases List.mem_append.mp hx with hx | hx
    · exact hw.flight x (Topology.mem_of_split hsplit hx)
    · cases hasFile with
      | false => exact absurd hx List.not_mem_nil
      | true =>
        obtain ⟨-, rfl⟩ := Topology.mem_hostReply hx
        exact not_announcementOf nofun
  | @pop before after r i packet u sent work hsplit hu hd =>
    have hm : ¬AnnouncementOf c packet := hw.flight _ (Topology.mem_split hsplit)
    refine ⟨fun x hx => ?_, hw.main_update fun msg flag record hmain => ?_⟩
    · rcases List.mem_append.mp hx with hx | hx
      · exact hw.flight x (Topology.mem_of_split hsplit hx)
      · obtain ⟨j, hj, -⟩ := Topology.mem_send hx
        obtain ⟨htype, hcontent⟩ := dispatch_sent hd _ hj
        intro ha
        dsimp only at htype hcontent
        exact hm ⟨htype ▸ ha.1, hcontent ▸ ha.2⟩
    · cases step_cases hu with
      | @dispatch _ _ work' hpoll h0 h1 hd' =>
        obtain ⟨rfl, rfl⟩ := MainPc.commit.inj hmain
        exact dispatch_announces hd' hm
      | throws => exact nomatch hmain
  | @throws before after r i packet u hsplit hu hd =>
    refine ⟨fun x hx => hw.flight x (Topology.mem_of_split hsplit hx),
      hw.main_update fun msg flag record hmain => ?_⟩
    cases step_cases hu with
    | dispatch _ _ _ hd' =>
      rw [hd] at hd'
      cases hd'
    | throws => exact nomatch hmain
  | @router r a u hnot hu =>
    refine ⟨hw.flight, hw.main_update fun msg flag record hmain => ?_⟩
    cases step_cases hu with
    | copyPending => exact nomatch hmain
    | copyRouting => exact nomatch hmain
    | idle => exact nomatch hmain
    | dispatch => exact absurd rfl (hnot _)
    | throws => exact nomatch hmain
    | commit => exact nomatch hmain
    | timerRouting => exact hw.main r msg flag record hmain
    | timerPending => exact hw.main r msg flag record hmain
  | lose hsplit => exact ⟨fun x hx => hw.flight x (Topology.mem_of_split hsplit hx), hw.main⟩
  | duplicate hx => exact ⟨Keyed.forall_push hw.flight (hw.flight _ hx), hw.main⟩

/-! ## The timer runs out -/

/-- How often the timer of router `r` has passed over its routing table. -/
def ticks (r : R) (ms : List (Move (ThreadedState R H) (ThreadedEvent R H))) : Nat :=
  ms.countP fun m =>
    match m.act with
    | .router r' .timerRouting => r' = r
    | _ => false

/-- The routing records of router `r`. -/
def records (s : ThreadedState R H) (r : R) : List RTrecord :=
  (s.routers r).shared.RoutingTable

/-- The passes that the record of `c` at router `r` has left. -/
def passesLeft (c : UInt8) (s : ThreadedState R H) (r : R) : Nat :=
  creditTo RTrecord.ttl_rt RTrecord.cID (c.toNat : Int) (records s r)

variable {ms : List (Move (ThreadedState R H) (ThreadedEvent R H))}

theorem ticks_concat (r : R) (ms : List (Move (ThreadedState R H) (ThreadedEvent R H))) :
    ticks r (ms ++ [⟨s, .router r .timerRouting, s'⟩]) = ticks r ms + 1 := by
  unfold ticks
  rw [List.countP_append, List.countP_singleton]
  simp

theorem ticks_concat_ne {r : R} (he : e ≠ .router r .timerRouting) :
    ticks r (ms ++ [⟨s, e, s'⟩]) = ticks r ms := by
  unfold ticks
  rw [List.countP_append, List.countP_singleton]
  dsimp only
  split
  next _ r' => simp [show r' ≠ r from fun hr => he (hr ▸ rfl)]
  next => simp

/-- Every pass of a timer is one fewer that the record of `c` has left, and
nothing adds one. -/
theorem run_passesLeft (hw : Withdrawn c t) (hrun : (T.threadedNetwork.resume t).Run ms s)
    (hsilent : ∀ m ∈ ms, ∀ y, m.act ≠ .announce y c) :
    Withdrawn c s ∧ ∀ r, (c.toNat : Int) ∈ (records s r).map RTrecord.cID →
      (c.toNat : Int) ∈ (records t r).map RTrecord.cID ∧
        passesLeft c s r + ticks r ms ≤ passesLeft c t r := by
  induction hrun with
  | start hs =>
    obtain rfl : _ = t := hs
    exact ⟨hw, fun r hr => ⟨hr, le_rfl⟩⟩
  | @snoc ms s s' e hrun hs ih =>
    obtain ⟨hws, hbound⟩ := ih fun m hm => hsilent m (List.mem_append_left _ hm)
    have hstep := Topology.threadedStep_cases hs
    refine ⟨step_withdrawn hws hstep (hsilent _ List.mem_concat_self), fun r hr => ?_⟩
    rcases hstep.router_cases r with ⟨hsame, hne⟩ | ⟨a, ha, hiff⟩
    · rw [ticks_concat_ne hne]
      unfold passesLeft records at *
      rw [hsame] at hr ⊢
      exact hbound r hr
    · obtain ⟨hr', hle⟩ := step_routing_credit ha (hws.main r) hr
      obtain ⟨hrt, hleft⟩ := hbound r hr'
      refine ⟨hrt, ?_⟩
      unfold passesLeft records at *
      by_cases htimer : a = .timerRouting
      · rw [hiff.mpr htimer, ticks_concat]
        rw [if_pos htimer] at hle
        omega
      · rw [ticks_concat_ne fun he => htimer (hiff.mp he)]
        rw [if_neg htimer] at hle
        omega

end Steps

/-- **What is announced no more is forgotten.** When no announcement of `c` is
left and no host announces it again, the record of `c` at a router is gone as
soon as its timer has passed more often than twice for each record the router
had. -/
theorem withdrawn_forgotten [DecidableEq R] (ht : T.threadedNetwork.Reachable t)
    (hw : Withdrawn c t) {ms : List (Move (ThreadedState R H) (ThreadedEvent R H))}
    (hrun : (T.threadedNetwork.resume t).Run ms s)
    (hsilent : ∀ m ∈ ms, ∀ y, m.act ≠ .announce y c) {r : R}
    (hticks : 2 * (records t r).length < ticks r ms) :
    ∀ record ∈ records s r, record.cID ≠ c.toNat := by
  have hwell := (reachable_loopInv (Topology.reachable_router ht r)).shared
  have hle : passesLeft c t r ≤ 2 * (records t r).length :=
    creditTo_le fun record hrecord => (hwell.routing_ok record hrecord).2.2
  intro record hrecord hc
  have hmem : (c.toNat : Int) ∈ (records s r).map RTrecord.cID :=
    hc ▸ List.mem_map_of_mem hrecord
  obtain ⟨-, hleft⟩ := (run_passesLeft hw hrun hsilent).2 r hmem
  omega

/-- Host `false` announces content 7, and the announcement is lost on the link to
the other router. -/
def lostAnnouncement : List (ThreadedEvent Bool Bool) :=
  [.announce false 7] ++ iteration false 0 ++ [.lose 0]

/-- The state after that. -/
def lineWithdrawn : ThreadedState Bool Bool :=
  (trace line.threadedStep ⟨fun _ => .start, [], []⟩ lostAnnouncement).elim
    ⟨fun _ => .start, [], []⟩ Prod.snd

/-- Three passes of the timer of router `false`. -/
def threePasses : List (ThreadedEvent Bool Bool) :=
  [.router false .timerRouting, .router false .timerPending, .router false .timerRouting,
    .router false .timerPending, .router false .timerRouting]

theorem withdrawn_forgotten_line :
    records lineWithdrawn false = [⟨7, 1, 0, 25⟩] ∧
      ∃ ms s, (line.threadedNetwork.resume lineWithdrawn).Run ms s ∧
        ∀ record ∈ records s false, record.cID ≠ ((7 : UInt8).toNat : Int) := by
  have htrace : trace line.threadedStep ⟨fun _ => .start, [], []⟩ lostAnnouncement
      = some (_, lineWithdrawn) := rfl
  have ht : line.threadedNetwork.Reachable lineWithdrawn := (run_of_trace htrace).reachable
  have htrace' : trace line.threadedStep lineWithdrawn threePasses = some (_, _) := rfl
  have hrun : (line.threadedNetwork.resume _).Run _ _ := run_of_trace htrace'
  refine ⟨rfl, _, _, hrun, withdrawn_forgotten ht ⟨nofun, ?_⟩ hrun ?_ ?_⟩
  · intro r msg flag record hmain
    cases r <;> exact nomatch hmain
  · intro m hm y ha
    have hact := List.mem_map_of_mem (f := Move.act) hm
    rw [acts_of_trace htrace', ha] at hact
    simp [threePasses] at hact
  · exact Nat.lt_succ_self 2

end ContentNetwork.Network
