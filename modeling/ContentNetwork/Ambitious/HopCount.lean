import ContentNetwork.Ambitious.EndlessFlood
import Mathlib.Order.Bounds.Defs

/-!
# Hop counts and distances

The hop count of a record should never be below the distance to the nearest
router with a host that announced the content. Every announcement in flight
has come along a walk from such a router, and its hop octet counts the links
of that walk; so has every record (`HopInv`). Since the routers send
announcements to and fro, walks get as long as one likes, and the octet of the
256th link is 0 again.

`run_hops_ge_distance`: in a run in which no router handles an announcement
whose hop octet is 255, no record is below the distance. In
`hops_below_distance` the octet wraps between two routers, and a third one, two
links away from the host's, records that it is no link away.
-/

namespace ContentNetwork.Ambitious

open Lib Lts Simplified Network

variable {R H : Type*} [DecidableEq R] {T : Topology R H} {returns : R → Bool}
  {s s' : State R H} {e : Event R H} {c : UInt8}

/-- Every valid record for `c` has at least as many hops as there are links to
the nearest router with a host that has announced `c`. -/
def HopsCoverDistance (T : Topology R H) (c : UInt8) (s : State R H) : Prop :=
  ∀ r, ∀ x ∈ (s.routers r).p_RoutingTable.Table, x.isValid = true → x.ContentID = c.toNat →
    ∃ n : ℕ, IsLeast {k | ∃ h, (h, c) ∈ s.announced ∧ T.Walk (T.attach h).1 r k} n ∧
      (n : Int) ≤ x.NumOfHops

/-- The event is not a router handling an announcement of `c` whose hop octet
is 255. -/
def NoWrap (c : UInt8) (s : State R H) : Event R H → Prop
  | .deliver k =>
    ∀ x ∈ s.inFlight[k]?, ToRouter x = true → x.packet.contentID = c →
      x.packet.hostIDOrHops ≠ 255
  | .announce _ _ | .request _ _ | .hostReceive _ _ | .expire _ _ => True

instance (c : UInt8) (s : State R H) : DecidablePred (NoWrap c s)
  | .deliver k => inferInstanceAs (Decidable (∀ x ∈ s.inFlight[k]?, _ → _))
  | .announce _ _ | .request _ _ | .hostReceive _ _ | .expire _ _ => isTrue trivial

/-! ## Hop counts are lengths of walks -/

/-- From a router with a host that announced `c`, `k` links lead to `r`. -/
def Reaches (T : Topology R H) (c : UInt8) (s : State R H) (r : R) (k : ℕ) : Prop :=
  ∃ h, (h, c) ∈ s.announced ∧ T.Walk (T.attach h).1 r k

/-- The hop counts of records and of announcements for `c` are lengths of
walks. -/
structure HopInv (T : Topology R H) (c : UInt8) (s : State R H) : Prop where
  valid : ∀ r, (s.routers r).p_RoutingTable.Valid
  records : ∀ r, ∀ x ∈ (s.routers r).p_RoutingTable.Table, x.ContentID = c.toNat →
    ∃ k : ℕ, x.NumOfHops = k ∧ Reaches T c s r k
  flight : ∀ x ∈ s.inFlight, IsAnnouncement x → x.packet.contentID = c →
    ∀ r i, x.dest = .node r i → Reaches T c s r x.packet.hostIDOrHops.toNat

omit [DecidableEq R] in
theorem Reaches.mono {r : R} {k : ℕ} (h : Reaches T c s r k)
    (hmono : ∀ y ∈ s.announced, y ∈ s'.announced) : Reaches T c s' r k := by
  obtain ⟨y, hy, hwalk⟩ := h
  exact ⟨y, hmono _ hy, hwalk⟩

/-- No event takes an announcement back. -/
theorem announced_mono (h : NetworkStep T returns s e s') :
    ∀ y ∈ s.announced, y ∈ s'.announced := by
  cases h with
  | announce => exact fun y hy => List.mem_cons_of_mem _ hy
  | request => exact fun y hy => hy
  | handle => exact fun y hy => hy
  | ends => exact fun y hy => hy
  | hostReceive => exact fun y hy => hy
  | expire => exact fun y hy => hy

omit [DecidableEq R] in
/-- An announcement that a router may handle without its octet wrapping. -/
theorem hops_lt_of_noWrap {k : ℕ} {r : R} {i : Int} {packet : HeaderOctets}
    (hok : NoWrap c s (.deliver k)) (hk : s.inFlight[k]? = some ⟨.node r i, packet⟩)
    (ht : PacketTypes.ofOctet packet.packetType = some .ANNOUNCEMENT)
    (hc : packet.contentID = c) : packet.hostIDOrHops.toNat < 255 := by
  have hne : packet.hostIDOrHops ≠ 255 := hok _ hk (toRouter_iff.mpr ⟨ht, r, i, rfl⟩) hc
  have hlt := packet.hostIDOrHops.toNat_lt
  have hne' : packet.hostIDOrHops.toNat ≠ 255 := fun h => hne (UInt8.toNat_inj.mp h)
  omega

/-- An event without a wrapping octet keeps hop counts lengths of walks. -/
theorem step_hopInv (hi : HopInv T c s) (hok : NoWrap c s e)
    (h : networkStep T returns s e = some s') : HopInv T c s' := by
  obtain ⟨hvalid, hrecords, hflight⟩ := hi
  have hcases := networkStep_cases h
  have hmono := announced_mono hcases
  refine ⟨fun r => ?_, fun r x hx hc => ?_, fun x hx ha hc r i hdest => ?_⟩
  · rcases step_routing hcases r with hsame | ⟨k, i, packet, -, -, -, hann⟩
    · rw [hsame]
      exact hvalid r
    · exact RoutingTable.handleAnnouncement_valid (hvalid r) hann
  · rcases step_routing hcases r with hsame | ⟨k, i, packet, rfl, hk, ht, hann⟩
    · rw [hsame] at hx
      obtain ⟨k, hhops, hreach⟩ := hrecords r x hx hc
      exact ⟨k, hhops, hreach.mono hmono⟩
    · rcases RoutingTable.mem_handleAnnouncement (hvalid r) hann hx with hx | rfl
      · obtain ⟨k, hhops, hreach⟩ := hrecords r x hx hc
        exact ⟨k, hhops, hreach.mono hmono⟩
      · -- the record of the announcement just handled
        have hcontent : packet.contentID = c := by
          have hc : (packet.contentID.toNat : Int) = c.toNat := hc
          exact UInt8.toNat_inj.mp (by omega)
        have hreach := hflight _ (List.mem_of_getElem? hk) ht hcontent r i rfl
        exact ⟨packet.hostIDOrHops.toNat, rfl, hreach.mono hmono⟩
  · rcases step_isAnnouncement h hx ha with hx | ⟨y, d, rfl, rfl⟩ |
      ⟨k, q, j, packet, j', rfl, hk, ht, -, hpacket, hfar⟩
    · exact (hflight x hx ha hc r i hdest).mono hmono
    · -- a host's own announcement, at distance 0
      cases hcases
      obtain rfl : d = c := hc
      cases hdest
      exact ⟨y, List.mem_cons_self .., .nil⟩
    · -- one link more than the announcement that was handled
      have hcontent : packet.contentID = c := by
        rw [← hc, hpacket]
        rfl
      obtain ⟨y, hy, hwalk⟩ := hflight _ (List.mem_of_getElem? hk) ht hcontent q j rfl
      rw [hdest] at hfar
      rw [hpacket, nextHop_toNat (hops_lt_of_noWrap hok hk ht hcontent)]
      exact ⟨y, hmono _ hy, hwalk.snoc hfar⟩

omit [DecidableEq R] in
theorem HopInv.hopsCoverDistance (hi : HopInv T c s) : HopsCoverDistance T c s := by
  classical
  intro r x hx _ hc
  obtain ⟨k, hhops, hreach⟩ := hi.records r x hx hc
  have hex : ∃ n, Reaches T c s r n := ⟨k, hreach⟩
  refine ⟨Nat.find hex, ⟨Nat.find_spec hex, fun n hn => Nat.find_min' hex hn⟩, ?_⟩
  have := Nat.find_min' hex hreach
  omega

/-- **Hop counts do not under-report the distance** in a network that starts
with empty tables, as long as no router handles an announcement of the content
whose hop octet is 255. -/
theorem run_hops_ge_distance {ms : List (Move (State R H) (Event R H))}
    (h : (network T returns fun _ => .empty).Run ms s) (hok : ∀ m ∈ ms, NoWrap c m.pre m.act) :
    HopsCoverDistance T c s := by
  refine HopInv.hopsCoverDistance ?_
  refine (h.guard hok).reachable.invariant ?_ ?_
  · intro s hs
    rw [hs]
    exact ⟨fun _ => RoutingTable.empty_valid, fun r x hx => absurd hx List.not_mem_nil,
      fun x hx => absurd hx List.not_mem_nil⟩
  · intro s e s' hi hs
    exact step_hopInv hi hs.1 hs.2

/-! ## Three routers in a row -/

inductive Station
  | first
  | middle
  | last
  deriving DecidableEq

instance : Fintype Station where
  elems := {.first, .middle, .last}
  complete := by
    intro r
    cases r <;> decide

/-- Interface 0 of `first` is linked to interface 0 of `middle`, interface 1 of
`middle` to interface 0 of `last`; the host is at interface 1 of `first`. -/
def rowFar (r : Station) (i : Int) : Option (Far Station Int Unit) :=
  match r with
  | .first => if i = 0 then some (.node .middle 0) else if i = 1 then some (.leaf ()) else none
  | .middle =>
    if i = 0 then some (.node .first 0) else if i = 1 then some (.node .last 0) else none
  | .last => if i = 0 then some (.node .middle 1) else none

def rowInterfaces : Station → Nat
  | .first | .middle => 2
  | .last => 1

theorem rowFar_symm {r r' : Station} {i i' : Int} (h : rowFar r i = some (.node r' i')) :
    rowFar r' i' = some (.node r i) := by
  unfold rowFar at h
  cases r with
  | first =>
    dsimp only at h
    split_ifs at h with h0 h1
    · cases h
      rw [h0]
      rfl
    · cases h
  | middle =>
    dsimp only at h
    split_ifs at h with h0 h1
    · cases h
      rw [h0]
      rfl
    · cases h
      rw [h1]
      rfl
  | last =>
    dsimp only at h
    split_ifs at h with h0
    cases h
    rw [h0]
    rfl

theorem rowFar_leaf {r : Station} {i : Int} {h : Unit} :
    rowFar r i = some (.leaf h) ↔ (Station.first, (1 : Int)) = (r, i) := by
  constructor
  · intro hfar
    unfold rowFar at hfar
    cases r with
    | first =>
      dsimp only at hfar
      split_ifs at hfar with h0 h1
      · cases hfar
      · rw [h1]
    | middle =>
      dsimp only at hfar
      split_ifs at hfar <;> cases hfar
    | last =>
      dsimp only at hfar
      split_ifs at hfar
      cases hfar
  · intro hatt
    cases hatt
    rfl

theorem rowFar_in_range {r : Station} {i : Int} {e : Far Station Int Unit}
    (h : rowFar r i = some e) : 0 ≤ i ∧ i < rowInterfaces r := by
  unfold rowFar at h
  unfold rowInterfaces
  cases r <;> dsimp only at h ⊢ <;> split_ifs at h <;> omega

/-- The row of three routers. -/
def row : Topology Station Unit where
  far := rowFar
  attach _ := (.first, 1)
  num_interfaces := rowInterfaces
  hostID _ := 1
  symm := rowFar_symm
  leaf := rowFar_leaf
  in_range := rowFar_in_range

/-- All three routers have handled an announcement of content 7, and `last` has
recorded that it is two links away. -/
theorem hops_ge_distance_row :
    ∃ ms s, (network row (fun _ => false) fun _ => .empty).Run ms s ∧
      (s.routers .last).p_RoutingTable.Table = [⟨7, 2, 0, true⟩] ∧
      HopsCoverDistance row 7 s := by
  have htrace : trace (networkStep row fun _ => false) ⟨fun _ => .empty, [], []⟩
      [.announce () 7, .deliver 0, .deliver 0, .deliver 2] = some (_, _) := rfl
  have hrun := run_of_trace htrace
  exact ⟨_, _, hrun, rfl, run_hops_ge_distance hrun (by decide)⟩

/-- The tables once `first` and `middle` have handled the announcement, and
`last` has not. -/
def rowTables : Station → Router
  | .first => ⟨⟨[⟨7, 0, 1, true⟩]⟩, .empty⟩
  | .middle => ⟨⟨[⟨7, 1, 0, true⟩]⟩, .empty⟩
  | .last => .empty

theorem first_settled : (rowTables .first).p_RoutingTable.Settled 7 0 :=
  ⟨_, rfl, rfl, Int.le_refl _⟩

theorem middle_settled : (rowTables .middle).p_RoutingTable.Settled 7 1 :=
  ⟨_, rfl, rfl, Int.le_refl _⟩

/-- `first` and `middle` have handed the announcement to and fro `n` times, and
`last` has handled nothing. -/
def HandedToAndFro (n : ℕ) (s : State Station Unit) : Prop :=
  s.routers = rowTables ∧ s.announced = [((), 7)] ∧
    ⟨.node .first 0, octets .ANNOUNCEMENT 7 (UInt8.ofNat (2 * n))⟩ ∈ s.inFlight

/-- `first` sends the announcement to `middle`, and `middle` sends it on to
both its neighbours. No table changes. -/
theorem first_middle_handle {n : ℕ} {s : State Station Unit} (hs : HandedToAndFro n s) :
    ∃ s', (network row (fun _ => false) fun _ => .empty).Leads s s' ∧
      HandedToAndFro (n + 1) s' ∧
      ⟨.node .last 0, octets .ANNOUNCEMENT 7 (UInt8.ofNat (2 * (n + 1)))⟩ ∈ s'.inFlight := by
  obtain ⟨hrouters, hann, hx⟩ := hs
  have hlink : row.far .first 0 = some (.node .middle 0) := rfl
  have hback : row.far .middle 0 = some (.node .first 0) := rfl
  have hfirst : (s.routers .first).p_RoutingTable.Settled 7 0 := by
    rw [hrouters]
    exact first_settled
  have hmiddle : (s.routers .middle).p_RoutingTable.Settled 7 1 := by
    rw [hrouters]
    exact middle_settled
  obtain ⟨k, inFlight, -, hstep, hmem⟩ :=
    handle_settled (m := 0) (c := 7) hx hfirst (Nat.zero_le _) hlink
  have hx' : ⟨.node .middle 0, octets .ANNOUNCEMENT 7 (UInt8.ofNat (2 * n + 1))⟩
      ∈ ({ s with inFlight } : State Station Unit).inFlight := hmem 0 .middle 0 hlink
  obtain ⟨k', inFlight', -, hstep', hmem'⟩ :=
    handle_settled (m := 1) (c := 7) hx' hmiddle (by omega) hback
  refine ⟨_, (Leads.refl.step hstep).step hstep', ⟨hrouters, hann, ?_⟩, ?_⟩
  · exact hmem' 0 .first 0 hback
  · exact hmem' 1 .last 0 rfl

theorem exists_handedToAndFro (n : ℕ) :
    ∃ s, (network row (fun _ => false) fun _ => .empty).Reachable s ∧
      HandedToAndFro (n + 1) s := by
  induction n with
  | zero =>
    have htrace : trace (networkStep row fun _ => false) ⟨fun _ => .empty, [], []⟩
        [.announce () 7, .deliver 0, .deliver 0] = some (_, _) := rfl
    refine ⟨_, (run_of_trace htrace).reachable, funext fun r => ?_, rfl, by decide⟩
    cases r with
    | first => rfl
    | middle => rfl
    | last => rfl
  | succ n ih =>
    obtain ⟨s, hs, hfro⟩ := ih
    obtain ⟨s', hleads, hfro', -⟩ := first_middle_handle hfro
    exact ⟨s', hs.leads hleads, hfro'⟩

/-- After 255 links between `first` and `middle` the octet wraps, and `last`
records that content 7 is zero hops away. No router ends on the way. -/
theorem hops_below_distance :
    Nat.card Station ≤ 255 ∧
    ∃ s, (network row (fun _ => false) fun _ => .empty).Reachable s ∧
      s.announced = [((), 7)] ∧ ⟨7, 0, 0, true⟩ ∈ (s.routers .last).p_RoutingTable.Table ∧
      ¬HopsCoverDistance row 7 s := by
  refine ⟨?_, ?_⟩
  · rw [Nat.card_eq_fintype_card]
    decide
  · -- 254 links to and fro, one more to `middle`, and `last` gets 256 mod 256
    obtain ⟨s, hs, hfro⟩ := exists_handedToAndFro 126
    obtain ⟨s', hleads, ⟨hrouters, hann, -⟩, hx⟩ := first_middle_handle hfro
    have hback : row.far .last 0 = some (.node .middle 1) := rfl
    have hrt : (s'.routers .last).p_RoutingTable.handleAnnouncement false
        (octets .ANNOUNCEMENT 7 (UInt8.ofNat (2 * (126 + 1 + 1)))).ContentID
        (octets .ANNOUNCEMENT 7 (UInt8.ofNat (2 * (126 + 1 + 1)))).hostOrHops 0
        = some ⟨[⟨7, 0, 0, true⟩]⟩ := by
      rw [hrouters]
      rfl
    obtain ⟨k, inFlight, -, hstep, -⟩ := @handle_link _ _ _ row (fun _ => false) s' _ _ _ _ _ _ _
      hx (ofOctet_octets ..) hrt hback
    have hrecord : ⟨7, 0, 0, true⟩ ∈ (Function.update s'.routers .last { s'.routers .last with
        p_RoutingTable := ⟨[⟨7, 0, 0, true⟩]⟩ } .last).p_RoutingTable.Table := by
      rw [Function.update_self]
      exact List.mem_singleton.mpr rfl
    refine ⟨_, (hs.leads hleads).step hstep, hann, hrecord, fun hcover => ?_⟩
    obtain ⟨n, ⟨⟨y, -, hwalk⟩, -⟩, hle⟩ := hcover .last _ hrecord rfl rfl
    obtain rfl : n = 0 := by
      have hle : (n : Int) ≤ 0 := hle
      omega
    cases hwalk

end ContentNetwork.Ambitious
