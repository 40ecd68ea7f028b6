import Mathlib.Algebra.Group.Action.Defs
import Mathlib.Algebra.Order.BigOperators.Group.List
import Mathlib.Algebra.Ring.Nat
import ContentNetwork.Ambitious.Network
import ContentNetwork.Network.FloodEnds

/-!
# Announcements of concurrent routers never end

A concurrent router broadcasts every announcement it handles, also one that
does not improve its table, and also through the interface it came in on; the
simplified router does neither. So two linked routers hand an announcement to
and fro for ever, unless one of the two ends at the first announcement it gets:
`RoutingTable.stopTimer` ends the process of a router whose table is improved,
where `pthread_cancel` does not return. `floodEnds_iff` is the exact condition:
the announcements of a host come to an end, in every order of deliveries, iff
for each link between the host's router and another one or the other ends so.

Where neither ends, an announcement is on its way to one of two linked routers
after every event of a run that only delivers it (`exists_endless_flood`); after
the first two deliveries it changes neither table. Where one ends, no other
router is reached (`Contained`), and the announcements in flight count down.
-/

namespace ContentNetwork.Ambitious

open Lib Lts Simplified Network

variable {R H : Type*} [DecidableEq R] {T : Topology R H} {returns : R → Bool}
  {s s' : State R H} {e : Event R H}

/-- The announcements that an event puts in flight. -/
def announcementsSent (T : Topology R H) (returns : R → Bool) (s : State R H) :
    Event R H → List (Envelope R H)
  | .announce h contentID => [T.fromHost h (octets .ANNOUNCEMENT contentID 0)]
  | .deliver k =>
    match s.inFlight[k]? with
    | some ⟨.node r i, packet⟩ =>
      if PacketTypes.ofOctet packet.packetType = some .ANNOUNCEMENT then
        match announcementCase (returns r) (T.num_interfaces r) (s.routers r) ⟨packet, i⟩ with
        | some (_, sent) => T.send r sent
        | none => []
      else []
    | _ => []
  | .request _ _ | .hostReceive _ _ | .expire _ _ => []

/-- Host `h` announces `c` once, and nobody announces anything else. -/
def AnnouncedOnce (h : H) (c : UInt8) (e : ℕ → Event R H) : Prop :=
  ∃ k, ∀ j y d, e j = .announce y d ↔ j = k ∧ y = h ∧ d = c

/-- In every infinite run from the given tables in which `h` announces `c`
once, announcements are sent at finitely many times. -/
def FloodEnds (T : Topology R H) (returns : R → Bool) (routers : R → Router) (h : H) (c : UInt8) :
    Prop :=
  ∀ x e, (network T returns routers).Execution x e → AnnouncedOnce h c e →
    {k | announcementsSent T returns (x k) (e k) ≠ []}.Finite

/-- An announcement of `c` with `hops` hops ends the process of router `r`: its
table has a valid record with more hops, and `pthread_cancel` does not return. -/
def EndsAt (returns : R → Bool) (routers : R → Router) (r : R) (c : UInt8) (hops : Int) : Prop :=
  returns r = false ∧ (routers r).p_RoutingTable.improves c.toNat hops = true

/-- A router handles an announcement. -/
def HandlesAnnouncement (s : State R H) (e : Event R H) : Prop :=
  ∃ k r i packet, e = .deliver k ∧ s.inFlight[k]? = some ⟨.node r i, packet⟩ ∧
    PacketTypes.ofOctet packet.packetType = some .ANNOUNCEMENT

omit [DecidableEq R] in
/-- Only announcing and handling announcements sends any. -/
theorem handles_of_sent (h : announcementsSent T returns s e ≠ []) :
    HandlesAnnouncement s e ∨ ∃ y c, e = .announce y c := by
  cases e with
  | announce y c => exact Or.inr ⟨y, c, rfl⟩
  | request y c => exact absurd rfl h
  | hostReceive k hasFile => exact absurd rfl h
  | expire r e => exact absurd rfl h
  | deliver k =>
    simp only [announcementsSent] at h
    split at h
    next r i packet hk =>
      split at h
      next ht => exact Or.inl ⟨k, r, i, packet, rfl, hk, ht⟩
      next => exact absurd rfl h
    next => exact absurd rfl h

omit [DecidableEq R] in
/-- An announcement that does not end the process is handled. -/
theorem handled_of_not_endsAt {r : R} {c : UInt8} {n : ℕ}
    (h : ¬EndsAt returns s.routers r c (UInt8.ofNat n).toNat) (i : Int) :
    ∃ rt, (s.routers r).p_RoutingTable.handleAnnouncement (returns r)
      (octets .ANNOUNCEMENT c (UInt8.ofNat n)).ContentID
      (octets .ANNOUNCEMENT c (UInt8.ofNat n)).hostOrHops i = some rt := by
  refine Option.ne_none_iff_exists'.mp fun hnone => h ?_
  exact RoutingTable.handleAnnouncement_eq_none.mp hnone

omit [DecidableEq R] in
/-- If a router does not end at an announcement, it does not at one with more
hops. -/
theorem EndsAt.mono {routers : R → Router} {r : R} {c : UInt8} {m n : Int}
    (h : EndsAt returns routers r c n) (hle : m ≤ n) : EndsAt returns routers r c m := by
  obtain ⟨hret, himp⟩ := h
  obtain ⟨x, hx, hv, hlt⟩ := RoutingTable.improves_iff.mp himp
  exact ⟨hret, RoutingTable.improves_iff.mpr ⟨x, hx, hv, by omega⟩⟩

/-! ## Two linked routers -/

/-- A router that handles an announcement sends it through each of its links,
with one more hop. -/
theorem handle_link {q q' : R} {i p p' : Int} {packet : HeaderOctets} {rt : RoutingTable}
    (hx : ⟨.node q i, packet⟩ ∈ s.inFlight)
    (ht : PacketTypes.ofOctet packet.packetType = some .ANNOUNCEMENT)
    (hrt : (s.routers q).p_RoutingTable.handleAnnouncement (returns q) packet.ContentID
      packet.hostOrHops i = some rt)
    (hlink : T.far q p = some (.node q' p')) :
    ∃ k inFlight, announcementsSent T returns s (.deliver k) ≠ [] ∧
      networkStep T returns s (.deliver k) = some { s with
        routers := Function.update s.routers q { s.routers q with p_RoutingTable := rt }
        inFlight } ∧
      ∀ j r j', T.far q j = some (.node r j') → ⟨.node r j', packet.nextHop⟩ ∈ inFlight := by
  obtain ⟨k, hk⟩ := List.mem_iff_getElem?.mp hx
  obtain ⟨sent, hcase, hsent⟩ : ∃ sent,
      announcementCase (returns q) (T.num_interfaces q) (s.routers q) ⟨packet, i⟩
        = some ({ s.routers q with p_RoutingTable := rt }, sent) ∧
      ∀ j r j', T.far q j = some (.node r j') →
        (⟨.node r j', packet.nextHop⟩ : Envelope R H) ∈ T.send q sent := by
    refine ⟨_, ?_, fun j r j' hfar => mem_send_announcement.mpr ⟨rfl, j, hfar⟩⟩
    rw [announcementCase_eq, hrt]
    rfl
  refine ⟨k, s.inFlight.eraseIdx k ++ T.send q sent, ?_, ?_, fun j r j' hfar => ?_⟩
  · simp only [announcementsSent, hk, if_pos ht, hcase]
    exact List.ne_nil_of_mem (hsent p q' p' hlink)
  · simp only [networkStep, hk, handlePacket, ht, hcase]
  · exact List.mem_append_right _ (hsent j r j' hfar)

/-- The announcement of `c` on its way to and fro between `r` and `r'`, after
`n` deliveries. The first two may change the tables, and end neither process;
after them both contents are settled. -/
inductive Circulates (returns : R → Bool) (c : UInt8) (r r' : R) (s : State R H) : Prop
  | first {i : Int} : ⟨.node r i, octets .ANNOUNCEMENT c (UInt8.ofNat 0)⟩ ∈ s.inFlight →
      ¬EndsAt returns s.routers r c 0 → ¬EndsAt returns s.routers r' c 1 →
      Circulates returns c r r' s
  | second {i : Int} : ⟨.node r' i, octets .ANNOUNCEMENT c (UInt8.ofNat 1)⟩ ∈ s.inFlight →
      (s.routers r).p_RoutingTable.Settled c.toNat 0 → ¬EndsAt returns s.routers r' c 1 →
      Circulates returns c r r' s
  | there {i : Int} {n : ℕ} :
      ⟨.node r i, octets .ANNOUNCEMENT c (UInt8.ofNat (2 * n))⟩ ∈ s.inFlight →
      (s.routers r).p_RoutingTable.Settled c.toNat 0 →
      (s.routers r').p_RoutingTable.Settled c.toNat 1 → Circulates returns c r r' s
  | back {i : Int} {n : ℕ} :
      ⟨.node r' i, octets .ANNOUNCEMENT c (UInt8.ofNat (2 * n + 1))⟩ ∈ s.inFlight →
      (s.routers r).p_RoutingTable.Settled c.toNat 0 →
      (s.routers r').p_RoutingTable.Settled c.toNat 1 → Circulates returns c r r' s

/-- A router whose content is settled hands an announcement on and stays as it
is. -/
theorem handle_settled {q q' : R} {i p p' : Int} {c : UInt8} {m n : ℕ}
    (hx : ⟨.node q i, octets .ANNOUNCEMENT c (UInt8.ofNat n)⟩ ∈ s.inFlight)
    (hq : (s.routers q).p_RoutingTable.Settled c.toNat m) (hle : m ≤ n % 256)
    (hlink : T.far q p = some (.node q' p')) :
    ∃ k inFlight, announcementsSent T returns s (.deliver k) ≠ [] ∧
      networkStep T returns s (.deliver k) = some { s with inFlight } ∧
      ∀ j r j', T.far q j = some (.node r j') →
        ⟨.node r j', octets .ANNOUNCEMENT c (UInt8.ofNat (n + 1))⟩ ∈ inFlight := by
  have hhops : (m : Int) ≤ (UInt8.ofNat n).toNat := Int.ofNat_le.mpr hle
  have hrt := hq.handleAnnouncement hhops (returns q) i
  obtain ⟨k, inFlight, hsent, hstep, hmem⟩ := handle_link hx (ofOctet_octets ..) hrt hlink
  refine ⟨k, inFlight, hsent, ?_, fun j r j' hfar => ?_⟩
  · rw [hstep, Function.update_eq_self]
  · rw [← nextHop_octets]
    exact hmem j r j' hfar

/-- The announcement can always be handed on. -/
theorem circulates_step {r r' : R} {p p' : Int} {c : UInt8} {routers : R → Router}
    (hlink : T.far r p = some (.node r' p')) (hs : Circulates returns c r r' s) :
    ∃ e s', (network T returns routers).step s e s' ∧
      (announcementsSent T returns s e ≠ [] ∧ ∀ y d, e ≠ .announce y d) ∧
      Circulates returns c r r' s' := by
  have hback := T.symm hlink
  cases hs with
  | first hx hr hr' =>
    obtain ⟨rt, hrt⟩ := handled_of_not_endsAt (n := 0) hr _
    obtain ⟨k, inFlight, hsent, hstep, hmem⟩ := handle_link hx (ofOctet_octets ..) hrt hlink
    have hsettled : rt.Settled c.toNat 0 := RoutingTable.settled_of_handleAnnouncement hrt
    refine ⟨_, _, hstep, ⟨hsent, by simp⟩, .second (hmem p r' p' hlink) ?_ ?_⟩
    · dsimp only
      rw [Function.update_self]
      exact hsettled
    · intro hends
      by_cases hrr : r' = r
      · -- linked to itself, and settled
        obtain ⟨-, himp⟩ := hends
        dsimp only at himp
        rw [hrr, Function.update_self, hsettled.not_improves (by decide)] at himp
        cases himp
      · unfold EndsAt at hends
        dsimp only at hends
        rw [Function.update_of_ne hrr] at hends
        exact hr' hends
  | second hx hr hr' =>
    obtain ⟨rt, hrt⟩ := handled_of_not_endsAt (n := 1) hr' _
    obtain ⟨k, inFlight, hsent, hstep, hmem⟩ := handle_link hx (ofOctet_octets ..) hrt hback
    have hsettled : rt.Settled c.toNat 1 := RoutingTable.settled_of_handleAnnouncement hrt
    refine ⟨_, _, hstep, ⟨hsent, by simp⟩, .there (n := 1) (hmem p' r p hback) ?_ ?_⟩
    · by_cases hrr : r = r'
      · -- linked to itself, and already settled
        subst hrr
        have hsame := hr.handleAnnouncement (show (0 : Int) ≤ 1 by decide) (returns r)
        obtain rfl := Option.some.inj ((hsame _).symm.trans hrt)
        dsimp only
        rw [Function.update_self]
        exact hr
      · dsimp only
        rw [Function.update_of_ne hrr]
        exact hr
    · dsimp only
      rw [Function.update_self]
      exact hsettled
  | there hx hr hr' =>
    obtain ⟨k, inFlight, hsent, hstep, hmem⟩ := handle_settled (m := 0) hx hr (Nat.zero_le _) hlink
    exact ⟨_, _, hstep, ⟨hsent, by simp⟩, .back (hmem p r' p' hlink) hr hr'⟩
  | back hx hr hr' =>
    obtain ⟨k, inFlight, hsent, hstep, hmem⟩ := handle_settled (m := 1) hx hr' (by omega) hback
    exact ⟨_, _, hstep, ⟨hsent, by simp⟩, .there (n := _ + 1) (hmem p' r p hback) hr hr'⟩

/-- If the host's router is linked to a router and neither ends at its first
announcement, that one is enough to keep both busy for ever. -/
theorem exists_endless_flood (routers : R → Router) (h : H) (c : UInt8) {p p' : Int} {r' : R}
    (hlink : T.far (T.attach h).1 p = some (.node r' p'))
    (hfirst : ¬EndsAt returns routers (T.attach h).1 c 0)
    (hsecond : ¬EndsAt returns routers r' c 1) :
    ∃ x e, (network T returns routers).Execution x e ∧ AnnouncedOnce h c e ∧
      ¬{k | announcementsSent T returns (x k) (e k) ≠ []}.Finite := by
  have hannounce : (network T returns routers).step ⟨routers, [], []⟩ (.announce h c) _ := rfl
  have hcirculates : Circulates returns c (T.attach h).1 r'
      ⟨routers, [T.fromHost h (octets .ANNOUNCEMENT c 0)], [(h, c)]⟩ :=
    .first (List.mem_singleton.mpr rfl) hfirst hsecond
  obtain ⟨x, e, hrun, h0, hQ⟩ := exists_execution (fun s => circulates_step hlink) rfl
    hannounce hcirculates
  refine ⟨x, e, hrun, ⟨0, fun j y d => ?_⟩, fun hfinite => ?_⟩
  · cases j with
    | zero =>
      rw [h0, Event.announce.injEq]
      exact ⟨fun he => ⟨rfl, he.1.symm, he.2.symm⟩, fun he => ⟨he.2.1.symm, he.2.2.symm⟩⟩
    | succ j => exact ⟨fun he => absurd he ((hQ j).2 y d), fun he => absurd he.1 (by simp)⟩
  · refine Set.infinite_of_injective_forall_mem Nat.succ_injective (fun k => ?_) hfinite
    exact (hQ k).1

/-! ## One of the two ends -/

/-- The runs in which only `h` announces, and only `c`. -/
def onlyAnnouncer (T : Topology R H) (returns : R → Bool) (routers : R → Router) (h : H)
    (c : UInt8) : Lts (State R H) (Event R H) :=
  (network T returns routers).guard fun _ e => ∀ y d, e = .announce y d → y = h ∧ d = c

/-- The packet is an announcement on its way to a router. -/
def ToRouter (x : Envelope R H) : Bool :=
  match x.dest with
  | .node _ _ => decide (PacketTypes.ofOctet x.packet.packetType = some .ANNOUNCEMENT)
  | .leaf _ => false

omit [DecidableEq R] in
theorem toRouter_iff {x : Envelope R H} :
    ToRouter x = true ↔ IsAnnouncement x ∧ ∃ r i, x.dest = .node r i := by
  unfold ToRouter IsAnnouncement
  cases x.dest with
  | node r i => simp
  | leaf h => simp

/-- Whatever router the router of `h` is linked to, it or that one ends at its
first announcement of `c`. -/
def OneEnds (T : Topology R H) (returns : R → Bool) (routers : R → Router) (h : H) (c : UInt8) :
    Prop :=
  ∀ i r' i', T.far (T.attach h).1 i = some (.node r' i') →
    EndsAt returns routers (T.attach h).1 c 0 ∨ EndsAt returns routers r' c 1

/-- Announcements of `c` are on their way to the router of `h`, with no hop
yet, or with one hop to routers that end at them; a router that ends has its
table from the start. -/
structure Contained (T : Topology R H) (returns : R → Bool) (routers : R → Router) (h : H)
    (c : UInt8) (s : State R H) : Prop where
  flight : ∀ x ∈ s.inFlight, IsAnnouncement x → ∀ r i, x.dest = .node r i →
    (r = (T.attach h).1 ∧ x.packet = octets .ANNOUNCEMENT c (UInt8.ofNat 0)) ∨
      (r ≠ (T.attach h).1 ∧ x.packet = octets .ANNOUNCEMENT c (UInt8.ofNat 1) ∧
        EndsAt returns routers r c 1)
  tables : ∀ r, (r = (T.attach h).1 → EndsAt returns routers r c 0) →
    (s.routers r).p_RoutingTable = (routers r).p_RoutingTable

section Contained

variable {routers : R → Router} {h : H} {c : UInt8}

omit [DecidableEq R] in
/-- A router that is to end at a packet handles none like it. -/
theorem Contained.ends (hi : Contained T returns routers h c s) {r : R} {n : ℕ} {i : Int}
    (htable : r = (T.attach h).1 → EndsAt returns routers r c 0)
    (hends : EndsAt returns routers r c (UInt8.ofNat n).toNat) :
    (s.routers r).p_RoutingTable.handleAnnouncement (returns r)
      (octets .ANNOUNCEMENT c (UInt8.ofNat n)).ContentID
      (octets .ANNOUNCEMENT c (UInt8.ofNat n)).hostOrHops i = none := by
  rw [hi.tables r htable]
  exact RoutingTable.handleAnnouncement_eq_none.mpr hends

omit [DecidableEq R] in
/-- The router of an announcement that is handled is that of `h`, which does
not end. -/
theorem Contained.handled (hi : Contained T returns routers h c s) {k : ℕ} {r : R} {i : Int}
    {packet : HeaderOctets} (hk : s.inFlight[k]? = some ⟨.node r i, packet⟩)
    (ht : PacketTypes.ofOctet packet.packetType = some .ANNOUNCEMENT)
    (hrt : (s.routers r).p_RoutingTable.handleAnnouncement (returns r) packet.ContentID
      packet.hostOrHops i ≠ none) :
    r = (T.attach h).1 ∧ packet = octets .ANNOUNCEMENT c (UInt8.ofNat 0) ∧
      ¬EndsAt returns routers (T.attach h).1 c 0 := by
  rcases hi.flight _ (List.mem_of_getElem? hk) ht r i rfl with ⟨rfl, hpacket⟩ | ⟨hr, hpacket, hends⟩
  · obtain rfl : packet = octets .ANNOUNCEMENT c (UInt8.ofNat 0) := hpacket
    exact ⟨rfl, rfl, fun hends => hrt (hi.ends (n := 0) (fun _ => hends) hends)⟩
  · obtain rfl : packet = octets .ANNOUNCEMENT c (UInt8.ofNat 1) := hpacket
    exact absurd (hi.ends (n := 1) (fun he => absurd he hr) hends) hrt

/-- Every event keeps the announcements contained. -/
theorem step_contained (hone : OneEnds T returns routers h c)
    (hi : Contained T returns routers h c s)
    (hok : ∀ y d, e = .announce y d → y = h ∧ d = c)
    (hstep : networkStep T returns s e = some s') : Contained T returns routers h c s' := by
  constructor
  · intro x hx ha r i hdest
    rcases step_isAnnouncement hstep hx ha with hx | ⟨y, d, rfl, rfl⟩ |
      ⟨k, q, j, packet, j', rfl, hk, ht, hrt, hpacket, hfar⟩
    · exact hi.flight x hx ha r i hdest
    · obtain ⟨rfl, rfl⟩ := hok y d rfl
      cases hdest
      exact Or.inl ⟨rfl, rfl⟩
    · -- sent by the router of `h`, so the other one ends
      obtain ⟨rfl, rfl, hfirst⟩ := hi.handled hk ht hrt
      rw [hdest] at hfar
      have hends : EndsAt returns routers r c 1 := (hone j' r i hfar).resolve_left hfirst
      refine Or.inr ⟨fun he => hfirst ?_, ?_, hends⟩
      · exact he ▸ hends.mono (by decide)
      · rw [hpacket, nextHop_octets]
  · intro r hr
    rcases step_routing (networkStep_cases hstep) r with hsame | ⟨k, i, packet, rfl, hk, ht, hrt⟩
    · rw [hsame]
      exact hi.tables r hr
    · obtain ⟨rfl, -, hfirst⟩ :=
        hi.handled hk ht (Option.ne_none_iff_exists'.mpr ⟨_, hrt⟩)
      exact absurd (hr rfl) hfirst

theorem reachable_contained (hone : OneEnds T returns routers h c)
    (hs : (onlyAnnouncer T returns routers h c).Reachable s) :
    Contained T returns routers h c s := by
  refine hs.invariant (I := Contained T returns routers h c) ?_ ?_
  · intro s hs
    rw [hs]
    exact ⟨fun x hx => absurd hx List.not_mem_nil, fun r _ => rfl⟩
  · intro s e s' hi hstep
    exact step_contained hone hi hstep.1 hstep.2

end Contained

/-! ## The announcements count down -/

/-- What an announcement on its way to a router may cost yet, where a router
has `n` interfaces. -/
def weight (n : ℕ) (x : Envelope R H) : ℕ :=
  if ToRouter x then if x.packet.hostIDOrHops = UInt8.ofNat 0 then n + 1 else 1 else 0

omit [DecidableEq R] in
theorem weight_first (n : ℕ) (r : R) (i : Int) (c : UInt8) :
    weight n (⟨.node r i, octets .ANNOUNCEMENT c (UInt8.ofNat 0)⟩ : Envelope R H) = n + 1 :=
  rfl

omit [DecidableEq R] in
theorem weight_pos (n : ℕ) {x : Envelope R H} (hto : ToRouter x = true) : 0 < weight n x := by
  unfold weight
  rw [if_pos hto]
  split <;> omega

def load (n : ℕ) (l : List (Envelope R H)) : ℕ := (l.map (weight n)).sum

omit [DecidableEq R] in
theorem load_append (n : ℕ) (l l' : List (Envelope R H)) :
    load n (l ++ l') = load n l + load n l' := by
  unfold load
  rw [List.map_append, List.sum_append]

omit [DecidableEq R] in
theorem load_of_split {n : ℕ} {l before after : List (Envelope R H)} {x : Envelope R H}
    (h : l = before ++ x :: after) : load n l = load n (before ++ after) + weight n x := by
  rw [h, load_append, load_append]
  unfold load
  rw [List.map_cons, List.sum_cons]
  omega

omit [DecidableEq R] in
/-- Packets of which none is an announcement on its way to a router. -/
theorem load_eq_zero {n : ℕ} {l : List (Envelope R H)}
    (h : ∀ x ∈ l, IsAnnouncement x → ∀ r i, x.dest ≠ .node r i) : load n l = 0 := by
  refine List.sum_eq_zero fun w hw => ?_
  obtain ⟨x, hx, rfl⟩ := List.mem_map.mp hw
  refine if_neg fun hto => ?_
  obtain ⟨ha, r, i, hdest⟩ := toRouter_iff.mp hto
  exact h x hx ha r i hdest

omit [DecidableEq R] in
/-- Packets with one hop weigh one each at most. -/
theorem load_le_length {n : ℕ} {l : List (Envelope R H)}
    (h : ∀ x ∈ l, x.packet.hostIDOrHops ≠ UInt8.ofNat 0) : load n l ≤ l.length := by
  have hle := List.sum_le_card_nsmul (l.map (weight n)) 1 fun w hw => by
    obtain ⟨x, hx, rfl⟩ := List.mem_map.mp hw
    unfold weight
    rw [if_neg (h x hx)]
    split <;> omega
  rw [List.length_map, smul_eq_mul, mul_one] at hle
  exact hle

omit [DecidableEq R] in
theorem length_send_le (r : R) (sent : List Sent) : (T.send r sent).length ≤ sent.length :=
  List.length_filterMap_le ..

section Countdown

variable {routers : R → Router} {h : H} {c : UInt8}

/-- A router gets an announcement: less is on its way. -/
theorem load_descends (hi : Contained T returns routers h c s)
    (hstep : NetworkStep T returns s e s') (hd : HandlesAnnouncement s e) :
    load (T.num_interfaces (T.attach h).1) s'.inFlight
      < load (T.num_interfaces (T.attach h).1) s.inFlight := by
  obtain ⟨k, r, i, packet, rfl, hk, ht⟩ := hd
  have hto : ToRouter (⟨.node r i, packet⟩ : Envelope R H) = true :=
    toRouter_iff.mpr ⟨ht, r, i, rfl⟩
  generalize he : (Event.deliver k : Event R H) = e at hstep
  cases hstep with
  | announce => cases he
  | request => cases he
  | hostReceive => cases he
  | expire => cases he
  | handle hsplit hh =>
    obtain rfl := Event.deliver.inj he
    have hk' := Topology.getElem?_of_split hsplit
    rw [hk'] at hk
    cases hk
    obtain ⟨hrt, -, rfl⟩ := announcement_handled ht hh
    obtain ⟨rfl, rfl, -⟩ := hi.handled hk' ht (Option.ne_none_iff_exists'.mpr ⟨_, hrt⟩)
    -- one without hops is gone, and at most one with a hop is there for each interface
    have hle : load (T.num_interfaces (T.attach h).1) (T.send (T.attach h).1
        ((List.range (T.num_interfaces (T.attach h).1)).map fun index : Nat =>
          ((index : Int), (octets .ANNOUNCEMENT c (UInt8.ofNat 0)).nextHop)))
        ≤ T.num_interfaces (T.attach h).1 := by
      refine (load_le_length fun x hx => ?_).trans ((length_send_le ..).trans ?_)
      · rw [(mem_send_announcement.mp hx).1, nextHop_octets]
        show UInt8.ofNat 1 ≠ UInt8.ofNat 0
        decide
      · rw [List.length_map, List.length_range]
    rw [load_of_split hsplit, load_append, weight_first]
    exact Nat.add_lt_add_left (Nat.lt_succ_of_le hle) _
  | ends hsplit hh =>
    obtain rfl := Event.deliver.inj he
    rw [Topology.getElem?_of_split hsplit] at hk
    cases hk
    rw [load_of_split hsplit]
    exact Nat.lt_add_of_pos_right (weight_pos _ hto)

omit [DecidableEq R] in
/-- If no announcement is handled, the packet that is delivered weighs nothing. -/
theorem weight_of_not_handled {n : ℕ} {before after : List (Envelope R H)} {x : Envelope R H}
    (hsplit : s.inFlight = before ++ x :: after)
    (hd : ¬HandlesAnnouncement s (.deliver before.length)) : weight n x = 0 := by
  refine if_neg fun hto => hd ?_
  obtain ⟨hann, r, i, hx⟩ := toRouter_iff.mp hto
  have hk := Topology.getElem?_of_split hsplit
  obtain ⟨dest, packet⟩ := x
  obtain rfl : dest = .node r i := hx
  exact ⟨_, r, i, packet, rfl, hk, hann⟩

/-- Any other event leaves as much on its way, unless a host announces. -/
theorem load_stays (n : ℕ) (hstep : NetworkStep T returns s e s') (hd : ¬HandlesAnnouncement s e)
    (ha : ¬∃ y c, e = .announce y c) : load n s'.inFlight = load n s.inFlight := by
  cases hstep with
  | announce y c => exact absurd ⟨y, c, rfl⟩ ha
  | request y c =>
    have hreq : load n [T.fromHost y (octets .REQUEST c (T.hostID y))] = 0 := by
      refine load_eq_zero fun x hx hann => ?_
      obtain rfl := List.mem_singleton.mp hx
      exact absurd hann (octets_type_ne (by decide))
    show load n (s.inFlight ++ _) = _
    rw [load_append, hreq, Nat.add_zero]
  | @handle before after r i packet t sent hsplit hh =>
    have hzero := weight_of_not_handled (n := n) hsplit hd
    have ht : PacketTypes.ofOctet packet.packetType ≠ some .ANNOUNCEMENT := fun ht =>
      hd ⟨_, r, i, packet, rfl, Topology.getElem?_of_split hsplit, ht⟩
    have hsent : load n (T.send r sent) = 0 := by
      refine load_eq_zero fun x hx hann => ?_
      obtain ⟨j, hmem, -⟩ := Topology.mem_send hx
      have hpacket : x.packet = packet := (handlePacket_other ht hh).2 _ hmem
      rw [IsAnnouncement, hpacket] at hann
      exact absurd hann ht
    show load n (before ++ after ++ T.send r sent) = load n s.inFlight
    rw [load_of_split hsplit, hzero, load_append, hsent]
  | ends hsplit hh =>
    show load n (_ ++ _) = load n s.inFlight
    rw [load_of_split hsplit, weight_of_not_handled hsplit hd, Nat.add_zero]
  | @hostReceive before after y packet hasFile hsplit =>
    have hreply : load n (hostReply T y hasFile packet) = 0 := by
      refine load_eq_zero fun x hx hann => ?_
      exact absurd hann (not_isAnnouncement_hostReply hx)
    have hzero : weight n (⟨.leaf y, packet⟩ : Envelope R H) = 0 := rfl
    show load n (before ++ after ++ hostReply T y hasFile packet) = load n s.inFlight
    rw [load_of_split hsplit, hzero, load_append, hreply]
  | expire => rfl

/-- Where one of the two ends at every link, the flood ends. -/
theorem flood_ends_of_oneEnds (hone : OneEnds T returns routers h c) :
    FloodEnds T returns routers h c := by
  intro x e hrun honce
  obtain ⟨k₀, hk₀⟩ := honce
  have hguarded : (onlyAnnouncer T returns routers h c).Execution x e := by
    refine ⟨hrun.init, fun k => ⟨fun y d he => ?_, hrun.step k⟩⟩
    exact ((hk₀ k y d).mp he).2
  have hfinite : {k | ∃ y d, e k = .announce y d}.Finite := by
    refine (Set.finite_singleton k₀).subset fun k hk => ?_
    obtain ⟨y, d, he⟩ := hk
    exact ((hk₀ k y d).mp he).1
  have hhandles : {k | HandlesAnnouncement (x k) (e k)}.Finite := by
    refine hguarded.finite_of_wellFounded Nat.lt_wfRel.wf
      (fun s => load (T.num_interfaces (T.attach h).1) s.inFlight)
      HandlesAnnouncement (fun _ e => ∃ y d, e = .announce y d) ?_ ?_ hfinite
    · intro s e s' hs hstep hd
      exact load_descends (reachable_contained hone hs) (networkStep_cases hstep.2) hd
    · intro s e s' _ hstep hd ha
      exact load_stays _ (networkStep_cases hstep.2) hd ha
  exact (hhandles.union hfinite).subset fun k hk => handles_of_sent hk

end Countdown

/-- **The announcements of a host come to an end in every order of deliveries
iff for each router that its router is linked to, one of the two ends at its
first announcement**, because it knows a longer way to the content and
`pthread_cancel` does not return. -/
theorem floodEnds_iff (T : Topology R H) (returns : R → Bool) (routers : R → Router) (h : H)
    (c : UInt8) :
    FloodEnds T returns routers h c ↔
      ∀ i r' i', T.far (T.attach h).1 i = some (.node r' i') →
        EndsAt returns routers (T.attach h).1 c 0 ∨ EndsAt returns routers r' c 1 := by
  constructor
  · intro hends i r' i' hlink
    by_contra hneither
    push Not at hneither
    obtain ⟨x, e, hrun, honce, hinfinite⟩ :=
      exists_endless_flood routers h c hlink hneither.1 hneither.2
    exact hinfinite (hends x e hrun honce)
  · exact flood_ends_of_oneEnds

/-- On the ring of four routers with empty tables, the announcement of content
7 is sent for ever; no router ends. -/
theorem ring_flood_endless :
    ¬FloodEnds ring (fun _ => false) (fun _ => Router.empty) () 7 := by
  intro hends
  have hlink : ring.far (ring.attach ()).1 0 = some (.node (true, true) 1) := rfl
  have hempty : ∀ r n, ¬EndsAt (fun _ : Bool × Bool => false) (fun _ => Router.empty) r 7 n :=
    fun r n hends => Bool.false_ne_true hends.2
  obtain ⟨x, e, hrun, honce, hinfinite⟩ :=
    exists_endless_flood _ () 7 hlink (hempty _ _) (hempty _ _)
  exact hinfinite (hends x e hrun honce)

end ContentNetwork.Ambitious
