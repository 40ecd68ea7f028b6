import ContentNetwork.Ambitious.BestRoute
import ContentNetwork.SimpleRouter.Threads

/-!
# The stored route and the stored distance

When a known content is announced again, `case ANNOUNCEMENT` of
`simple_router` takes over a smaller hop count and leaves the interface of the
record alone, which is stored only when the record is new. After any sequence
of announcements from an empty table a record therefore has the least hop
count announced and the interface of the *first* announcement
(`handleAll_route`). The other two routers update both fields together.

`routesOfOne_iff` says when the two belong to one announcement all the same.
-/

namespace ContentNetwork.SimpleRouter

open Lib Lib.Minimum
open Simplified (RTrecord PRTrecord Tables Message Sent broadcast octets messagesFor)
open Ambitious (announcedHops announcedRoute routeFor handleAll_routes)

/-- Packets handled one after the other, and everything that is sent. -/
def handleAll (n : Nat) (uninitialized : PRTrecord) :
    Tables → List Message → Option (Tables × List Sent) :=
  Lts.handleAll (handlePacket n uninitialized)

/-- A sequence of packets from configured interfaces is a run of the receive
threads, one turn after the other. -/
theorem leads_handleAll {n : Nat} {uninitialized : PRTrecord} {t : Tables} {ms : List Message}
    {sent : List Sent} {s : RouterState n} (hs : ∀ i, s.threads i = ⟨.receive, ⟨[], []⟩⟩)
    (hms : ∀ m ∈ ms, 0 ≤ m._RxInterface_Num ∧ m._RxInterface_Num < n)
    (h : handleAll n uninitialized s.shared ms = some (t, sent)) :
    (router n).Leads s ⟨t, s.threads⟩ := by
  induction ms generalizing s sent with
  | nil =>
    obtain ⟨rfl, -⟩ := Prod.mk.inj (Option.some.inj h)
    exact .refl
  | cons m ms ih =>
    obtain ⟨u, s₁, s₂, hm, hrest, -⟩ := Lts.handleAll_cons_eq_some h
    obtain ⟨h0, h1⟩ := hms m (List.mem_cons_self ..)
    -- the thread of the arrival interface
    have hlt : m._RxInterface_Num.toNat < n := by omega
    have hmsg : m = ⟨m._recvPacket, ((⟨_, hlt⟩ : Fin n) : Nat)⟩ :=
      congrArg (Message.mk m._recvPacket) (Int.toNat_of_nonneg h0).symm
    rw [hmsg] at hm
    have hturn := leads_handlePacket (hs ⟨_, hlt⟩) hm
    exact hturn.trans (ih (s := ⟨u, s.threads⟩) hs
      (fun x hx => hms x (List.mem_cons_of_mem _ hx)) hrest)

/-! ## One announcement -/

section Announcement

variable {n : Nat} {uninitialized : PRTrecord} {t : Tables} {m : Message}

/-- The routing table after an announcement. -/
def announced (t : Tables) (m : Message) : List RTrecord :=
  commitAnnouncement (Keyed.lookup RTrecord.cID m._recvPacket.ContentID t.RoutingTable).isSome
    (announcedRecord t m) t.RoutingTable

theorem handlePacket_announcement
    (ht : PacketTypes.ofOctet m._recvPacket.packetType = some .ANNOUNCEMENT) :
    handlePacket n uninitialized t m
      = some ({ t with RoutingTable := announced t m },
          broadcast n m._RxInterface_Num m._recvPacket.nextHop) := by
  rw [handlePacket, dispatch, ht]
  rfl

theorem announced_unique (hu : Keyed.Unique RTrecord.cID t.RoutingTable) :
    Keyed.Unique RTrecord.cID (announced t m) := by
  refine (commitAnnouncement_unique_iff hu).mpr fun hnew => ?_
  rw [announcedRecord_cID]
  exact Keyed.lookup_eq_none.mpr (Keyed.lookup_isSome_eq_false.mp hnew)

/-- After an announcement its content has the record of the announcement. -/
theorem lookup_announced (c : Int) :
    Keyed.lookup RTrecord.cID c (announced t m) =
      if m._recvPacket.ContentID = c then some (announcedRecord t m)
      else Keyed.lookup RTrecord.cID c t.RoutingTable := by
  have hcID : (announcedRecord t m).cID = m._recvPacket.ContentID := announcedRecord_cID
  unfold announced commitAnnouncement
  cases hfound : Keyed.lookup RTrecord.cID m._recvPacket.ContentID t.RoutingTable with
  | none =>
    have hnew := Keyed.lookup_eq_none.mp hfound
    rw [Option.isSome_none, if_neg Bool.false_ne_true]
    by_cases hc : m._recvPacket.ContentID = c
    · rw [if_pos hc, ← hc, ← hcID]
      rw [← hcID] at hnew
      exact Keyed.lookup_push_self hnew
    · rw [if_neg hc]
      exact Keyed.lookup_push_ne (hcID.trans_ne hc)
  | some r =>
    have hkey : ∀ x : RTrecord, RTrecord.cID { x with
        num_hops := (announcedRecord t m).num_hops
        ttl_rt := (announcedRecord t m).ttl_rt } = x.cID := fun _ => rfl
    rw [Option.isSome_some, if_pos rfl, Keyed.lookup_refresh hkey, hcID]
    by_cases hc : m._recvPacket.ContentID = c
    · -- the scratch record is a copy of the record that is updated
      subst hc
      rw [if_pos rfl, hfound, Option.map_some, if_pos rfl, announcedRecord, hfound]
      rfl
    · rw [if_neg hc]
      cases Keyed.lookup RTrecord.cID c t.RoutingTable with
      | none => rfl
      | some x => exact congrArg some (if_neg (Ne.symm hc))

/-- What `simple_router` makes of a known route: it gets the smaller hop count
and keeps its interface. -/
def refreshedRoute (known : Option (Int × Int)) (m : Message) : Option (Int × Int) :=
  match known with
  | some known => some (if announcedHops m < known.1 then announcedHops m else known.1, known.2)
  | none => some (announcedRoute m)

theorem routeFor_announced (c : Int) :
    routeFor c { t with RoutingTable := announced t m } =
      if m._recvPacket.ContentID = c then refreshedRoute (routeFor c t) m else routeFor c t := by
  unfold routeFor
  dsimp only
  rw [lookup_announced]
  by_cases hc : m._recvPacket.ContentID = c
  · subst hc
    rw [if_pos rfl, if_pos rfl, announcedRecord]
    cases Keyed.lookup RTrecord.cID m._recvPacket.ContentID t.RoutingTable with
    | none => rfl
    | some r => rfl
  · rw [if_neg hc, if_neg hc]

end Announcement

/-! ## A sequence of announcements -/

/-- The least hop count of some announcements, with the interface of the first
one. -/
def storedRoute (anns : List Message) : Option (Int × Int) :=
  (firstArgmin announcedHops anns).bind fun best =>
    anns.head?.map fun first => (announcedHops best, first._RxInterface_Num)

theorem storedRoute_concat (anns : List Message) (m : Message) :
    storedRoute (anns ++ [m]) = refreshedRoute (storedRoute anns) m := by
  unfold storedRoute
  rw [firstArgmin_concat]
  cases hbest : firstArgmin announcedHops anns with
  | none =>
    rw [firstArgmin_eq_none.mp hbest]
    rfl
  | some best =>
    -- there has been an announcement, so `m` is not the first
    obtain ⟨first, rest, hcons⟩ := List.exists_cons_of_ne_nil
      (List.ne_nil_of_mem (isFirst_of_firstArgmin hbest).mem)
    rw [hcons]
    dsimp only
    by_cases hlt : announcedHops m < announcedHops best
    · rw [if_pos hlt, Option.bind_some, Option.bind_some]
      exact congrArg (fun h => some (h, first._RxInterface_Num)) (if_pos hlt).symm
    · rw [if_neg hlt, Option.bind_some, Option.bind_some]
      exact congrArg (fun h => some (h, first._RxInterface_Num)) (if_neg hlt).symm

/-- **After any announcements from an empty routing table, each content has
one record, with the least hop count announced and the interface of the first
announcement.** -/
theorem handleAll_route {n : Nat} {uninitialized : PRTrecord} {t₀ : Tables}
    (ht₀ : t₀.RoutingTable = []) {anns : List Message}
    (hanns : ∀ m ∈ anns, PacketTypes.ofOctet m._recvPacket.packetType = some .ANNOUNCEMENT) :
    ∃ t sent, handleAll n uninitialized t₀ anns = some (t, sent) ∧
      Keyed.Unique RTrecord.cID t.RoutingTable ∧
      ∀ c, routeFor c t = storedRoute (messagesFor c anns) := by
  refine @handleAll_routes _ refreshedRoute storedRoute rfl storedRoute_concat _ ht₀ _
    fun m hm t hu => ?_
  exact ⟨_, _, handlePacket_announcement (hanns m hm), announced_unique hu, routeFor_announced⟩

/-- Hop count and interface of a record are those of one announcement of its
content, and no announcement of it had fewer hops. -/
def RouteOfOne (anns : List Message) (r : RTrecord) : Prop :=
  (∃ m ∈ messagesFor r.cID anns, announcedRoute m = r.route) ∧
    ∀ m ∈ messagesFor r.cID anns, r.num_hops ≤ announcedHops m

/-- Some announcement of content `c` with the least hop count came in where
the first announcement of `c` did. -/
def BestWhereFirst (anns : List Message) (c : Int) : Prop :=
  ∀ first ∈ (messagesFor c anns).head?, ∃ m ∈ messagesFor c anns,
    m._RxInterface_Num = first._RxInterface_Num ∧
      ∀ x ∈ messagesFor c anns, announcedHops m ≤ announcedHops x

/-- A record with the least hop count and the first interface belongs to one
announcement iff the best one came in where the first did. -/
theorem routeOfOne_iff {anns : List Message} {r : RTrecord}
    (hr : storedRoute (messagesFor r.cID anns) = some r.route) :
    RouteOfOne anns r ↔ BestWhereFirst anns r.cID := by
  obtain ⟨best, hbest, hmap⟩ := Option.bind_eq_some_iff.mp hr
  obtain ⟨first, hfirst, hroute⟩ := Option.map_eq_some_iff.mp hmap
  obtain ⟨hhops, hinterface⟩ := Prod.mk.inj hroute
  have hleast := isFirst_of_firstArgmin hbest
  constructor
  · intro hone first' hfirst'
    obtain rfl := Option.some.inj (hfirst.symm.trans hfirst')
    obtain ⟨⟨m, hm, hmroute⟩, hle⟩ := hone
    obtain ⟨hmhops, hminterface⟩ := Prod.mk.inj hmroute
    refine ⟨m, hm, hminterface.trans hinterface.symm, fun x hx => ?_⟩
    calc announcedHops m = r.num_hops := hmhops
      _ ≤ announcedHops x := hle x hx
  · intro hbwf
    obtain ⟨m, hm, hminterface, hle⟩ := hbwf first hfirst
    have hmhops : announcedHops m = r.num_hops :=
      (le_antisymm (hle best hleast.mem) (hleast.le m hm)).trans hhops
    refine ⟨⟨m, hm, Prod.ext hmhops (hminterface.trans hinterface)⟩, fun x hx => ?_⟩
    calc r.num_hops = announcedHops m := hmhops.symm
      _ ≤ announcedHops x := hle x hx

/-- **Every stored route belongs to one announcement iff, for every content,
a best announcement came in through the interface of the first one.** -/
theorem routesOfOne_iff (n : Nat) (uninitialized : PRTrecord) {t₀ : Tables}
    (ht₀ : t₀.RoutingTable = []) {anns : List Message}
    (hanns : ∀ m ∈ anns, PacketTypes.ofOctet m._recvPacket.packetType = some .ANNOUNCEMENT) :
    ∃ t sent, handleAll n uninitialized t₀ anns = some (t, sent) ∧
      ((∀ r ∈ t.RoutingTable, RouteOfOne anns r) ↔ ∀ c, BestWhereFirst anns c) := by
  obtain ⟨t, sent, hall, hu, hroute⟩ := @handleAll_route n uninitialized _ ht₀ _ hanns
  refine ⟨t, sent, hall, ?_⟩
  have hstored : ∀ r ∈ t.RoutingTable, storedRoute (messagesFor r.cID anns) = some r.route := by
    intro r hr
    rw [← hroute, routeFor, Keyed.lookup_of_mem hu hr, Option.map_some]
  constructor
  · intro hone c first hfirst
    -- a content that was announced has a record
    have hmem : first ∈ messagesFor c anns := List.mem_of_mem_head? hfirst
    obtain ⟨best, hbest⟩ := Option.ne_none_iff_exists'.mp
      (mt (firstArgmin_eq_none (f := announcedHops)).mp (List.ne_nil_of_mem hmem))
    have hfound : routeFor c t = some (announcedHops best, first._RxInterface_Num) := by
      rw [hroute, storedRoute, hbest, Option.mem_def.mp hfirst]
      rfl
    obtain ⟨r, hr, -⟩ := Option.map_eq_some_iff.mp hfound
    obtain rfl := Keyed.lookup_key hr
    have hrmem := Keyed.lookup_mem hr
    exact (routeOfOne_iff (hstored r hrmem)).mp (hone r hrmem) first hfirst
  · intro hbest r hr
    exact (routeOfOne_iff (hstored r hr)).mpr (hbest r.cID)

/-- Content 7 comes five hops away through interface 0, then one hop away
through interface 1: the record has one hop, through interface 0. -/
def shorterElsewhere : List Message :=
  [⟨octets .ANNOUNCEMENT 7 5, 0⟩, ⟨octets .ANNOUNCEMENT 7 1, 1⟩]

theorem shorter_elsewhere :
    ∃ t sent, handleAll 2 ⟨0, 0, 0, 0⟩ ⟨[], []⟩ shorterElsewhere = some (t, sent) ∧
      t.RoutingTable = [⟨7, 0, 1, 30⟩] ∧ ¬∀ r ∈ t.RoutingTable, RouteOfOne shorterElsewhere r := by
  refine ⟨_, _, rfl, rfl, fun hone => ?_⟩
  obtain ⟨⟨m, hm, hroute⟩, -⟩ := hone ⟨7, 0, 1, 30⟩ (List.mem_singleton_self _)
  have hnone : ∀ m ∈ messagesFor 7 shorterElsewhere, announcedRoute m ≠ (1, 0) := by decide
  exact hnone m hm hroute

/-- The same two announcements through interface 0. -/
def shorterThere : List Message :=
  [⟨octets .ANNOUNCEMENT 7 5, 0⟩, ⟨octets .ANNOUNCEMENT 7 1, 0⟩]

theorem shorter_there :
    ∃ t sent, handleAll 2 ⟨0, 0, 0, 0⟩ ⟨[], []⟩ shorterThere = some (t, sent) ∧
      ∀ r ∈ t.RoutingTable, RouteOfOne shorterThere r := by
  obtain ⟨t, sent, hall, hiff⟩ := @routesOfOne_iff 2 ⟨0, 0, 0, 0⟩ ⟨[], []⟩ rfl shorterThere
    (by decide)
  refine ⟨t, sent, hall, hiff.mpr fun c first hfirst => ?_⟩
  have hc : first._recvPacket.ContentID = c := by
    simpa using (List.mem_filter.mp (List.mem_of_mem_head? hfirst)).2
  have hin : ∀ m ∈ shorterThere, m._RxInterface_Num = 0 ∧ m._recvPacket.ContentID = 7 ∧
      announcedHops ⟨octets .ANNOUNCEMENT 7 1, 0⟩ ≤ announcedHops m := by decide
  obtain ⟨h0, h7, -⟩ := hin first (List.mem_filter.mp (List.mem_of_mem_head? hfirst)).1
  refine ⟨⟨octets .ANNOUNCEMENT 7 1, 0⟩, ?_, h0.symm, fun x hx => ?_⟩
  · rw [← hc, h7]
    decide
  · exact (hin x (List.mem_filter.mp hx).1).2.2

end ContentNetwork.SimpleRouter
