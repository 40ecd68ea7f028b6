import ContentNetwork.Lib.Minimum
import ContentNetwork.Simplified.Sequence
import ContentNetwork.Ambitious.Router

/-!
# Best routes, in both routers

Announcement handling selects the best route per content. The two routers do
it differently: the simplified one copies the record it finds, changes the
copy, erases the record and pushes the copy to the back, and adopts a hop
count that is *no larger* than the known one; the concurrent one changes the
record in place, and only for a *smaller* hop count.

So from an empty routing table, and while nothing expires, the first keeps the
last of the best announcements of each content and the second the first of
them (`handleAll_route`, `announceAll_route`). `bestRoutes` compares the two:
they agree on the hop counts, and on the interfaces unless the minimum is
announced twice.

But a concurrent router that changes a record also calls
`RoutingTable.stopTimer`, and its process ends there unless `pthread_cancel`
returns. So it comes to hold the best routes iff that call returns or the first
announcement of each content is one of its best already (`bestRoutes_iff`).
-/

namespace ContentNetwork.Ambitious

open Lib Lib.Minimum Simplified

/-- The hop count an announcement carries. -/
def announcedHops (m : Message) : Int := m._recvPacket.hostOrHops

/-- The route it offers: hop count and arrival interface. -/
def announcedRoute (m : Message) : Int × Int := (m._recvPacket.hostOrHops, m._RxInterface_Num)

/-! ## The simplified router -/

/-- Hop count and interface that the simplified router has for content `c`. -/
def routeFor (c : Int) (t : Tables) : Option (Int × Int) :=
  (Keyed.lookup RTrecord.cID c t.RoutingTable).map RTrecord.route

/-- Announcements handled one after the other. If each takes the route of its
own content from the known one to `upd` and leaves the other routes alone, the
routes are computed content by content. -/
theorem handleAll_routes {handle : Tables → Message → Option (Tables × List Sent)}
    {upd : Option (Int × Int) → Message → Option (Int × Int)}
    {best : List Message → Option (Int × Int)} (hnil : best [] = none)
    (hbest : ∀ l m, best (l ++ [m]) = upd (best l) m)
    {t₀ : Tables} (ht₀ : t₀.RoutingTable = []) {anns : List Message}
    (hstep : ∀ m ∈ anns, ∀ t : Tables, Keyed.Unique RTrecord.cID t.RoutingTable →
      ∃ t' sent, handle t m = some (t', sent) ∧ Keyed.Unique RTrecord.cID t'.RoutingTable ∧
        ∀ c, routeFor c t'
          = if m._recvPacket.ContentID = c then upd (routeFor c t) m else routeFor c t) :
    ∃ t sent, Lts.handleAll handle t₀ anns = some (t, sent) ∧
      Keyed.Unique RTrecord.cID t.RoutingTable ∧
      ∀ c, routeFor c t = best (messagesFor c anns) := by
  induction anns using List.reverseRecOn with
  | nil =>
    refine ⟨t₀, [], rfl, ?_, fun c => ?_⟩
    · rw [ht₀]
      exact List.nodup_nil
    · rw [routeFor, ht₀]
      exact hnil.symm
  | append_singleton anns m ih =>
    obtain ⟨t, sent, hall, hu, hroute⟩ := ih fun x hx => hstep x (List.mem_append_left _ hx)
    obtain ⟨t', sent', hm, hu', hroute'⟩ := hstep m List.mem_concat_self t hu
    refine ⟨t', _, Lts.handleAll_snoc hall hm, hu', fun c => ?_⟩
    rw [hroute', hroute]
    by_cases hc : m._recvPacket.ContentID = c
    · rw [if_pos hc, messagesFor_concat_self hc, hbest]
    · rw [if_neg hc, messagesFor_concat_ne hc]

/-- What the simplified router makes of a known route: the offered one, unless
the known one is strictly shorter. -/
def adoptedRoute (known : Option (Int × Int)) (m : Message) : Option (Int × Int) :=
  match known with
  | some known => if known.1 < announcedHops m then some known else some (announcedRoute m)
  | none => some (announcedRoute m)

/-- One more announcement, handled. -/
theorem routeFor_announcement {n : Nat} {t t' : Tables} {m : Message} {sent : List Sent}
    (hu : Keyed.Unique RTrecord.cID t.RoutingTable)
    (ht : PacketTypes.ofOctet m._recvPacket.packetType = some .ANNOUNCEMENT)
    (h : Simplified.handlePacket n t m = some (t', sent)) (c : Int) :
    routeFor c t' = if m._recvPacket.ContentID = c then adoptedRoute (routeFor c t) m
      else routeFor c t := by
  obtain ⟨-, -, hself, hother⟩ := Simplified.handlePacket_announcement hu ht h
  by_cases hc : m._recvPacket.ContentID = c
  · subst hc
    rw [if_pos rfl, routeFor, hself, Option.map_some, routeFor]
    by_cases ha : Adopts t m
    · rw [(handlePacket_adopt ht h ha).1]
      cases hf : Keyed.lookup RTrecord.cID m._recvPacket.ContentID t.RoutingTable with
      | none => rfl
      | some r =>
        have hle : ¬r.num_hops < announcedHops m := Int.not_lt.mpr (ha r hf)
        exact (if_neg hle).symm
    · obtain ⟨r, hr, hlt⟩ := not_adopts ha
      rw [(handlePacket_ignore ht h hr hlt).1, hr]
      exact (if_pos hlt).symm
  · rw [if_neg hc, routeFor, hother c hc]
    rfl

/-- **The simplified router keeps the last best announcement.** -/
theorem handleAll_route {n : Nat} {t₀ : Tables} (ht₀ : t₀.RoutingTable = []) {anns : List Message}
    (hanns : ∀ m ∈ anns, PacketTypes.ofOctet m._recvPacket.packetType = some .ANNOUNCEMENT) :
    ∃ t sent, handleAll n t₀ anns = some (t, sent) ∧
      Keyed.Unique RTrecord.cID t.RoutingTable ∧
      ∀ c, routeFor c t
        = (lastArgmin announcedHops (messagesFor c anns)).map announcedRoute := by
  have hbest : ∀ l m, (lastArgmin announcedHops (l ++ [m])).map announcedRoute
      = adoptedRoute ((lastArgmin announcedHops l).map announcedRoute) m := by
    intro l m
    rw [lastArgmin_concat]
    cases lastArgmin announcedHops l with
    | none => rfl
    | some a =>
      exact apply_ite (Option.map announcedRoute) (announcedHops a < announcedHops m)
        (some a) (some m)
  simp only [handleAll_eq]
  refine @handleAll_routes _ adoptedRoute (fun l => (lastArgmin announcedHops l).map announcedRoute)
    rfl hbest _ ht₀ _ fun m hm t hu => ?_
  have htype := hanns m hm
  obtain ⟨t', sent, hh⟩ := @handlePacket_announcement_isSome n t m htype
  exact ⟨t', sent, hh, (Simplified.handlePacket_announcement hu htype hh).2.1,
    routeFor_announcement hu htype hh⟩

/-! ## The concurrent router -/

/-- `HandleAnnouncementPacket` on one announcement after the other; `none` when
the process has ended. -/
def announceAll (returns : Bool) (rt : RoutingTable) (anns : List Message) :
    Option RoutingTable :=
  anns.foldlM (fun rt m =>
    (HandleAnnouncementPacket returns rt m._recvPacket m._RxInterface_Num).map Prod.fst) rt

/-- One more announcement. -/
theorem announceAll_concat (returns : Bool) (rt : RoutingTable) (anns : List Message)
    (m : Message) :
    announceAll returns rt (anns ++ [m]) = (announceAll returns rt anns).bind fun rt =>
      rt.handleAnnouncement returns m._recvPacket.ContentID m._recvPacket.hostOrHops
        m._RxInterface_Num := by
  unfold announceAll
  rw [List.foldlM_append]
  refine congrArg (Option.bind _) (funext fun rt => ?_)
  rw [List.foldlM_cons, HandleAnnouncementPacket, Option.map_map]
  cases rt.handleAnnouncement returns m._recvPacket.ContentID m._recvPacket.hostOrHops
    m._RxInterface_Num with
  | none => rfl
  | some rt => rfl

def RoutingTableRecord.route (r : RoutingTableRecord) : Int × Int := (r.NumOfHops, r.PortInterface)

namespace RoutingTable

/-- Hop count and interface that the concurrent router has for content `c`. -/
def routeFor (c : Int) (rt : RoutingTable) : Option (Int × Int) :=
  (Keyed.lookup RoutingTableRecord.ContentID c rt.Table).map RoutingTableRecord.route

/-- A pushed record is the route for its content. -/
theorem routeFor_push {t : RoutingTable} {contentID : Int}
    (habsent : ∀ r ∈ t.Table, r.ContentID ≠ contentID) (hops interface c : Int) :
    routeFor c ⟨t.Table ++ [⟨contentID, hops, interface, true⟩]⟩
      = if contentID = c then some (hops, interface) else t.routeFor c := by
  unfold routeFor
  by_cases hc : contentID = c
  · subst hc
    have hpush : Keyed.lookup RoutingTableRecord.ContentID contentID
        (t.Table ++ [⟨contentID, hops, interface, true⟩])
        = some ⟨contentID, hops, interface, true⟩ :=
      @Keyed.lookup_push_self _ _ _ RoutingTableRecord.ContentID
        ⟨contentID, hops, interface, true⟩ _ habsent
    rw [if_pos rfl]
    exact congrArg (Option.map RoutingTableRecord.route) hpush
  · rw [if_neg hc, Keyed.lookup_push_ne hc]

/-- A record that both setters hit is the new route for its content. -/
theorem routeFor_adopt {t : RoutingTable} {i : Nat} {r : RoutingTableRecord}
    (hu : Keyed.Unique RoutingTableRecord.ContentID t.Table) (hr : t.Table[i]? = some r)
    (hops interface c : Int) :
    ((t.setNumOfHops i hops).setPortInterface i interface).routeFor c
      = if r.ContentID = c then some (hops, interface) else t.routeFor c := by
  have hhops : (t.setNumOfHops i hops).Table[i]? = some { r with NumOfHops := hops } :=
    Keyed.getElem?_modify_self _ hr
  have hport : ((t.setNumOfHops i hops).setPortInterface i interface).Table[i]?
      = some { r with NumOfHops := hops, PortInterface := interface } :=
    Keyed.getElem?_modify_self _ hhops
  unfold routeFor
  by_cases hc : r.ContentID = c
  · subst hc
    have hu' : Keyed.Unique RoutingTableRecord.ContentID
        ((t.setNumOfHops i hops).setPortInterface i interface).Table := by
      rw [Keyed.Unique, contents_setPortInterface, contents_setNumOfHops]
      exact hu
    have hfound := Keyed.lookup_of_mem hu' (List.mem_of_getElem? hport)
    rw [if_pos rfl]
    exact congrArg (Option.map RoutingTableRecord.route) hfound
  · rw [if_neg hc]
    -- neither setter touches what is looked up
    have hport' : Keyed.lookup RoutingTableRecord.ContentID c
        ((t.setNumOfHops i hops).setPortInterface i interface).Table
        = Keyed.lookup RoutingTableRecord.ContentID c (t.setNumOfHops i hops).Table := by
      refine Keyed.lookup_modify_of_key_ne ?_ hhops hc
      exact fun _ => rfl
    have hhops' : Keyed.lookup RoutingTableRecord.ContentID c (t.setNumOfHops i hops).Table
        = Keyed.lookup RoutingTableRecord.ContentID c t.Table := by
      refine Keyed.lookup_modify_of_key_ne ?_ hr hc
      exact fun _ => rfl
    rw [hport', hhops']

/-- One more announcement: the route for its content is the known one unless
the offered one is strictly shorter. -/
theorem routeFor_handleAnnouncement {returns : Bool} {t t' : RoutingTable} (hv : t.Valid)
    {contentID hops interface : Int}
    (h : t.handleAnnouncement returns contentID hops interface = some t') (c : Int) :
    t'.routeFor c
      = if contentID = c then
        (match t.routeFor c with
          | some known => if hops < known.1 then some (hops, interface) else some known
          | none => some (hops, interface))
        else t.routeFor c := by
  obtain ⟨habsent, rfl⟩ | ⟨i, r, hr, rfl, hcase⟩ := handleAnnouncement_cases hv h
  · rw [routeFor_push habsent]
    by_cases hc : contentID = c
    · subst hc
      rw [if_pos rfl, if_pos rfl, routeFor, Keyed.lookup_eq_none.mpr habsent]
      rfl
    · rw [if_neg hc, if_neg hc]
  · have hknown : t.routeFor r.ContentID = some r.route :=
      congrArg (Option.map RoutingTableRecord.route)
        (Keyed.lookup_of_mem hv.unique (List.mem_of_getElem? hr))
    rcases hcase with ⟨hlt, rfl⟩ | ⟨hle, rfl⟩
    · rw [routeFor_adopt hv.unique hr]
      by_cases hc : r.ContentID = c
      · rw [if_pos hc, if_pos hc, ← hc, hknown]
        exact (if_pos hlt).symm
      · rw [if_neg hc, if_neg hc]
    · by_cases hc : r.ContentID = c
      · rw [if_pos hc, ← hc, hknown]
        exact (if_neg (Int.not_lt.mpr hle)).symm
      · rw [if_neg hc]

/-- In a valid table, an announcement improves the route there is. -/
theorem improves_iff_routeFor {t : RoutingTable} (hv : t.Valid) (contentID hops : Int) :
    t.improves contentID hops = true ↔
      ∃ known, t.routeFor contentID = some known ∧ hops < known.1 := by
  rw [improves_iff]
  constructor
  · intro h
    obtain ⟨r, hr, -, hlt⟩ := h
    exact ⟨r.route, congrArg (Option.map RoutingTableRecord.route) hr, hlt⟩
  · intro h
    obtain ⟨known, hknown, hlt⟩ := h
    obtain ⟨r, hr, rfl⟩ := Option.map_eq_some_iff.mp hknown
    exact ⟨r, hr, hv.valid r (Keyed.lookup_mem hr), hlt⟩

end RoutingTable

/-- **The concurrent router keeps the first best announcement**, as long as its
process does not end. -/
theorem announceAll_route {returns : Bool} {anns : List Message} {rt : RoutingTable}
    (h : announceAll returns .empty anns = some rt) :
    rt.Valid ∧
      ∀ c, rt.routeFor c = (firstArgmin announcedHops (messagesFor c anns)).map announcedRoute := by
  induction anns using List.reverseRecOn generalizing rt with
  | nil =>
    obtain rfl := Option.some.inj h
    exact ⟨RoutingTable.empty_valid, fun c => rfl⟩
  | append_singleton anns m ih =>
    rw [announceAll_concat] at h
    obtain ⟨rt₀, h₀, h⟩ := Option.bind_eq_some_iff.mp h
    obtain ⟨hvalid, hroute⟩ := ih h₀
    refine ⟨RoutingTable.handleAnnouncement_valid hvalid h, fun c => ?_⟩
    rw [RoutingTable.routeFor_handleAnnouncement hvalid h, hroute]
    by_cases hc : m._recvPacket.ContentID = c
    · rw [if_pos hc, messagesFor_concat_self hc, firstArgmin_concat]
      cases firstArgmin announcedHops (messagesFor c anns) with
      | none => rfl
      | some a =>
        exact (apply_ite (Option.map announcedRoute) (announcedHops m < announcedHops a)
          (some m) (some a)).symm
    · rw [if_neg hc, messagesFor_concat_ne hc]

/-- The announcement has fewer hops than all those of its content before it, of
which there is one. -/
def Nearer (anns : List Message) (m : Message) : Prop :=
  ∃ a ∈ firstArgmin announcedHops (messagesFor m._recvPacket.ContentID anns),
    announcedHops m < announcedHops a

instance (anns : List Message) : DecidablePred (Nearer anns) := fun _ =>
  inferInstanceAs (Decidable (∃ a ∈ firstArgmin announcedHops _, _ < announcedHops a))

/-- Such an announcement improves the table, and no other does. -/
theorem improves_announceAll {returns : Bool} {anns : List Message} {rt : RoutingTable}
    (h : announceAll returns .empty anns = some rt) (m : Message) :
    rt.improves m._recvPacket.ContentID m._recvPacket.hostOrHops = true ↔ Nearer anns m := by
  obtain ⟨hvalid, hroute⟩ := announceAll_route h
  rw [RoutingTable.improves_iff_routeFor hvalid, hroute]
  constructor
  · intro himp
    obtain ⟨known, hknown, hlt⟩ := himp
    obtain ⟨a, ha, rfl⟩ := Option.map_eq_some_iff.mp hknown
    exact ⟨a, ha, hlt⟩
  · intro hnear
    obtain ⟨a, ha, hlt⟩ := hnear
    exact ⟨announcedRoute a, by rw [ha, Option.map_some], hlt⟩

/-- No announcement has fewer hops than the first one of its content. -/
def FirstIsBest (anns : List Message) : Prop :=
  ∀ m ∈ anns, ∀ a ∈ (messagesFor m._recvPacket.ContentID anns).head?,
    announcedHops a ≤ announcedHops m

instance : DecidablePred FirstIsBest := fun anns =>
  inferInstanceAs (Decidable (∀ m ∈ anns, ∀ a ∈ (messagesFor _ anns).head?, _ ≤ _))

/-- The first announcement of a content stays the first. -/
theorem head_messagesFor_concat {anns : List Message} {m : Message} {c : Int}
    (hne : messagesFor c anns ≠ []) :
    (messagesFor c (anns ++ [m])).head? = (messagesFor c anns).head? := by
  by_cases hc : m._recvPacket.ContentID = c
  · rw [messagesFor_concat_self hc, List.head?_append_of_ne_nil _ hne]
  · rw [messagesFor_concat_ne hc]

/-- One more announcement must be none that is nearer. -/
theorem firstIsBest_concat {anns : List Message} {m : Message} :
    FirstIsBest (anns ++ [m]) ↔ FirstIsBest anns ∧ ¬Nearer anns m := by
  have hmem : ∀ x ∈ anns, messagesFor x._recvPacket.ContentID anns ≠ [] := fun x hx =>
    List.ne_nil_of_mem (List.mem_filter.mpr ⟨hx, decide_eq_true rfl⟩)
  have hold : (∀ x ∈ anns, ∀ a ∈ (messagesFor x._recvPacket.ContentID (anns ++ [m])).head?,
      announcedHops a ≤ announcedHops x) ↔ FirstIsBest anns := by
    refine forall_congr' fun x => forall_congr' fun hx => ?_
    rw [head_messagesFor_concat (hmem x hx)]
  unfold FirstIsBest at hold ⊢
  rw [List.forall_mem_append, hold, List.forall_mem_singleton]
  refine and_congr_right fun hbest => ?_
  cases hmin : firstArgmin announcedHops (messagesFor m._recvPacket.ContentID anns) with
  | none =>
    -- the first of its content
    have hnil := firstArgmin_eq_none.mp hmin
    have hnone : ¬Nearer anns m := by
      intro hnear
      obtain ⟨a, ha, -⟩ := hnear
      rw [hmin] at ha
      cases ha
    rw [messagesFor_concat_self rfl, hnil]
    refine ⟨fun _ => hnone, fun _ a ha => ?_⟩
    obtain rfl := Option.some.inj ha
    exact Int.le_refl _
  | some a =>
    have hfirst := isFirst_of_firstArgmin hmin
    have hne : messagesFor m._recvPacket.ContentID anns ≠ [] := List.ne_nil_of_mem hfirst.mem
    rw [head_messagesFor_concat hne]
    -- the first one is as near as the nearest
    obtain ⟨b, hb⟩ : ∃ b, (messagesFor m._recvPacket.ContentID anns).head? = some b :=
      ⟨_, List.head?_eq_some_head hne⟩
    have hbmem := List.mem_of_mem_head? hb
    have hle : announcedHops a ≤ announcedHops b := hfirst.le b hbmem
    have hge : announcedHops b ≤ announcedHops a := by
      have hamem := hfirst.mem
      obtain ⟨ha, hac⟩ := List.mem_filter.mp hamem
      refine hbest a ha b ?_
      rw [of_decide_eq_true hac]
      exact hb
    constructor
    · intro h hnear
      obtain ⟨a', ha', hlt⟩ := hnear
      obtain rfl := Option.some.inj (hmin.symm.trans ha')
      have := h b hb
      omega
    · intro h b' hb'
      obtain rfl := Option.some.inj (hb.symm.trans hb')
      by_contra hlt
      exact h ⟨a, hmin, by omega⟩

/-- **The process of a concurrent router ends at the first announcement that is
nearer than all before it**, unless `pthread_cancel` returns. -/
theorem announceAll_ne_none_iff {returns : Bool} {anns : List Message} :
    announceAll returns .empty anns ≠ none ↔ returns = true ∨ FirstIsBest anns := by
  induction anns using List.reverseRecOn with
  | nil => exact ⟨fun _ => Or.inr fun m hm => absurd hm List.not_mem_nil, fun _ => nofun⟩
  | append_singleton anns m ih =>
    rw [announceAll_concat, firstIsBest_concat]
    cases hall : announceAll returns .empty anns with
    | none =>
      rw [hall] at ih
      simp only [Option.bind_none, ne_eq, not_true_eq_false, false_iff]
      exact fun h => ih.mpr (h.imp_right And.left) rfl
    | some rt =>
      rw [hall] at ih
      have hbest := ih.mp nofun
      rw [Option.bind_some, ne_eq, RoutingTable.handleAnnouncement_eq_none,
        improves_announceAll hall]
      cases returns with
      | true => simp
      | false =>
        have hfirst : FirstIsBest anns := hbest.resolve_left Bool.false_ne_true
        simp [hfirst]

/-! ## The two side by side -/

/-- Each table holds exactly one record for content `c`: the simplified
router's is the last of the best announcements, the concurrent router's the
first; the hop counts agree, and so do the interfaces without a tie. -/
def HoldBest (anns : List Message) (t : Tables) (rt : RoutingTable) (c : Int) : Prop :=
  ∃ last first r r', IsLast announcedHops (messagesFor c anns) last ∧
    IsFirst announcedHops (messagesFor c anns) first ∧
    t.RoutingTable.filter (fun x => x.cID = c) = [r] ∧ r.route = announcedRoute last ∧
    rt.Table.filter (fun x => x.ContentID = c) = [r'] ∧ r'.isValid = true ∧
    r'.route = announcedRoute first ∧ r.num_hops = r'.NumOfHops ∧
    (r.interface ≠ r'.PortInterface →
      2 ≤ (messagesFor c anns).countP fun m => announcedHops m = r.num_hops)

/-- Neither table holds a record for content `c`. -/
def HoldNone (t : Tables) (rt : RoutingTable) (c : Int) : Prop :=
  t.RoutingTable.filter (fun x => x.cID = c) = [] ∧
    rt.Table.filter (fun x => x.ContentID = c) = []

/-- **Announcement handling is best-route selection in both routers**, as long
as the process of the concurrent one does not end. -/
theorem bestRoutes (n : Nat) {t₀ : Tables} (ht₀ : t₀.RoutingTable = []) {anns : List Message}
    (hanns : ∀ m ∈ anns, PacketTypes.ofOctet m._recvPacket.packetType = some .ANNOUNCEMENT)
    {returns : Bool} {rt : RoutingTable} (hrt : announceAll returns .empty anns = some rt) :
    ∃ t sent, handleAll n t₀ anns = some (t, sent) ∧
      ∀ c, if messagesFor c anns = [] then HoldNone t rt c else HoldBest anns t rt c := by
  obtain ⟨t, sent, hall, hu, hroute⟩ := handleAll_route (n := n) ht₀ hanns
  obtain ⟨hvalid, hroute'⟩ := announceAll_route hrt
  refine ⟨t, sent, hall, fun c => ?_⟩
  have hlastRoute := hroute c
  have hfirstRoute := hroute' c
  by_cases hnil : messagesFor c anns = []
  · rw [if_pos hnil]
    rw [hnil] at hlastRoute hfirstRoute
    exact ⟨Keyed.filter_of_lookup_none (Option.map_eq_none_iff.mp hlastRoute),
      Keyed.filter_of_lookup_none (Option.map_eq_none_iff.mp hfirstRoute)⟩
  · rw [if_neg hnil]
    obtain ⟨last, hlast⟩ := Option.ne_none_iff_exists'.mp
      (mt (lastArgmin_eq_none (f := announcedHops)).mp hnil)
    obtain ⟨first, hfirst⟩ := Option.ne_none_iff_exists'.mp
      (mt (firstArgmin_eq_none (f := announcedHops)).mp hnil)
    rw [hlast] at hlastRoute
    rw [hfirst] at hfirstRoute
    obtain ⟨r, hr, hrlast⟩ := Option.map_eq_some_iff.mp hlastRoute
    obtain ⟨r', hr', hrfirst⟩ := Option.map_eq_some_iff.mp hfirstRoute
    have hislast := isLast_of_lastArgmin hlast
    have hisfirst := isFirst_of_firstArgmin hfirst
    have hhops : announcedHops first = announcedHops last := hisfirst.value_eq hislast
    have hrhops : r.num_hops = announcedHops last := congrArg Prod.fst hrlast
    have hrhops' : r'.NumOfHops = announcedHops first := congrArg Prod.fst hrfirst
    refine ⟨last, first, r, r', hislast, hisfirst, Keyed.filter_of_lookup hu hr, hrlast,
      Keyed.filter_of_lookup hvalid.unique hr', hvalid.valid r' (Keyed.lookup_mem hr'), hrfirst,
      ?_, fun hne => ?_⟩
    · rw [hrhops, hrhops', hhops]
    · -- equal announcements would give equal interfaces
      rw [hrhops, ← hhops]
      refine hisfirst.tie hislast fun he => hne ?_
      have hinterface : r.interface = last._RxInterface_Num := congrArg Prod.snd hrlast
      have hinterface' : r'.PortInterface = first._RxInterface_Num := congrArg Prod.snd hrfirst
      rw [hinterface, hinterface', he]

/-- Both routers handle the announcements, and then hold the best routes. -/
def SelectBest (returns : Bool) (n : Nat) (t₀ : Tables) (anns : List Message) : Prop :=
  ∃ t sent rt, handleAll n t₀ anns = some (t, sent) ∧
    announceAll returns .empty anns = some rt ∧
    ∀ c, if messagesFor c anns = [] then HoldNone t rt c else HoldBest anns t rt c

/-- **Both routers select the best routes iff `pthread_cancel` returns or the
first announcement of each content is one of its best.** -/
theorem bestRoutes_iff (returns : Bool) (n : Nat) {t₀ : Tables} (ht₀ : t₀.RoutingTable = [])
    {anns : List Message}
    (hanns : ∀ m ∈ anns, PacketTypes.ofOctet m._recvPacket.packetType = some .ANNOUNCEMENT) :
    SelectBest returns n t₀ anns ↔ returns = true ∨ FirstIsBest anns := by
  rw [← announceAll_ne_none_iff]
  constructor
  · intro h
    obtain ⟨t, sent, rt, -, hrt, -⟩ := h
    exact Option.ne_none_iff_exists'.mpr ⟨rt, hrt⟩
  · intro h
    obtain ⟨rt, hrt⟩ := Option.ne_none_iff_exists'.mp h
    obtain ⟨t, sent, hall, hhold⟩ := bestRoutes n ht₀ hanns hrt
    exact ⟨t, sent, rt, hall, hrt, hhold⟩

/-- Content 7 with a tie between the interfaces 1 and 0, and content 8. -/
def tiedAnnouncements : List Message :=
  [received .ANNOUNCEMENT 7 2 1, received .ANNOUNCEMENT 8 0 0, received .ANNOUNCEMENT 7 3 0,
    received .ANNOUNCEMENT 7 2 0]

theorem bestRoutes_tied : SelectBest false 2 .empty tiedAnnouncements :=
  (bestRoutes_iff false 2 rfl (by decide)).mpr (by decide)

/-- Content 7 is announced with two hops, then with one: the concurrent router
ends. -/
theorem nearer_announcement_ends :
    ¬SelectBest false 2 .empty
      [received .ANNOUNCEMENT 7 2 0, received .ANNOUNCEMENT 7 1 1] := by
  intro h
  obtain ⟨t, sent, rt, -, hrt, -⟩ := h
  cases hrt

/-- The tables of a run of the simplified router on announcements only,
without the timer. -/
theorem run_bestRoutes {n : Nat} {ms : List (Move RouterState Action)} {s : RouterState}
    (h : (router n).Run ms s) (hmain : ∀ m ∈ ms, m.act.isMain = true)
    (hanns : ∀ m ∈ ms.filterMap dispatched,
      PacketTypes.ofOctet m._recvPacket.packetType = some .ANNOUNCEMENT) (c : Int) :
    routeFor c s.settled
      = (lastArgmin announcedHops (messagesFor c (ms.filterMap dispatched))).map
          announcedRoute := by
  obtain ⟨t, sent, hall, -, hroute⟩ := @handleAll_route n .empty rfl _ hanns
  rw [run_handleAll h hmain] at hall
  obtain ⟨rfl, -⟩ := Prod.mk.inj (Option.some.inj hall)
  exact hroute c

end ContentNetwork.Ambitious
