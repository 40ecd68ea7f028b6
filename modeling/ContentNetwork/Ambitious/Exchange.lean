import ContentNetwork.Ambitious.Network

/-!
# A request and its answer

Host `h` requests a content, the routers on the way hand the request on along
their routes, the host `s` it reaches answers, and the routers hand the
response on. Four places use the third octet of the header on this way. The
request carries the ID of `h`, and every router files its pending record under
it. The response carries the ID of `s`, because `host.cpp` passes its own ID to
`MakeResponsePacket`, and every router looks for a record under that one.

So the records that the request leaves are never found, and the response comes
to `h` exactly if records for `(content, s)` that were there before already
lead from `s` to `h` (`answered_iff`). In a network that starts with empty
tables there are none: a record that leads to a host carries that host's ID
(`not_answered_of_reachable`).
-/

namespace ContentNetwork.Ambitious

open Lib Simplified Network

variable {R H : Type*}

/-- The route of each router for content `c`. -/
def routes (c : UInt8) (routers : R → Router) (r : R) : Option Int :=
  some ((routers r).p_RoutingTable.GetInterfaceFromRoutingTable c.toNat)

/-- Where each router sends a response `(c, id)`. -/
def wayBack (c id : UInt8) (routers : R → Router) (r : R) : Option Int :=
  some ((routers r).p_PendingTable.GetInterfaceFromPendingTable c.toNat id.toNat)

variable (T : Topology R H) (returns : R → Bool) [DecidableEq R]

/-- The packet with `k` others before it is handled by `n` routers in turn. A
router appends what it sends, so the packet keeps its place. -/
def relay (k : Nat) : Nat → State R H → Option (State R H)
  | 0, s => some s
  | n + 1, s => (networkStep T returns s (.deliver k)).bind (relay k n)

/-- Host `h` requests content `c`, `n` routers handle the request, the host it
has come to has the file and answers, `m` routers handle the response. Nothing
happens in between; no timer expires. -/
def exchange (h : H) (c : UInt8) (n m : Nat) (s : State R H) : Option (State R H) :=
  (networkStep T returns s (.request h c)).bind fun s₁ =>
    (relay T returns s.inFlight.length n s₁).bind fun s₂ =>
      (networkStep T returns s₂ (.hostReceive s.inFlight.length true)).bind
        (relay T returns s.inFlight.length m)

/-- A response for `c` is at host `h`, with `k` packets before it. -/
def Arrived (h : H) (c : UInt8) (k : Nat) (s : State R H) : Prop :=
  ∃ p, s.inFlight[k]? = some ⟨.leaf h, p⟩ ∧
    PacketTypes.ofOctet p.packetType = some .RESPONSE ∧ p.contentID = c

/-- From `s`, a request of `h` for `c` is answered to `h`. -/
def Answered (s : State R H) (h : H) (c : UInt8) : Prop :=
  ∃ n m s', exchange T returns h c n m s = some s' ∧ Arrived h c s.inFlight.length s'

variable {T} {returns} {routers : R → Router} {rest : List (Envelope R H)}
  {announced : List (H × UInt8)} {r : R} {i : Int} {p : HeaderOctets} {h y : H} {c id : UInt8}
  {l : List R} {k m n : Nat} {s s' : State R H}

/-! ## One router -/

variable (rest announced) in
/-- A router that handles the last packet. -/
theorem deliver_last {t : Router} {sent : List Sent}
    (hh : handlePacket (returns r) (T.num_interfaces r) (routers r) ⟨p, i⟩ = some (t, sent)) :
    networkStep T returns ⟨routers, rest ++ [⟨.node r i, p⟩], announced⟩ (.deliver rest.length)
      = some ⟨Function.update routers r t, rest ++ T.send r sent, announced⟩ := by
  simp only [networkStep]
  rw [List.getElem?_concat_length]
  dsimp only
  rw [hh, List.eraseIdx_append_of_length_le (le_refl _), Nat.sub_self, List.eraseIdx_cons_zero,
    List.append_nil]

variable (rest announced) in
/-- A router whose process ends at the last packet. -/
theorem deliver_last_ends
    (hh : handlePacket (returns r) (T.num_interfaces r) (routers r) ⟨p, i⟩ = none) :
    networkStep T returns ⟨routers, rest ++ [⟨.node r i, p⟩], announced⟩ (.deliver rest.length)
      = some ⟨routers, rest, announced⟩ := by
  simp only [networkStep]
  rw [List.getElem?_concat_length]
  dsimp only
  rw [hh, List.eraseIdx_append_of_length_le (le_refl _), Nat.sub_self, List.eraseIdx_cons_zero,
    List.append_nil]

/-- Nothing at position `k` for a router: no router handles it. -/
theorem relay_stuck (hstuck : ∀ r i p, s.inFlight[k]? ≠ some ⟨.node r i, p⟩)
    (hr : relay T returns k n s = some s') : n = 0 ∧ s' = s := by
  cases n with
  | zero => exact ⟨rfl, (Option.some.inj hr).symm⟩
  | succ n =>
    obtain ⟨s₁, hs₁, -⟩ := Option.bind_eq_some_iff.mp hr
    simp only [networkStep] at hs₁
    split at hs₁
    next r i p hk => exact absurd hk (hstuck r i p)
    next => cases hs₁
    next => cases hs₁

/-- A packet comes to a host in one way only. -/
theorem relay_unique {s₁ s₂ : State R H} {y₁ y₂ : H} {p₁ p₂ : HeaderOctets}
    (h₁ : relay T returns k m s = some s₁) (hy₁ : s₁.inFlight[k]? = some ⟨.leaf y₁, p₁⟩)
    (h₂ : relay T returns k n s = some s₂) (hy₂ : s₂.inFlight[k]? = some ⟨.leaf y₂, p₂⟩) :
    s₁ = s₂ := by
  induction m generalizing n s with
  | zero =>
    obtain rfl := Option.some.inj h₁
    refine (relay_stuck (fun r i p hk => ?_) h₂).2.symm
    rw [hy₁] at hk
    cases hk
  | succ m ih =>
    cases n with
    | zero =>
      obtain rfl := Option.some.inj h₂
      refine (relay_stuck (fun r i p hk => ?_) h₁).2
      rw [hy₂] at hk
      cases hk
    | succ n =>
      obtain ⟨s', hs', h₁⟩ := Option.bind_eq_some_iff.mp h₁
      obtain ⟨s'', hs'', h₂⟩ := Option.bind_eq_some_iff.mp h₂
      rw [hs'] at hs''
      obtain rfl := Option.some.inj hs''
      exact ih h₁ h₂

variable (rest announced) in
/-- The rule for a packet that follows a trail. `P routers l` is what the rest
`l` of the trail needs of the routers; a router on the trail hands the packet
on and leaves what the routers behind it need. -/
theorem relay_trail {P : (R → Router) → List R → Prop} {crumb : R → Option Int}
    (hstep : ∀ routers r l i e (j : Int), P routers (r :: l) → r ∉ l → crumb r = some i →
      T.far r i = some e → ∃ routers',
        networkStep T returns ⟨routers, rest ++ [⟨.node r j, p⟩], announced⟩ (.deliver rest.length)
          = some ⟨routers', rest ++ [⟨e, p⟩], announced⟩ ∧ P routers' l)
    (ht : T.Trail crumb r l y) (hP : P routers l) (j : Int) :
    ∃ routers', relay T returns rest.length l.length ⟨routers, rest ++ [⟨.node r j, p⟩], announced⟩
        = some ⟨routers', rest ++ [⟨.leaf y, p⟩], announced⟩ ∧ P routers' [] := by
  induction ht generalizing routers j with
  | @last r i y hc hfar =>
    obtain ⟨routers', hdeliver, hP'⟩ := hstep routers r [] i _ j hP List.not_mem_nil hc hfar
    refine ⟨routers', ?_, hP'⟩
    simp only [List.length_singleton, relay]
    rw [hdeliver]
    rfl
  | @hop r r' i j' l y hc hfar _ hnot ih =>
    obtain ⟨routers₁, hdeliver, hP₁⟩ := hstep routers r l i _ j hP hnot hc hfar
    obtain ⟨routers', hrelay, hP'⟩ := ih hP₁ j'
    refine ⟨routers', ?_, hP'⟩
    simp only [List.length_cons, relay]
    rw [hdeliver]
    exact hrelay

/-! ## The request -/

/-- What a request `(c, id)` leaves alone: the routes, and the ways back for
other hosts. -/
structure RequestFrame (c id : UInt8) (routers routers' : R → Router) : Prop where
  routes : ∀ c' x, routes c' routers' x = Ambitious.routes c' routers x
  wayBack : ∀ id', id' ≠ id → ∀ x, wayBack c id' routers' x = Ambitious.wayBack c id' routers x

variable (rest announced) in
/-- A router with a route for the requested content hands the request on. -/
theorem deliver_request {e : Far R Int H}
    (hp : PacketTypes.ofOctet p.packetType = some .REQUEST)
    (hroute : routes p.contentID routers r = some i) (hfar : T.far r i = some e) (j : Int) :
    ∃ routers', networkStep T returns ⟨routers, rest ++ [⟨.node r j, p⟩], announced⟩
          (.deliver rest.length) = some ⟨routers', rest ++ [⟨e, p⟩], announced⟩ ∧
        RequestFrame p.contentID p.hostIDOrHops routers routers' := by
  obtain ⟨h0, h1⟩ := T.in_range hfar
  have hh := handlePacket_request (returns r) (t := routers r) (m := ⟨p, j⟩) hp
    (Option.some.inj hroute) h0 h1
  have hstep := deliver_last rest announced hh
  rw [Topology.send_singleton hfar] at hstep
  refine ⟨_, hstep, ?_, ?_⟩
  · intro c' x
    unfold routes
    by_cases hx : x = r
    · rw [hx, Function.update_self]
    · rw [Function.update_of_ne hx]
  · intro id' hne x
    unfold wayBack
    by_cases hx : x = r
    · have hkey : ((p.contentID.toNat : Int), (id'.toNat : Int))
          ≠ ((p.contentID.toNat : Int), (p.hostIDOrHops.toNat : Int)) := by
        intro he
        exact hne (UInt8.toNat.inj (Int.ofNat.inj (Prod.mk.inj he).2))
      rw [hx, Function.update_self, PendingTable.get_eq_record, PendingTable.get_eq_record]
      dsimp only [HeaderOctets.ContentID, HeaderOctets.hostOrHops]
      rw [PendingTable.record_handleRequest_ne hkey]
    · rw [Function.update_of_ne hx]

omit [DecidableEq R] in
theorem RequestFrame.refl (routers : R → Router) : RequestFrame c id routers routers :=
  ⟨fun _ _ => rfl, fun _ _ _ => rfl⟩

omit [DecidableEq R] in
theorem RequestFrame.trans {routers₁ routers₂ : R → Router}
    (h₁ : RequestFrame c id routers routers₁) (h₂ : RequestFrame c id routers₁ routers₂) :
    RequestFrame c id routers routers₂ := by
  constructor
  · intro c' x
    rw [h₂.routes, h₁.routes]
  · intro id' hne x
    rw [h₂.wayBack id' hne, h₁.wayBack id' hne]

variable (rest announced) in
/-- The request is handed on along the routes. -/
theorem relay_request (hp : PacketTypes.ofOctet p.packetType = some .REQUEST)
    (ht : T.Trail (routes p.contentID routers) r l y) (j : Int) :
    ∃ routers', relay T returns rest.length l.length ⟨routers, rest ++ [⟨.node r j, p⟩], announced⟩
          = some ⟨routers', rest ++ [⟨.leaf y, p⟩], announced⟩ ∧
        RequestFrame p.contentID p.hostIDOrHops routers routers' := by
  refine relay_trail rest announced
    (P := fun routers' _ => RequestFrame p.contentID p.hostIDOrHops routers routers')
    (fun routers₁ r l i e j hframe _ hc hfar => ?_) ht (.refl routers) j
  -- the routes are still those that the trail follows
  have hi : routes p.contentID routers₁ r = some i := (hframe.routes _ r).trans hc
  obtain ⟨routers₂, hdeliver, hframe'⟩ := deliver_request rest announced hp hi hfar j
  exact ⟨routers₂, hdeliver, hframe.trans hframe'⟩

/-! ## The response -/

variable (rest announced) in
/-- A router hands a response on through the interface of its record, and then
finds no such record; the other routers stay. -/
theorem deliver_response {e : Far R Int H}
    (hp : PacketTypes.ofOctet p.packetType = some .RESPONSE)
    (hback : wayBack p.contentID p.hostIDOrHops routers r = some i)
    (hfar : T.far r i = some e) (j : Int) :
    ∃ routers', networkStep T returns ⟨routers, rest ++ [⟨.node r j, p⟩], announced⟩
          (.deliver rest.length) = some ⟨routers', rest ++ [⟨e, p⟩], announced⟩ ∧
        wayBack p.contentID p.hostIDOrHops routers' r = some (-1) ∧
        ∀ x, x ≠ r → routers' x = routers x := by
  obtain ⟨h0, h1⟩ := T.in_range hfar
  have hh := handlePacket_response (returns r) (n := T.num_interfaces r) (t := routers r)
    (m := ⟨p, j⟩) hp (Option.some.inj hback)
  rw [if_neg (by omega), sendThrough_of_range h0 h1] at hh
  have hstep := deliver_last rest announced hh
  rw [Topology.send_singleton hfar] at hstep
  refine ⟨_, hstep, ?_, fun x hx => Function.update_of_ne hx _ _⟩
  unfold wayBack
  rw [Function.update_self]
  exact congrArg some PendingTable.get_DeleteRecord_self

variable (rest announced) in
/-- A response whose record leads nowhere is gone. -/
theorem deliver_response_nowhere (hp : PacketTypes.ofOctet p.packetType = some .RESPONSE)
    (hback : wayBack p.contentID p.hostIDOrHops routers r = some i) (hfar : T.far r i = none)
    (j : Int) :
    ∃ routers', networkStep T returns ⟨routers, rest ++ [⟨.node r j, p⟩], announced⟩
      (.deliver rest.length) = some ⟨routers', rest, announced⟩ := by
  have hh := handlePacket_response (returns r) (n := T.num_interfaces r) (t := routers r)
    (m := ⟨p, j⟩) hp (Option.some.inj hback)
  have hsend : T.send r [(i, p)] = [] := by
    unfold Topology.send
    rw [List.filterMap_cons_none (by rw [hfar]; rfl)]
    rfl
  by_cases hnone : i = -1
  · -- no valid record
    rw [if_pos hnone] at hh
    have hstep := deliver_last rest announced hh
    rw [show T.send r [] = [] from rfl, List.append_nil] at hstep
    exact ⟨_, hstep⟩
  · rw [if_neg hnone] at hh
    cases hs : sendThrough (T.num_interfaces r) i p with
    | none =>
      -- the record names no interface of the router
      rw [hs] at hh
      exact ⟨_, deliver_last_ends rest announced hh⟩
    | some sent =>
      -- the interface is linked to nothing
      obtain ⟨-, -, rfl⟩ := sendThrough_eq_some hs
      rw [hs] at hh
      have hstep := deliver_last rest announced hh
      rw [hsend, List.append_nil] at hstep
      exact ⟨_, hstep⟩

variable (rest announced) in
/-- Records that lead to a host take the response there. -/
theorem relay_response (hp : PacketTypes.ofOctet p.packetType = some .RESPONSE)
    {crumb : R → Option Int} (ht : T.Trail crumb r l y)
    (hback : ∀ x ∈ l, wayBack p.contentID p.hostIDOrHops routers x = crumb x) (j : Int) :
    ∃ routers', relay T returns rest.length l.length ⟨routers, rest ++ [⟨.node r j, p⟩], announced⟩
      = some ⟨routers', rest ++ [⟨.leaf y, p⟩], announced⟩ := by
  have hstep : ∀ routers r l i e (j : Int),
      (∀ x ∈ r :: l, wayBack p.contentID p.hostIDOrHops routers x = crumb x) → r ∉ l →
      crumb r = some i → T.far r i = some e → ∃ routers',
        networkStep T returns ⟨routers, rest ++ [⟨.node r j, p⟩], announced⟩ (.deliver rest.length)
          = some ⟨routers', rest ++ [⟨e, p⟩], announced⟩ ∧
        ∀ x ∈ l, wayBack p.contentID p.hostIDOrHops routers' x = crumb x := by
    intro routers r l i e j hback hnot hc hfar
    have hi := (hback r (List.mem_cons_self ..)).trans hc
    obtain ⟨routers₁, hdeliver, -, hothers⟩ := deliver_response rest announced hp hi hfar j
    refine ⟨routers₁, hdeliver, fun x hx => ?_⟩
    -- the rest of the trail does not come back to `r`
    have hx' : x ≠ r := fun he => hnot (he ▸ hx)
    rw [← hback x (List.mem_cons_of_mem _ hx)]
    unfold wayBack
    rw [hothers x hx']
  obtain ⟨routers', hrelay, -⟩ := relay_trail rest announced
    (P := fun routers l => ∀ x ∈ l, wayBack p.contentID p.hostIDOrHops routers x = crumb x)
    hstep ht hback j
  exact ⟨routers', hrelay⟩

/-- A response that comes to a host has followed records that lead there. -/
theorem trail_of_relay_response (hp : PacketTypes.ofOctet p.packetType = some .RESPONSE)
    {j : Int} {p' : HeaderOctets}
    (hr : relay T returns rest.length m ⟨routers, rest ++ [⟨.node r j, p⟩], announced⟩ = some s')
    (hy : s'.inFlight[rest.length]? = some ⟨.leaf y, p'⟩) :
    ∃ l, T.Trail (wayBack p.contentID p.hostIDOrHops routers) r l y := by
  induction m generalizing routers r j with
  | zero =>
    obtain rfl := Option.some.inj hr
    dsimp only at hy
    rw [List.getElem?_concat_length] at hy
    cases hy
  | succ m ih =>
    obtain ⟨s₁, hstep, hr⟩ := Option.bind_eq_some_iff.mp hr
    obtain ⟨i, hback⟩ : ∃ i, wayBack p.contentID p.hostIDOrHops routers r = some i := ⟨_, rfl⟩
    cases hfar : T.far r i with
    | none =>
      obtain ⟨routers', hstep'⟩ := deliver_response_nowhere rest announced hp hback hfar j
      rw [hstep] at hstep'
      obtain rfl := Option.some.inj hstep'
      obtain ⟨-, rfl⟩ := relay_stuck (fun r i p hk => by simp at hk) hr
      simp at hy
    | some e =>
      obtain ⟨routers', hstep', hgone, hothers⟩ := deliver_response rest announced hp hback hfar j
      rw [hstep] at hstep'
      obtain rfl := Option.some.inj hstep'
      cases e with
      | leaf y' =>
        -- the response is at a host, and no router handles it any more
        obtain ⟨-, rfl⟩ := relay_stuck (fun r i p hk => by simp at hk) hr
        dsimp only at hy
        rw [List.getElem?_concat_length] at hy
        cases hy
        exact ⟨_, .last hback hfar⟩
      | node r' j' =>
        obtain ⟨l, ht⟩ := ih hr
        -- the rest of the way does not come to `r` again: the record is gone
        have hnot : r ∉ l := by
          intro hmem
          obtain ⟨q, e, hq, hfar'⟩ := ht.exists_far hmem
          rw [hgone] at hq
          obtain rfl := Option.some.inj hq
          have := (T.in_range hfar').1
          omega
        refine ⟨r :: l, .hop hback hfar (ht.congr fun x hx => ?_) hnot⟩
        have hx' : x ≠ r := fun he => hnot (he ▸ hx)
        unfold wayBack
        rw [hothers x hx']

/-! ## The exchange -/

variable (returns) in
/-- After the request has gone along the routes to `y`, its answer has the way
from `y`'s router before it. -/
theorem exchange_to_host (hroutes : T.Trail (routes c s.routers) (T.attach h).1 l y)
    (hID : T.hostID h ≠ T.hostID y) :
    ∃ s₁ routers s₂, networkStep T returns s (.request h c) = some s₁ ∧
      relay T returns s.inFlight.length l.length s₁
        = some ⟨routers, s.inFlight ++ [⟨.leaf y, octets .REQUEST c (T.hostID h)⟩],
            s.announced⟩ ∧
      networkStep T returns
          ⟨routers, s.inFlight ++ [⟨.leaf y, octets .REQUEST c (T.hostID h)⟩], s.announced⟩
          (.hostReceive s.inFlight.length true) = some s₂ ∧
      s₂ = ⟨routers, s.inFlight ++ [T.fromHost y (octets .RESPONSE c (T.hostID y))],
        s.announced⟩ ∧
      wayBack c (T.hostID y) routers = wayBack c (T.hostID y) s.routers := by
  obtain ⟨routers, hrelay, hframe⟩ := relay_request s.inFlight s.announced
    (p := octets .REQUEST c (T.hostID h)) (ofOctet_octets ..) hroutes (T.attach h).2
  refine ⟨_, routers, _, rfl, hrelay, ?_, rfl, funext (hframe.wayBack _ hID.symm)⟩
  simp only [networkStep]
  rw [List.getElem?_concat_length]
  dsimp only
  rw [List.eraseIdx_append_of_length_le (le_refl _), Nat.sub_self, List.eraseIdx_cons_zero,
    List.append_nil, hostReply, if_pos ⟨rfl, ofOctet_octets ..⟩]
  rfl

/-- An answer that comes to `h` has found records that lead from `y` to `h`. -/
theorem trail_of_answered (hroutes : T.Trail (routes c s.routers) (T.attach h).1 l y)
    (hID : T.hostID h ≠ T.hostID y) (hanswered : Answered T returns s h c) :
    ∃ l', T.Trail (wayBack c (T.hostID y) s.routers) (T.attach y).1 l' h := by
  obtain ⟨s₁, routers, s₂, hrequest, hthere, hreply, hs₂, hback⟩ :=
    exchange_to_host returns hroutes hID
  obtain ⟨n, m, s', hexchange, p, hat, -, -⟩ := hanswered
  unfold exchange at hexchange
  rw [hrequest, Option.bind_some] at hexchange
  obtain ⟨s₂', hthere', hexchange⟩ := Option.bind_eq_some_iff.mp hexchange
  obtain ⟨s₃, hreply', hreturn⟩ := Option.bind_eq_some_iff.mp hexchange
  -- the host that answers is `y`
  obtain ⟨y', p', hat'⟩ : ∃ y' p', s₂'.inFlight[s.inFlight.length]? = some ⟨.leaf y', p'⟩ := by
    simp only [networkStep] at hreply'
    split at hreply'
    next y' p' hk => exact ⟨y', p', hk⟩
    next => cases hreply'
    next => cases hreply'
  obtain rfl := relay_unique hthere' hat' hthere List.getElem?_concat_length
  rw [hreply] at hreply'
  obtain rfl := Option.some.inj hreply'
  subst hs₂
  rw [← hback]
  exact trail_of_relay_response (p := octets .RESPONSE c (T.hostID y)) (ofOctet_octets ..)
    hreturn hat

/-- Without a record under the ID of `y`, its first router drops the answer. -/
theorem not_answered_of_no_record (hroutes : T.Trail (routes c s.routers) (T.attach h).1 l y)
    (hID : T.hostID h ≠ T.hostID y)
    (hnone : wayBack c (T.hostID y) s.routers (T.attach y).1 = some (-1)) :
    ¬Answered T returns s h c := by
  intro hanswered
  obtain ⟨l', ht⟩ := trail_of_answered hroutes hID hanswered
  obtain ⟨q, hq, hnext⟩ := ht.uncons
  rw [hnone] at hq
  obtain rfl := Option.some.inj hq
  have hnowhere : ∀ e, T.far (T.attach y).1 (-1) ≠ some e := by
    intro e he
    have := (T.in_range he).1
    omega
  rcases hnext with ⟨-, hfar⟩ | ⟨r', p', l'', hfar, -⟩
  · exact hnowhere _ hfar
  · exact hnowhere _ hfar

/-- Records that lead from `y` to `h` bring the answer to `h`. -/
theorem answered_of_trail (hroutes : T.Trail (routes c s.routers) (T.attach h).1 l y)
    (hID : T.hostID h ≠ T.hostID y) {l' : List R}
    (ht : T.Trail (wayBack c (T.hostID y) s.routers) (T.attach y).1 l' h) :
    Answered T returns s h c := by
  obtain ⟨s₁, routers, s₂, hrequest, hthere, hreply, hs₂, hback⟩ :=
    exchange_to_host returns hroutes hID
  obtain ⟨routers', hreturn⟩ := relay_response s.inFlight s.announced
    (p := octets .RESPONSE c (T.hostID y)) (ofOctet_octets ..) ht
    (fun x _ => congrFun hback x) (T.attach y).2
  have hexchange : exchange T returns h c l.length l'.length s
      = some ⟨routers', s.inFlight ++ [⟨.leaf h, octets .RESPONSE c (T.hostID y)⟩],
        s.announced⟩ := by
    unfold exchange
    rw [hrequest, Option.bind_some, hthere, Option.bind_some, hreply, Option.bind_some, hs₂]
    exact hreturn
  exact ⟨_, _, _, hexchange, _, List.getElem?_concat_length, ofOctet_octets .., rfl⟩

/-- **A request that goes along valid routes from host `h` to another host `y`
is answered to `h` iff the routers had pending records under the ID of `y`
before, and these lead from `y` to `h`.** -/
theorem answered_iff (hroutes : T.Trail (routes c s.routers) (T.attach h).1 l y)
    (hID : T.hostID h ≠ T.hostID y) :
    Answered T returns s h c ↔
      ∃ l', T.Trail (wayBack c (T.hostID y) s.routers) (T.attach y).1 l' h := by
  constructor
  · intro hanswered
    exact trail_of_answered hroutes hID hanswered
  · intro htrail
    obtain ⟨l', ht⟩ := htrail
    exact answered_of_trail hroutes hID ht

/-! ## Networks that start with empty tables

A record that leads to a host comes from a request of that host. So no record
under the ID of another host leads there. -/

/-- What stands at an interface that leads to a host, or comes in there, has
that host's ID. -/
structure Addressed (T : Topology R H) (s : State R H) : Prop where
  records : ∀ r, ∀ x ∈ (s.routers r).p_PendingTable.Table, ∀ h,
    T.far r x.PortInterface = some (.leaf h) → x.ContentRequestingHostID = (T.hostID h).toNat
  requests : ∀ x ∈ s.inFlight, PacketTypes.ofOctet x.packet.packetType = some .REQUEST →
    ∀ r i h, x.dest = .node r i → T.far r i = some (.leaf h) → x.packet.hostIDOrHops = T.hostID h

/-- Every event keeps that. -/
theorem step_addressed {e : Event R H} (hi : Addressed T s)
    (hstep : networkStep T returns s e = some s') : Addressed T s' := by
  obtain ⟨hrecords, hrequests⟩ := hi
  have hinterface : ∀ r (x x' : PendingTableRecord), x.key = x'.key →
      x.PortInterface = x'.PortInterface →
      (∀ h, T.far r x.PortInterface = some (.leaf h) →
        x.ContentRequestingHostID = (T.hostID h).toNat) →
      ∀ h, T.far r x'.PortInterface = some (.leaf h) →
        x'.ContentRequestingHostID = (T.hostID h).toNat := by
    intro r x x' hkey hport hx h hfar
    rw [← (Prod.mk.inj hkey).2]
    exact hx h (hport ▸ hfar)
  cases networkStep_cases hstep with
  | announce y c =>
    refine ⟨hrecords, Keyed.forall_push hrequests fun ht => ?_⟩
    exact absurd ht (octets_type_ne (by decide))
  | request y c =>
    refine ⟨hrecords, Keyed.forall_push hrequests fun _ r i h hdest hfar => ?_⟩
    -- it comes in where its host is attached
    cases hdest
    rw [T.far_attach] at hfar
    cases hfar
    rfl
  | @handle before after r i packet t sent hsplit hh =>
    constructor
    · intro q
      by_cases hq : q = r
      · subst hq
        dsimp only
        rw [Function.update_self]
        rcases pending_handled hh with hsame | ⟨ht, hrequest⟩ | hresponse
        · rw [hsame]
          exact hrecords q
        · rw [hrequest]
          refine PendingTable.forall_handleRequest (hinterface q) (hrecords q) ?_
          intro x hkey hport h hfar
          rw [hport] at hfar
          rw [(Prod.mk.inj hkey).2]
          have hid := hrequests _ (List.mem_of_getElem? (Topology.getElem?_of_split hsplit)) ht
            q i h rfl hfar
          exact congrArg (fun octet : UInt8 => (octet.toNat : Int)) hid
        · rw [hresponse]
          exact PendingTable.forall_handleResponse (hinterface q) (hrecords q) _ _
      · dsimp only
        rw [Function.update_of_ne hq]
        exact hrecords q
    · intro x hx ht q j h hdest hfar
      rcases List.mem_append.mp hx with hx | hx
      · exact hrequests x (Topology.mem_of_split hsplit hx) ht q j h hdest hfar
      · -- what comes from a router comes in where that router is
        obtain ⟨j', -, hfar'⟩ := Topology.mem_send hx
        rw [hdest] at hfar'
        rw [T.symm hfar'] at hfar
        cases hfar
  | ends hsplit hh =>
    exact ⟨hrecords, fun x hx => hrequests x (Topology.mem_of_split hsplit hx)⟩
  | @hostReceive before after y packet hasFile hsplit =>
    refine ⟨hrecords, fun x hx ht => ?_⟩
    rcases List.mem_append.mp hx with hx | hx
    · exact hrequests x (Topology.mem_of_split hsplit hx) ht
    · unfold hostReply at hx
      split at hx
      · obtain rfl := List.mem_singleton.mp hx
        exact absurd ht (octets_type_ne (by decide))
      · exact absurd hx List.not_mem_nil
  | @expire r e he =>
    refine ⟨fun q => ?_, hrequests⟩
    by_cases hq : q = r
    · subst hq
      dsimp only
      rw [Function.update_self]
      exact PendingTable.forall_expire (hinterface q) (hrecords q) e
    · dsimp only
      rw [Function.update_of_ne hq]
      exact hrecords q

theorem reachable_addressed (hs : (network T returns fun _ => .empty).Reachable s) :
    Addressed T s := by
  refine hs.invariant ?_ fun s e s' => step_addressed
  intro s hs
  rw [hs]
  exact ⟨fun r x hx => absurd hx List.not_mem_nil, fun x hx => absurd hx List.not_mem_nil⟩

/-- **In a network that starts with empty tables, no request of `h` is ever
answered to `h` by a host with another ID**, whatever was requested before. -/
theorem not_answered_of_reachable (hs : (network T returns fun _ => .empty).Reachable s)
    (hroutes : T.Trail (routes c s.routers) (T.attach h).1 l y)
    (hID : T.hostID h ≠ T.hostID y) : ¬Answered T returns s h c := by
  intro hanswered
  obtain ⟨l', ht⟩ := trail_of_answered hroutes hID hanswered
  obtain ⟨x, p, hback, hfar⟩ := ht.exists_last
  have hget := Option.some.inj hback
  have hne : p ≠ -1 := by
    have := (T.in_range hfar).1
    omega
  obtain ⟨r, hr, hkey, hport⟩ := PendingTable.exists_record_of_get hget hne
  have hid := (reachable_addressed hs).records x r hr h (hport ▸ hfar)
  rw [(Prod.mk.inj hkey).2] at hid
  exact hID (UInt8.toNat.inj (Int.ofNat.inj hid)).symm

/-! ## Two routers -/

/-- The tables of the two routers with routes to host 11 for content 7, and
with records for `(7, 11)` that lead from it to host 10. -/
def lineRecords (r : Bool) : Router :=
  ⟨⟨[⟨7, 1, if r then 1 else 0, true⟩]⟩, ⟨[⟨7, 11, if r then 0 else 1, true, 0⟩], [], 0⟩⟩

theorem answered_lineRecords : Answered line (fun _ => false) ⟨lineRecords, [], []⟩ false 7 := by
  have hroutes : line.Trail (routes 7 lineRecords) (line.attach false).1 [false, true] true :=
    .hop rfl rfl (.last rfl rfl) (by decide)
  have hback : line.Trail (wayBack 7 (line.hostID true) lineRecords) (line.attach true).1
      [true, false] false :=
    .hop rfl rfl (.last rfl rfl) (by decide)
  exact (answered_iff hroutes (by decide)).mpr ⟨_, hback⟩

/-- Host 11 has announced content 7 to both routers. The request of host 10
goes along the routes, and its answer is dropped at the first router. -/
theorem line_not_answered :
    ∃ s, (network line (fun _ => false) fun _ => .empty).Reachable s ∧
      line.Trail (routes 7 s.routers) (line.attach false).1 [false, true] true ∧
      line.hostID false ≠ line.hostID true ∧ ¬Answered line (fun _ => false) s false 7 := by
  have htrace : Lts.trace (networkStep line fun _ => false) ⟨fun _ => .empty, [], []⟩
      [.announce true 7, .deliver 0, .deliver 0] = some (_, _) := rfl
  have hs := (Lts.run_of_trace htrace).reachable
  have hID : line.hostID false ≠ line.hostID true := by decide
  refine ⟨_, hs, ?_, hID, not_answered_of_no_record (l := [false, true]) ?_ hID rfl⟩
  · exact .hop rfl rfl (.last rfl rfl) (by decide)
  · exact .hop rfl rfl (.last rfl rfl) (by decide)

end ContentNetwork.Ambitious
