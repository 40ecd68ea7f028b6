import ContentNetwork.Host.Resending
import ContentNetwork.Network.Available

/-!
# What hosts get by themselves

Each host of the system is a run of the machine of `Host.Resending`: of all
that happens only its user's `GET`s, its timers and the responses that come to
it touch its slots (`run_hosts`). So a host that waits for a content has a timer
that sleeps, and the request that this timer will send.

That is what the timers are for. Whatever has been lost, also if the router has
forgotten the content or never heard of it, no user has to type anything again:
as long as a host of the same router lists the content, the one that waits can
still get it (`system_recovers`). The host must list nothing else, as a second
announcement would not fit into its header, and the pointer of `FNgenerator` has
to read the name of the file.
-/

namespace ContentNetwork.Network

open Lib Lib.Lts Simplified

variable {R H : Type*} [DecidableEq R] [DecidableEq H]

/-- What host `x` hears of a datagram. -/
def heard (x : H) (d : Datagram R H) : Option Host.HostAction :=
  if d.dest = .leaf x ∧ PacketTypes.ofOctet (octetsOf d.bytes).packetType = some .RESPONSE then
    some (.RESPONSE (octetsOf d.bytes).contentID)
  else none

/-- What happens to the slots of host `x` when the system makes a move. -/
def hostAction (x : H) (m : Move (SystemState R H) (SystemEvent R H)) :
    Option Host.HostAction :=
  match m.act with
  | .GET h var1 _ => if h = x then some (.GET var1) else none
  | .expire h thread => if h = x then some (.expire thread) else none
  | .rx k _ => m.pre.wire.inFlight[k]?.bind (heard x)
  | _ => none

variable {T : Topology R H} {files : H → Int → Option (List UInt8)}
  {disk : H → String → Option (List UInt8)} {FName : H → Int → Host.NameRead}
  {u u' : SystemState R H}
  {a : SystemEvent R H} {x y : H} {c : UInt8}

namespace Topology

omit [DecidableEq R] in
/-- One host changes. -/
theorem slots_modify {h : H} {f : HostProcess → HostProcess} {b : Option Host.HostAction}
    (hother : h ≠ x → b = none)
    (hself : h = x → (b = none ∧ (f (u.hosts x)).slots = (u.hosts x).slots) ∨
      ∃ b', b = some b' ∧
        Host.hostStep (T.hostID x).toNat (u.hosts x).slots b' = some (f (u.hosts x)).slots) :
    (b = none ∧ ((u.modify h f).hosts x).slots = (u.hosts x).slots) ∨
      ∃ b', b = some b' ∧ Host.hostStep (T.hostID x).toNat (u.hosts x).slots b'
        = some ((u.modify h f).hosts x).slots := by
  by_cases hx : h = x
  · subst hx
    rw [SystemState.modify_self]
    exact hself rfl
  · rw [SystemState.modify_of_ne (Ne.symm hx)]
    exact .inl ⟨hother hx, rfl⟩

/-- A command of the user, a timer or a response changes the slots of its own
host, as the machine says, and nothing else changes any. -/
theorem SystemStep.slots (hstep : T.SystemStep files u a u') (x : H) :
    (hostAction x ⟨u, a, u'⟩ = none ∧ (u'.hosts x).slots = (u.hosts x).slots) ∨
      ∃ b, hostAction x ⟨u, a, u'⟩ = some b ∧
        Host.hostStep (T.hostID x).toNat (u.hosts x).slots b = some (u'.hosts x).slots := by
  cases hstep with
  | PUT h cID behindEnd => exact slots_modify (fun _ => rfl) fun _ => .inl ⟨rfl, rfl⟩
  | DEL h var1 => exact slots_modify (fun _ => rfl) fun _ => .inl ⟨rfl, rfl⟩
  | @GET h var1 mem w hw =>
    refine slots_modify (fun hne => if_neg hne) fun heq => .inr ⟨.GET var1, if_pos heq, ?_⟩
    subst heq
    rfl
  | @expire h thread slots sent hin htimer =>
    refine slots_modify (h := h) (f := fun p => { p with slots := slots })
      (fun hne => if_neg hne) fun heq => .inr ⟨.expire thread, if_pos heq, ?_⟩
    subst heq
    rw [Host.hostStep, if_pos hin, htimer]
  | idle mem hnil => exact .inl ⟨rfl, rfl⟩
  | bcast hone hw => exact .inl ⟨rfl, rfl⟩
  | @rx k h bytes mem w hk hw =>
    have haction : ∀ u'', hostAction x ⟨u, .rx k mem, u''⟩
        = heard x (⟨.leaf h, bytes⟩ : Datagram R H) := by
      intro u''
      show u.wire.inFlight[k]?.bind (heard x) = _
      rw [hk]
      rfl
    rw [haction]
    refine slots_modify (h := h) (f := (·.received (octetsOf bytes)))
      (fun hne => if_neg fun hboth => hne (Far.leaf.inj hboth.1)) fun heq => ?_
    subst heq
    unfold heard HostProcess.received
    by_cases ht : PacketTypes.ofOctet (octetsOf bytes).packetType = some .RESPONSE
    · rw [if_pos ⟨rfl, ht⟩, if_pos ht]
      exact .inr ⟨_, rfl, rfl⟩
    · rw [if_neg fun hboth => ht hboth.2, if_neg ht]
      exact .inl ⟨rfl, rfl⟩
  | @onWire _ e w ha hw =>
    refine .inl ⟨?_, rfl⟩
    cases a with
    | GET => cases ha
    | expire => cases ha
    | rx => cases ha
    | _ => rfl
  | timerRouting hl => exact .inl ⟨rfl, rfl⟩

variable {port : Far R Int H → ReceivingPort} {ackflag : H → Bool}
  {ms : List (Move (SystemState R H) (SystemEvent R H))}

/-- What happens to host `x` is a run of the machine. -/
theorem run_hosts (hrun : (T.system files port ackflag).Run ms u) (x : H) :
    ∃ ms', (Host.hostLts (T.hostID x).toNat (ackflag x)).Run ms' (u.hosts x).slots ∧
      ms'.map Move.act = ms.filterMap (hostAction x) := by
  refine hrun.project (fun u => (u.hosts x).slots) ?_ ?_
  · intro u hu
    obtain rfl : u = _ := hu
    rfl
  · intro u a u' hreach hs
    obtain ⟨acts, hinv⟩ := reachable_systemInv hreach
    exact (systemStep_cases hinv.wire.carries hs).slots x

/-- A timer that sleeps at a host that waits may send the request again. -/
theorem leads_resent (hempty : u.wire.inFlight = [])
    (hr : Host.Remembers (T.hostID x).toNat (u.hosts x).slots (some c.toNat)) :
    ∃ u', (T.unattended files port ackflag).Leads u u' ∧ u'.wire.tables = u.wire.tables ∧
      u'.wire.content_number = u.wire.content_number ∧
      u'.wire.inFlight = [T.datagramFrom x [3, PacketTypes.REQUEST.octet, c, T.hostID x]] := by
  obtain ⟨-, -, -, hin⟩ := hr.waiting _ rfl
  obtain ⟨slots, htimer⟩ : ∃ slots, (u.hosts x).slots.timerProc (u.hosts x).slots.tid_
      = (slots, [Host.HostState.requestFor (T.hostID x).toNat c.toNat]) :=
    ⟨_, Host.timerProc_eq hr hin⟩
  let u₁ : SystemState R H := { u.modify x fun p => { p with slots := slots } with
    wire := { u.wire with
      inFlight := [T.datagramFrom x [3, PacketTypes.REQUEST.octet, c, T.hostID x]] } }
  have hexpire : T.systemStep files u (.expire x (u.hosts x).slots.tid_) = some u₁ := by
    simp only [systemStep, if_pos hin, htimer, hempty, List.nil_append, List.map_cons,
      List.map_nil, Host.HostState.requestFor, ofInt_toNat]
    rfl
  exact ⟨u₁, .step .refl ⟨id, hexpire⟩, rfl, rfl, rfl⟩

/-- The content is announced, the timer sends the request again, and the other
host answers. -/
theorem leads_recovered (hfiles : Servable files)
    (hid : ∀ z, (T.attach z).1 = (T.attach x).1 → T.hostID z = T.hostID x → z = x)
    (hrouter : (T.attach y).1 = (T.attach x).1)
    (hrun : (T.system files port ackflag).Run ms u)
    (hlist1 : (u.hosts y).list1 = [(c.toNat : Int)])
    (hwaits : Host.waitsFor (ms.filterMap (hostAction x)) = some (c.toNat : Int)) :
    ∃ u', (T.unattended files port ackflag).Leads u u' ∧ T.Arrives files x c u' := by
  obtain ⟨ms', hrun', hacts⟩ := run_hosts hrun x
  obtain ⟨hr, -⟩ := Host.run_remembers hrun'
  rw [hacts, hwaits] at hr
  obtain ⟨u₁, hleads₁, hhosts, hempty, hknown⟩ := leads_known hrun.reachable hlist1
  rw [hrouter] at hknown
  rw [← hhosts] at hr
  obtain ⟨u₂, hleads₂, htables, hcontent, hflight⟩ := leads_resent hempty hr
  have hleads := hleads₁.trans hleads₂
  -- the host waits in both senses
  obtain ⟨acts, hinv⟩ := reachable_systemInv (hrun.reachable.leads hleads₁.of_guard)
  have hwaits₂ : u₂.wire.content_number x = c.toNat := by
    rw [hcontent, ← hinv.obeys.agrees x]
    exact (hr.waiting _ rfl).1
  rw [← htables] at hknown
  obtain ⟨u₃, hleads₃, harrives⟩ :=
    leads_arrives hfiles hid (hrun.reachable.leads hleads.of_guard) hflight hwaits₂ hknown
  exact ⟨u₃, hleads.trans hleads₃, harrives⟩

/-- **The system recovers by itself.** A host that waits for a content can get it
without any command, if a host of the same router lists that content alone, from
every state that the system reaches, whatever has been lost, repeated or
forgotten, if the pointer reads the names of the files. -/
theorem system_recovers (hname : ∀ y index, (FName y index).file = Host.FNgenerator index true)
    (hfiles : Servable (contentFiles disk))
    (hid : ∀ z, (T.attach z).1 = (T.attach x).1 → T.hostID z = T.hostID x → z = x)
    (hrouter : (T.attach y).1 = (T.attach x).1)
    (hrun : (T.system (opened disk FName) port ackflag).Run ms u)
    (hlist1 : (u.hosts y).list1 = [(c.toNat : Int)])
    (hwaits : Host.waitsFor (ms.filterMap (hostAction x)) = some (c.toNat : Int)) :
    ∃ u', (T.unattended (opened disk FName) port ackflag).Leads u u' ∧
      T.Arrives (opened disk FName) x c u' := by
  rw [opened_eq hname] at hrun ⊢
  exact leads_recovered hfiles hid hrouter hrun hlist1 hwaits

end Topology

/-- The request of host `false` is lost before anything has been announced. -/
theorem system_recovers_hub : ∃ ms u, hubNamed.Run ms u ∧
    Host.waitsFor (ms.filterMap (hostAction false)) = some 7 ∧
    ∃ u', (hub.unattended (opened theDisk intactNames) (fun _ => Host.zeroPort)
      fun _ => false).Leads u u' ∧ hub.Arrives (opened theDisk intactNames) false 7 u' := by
  have hwaits : (Lts.trace (hub.systemStep (opened theDisk intactNames))
      ⟨⟨fun _ => .empty, fun _ => Host.zeroPort, fun _ => -1, [], [], [], [], []⟩,
        fun _ => ⟨[], .start false⟩⟩
      [.PUT true 7 0, .GET false 7 Host.zeroMemory, .deliver 0 zeroRouterMemory]).map
        (fun r => ((r.2.hosts true).list1, Host.waitsFor (r.1.filterMap (hostAction false))))
        = some ([7], some 7) := by
    decide +kernel
  obtain ⟨⟨ms, u⟩, htrace, hu⟩ := Option.map_eq_some_iff.mp hwaits
  obtain ⟨hlist1, hwaits⟩ := Prod.mk.inj hu
  have hrun : hubNamed.Run ms u := Lts.run_of_trace htrace
  have hid : ∀ z, (hub.attach z).1 = (hub.attach false).1 →
      hub.hostID z = hub.hostID false → z = false := by
    decide
  exact ⟨ms, u, hrun, hwaits, Topology.system_recovers (y := true) (fun _ _ => rfl)
    theDisk_servable hid rfl hrun hlist1 hwaits⟩

end ContentNetwork.Network
