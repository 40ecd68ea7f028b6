import ContentNetwork.Network.Horizon

/-!
# What a host saves

From the file that one host reads to the file that another host writes, with
datagrams that are lost, repeated and overtaken. A host saves content only if
it has asked for it, and what it saves is made of a file that a host of the
same router has read for that very content: the file, the byte 0xff that the
read loop appends, and what the payload array holds behind it, up to the first
zero byte (`saved_genuine`). Responses with different contents are never mixed
up, nor cut; and what comes from the hosts of another router is never saved,
as long as no byte outside an array is touched.
-/

namespace ContentNetwork

open Lib Simplified

/-- A string is its cells up to the first zero byte. -/
theorem cString_eq_takeWhile {cells s : List UInt8} (h : Host.cString cells = some s) :
    s = cells.takeWhile (· ≠ 0) := by
  obtain ⟨hnot, rest, rfl⟩ := Host.cString_eq_some h
  have hall : ∀ c ∈ s, decide (c ≠ 0) = true :=
    fun c hc => decide_eq_true fun h0 => hnot (h0 ▸ hc)
  rw [List.takeWhile_append_of_pos hall]
  simp

/-- The payload that is received of a response. -/
theorem response_cells {H : Type*} {served : List (H × UInt8 × List UInt8)} {c h : UInt8}
    {file : List UInt8} {alloc : (n : Nat) → Buf UInt8 n} {port q : ReceivingPort}
    (hc : Carried served (Host.responseDatagram c h file))
    (hq : port.receivePacket alloc (Host.responseDatagram c h file) = some q) :
    ∃ residue, q.pkt_.payload_.cells = file ++ 0xff :: residue := by
  obtain ⟨a, rest, hheaded⟩ := hc.headed
  obtain ⟨hyields, hsize, -⟩ := hheaded.received hq
  obtain ⟨rfl, -⟩ := List.cons.inj hheaded.bytes_eq
  have hpayload : q.pkt_.payload_.cells.take q.pkt_.size_ = file ++ [0xff] := by
    rw [hyields.payload, hsize]
    rfl
  refine ⟨q.pkt_.payload_.cells.drop q.pkt_.size_, ?_⟩
  calc q.pkt_.payload_.cells
      = q.pkt_.payload_.cells.take q.pkt_.size_ ++ q.pkt_.payload_.cells.drop q.pkt_.size_ :=
        (List.take_append_drop ..).symm
    _ = file ++ 0xff :: q.pkt_.payload_.cells.drop q.pkt_.size_ := by
        rw [hpayload, List.append_assoc, List.singleton_append]

/-- What is saved of the response to a request. -/
theorem saved_of_response {H : Type*} {served : List (H × UInt8 × List UInt8)} {c h : UInt8}
    {file content : List UInt8} {alloc : (n : Nat) → Buf UInt8 n} {port q : ReceivingPort}
    (hc : Carried served (Host.responseDatagram c h file))
    (hq : port.receivePacket alloc (Host.responseDatagram c h file) = some q)
    (hsave : Host.saveResponse q.pkt_ = some content) :
    ∃ residue, content = (file ++ 0xff :: residue).takeWhile (· ≠ 0) := by
  obtain ⟨residue, hcells⟩ := response_cells hc hq
  refine ⟨residue, ?_⟩
  rw [← hcells]
  exact cString_eq_takeWhile hsave

namespace Network

variable {R H : Type*} [DecidableEq R] [DecidableEq H] {T : Topology R H}
  {s s' : WireState R H} {e : WireEvent R H}

namespace Topology

/-- What a host waits for it has asked for, and what it has saved comes from a
file of a host of its router. -/
structure SavedInv (T : Topology R H) (s : WireState R H) : Prop where
  waits : ∀ h, s.content_number h = -1 ∨
    ∃ c : UInt8, (h, c) ∈ s.asked ∧ s.content_number h = c.toNat
  saved : ∀ h c content, (h, c, content) ∈ s.saved → (h, c) ∈ s.asked ∧
    ∃ y file residue, (T.attach y).1 = (T.attach h).1 ∧ (y, c, file) ∈ s.served ∧
      content = (file ++ 0xff :: residue).takeWhile (· ≠ 0)

omit [DecidableEq R] [DecidableEq H] in
theorem SavedInv.of_eq (h : SavedInv T s) (hcontent : s'.content_number = s.content_number)
    (hasked : s'.asked = s.asked) (hserved : s'.served = s.served) (hsaved : s'.saved = s.saved) :
    SavedInv T s' := by
  refine ⟨?_, ?_⟩
  · rw [hcontent, hasked]
    exact h.waits
  · rw [hasked, hserved, hsaved]
    exact h.saved

omit [DecidableEq R] [DecidableEq H] in
/-- What a host saves when it receives a datagram: it waits for that content, and
the file was read at the same router. -/
theorem saves_file {x : H} {bytes content : List UInt8} {sent : List (List UInt8)}
    {q : ReceivingPort} {directory : Int → Option (List UInt8)} {mem : Host.Memory}
    {content_number : Int} (hc : Carried s.served bytes) (hlocal : Local T s ⟨.leaf x, bytes⟩)
    (hq : (s.port (.leaf x)).receivePacket mem.alloc' bytes = some q)
    (hr : Reacts directory content_number bytes q sent (some content)) :
    content_number = (octetsOf bytes).contentID.toNat ∧
      ∃ y file residue, (T.attach y).1 = (T.attach x).1 ∧
        (y, (octetsOf bytes).contentID, file) ∈ s.served ∧
        content = (file ++ 0xff :: residue).takeWhile (· ≠ 0) := by
  cases hr with
  | saves _ ht hcontent hsave =>
    refine ⟨hcontent.symm, ?_⟩
    obtain ⟨y, hrouter, c, id, file, hmem, rfl⟩ := hlocal ht
    obtain ⟨residue, hresidue⟩ := saved_of_response hc hq hsave
    exact ⟨y, file, residue, hrouter, hmem, hresidue⟩

omit [DecidableEq R] [DecidableEq H] in
/-- The octet that a host waits for it has asked for. -/
theorem SavedInv.asked {x : H} {c : UInt8} (h : SavedInv T s)
    (hwaits : s.content_number x = c.toNat) : (x, c) ∈ s.asked := by
  rcases h.waits x with hstart | ⟨c', hasked, hwaits'⟩
  · rw [hstart] at hwaits
    omega
  · rw [hwaits'] at hwaits
    obtain rfl : c' = c := UInt8.toNat_inj.mp (Int.ofNat.inj hwaits)
    exact hasked

theorem WireStep.savedInv (hstep : T.WireStep s e s') (hcarries : s.CarriesAll)
    (hi : HorizonInv T s) (h : SavedInv T s) : SavedInv T s' := by
  cases hstep with
  | announce x c mem => exact h.of_eq rfl rfl rfl rfl
  | request x c mem =>
    refine ⟨fun y => ?_, fun y c' content hmem => ?_⟩
    · by_cases hy : y = x
      · subst hy
        exact .inr ⟨c, List.mem_cons_self .., Function.update_self ..⟩
      · dsimp only
        rw [Function.update_of_ne hy]
        rcases h.waits y with hstart | ⟨c', hasked, hwaits⟩
        · exact .inl hstart
        · exact .inr ⟨c', List.mem_cons_of_mem _ hasked, hwaits⟩
    · obtain ⟨hasked, hfile⟩ := h.saved y c' content hmem
      exact ⟨List.mem_cons_of_mem _ hasked, hfile⟩
  | relay mem hs hhandle hout hsame => exact h.of_eq rfl rfl rfl rfl
  | throws mem hs hhandle => exact h.of_eq rfl rfl rfl rfl
  | @rx before after x bytes q sent saved directory mem hs hq hreacts =>
    have hc := hcarries _ (mem_split hs)
    refine ⟨h.waits, fun y c content hmem => ?_⟩
    have hgrow : ∀ e ∈ s.served, e ∈ (fileFor directory (octetsOf bytes)).toList.map
        (fun file => (x, (octetsOf bytes).contentID, file)) ++ s.served :=
      fun _ he => List.mem_append_right _ he
    rcases List.mem_append.mp hmem with hmem | hmem
    · obtain ⟨content', hsaved, heq⟩ := List.mem_map.mp hmem
      obtain rfl := Option.mem_toList.mp hsaved
      cases heq
      obtain ⟨hwaits, y', file, residue, hrouter, hserved, hcontent⟩ :=
        saves_file hc (hi.flight _ (mem_split hs)) hq hreacts
      exact ⟨h.asked hwaits, y', file, residue, hrouter, hgrow _ hserved, hcontent⟩
    · obtain ⟨hasked, y', file, residue, hrouter, hserved, hcontent⟩ := h.saved y c content hmem
      exact ⟨hasked, y', file, residue, hrouter, hgrow _ hserved, hcontent⟩
  | lose hs => exact h.of_eq rfl rfl rfl rfl
  | drop alloc hs hq => exact h.of_eq rfl rfl rfl rfl
  | duplicate hs => exact h.of_eq rfl rfl rfl rfl
  | timerPending hl => exact h.of_eq rfl rfl rfl rfl

/-- **What a host saves it has asked for, and it comes from a file of that
content that a host of the same router has read**, in every state that the wire
reaches. -/
theorem saved_genuine {port : Far R Int H → ReceivingPort} (hreach : (T.wire port).Reachable s)
    {h : H} {c : UInt8} {content : List UInt8} (hsaved : (h, c, content) ∈ s.saved) :
    (h, c) ∈ s.asked ∧ ∃ y file residue, (T.attach y).1 = (T.attach h).1 ∧
      (y, c, file) ∈ s.served ∧ content = (file ++ 0xff :: residue).takeWhile (· ≠ 0) := by
  have hinv : (s.CarriesAll ∧ HorizonInv T s) ∧ SavedInv T s := by
    refine hreach.invariant (I := fun s => (s.CarriesAll ∧ HorizonInv T s) ∧ SavedInv T s) ?_ ?_
    · intro s hs
      refine ⟨reachable_horizonInv (.init hs), ?_⟩
      obtain rfl : s = _ := hs
      exact ⟨fun _ => .inl rfl, fun _ _ _ hmem => absurd hmem List.not_mem_nil⟩
    · intro s e s' hinv hstep
      obtain ⟨⟨hcarries, hi⟩, hs⟩ := hinv
      have hcases := wireStep_cases hcarries hstep
      exact ⟨⟨hcases.carriesAll hcarries, hcases.horizonInv hi⟩, hcases.savedInv hcarries hi hs⟩
  exact hinv.2.saved h c content hsaved

end Topology

theorem saved_genuine_hub : ∃ s : WireState Unit Bool,
    hubWire.Reachable s ∧ (false, 7, [0x41, 0xff]) ∈ s.saved ∧ (false, 7) ∈ s.asked ∧
      ∃ y file residue, (hub.attach y).1 = (hub.attach false).1 ∧ (y, 7, file) ∈ s.served ∧
        [0x41, 0xff] = (file ++ 0xff :: residue).takeWhile (· ≠ 0) := by
  obtain ⟨ms, s, hrun, hsaved⟩ := exists_hubRun
  have hmem : (false, 7, [0x41, 0xff]) ∈ s.saved := by
    rw [hsaved]
    exact List.mem_singleton_self _
  exact ⟨s, hrun.reachable, hmem, Topology.saved_genuine hrun.reachable hmem⟩

end Network

end ContentNetwork
