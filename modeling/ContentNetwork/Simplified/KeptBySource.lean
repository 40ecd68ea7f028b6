import ContentNetwork.Simplified.TableInv

/-!
# Who keeps a route alive

A routing record names the interface and the hop count of the announcement it
was adopted from, and it lives as long as announcements put its ttl back. A
record should be kept alive only by its own source: announcements from that
interface with that hop count. `case ANNOUNCEMENT` however puts the ttl back
before it compares hop counts, so that any announcement of the content does,
from any interface and with any hop count.

The history variable `SetBy` remembers, for each content ID, interface and
hop count of the announcement that last set the ttl of its record.
`run_keptBySource_iff` says exactly when every record of a run is kept by its
source: when no announcement that is committed has more hops than the record
it finds. In `kept_by_farther` a route outlives its silent source.
-/

namespace ContentNetwork.Simplified

open Lib Lib.Lts

/-- Interface and hop count of the announcement that last set the ttl of the
record for a content ID. -/
abbrev SetBy := Int → Option (Int × Int)

/-- The locked section of an announcement sets the ttl of its content's
record, unless it finds no record to replace. -/
def SetBy.update (g : SetBy) (s : RouterState) (a : Action) : SetBy :=
  match a, s.main with
  | .commit, .commit p_message (.announcement flag record_test_rt) =>
    if flag = true ∧
        (Keyed.lookup RTrecord.cID record_test_rt.cID s.shared.RoutingTable).isNone then g
    else Function.update g record_test_rt.cID
      (some (p_message._RxInterface_Num, p_message._recvPacket.hostOrHops))
  | _, _ => g

/-- The router with that history. -/
def setByRouter (n : Nat) : Lts (RouterState × SetBy) Action :=
  (router n).observe (fun _ => none) SetBy.update

/-- Every run of the router is one with that history beside it. -/
theorem exists_setByRun {n : Nat} {ms : List (Move RouterState Action)} {s : RouterState}
    (h : (router n).Run ms s) :
    ∃ ms' g, (setByRouter n).Run ms' (s, g) ∧ ms'.map forget = ms :=
  h.exists_observe ..

/-- Every record's ttl was last set by an announcement with its own interface
and hop count. -/
def KeptBySource (s : RouterState × SetBy) : Prop :=
  ∀ r ∈ s.1.shared.RoutingTable, s.2 r.cID = some (r.interface, r.num_hops)

/-- An announcement that is committed has no more hops than the shared record
of its content. -/
def NoFarther (m : Move (RouterState × SetBy) Action) : Prop :=
  ∀ msg ∈ commitOf ⟨m.pre.1, m.act, m.post.1⟩,
    PacketTypes.ofOctet msg._recvPacket.packetType = some .ANNOUNCEMENT →
      ∀ r ∈ m.pre.1.shared.RoutingTable, r.cID = msg._recvPacket.ContentID →
        msg._recvPacket.hostOrHops ≤ r.num_hops

instance (s : RouterState × SetBy) : Decidable (KeptBySource s) :=
  inferInstanceAs (Decidable (∀ r ∈ s.1.shared.RoutingTable, _))

instance : DecidablePred NoFarther := fun m =>
  inferInstanceAs (Decidable (∀ msg ∈ commitOf ⟨m.pre.1, m.act, m.post.1⟩, _ → _))

/-! ## The copies agree with the shared table -/

/-- A copied record and a shared record of one content have the same interface
and hop count. -/
def Agree (cache shared : List RTrecord) : Prop :=
  ∀ x ∈ cache, ∀ r ∈ shared, x.cID = r.cID →
    x.interface = r.interface ∧ x.num_hops = r.num_hops

/-- A timer pass changes neither field. -/
theorem Agree.timer {cache t t' : List RTrecord} (h : Agree cache t)
    (ht : timerRouting t = some t') : Agree cache t' := by
  intro x hx r' hr' hc
  rcases mem_timerPass ht r' hr' with hr | ⟨r, hr, rfl, -⟩
  · exact h x hx r' hr hc
  · exact h x hx r hr hc

/-- The loop invariant, with copies that agree. -/
structure AgreeInv (n : Nat) (s : RouterState) : Prop extends LoopInv n s where
  agree : Agree s.cache.RoutingTable s.shared.RoutingTable

/-- Only main changes interfaces and hop counts, and it clears its copies when
it does; so old and new copies agree with the shared table. -/
theorem step_agreeInv {n : Nat} {s s' : RouterState} {a : Action} (hi : AgreeInv n s)
    (h : step n s a = some s') : AgreeInv n s' := by
  refine ⟨step_loopInv hi.toLoopInv h, ?_⟩
  have hagree := hi.agree
  cases step_cases h with
  | copyPending => exact hagree
  | copyRouting =>
    intro x hx r hr hc
    rcases List.mem_append.mp hx with hx | hx
    · exact hagree x hx r hr hc
    · obtain rfl := hi.shared.routing_unique.eq_of_key hx hr hc
      exact ⟨rfl, rfl⟩
  | idle => exact hagree
  | dispatch => exact hagree
  | throws => exact hagree
  | commit =>
    intro x hx
    exact absurd hx List.not_mem_nil
  | timerRouting _ ht => exact hagree.timer ht
  | timerPending => exact hagree

theorem reachable_agreeInv {n : Nat} {s : RouterState} (h : (router n).Reachable s) :
    AgreeInv n s := by
  refine h.invariant ?_ ?_
  · intro s hs
    rw [hs]
    refine ⟨start_loopInv n, ?_⟩
    intro x hx
    exact absurd hx List.not_mem_nil
  · intro s a s' hi hs
    exact step_agreeInv hi hs

/-! ## One commit -/

section Commit

variable {n : Nat} {cache t : Tables} {msg : Message} {sent : List Sent} {work : Work}

/-- The record an announcement leaves is the announcement's own exactly when
the record it found is no shorter. -/
theorem announcedRecord_own_iff :
    ((announcedRecord cache msg).interface = msg._RxInterface_Num ∧
        (announcedRecord cache msg).num_hops = msg._recvPacket.hostOrHops)
      ↔ ∀ x, Keyed.lookup RTrecord.cID msg._recvPacket.ContentID cache.RoutingTable = some x →
          msg._recvPacket.hostOrHops ≤ x.num_hops := by
  constructor
  · intro h x hx
    by_contra hlt
    obtain ⟨hhops, -, -⟩ := @adoptAnnouncement_of_lt x msg._recvPacket.ContentID
      msg._recvPacket.hostOrHops msg._RxInterface_Num (Int.not_le.mp hlt)
    unfold announcedRecord at h
    rw [hx, hhops] at h
    exact hlt (Int.le_of_eq h.2.symm)
  · intro hle
    obtain ⟨hhops, hinterface, -⟩ := @adoptAnnouncement_of_le _ msg._recvPacket.ContentID
      msg._recvPacket.hostOrHops msg._RxInterface_Num hle
    exact ⟨hinterface, hhops⟩

/-- A table of kept records with a record for a new content behind them is
kept exactly when that record's announcement is its own. -/
theorem kept_push_iff {g : SetBy} {l : List RTrecord} {rec : RTrecord} {v : Int × Int}
    (hl : ∀ r ∈ l, g r.cID = some (r.interface, r.num_hops))
    (hne : ∀ r ∈ l, r.cID ≠ rec.cID) :
    (∀ r ∈ l ++ [rec], Function.update g rec.cID (some v) r.cID
        = some (r.interface, r.num_hops))
      ↔ rec.interface = v.1 ∧ rec.num_hops = v.2 := by
  constructor
  · intro h
    have hrec := h rec List.mem_concat_self
    rw [Function.update_self] at hrec
    obtain rfl := Option.some.inj hrec
    exact ⟨rfl, rfl⟩
  · intro h r hr
    obtain ⟨hi, hh⟩ := h
    rcases List.mem_append.mp hr with hr | hr
    · rw [Function.update_of_ne (hne r hr)]
      exact hl r hr
    · obtain rfl := List.mem_singleton.mp hr
      rw [Function.update_self, hi, hh]

/-- The locked section of an announcement keeps every record with its source
exactly when the shared record of its content has no fewer hops. -/
theorem announcement_kept_iff_le {g : SetBy} {t : List RTrecord}
    (hu : Keyed.Unique RTrecord.cID t) (hagree : Agree cache.RoutingTable t)
    (hcov : ∀ r ∈ t, ∃ x ∈ cache.RoutingTable, x.cID = r.cID)
    (hkept : ∀ r ∈ t, g r.cID = some (r.interface, r.num_hops)) :
    let found := Keyed.lookup RTrecord.cID msg._recvPacket.ContentID cache.RoutingTable
    let record := announcedRecord cache msg
    (∀ r ∈ commitAnnouncement found.isSome record t,
        (if found.isSome = true ∧ (Keyed.lookup RTrecord.cID record.cID t).isNone then g
          else Function.update g record.cID
            (some (msg._RxInterface_Num, msg._recvPacket.hostOrHops))) r.cID
          = some (r.interface, r.num_hops))
      ↔ ∀ r ∈ t, r.cID = msg._recvPacket.ContentID → msg._recvPacket.hostOrHops ≤ r.num_hops := by
  intro found record
  have hown := @announcedRecord_own_iff cache msg
  have hcID : record.cID = msg._recvPacket.ContentID := announcedRecord_cID
  cases hf : found with
  | none =>
    -- no copy, hence no shared record: the new record is the announcement's own
    have hnew : ∀ r ∈ t, r.cID ≠ record.cID := by
      intro r hr he
      obtain ⟨x, hx, hxr⟩ := hcov r hr
      exact Keyed.lookup_eq_none.mp hf x hx (hxr.trans (he.trans hcID))
    simp only [Option.isSome_none, Bool.false_eq_true, false_and, if_false, commitAnnouncement]
    rw [kept_push_iff hkept hnew]
    refine ⟨fun _ r hr hc => absurd (hc.trans hcID.symm) (hnew r hr), fun _ => ?_⟩
    refine hown.mpr fun x hx => ?_
    exact absurd (hf.symm.trans hx) (by simp)
  | some x =>
    have hx := Keyed.lookup_mem hf
    have hxc := Keyed.lookup_key hf
    simp only [Option.isSome_some, true_and, if_true, commitAnnouncement]
    cases hr₀ : Keyed.lookup RTrecord.cID record.cID t with
    | none =>
      -- the shared record is gone: nothing is pushed and nothing is set
      simp only [Option.isSome_none, Option.isNone_none, Bool.false_eq_true, if_false, if_true]
      refine ⟨fun _ r hr hc => ?_, fun _ => hkept⟩
      exact absurd (hc.trans hcID.symm) (Keyed.lookup_eq_none.mp hr₀ r hr)
    | some r₀ =>
      have hr₀t := Keyed.lookup_mem hr₀
      have hr₀c := Keyed.lookup_key hr₀
      have hhops : x.num_hops = r₀.num_hops :=
        (hagree x hx r₀ hr₀t (hxc.trans (hcID.symm.trans hr₀c.symm))).2
      simp only [Option.isSome_some, Option.isNone_some, Bool.false_eq_true, if_false, if_true]
      rw [Keyed.replace, kept_push_iff (fun r hr => hkept r (List.mem_of_mem_eraseP hr))
        (Keyed.key_ne_of_mem_erase hu)]
      constructor
      · intro h r hr hc
        have hle := hown.mp h x hf
        obtain rfl := hu.eq_of_key hr hr₀t (hc.trans (hcID.symm.trans hr₀c.symm))
        exact hhops ▸ hle
      · intro h
        refine hown.mpr fun y hy => ?_
        obtain rfl := Option.some.inj (hf.symm.trans hy)
        rw [hhops]
        exact h r₀ hr₀t (hr₀c.trans hcID)

end Commit

/-! ## Every run -/

/-- Only a commit can be of an announcement with more hops. -/
theorem noFarther_of_ne {m : Move (RouterState × SetBy) Action} (h : m.act ≠ .commit) :
    NoFarther m := by
  intro msg hmsg
  exact absurd (commitOf_eq_some hmsg).1 h

/-- One move from a state whose records are all kept by their source. -/
theorem move_keptBySource_iff {n : Nat} {m : Move (RouterState × SetBy) Action}
    (hpre : (setByRouter n).Reachable m.pre) (hs : (setByRouter n).step m.pre m.act m.post)
    (hkept : KeptBySource m.pre) : KeptBySource m.post ↔ NoFarther m := by
  obtain ⟨⟨s, g⟩, a, ⟨s', g'⟩⟩ := m
  obtain ⟨hstep, hg⟩ := hs
  have hinv := reachable_agreeInv (observe_reachable hpre)
  dsimp only at hstep hg hinv hpre
  subst hg
  cases step_cases hstep with
  | copyPending => exact iff_of_true hkept (noFarther_of_ne (by simp))
  | copyRouting => exact iff_of_true hkept (noFarther_of_ne (by simp))
  | idle => exact iff_of_true hkept (noFarther_of_ne (by simp))
  | dispatch => exact iff_of_true hkept (noFarther_of_ne (by simp))
  | throws => exact iff_of_true hkept (noFarther_of_ne (by simp))
  | timerPending => exact iff_of_true hkept (noFarther_of_ne (by simp))
  | timerRouting _ ht =>
    refine iff_of_true ?_ (noFarther_of_ne (by simp))
    intro r' hr'
    rcases mem_timerPass ht r' hr' with hr | ⟨r, hr, rfl, -⟩
    · exact hkept r' hr
    · exact hkept r hr
  | @commit msg work hmain =>
    have hpc := hinv.atPc
    rw [hmain] at hpc
    obtain ⟨-, hcov, -, sent, hd⟩ := hpc
    have hmsg : ∀ msg', msg' ∈ commitOf ⟨s, .commit,
        { s with shared := work.commit s.shared, cache := .empty, main := .copyPending }⟩
          ↔ msg' = msg := by
      intro msg'
      simp [commitOf, hmain, eq_comm]
    simp only [NoFarther, hmsg, forall_eq]
    rcases dispatch_cases hd with ⟨ht, hreq⟩ | ⟨ht, hresp⟩ | ⟨ht, hann⟩ | ⟨ht, -, rfl⟩
    · obtain rfl := requestCase_work hreq
      simp only [ht, SetBy.update, hmain]
      exact iff_of_true hkept (by simp)
    · obtain rfl := responseCase_work hresp
      simp only [ht, SetBy.update, hmain]
      exact iff_of_true hkept (by simp)
    · obtain rfl := announcementCase_work hann
      simp only [ht, true_implies]
      have hiff := @announcement_kept_iff_le s.cache msg g s.shared.RoutingTable
        hinv.shared.routing_unique hinv.agree hcov hkept
      simp only [KeptBySource, SetBy.update, hmain]
      exact hiff
    · simp only [ht, SetBy.update, hmain]
      exact iff_of_true hkept (by simp)

/-- **Every record of every state of a run is kept alive by its own source iff
no announcement that is committed has more hops than the record it finds.** -/
theorem run_keptBySource_iff {n : Nat} {ms : List (Move (RouterState × SetBy) Action)}
    {s : RouterState × SetBy} (h : (setByRouter n).Run ms s) :
    (∀ m ∈ ms, KeptBySource m.post) ↔ ∀ m ∈ ms, NoFarther m := by
  refine h.forall_post_iff ?_ fun _ => move_keptBySource_iff
  intro s hs r hr
  obtain ⟨s, g⟩ := s
  obtain ⟨rfl, rfl⟩ := hs
  exact absurd hr List.not_mem_nil

/-- An announcement of content 7 with one hop on interface 0, two timer
passes, an announcement with five hops on interface 1, and two more passes. -/
def fartherAnnouncement : List Action :=
  [.copyPending, .copyRouting, .dispatch (received .ANNOUNCEMENT 7 1 0), .commit,
    .timerRouting, .timerPending, .timerRouting, .timerPending,
    .copyPending, .copyRouting, .dispatch (received .ANNOUNCEMENT 7 5 1), .commit,
    .timerRouting, .timerPending, .timerRouting]

/-- The route over interface 0 is still there after four passes, though its
source was silent for all of them. -/
theorem kept_by_farther :
    ∃ ms s, (setByRouter 2).Run ms s ∧ s.1.shared.RoutingTable = [⟨7, 0, 1, 5⟩] ∧
      s.2 7 = some (1, 5) ∧ ¬∀ m ∈ ms, KeptBySource m.post := by
  have h : trace (observeStep (step 2) SetBy.update) (.start, fun _ => none) fartherAnnouncement
      = some (_, _) := rfl
  exact ⟨_, _, observe_run_of_trace h, rfl, rfl, by decide⟩

/-- With two hops less the second announcement takes the route over. -/
theorem kept_by_nearer :
    ∃ ms s, (setByRouter 2).Run ms s ∧ s.1.shared.RoutingTable = [⟨7, 1, 1, 25⟩] ∧
      ∀ m ∈ ms, KeptBySource m.post := by
  have h : trace (observeStep (step 2) SetBy.update) (.start, fun _ => none)
      [.copyPending, .copyRouting, .dispatch (received .ANNOUNCEMENT 7 3 0), .commit,
        .timerRouting, .timerPending,
        .copyPending, .copyRouting, .dispatch (received .ANNOUNCEMENT 7 1 1), .commit]
      = some (_, _) := rfl
  have hrun := observe_run_of_trace h
  exact ⟨_, _, hrun, rfl, (run_keptBySource_iff hrun).mpr (by decide)⟩

end ContentNetwork.Simplified
