import ContentNetwork.Simplified.Expiry

/-!
# How long a record lives

A pass of the timer takes 10 from one record only, the first that does not
expire in it. So a record waits for all those in front of it. Each record
survives `credit` passes at the front, and what is summed up to a record,
`creditTo`, is exactly how many passes that record has left while no record is
added (`run_survives_iff`).

An announcement pushes its record to the back, new or known. Nothing comes to
stand in front of a record that was not there before, so no announcement of
another content raises its `creditTo` (`step_routing_credit`): the bound stays
a bound, and a content that is announced no more is forgotten.
-/

namespace ContentNetwork.Simplified

open Lib Lib.Lts

/-! ## Passes a record has left -/

section Credit

variable {ρ κ : Type*} [DecidableEq κ] (ttl : ρ → Int) (key : ρ → κ) (k : κ)

/-- The passes a record survives at the front of the table. -/
def credit (r : ρ) : Nat := ((ttl r - 1) / 10).toNat

/-- The passes that a record with key `k` survives: its own and those of the
records in front of it. -/
def creditTo : List ρ → Nat
  | [] => 0
  | r :: rest => if k ∈ (r :: rest).map key then credit ttl r + creditTo rest else 0

variable {ttl key k} {r : ρ} {l l' : List ρ} {age : ρ → ρ}

theorem creditTo_cons_of_mem (h : k ∈ (r :: l).map key) :
    creditTo ttl key k (r :: l) = credit ttl r + creditTo ttl key k l := if_pos h

theorem creditTo_of_not_mem (h : k ∉ l.map key) : creditTo ttl key k l = 0 := by
  cases l with
  | nil => rfl
  | cons r l => exact if_neg h

/-- The records behind the last one with key `k` do not count. -/
theorem creditTo_push (hr : key r ≠ k) : creditTo ttl key k (l ++ [r]) = creditTo ttl key k l := by
  induction l with
  | nil =>
    refine creditTo_of_not_mem fun h => ?_
    exact hr (List.mem_singleton.mp h).symm
  | cons y ys ih =>
    by_cases hk : k ∈ (y :: ys).map key
    · have hk' : k ∈ (y :: (ys ++ [r])).map key :=
        List.map_subset key (List.cons_subset_cons y (List.subset_append_left ys [r])) hk
      rw [List.cons_append, creditTo_cons_of_mem hk, creditTo_cons_of_mem hk', ih]
    · rw [creditTo_of_not_mem hk]
      refine creditTo_of_not_mem fun hk' => hk ?_
      obtain ⟨x, hx, hxk⟩ := List.mem_map.mp hk'
      rcases List.mem_append.mp hx with hx | hx
      · exact hxk ▸ List.mem_map_of_mem hx
      · exact absurd (List.mem_singleton.mp hx ▸ hxk) hr

/-- Fewer records in front, fewer passes. -/
theorem creditTo_sublist (h : l'.Sublist l) : creditTo ttl key k l' ≤ creditTo ttl key k l := by
  induction h with
  | slnil => exact le_rfl
  | @cons l' l y h ih =>
    by_cases hk : k ∈ (y :: l).map key
    · rw [creditTo_cons_of_mem hk]
      exact Nat.le_add_left_of_le ih
    · rw [creditTo_of_not_mem fun hk' => hk (List.mem_cons_of_mem _ ((h.map key).subset hk'))]
      exact Nat.zero_le _
  | @cons_cons l' l y h ih =>
    by_cases hk : k ∈ (y :: l').map key
    · have hk' : k ∈ (y :: l).map key := ((h.cons_cons y).map key).subset hk
      rw [creditTo_cons_of_mem hk, creditTo_cons_of_mem hk']
      exact Nat.add_le_add_left ih _
    · rw [creditTo_of_not_mem hk]
      exact Nat.zero_le _

/-- Moving another record to the back takes nothing away from `k`. -/
theorem creditTo_replace (hr : key r ≠ k) :
    creditTo ttl key k (Keyed.replace key r l) ≤ creditTo ttl key k l := by
  rw [Keyed.replace, creditTo_push hr]
  exact creditTo_sublist List.eraseP_sublist

/-- Records that expire in the next pass count for nothing. -/
theorem credit_of_expiring (hage : ∀ r, ttl (age r) = ttl r - 10) (h : ttl (age r) ≤ 0) :
    credit ttl r = 0 := by
  rw [hage] at h
  unfold credit
  omega

theorem credit_of_surviving (hage : ∀ r, ttl (age r) = ttl r - 10) (h : 0 < ttl (age r)) :
    credit ttl r = credit ttl (age r) + 1 := by
  rw [hage] at h
  unfold credit
  rw [hage]
  omega

theorem creditTo_append_of_expiring {gone : List ρ} (hgone : ∀ r ∈ gone, credit ttl r = 0) :
    creditTo ttl key k (gone ++ l) = creditTo ttl key k l := by
  induction gone with
  | nil => rfl
  | cons y ys ih =>
    have hrest := ih fun r hr => hgone r (List.mem_cons_of_mem _ hr)
    by_cases hk : k ∈ (y :: (ys ++ l)).map key
    · rw [List.cons_append, creditTo_cons_of_mem hk, hgone y (List.mem_cons_self ..), hrest,
        Nat.zero_add]
    · rw [List.cons_append, creditTo_of_not_mem hk]
      refine (creditTo_of_not_mem fun hk' => hk ?_).symm
      exact List.map_subset key (fun x hx => by simp [hx]) hk'

/-- **What a pass takes from a key**: one of the passes it has left. It is
erased by the first pass that finds none left. -/
theorem timerPass_credit (hage : ∀ r, ttl (age r) = ttl r - 10) (hkey : ∀ r, key (age r) = key r)
    (h : timerPass ttl age l = some l') :
    creditTo ttl key k l' = creditTo ttl key k l - 1 ∧
      (k ∈ l'.map key ↔ 0 < creditTo ttl key k l) := by
  obtain ⟨gone, hgone, hcases⟩ := timerPass_cases ttl age l
  have hzero : ∀ r ∈ gone, credit ttl r = 0 := fun r hr => credit_of_expiring hage (hgone r hr)
  rcases hcases with ⟨rfl, hpass, -⟩ | ⟨x, rest, rfl, halive, hpass, -⟩
  · obtain rfl := Option.some.inj (hpass.symm.trans h)
    have hnone : creditTo ttl key k l = 0 := by
      have := @creditTo_append_of_expiring _ _ _ ttl key k [] l hzero
      rw [List.append_nil] at this
      exact this
    rw [hnone]
    exact ⟨rfl, iff_of_false List.not_mem_nil (Nat.lt_irrefl 0)⟩
  · obtain rfl := Option.some.inj (hpass.symm.trans h)
    have hkeys : (age x :: rest).map key = (x :: rest).map key :=
      congrArg (· :: rest.map key) (hkey x)
    rw [creditTo_append_of_expiring hzero, hkeys]
    by_cases hk : k ∈ (x :: rest).map key
    · rw [creditTo_cons_of_mem hk, creditTo_cons_of_mem (hkeys ▸ hk), credit_of_surviving hage halive]
      exact ⟨by omega, iff_of_true hk (by omega)⟩
    · rw [creditTo_of_not_mem hk, creditTo_of_not_mem (hkeys ▸ hk)]
      exact ⟨rfl, iff_of_false hk (Nat.lt_irrefl 0)⟩

end Credit

/-! ## Tables that only the timer touches -/

section Untouched

variable {ρ κ : Type*} [DecidableEq κ] {ttl : ρ → Int} {age : ρ → ρ} {key : ρ → κ} {n : Nat}
  {ms : List (Move RouterState Action)} {s t : RouterState}

/-- How often the timer has entered a section in these moves. -/
def passes (pass : Action) (ms : List (Move RouterState Action)) : Nat :=
  ms.countP fun m => m.act = pass

theorem passes_concat (pass a : Action) (ms : List (Move RouterState Action))
    (s s' : RouterState) :
    passes pass (ms ++ [⟨s, a, s'⟩]) = passes pass ms + if a = pass then 1 else 0 := by
  unfold passes
  rw [List.countP_append, List.countP_singleton]
  simp only [decide_eq_true_eq]

/-- A table that `pass` passes over, and that no other action touches. -/
theorem survives_iff (table : RouterState → List ρ) {pass : Action}
    (hage : ∀ r, ttl (age r) = ttl r - 10) (hkey : ∀ r, key (age r) = key r)
    (hrun : ((router n).resume t).Run ms s)
    (hpass : ∀ m ∈ ms, m.act = pass → timerPass ttl age (table m.pre) = some (table m.post))
    (hother : ∀ m ∈ ms, m.act ≠ pass → table m.post = table m.pre) (k : κ) :
    k ∈ (table s).map key ↔
      k ∈ (table t).map key ∧ passes pass ms ≤ creditTo ttl key k (table t) := by
  -- the induction also carries how many passes are left
  suffices hboth : creditTo ttl key k (table s) = creditTo ttl key k (table t) - passes pass ms ∧
      (k ∈ (table s).map key ↔
        k ∈ (table t).map key ∧ passes pass ms ≤ creditTo ttl key k (table t)) from hboth.2
  induction hrun with
  | start hs =>
    obtain rfl : _ = t := hs
    exact ⟨rfl, (and_iff_left (Nat.zero_le _)).symm⟩
  | @snoc ms s s' a hrun hs ih =>
    obtain ⟨hleft, hthere⟩ := ih (fun m hm => hpass m (List.mem_append_left _ hm))
      (fun m hm => hother m (List.mem_append_left _ hm))
    rw [passes_concat]
    by_cases ha : a = pass
    · obtain ⟨hleft', hthere'⟩ :=
        @timerPass_credit _ _ _ ttl key k _ _ age hage hkey (hpass _ List.mem_concat_self ha)
      rw [if_pos ha, hleft', hthere', hleft]
      refine ⟨by omega, fun hlt => ⟨?_, by omega⟩, fun hk => by omega⟩
      by_contra hk
      rw [creditTo_of_not_mem hk] at hlt
      omega
    · have hsame : table s' = table s := hother _ List.mem_concat_self ha
      rw [if_neg ha, hsame]
      exact ⟨hleft, hthere⟩

/-- The move is the locked section of an announcement. -/
def CommitsAnnouncement (m : Move RouterState Action) : Prop :=
  m.act = .commit ∧ ∃ msg flag record, m.pre.main = .commit msg (.announcement flag record)

/-- The move is the locked section of a request. -/
def CommitsRequest (m : Move RouterState Action) : Prop :=
  m.act = .commit ∧ ∃ msg flag record, m.pre.main = .commit msg (.request flag record)

theorem timerRouting_of_step {s s' : RouterState} (h : step n s .timerRouting = some s') :
    timerRouting s.shared.RoutingTable = some s'.shared.RoutingTable := by
  cases step_cases h with
  | timerRouting _ ht => exact ht

theorem timerPending_of_step {s s' : RouterState} (h : step n s .timerPending = some s') :
    timerPending s.shared.PendingRequestTable = some s'.shared.PendingRequestTable := by
  cases step_cases h with
  | timerPending _ ht => exact ht

theorem routing_of_step {m : Move RouterState Action} (h : step n m.pre m.act = some m.post)
    (ha : m.act ≠ .timerRouting) (hm : ¬CommitsAnnouncement m) :
    m.post.shared.RoutingTable = m.pre.shared.RoutingTable := by
  obtain ⟨s, a, s'⟩ := m
  dsimp only at h ha
  cases step_cases h with
  | @commit msg work hmain =>
    cases work with
    | announcement flag record => exact absurd ⟨rfl, msg, flag, record, hmain⟩ hm
    | request => rfl
    | response => rfl
    | default => rfl
  | timerRouting => exact absurd rfl ha
  | _ => rfl

theorem pending_of_step {m : Move RouterState Action} (h : step n m.pre m.act = some m.post)
    (ha : m.act ≠ .timerPending) (hm : ¬CommitsRequest m) :
    m.post.shared.PendingRequestTable = m.pre.shared.PendingRequestTable := by
  obtain ⟨s, a, s'⟩ := m
  dsimp only at h ha
  cases step_cases h with
  | @commit msg work hmain =>
    cases work with
    | request flag record => exact absurd ⟨rfl, msg, flag, record, hmain⟩ hm
    | announcement => rfl
    | response => rfl
    | default => rfl
  | timerPending => exact absurd rfl ha
  | _ => rfl

/-- **How long a record lives when none is added.** From any state on, and in
any interleaving, a routing record is still there after `p` passes of the timer
iff `p` is at most what it and the records in front of it survive; likewise a
pending record. -/
theorem run_survives_iff (hrun : ((router n).resume t).Run ms s) :
    ((∀ m ∈ ms, ¬CommitsAnnouncement m) → ∀ k,
      k ∈ s.shared.RoutingTable.map RTrecord.cID ↔
        k ∈ t.shared.RoutingTable.map RTrecord.cID ∧ passes .timerRouting ms
          ≤ creditTo RTrecord.ttl_rt RTrecord.cID k t.shared.RoutingTable) ∧
    ((∀ m ∈ ms, ¬CommitsRequest m) → ∀ k,
      k ∈ s.shared.PendingRequestTable.map PRTrecord.key ↔
        k ∈ t.shared.PendingRequestTable.map PRTrecord.key ∧ passes .timerPending ms
          ≤ creditTo PRTrecord.ttl_val PRTrecord.key k t.shared.PendingRequestTable) := by
  have hstep : ∀ m ∈ ms, step n m.pre m.act = some m.post := fun m hm => (hrun.move m hm).2
  constructor
  · intro hnone
    apply survives_iff (fun s => s.shared.RoutingTable) RTrecord.ttl_age RTrecord.cID_age hrun
    · intro m hm ha
      have h := hstep m hm
      rw [ha] at h
      exact timerRouting_of_step h
    · exact fun m hm ha => routing_of_step (hstep m hm) ha (hnone m hm)
  · intro hnone
    apply survives_iff (fun s => s.shared.PendingRequestTable) PRTrecord.ttl_age
      PRTrecord.key_age hrun
    · intro m hm ha
      have h := hstep m hm
      rw [ha] at h
      exact timerPending_of_step h
    · exact fun m hm ha => pending_of_step (hstep m hm) ha (hnone m hm)

end Untouched

/-- Contents 7 and 8 have just been announced, in this order. -/
def twoRecords : RouterState :=
  { RouterState.start with shared := ⟨[⟨7, 1, 0, 25⟩, ⟨8, 1, 0, 25⟩], []⟩ }

/-- The first record survives two passes; the second those two, and two of its
own. -/
theorem run_survives_two_records :
    ∃ ms s, ((router 2).resume twoRecords).Run ms s ∧ passes .timerRouting ms = 3 ∧
      7 ∉ s.shared.RoutingTable.map RTrecord.cID ∧
        8 ∈ s.shared.RoutingTable.map RTrecord.cID := by
  have htrace : trace (step 2) twoRecords
      [.timerRouting, .timerPending, .timerRouting, .timerPending, .timerRouting]
      = some (_, _) := rfl
  have hrun := run_of_trace htrace
  have hiff := (run_survives_iff hrun).1 fun m hm hcommits => by
    have hact := List.mem_map_of_mem (f := Move.act) hm
    rw [acts_of_trace htrace, hcommits.1] at hact
    simp at hact
  refine ⟨_, _, hrun, rfl, fun h => ?_, (hiff 8).mpr ⟨?_, ?_⟩⟩
  · exact absurd ((hiff 7).mp h).2 (Nat.not_le.mpr (Nat.lt_succ_self 2))
  · exact List.mem_cons_of_mem _ (List.mem_singleton_self 8)
  · exact Nat.le_succ 3

/-! ## Announcements of other contents -/

section Others

variable {n : Nat} {s s' : RouterState} {a : Action} {k : Int}

/-- The locked section of an announcement of another content. -/
theorem commitAnnouncement_credit {flag : Bool} {record : RTrecord} {l : List RTrecord}
    (hne : record.cID ≠ k) :
    creditTo RTrecord.ttl_rt RTrecord.cID k (commitAnnouncement flag record l)
        ≤ creditTo RTrecord.ttl_rt RTrecord.cID k l ∧
      (k ∈ (commitAnnouncement flag record l).map RTrecord.cID → k ∈ l.map RTrecord.cID) := by
  have hpush : ∀ l' : List RTrecord, k ∈ (l' ++ [record]).map RTrecord.cID →
      k ∈ l'.map RTrecord.cID := by
    intro l' hk
    rw [List.map_append] at hk
    rcases List.mem_append.mp hk with hk | hk
    · exact hk
    · exact absurd (List.mem_singleton.mp hk).symm hne
  unfold commitAnnouncement
  split
  · split
    · refine ⟨creditTo_replace hne, fun hk => ?_⟩
      exact (List.eraseP_sublist.map RTrecord.cID).subset (hpush _ hk)
    · exact ⟨le_rfl, id⟩
  · exact ⟨(creditTo_push hne).le, hpush l⟩

/-- A step in which content `k` is not announced: no pass is added to those its
record has left, and a pass of the timer takes one. -/
theorem step_routing_credit (h : step n s a = some s')
    (hother : ∀ msg flag record, s.main = .commit msg (.announcement flag record) →
      record.cID ≠ k) (hk : k ∈ s'.shared.RoutingTable.map RTrecord.cID) :
    k ∈ s.shared.RoutingTable.map RTrecord.cID ∧
      creditTo RTrecord.ttl_rt RTrecord.cID k s'.shared.RoutingTable
          + (if a = .timerRouting then 1 else 0)
        ≤ creditTo RTrecord.ttl_rt RTrecord.cID k s.shared.RoutingTable := by
  by_cases ha : a = .timerRouting
  · subst ha
    obtain ⟨hleft, hthere⟩ := @timerPass_credit _ _ _ RTrecord.ttl_rt RTrecord.cID k _ _ _
      RTrecord.ttl_age RTrecord.cID_age (timerRouting_of_step h)
    have hpos := hthere.mp hk
    rw [hleft, if_pos rfl]
    refine ⟨?_, by omega⟩
    by_contra hnot
    rw [creditTo_of_not_mem hnot] at hpos
    exact Nat.lt_irrefl 0 hpos
  · rw [if_neg ha, Nat.add_zero]
    by_cases hm : CommitsAnnouncement ⟨s, a, s'⟩
    · obtain ⟨hact, msg, flag, record, hmain⟩ := hm
      obtain rfl : a = .commit := hact
      cases step_cases h with
      | @commit msg' work hmain' =>
        obtain rfl : work = .announcement flag record :=
          (MainPc.commit.inj (hmain'.symm.trans hmain)).2
        obtain ⟨hle, hkeys⟩ := @commitAnnouncement_credit k flag record
          s.shared.RoutingTable (hother msg flag record hmain)
        exact ⟨hkeys hk, hle⟩
    · have hsame : s'.shared.RoutingTable = s.shared.RoutingTable := @routing_of_step n _ h ha hm
      rw [hsame] at hk ⊢
      exact ⟨hk, le_rfl⟩

/-- Two passes for each record, at most. -/
theorem creditTo_le {l : List RTrecord} (h : ∀ r ∈ l, r.ttl_rt ≤ g_ROUTING_TABLE_EXPIRY_TIME) :
    creditTo RTrecord.ttl_rt RTrecord.cID k l ≤ 2 * l.length := by
  induction l with
  | nil => exact le_rfl
  | cons y ys ih =>
    have hrest := ih fun r hr => h r (List.mem_cons_of_mem _ hr)
    have hy : credit RTrecord.ttl_rt y ≤ 2 := by
      have := h y (List.mem_cons_self ..)
      unfold credit g_ROUTING_TABLE_EXPIRY_TIME at *
      omega
    unfold creditTo
    split
    · rw [List.length_cons]
      omega
    · exact Nat.zero_le _

end Others

end ContentNetwork.Simplified
