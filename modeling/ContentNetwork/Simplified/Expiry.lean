import Mathlib.Data.List.TakeWhile
import ContentNetwork.Simplified.TableInv

/-!
# When the timer collects a record

A record's ttl is set by a commit, to 25 in the routing table and to 35 in the
pending table, and `timer_function` takes 10 from it at a time. Three passes,
or four, should therefore collect every record that no commit touches in
between. But the `for` loop of a pass is left at the first record that does
not expire: the records behind it are not aged at all.

The history variable `Ages` counts, for every key, the passes since a commit
last set its ttl, and remembers whether one of them left the key's record
out. `AgedInv` ties the ttls to these counts. Two results follow from it:

* `run_expiry`: no record is erased before its third (fourth) pass, and a
  pass is total and keeps the survivors in order.
* `run_collected_iff`: every record is gone after its third (fourth) pass
  exactly when no record that lives to see that pass has been left out.

In `uncollected_second_record` the second of two records is never aged.
-/

namespace ContentNetwork.Simplified

open Lib Lib.Lts

/-- The timer passes since the ttl of a key's record was last set. -/
structure Passes where
  count : Nat
  /-- One of these passes did not reach the record. -/
  leftOut : Bool
  deriving DecidableEq, Repr

/-- The ttl has just been set. -/
def Passes.zero : Passes := ⟨0, false⟩

/-! ## One pass over one table -/

section Pass

variable {ρ κ : Type*} [DecidableEq κ] (ttl : ρ → Int) (age : ρ → ρ) (key : ρ → κ)

/-- The records that a pass does not reach: those behind the first record that
does not expire in it. -/
def unreached (t : List ρ) : List ρ :=
  (t.dropWhile fun r => ttl (age r) ≤ 0).tail

/-- The history of each key after a pass over `t`. -/
def Passes.afterPass (t : List ρ) (g : κ → Passes) (k : κ) : Passes :=
  ⟨(g k).count + 1, (g k).leftOut || decide (k ∈ (unreached ttl age t).map key)⟩

/-- A ttl that was set to `full` and has been aged by every pass since, or by
all but one at most. -/
def Passes.Ages (full : Int) (p : Passes) (value : Int) : Prop :=
  (p.leftOut = false → value = full - 10 * p.count) ∧
    (p.leftOut = true → full - 10 * p.count + 10 ≤ value)

/-- Either way the passes account for what is missing. -/
theorem Passes.Ages.le {full value : Int} {p : Passes} (h : p.Ages full value) :
    full - 10 * p.count ≤ value := by
  obtain ⟨hall, hbut⟩ := h
  cases hl : p.leftOut with
  | false =>
    have := hall hl
    omega
  | true =>
    have := hbut hl
    omega

/-- The surviving records: in their old order, each either as it was or aged. -/
def Survivors (t t' : List ρ) : Prop :=
  ∃ kept : List ρ, kept.Sublist t ∧
    List.Forall₂ (fun r r' => (r' = r ∨ r' = age r) ∧ ttl r' ≤ ttl r) kept t'

/-- What a pass does: it erases the records at the front that expire; if one
is left, it is aged, and those behind it are not reached. -/
theorem timerPass_cases (t : List ρ) :
    ∃ gone, (∀ r ∈ gone, ttl (age r) ≤ 0) ∧
      ((t = gone ∧ timerPass ttl age t = some [] ∧ unreached ttl age t = []) ∨
        ∃ x rest, t = gone ++ x :: rest ∧ 0 < ttl (age x) ∧
          timerPass ttl age t = some (age x :: rest) ∧ unreached ttl age t = rest) := by
  refine ⟨t.takeWhile fun r => ttl (age r) ≤ 0, ?_, ?_⟩
  · intro r hr
    simpa using List.mem_takeWhile_imp hr
  · have hsplit := List.takeWhile_append_dropWhile (p := fun r => decide (ttl (age r) ≤ 0)) (l := t)
    rw [timerPass_eq, unreached]
    cases hd : t.dropWhile fun r => ttl (age r) ≤ 0 with
    | nil =>
      rw [hd, List.append_nil] at hsplit
      exact Or.inl ⟨hsplit.symm, rfl, rfl⟩
    | cons x rest =>
      rw [hd] at hsplit
      have halive := List.head_dropWhile_not (fun r => decide (ttl (age r) ≤ 0)) (l := t)
        (by simp [hd])
      simp only [hd, List.head_cons, decide_eq_false_iff_not, Int.not_le] at halive
      exact Or.inr ⟨x, rest, hsplit.symm, halive, rfl, rfl⟩

variable {ttl age key}

/-- A pass comes to its end, without erasing `end()`, and keeps the survivors
in order with no ttl increased. -/
theorem timerPass_survivors (hage : ∀ r, ttl (age r) = ttl r - 10) (t : List ρ) :
    ∃ t', timerPass ttl age t = some t' ∧ Survivors ttl age t t' := by
  have hsame : ∀ l : List ρ,
      List.Forall₂ (fun r r' => (r' = r ∨ r' = age r) ∧ ttl r' ≤ ttl r) l l := by
    intro l
    exact List.forall₂_same.mpr fun r _ => ⟨Or.inl rfl, Int.le_refl _⟩
  obtain ⟨gone, -, ⟨rfl, hpass, -⟩ | ⟨x, rest, rfl, -, hpass, -⟩⟩ := timerPass_cases ttl age t
  · exact ⟨[], hpass, [], List.nil_sublist _, .nil⟩
  · refine ⟨_, hpass, x :: rest, List.sublist_append_right .., .cons ⟨Or.inr rfl, ?_⟩ (hsame rest)⟩
    rw [hage]
    omega

/-- A pass makes every history one pass older: what a ttl was set to and the
passes since still account for it. -/
theorem afterPass_ages {full : Int} {t t' : List ρ} {g : κ → Passes}
    (hage : ∀ r, ttl (age r) = ttl r - 10) (hkey : ∀ r, key (age r) = key r)
    (hu : Keyed.Unique key t) (hages : ∀ r ∈ t, (g (key r)).Ages full (ttl r))
    (ht : timerPass ttl age t = some t') :
    ∀ r ∈ t', (Passes.afterPass ttl age key t g (key r)).Ages full (ttl r) := by
  intro r hr
  obtain ⟨gone, -, ⟨rfl, hpass, -⟩ | ⟨x, rest, rfl, -, hpass, hunr⟩⟩ := timerPass_cases ttl age t
  · -- every record was erased
    obtain rfl := Option.some.inj (hpass.symm.trans ht)
    cases hr
  · obtain rfl := Option.some.inj (hpass.symm.trans ht)
    simp only [Passes.Ages, Passes.afterPass, hunr]
    rcases List.mem_cons.mp hr with rfl | hr
    · -- the aged record: no record behind it has its key
      have hx : key x ∉ rest.map key := by
        have hsub := hu.sublist ((List.sublist_append_right gone (x :: rest)).map key)
        simp only [Keyed.Unique, List.map_cons, List.nodup_cons] at hsub
        exact hsub.1
      obtain ⟨hall, hbut⟩ := hages x (by simp)
      rw [hkey, hage]
      simp only [hx, decide_false, Bool.or_false]
      push_cast
      refine ⟨fun hl => ?_, fun hl => ?_⟩
      · have := hall hl
        omega
      · have := hbut hl
        omega
    · -- a record behind it: the pass has left it out
      have hmem : key r ∈ rest.map key := List.mem_map_of_mem hr
      have hle := (hages r (by simp [hr])).le
      simp only [hmem, decide_true, Bool.or_true]
      push_cast
      refine ⟨fun hl => hl.elim, fun _ => ?_⟩
      omega

/-- A pass erases no record before the passes since its ttl was set, this one
included, could have used the ttl up. -/
theorem full_le_of_erased {full : Int} {t t' : List ρ} {g : κ → Passes}
    (hage : ∀ r, ttl (age r) = ttl r - 10) (hkey : ∀ r, key (age r) = key r)
    (hages : ∀ r ∈ t, (g (key r)).Ages full (ttl r)) (ht : timerPass ttl age t = some t') :
    ∀ r ∈ t, key r ∉ t'.map key →
      full ≤ 10 * (Passes.afterPass ttl age key t g (key r)).count := by
  intro r hr herased
  have hexpires : ttl (age r) ≤ 0 := by
    obtain ⟨gone, hgone, ⟨rfl, -, -⟩ | ⟨x, rest, rfl, -, hpass, -⟩⟩ :=
      timerPass_cases ttl age t
    · exact hgone r hr
    · obtain rfl := Option.some.inj (hpass.symm.trans ht)
      rcases List.mem_append.mp hr with hr | hr
      · exact hgone r hr
      · rw [List.map_cons, hkey, ← List.map_cons] at herased
        exact absurd (List.mem_map_of_mem hr) herased
  rw [hage] at hexpires
  have hle := (hages r hr).le
  show full ≤ 10 * (((g (key r)).count + 1 : Nat) : Int)
  push_cast
  omega

/-- If every record has seen fewer than `limit` passes, then so it is after
the next pass exactly when that pass and the earlier ones have reached every
record that now sees its `limit`th. -/
theorem afterPass_collected_iff (full : Int) (limit : Nat) {t t' : List ρ} {g : κ → Passes}
    (hage : ∀ r, ttl (age r) = ttl r - 10) (hkey : ∀ r, key (age r) = key r)
    (hlow : 10 * limit < full + 10) (hhigh : full ≤ 10 * limit)
    (hages : ∀ r ∈ t, (g (key r)).Ages full (ttl r))
    (hbefore : ∀ r ∈ t, (g (key r)).count < limit) (ht : timerPass ttl age t = some t') :
    (∀ r ∈ t', (Passes.afterPass ttl age key t g (key r)).count < limit)
      ↔ ∀ r ∈ t, (g (key r)).count + 1 = limit →
          (g (key r)).leftOut = false ∧ key r ∉ (unreached ttl age t).map key := by
  obtain ⟨gone, hgone, ⟨rfl, hpass, hunr⟩ | ⟨x, rest, rfl, halive, hpass, hunr⟩⟩ :=
    timerPass_cases ttl age t
  · obtain rfl := Option.some.inj (hpass.symm.trans ht)
    refine iff_of_true (fun r hr => by cases hr) fun r hr hlast => ⟨?_, by simp [hunr]⟩
    by_contra hl
    have := (hages r hr).2 (by simpa using hl)
    have := hgone r hr
    rw [hage] at this
    omega
  · obtain rfl := Option.some.inj (hpass.symm.trans ht)
    rw [hunr]
    simp only [List.forall_mem_cons, hkey, Passes.afterPass]
    constructor
    · intro hafter r hr hlast
      obtain ⟨hx, hrest⟩ := hafter
      -- a record with the key of `r` that is still there has seen too many passes
      have hnot : key r ∉ (x :: rest).map key := by
        intro hmem
        obtain ⟨y, hy, hyr⟩ := List.mem_map.mp hmem
        rcases List.mem_cons.mp hy with rfl | hy
        · rw [hyr] at hx
          omega
        · have := hrest y hy
          rw [hyr] at this
          omega
      refine ⟨?_, fun hmem => hnot (List.mem_cons_of_mem _ hmem)⟩
      by_contra hl
      have hbut := (hages r hr).2 (by simpa using hl)
      rcases List.mem_append.mp hr with hr | hr
      · have := hgone r hr
        rw [hage] at this
        omega
      · exact hnot (List.mem_map_of_mem hr)
    · intro hreached
      refine ⟨?_, fun r hr => ?_⟩
      · have hcount := hbefore x (by simp)
        by_contra hge
        have hl := (hreached x (by simp) (by omega)).1
        have hall := (hages x (by simp)).1 hl
        rw [hage] at halive
        omega
      · have hcount := hbefore r (by simp [hr])
        by_contra hge
        exact (hreached r (by simp [hr]) (by omega)).2 (List.mem_map_of_mem hr)

end Pass

/-! ## The history beside the router -/

/-- The passes since a commit last set the ttl, for every routing and every
pending key. -/
structure Ages where
  routing : Int → Passes
  pending : Int × Int → Passes

def Ages.start : Ages := ⟨fun _ => .zero, fun _ => .zero⟩

/-- A locked section sets the ttl of its record, unless it finds no record to
replace or to refresh; a pass of the timer makes every record one pass older. -/
def Ages.update (g : Ages) (s : RouterState) (a : Action) : Ages :=
  match a, s.main with
  | .commit, .commit _ (.announcement flag record_test_rt) =>
    if flag = true ∧
        (Keyed.lookup RTrecord.cID record_test_rt.cID s.shared.RoutingTable).isNone then g
    else { g with routing := Function.update g.routing record_test_rt.cID .zero }
  | .commit, .commit _ (.request test_flag record_test_prt) =>
    if test_flag = true ∧
        (Keyed.lookup PRTrecord.key record_test_prt.key s.shared.PendingRequestTable).isNone then g
    else { g with pending := Function.update g.pending record_test_prt.key .zero }
  | .timerRouting, _ =>
    { g with
      routing := Passes.afterPass RTrecord.ttl_rt RTrecord.age RTrecord.cID
        s.shared.RoutingTable g.routing }
  | .timerPending, _ =>
    { g with
      pending := Passes.afterPass PRTrecord.ttl_val PRTrecord.age PRTrecord.key
        s.shared.PendingRequestTable g.pending }
  | _, _ => g

/-- The router with that history. -/
def agedRouter (n : Nat) : Lts (RouterState × Ages) Action :=
  (router n).observe .start Ages.update

/-- Every run of the router is one with that history beside it. -/
theorem exists_agedRun {n : Nat} {ms : List (Move RouterState Action)} {s : RouterState}
    (h : (router n).Run ms s) :
    ∃ ms' g, (agedRouter n).Run ms' (s, g) ∧ ms'.map forget = ms :=
  h.exists_observe ..

/-- `P` holds of the history and the ttl of every routing record, `Q` of those
of every pending record. -/
def Timed (P Q : Passes → Int → Prop) (s : RouterState × Ages) : Prop :=
  (∀ r ∈ s.1.shared.RoutingTable, P (s.2.routing r.cID) r.ttl_rt) ∧
    ∀ r ∈ s.1.shared.PendingRequestTable, Q (s.2.pending r.key) r.ttl_val

/-- No record is there that three passes have found with its ttl not set, or
four in the pending table. -/
def Collected (s : RouterState × Ages) : Prop :=
  (∀ r ∈ s.1.shared.RoutingTable, (s.2.routing r.cID).count < 3) ∧
    ∀ r ∈ s.1.shared.PendingRequestTable, (s.2.pending r.key).count < 4

/-- A pass reaches every record for which it is the third (fourth) since its
ttl was set, and so did the passes before: the record stood behind no record
that did not expire. -/
def ReachedInTime (m : Move (RouterState × Ages) Action) : Prop :=
  (m.act = .timerRouting → ∀ r ∈ m.pre.1.shared.RoutingTable,
    (m.pre.2.routing r.cID).count + 1 = 3 → (m.pre.2.routing r.cID).leftOut = false ∧
      r.cID ∉ (unreached RTrecord.ttl_rt RTrecord.age m.pre.1.shared.RoutingTable).map
        RTrecord.cID) ∧
  (m.act = .timerPending → ∀ r ∈ m.pre.1.shared.PendingRequestTable,
    (m.pre.2.pending r.key).count + 1 = 4 → (m.pre.2.pending r.key).leftOut = false ∧
      r.key ∉ (unreached PRTrecord.ttl_val PRTrecord.age m.pre.1.shared.PendingRequestTable).map
        PRTrecord.key)

/-- A record that a pass erases has seen three passes start since its ttl was
set, or four in the pending table. -/
def NoEarlyExpiry (m : Move (RouterState × Ages) Action) : Prop :=
  (m.act = .timerRouting → ∀ r ∈ m.pre.1.shared.RoutingTable,
    r.cID ∉ m.post.1.shared.RoutingTable.map RTrecord.cID →
      3 ≤ (m.post.2.routing r.cID).count) ∧
  (m.act = .timerPending → ∀ r ∈ m.pre.1.shared.PendingRequestTable,
    r.key ∉ m.post.1.shared.PendingRequestTable.map PRTrecord.key →
      4 ≤ (m.post.2.pending r.key).count)

instance (s : RouterState × Ages) : Decidable (Collected s) :=
  inferInstanceAs (Decidable ((∀ r ∈ s.1.shared.RoutingTable, _) ∧ _))

/-! ## Commits -/

/-- Records with other keys keep their history, and the record whose ttl is
set starts a new one. -/
theorem set_ages {ρ κ : Type*} [DecidableEq κ] {key : ρ → κ} {ttl : ρ → Int} {full : Int}
    {P : Passes → Int → Prop} (hzero : P .zero full) {g : κ → Passes} {k : κ} {t t' : List ρ}
    (h : ∀ r ∈ t, P (g (key r)) (ttl r))
    (hset : ∀ r ∈ t', (r ∈ t ∧ key r ≠ k) ∨ (key r = k ∧ ttl r = full)) :
    ∀ r ∈ t', P (Function.update g k .zero (key r)) (ttl r) := by
  intro r hr
  rcases hset r hr with ⟨hr, hne⟩ | ⟨rfl, hfull⟩
  · rw [Function.update_of_ne hne]
    exact h r hr
  · rw [Function.update_self, hfull]
    exact hzero

/-- The locked section of an announcement: it leaves the records of other
contents and one with a full ttl, or it does nothing. -/
theorem commitAnnouncement_sets {flag : Bool} {rec : RTrecord} {t : List RTrecord}
    (hu : Keyed.Unique RTrecord.cID t) (httl : rec.ttl_rt = g_ROUTING_TABLE_EXPIRY_TIME)
    (hnew : flag = false → ∀ r ∈ t, r.cID ≠ rec.cID)
    (hfound : ¬(flag = true ∧ (Keyed.lookup RTrecord.cID rec.cID t).isNone)) :
    ∀ r ∈ commitAnnouncement flag rec t, (r ∈ t ∧ r.cID ≠ rec.cID) ∨
      (r.cID = rec.cID ∧ r.ttl_rt = g_ROUTING_TABLE_EXPIRY_TIME) := by
  cases flag with
  | false =>
    refine Keyed.forall_push (fun r hr => ?_) (Or.inr ⟨rfl, httl⟩)
    exact Or.inl ⟨hr, hnew rfl r hr⟩
  | true =>
    have hsome : (Keyed.lookup RTrecord.cID rec.cID t).isSome := by
      cases hl : Keyed.lookup RTrecord.cID rec.cID t with
      | none => exact absurd ⟨rfl, by simp [hl]⟩ hfound
      | some _ => rfl
    simp only [commitAnnouncement, if_true, hsome]
    refine Keyed.forall_push (fun r hr => ?_) (Or.inr ⟨rfl, httl⟩)
    exact Or.inl ⟨List.mem_of_mem_eraseP hr, Keyed.key_ne_of_mem_erase hu r hr⟩

/-- The locked section of a request, likewise. -/
theorem commitRequest_sets {test_flag : Bool} {rec : PRTrecord} {t : List PRTrecord}
    (hu : Keyed.Unique PRTrecord.key t) (httl : rec.ttl_val = g_PENDING_TABLE_EXPIRY_TIME)
    (hnew : test_flag = false → ∀ r ∈ t, r.key ≠ rec.key) :
    ∀ r ∈ commitRequest test_flag rec t, (r ∈ t ∧ r.key ≠ rec.key) ∨
      (r.key = rec.key ∧ r.ttl_val = g_PENDING_TABLE_EXPIRY_TIME) := by
  cases test_flag with
  | false =>
    refine Keyed.forall_push (fun r hr => ?_) (Or.inr ⟨rfl, httl⟩)
    exact Or.inl ⟨hr, hnew rfl r hr⟩
  | true =>
    intro r hr
    simp only [commitRequest, if_true] at hr
    rcases Keyed.mem_refresh_of_unique PRTrecord.key_refreshed hu hr with hr | ⟨y, -, hyk, rfl⟩
    · exact Or.inl hr
    · exact Or.inr ⟨hyk, rfl⟩

/-- An announcement's section that finds no record to replace leaves the
table. -/
theorem commitAnnouncement_of_isNone {rec : RTrecord} {t : List RTrecord}
    (h : (Keyed.lookup RTrecord.cID rec.cID t).isNone) :
    commitAnnouncement true rec t = t := by
  rw [commitAnnouncement, if_pos rfl, Option.isNone_iff_eq_none.mp h]
  rfl

/-- A request's section that finds no record to refresh leaves the table. -/
theorem commitRequest_of_isNone {rec : PRTrecord} {t : List PRTrecord}
    (h : (Keyed.lookup PRTrecord.key rec.key t).isNone) :
    commitRequest true rec t = t := by
  have hne := Keyed.lookup_eq_none.mp (Option.isNone_iff_eq_none.mp h)
  simp only [commitRequest, if_true]
  clear h
  induction t with
  | nil => rfl
  | cons y ys ih =>
    rw [Keyed.refresh_cons, if_neg (hne y (List.mem_cons_self ..)),
      ih fun x hx => hne x (List.mem_cons_of_mem _ hx)]

section Steps

variable {n : Nat} {P Q : Passes → Int → Prop}

/-- A commit keeps what holds of every record's history, if it holds of a
record whose ttl has just been set. -/
theorem commit_timed (hP : P .zero g_ROUTING_TABLE_EXPIRY_TIME)
    (hQ : Q .zero g_PENDING_TABLE_EXPIRY_TIME) {s : RouterState} {g : Ages} {m : Message}
    {work : Work} (hi : LoopInv n s) (hmain : s.main = .commit m work) (h : Timed P Q (s, g)) :
    Timed P Q ({ s with shared := work.commit s.shared, cache := .empty, main := .copyPending },
      g.update s .commit) := by
  obtain ⟨hR, hPend⟩ := h
  have hpc := hi.atPc
  rw [hmain] at hpc
  obtain ⟨hPcov, hRcov, -, sent, hd⟩ := hpc
  simp only [Timed, Ages.update, hmain]
  rcases dispatch_cases hd with ⟨-, hreq⟩ | ⟨-, hresp⟩ | ⟨-, hann⟩ | ⟨-, -, rfl⟩
  · obtain rfl := requestCase_work hreq
    dsimp only [Work.commit]
    split
    next hnone =>
      -- the record was in the copies and is gone: nothing is set
      rw [hnone.1, commitRequest_of_isNone hnone.2]
      exact ⟨hR, hPend⟩
    next =>
      -- a key that is not in the copies is not in the shared table
      refine ⟨hR, set_ages hQ hPend ?_⟩
      refine commitRequest_sets hi.shared.pending_unique requestedRecord_ttl ?_
      intro hflag r hr he
      obtain ⟨x, hx, hxr⟩ := hPcov r hr
      exact Keyed.lookup_isSome_eq_false.mp hflag x hx (hxr.trans (he.trans requestedRecord_key))
  · obtain rfl := responseCase_work hresp
    exact ⟨hR, hPend⟩
  · obtain rfl := announcementCase_work hann
    dsimp only [Work.commit]
    split
    next hnone =>
      rw [hnone.1, commitAnnouncement_of_isNone hnone.2]
      exact ⟨hR, hPend⟩
    next hfound =>
      refine ⟨set_ages hP hR ?_, hPend⟩
      refine commitAnnouncement_sets hi.shared.routing_unique announcedRecord_ttl ?_ hfound
      intro hflag r hr he
      obtain ⟨x, hx, hxr⟩ := hRcov r hr
      exact Keyed.lookup_isSome_eq_false.mp hflag x hx (hxr.trans (he.trans announcedRecord_cID))
  · exact ⟨hR, hPend⟩

/-- Every step but a timer pass keeps what holds of every record's history, if
it holds of a record whose ttl has just been set. -/
theorem step_timed (hP : P .zero g_ROUTING_TABLE_EXPIRY_TIME)
    (hQ : Q .zero g_PENDING_TABLE_EXPIRY_TIME) {s s' : RouterState × Ages} {a : Action}
    (hi : LoopInv n s.1) (hs : (agedRouter n).step s a s') (hR : a ≠ .timerRouting)
    (hPend : a ≠ .timerPending) (h : Timed P Q s) : Timed P Q s' := by
  obtain ⟨s, g⟩ := s
  obtain ⟨s', g'⟩ := s'
  obtain ⟨hstep, hg⟩ := hs
  dsimp only at hstep hg hi
  subst hg
  cases step_cases hstep with
  | copyPending => exact h
  | copyRouting => exact h
  | idle => exact h
  | dispatch => exact h
  | throws => exact h
  | commit hmain => exact commit_timed hP hQ hi hmain h
  | timerRouting => exact absurd rfl hR
  | timerPending => exact absurd rfl hPend

end Steps

/-! ## What the ttls say about the passes -/

theorem RTrecord.ttl_age (r : RTrecord) : r.age.ttl_rt = r.ttl_rt - 10 := rfl

theorem PRTrecord.ttl_age (r : PRTrecord) : r.age.ttl_val = r.ttl_val - 10 := rfl

/-- Every ttl is what it was set to, less 10 for every pass that reached the
record. -/
def AgedInv (s : RouterState × Ages) : Prop :=
  Timed (Passes.Ages g_ROUTING_TABLE_EXPIRY_TIME) (Passes.Ages g_PENDING_TABLE_EXPIRY_TIME) s

/-- A ttl that has just been set to `full`. -/
theorem Passes.ages_zero (full : Int) : Passes.zero.Ages full full := by
  refine ⟨fun _ => ?_, fun h => (Bool.false_ne_true h).elim⟩
  show full = full - 10 * ((0 : Nat) : Int)
  omega

theorem reachable_agedInv {n : Nat} {s : RouterState × Ages} (h : (agedRouter n).Reachable s) :
    LoopInv n s.1 ∧ AgedInv s := by
  refine ⟨reachable_loopInv (observe_reachable h), ?_⟩
  induction h with
  | @init s hs =>
    obtain ⟨s, g⟩ := s
    obtain ⟨rfl, -⟩ := hs
    exact ⟨fun r hr => absurd hr List.not_mem_nil, fun r hr => absurd hr List.not_mem_nil⟩
  | @step s s' a hreach hs ih =>
    have hi := reachable_loopInv (observe_reachable hreach)
    by_cases hother : a ≠ .timerRouting ∧ a ≠ .timerPending
    · exact step_timed (Passes.ages_zero _) (Passes.ages_zero _) hi hs hother.1 hother.2 ih
    · obtain ⟨s, g⟩ := s
      obtain ⟨s', g'⟩ := s'
      obtain ⟨hstep, hg⟩ := hs
      dsimp only at hstep hg hi
      subst hg
      cases step_cases hstep with
      | timerRouting _ ht =>
        refine ⟨?_, ih.2⟩
        exact afterPass_ages RTrecord.ttl_age RTrecord.cID_age hi.shared.routing_unique ih.1 ht
      | timerPending _ ht =>
        refine ⟨ih.1, ?_⟩
        exact afterPass_ages PRTrecord.ttl_age PRTrecord.key_age hi.shared.pending_unique ih.2 ht
      | _ => exact absurd ⟨by simp, by simp⟩ hother

/-! ## No record expires early -/

/-- One pass from a reachable state erases nothing too early. -/
theorem move_noEarlyExpiry {n : Nat} {m : Move (RouterState × Ages) Action}
    (hpre : (agedRouter n).Reachable m.pre) (hs : (agedRouter n).step m.pre m.act m.post) :
    NoEarlyExpiry m := by
  obtain ⟨⟨s, g⟩, a, ⟨s', g'⟩⟩ := m
  obtain ⟨hstep, hg⟩ := hs
  have hages := (reachable_agedInv hpre).2
  dsimp only at hstep hg
  subst hg
  constructor
  · intro ha r hr herased
    obtain rfl : a = .timerRouting := ha
    cases step_cases hstep with
    | timerRouting _ ht =>
      have := full_le_of_erased RTrecord.ttl_age RTrecord.cID_age hages.1 ht r hr herased
      simp only [g_ROUTING_TABLE_EXPIRY_TIME] at this
      show 3 ≤ (Passes.afterPass RTrecord.ttl_rt RTrecord.age RTrecord.cID s.shared.RoutingTable
        g.routing r.cID).count
      omega
  · intro ha r hr herased
    obtain rfl : a = .timerPending := ha
    cases step_cases hstep with
    | timerPending _ ht =>
      have := full_le_of_erased PRTrecord.ttl_age PRTrecord.key_age hages.2 ht r hr herased
      simp only [g_PENDING_TABLE_EXPIRY_TIME] at this
      show 4 ≤ (Passes.afterPass PRTrecord.ttl_val PRTrecord.age PRTrecord.key
        s.shared.PendingRequestTable g.pending r.key).count
      omega

/-- **No record expires early**: along every run, a pass erases a record only
when three passes (four for a pending record) have started since its ttl was
set. On every table a pass comes to its end, never erases `end()`, and keeps
the survivors in order with no ttl increased. -/
theorem run_expiry {n : Nat} {ms : List (Move (RouterState × Ages) Action)}
    {s : RouterState × Ages} (h : (agedRouter n).Run ms s) :
    (∀ m ∈ ms, NoEarlyExpiry m) ∧
      (∀ t, ∃ t', timerRouting t = some t' ∧ Survivors RTrecord.ttl_rt RTrecord.age t t') ∧
      ∀ t, ∃ t', timerPending t = some t' ∧ Survivors PRTrecord.ttl_val PRTrecord.age t t' := by
  refine ⟨fun m hm => ?_, timerPass_survivors RTrecord.ttl_age,
    timerPass_survivors PRTrecord.ttl_age⟩
  exact move_noEarlyExpiry (h.move m hm).1 (h.move m hm).2

/-- Contents 7 and 8 are announced on interface 1, and three passes follow. -/
def twoRecordsThreePasses : List Action :=
  [.copyPending, .copyRouting, .dispatch (received .ANNOUNCEMENT 7 0 1), .commit,
    .copyPending, .copyRouting, .dispatch (received .ANNOUNCEMENT 8 0 1), .commit,
    .timerRouting, .timerPending, .timerRouting, .timerPending, .timerRouting]

/-- Of two records announced one after the other, only the one that stood in
front for three passes has been erased. -/
theorem expiry_two_records :
    ∃ ms s, (agedRouter 2).Run ms s ∧ s.1.shared.RoutingTable = [⟨8, 1, 0, 15⟩] ∧
      ∀ m ∈ ms, NoEarlyExpiry m := by
  have h : trace (observeStep (step 2) Ages.update) (.start, .start) twoRecordsThreePasses
      = some (_, _) := rfl
  have hrun := observe_run_of_trace h
  exact ⟨_, _, hrun, rfl, (run_expiry hrun).1⟩

/-! ## Which records are collected -/

/-- One step from a state without stale records leads to such a state iff a
pass has reached in time what it had to collect. -/
theorem move_collected_iff {n : Nat} {m : Move (RouterState × Ages) Action}
    (hpre : (agedRouter n).Reachable m.pre) (hs : (agedRouter n).step m.pre m.act m.post)
    (hcoll : Collected m.pre) : Collected m.post ↔ ReachedInTime m := by
  obtain ⟨hi, hages⟩ := reachable_agedInv hpre
  by_cases hother : m.act ≠ .timerRouting ∧ m.act ≠ .timerPending
  · refine iff_of_true ?_ ⟨fun h => absurd h hother.1, fun h => absurd h hother.2⟩
    have htimed : Timed (fun p _ => p.count < 3) (fun p _ => p.count < 4) m.post :=
      step_timed (by decide) (by decide) hi hs hother.1 hother.2 hcoll
    exact htimed
  · obtain ⟨⟨s, g⟩, a, ⟨s', g'⟩⟩ := m
    obtain ⟨hstep, hg⟩ := hs
    dsimp only at hstep hg hother
    subst hg
    cases step_cases hstep with
    | timerRouting _ ht =>
      have hiff := afterPass_collected_iff 25 3 RTrecord.ttl_age RTrecord.cID_age
        (by decide) (by decide) hages.1 hcoll.1 ht
      have hrest := hcoll.2
      simp only [ReachedInTime, reduceCtorEq, false_implies, and_true, true_implies]
      exact (and_iff_left hrest).trans hiff
    | timerPending _ ht =>
      have hiff := afterPass_collected_iff 35 4 PRTrecord.ttl_age PRTrecord.key_age
        (by decide) (by decide) hages.2 hcoll.2 ht
      have hrest := hcoll.1
      simp only [ReachedInTime, reduceCtorEq, false_implies, true_and, true_implies]
      exact (and_iff_right hrest).trans hiff
    | _ => exact absurd ⟨by simp, by simp⟩ hother

/-- **Every stale record of every state of a run has been collected iff every
pass, and those before it, have reached the records that it had to collect.** -/
theorem run_collected_iff {n : Nat} {ms : List (Move (RouterState × Ages) Action)}
    {s : RouterState × Ages} (h : (agedRouter n).Run ms s) :
    (∀ m ∈ ms, Collected m.post) ↔ ∀ m ∈ ms, ReachedInTime m := by
  refine h.forall_post_iff ?_ fun _ => move_collected_iff
  intro s hs
  obtain ⟨s, g⟩ := s
  obtain ⟨rfl, rfl⟩ := hs
  exact ⟨fun r hr => absurd hr List.not_mem_nil, fun r hr => absurd hr List.not_mem_nil⟩

/-- The third pass erases the first record; the second one, as old, is aged
for the first time. -/
theorem uncollected_second_record :
    ∃ ms s, (agedRouter 2).Run ms s ∧ s.1.shared.RoutingTable = [⟨8, 1, 0, 15⟩] ∧
      (s.2.routing 8).count = 3 ∧ ¬∀ m ∈ ms, Collected m.post := by
  have h : trace (observeStep (step 2) Ages.update) (.start, .start) twoRecordsThreePasses
      = some (_, _) := rfl
  exact ⟨_, _, observe_run_of_trace h, rfl, rfl, by decide⟩

/-- A single record is collected by its third pass, and no earlier. -/
theorem collected_single_record :
    ∃ ms s, (agedRouter 2).Run ms s ∧ s.1.shared.RoutingTable = [] ∧
      ∀ m ∈ ms, ReachedInTime m := by
  have h : trace (observeStep (step 2) Ages.update) (.start, .start)
      [.copyPending, .copyRouting, .dispatch (received .ANNOUNCEMENT 7 0 1), .commit,
        .timerRouting, .timerPending, .timerRouting, .timerPending, .timerRouting]
      = some (_, _) := rfl
  have hrun := observe_run_of_trace h
  exact ⟨_, _, hrun, rfl, (run_collected_iff hrun).mp (by decide)⟩

end ContentNetwork.Simplified
