import ContentNetwork.Ambitious.PendingTable

/-!
# The pending table stands for a map

What the pending table is for: content and host are mapped to the interface of
the last request, until a response is sent there or the time is over. `Refines`
ties a table to such a map, and joins the three things that must hold at once:
keys are unique, a record is valid exactly when it is the map's answer, and
exactly then it has one sleeping thread. Between two timer calls of one
operation a record is `Paused`.

Every operation keeps `Refines`: `handleRequest_refines`,
`handleResponse_refines` and `expire_refines` say what each does to the map.
-/

namespace ContentNetwork.Ambitious

open Lib Lib.Lts

/-- A record with the threads that sleep for it and the answer of the map
under its key: a valid record has its one thread and is the answer, an invalid
one has neither. -/
def PendingTableRecord.Ok (r : PendingTableRecord)
    (threads : List Nat) (answer : Option Int) : Prop :=
  threads = (if r.isValid then [r.TimerThread] else []) ∧
    answer = if r.isValid then some r.PortInterface else none

namespace PendingTable

/-- Unique keys, and threads with identities of their own. -/
structure Shape (t : PendingTable) : Prop where
  unique : Keyed.Unique PendingTableRecord.key t.Table
  fresh : ∀ e ∈ t.sleeping, e.thread < t.nextThread
  distinct : (t.sleeping.map Sleeper.thread).Nodup
  inside : ∀ e ∈ t.sleeping, e.record < t.Table.length

/-- The table stands for the map `m` from content and host to interface. -/
structure Refines (t : PendingTable) (m : Int × Int → Option Int) : Prop extends Shape t where
  records : ∀ (i : Nat) (r : PendingTableRecord), t.Table[i]? = some r →
    r.Ok (t.threadsOf i) (m r.key)
  absent : ∀ k, (∀ r ∈ t.Table, r.key ≠ k) → m k = none

/-- The same in the middle of an operation on the record at position `i`: it
has no thread, and nothing else is known of it. -/
structure Paused (i : Nat) (t : PendingTable) (m : Int × Int → Option Int) : Prop
    extends Shape t where
  idle : t.threadsOf i = []
  others : ∀ (j : Nat) (r : PendingTableRecord), j ≠ i → t.Table[j]? = some r →
    r.Ok (t.threadsOf j) (m r.key)
  absent : ∀ k, (∀ r ∈ t.Table, r.key ≠ k) → m k = none

section Steps

variable {t : PendingTable} {m : Int × Int → Option Int} {i : Nat} {r : PendingTableRecord}

theorem mem_threadsOf {thread : Nat} : thread ∈ t.threadsOf i ↔ ⟨thread, i⟩ ∈ t.sleeping := by
  simp only [threadsOf, List.mem_map, List.mem_filter, decide_eq_true_eq]
  constructor
  · intro h
    obtain ⟨⟨thread', i'⟩, ⟨he, rfl⟩, rfl⟩ := h
    exact he
  · intro h
    exact ⟨_, ⟨h, rfl⟩, rfl⟩

/-- A thread sleeps for one record. -/
theorem Shape.record_eq (h : Shape t) {thread j : Nat} (hi : thread ∈ t.threadsOf i)
    (hj : thread ∈ t.threadsOf j) : i = j := by
  have he := List.inj_on_of_nodup_map h.distinct (mem_threadsOf.mp hi) (mem_threadsOf.mp hj) rfl
  exact congrArg Sleeper.record he

theorem Shape.modify (h : Shape t) {f : PendingTableRecord → PendingTableRecord}
    (hf : ∀ r, (f r).key = r.key) (i : Nat) : Shape (t.modify i f) := by
  refine ⟨?_, h.fresh, h.distinct, ?_⟩
  · rw [Keyed.Unique, PendingTable.modify, Keyed.map_key_modify hf]
    exact h.unique
  · intro e he
    show e.record < (t.Table.modify i f).length
    rw [List.length_modify]
    exact h.inside e he

/-! ## The threads of a record -/

theorem threadsOf_wake (thread j : Nat) :
    (t.wake thread).threadsOf j = (t.threadsOf j).filter (· ≠ thread) := by
  simp only [threadsOf, wake, List.filter_map, List.filter_filter]
  congr 1
  refine List.filter_congr fun e _ => ?_
  simp [Bool.and_comm]

theorem threadsOf_startTimer_self :
    (t.startTimer i).threadsOf i = t.threadsOf i ++ [t.nextThread] := by
  simp [threadsOf, startTimer]

theorem threadsOf_startTimer_ne {j : Nat} (hj : j ≠ i) :
    (t.startTimer i).threadsOf j = t.threadsOf j := by
  simp [threadsOf, startTimer, hj.symm]

/-! ## One timer call -/

/-- When its only thread is gone, a record is paused. -/
theorem Refines.wake (h : Refines t m) {thread : Nat} (hthread : t.threadsOf i = [thread]) :
    Paused i (t.wake thread) m := by
  have hsub : ((t.wake thread).sleeping).Sublist t.sleeping := List.filter_sublist
  refine ⟨⟨h.unique, ?_, ?_, ?_⟩, ?_, ?_, h.absent⟩
  · exact fun e he => h.fresh e (hsub.subset he)
  · exact h.distinct.sublist (hsub.map _)
  · exact fun e he => h.inside e (hsub.subset he)
  · rw [threadsOf_wake, hthread]
    simp
  · -- the thread sleeps for record `i`, so no other record loses it
    intro j r hj hr
    have hnot : ∀ x ∈ t.threadsOf j, decide (x ≠ thread) = true := by
      intro x hx
      refine decide_eq_true fun he => hj ?_
      subst he
      exact h.record_eq hx (by rw [hthread]; exact List.mem_singleton.mpr rfl)
    rw [threadsOf_wake, List.filter_eq_self.mpr hnot]
    exact h.records j r hr

/-- An invalid record is paused. -/
theorem Refines.paused (h : Refines t m) (hr : t.Table[i]? = some r) (hv : r.isValid = false) :
    Paused i t m := by
  refine ⟨h.toShape, ?_, fun j r _ hr => h.records j r hr, h.absent⟩
  have hthreads := (h.records i r hr).1
  rwa [hv] at hthreads

/-- Setters of a paused record leave it paused. -/
theorem Paused.modify (h : Paused i t m) {f : PendingTableRecord → PendingTableRecord}
    (hf : ∀ r, (f r).key = r.key) : Paused i (t.modify i f) m := by
  refine ⟨h.toShape.modify hf i, h.idle, ?_, ?_⟩
  · intro j r hj hr
    have hr' : (t.Table.modify i f)[j]? = some r := hr
    rw [List.getElem?_modify_ne _ _ hj.symm] at hr'
    exact h.others j r hj hr'
  · intro k hk
    refine h.absent k fun r hr he => ?_
    have hkeys : r.key ∈ (t.Table.modify i f).map PendingTableRecord.key := by
      rw [Keyed.map_key_modify hf]
      exact List.mem_map_of_mem hr
    obtain ⟨x, hx, hxr⟩ := List.mem_map.mp hkeys
    exact hk x hx (hxr.trans he)

/-- What the map is under the other keys. -/
theorem Paused.other_keys (h : Paused i t m) (hr : t.Table[i]? = some r) {j : Nat}
    {x : PendingTableRecord} (hj : j ≠ i) (hx : t.Table[j]? = some x) (v : Option Int) :
    Function.update m r.key v x.key = m x.key := by
  refine Function.update_of_ne ?_ _ _
  exact fun he => hj (h.unique.position_eq hx hr he)

/-- A key of no record is none of the map's. -/
theorem Paused.absent_update (h : Paused i t m) (hr : t.Table[i]? = some r) (v : Option Int) :
    ∀ k, (∀ x ∈ t.Table, x.key ≠ k) → Function.update m r.key v k = none := by
  intro k hk
  rw [Function.update_of_ne (hk r (List.mem_of_getElem? hr)).symm]
  exact h.absent k hk

/-- A valid record whose timer starts is the answer under its key. -/
theorem Paused.startTimer (h : Paused i t m) (hr : t.Table[i]? = some r)
    (hv : r.isValid = true) :
    Refines (t.startTimer i) (Function.update m r.key (some r.PortInterface)) := by
  have hkeys : ∀ x : PendingTableRecord, ({ x with TimerThread := t.nextThread } :
      PendingTableRecord).key = x.key := fun _ => rfl
  have hset : Paused i (t.modify i fun x => { x with TimerThread := t.nextThread }) m :=
    h.modify hkeys
  have hri : (t.startTimer i).Table[i]? = some { r with TimerThread := t.nextThread } :=
    Keyed.getElem?_modify_self _ hr
  refine ⟨⟨hset.unique, ?_, ?_, ?_⟩, ?_, hset.absent_update hri _⟩
  · -- the new thread is below the next one, as the older ones are
    intro e he
    show e.thread < t.nextThread + 1
    rcases List.mem_append.mp he with he | he
    · have := h.fresh e he
      omega
    · obtain rfl := List.mem_singleton.mp he
      exact Nat.lt_succ_self _
  · show ((t.sleeping ++ [(⟨t.nextThread, i⟩ : Sleeper)]).map Sleeper.thread).Nodup
    rw [List.map_append, List.nodup_append]
    refine ⟨h.distinct, List.nodup_singleton _, ?_⟩
    intro a ha b hb
    obtain ⟨e, he, rfl⟩ := List.mem_map.mp ha
    obtain rfl := List.mem_singleton.mp hb
    exact Nat.ne_of_lt (h.fresh e he)
  · intro e he
    rcases List.mem_append.mp he with he | he
    · exact hset.inside e he
    · obtain rfl := List.mem_singleton.mp he
      exact (List.getElem?_eq_some_iff.mp hri).1
  · intro j x hx
    by_cases hj : j = i
    · -- the record itself had no thread, and now has the new one
      subst hj
      obtain rfl := Option.some.inj (hri.symm.trans hx)
      rw [threadsOf_startTimer_self, h.idle]
      refine ⟨?_, ?_⟩
      · simp [hv]
      · rw [hkeys, Function.update_self]
        simp [hv]
    · rw [threadsOf_startTimer_ne hj]
      have hother := hset.other_keys hri hj hx (some r.PortInterface)
      rw [hkeys] at hother
      rw [hother]
      exact hset.others j x hj hx

/-- A paused record that is made invalid has no answer. -/
theorem Paused.makeInValid (h : Paused i t m) (hr : t.Table[i]? = some r) :
    Refines (t.makeInValid i) (Function.update m r.key none) := by
  have hset : Paused i (t.makeInValid i) m := h.modify fun _ => rfl
  have hri : (t.makeInValid i).Table[i]? = some { r with isValid := false } :=
    Keyed.getElem?_modify_self _ hr
  refine ⟨hset.toShape, ?_, hset.absent_update hri _⟩
  intro j x hx
  by_cases hj : j = i
  · subst hj
    obtain rfl := Option.some.inj (hri.symm.trans hx)
    rw [hset.idle]
    refine ⟨rfl, ?_⟩
    show Function.update m r.key none r.key = none
    exact Function.update_self ..
  · have hother := hset.other_keys hri hj hx none
    have hkey : ({ r with isValid := false } : PendingTableRecord).key = r.key := rfl
    rw [hkey] at hother
    rw [hother]
    exact hset.others j x hj hx

end Steps

/-! ## The operations -/

section Operations

variable {t : PendingTable} {m : Int × Int → Option Int}

theorem empty_refines : Refines empty fun _ => none := by
  refine ⟨⟨List.nodup_nil, ?_, List.nodup_nil, ?_⟩, ?_, fun _ _ => rfl⟩
  · exact fun e he => absurd he List.not_mem_nil
  · exact fun e he => absurd he List.not_mem_nil
  · intro i r hr
    cases hr

/-- `GetInterfaceFromPendingTable` answers what the map says. -/
theorem Refines.get (h : Refines t m) (contentID hostID : Int) :
    t.GetInterfaceFromPendingTable contentID hostID = (m (contentID, hostID)).getD (-1) := by
  unfold GetInterfaceFromPendingTable
  cases hf : t.find (contentID, hostID) with
  | none =>
    rw [h.absent _ (Keyed.index_eq_none.mp hf)]
    rfl
  | some i =>
    obtain ⟨r, hr, hk⟩ := find_eq_some hf
    have hanswer := (h.records i r hr).2
    rw [hk] at hanswer
    rw [hanswer]
    simp only [hr]
    split <;> rfl

/-- Making a paused record the new answer under its key, by the three calls
that the request path makes on it. -/
theorem Paused.restart {i : Nat} {r : PendingTableRecord} (h : Paused i t m)
    (hr : t.Table[i]? = some r) (interface : Int) :
    Refines (((t.setPortInterface i interface).makeValid i).startTimer i)
      (Function.update m r.key (some interface)) := by
  have hinterface : Paused i (t.setPortInterface i interface) m := h.modify fun _ => rfl
  have hset : Paused i ((t.setPortInterface i interface).makeValid i) m :=
    hinterface.modify fun _ => rfl
  have hri : ((t.setPortInterface i interface).makeValid i).Table[i]?
      = some { r with PortInterface := interface, isValid := true } :=
    Keyed.getElem?_modify_self _ (Keyed.getElem?_modify_self _ hr)
  exact hset.startTimer hri rfl

/-- A request for a key with no record. -/
theorem Refines.push (h : Refines t m) {contentID hostID interface : Int}
    (hnew : ∀ r ∈ t.Table, r.key ≠ (contentID, hostID)) :
    Refines (({ t with Table := t.Table ++ [⟨contentID, hostID, interface, true, 0⟩] } :
        PendingTable).startTimer t.Table.length)
      (Function.update m (contentID, hostID) (some interface)) := by
  have hlast : (t.Table ++ [⟨contentID, hostID, interface, true, 0⟩])[t.Table.length]?
      = some (⟨contentID, hostID, interface, true, 0⟩ : PendingTableRecord) := by simp
  refine Paused.startTimer (r := ⟨contentID, hostID, interface, true, 0⟩)
    ⟨⟨?_, h.fresh, h.distinct, ?_⟩, ?_, ?_, ?_⟩ hlast rfl
  · exact Keyed.unique_push h.unique hnew
  · intro e he
    have := h.inside e he
    show e.record < (t.Table ++ _).length
    rw [List.length_append]
    omega
  · -- a thread that sleeps for a record of the table sleeps for no other
    refine List.eq_nil_iff_forall_not_mem.mpr fun thread hthread => ?_
    exact Nat.lt_irrefl _ (h.inside _ (mem_threadsOf.mp hthread))
  · intro j r hj hr
    have hlt : j < t.Table.length := by
      have := (List.getElem?_eq_some_iff.mp hr).1
      rw [List.length_append, List.length_singleton] at this
      omega
    refine h.records j r ?_
    rwa [List.getElem?_append_left hlt] at hr
  · exact fun k hk => h.absent k fun r hr => hk r (List.mem_append_left _ hr)

/-- **A request makes its arrival interface the answer under its key.** -/
theorem handleRequest_refines (h : Refines t m) (contentID hostID interface : Int) :
    Refines (t.handleRequest contentID hostID interface)
      (Function.update m (contentID, hostID) (some interface)) := by
  cases hf : t.find (contentID, hostID) with
  | none =>
    -- neither updated nor re-used: a new record
    rw [handleRequest_new hf]
    exact h.push (Keyed.index_eq_none.mp hf)
  | some i =>
    obtain ⟨r, hr, hk⟩ := find_eq_some hf
    cases hv : r.isValid with
    | true =>
      -- the record waits: its thread is cancelled and a new one started
      have hthread := (h.records i r hr).1
      rw [hv, if_pos rfl] at hthread
      rw [handleRequest_valid hf hr hv, ← hk]
      have hpaused : Paused i ((t.wake r.TimerThread).setPortInterface i interface) m :=
        (h.wake hthread).modify fun _ => rfl
      have hri : ((t.wake r.TimerThread).setPortInterface i interface).Table[i]?
          = some { r with PortInterface := interface } := Keyed.getElem?_modify_self _ hr
      exact hpaused.startTimer hri hv
    | false =>
      -- not updated, since it is invalid; re-used
      rw [handleRequest_invalid hf hr hv, ← hk]
      exact (h.paused hr hv).restart hr interface

/-- `DeleteRecord` of a valid record takes its answer away. -/
theorem DeleteRecord_refines (h : Refines t m) {contentID hostID : Int}
    (hvalid : t.GetInterfaceFromPendingTable contentID hostID ≠ -1) :
    Refines (t.DeleteRecord contentID hostID) (Function.update m (contentID, hostID) none) := by
  unfold GetInterfaceFromPendingTable at hvalid
  cases hf : t.find (contentID, hostID) with
  | none =>
    rw [hf] at hvalid
    exact absurd rfl hvalid
  | some i =>
    obtain ⟨r, hr, hk⟩ := find_eq_some hf
    rw [hf] at hvalid
    simp only [hr] at hvalid
    cases hv : r.isValid with
    | false =>
      rw [hv] at hvalid
      exact absurd rfl hvalid
    | true =>
      -- `stopTimer` cancels the one thread that sleeps for the record
      have hthread := (h.records i r hr).1
      rw [hv, if_pos rfl] at hthread
      rw [DeleteRecord_of_find hf hr, ← hk]
      exact (h.wake hthread).makeInValid hr

/-- **A response takes the answer under its key away**, if interfaces are not
negative. -/
theorem handleResponse_refines (h : Refines t m) (hm : ∀ k i, m k = some i → 0 ≤ i)
    (contentID hostID : Int) :
    Refines (t.handleResponse contentID hostID).1 (Function.update m (contentID, hostID) none) ∧
      (t.handleResponse contentID hostID).2 = m (contentID, hostID) := by
  have hget := h.get contentID hostID
  unfold handleResponse
  split
  next hsome =>
    refine ⟨DeleteRecord_refines h hsome, ?_⟩
    rw [hget] at hsome ⊢
    cases hk : m (contentID, hostID) with
    | none =>
      rw [hk] at hsome
      exact absurd rfl hsome
    | some i => rfl
  next hnone =>
    have hk : m (contentID, hostID) = none := by
      cases hk : m (contentID, hostID) with
      | none => rfl
      | some i =>
        have := hm _ i hk
        rw [hget, hk] at hnone
        exact absurd (fun he : i = -1 => by omega) hnone
    refine ⟨?_, hk.symm⟩
    rw [← hk, Function.update_eq_self]
    exact h

/-- The record that a thread sleeps for. -/
theorem Refines.sleeper (h : Refines t m) {e : Sleeper} (he : e ∈ t.sleeping) :
    ∃ r, t.Table[e.record]? = some r ∧ t.threadsOf e.record = [e.thread] := by
  refine ⟨_, List.getElem?_eq_getElem (h.inside e he), ?_⟩
  have hthreads := (h.records _ _ (List.getElem?_eq_getElem (h.inside e he))).1
  have hmem : e.thread ∈ t.threadsOf e.record := mem_threadsOf.mpr he
  rw [hthreads] at hmem ⊢
  split at hmem
  next hv =>
    rw [if_pos hv, List.mem_singleton.mp hmem]
  next => exact absurd hmem List.not_mem_nil

/-- **An expiry takes the answer of its record away.** -/
theorem expire_refines (h : Refines t m) {e : Sleeper} (he : e ∈ t.sleeping)
    {r : PendingTableRecord} (hr : t.Table[e.record]? = some r) :
    Refines (t.expire e) (Function.update m r.key none) := by
  obtain ⟨r', hr', hthread⟩ := h.sleeper he
  obtain rfl := Option.some.inj (hr.symm.trans hr')
  exact (h.wake hthread).makeInValid hr

end Operations

end PendingTable

end ContentNetwork.Ambitious
