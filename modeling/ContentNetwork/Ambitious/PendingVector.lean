import ContentNetwork.Ambitious.PendingRefines

/-!
# The pending table in memory

`startTimer` hands its thread the address `this` of the record, which is an
element of the vector `PendingTable::Table`. `push_back` on a full vector
moves all records to a fresh buffer, and from then on the thread holds the
address of memory that is no part of the table any more: when it wakes up, it
makes no record of the table invalid.

`PendingVector` is the pending table with the buffer its vector stands in, the
capacity of that buffer, and for every thread the buffer its argument points
into; the position in the buffer is that of its `Sleeper`. How far a full
vector grows is left to the standard library (`spare`). Without the memory the
operations are those of `PendingTable` (`handleRequest_table`), except that an
expiry may miss (`expire_table`).

`run_expiresOwn_iff` is the exact statement: along any run, every expiry makes
its own record invalid and changes no other iff the vector has not moved
between the start of the thread and its expiry. Such a run is one of
`pendingSystem` (`run_forgetMemory`).
-/

namespace ContentNetwork.Ambitious

open Lib Lib.Lts

/-- `PendingTable` with the memory of its vector. -/
structure PendingVector where
  table : PendingTable
  /-- The buffer of the vector; a fresh one has the next number. -/
  buffer : Nat
  capacity : Nat
  /-- The buffer of the record that a thread was started for. -/
  startedIn : Nat → Nat

namespace PendingVector

/-- A vector that has never held a record. -/
def empty : PendingVector := ⟨.empty, 0, 0, fun _ => 0⟩

/-- Calls on records that neither start a timer nor add a record. -/
def onTable (v : PendingVector) (f : PendingTable → PendingTable) : PendingVector :=
  { v with table := f v.table }

/-- `startTimer` of the record at position `i`: `this` points into the buffer. -/
def startTimer (v : PendingVector) (i : Nat) : PendingVector :=
  { v with
    table := v.table.startTimer i
    startedIn := Function.update v.startedIn v.table.nextThread v.buffer }

/-- `Table.push_back`: a full vector moves to a fresh buffer, which has room
for the record and `spare` more. -/
def push_back (spare : Nat → Nat) (v : PendingVector) (r : PendingTableRecord) : PendingVector :=
  if v.table.Table.length = v.capacity then
    { v with
      table := { v.table with Table := v.table.Table ++ [r] }
      buffer := v.buffer + 1
      capacity := v.capacity + 1 + spare v.capacity }
  else { v with table := { v.table with Table := v.table.Table ++ [r] } }

def ReUseExistingInvalidRecord (v : PendingVector) (contentID hostID interface : Int) :
    PendingVector × Bool :=
  match v.table.find (contentID, hostID) with
  | some i =>
    ((v.onTable fun t => (t.setPortInterface i interface).makeValid i).startTimer i, true)
  | none => (v, false)

def InsertIntoPendingTable (spare : Nat → Nat) (v : PendingVector)
    (contentID hostID interface : Int) : PendingVector :=
  match v.ReUseExistingInvalidRecord contentID hostID interface with
  | (v, true) => v
  | (v, false) =>
    (v.push_back spare ⟨contentID, hostID, interface, true, 0⟩).startTimer v.table.Table.length

def UpdatePendingTableRecord (v : PendingVector) (contentID hostID interface : Int) :
    PendingVector × Bool :=
  match v.table.find (contentID, hostID) with
  | some i =>
    if v.table.Table[i]?.any (·.isValid) then
      ((v.onTable fun t => (t.setPortInterface i interface).stopTimer i).startTimer i, true)
    else (v, false)
  | none => (v, false)

/-- `HandleRequestPackets`, as far as the pending table goes. -/
def handleRequest (spare : Nat → Nat) (v : PendingVector) (contentID hostID interface : Int) :
    PendingVector :=
  match v.UpdatePendingTableRecord contentID hostID interface with
  | (v, true) => v
  | (v, false) => v.InsertIntoPendingTable spare contentID hostID interface

/-- `timerProc_RTR` of the thread `e` after its sleep. A write through an
address in an old buffer reaches no record of the table. -/
def expire (v : PendingVector) (e : Sleeper) : PendingVector :=
  if v.startedIn e.thread = v.buffer then v.onTable fun t => t.expire e
  else v.onTable fun t => t.wake e.thread

/-! ## The operations without the memory -/

section Forget

variable {spare : Nat → Nat} {v : PendingVector} {contentID hostID interface : Int}

theorem push_back_table (r : PendingTableRecord) :
    (v.push_back spare r).table = { v.table with Table := v.table.Table ++ [r] } := by
  unfold push_back
  split <;> rfl

/-- A request does to the table what it does without the memory. -/
theorem handleRequest_table : (v.handleRequest spare contentID hostID interface).table
    = v.table.handleRequest contentID hostID interface := by
  unfold handleRequest UpdatePendingTableRecord InsertIntoPendingTable ReUseExistingInvalidRecord
    PendingTable.handleRequest PendingTable.UpdatePendingTableRecord
    PendingTable.InsertIntoPendingTable PendingTable.ReUseExistingInvalidRecord
  cases hf : v.table.find (contentID, hostID) with
  | none =>
    dsimp only
    rw [hf]
    show (v.push_back spare _).table.startTimer _ = _
    rw [push_back_table]
  | some i =>
    dsimp only
    by_cases hvalid : v.table.Table[i]?.any (·.isValid) = true
    · rw [if_pos hvalid, if_pos hvalid]
      rfl
    · rw [if_neg hvalid, if_neg hvalid]
      dsimp only
      rw [hf]
      rfl

/-- A request without record pushes one, in a vector that may have to grow. -/
theorem handleRequest_new (hf : v.table.find (contentID, hostID) = none) :
    v.handleRequest spare contentID hostID interface
      = (v.push_back spare ⟨contentID, hostID, interface, true, 0⟩).startTimer
          v.table.Table.length := by
  unfold handleRequest UpdatePendingTableRecord InsertIntoPendingTable ReUseExistingInvalidRecord
  rw [hf]
  dsimp only
  rw [hf]

/-- An expiry does so, too, if the vector is where it was. -/
theorem expire_table (e : Sleeper) :
    (v.expire e).table
      = if v.startedIn e.thread = v.buffer then v.table.expire e else v.table.wake e.thread := by
  unfold expire
  split <;> rfl

end Forget

end PendingVector

/-- One action of the pending table in memory. -/
def vectorStep (spare : Nat → Nat) (v : PendingVector) : PendingAction → Option PendingVector
  | .request contentID hostID interface =>
    some (v.handleRequest spare contentID hostID interface)
  | .response contentID hostID =>
    some (v.onTable fun t => (t.handleResponse contentID hostID).1)
  | .expire e => if e ∈ v.table.sleeping then some (v.expire e) else none

def vectorSystem (spare : Nat → Nat) : Lts PendingVector PendingAction :=
  .ofStep .empty (vectorStep spare)

/-- What each action does to the table. -/
theorem vectorStep_table {spare : Nat → Nat} {v v' : PendingVector} {a : PendingAction}
    (h : vectorStep spare v a = some v') :
    match a with
    | .request contentID hostID interface =>
      v'.table = v.table.handleRequest contentID hostID interface
    | .response contentID hostID => v'.table = (v.table.handleResponse contentID hostID).1
    | .expire e => e ∈ v.table.sleeping ∧ v'.table
        = if v.startedIn e.thread = v.buffer then v.table.expire e
          else v.table.wake e.thread := by
  cases a with
  | request contentID hostID interface =>
    obtain rfl := Option.some.inj h
    exact PendingVector.handleRequest_table
  | response contentID hostID =>
    obtain rfl := Option.some.inj h
    rfl
  | expire e =>
    simp only [vectorStep] at h
    split at h
    next he =>
      obtain rfl := Option.some.inj h
      exact ⟨he, PendingVector.expire_table e⟩
    next => cases h

/-! ## Sleeping threads and their records -/

namespace PendingTable

/-- Keys are unique, and every sleeping thread is the `TimerThread` of its
record, which is valid. A valid record may have lost its thread. -/
structure Watched (t : PendingTable) : Prop where
  unique : Keyed.Unique PendingTableRecord.key t.Table
  own : ∀ e ∈ t.sleeping, ∃ r, t.Table[e.record]? = some r ∧ r.isValid = true ∧
    r.TimerThread = e.thread

/-- No thread sleeps for the record at position `i`. -/
def Idle (t : PendingTable) (i : Nat) : Prop := ∀ e ∈ t.sleeping, e.record ≠ i

section Watched

variable {t : PendingTable} {i : Nat} {r : PendingTableRecord}

theorem empty_watched : Watched empty :=
  ⟨List.nodup_nil, fun _ he => absurd he List.not_mem_nil⟩

/-- A record without thread may be changed. -/
theorem Watched.modify (h : Watched t) (hidle : t.Idle i)
    {f : PendingTableRecord → PendingTableRecord} (hf : ∀ r, (f r).key = r.key) :
    Watched (t.modify i f) := by
  constructor
  · rw [Keyed.Unique, PendingTable.modify, Keyed.map_key_modify hf]
    exact h.unique
  · intro e he
    obtain ⟨r, hr, hown⟩ := h.own e he
    refine ⟨r, ?_, hown⟩
    show (t.Table.modify i f)[e.record]? = some r
    rw [List.getElem?_modify_ne _ _ (hidle e he).symm]
    exact hr

theorem Watched.wake (h : Watched t) (thread : Nat) : Watched (t.wake thread) :=
  ⟨h.unique, fun e he => h.own e (List.mem_filter.mp he).1⟩

/-- When the thread of its record is woken, no thread sleeps for it. -/
theorem Watched.idle_wake (h : Watched t) (hr : t.Table[i]? = some r) :
    (t.wake r.TimerThread).Idle i := by
  intro e he hei
  obtain ⟨hmem, hne⟩ := List.mem_filter.mp he
  obtain ⟨r', hr', -, hthread⟩ := h.own e hmem
  rw [hei, hr] at hr'
  obtain rfl := Option.some.inj hr'
  exact of_decide_eq_true hne hthread.symm

/-- No thread sleeps for an invalid record. -/
theorem Watched.idle_of_invalid (h : Watched t) (hr : t.Table[i]? = some r)
    (hv : r.isValid = false) : t.Idle i := by
  intro e he hei
  obtain ⟨r', hr', hvalid, -⟩ := h.own e he
  rw [hei, hr] at hr'
  obtain rfl := Option.some.inj hr'
  rw [hv] at hvalid
  exact Bool.false_ne_true hvalid

/-- The timer of a valid record without thread may be started. -/
theorem Watched.startTimer (h : Watched t) (hidle : t.Idle i) (hr : t.Table[i]? = some r)
    (hv : r.isValid = true) : Watched (t.startTimer i) := by
  have hset : Watched (t.modify i fun x => { x with TimerThread := t.nextThread }) :=
    h.modify hidle fun _ => rfl
  refine ⟨hset.unique, fun e he => ?_⟩
  rcases List.mem_append.mp he with he | he
  · exact hset.own e he
  · obtain rfl := List.mem_singleton.mp he
    exact ⟨_, Keyed.getElem?_modify_self _ hr, hv, rfl⟩

/-- A new record, with its timer started. -/
theorem Watched.push (h : Watched t) (hnew : ∀ x ∈ t.Table, x.key ≠ r.key)
    (hv : r.isValid = true) :
    Watched (({ t with Table := t.Table ++ [r] } : PendingTable).startTimer t.Table.length) := by
  have hpush : Watched { t with Table := t.Table ++ [r] } := by
    refine ⟨Keyed.unique_push h.unique hnew, fun e he => ?_⟩
    obtain ⟨x, hx, hown⟩ := h.own e he
    refine ⟨x, ?_, hown⟩
    show (t.Table ++ [r])[e.record]? = some x
    rw [List.getElem?_append_left (List.getElem?_eq_some_iff.mp hx).1]
    exact hx
  refine hpush.startTimer (fun e he hei => ?_) List.getElem?_concat_length hv
  -- the threads there are sleep for older records
  obtain ⟨x, hx, -⟩ := h.own e he
  rw [hei, List.getElem?_eq_none (Nat.le_refl _)] at hx
  cases hx

/-- A request keeps the invariant. -/
theorem Watched.handleRequest (h : Watched t) (contentID hostID interface : Int) :
    Watched (t.handleRequest contentID hostID interface) := by
  cases hf : t.find (contentID, hostID) with
  | none =>
    rw [handleRequest_new hf]
    exact h.push (Keyed.index_eq_none.mp hf) rfl
  | some i =>
    obtain ⟨r, hr, -⟩ := find_eq_some hf
    cases hv : r.isValid with
    | true =>
      rw [handleRequest_valid hf hr hv]
      have hidle := h.idle_wake hr
      have hset : Watched ((t.wake r.TimerThread).setPortInterface i interface) :=
        (h.wake _).modify hidle fun _ => rfl
      exact hset.startTimer hidle (Keyed.getElem?_modify_self _ hr) hv
    | false =>
      rw [handleRequest_invalid hf hr hv]
      have hidle := h.idle_of_invalid hr hv
      have hport : Watched (t.setPortInterface i interface) := h.modify hidle fun _ => rfl
      have hmake : Watched ((t.setPortInterface i interface).makeValid i) :=
        hport.modify hidle fun _ => rfl
      have hri : ((t.setPortInterface i interface).makeValid i).Table[i]?
          = some { r with PortInterface := interface, isValid := true } :=
        Keyed.getElem?_modify_self _ (Keyed.getElem?_modify_self _ hr)
      exact hmake.startTimer hidle hri rfl

/-- A response keeps it. -/
theorem Watched.DeleteRecord (h : Watched t) (contentID hostID : Int) :
    Watched (t.DeleteRecord contentID hostID) := by
  cases hf : t.find (contentID, hostID) with
  | none =>
    unfold PendingTable.DeleteRecord
    rw [hf]
    exact h
  | some i =>
    obtain ⟨r, hr, -⟩ := find_eq_some hf
    rw [DeleteRecord_of_find hf hr]
    exact (h.wake _).modify (h.idle_wake hr) fun _ => rfl

theorem Watched.handleResponse (h : Watched t) (contentID hostID : Int) :
    Watched (t.handleResponse contentID hostID).1 := by
  unfold PendingTable.handleResponse
  split
  · exact h.DeleteRecord contentID hostID
  · exact h

/-- An expiry keeps it, wherever it writes. -/
theorem Watched.expire (h : Watched t) {e : Sleeper} (he : e ∈ t.sleeping) :
    Watched (t.expire e) := by
  obtain ⟨r, hr, -, hthread⟩ := h.own e he
  have hidle := h.idle_wake hr
  rw [hthread] at hidle
  exact (h.wake _).modify hidle fun _ => rfl

/-- An expiry that reaches its record makes it invalid and changes no other. -/
theorem Watched.expire_eq (h : Watched t) {e : Sleeper} (he : e ∈ t.sleeping)
    (hr : t.Table[e.record]? = some r) :
    (t.expire e).record r.RequestedContentID r.ContentRequestingHostID
        = some { r with isValid := false } ∧
      (t.expire e).Table = t.Table.set e.record { r with isValid := false } := by
  have hset : (t.expire e).Table = t.Table.set e.record { r with isValid := false } := by
    show t.Table.modify e.record _ = _
    rw [List.modify_eq_set_getElem?, hr]
    rfl
  have hmem : { r with isValid := false } ∈ (t.expire e).Table := by
    rw [hset]
    exact List.mem_set (List.getElem?_eq_some_iff.mp hr).1 _
  exact ⟨Keyed.lookup_of_mem (h.expire he).unique hmem, hset⟩

end Watched

end PendingTable

/-- Every sleeping thread has its record, in every reachable state. -/
theorem reachable_watched {spare : Nat → Nat} {v : PendingVector}
    (h : (vectorSystem spare).Reachable v) : v.table.Watched := by
  refine Reachable.invariant (I := fun v => v.table.Watched) ?_ ?_ h
  · intro v hv
    rw [show v = .empty from hv]
    exact PendingTable.empty_watched
  · intro v a v' hi hs
    have htable := vectorStep_table hs
    cases a with
    | request contentID hostID interface =>
      rw [show v'.table = _ from htable]
      exact hi.handleRequest ..
    | response contentID hostID =>
      rw [show v'.table = _ from htable]
      exact hi.handleResponse ..
    | expire e =>
      obtain ⟨he, hv'⟩ := htable
      rw [hv']
      split
      · exact hi.expire he
      · exact hi.wake _

/-! ## Expiries -/

/-- The thread whose sleep is over. -/
def PendingAction.fired : PendingAction → Option Sleeper
  | .expire e => some e
  | _ => none

/-- An expiry makes the record of its key invalid, the one its thread was
started for, and changes no other. -/
def ExpiresOwn (m : Move PendingVector PendingAction) : Prop :=
  ∀ e ∈ m.act.fired, ∃ r, m.pre.table.Table[e.record]? = some r ∧ r.TimerThread = e.thread ∧
    m.post.table.record r.RequestedContentID r.ContentRequestingHostID
      = some { r with isValid := false } ∧
    m.post.table.Table = m.pre.table.Table.set e.record { r with isValid := false }

/-- An expiry finds the vector where it was when its thread was started. -/
def NotMoved (m : Move PendingVector PendingAction) : Prop :=
  ∀ e ∈ m.act.fired, m.pre.startedIn e.thread = m.pre.buffer

instance : DecidablePred NotMoved := fun m =>
  inferInstanceAs (Decidable (∀ e ∈ m.act.fired, _ = _))

/-- One expiry reaches its record exactly when the vector has not moved. -/
theorem move_expiresOwn_iff {spare : Nat → Nat} {m : Move PendingVector PendingAction}
    (hpre : (vectorSystem spare).Reachable m.pre)
    (hs : (vectorSystem spare).step m.pre m.act m.post) : ExpiresOwn m ↔ NotMoved m := by
  obtain ⟨v, a, v'⟩ := m
  refine forall_congr' fun e => forall_congr' fun hfired => ?_
  obtain rfl : a = .expire e := by
    cases a with
    | expire e' => exact congrArg PendingAction.expire (Option.some.inj hfired)
    | request => cases hfired
    | response => cases hfired
  have hwatched := reachable_watched hpre
  obtain ⟨he, htable⟩ := vectorStep_table hs
  obtain ⟨r, hr, hvalid, hthread⟩ := hwatched.own e he
  have hlt := (List.getElem?_eq_some_iff.mp hr).1
  dsimp only
  constructor
  · intro hown
    by_contra hmoved
    -- the table is as it was, and the record in it valid
    obtain ⟨r', hr', -, -, hset⟩ := hown
    rw [htable, if_neg hmoved] at hset
    obtain rfl := Option.some.inj (hr.symm.trans hr')
    have hsame : v.table.Table[e.record]? = some { r with isValid := false } := by
      rw [show v.table.Table = _ from hset, List.getElem?_set_self hlt]
    have hinvalid := congrArg PendingTableRecord.isValid (Option.some.inj (hr.symm.trans hsame))
    rw [hvalid] at hinvalid
    exact Bool.false_ne_true hinvalid.symm
  · intro hstill
    rw [if_pos hstill] at htable
    rw [htable]
    exact ⟨r, hr, hthread, hwatched.expire_eq he hr⟩

/-- **Every expiry of a run hits its own record and nothing else iff the
vector never moves between the start of a thread and its expiry.** -/
theorem run_expiresOwn_iff {spare : Nat → Nat} {ms : List (Move PendingVector PendingAction)}
    {v : PendingVector} (h : (vectorSystem spare).Run ms v) :
    (∀ m ∈ ms, ExpiresOwn m) ↔ ∀ m ∈ ms, NotMoved m :=
  h.forall_iff fun _ => move_expiresOwn_iff

/-- A vector that doubles its capacity. -/
def doubled (capacity : Nat) : Nat := capacity - 1

/-- The second request moves the record of the first one; when the first
thread wakes up, its record stays valid. -/
theorem expiry_misses :
    ∃ ms v, (vectorSystem doubled).Run ms v ∧
      v.table.GetInterfaceFromPendingTable 7 10 = 0 ∧ ¬∀ m ∈ ms, ExpiresOwn m := by
  have h : trace (vectorStep doubled) .empty
      [.request 7 10 0, .request 7 11 1, .expire ⟨0, 0⟩] = some (_, _) := rfl
  refine ⟨_, _, run_of_trace h, by decide, ?_⟩
  rw [(run_of_trace h).forall_iff fun _ => move_expiresOwn_iff]
  decide

/-- The thread of the second request finds the vector where it was. -/
theorem expiry_hits :
    ∃ ms v, (vectorSystem doubled).Run ms v ∧
      v.table.GetInterfaceFromPendingTable 7 11 = -1 ∧ ∀ m ∈ ms, ExpiresOwn m := by
  have h : trace (vectorStep doubled) .empty
      [.request 7 10 0, .request 7 11 1, .expire ⟨1, 1⟩] = some (_, _) := rfl
  exact ⟨_, _, run_of_trace h, by decide, (run_expiresOwn_iff (run_of_trace h)).mpr (by decide)⟩

/-- A move without the memory. -/
def forgetMemory (m : Move PendingVector PendingAction) : Move PendingTable PendingAction :=
  ⟨m.pre.table, m.act, m.post.table⟩

/-- **While no expiry misses, the table in memory is the pending table.** -/
theorem run_forgetMemory {spare : Nat → Nat} {ms : List (Move PendingVector PendingAction)}
    {v : PendingVector} (h : (vectorSystem spare).Run ms v) (hms : ∀ m ∈ ms, NotMoved m) :
    pendingSystem.Run (ms.map forgetMemory) v.table := by
  induction h with
  | start hs =>
    rw [show _ = PendingVector.empty from hs]
    exact .start rfl
  | @snoc ms v v' a hrun hs ih =>
    have hlast := hms ⟨v, a, v'⟩ List.mem_concat_self
    have hstep : pendingSystem.step v.table a v'.table := by
      have htable := vectorStep_table hs
      cases a with
      | request contentID hostID interface => exact congrArg some htable.symm
      | response contentID hostID => exact congrArg some htable.symm
      | expire e =>
        obtain ⟨he, htable⟩ := htable
        rw [if_pos (hlast e rfl)] at htable
        show (if e ∈ v.table.sleeping then some (v.table.expire e) else none) = some v'.table
        rw [if_pos he, htable]
    rw [List.map_append]
    exact (ih fun m hm => hms m (List.mem_append_left _ hm)).snoc hstep

end ContentNetwork.Ambitious
