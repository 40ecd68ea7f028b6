import ContentNetwork.Lib.Keyed
import ContentNetwork.Lib.Lts

/-!
# The pending table of the concurrent router

`PendingTableRecord` and `PendingTable` of the other version's `Router.h`. A
record is never removed from the vector: a response or its timer makes it
invalid, and the next request for its content and host makes it valid again.
Searches stop at the first record with the key, valid or not.

Every record that waits for a response has a thread of its own that sleeps and
then makes it invalid. The threads are part of the table here: `sleeping`
holds those that have been created and neither cancelled nor woken up, each
with the position of the record it was started for (positions never change).
`pthread_cancel` on a thread that is not sleeping any more does nothing.

`pendingSystem` runs the three things that happen to the table: a request, a
response, an expiry. Each is atomic, and an expiry acts on the record its
thread was started for.
-/

namespace ContentNetwork.Ambitious

open Lib Lib.Lts

/-- `class PendingTableRecord`. -/
structure PendingTableRecord where
  RequestedContentID : Int
  ContentRequestingHostID : Int
  PortInterface : Int
  isValid : Bool
  TimerThread : Nat
  deriving DecidableEq, Repr

/-- What a pending record is searched by. -/
def PendingTableRecord.key (r : PendingTableRecord) : Int × Int :=
  (r.RequestedContentID, r.ContentRequestingHostID)

/-- A thread in the `sleep` of `timerProc_RTR`, and its record. -/
structure Sleeper where
  thread : Nat
  record : Nat
  deriving DecidableEq, Repr

/-- `class PendingTable`, with the timer threads of its records. -/
structure PendingTable where
  Table : List PendingTableRecord
  sleeping : List Sleeper
  nextThread : Nat
  deriving DecidableEq, Repr

namespace PendingTable

/-- The table of a router that starts. -/
def empty : PendingTable := ⟨[], [], 0⟩

/-- The first record with the key, as every loop over the table finds it. -/
def find (t : PendingTable) (k : Int × Int) : Option Nat :=
  Keyed.index PendingTableRecord.key k t.Table

/-- A setter of the record at position `i`. -/
def modify (t : PendingTable) (i : Nat) (f : PendingTableRecord → PendingTableRecord) :
    PendingTable :=
  { t with Table := t.Table.modify i f }

def setPortInterface (t : PendingTable) (i : Nat) (interface : Int) : PendingTable :=
  t.modify i fun r => { r with PortInterface := interface }

def makeValid (t : PendingTable) (i : Nat) : PendingTable :=
  t.modify i fun r => { r with isValid := true }

def makeInValid (t : PendingTable) (i : Nat) : PendingTable :=
  t.modify i fun r => { r with isValid := false }

/-- `pthread_create(&TimerThread, …)`. -/
def startTimer (t : PendingTable) (i : Nat) : PendingTable :=
  { Table := t.Table.modify i fun r => { r with TimerThread := t.nextThread }
    sleeping := t.sleeping ++ [⟨t.nextThread, i⟩]
    nextThread := t.nextThread + 1 }

/-- `thread` sleeps no more: it was cancelled, or its sleep is over. -/
def wake (t : PendingTable) (thread : Nat) : PendingTable :=
  { t with sleeping := t.sleeping.filter fun e => e.thread ≠ thread }

/-- `pthread_cancel(TimerThread)`. -/
def stopTimer (t : PendingTable) (i : Nat) : PendingTable :=
  match t.Table[i]? with
  | some r => t.wake r.TimerThread
  | none => t

/-- `timerProc_RTR` of the thread `e` after its sleep. -/
def expire (t : PendingTable) (e : Sleeper) : PendingTable :=
  (t.wake e.thread).makeInValid e.record

def DeleteRecord (t : PendingTable) (contentID hostID : Int) : PendingTable :=
  match t.find (contentID, hostID) with
  | some i => (t.stopTimer i).makeInValid i
  | none => t

def ReUseExistingInvalidRecord (t : PendingTable) (contentID hostID interface : Int) :
    PendingTable × Bool :=
  match t.find (contentID, hostID) with
  | some i => (((t.setPortInterface i interface).makeValid i).startTimer i, true)
  | none => (t, false)

/-- Re-use the record of the key, or push a new one. -/
def InsertIntoPendingTable (t : PendingTable) (contentID hostID interface : Int) :
    PendingTable :=
  match t.ReUseExistingInvalidRecord contentID hostID interface with
  | (t, true) => t
  | (t, false) =>
    ({ t with Table := t.Table ++ [⟨contentID, hostID, interface, true, 0⟩] } :
      PendingTable).startTimer t.Table.length

def UpdatePendingTableRecord (t : PendingTable) (contentID hostID interface : Int) :
    PendingTable × Bool :=
  match t.find (contentID, hostID) with
  | some i =>
    if t.Table[i]?.any (·.isValid) then
      (((t.setPortInterface i interface).stopTimer i).startTimer i, true)
    else (t, false)
  | none => (t, false)

def GetInterfaceFromPendingTable (t : PendingTable) (contentID hostID : Int) : Int :=
  match t.find (contentID, hostID) with
  | some i =>
    match t.Table[i]? with
    | some r => if r.isValid then r.PortInterface else -1
    | none => -1
  | none => -1

/-- `HandleRequestPackets`, as far as the pending table goes. -/
def handleRequest (t : PendingTable) (contentID hostID interface : Int) : PendingTable :=
  match t.UpdatePendingTableRecord contentID hostID interface with
  | (t, true) => t
  | (t, false) => t.InsertIntoPendingTable contentID hostID interface

/-- The pending table in `case RESPONSE`: the interface the response is sent
through, if it is. -/
def handleResponse (t : PendingTable) (contentID hostID : Int) : PendingTable × Option Int :=
  if t.GetInterfaceFromPendingTable contentID hostID ≠ -1 then
    (t.DeleteRecord contentID hostID, some (t.GetInterfaceFromPendingTable contentID hostID))
  else (t, none)

/-- The threads that sleep for the record at position `i`. -/
def threadsOf (t : PendingTable) (i : Nat) : List Nat :=
  (t.sleeping.filter fun e => e.record = i).map Sleeper.thread

/-! ## Records by key

What the operations do to the record that is found for a key, in any table,
also one with several records of a key. -/

/-- The record that the searches for `(contentID, hostID)` find. -/
def record (t : PendingTable) (contentID hostID : Int) : Option PendingTableRecord :=
  Keyed.lookup PendingTableRecord.key (contentID, hostID) t.Table

variable {t : PendingTable} {c h c' h' i : Int}

theorem get_eq_record : t.GetInterfaceFromPendingTable c h
    = match t.record c h with
      | some r => if r.isValid then r.PortInterface else -1
      | none => -1 := by
  unfold GetInterfaceFromPendingTable record find
  rw [← Keyed.bind_index]
  cases Keyed.index PendingTableRecord.key (c, h) t.Table with
  | none => rfl
  | some j => rfl

/-- An interface that is found is that of a record of the key. -/
theorem exists_record_of_get (hget : t.GetInterfaceFromPendingTable c h = i) (hne : i ≠ -1) :
    ∃ r ∈ t.Table, r.key = (c, h) ∧ r.PortInterface = i := by
  rw [get_eq_record] at hget
  cases hr : t.record c h with
  | none =>
    rw [hr] at hget
    exact absurd hget.symm hne
  | some r =>
    rw [hr] at hget
    dsimp only at hget
    split at hget
    · exact ⟨r, Keyed.lookup_mem hr, Keyed.lookup_key hr, hget⟩
    · exact absurd hget.symm hne

/-- Which record the searches find. -/
theorem find_eq_some {k : Int × Int} {j : Nat} (h : t.find k = some j) :
    ∃ r, t.Table[j]? = some r ∧ r.key = k :=
  Keyed.index_eq_some h

/-- The thread that is cancelled is the one the record knows. -/
theorem stopTimer_of_getElem? {j : Nat} {r : PendingTableRecord} (hr : t.Table[j]? = some r) :
    t.stopTimer j = t.wake r.TimerThread := by
  unfold stopTimer
  rw [hr]

/-! What a request and a response do to the record of their key. -/

/-- A request without record pushes one. -/
theorem handleRequest_new (hf : t.find (c, h) = none) :
    t.handleRequest c h i = ({ t with Table := t.Table ++ [⟨c, h, i, true, 0⟩] } :
      PendingTable).startTimer t.Table.length := by
  unfold handleRequest UpdatePendingTableRecord InsertIntoPendingTable ReUseExistingInvalidRecord
  rw [hf]
  dsimp only
  rw [hf]

/-- A request for a valid record cancels its thread and starts a new one. -/
theorem handleRequest_valid {j : Nat} {r : PendingTableRecord} (hf : t.find (c, h) = some j)
    (hr : t.Table[j]? = some r) (hv : r.isValid = true) :
    t.handleRequest c h i = ((t.wake r.TimerThread).setPortInterface j i).startTimer j := by
  have hri : (t.setPortInterface j i).Table[j]? = some { r with PortInterface := i } :=
    Keyed.getElem?_modify_self _ hr
  unfold handleRequest UpdatePendingTableRecord
  rw [hf]
  dsimp only
  rw [hr, Option.any_some, if_pos hv, stopTimer_of_getElem? hri]
  rfl

/-- A request for an invalid record makes it valid again. -/
theorem handleRequest_invalid {j : Nat} {r : PendingTableRecord} (hf : t.find (c, h) = some j)
    (hr : t.Table[j]? = some r) (hv : r.isValid = false) :
    t.handleRequest c h i = ((t.setPortInterface j i).makeValid j).startTimer j := by
  unfold handleRequest UpdatePendingTableRecord InsertIntoPendingTable ReUseExistingInvalidRecord
  rw [hf]
  dsimp only
  rw [hr, Option.any_some, hv, if_neg Bool.false_ne_true]
  dsimp only
  rw [hf]

theorem DeleteRecord_of_find {j : Nat} {r : PendingTableRecord} (hf : t.find (c, h) = some j)
    (hr : t.Table[j]? = some r) :
    t.DeleteRecord c h = (t.wake r.TimerThread).makeInValid j := by
  unfold DeleteRecord
  rw [hf]
  dsimp only
  rw [stopTimer_of_getElem? hr]

/-- The record at position `j`, if there is one, has the key `(c, h)`. -/
def KeyAt (t : PendingTable) (j : Nat) (c h : Int) : Prop :=
  ∀ r, t.Table[j]? = some r → r.key = (c, h)

theorem keyAt_of_find {j : Nat} (hj : t.find (c, h) = some j) : t.KeyAt j c h := by
  intro r hr
  obtain ⟨r', hr', hkey⟩ := find_eq_some hj
  rw [hr] at hr'
  obtain rfl := Option.some.inj hr'
  exact hkey

/-- `t'` has the key `(c, h)` where `t` has it, and `t`'s records of the other
keys. -/
structure OnlyAt (t t' : PendingTable) (j : Nat) (c h : Int) : Prop where
  keyAt : t'.KeyAt j c h
  others : ∀ c' h', (c', h') ≠ (c, h) → t'.record c' h' = t.record c' h'

theorem OnlyAt.trans {t' t'' : PendingTable} {j : Nat} (h₁ : OnlyAt t t' j c h)
    (h₂ : OnlyAt t' t'' j c h) : OnlyAt t t'' j c h :=
  ⟨h₂.keyAt, fun c' h' hne => (h₂.others c' h' hne).trans (h₁.others c' h' hne)⟩

theorem onlyAt_modify {j : Nat} {f : PendingTableRecord → PendingTableRecord}
    (hf : ∀ r, (f r).key = r.key) (hj : t.KeyAt j c h) : OnlyAt t (t.modify j f) j c h := by
  constructor
  · -- the key at `j` is the one that was there
    intro r hr
    dsimp only [modify] at hr
    rw [List.getElem?_modify_eq] at hr
    obtain ⟨r', hr', rfl⟩ := Option.map_eq_some_iff.mp hr
    rw [hf]
    exact hj r' hr'
  · intro c' h' hne
    refine Keyed.lookup_modify_ne hf fun r hr => ?_
    rw [hj r hr]
    exact hne.symm

theorem onlyAt_startTimer {j : Nat} (hj : t.KeyAt j c h) : OnlyAt t (t.startTimer j) j c h := by
  obtain ⟨hkey, hothers⟩ := onlyAt_modify (t := t)
    (f := fun r => { r with TimerThread := t.nextThread }) (fun _ => rfl) hj
  exact ⟨hkey, hothers⟩

/-- A request leaves the records of the other keys. -/
theorem record_handleRequest_ne (hne : (c', h') ≠ (c, h)) :
    (t.handleRequest c h i).record c' h' = t.record c' h' := by
  cases hj : t.find (c, h) with
  | none =>
    -- a new record is pushed
    rw [handleRequest_new hj]
    refine ((onlyAt_startTimer (c := c) (h := h) fun r hr => ?_).others c' h' hne).trans ?_
    · dsimp only at hr
      rw [List.getElem?_concat_length] at hr
      obtain rfl := Option.some.inj hr
      rfl
    · exact Keyed.lookup_push_ne hne.symm
  | some j =>
    obtain ⟨r, hr, -⟩ := find_eq_some hj
    cases hv : r.isValid with
    | true =>
      rw [handleRequest_valid hj hr hv]
      have hwake : OnlyAt t (t.wake r.TimerThread) j c h := ⟨keyAt_of_find hj, fun _ _ _ => rfl⟩
      have hport := hwake.trans (onlyAt_modify (f := fun r => { r with PortInterface := i })
        (fun _ => rfl) hwake.keyAt)
      exact (hport.trans (onlyAt_startTimer hport.keyAt)).others c' h' hne
    | false =>
      rw [handleRequest_invalid hj hr hv]
      have hport : OnlyAt t (t.setPortInterface j i) j c h :=
        onlyAt_modify (fun _ => rfl) (keyAt_of_find hj)
      have hmake : OnlyAt t ((t.setPortInterface j i).makeValid j) j c h :=
        hport.trans (onlyAt_modify (fun _ => rfl) hport.keyAt)
      exact (hmake.trans (onlyAt_startTimer hmake.keyAt)).others c' h' hne

/-- A response leaves no valid record of its key to be found. -/
theorem get_DeleteRecord_self : (t.DeleteRecord c h).GetInterfaceFromPendingTable c h = -1 := by
  rw [get_eq_record]
  cases hj : t.find (c, h) with
  | none =>
    unfold DeleteRecord record
    rw [hj]
    dsimp only
    rw [Keyed.lookup_eq_none.mpr (Keyed.index_eq_none.mp hj)]
  | some j =>
    obtain ⟨r, hr, -⟩ := find_eq_some hj
    have hkey : ∀ r : PendingTableRecord, ({ r with isValid := false } : PendingTableRecord).key
        = r.key := fun _ => rfl
    have hlookup := Keyed.lookup_modify_self hkey hj
    rw [DeleteRecord_of_find hj hr]
    unfold record
    dsimp only [makeInValid, modify, wake]
    rw [hlookup]
    cases Keyed.lookup PendingTableRecord.key (c, h) t.Table with
    | none => rfl
    | some r => rfl

/-! Deleting and expiring start no thread and keep the number of records. -/

section Forall

variable {P : PendingTableRecord → Prop}

theorem forall_modify {j : Nat} {f : PendingTableRecord → PendingTableRecord}
    (ht : ∀ x ∈ t.Table, P x) (hf : ∀ x, t.Table[j]? = some x → P x → P (f x)) :
    ∀ x ∈ (t.modify j f).Table, P x := by
  intro x hx
  obtain ⟨k, hk⟩ := List.mem_iff_getElem?.mp hx
  dsimp only [modify] at hk
  by_cases hjk : j = k
  · subst hjk
    rw [List.getElem?_modify_eq] at hk
    obtain ⟨y, hy, rfl⟩ := Option.map_eq_some_iff.mp hk
    exact hf y hy (ht y (List.mem_of_getElem? hy))
  · rw [List.getElem?_modify_ne _ _ hjk] at hk
    exact ht x (List.mem_of_getElem? hk)

variable (hP : ∀ x y : PendingTableRecord, x.key = y.key → x.PortInterface = y.PortInterface →
  P x → P y)
include hP

theorem forall_makeInValid (ht : ∀ x ∈ t.Table, P x) (j : Nat) :
    ∀ x ∈ (t.makeInValid j).Table, P x :=
  forall_modify ht fun x _ hx => hP x _ rfl rfl hx

theorem forall_startTimer (ht : ∀ x ∈ t.Table, P x) (j : Nat) :
    ∀ x ∈ (t.startTimer j).Table, P x :=
  forall_modify ht fun x _ hx => hP x { x with TimerThread := t.nextThread } rfl rfl hx

theorem forall_expire (ht : ∀ x ∈ t.Table, P x) (e : Sleeper) : ∀ x ∈ (t.expire e).Table, P x :=
  forall_makeInValid hP (t := t.wake e.thread) ht e.record

theorem forall_DeleteRecord (ht : ∀ x ∈ t.Table, P x) (c h : Int) :
    ∀ x ∈ (t.DeleteRecord c h).Table, P x := by
  cases hj : t.find (c, h) with
  | none =>
    unfold DeleteRecord
    rw [hj]
    exact ht
  | some j =>
    obtain ⟨r, hr, -⟩ := find_eq_some hj
    rw [DeleteRecord_of_find hj hr]
    exact forall_makeInValid hP (t := t.wake r.TimerThread) ht j

theorem forall_handleResponse (ht : ∀ x ∈ t.Table, P x) (c h : Int) :
    ∀ x ∈ (t.handleResponse c h).1.Table, P x := by
  unfold handleResponse
  split
  · exact forall_DeleteRecord hP ht c h
  · exact ht

/-- A request leaves the records there are, and one under its own key with its
arrival interface. -/
theorem forall_handleRequest (ht : ∀ x ∈ t.Table, P x)
    (hnew : ∀ x : PendingTableRecord, x.key = (c, h) → x.PortInterface = i → P x) :
    ∀ x ∈ (t.handleRequest c h i).Table, P x := by
  cases hj : t.find (c, h) with
  | none =>
    rw [handleRequest_new hj]
    exact forall_startTimer hP (Keyed.forall_push ht (hnew _ rfl rfl)) _
  | some j =>
    obtain ⟨r, hr, hk⟩ := find_eq_some hj
    have hport : ∀ t' : PendingTable, t'.Table = t.Table →
        ∀ x ∈ (t'.setPortInterface j i).Table, P x := by
      intro t' ht'
      refine forall_modify (by rw [ht']; exact ht) fun x hx _ => hnew _ ?_ rfl
      rw [ht', hr] at hx
      obtain rfl := Option.some.inj hx
      exact hk
    cases hv : r.isValid with
    | true =>
      rw [handleRequest_valid hj hr hv]
      exact forall_startTimer hP (hport (t.wake r.TimerThread) rfl) j
    | false =>
      rw [handleRequest_invalid hj hr hv]
      refine forall_startTimer hP ?_ j
      exact forall_modify (hport t rfl) fun x _ hx => hP x { x with isValid := true } rfl rfl hx

end Forall

end PendingTable

/-- What happens to the pending table. A request arrives on one of the
interfaces, which are numbered from 0. -/
inductive PendingAction
  | request (contentID hostID : Int) (interface : Nat)
  | response (contentID hostID : Int)
  | expire (e : Sleeper)
  deriving DecidableEq, Repr

/-- One action; `none` for the expiry of a thread that does not sleep. -/
def pendingStep (t : PendingTable) : PendingAction → Option PendingTable
  | .request contentID hostID interface => some (t.handleRequest contentID hostID interface)
  | .response contentID hostID => some (t.handleResponse contentID hostID).1
  | .expire e => if e ∈ t.sleeping then some (t.expire e) else none

/-- The pending table of a router as a transition system. -/
def pendingSystem : Lts PendingTable PendingAction :=
  .ofStep .empty pendingStep

end ContentNetwork.Ambitious
