import ContentNetwork.Lib.Keyed
import ContentNetwork.Lib.Lts

/-!
# The routing table of the concurrent router

`RoutingTableRecord` and `RoutingTable` of `Router.h`, and what
`HandleAnnouncementPacket` does to the table. Like the pending table it is a
vector whose records are made valid and invalid in place, searched from the
front by content ID. `RoutingTable::DeleteRecord` has no caller and is left
out.

`RoutingTableRecord::startTimer` has an empty body: no thread is ever created
for a record, and nothing makes it invalid. `stopTimer` all the same hands
`pthread_cancel` the record's `TimerThread`, which was never set. That is
undefined; the parameter `returns` says whether the call returns, and where it
does not, the process has ended (`none`). It is reached by an announcement that
`improves` a valid record, and by no other (`handleAnnouncement_eq_none`).

A table that starts empty keeps all its records valid (`Valid`); then an
announcement pushes a record, improves the one it finds, or changes nothing
(`handleAnnouncement_cases`).
-/

namespace ContentNetwork.Ambitious

open Lib Lib.Lts

/-- In seconds. No code of the router uses it. -/
def g_ROUTING_TABLE_EXPIRY_TIME : Nat := 30

/-- `class RoutingTableRecord`. -/
structure RoutingTableRecord where
  ContentID : Int
  NumOfHops : Int
  PortInterface : Int
  isValid : Bool
  deriving DecidableEq, Repr

/-- `class RoutingTable`. -/
structure RoutingTable where
  Table : List RoutingTableRecord
  deriving DecidableEq, Repr

namespace RoutingTable

/-- The table of a router that starts. -/
def empty : RoutingTable := ⟨[]⟩

/-- The first record of the content, as every loop over the table finds it. -/
def find (t : RoutingTable) (contentID : Int) : Option Nat :=
  Keyed.index RoutingTableRecord.ContentID contentID t.Table

/-- A setter of the record at position `i`. -/
def modify (t : RoutingTable) (i : Nat) (f : RoutingTableRecord → RoutingTableRecord) :
    RoutingTable :=
  ⟨t.Table.modify i f⟩

def setNumOfHops (t : RoutingTable) (i : Nat) (hops : Int) : RoutingTable :=
  t.modify i fun r => { r with NumOfHops := hops }

def setPortInterface (t : RoutingTable) (i : Nat) (interface : Int) : RoutingTable :=
  t.modify i fun r => { r with PortInterface := interface }

def makeValid (t : RoutingTable) (i : Nat) : RoutingTable :=
  t.modify i fun r => { r with isValid := true }

/-- `RoutingTableRecord::startTimer`, whose body is empty. -/
def startTimer (t : RoutingTable) (_ : Nat) : RoutingTable := t

/-- `RoutingTableRecord::stopTimer`: `pthread_cancel` on a `TimerThread` that was
never set. `returns` says whether that call returns. -/
def stopTimer (returns : Bool) (t : RoutingTable) (_ : Nat) : Option RoutingTable :=
  if returns then some t else none

def ReUseExistingInvalidRecord (t : RoutingTable) (contentID hops interface : Int) :
    RoutingTable × Bool :=
  match t.find contentID with
  | some i =>
    if t.Table[i]?.any fun r => !r.isValid then
      ((((t.setNumOfHops i hops).setPortInterface i interface).makeValid i).startTimer i, true)
    else (t, true)
  | none => (t, false)

/-- Re-use the record of the content, or push a new one. -/
def InsertIntoRoutingTable (t : RoutingTable) (contentID hops interface : Int) : RoutingTable :=
  match t.ReUseExistingInvalidRecord contentID hops interface with
  | (t, true) => t
  | (t, false) =>
    (⟨t.Table ++ [⟨contentID, hops, interface, true⟩]⟩ : RoutingTable).startTimer t.Table.length

/-- `true` when the content has a valid record, improved or not. -/
def UpdateRoutingTable (returns : Bool) (t : RoutingTable) (contentID hops interface : Int) :
    Option (RoutingTable × Bool) :=
  match t.find contentID with
  | some i =>
    match t.Table[i]? with
    | some r =>
      if r.isValid then
        if hops < r.NumOfHops then
          (((t.setNumOfHops i hops).setPortInterface i interface).stopTimer returns i).map
            fun t => (t.startTimer i, true)
        else some (t, true)
      else some (t, false)
    | none => some (t, false)
  | none => some (t, false)

def GetInterfaceFromRoutingTable (t : RoutingTable) (contentID : Int) : Int :=
  match t.find contentID with
  | some i =>
    match t.Table[i]? with
    | some r => if r.isValid then r.PortInterface else -1
    | none => -1
  | none => -1

/-- `HandleAnnouncementPacket`, as far as the routing table goes; `none` when
the process has ended. -/
def handleAnnouncement (returns : Bool) (t : RoutingTable) (contentID hops interface : Int) :
    Option RoutingTable :=
  match t.UpdateRoutingTable returns contentID hops interface with
  | some (t, true) => some t
  | some (t, false) => some (t.InsertIntoRoutingTable contentID hops interface)
  | none => none

/-- The record that every loop over the table finds for the content. -/
def record (t : RoutingTable) (contentID : Int) : Option RoutingTableRecord :=
  Keyed.lookup RoutingTableRecord.ContentID contentID t.Table

/-- The announcement has fewer hops than a valid record of its content. -/
def improves (t : RoutingTable) (contentID hops : Int) : Bool :=
  (t.record contentID).any fun r => r.isValid && decide (hops < r.NumOfHops)

/-- The content has a valid record with `hops` hops or less. -/
def Settled (t : RoutingTable) (contentID hops : Int) : Prop :=
  ∃ r, t.record contentID = some r ∧ r.isValid = true ∧ r.NumOfHops ≤ hops

end RoutingTable

/-! ## What an announcement does -/

namespace RoutingTable

variable {returns : Bool} {t t' : RoutingTable} {contentID hops hops' interface : Int}

theorem find_eq_some {i : Nat} (h : t.find contentID = some i) :
    ∃ r, t.Table[i]? = some r ∧ t.record contentID = some r ∧ r.ContentID = contentID := by
  obtain ⟨r, hr, hc⟩ := Keyed.index_eq_some h
  refine ⟨r, hr, ?_, hc⟩
  unfold record
  rw [← Keyed.bind_index, show Keyed.index RoutingTableRecord.ContentID contentID t.Table = some i
    from h, Option.bind_some, hr]

theorem find_eq_none : t.find contentID = none ↔ ∀ r ∈ t.Table, r.ContentID ≠ contentID :=
  Keyed.index_eq_none

theorem record_eq_none : t.record contentID = none ↔ ∀ r ∈ t.Table, r.ContentID ≠ contentID :=
  Keyed.lookup_eq_none

/-- What an announcement does to any table, by the record that is found. -/
theorem handleAnnouncement_eq (returns : Bool) (t : RoutingTable)
    (contentID hops interface : Int) :
    t.handleAnnouncement returns contentID hops interface
      = match t.find contentID, t.record contentID with
        | some i, some r =>
          if r.isValid then
            if hops < r.NumOfHops then
              if returns then some ((t.setNumOfHops i hops).setPortInterface i interface) else none
            else some t
          else some (((t.setNumOfHops i hops).setPortInterface i interface).makeValid i)
        | _, _ => some ⟨t.Table ++ [⟨contentID, hops, interface, true⟩]⟩ := by
  unfold handleAnnouncement UpdateRoutingTable InsertIntoRoutingTable ReUseExistingInvalidRecord
  cases hf : t.find contentID with
  | none =>
    dsimp only
    rw [hf]
    rfl
  | some i =>
    obtain ⟨r, hr, hfound, -⟩ := find_eq_some hf
    dsimp only
    rw [hr, hfound]
    dsimp only
    cases hv : r.isValid with
    | true =>
      rw [if_pos rfl, if_pos rfl]
      by_cases hlt : hops < r.NumOfHops
      · rw [if_pos hlt, if_pos hlt, stopTimer]
        cases returns with
        | true => rfl
        | false => rfl
      · rw [if_neg hlt, if_neg hlt]
    | false =>
      -- the record is re-used
      rw [if_neg Bool.false_ne_true, if_neg Bool.false_ne_true]
      dsimp only
      rw [hf]
      dsimp only
      rw [hr, Option.any_some, hv]
      rfl

theorem improves_iff : t.improves contentID hops = true ↔
    ∃ r, t.record contentID = some r ∧ r.isValid = true ∧ hops < r.NumOfHops := by
  unfold improves
  cases t.record contentID with
  | none => simp
  | some r => simp

/-- **An announcement ends the process exactly if it improves a valid record
and `pthread_cancel` does not return.** -/
theorem handleAnnouncement_eq_none :
    t.handleAnnouncement returns contentID hops interface = none ↔
      returns = false ∧ t.improves contentID hops = true := by
  rw [handleAnnouncement_eq, improves_iff]
  cases hf : t.find contentID with
  | none =>
    rw [record_eq_none.mpr (find_eq_none.mp hf)]
    simp
  | some i =>
    obtain ⟨r, -, hfound, -⟩ := find_eq_some hf
    rw [hfound]
    by_cases hlt : hops < r.NumOfHops
    · cases hv : r.isValid <;> cases returns <;> simp [hv, hlt]
    · cases hv : r.isValid <;> simp [hv, hlt]

/-- What the setters and `makeValid` leave of the record that is found. -/
theorem record_modify {i : Nat} (hf : t.find contentID = some i)
    {f : RoutingTableRecord → RoutingTableRecord} (hkey : ∀ r, (f r).ContentID = r.ContentID) :
    (t.modify i f).record contentID = (t.record contentID).map f :=
  Keyed.lookup_modify_self hkey hf

theorem find_modify {i : Nat} (hf : t.find contentID = some i)
    {f : RoutingTableRecord → RoutingTableRecord} (hkey : ∀ r, (f r).ContentID = r.ContentID) :
    (t.modify i f).find contentID = some i :=
  (Keyed.index_modify hkey i).trans hf

/-- An announcement that has been handled settles its content. -/
theorem settled_of_handleAnnouncement
    (h : t.handleAnnouncement returns contentID hops interface = some t') :
    t'.Settled contentID hops := by
  rw [handleAnnouncement_eq] at h
  cases hf : t.find contentID with
  | none =>
    rw [hf] at h
    obtain rfl := Option.some.inj h
    refine ⟨⟨contentID, hops, interface, true⟩, ?_, rfl, Int.le_refl _⟩
    exact @Keyed.lookup_push_self _ _ _ RoutingTableRecord.ContentID
      ⟨contentID, hops, interface, true⟩ _ (find_eq_none.mp hf)
  | some i =>
    obtain ⟨r, -, hfound, -⟩ := find_eq_some hf
    have hhops := record_modify hf (f := fun r => { r with NumOfHops := hops }) fun _ => rfl
    have hfhops := find_modify hf (f := fun r => { r with NumOfHops := hops }) fun _ => rfl
    have hport := record_modify hfhops (f := fun r => { r with PortInterface := interface })
      fun _ => rfl
    have hfport := find_modify hfhops (f := fun r => { r with PortInterface := interface })
      fun _ => rfl
    rw [hhops, hfound] at hport
    rw [hf, hfound] at h
    dsimp only at h
    split_ifs at h with hv hlt hret
    · -- improved
      obtain rfl := Option.some.inj h
      exact ⟨_, hport, hv, Int.le_refl _⟩
    · obtain rfl := Option.some.inj h
      exact ⟨r, hfound, hv, Int.not_lt.mp hlt⟩
    · -- re-used
      obtain rfl := Option.some.inj h
      have hvalid := record_modify hfport (f := fun r => { r with isValid := true }) fun _ => rfl
      rw [hport] at hvalid
      exact ⟨_, hvalid, rfl, Int.le_refl _⟩

/-- An announcement that is no nearer than a settled content changes nothing. -/
theorem Settled.handleAnnouncement (h : t.Settled contentID hops) (hle : hops ≤ hops')
    (returns : Bool) (interface : Int) :
    t.handleAnnouncement returns contentID hops' interface = some t := by
  obtain ⟨r, hr, hv, hhops⟩ := h
  have hnot : ¬hops' < r.NumOfHops := by omega
  cases hf : t.find contentID with
  | none =>
    rw [record_eq_none.mpr (find_eq_none.mp hf)] at hr
    cases hr
  | some i =>
    rw [handleAnnouncement_eq, hf, hr]
    dsimp only
    rw [if_pos hv, if_neg hnot]

theorem Settled.mono (h : t.Settled contentID hops) (hle : hops ≤ hops') :
    t.Settled contentID hops' := by
  obtain ⟨r, hr, hv, hhops⟩ := h
  exact ⟨r, hr, hv, Int.le_trans hhops hle⟩

theorem Settled.not_improves (h : t.Settled contentID hops) (hle : hops ≤ hops') :
    t.improves contentID hops' = false := by
  by_contra himp
  have hnone : t.handleAnnouncement false contentID hops' 0 = none :=
    handleAnnouncement_eq_none.mpr ⟨rfl, (Bool.not_eq_false _).mp himp⟩
  rw [h.handleAnnouncement hle] at hnone
  cases hnone

end RoutingTable

/-! ## Tables with valid records -/

/-- Unique contents, and every record valid. -/
structure RoutingTable.Valid (t : RoutingTable) : Prop where
  unique : Keyed.Unique RoutingTableRecord.ContentID t.Table
  valid : ∀ r ∈ t.Table, r.isValid = true

namespace RoutingTable

variable {returns : Bool} {t t' : RoutingTable} {contentID hops interface : Int}

theorem empty_valid : empty.Valid :=
  ⟨List.nodup_nil, fun _ hr => absurd hr List.not_mem_nil⟩

/-- An announcement of a new content is pushed; one with fewer hops than the
record of its content changes that record; any other changes nothing. -/
theorem handleAnnouncement_cases (hv : t.Valid)
    (h : t.handleAnnouncement returns contentID hops interface = some t') :
    ((∀ r ∈ t.Table, r.ContentID ≠ contentID) ∧
      t' = ⟨t.Table ++ [⟨contentID, hops, interface, true⟩]⟩) ∨
    ∃ i r, t.Table[i]? = some r ∧ r.ContentID = contentID ∧
      ((hops < r.NumOfHops ∧ t' = (t.setNumOfHops i hops).setPortInterface i interface) ∨
        (r.NumOfHops ≤ hops ∧ t' = t)) := by
  rw [handleAnnouncement_eq] at h
  cases hf : t.find contentID with
  | none =>
    rw [hf] at h
    exact Or.inl ⟨find_eq_none.mp hf, (Option.some.inj h).symm⟩
  | some i =>
    obtain ⟨r, hr, hfound, hc⟩ := find_eq_some hf
    refine Or.inr ⟨i, r, hr, hc, ?_⟩
    rw [hf, hfound] at h
    dsimp only at h
    -- the record is valid, so it is not re-used whatever the hops
    rw [if_pos (hv.valid r (List.mem_of_getElem? hr))] at h
    split_ifs at h with hlt hret
    · exact Or.inl ⟨hlt, (Option.some.inj h).symm⟩
    · exact Or.inr ⟨Int.not_lt.mp hlt, (Option.some.inj h).symm⟩

/-- Both setters on a record of the content leave the announced record. -/
theorem adopt_eq {r : RoutingTableRecord} (hv : r.isValid = true) :
    ({ { r with NumOfHops := hops } with PortInterface := interface } : RoutingTableRecord)
      = ⟨r.ContentID, hops, interface, true⟩ := by
  rw [← hv]

/-- A record after an announcement was there before or is the announced one. -/
theorem mem_handleAnnouncement (hv : t.Valid)
    (h : t.handleAnnouncement returns contentID hops interface = some t')
    {x : RoutingTableRecord} (hx : x ∈ t'.Table) :
    x ∈ t.Table ∨ x = ⟨contentID, hops, interface, true⟩ := by
  obtain ⟨-, rfl⟩ | ⟨i, r, hr, rfl, ⟨-, rfl⟩ | ⟨-, rfl⟩⟩ := handleAnnouncement_cases hv h
  · rcases List.mem_append.mp hx with hx | hx
    · exact Or.inl hx
    · exact Or.inr (List.mem_singleton.mp hx)
  · obtain ⟨j, hj⟩ := List.mem_iff_getElem?.mp hx
    -- the record at `i` is the announced one, and the others stay
    by_cases hij : i = j
    · subst hij
      have hset : ((t.setNumOfHops i hops).setPortInterface i interface).Table[i]? = _ :=
        Keyed.getElem?_modify_self _ (Keyed.getElem?_modify_self _ hr)
      obtain rfl := Option.some.inj (hset.symm.trans hj)
      exact Or.inr (adopt_eq (hv.valid r (List.mem_of_getElem? hr)))
    · have hj' : ((t.Table.modify i _).modify i _)[j]? = some x := hj
      rw [List.getElem?_modify_ne _ _ hij, List.getElem?_modify_ne _ _ hij] at hj'
      exact Or.inl (List.mem_of_getElem? hj')
  · exact Or.inl hx

theorem contents_setNumOfHops (i : Nat) :
    (t.setNumOfHops i hops).Table.map RoutingTableRecord.ContentID
      = t.Table.map RoutingTableRecord.ContentID := by
  refine Keyed.map_key_modify ?_ i
  exact fun _ => rfl

theorem contents_setPortInterface (i : Nat) :
    (t.setPortInterface i interface).Table.map RoutingTableRecord.ContentID
      = t.Table.map RoutingTableRecord.ContentID := by
  refine Keyed.map_key_modify ?_ i
  exact fun _ => rfl

/-- The contents after an announcement: one more, or the same. -/
theorem contents_handleAnnouncement (hv : t.Valid)
    (h : t.handleAnnouncement returns contentID hops interface = some t') :
    ((∀ r ∈ t.Table, r.ContentID ≠ contentID) ∧
      t'.Table.map RoutingTableRecord.ContentID
        = t.Table.map RoutingTableRecord.ContentID ++ [contentID]) ∨
    ((∃ r ∈ t.Table, r.ContentID = contentID) ∧
      t'.Table.map RoutingTableRecord.ContentID
        = t.Table.map RoutingTableRecord.ContentID) := by
  obtain ⟨habsent, rfl⟩ | ⟨i, r, hr, hc, hcase⟩ := handleAnnouncement_cases hv h
  · refine Or.inl ⟨habsent, ?_⟩
    rw [List.map_append]
    rfl
  · refine Or.inr ⟨⟨r, List.mem_of_getElem? hr, hc⟩, ?_⟩
    obtain ⟨-, rfl⟩ | ⟨-, rfl⟩ := hcase
    · rw [contents_setPortInterface, contents_setNumOfHops]
    · rfl

theorem mem_contents_handleAnnouncement (hv : t.Valid)
    (h : t.handleAnnouncement returns contentID hops interface = some t') {c : Int} :
    c ∈ t'.Table.map RoutingTableRecord.ContentID
      ↔ c ∈ t.Table.map RoutingTableRecord.ContentID ∨ c = contentID := by
  obtain ⟨-, hkeys⟩ | ⟨⟨r, hr, rfl⟩, hkeys⟩ := contents_handleAnnouncement hv h
  · rw [hkeys, List.mem_append, List.mem_singleton]
  · rw [hkeys]
    refine ⟨Or.inl, fun hc => hc.elim id fun he => ?_⟩
    exact he ▸ List.mem_map_of_mem hr

/-- An announcement keeps contents unique and records valid. -/
theorem handleAnnouncement_valid (hv : t.Valid)
    (h : t.handleAnnouncement returns contentID hops interface = some t') : t'.Valid := by
  refine ⟨?_, fun x hx => ?_⟩
  · obtain ⟨habsent, hkeys⟩ | ⟨-, hkeys⟩ := contents_handleAnnouncement hv h
    · have hpush := Keyed.unique_push (r := ⟨contentID, hops, interface, true⟩) hv.unique habsent
      rw [Keyed.Unique, List.map_append] at hpush
      rw [Keyed.Unique, hkeys]
      exact hpush
    · rw [Keyed.Unique, hkeys]
      exact hv.unique
  · rcases mem_handleAnnouncement hv h hx with hx | rfl
    · exact hv.valid x hx
    · rfl

/-- A lookup finds the record of its content. -/
theorem get_of_mem (h : t.Valid) {r : RoutingTableRecord} (hr : r ∈ t.Table) :
    t.GetInterfaceFromRoutingTable r.ContentID = r.PortInterface := by
  obtain ⟨i, hi⟩ := List.mem_iff_getElem?.mp hr
  have hf : t.find r.ContentID = some i := Keyed.index_of_getElem? h.unique hi
  unfold GetInterfaceFromRoutingTable
  rw [hf]
  dsimp only
  rw [hi]
  exact if_pos (h.valid r hr)

/-- A lookup of a content without record. -/
theorem get_of_absent (habsent : ∀ r ∈ t.Table, r.ContentID ≠ contentID) :
    t.GetInterfaceFromRoutingTable contentID = -1 := by
  unfold GetInterfaceFromRoutingTable
  rw [find_eq_none.mpr habsent]

end RoutingTable

end ContentNetwork.Ambitious
