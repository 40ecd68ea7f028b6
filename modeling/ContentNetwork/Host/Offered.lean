import Mathlib.Data.Finset.Basic
import ContentNetwork.Lib.Lts

/-!
# The list of announced contents

`list1` of `host.cpp` should hold the contents the user has `PUT` and not `DEL`
since, each once. `PUT` searches the list with `std::find`, but to learn
whether the search has failed it looks at the value behind the iterator, not
at the iterator: `(*findIter) <= 0`. That works when a content is there and is
not content 0. When the search has failed, `*findIter` reads through `end()`;
what it finds there is not defined, and is a number that each command brings
with it here (`behindEnd`).

So the list is a set exactly as long as that number is never positive and
content 0 is not put twice; and `end()` is read by the first `PUT` already
(`run_offered_iff`). Both versions of `host.cpp` have these lines.
-/

namespace ContentNetwork.Host

open Lib Lib.Lts

/-- `PUT` of `main`; `is_open` says whether the content's file could be opened.
`behindEnd` is what `*list1.end()` is. -/
def PUT (list1 : List Int) (cID : Int) (is_open : Bool) (behindEnd : Int) : List Int :=
  if is_open then
    let findIter := (list1.find? (· = cID)).getD behindEnd
    if findIter ≤ 0 then list1 ++ [cID] else list1
  else list1

/-- `DEL` of `main`: `list1.remove(var1)`. -/
def DEL (list1 : List Int) (var1 : Int) : List Int :=
  list1.filter (· ≠ var1)

/-- What the user enters, and what happens to be in memory then. -/
inductive Command
  | PUT (cID : Int) (is_open : Bool) (behindEnd : Int)
  | DEL (var1 : Int)
  deriving DecidableEq, Repr

/-- The file of a content that is put exists. -/
def Command.FileExists : Command → Prop
  | .PUT _ is_open _ => is_open = true
  | .DEL _ => True

instance : DecidablePred Command.FileExists
  | .PUT _ is_open _ => inferInstanceAs (Decidable (is_open = true))
  | .DEL _ => .isTrue trivial

def commandStep (list1 : List Int) : Command → Option (List Int)
  | .PUT cID is_open behindEnd => some (PUT list1 cID is_open behindEnd)
  | .DEL var1 => some (DEL list1 var1)

/-- The contents whose last command was `PUT`. -/
def offeredAfter (offered : Finset Int) (_ : List Int) : Command → Finset Int
  | .PUT cID _ _ => insert cID offered
  | .DEL var1 => offered.erase var1

/-- The list under the user's commands, with the contents that it should hold. -/
def offeredSystem : Lts (List Int × Finset Int) Command :=
  (Lts.ofStep [] commandStep).observe ∅ offeredAfter

/-- The list holds the contents that it should hold, each once. -/
def ListsOffered (s : List Int × Finset Int) : Prop :=
  s.1.Nodup ∧ s.1.toFinset = s.2

/-- A `PUT` that reads through `end()`. -/
def ReadsEnd (m : Move (List Int × Finset Int) Command) : Prop :=
  match m.act with
  | .PUT cID is_open _ => is_open = true ∧ cID ∉ m.pre.1
  | .DEL _ => False

/-- A content that is put is listed and positive, or it is not listed and what
stands behind the list is not positive. -/
def PutsWell (m : Move (List Int × Finset Int) Command) : Prop :=
  match m.act with
  | .PUT cID _ behindEnd => if cID ∈ m.pre.1 then 0 < cID else behindEnd ≤ 0
  | .DEL _ => True

instance : DecidablePred PutsWell
  | ⟨s, .PUT cID _ behindEnd, _⟩ =>
    inferInstanceAs (Decidable (if cID ∈ s.1 then 0 < cID else behindEnd ≤ 0))
  | ⟨_, .DEL _, _⟩ => .isTrue trivial

variable {list1 : List Int} {cID var1 behindEnd : Int} {offered : Finset Int}

/-! ## One command -/

theorem PUT_of_mem (h : cID ∈ list1) :
    PUT list1 cID true behindEnd = if cID ≤ 0 then list1 ++ [cID] else list1 := by
  have hfind : list1.find? (· = cID) = some cID := by
    cases hf : list1.find? (· = cID) with
    | none => exact absurd (decide_eq_true rfl) (List.find?_eq_none.mp hf cID h)
    | some x =>
      have hx : x = cID := by simpa using List.find?_some hf
      rw [hx]
  unfold PUT
  rw [if_pos rfl, hfind]
  rfl

theorem PUT_of_not_mem (h : cID ∉ list1) :
    PUT list1 cID true behindEnd = if behindEnd ≤ 0 then list1 ++ [cID] else list1 := by
  have hfind : list1.find? (· = cID) = none := by
    refine List.find?_eq_none.mpr fun x hx => ?_
    have hne : x ≠ cID := fun he => h (he ▸ hx)
    simpa using hne
  unfold PUT
  rw [if_pos rfl, hfind]
  rfl

theorem toFinset_push : (list1 ++ [cID]).toFinset = insert cID list1.toFinset := by
  ext x
  simp

/-- A list that is right stays right under a `PUT` iff it is put well. -/
theorem PUT_listsOffered_iff (h : ListsOffered (list1, offered)) :
    ListsOffered (PUT list1 cID true behindEnd, insert cID offered)
      ↔ if cID ∈ list1 then 0 < cID else behindEnd ≤ 0 := by
  obtain ⟨hnodup, hset⟩ := h
  dsimp only at hnodup hset
  subst hset
  by_cases hmem : cID ∈ list1
  · rw [if_pos hmem, PUT_of_mem hmem]
    by_cases hpos : 0 < cID
    · rw [if_neg (Int.not_le.mpr hpos)]
      refine iff_of_true ⟨hnodup, ?_⟩ hpos
      exact (Finset.insert_eq_self.mpr (List.mem_toFinset.mpr hmem)).symm
    · rw [if_pos (Int.not_lt.mp hpos)]
      refine iff_of_false (fun h => ?_) hpos
      -- the content is in the list twice now
      exact (List.nodup_append.mp h.1).2.2 cID hmem cID (List.mem_singleton.mpr rfl) rfl
  · rw [if_neg hmem, PUT_of_not_mem hmem]
    by_cases hneg : behindEnd ≤ 0
    · rw [if_pos hneg]
      refine iff_of_true ⟨?_, toFinset_push⟩ hneg
      exact List.nodup_append.mpr ⟨hnodup, List.nodup_singleton _, fun x hx y hy he =>
        hmem (List.mem_singleton.mp hy ▸ he ▸ hx)⟩
    · rw [if_neg hneg]
      refine iff_of_false (fun h => ?_) hneg
      -- the content is not in the list, but should be
      have hin : cID ∈ list1.toFinset := h.2.symm ▸ Finset.mem_insert_self ..
      exact hmem (List.mem_toFinset.mp hin)

theorem DEL_listsOffered (h : ListsOffered (list1, offered)) :
    ListsOffered (DEL list1 var1, offered.erase var1) := by
  obtain ⟨hnodup, hset⟩ := h
  dsimp only at hnodup hset
  subst hset
  refine ⟨hnodup.filter _, ?_⟩
  ext x
  simp [DEL, and_comm]

/-! ## Every run -/

theorem move_listsOffered_iff {m : Move (List Int × Finset Int) Command}
    (hs : offeredSystem.step m.pre m.act m.post) (hfile : m.act.FileExists)
    (hpre : ListsOffered m.pre) : ListsOffered m.post ↔ PutsWell m := by
  obtain ⟨⟨list1, offered⟩, act, ⟨list1', offered'⟩⟩ := m
  obtain ⟨hstep, hoffered⟩ := hs
  dsimp only at hstep hoffered hpre
  subst hoffered
  cases act with
  | PUT cID is_open behindEnd =>
    obtain rfl : is_open = true := hfile
    obtain rfl := Option.some.inj hstep
    exact PUT_listsOffered_iff hpre
  | DEL var1 =>
    obtain rfl := Option.some.inj hstep
    exact iff_of_true (DEL_listsOffered hpre) trivial

/-- The list stays right all along a run iff contents are put well. -/
theorem run_listsOffered_iff {ms : List (Move (List Int × Finset Int) Command)}
    {s : List Int × Finset Int} (h : offeredSystem.Run ms s)
    (hfiles : ∀ m ∈ ms, m.act.FileExists) :
    (∀ m ∈ ms, ListsOffered m.post) ↔ ∀ m ∈ ms, PutsWell m := by
  have hguard : (offeredSystem.guard fun _ a => a.FileExists).Run ms s := h.guard hfiles
  refine hguard.forall_post_iff ?_ fun m _ hs hpre => ?_
  · rintro ⟨list1, offered⟩ ⟨rfl, rfl⟩
    exact ⟨List.nodup_nil, rfl⟩
  · exact move_listsOffered_iff hs.2 hs.1 hpre

/-- Without a read through `end()` nothing is ever put, and the list is empty. -/
theorem run_of_not_readsEnd {ms : List (Move (List Int × Finset Int) Command)}
    {s : List Int × Finset Int} (h : offeredSystem.Run ms s)
    (hfiles : ∀ m ∈ ms, m.act.FileExists) (hend : ∀ m ∈ ms, ¬ReadsEnd m) :
    (∀ m ∈ ms, ∃ var1, m.act = .DEL var1) ∧ s.1 = [] := by
  induction h with
  | start hs => exact ⟨fun m hm => absurd hm List.not_mem_nil, hs.1⟩
  | @snoc ms s s' a _ hs ih =>
    obtain ⟨hdel, hempty⟩ := ih (fun m hm => hfiles m (List.mem_append_left _ hm))
      (fun m hm => hend m (List.mem_append_left _ hm))
    have hlast : (⟨s, a, s'⟩ : Move (List Int × Finset Int) Command) ∈ ms ++ [⟨s, a, s'⟩] :=
      List.mem_concat_self
    cases a with
    | PUT cID is_open behindEnd =>
      -- nothing is listed yet, so the search fails
      refine absurd ⟨hfiles _ hlast, ?_⟩ (hend _ hlast)
      show cID ∉ s.1
      rw [hempty]
      exact List.not_mem_nil
    | DEL var1 =>
      refine ⟨fun m hm => ?_, ?_⟩
      · rcases List.mem_append.mp hm with hm | hm
        · exact hdel m hm
        · rw [List.mem_singleton.mp hm]
          exact ⟨var1, rfl⟩
      · have hstep : some (DEL s.1 var1) = some s'.1 := hs.1
        rw [← Option.some.inj hstep, hempty]
        rfl

/-- **The list of contents is the set it should be, and `end()` is never read,
all along a run iff the run has no `PUT`.** The first half alone holds iff
contents are put well. -/
theorem run_offered_iff {ms : List (Move (List Int × Finset Int) Command)}
    {s : List Int × Finset Int} (h : offeredSystem.Run ms s)
    (hfiles : ∀ m ∈ ms, m.act.FileExists) :
    ((∀ m ∈ ms, ListsOffered m.post ∧ ¬ReadsEnd m) ↔ ∀ m ∈ ms, ∃ var1, m.act = .DEL var1) ∧
      ((∀ m ∈ ms, ListsOffered m.post) ↔ ∀ m ∈ ms, PutsWell m) := by
  have hiff := run_listsOffered_iff h hfiles
  refine ⟨⟨fun hgood => ?_, fun hdel => ?_⟩, hiff⟩
  · exact (run_of_not_readsEnd h hfiles fun m hm => (hgood m hm).2).1
  · have hwell : ∀ m ∈ ms, PutsWell m := by
      intro m hm
      obtain ⟨var1, hact⟩ := hdel m hm
      unfold PutsWell
      rw [hact]
      trivial
    intro m hm
    refine ⟨hiff.mpr hwell m hm, ?_⟩
    obtain ⟨var1, hact⟩ := hdel m hm
    unfold ReadsEnd
    rw [hact]
    exact id

/-- Two contents are put, one of them twice, and one is deleted. -/
theorem offered_put_del :
    ∃ ms s, offeredSystem.Run ms s ∧ s.1 = [8] ∧ ∀ m ∈ ms, ListsOffered m.post := by
  have h : trace (observeStep commandStep offeredAfter) ([], ∅)
      [.PUT 7 true 0, .PUT 8 true 0, .PUT 7 true 0, .DEL 7] = some (_, _) := rfl
  have hrun := observe_run_of_trace h
  exact ⟨_, _, hrun, rfl, (run_offered_iff hrun (by decide)).2.mpr (by decide)⟩

/-- Content 0 is put twice and is listed twice, although memory holds 0 behind
the list each time. -/
theorem offered_zero_twice :
    ∃ ms s, offeredSystem.Run ms s ∧ (∀ m ∈ ms, m.act.FileExists) ∧ s.1 = [0, 0] ∧
      ¬∀ m ∈ ms, ListsOffered m.post ∧ ¬ReadsEnd m := by
  have h : trace (observeStep commandStep offeredAfter) ([], ∅)
      [.PUT 0 true 0, .PUT 0 true 0] = some (_, _) := rfl
  refine ⟨_, _, observe_run_of_trace h, by decide, rfl, fun hgood => ?_⟩
  have hlast := (hgood _ (List.mem_cons_of_mem _ (List.mem_singleton.mpr rfl))).1.1
  exact absurd hlast (by decide)

end ContentNetwork.Host
