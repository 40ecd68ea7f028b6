import Mathlib.Data.List.MinMax
import Mathlib.Data.List.Perm.Subperm

/-!
# The first and the last minimum of a list

`firstArgmin f l` is the first of the elements with the least value of `f`,
and `lastArgmin f l` the last of them. Both are computed by one pass from the
front that keeps a candidate (`firstArgmin_concat`, `lastArgmin_concat`): the
candidate gives way to a smaller value only, or to an equal one as well.

`IsFirst` and `IsLast` say where the element stands; their values agree, and
they are the same element unless the minimum is attained twice.
-/

namespace Lib.Minimum

variable {α β : Type*} [LinearOrder β] {f : α → β} {l : List α} {a b : α}

/-- `a` stands where `f` is least, and nothing before it is as small. -/
def IsFirst (f : α → β) (l : List α) (a : α) : Prop :=
  ∃ before after, l = before ++ a :: after ∧ (∀ x ∈ before, f a < f x) ∧ ∀ x ∈ after, f a ≤ f x

/-- `a` stands where `f` is least, and nothing behind it is as small. -/
def IsLast (f : α → β) (l : List α) (a : α) : Prop :=
  ∃ before after, l = before ++ a :: after ∧ (∀ x ∈ before, f a ≤ f x) ∧ ∀ x ∈ after, f a < f x

/-- The first element with the least value. -/
def firstArgmin (f : α → β) (l : List α) : Option α :=
  l.argmin f

/-- The last element with the least value. -/
def lastArgmin (f : α → β) (l : List α) : Option α :=
  l.reverse.argmin f

/-- One more element at the back: it is taken if it is smaller than the
candidate. -/
theorem firstArgmin_concat (f : α → β) (b : α) (l : List α) :
    firstArgmin f (l ++ [b]) = Option.casesOn (firstArgmin f l) (some b)
      fun c => if f b < f c then some b else some c :=
  List.argmin_concat f b l

/-- One more element at the back: it is taken unless the candidate is smaller. -/
theorem lastArgmin_concat (f : α → β) (b : α) (l : List α) :
    lastArgmin f (l ++ [b]) = Option.casesOn (lastArgmin f l) (some b)
      fun c => if f c < f b then some c else some b := by
  rw [lastArgmin, List.reverse_append, List.reverse_singleton, List.singleton_append,
    List.argmin_cons]
  rfl

theorem IsFirst.mem (h : IsFirst f l a) : a ∈ l := by
  obtain ⟨before, after, rfl, -, -⟩ := h
  exact List.mem_append_right _ (List.mem_cons_self ..)

theorem IsLast.mem (h : IsLast f l a) : a ∈ l := by
  obtain ⟨before, after, rfl, -, -⟩ := h
  exact List.mem_append_right _ (List.mem_cons_self ..)

theorem IsFirst.le (h : IsFirst f l a) : ∀ x ∈ l, f a ≤ f x := by
  obtain ⟨before, after, rfl, hbefore, hafter⟩ := h
  intro x hx
  rcases List.mem_append.mp hx with hx | hx
  · exact le_of_lt (hbefore x hx)
  · rcases List.mem_cons.mp hx with rfl | hx
    · exact le_refl _
    · exact hafter x hx

/-- Read backwards, the last minimum is the first. -/
theorem isLast_iff_reverse : IsLast f l a ↔ IsFirst f l.reverse a := by
  constructor
  · intro h
    obtain ⟨before, after, rfl, hbefore, hafter⟩ := h
    refine ⟨after.reverse, before.reverse, by simp, ?_, ?_⟩
    · exact fun x hx => hafter x (List.mem_reverse.mp hx)
    · exact fun x hx => hbefore x (List.mem_reverse.mp hx)
  · intro h
    obtain ⟨before, after, hl, hbefore, hafter⟩ := h
    refine ⟨after.reverse, before.reverse, ?_, ?_, ?_⟩
    · rw [← List.reverse_reverse l, hl]
      simp
    · exact fun x hx => hafter x (List.mem_reverse.mp hx)
    · exact fun x hx => hbefore x (List.mem_reverse.mp hx)

theorem IsLast.le (h : IsLast f l a) : ∀ x ∈ l, f a ≤ f x := fun x hx =>
  (isLast_iff_reverse.mp h).le x (List.mem_reverse.mpr hx)

/-- What `firstArgmin` takes is the first minimum. -/
theorem isFirst_of_firstArgmin (h : firstArgmin f l = some a) : IsFirst f l a := by
  induction l using List.reverseRecOn generalizing a with
  | nil => cases h
  | append_singleton l b ih =>
    rw [firstArgmin_concat] at h
    cases hl : firstArgmin f l with
    | none =>
      rw [hl] at h
      obtain rfl := Option.some.inj h
      obtain rfl := List.argmin_eq_none.mp hl
      exact ⟨[], [], rfl, fun x hx => absurd hx List.not_mem_nil,
        fun x hx => absurd hx List.not_mem_nil⟩
    | some c =>
      rw [hl] at h
      dsimp only at h
      have hc := ih hl
      by_cases hlt : f b < f c
      · -- the new element is smaller than everything before it
        rw [if_pos hlt] at h
        obtain rfl := Option.some.inj h
        exact ⟨l, [], rfl, fun x hx => lt_of_lt_of_le hlt (hc.le x hx),
          fun x hx => absurd hx List.not_mem_nil⟩
      · rw [if_neg hlt] at h
        obtain rfl := Option.some.inj h
        obtain ⟨before, after, rfl, hbefore, hafter⟩ := hc
        refine ⟨before, after ++ [b], by simp, hbefore, fun x hx => ?_⟩
        rcases List.mem_append.mp hx with hx | hx
        · exact hafter x hx
        · obtain rfl := List.mem_singleton.mp hx
          exact not_lt.mp hlt

/-- What `lastArgmin` takes is the last minimum. -/
theorem isLast_of_lastArgmin (h : lastArgmin f l = some a) : IsLast f l a :=
  isLast_iff_reverse.mpr (isFirst_of_firstArgmin h)

theorem firstArgmin_eq_none : firstArgmin f l = none ↔ l = [] :=
  List.argmin_eq_none

theorem lastArgmin_eq_none : lastArgmin f l = none ↔ l = [] := by
  rw [lastArgmin, List.argmin_eq_none, List.reverse_eq_nil_iff]

/-- The least value is the same. -/
theorem IsFirst.value_eq (h : IsFirst f l a) (h' : IsLast f l b) : f a = f b :=
  le_antisymm (h.le b h'.mem) (h'.le a h.mem)

/-- Two different minima mean a tie. -/
theorem IsFirst.tie (h : IsFirst f l a) (h' : IsLast f l b) (hne : a ≠ b) :
    2 ≤ l.countP fun x => f x = f a := by
  have hsub : [a, b] ⊆ l.filter fun x => f x = f a := by
    intro x hx
    rw [List.mem_filter, decide_eq_true_eq]
    rcases List.mem_cons.mp hx with rfl | hx
    · exact ⟨h.mem, rfl⟩
    · obtain rfl := List.mem_singleton.mp hx
      exact ⟨h'.mem, (h.value_eq h').symm⟩
  have hnodup : [a, b].Nodup := by simpa using hne
  rw [List.countP_eq_length_filter]
  exact (hnodup.subperm hsub).length_le

end Lib.Minimum
