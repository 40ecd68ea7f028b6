import Mathlib.Data.Multiset.Basic
import Mathlib.Data.Multiset.DershowitzManna

/-!
# What is in flight, as a bag

A list of things in flight, of which a step takes one out at some position
and adds some at the end. `bag f` is the multiset of what `f` selects from
the list, so that positions do not matter: taking out a thing that is not
selected changes nothing, and one that is selected is one element less
(`bag_split_none`, `bag_split_some`).

`bag_lt` is the termination order for such steps: one element is replaced by
any number of smaller ones.
-/

namespace Lib

variable {α β : Type*}

/-- What `f` selects from a list, as a multiset. -/
def bag (f : α → Option β) (l : List α) : Multiset β :=
  (l.filterMap f : List β)

variable {f : α → Option β} {x : α} {y : β} {before after l l' : List α}

theorem mem_bag : y ∈ bag f l ↔ ∃ x ∈ l, f x = some y := by
  rw [bag, Multiset.mem_coe, List.mem_filterMap]

theorem bag_append : bag f (l ++ l') = bag f l + bag f l' := by
  unfold bag
  rw [List.filterMap_append]
  rfl

theorem bag_eq_zero (h : ∀ x ∈ l, f x = none) : bag f l = 0 := by
  unfold bag
  rw [List.filterMap_eq_nil_iff.mpr h]
  rfl

theorem bag_split_none (h : f x = none) :
    bag f (before ++ x :: after) = bag f (before ++ after) := by
  unfold bag
  rw [List.filterMap_append, List.filterMap_cons_none h, ← List.filterMap_append]

theorem bag_split_some (h : f x = some y) :
    bag f (before ++ x :: after) = y ::ₘ bag f (before ++ after) := by
  unfold bag
  rw [List.filterMap_append, List.filterMap_cons_some h, List.filterMap_append]
  exact Multiset.coe_eq_coe.mpr List.perm_middle

/-- Pushing a thing is adding it to the bag. -/
theorem bag_push_none (h : f x = none) : bag f (l ++ [x]) = bag f l := by
  rw [bag_split_none h, List.append_nil]

theorem bag_push_some (h : f x = some y) : bag f (l ++ [x]) = y ::ₘ bag f l := by
  rw [bag_split_some h, List.append_nil]

/-- One element is replaced by smaller ones. -/
theorem bag_lt [Preorder β] {rest new : Multiset β} (h : ∀ z ∈ new, z < y) :
    Multiset.IsDershowitzMannaLT (rest + new) (y ::ₘ rest) := by
  refine ⟨rest, new, {y}, Multiset.singleton_ne_zero y, rfl, ?_, ?_⟩
  · rw [← Multiset.singleton_add, add_comm]
  · intro z hz
    exact ⟨y, Multiset.mem_singleton_self y, h z hz⟩

end Lib
