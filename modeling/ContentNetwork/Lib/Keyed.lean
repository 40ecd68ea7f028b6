import Mathlib.Data.List.Lookmap
import Mathlib.Data.List.Nodup

/-!
# Lists searched by a key

A `std::list` that is searched from the front by a key, extended with
`push_back`, and updated by "erase the first match, then `push_back`" or in
place at the first match. The record type and the key are arbitrary; a key
may be a pair of fields.

`lookup` is the search. `Unique` says that no key occurs twice: it is what
makes the first match the only one, and each operation keeps it
(`unique_push`, `unique_replace`, `unique_refresh`). Every operation also
leaves the lookups of the other keys as they were. `index` searches for the
position of the first match instead.
-/

namespace Lib.Keyed

variable {ρ κ : Type*} [DecidableEq κ]

/-- The first record of the list with key `k`. -/
def lookup (key : ρ → κ) (k : κ) (l : List ρ) : Option ρ :=
  l.find? fun r => key r = k

/-- No key occurs twice. -/
def Unique (key : ρ → κ) (l : List ρ) : Prop :=
  (l.map key).Nodup

/-- Erase the first record with the key of `r`, then push `r` to the back. -/
def replace (key : ρ → κ) (r : ρ) (l : List ρ) : List ρ :=
  (l.eraseP fun x => key x = key r) ++ [r]

/-- Update the first record with key `k` in place. -/
def refresh (key : ρ → κ) (k : κ) (f : ρ → ρ) (l : List ρ) : List ρ :=
  l.lookmap fun r => if key r = k then some (f r) else none

variable {key : ρ → κ} {k k' : κ} {r x : ρ} {l : List ρ}

/-! ## The search -/

theorem lookup_mem (h : lookup key k l = some r) : r ∈ l :=
  List.mem_of_find?_eq_some h

theorem lookup_key (h : lookup key k l = some r) : key r = k := by
  simpa using List.find?_some h

theorem lookup_eq_none : lookup key k l = none ↔ ∀ x ∈ l, key x ≠ k := by
  simp [lookup]

theorem lookup_isSome : (lookup key k l).isSome ↔ ∃ x ∈ l, key x = k := by
  simp [lookup]

theorem lookup_isSome_eq_false : (lookup key k l).isSome = false ↔ ∀ x ∈ l, key x ≠ k := by
  rw [Option.isSome_eq_false_iff, Option.isNone_iff_eq_none, lookup_eq_none]

/-- Looking up in a concatenation: the front part wins. -/
theorem lookup_append (l l' : List ρ) :
    lookup key k (l ++ l') = (lookup key k l).or (lookup key k l') := by
  simp [lookup, List.find?_append]

/-- With unique keys, a member is what its own key finds. -/
theorem lookup_of_mem (hu : Unique key l) (hr : r ∈ l) : lookup key (key r) l = some r := by
  induction l with
  | nil => cases hr
  | cons y ys ih =>
    simp only [Unique, List.map_cons, List.nodup_cons] at hu
    rcases List.mem_cons.mp hr with rfl | hr
    · simp [lookup]
    · have hne : key y ≠ key r := fun he => hu.1 (he ▸ List.mem_map_of_mem hr)
      simpa [lookup, hne] using ih hu.2 hr

theorem filter_of_lookup_none (h : lookup key k l = none) :
    l.filter (fun x => key x = k) = [] := by
  rw [List.filter_eq_nil_iff]
  intro x hx hxk
  exact lookup_eq_none.mp h x hx (by simpa using hxk)

/-- With unique keys, what a key finds is the only record with that key. -/
theorem filter_of_lookup (hu : Unique key l) (h : lookup key k l = some r) :
    l.filter (fun x => key x = k) = [r] := by
  induction l with
  | nil => cases h
  | cons y ys ih =>
    simp only [Unique, List.map_cons, List.nodup_cons] at hu
    by_cases hy : key y = k
    · obtain rfl : y = r := by simpa [lookup, hy] using h
      have hrest : ys.filter (fun x => key x = k) = [] := by
        rw [List.filter_eq_nil_iff]
        intro x hx hxk
        have hxk : key x = k := by simpa using hxk
        exact hu.1 (hy.trans hxk.symm ▸ List.mem_map_of_mem hx)
      rw [List.filter_cons_of_pos (by simpa using hy), hrest]
    · have h' : lookup key k ys = some r := by simpa [lookup, hy] using h
      rw [List.filter_cons_of_neg (by simpa using hy)]
      exact ih hu.2 h'

/-- Two members with one key are the same record. -/
theorem Unique.eq_of_key (hu : Unique key l) (hr : r ∈ l) (hx : x ∈ l)
    (he : key r = key x) : r = x := by
  have h := lookup_of_mem hu hr
  rw [he, lookup_of_mem hu hx] at h
  exact (Option.some.inj h).symm

omit [DecidableEq κ] in
theorem Unique.sublist {l' : List ρ} (hu : Unique key l)
    (h : (l'.map key).Sublist (l.map key)) : Unique key l' :=
  List.Nodup.sublist h hu

/-! ## `push_back` -/

omit [DecidableEq κ] in
theorem unique_push (hu : Unique key l) (hr : ∀ x ∈ l, key x ≠ key r) :
    Unique key (l ++ [r]) := by
  rw [Unique, List.map_append, List.nodup_append]
  refine ⟨hu, by simp, ?_⟩
  intro a ha b hb
  obtain ⟨x, hx, rfl⟩ := List.mem_map.mp ha
  obtain rfl : b = key r := by simpa using hb
  exact hr x hx

/-- Pushing a record keeps the keys unique exactly when its key is new. -/
theorem unique_push_iff (hu : Unique key l) :
    Unique key (l ++ [r]) ↔ lookup key (key r) l = none := by
  rw [lookup_eq_none]
  constructor
  · intro hpush x hx he
    rw [Unique, List.map_append, List.nodup_append] at hpush
    exact hpush.2.2 (key x) (List.mem_map_of_mem hx) (key r) (by simp) he
  · exact unique_push hu

theorem lookup_push_self (hr : ∀ x ∈ l, key x ≠ key r) :
    lookup key (key r) (l ++ [r]) = some r := by
  rw [lookup_append, lookup_eq_none.mpr hr]
  simp [lookup]

theorem lookup_push_ne (hk : key r ≠ k) : lookup key k (l ++ [r]) = lookup key k l := by
  rw [lookup_append]
  simp [lookup, hk]

/-! ## Erase the first match and `push_back` -/

/-- Erasing the first record with key `k` leaves no other lookup changed. -/
theorem lookup_erase_ne (hk : k' ≠ k) :
    lookup key k' (l.eraseP fun x => key x = k) = lookup key k' l := by
  induction l with
  | nil => rfl
  | cons y ys ih =>
    by_cases hy : key y = k
    · have hne : key y ≠ k' := fun he => hk (he.symm.trans hy)
      simp [lookup, hy, hk.symm]
    · rw [List.eraseP_cons_of_neg (by simpa using hy)]
      by_cases hy' : key y = k'
      · simp [lookup, hy']
      · simpa [lookup, hy'] using ih

/-- With unique keys, erasing the first match erases the only one. -/
theorem key_ne_of_mem_erase (hu : Unique key l) :
    ∀ x ∈ l.eraseP (fun y => key y = k), key x ≠ k := by
  induction l with
  | nil => intro x hx; cases hx
  | cons y ys ih =>
    simp only [Unique, List.map_cons, List.nodup_cons] at hu
    intro x hx
    by_cases hy : key y = k
    · rw [List.eraseP_cons_of_pos (by simpa using hy)] at hx
      intro he
      exact hu.1 (hy.trans he.symm ▸ List.mem_map_of_mem hx)
    · rw [List.eraseP_cons_of_neg (by simpa using hy)] at hx
      rcases List.mem_cons.mp hx with rfl | hx
      · exact hy
      · exact ih hu.2 x hx

/-- With unique keys, erasing the first match leaves the records of the other
keys. -/
theorem erase_eq_filter (hu : Unique key l) :
    (l.eraseP fun x => key x = k) = l.filter fun x => key x ≠ k := by
  induction l with
  | nil => rfl
  | cons y ys ih =>
    simp only [Unique, List.map_cons, List.nodup_cons] at hu
    by_cases hy : key y = k
    · have hrest : ys.filter (fun x => key x ≠ k) = ys := by
        refine List.filter_eq_self.mpr fun x hx => decide_eq_true fun hxk => ?_
        exact hu.1 (hy.trans hxk.symm ▸ List.mem_map_of_mem hx)
      rw [List.eraseP_cons_of_pos (by simpa using hy), List.filter_cons_of_neg (by simpa using hy),
        hrest]
    · rw [List.eraseP_cons_of_neg (by simpa using hy), List.filter_cons_of_pos (by simpa using hy),
        ih hu.2]

theorem mem_replace (h : x ∈ replace key r l) : x ∈ l ∨ x = r := by
  rcases List.mem_append.mp h with h | h
  · exact Or.inl (List.mem_of_mem_eraseP h)
  · exact Or.inr (List.mem_singleton.mp h)

theorem mem_replace_self : r ∈ replace key r l := by
  simp [replace]

theorem unique_replace (hu : Unique key l) : Unique key (replace key r l) :=
  unique_push (hu.sublist (List.eraseP_sublist.map key)) (key_ne_of_mem_erase hu)

theorem lookup_replace_self (hu : Unique key l) :
    lookup key (key r) (replace key r l) = some r :=
  lookup_push_self (key_ne_of_mem_erase hu)

theorem lookup_replace_ne (hk : key r ≠ k) :
    lookup key k (replace key r l) = lookup key k l := by
  rw [replace, lookup_push_ne hk, lookup_erase_ne hk.symm]

/-! ## Update in place -/

/-- An update that keeps the key of every record keeps the list of keys. -/
theorem map_key_refresh {f : ρ → ρ} (hf : ∀ x, key (f x) = key x) :
    (refresh key k f l).map key = l.map key := by
  refine List.lookmap_map_eq _ key ?_ l
  intro a b hb
  split at hb
  · obtain rfl : b = f a := by simpa using hb.symm
    exact (hf a).symm
  · simp at hb

theorem unique_refresh {f : ρ → ρ} (hf : ∀ x, key (f x) = key x) (hu : Unique key l) :
    Unique key (refresh key k f l) := by
  rw [Unique, map_key_refresh hf]
  exact hu

theorem refresh_cons (y : ρ) (ys : List ρ) (f : ρ → ρ) :
    refresh key k f (y :: ys) = if key y = k then f y :: ys else y :: refresh key k f ys := by
  by_cases hy : key y = k
  · rw [if_pos hy]
    exact List.lookmap_cons_some _ _ (if_pos hy)
  · rw [if_neg hy]
    exact List.lookmap_cons_none _ _ (if_neg hy)

theorem mem_refresh {f : ρ → ρ} (h : x ∈ refresh key k f l) :
    x ∈ l ∨ ∃ y ∈ l, key y = k ∧ x = f y := by
  induction l with
  | nil => exact Or.inl h
  | cons y ys ih =>
    rw [refresh_cons] at h
    by_cases hy : key y = k
    · rw [if_pos hy] at h
      rcases List.mem_cons.mp h with rfl | h
      · exact Or.inr ⟨y, List.mem_cons_self .., hy, rfl⟩
      · exact Or.inl (List.mem_cons_of_mem _ h)
    · rw [if_neg hy] at h
      rcases List.mem_cons.mp h with rfl | h
      · exact Or.inl (List.mem_cons_self ..)
      · rcases ih h with h | ⟨z, hz, hkz, rfl⟩
        · exact Or.inl (List.mem_cons_of_mem _ h)
        · exact Or.inr ⟨z, List.mem_cons_of_mem _ hz, hkz, rfl⟩

/-- The updated list is searched like the old one; the record found under `k`
is the updated one. -/
theorem lookup_refresh {f : ρ → ρ} (hf : ∀ x, key (f x) = key x) :
    lookup key k' (refresh key k f l)
      = (lookup key k' l).map fun r => if k' = k then f r else r := by
  induction l with
  | nil => rfl
  | cons y ys ih =>
    rw [refresh_cons]
    by_cases hy : key y = k
    · rw [if_pos hy]
      by_cases hy' : key y = k'
      · have hkk : k' = k := hy'.symm.trans hy
        simp [lookup, hf, hy', hkk]
      · have hkk : k' ≠ k := fun he => hy' (hy.trans he.symm)
        have hfy : key (f y) ≠ k' := hf y ▸ hy'
        simp [lookup, hfy, hy', hkk]
    · rw [if_neg hy]
      by_cases hy' : key y = k'
      · have hkk : k' ≠ k := fun he => hy (hy'.trans he)
        simp [lookup, hy', hkk]
      · simpa [lookup, hy'] using ih

/-- A record that is updated in place if it is taken to be known, and pushed
otherwise: the keys stay unique unless it is pushed with a key that is there. -/
theorem unique_refresh_or_push_iff {f : ρ → ρ} (hf : ∀ x, key (f x) = key x)
    (hu : Unique key l) {known : Bool} :
    Unique key (if known then refresh key k f l else l ++ [r]) ↔
      (known = false → lookup key (key r) l = none) := by
  cases known with
  | false =>
    rw [imp_iff_right rfl]
    exact unique_push_iff hu
  | true => exact iff_of_true (unique_refresh hf hu) fun h => absurd h.symm Bool.false_ne_true

omit [DecidableEq κ] in
theorem forall_push {P : ρ → Prop} (hl : ∀ x ∈ l, P x) (hr : P r) : ∀ x ∈ l ++ [r], P x :=
  List.forall_mem_append.mpr ⟨hl, List.forall_mem_singleton.mpr hr⟩

/-- A property of all records that the update keeps and the pushed record has. -/
theorem forall_refresh_or_push {P : ρ → Prop} {f : ρ → ρ} {known : Bool} (hl : ∀ x ∈ l, P x)
    (hf : ∀ x, P x → P (f x)) (hr : P r) :
    ∀ x ∈ if known then refresh key k f l else l ++ [r], P x := by
  cases known with
  | false => exact forall_push hl hr
  | true =>
    intro x hx
    rcases mem_refresh hx with hx | ⟨y, hy, -, rfl⟩
    · exact hl x hx
    · exact hf y (hl y hy)

/-- With unique keys, what is in the updated list is an old record with
another key or the updated one. -/
theorem mem_refresh_of_unique {f : ρ → ρ} (hf : ∀ x, key (f x) = key x) (hu : Unique key l)
    (h : x ∈ refresh key k f l) : (x ∈ l ∧ key x ≠ k) ∨ ∃ y ∈ l, key y = k ∧ x = f y := by
  by_cases hx : key x = k
  · have hfound := lookup_of_mem (unique_refresh (k := k) hf hu) h
    rw [hx, lookup_refresh hf] at hfound
    obtain ⟨y, hy, hyx⟩ := Option.map_eq_some_iff.mp hfound
    rw [if_pos rfl] at hyx
    exact Or.inr ⟨y, lookup_mem hy, lookup_key hy, hyx.symm⟩
  · rcases mem_refresh h with h | ⟨y, hy, hyk, rfl⟩
    · exact Or.inl ⟨h, hx⟩
    · exact absurd ((hf y).trans hyk) hx

/-! ## The records of some keys

Keeping the records whose keys satisfy `q` commutes with every operation on
such a key; an operation on any other key is not seen. -/

section Restrict

variable {q : κ → Prop} [DecidablePred q]

theorem lookup_filter (hk : q k) :
    lookup key k (l.filter fun x => q (key x)) = lookup key k l := by
  induction l with
  | nil => rfl
  | cons y ys ih =>
    unfold lookup at ih ⊢
    by_cases hy : q (key y)
    · rw [List.filter_cons_of_pos (by simpa using hy), List.find?_cons, List.find?_cons, ih]
    · have hne : key y ≠ k := fun he => hy (he ▸ hk)
      rw [List.filter_cons_of_neg (by simpa using hy), ih,
        List.find?_cons_of_neg (by simpa using hne)]

omit [DecidableEq κ] in
theorem filter_push (hr : q (key r)) :
    (l ++ [r]).filter (fun x => q (key x)) = l.filter (fun x => q (key x)) ++ [r] := by
  rw [List.filter_append, List.filter_cons_of_pos (by simpa using hr), List.filter_nil]

omit [DecidableEq κ] in
theorem filter_push_of_not (hr : ¬q (key r)) :
    (l ++ [r]).filter (fun x => q (key x)) = l.filter fun x => q (key x) := by
  rw [List.filter_append, List.filter_cons_of_neg (by simpa using hr), List.filter_nil,
    List.append_nil]

theorem filter_erase (hk : q k) :
    (l.eraseP fun x => key x = k).filter (fun x => q (key x))
      = (l.filter fun x => q (key x)).eraseP fun x => key x = k := by
  rw [List.eraseP_filter]
  congr 2
  funext x
  by_cases hx : key x = k
  · simp [hx, hk]
  · simp [hx]

theorem filter_erase_of_not (hk : ¬q k) :
    (l.eraseP fun x => key x = k).filter (fun x => q (key x)) = l.filter fun x => q (key x) := by
  induction l with
  | nil => rfl
  | cons y ys ih =>
    by_cases hy : key y = k
    · have hq : ¬q (key y) := fun h => hk (hy ▸ h)
      rw [List.eraseP_cons_of_pos (by simpa using hy),
        List.filter_cons_of_neg (by simpa using hq)]
    · rw [List.eraseP_cons_of_neg (by simpa using hy), List.filter_cons, List.filter_cons, ih]

theorem filter_replace (hr : q (key r)) :
    (replace key r l).filter (fun x => q (key x))
      = replace key r (l.filter fun x => q (key x)) := by
  rw [replace, filter_push hr, filter_erase hr, replace]

theorem filter_replace_of_not (hr : ¬q (key r)) :
    (replace key r l).filter (fun x => q (key x)) = l.filter fun x => q (key x) := by
  rw [replace, filter_push_of_not hr, filter_erase_of_not hr]

theorem filter_refresh {f : ρ → ρ} (hf : ∀ x, key (f x) = key x) (hk : q k) :
    (refresh key k f l).filter (fun x => q (key x))
      = refresh key k f (l.filter fun x => q (key x)) := by
  induction l with
  | nil => rfl
  | cons y ys ih =>
    rw [refresh_cons]
    by_cases hy : key y = k
    · have hqy : q (key y) := hy.symm ▸ hk
      have hqf : q (key (f y)) := (hf y).symm ▸ hqy
      rw [if_pos hy, List.filter_cons_of_pos (by simpa using hqf),
        List.filter_cons_of_pos (by simpa using hqy), refresh_cons, if_pos hy]
    · rw [if_neg hy]
      by_cases hqy : q (key y)
      · rw [List.filter_cons_of_pos (by simpa using hqy),
          List.filter_cons_of_pos (by simpa using hqy), refresh_cons, if_neg hy, ih]
      · rw [List.filter_cons_of_neg (by simpa using hqy),
          List.filter_cons_of_neg (by simpa using hqy), ih]

theorem filter_refresh_of_not {f : ρ → ρ} (hf : ∀ x, key (f x) = key x) (hk : ¬q k) :
    (refresh key k f l).filter (fun x => q (key x)) = l.filter fun x => q (key x) := by
  induction l with
  | nil => rfl
  | cons y ys ih =>
    rw [refresh_cons]
    by_cases hy : key y = k
    · have hqy : ¬q (key y) := fun h => hk (hy ▸ h)
      have hqf : ¬q (key (f y)) := (hf y).symm ▸ hqy
      rw [if_pos hy, List.filter_cons_of_neg (by simpa using hqf),
        List.filter_cons_of_neg (by simpa using hqy)]
    · rw [if_neg hy, List.filter_cons, List.filter_cons, ih]

/-- Lists with the same records of each key, in the same order, are
permutations of one another. -/
theorem perm_of_filter_eq [DecidableEq ρ] {l' : List ρ}
    (h : ∀ k, l.filter (fun x => key x = k) = l'.filter fun x => key x = k) : l.Perm l' := by
  rw [List.perm_iff_count]
  intro a
  have hcount : ∀ l : List ρ, (l.filter fun x => key x = key a).count a = l.count a :=
    fun l => List.count_filter (by simp)
  rw [← hcount l, ← hcount l', h]

end Restrict

/-! ## Positions

A vector that never shrinks may be searched for the position of a key, and the
record there be modified. -/

/-- The position of the first record with key `k`. -/
def index (key : ρ → κ) (k : κ) (l : List ρ) : Option Nat :=
  l.findIdx? fun r => key r = k

theorem index_eq_some {i : Nat} (h : index key k l = some i) :
    ∃ r, l[i]? = some r ∧ key r = k := by
  obtain ⟨hlt, hk, -⟩ := List.findIdx?_eq_some_iff_getElem.mp h
  exact ⟨l[i], List.getElem?_eq_getElem hlt, by simpa using hk⟩

theorem index_eq_none : index key k l = none ↔ ∀ x ∈ l, key x ≠ k := by
  simp [index]

omit [DecidableEq κ] in
/-- With unique keys, a key stands at one position only. -/
theorem Unique.position_eq {i j : Nat} (hu : Unique key l) (hi : l[i]? = some r)
    (hj : l[j]? = some x) (he : key r = key x) : i = j := by
  have hlt : i < (l.map key).length := by
    rw [List.length_map]
    exact (List.getElem?_eq_some_iff.mp hi).1
  refine (List.getElem?_inj hlt hu).mp ?_
  rw [List.getElem?_map, List.getElem?_map, hi, hj, Option.map_some, Option.map_some, he]

/-- With unique keys, the search finds a record at its own position. -/
theorem index_of_getElem? {i : Nat} (hu : Unique key l) (hi : l[i]? = some r) :
    index key (key r) l = some i := by
  cases h : index key (key r) l with
  | none => exact absurd rfl (index_eq_none.mp h r (List.mem_of_getElem? hi))
  | some j =>
    obtain ⟨x, hx, hxr⟩ := index_eq_some h
    rw [hu.position_eq hi hx hxr.symm]

/-- The search by position and the look-up find the same record. -/
theorem bind_index (key : ρ → κ) (k : κ) (l : List ρ) :
    ((index key k l).bind fun i => l[i]?) = lookup key k l := by
  induction l with
  | nil => rfl
  | cons y ys ih =>
    unfold index lookup at ih ⊢
    rw [List.findIdx?_cons, List.find?_cons]
    by_cases hy : key y = k
    · simp [hy]
    · simpa [hy, Option.bind_map, Function.comp_def] using ih

/-- Modifying a record of another key changes nothing for `k`. -/
theorem lookup_modify_ne {f : ρ → ρ} (hf : ∀ x, key (f x) = key x) {i : Nat}
    (hi : ∀ x, l[i]? = some x → key x ≠ k) : lookup key k (l.modify i f) = lookup key k l := by
  induction l generalizing i with
  | nil => rw [List.modify_nil]
  | cons y ys ih =>
    unfold lookup at ih ⊢
    cases i with
    | zero =>
      have hy : key y ≠ k := hi y rfl
      have hfy : key (f y) ≠ k := by
        rw [hf]
        exact hy
      rw [List.modify_zero_cons, List.find?_cons_of_neg (by simpa using hfy),
        List.find?_cons_of_neg (by simpa using hy)]
    | succ i =>
      rw [List.modify_succ_cons, List.find?_cons, List.find?_cons,
        ih fun x hx => hi x (by simpa using hx)]

/-- The same, when the record that is modified is known. -/
theorem lookup_modify_of_key_ne {f : ρ → ρ} (hf : ∀ x, key (f x) = key x) {i : Nat}
    (hi : l[i]? = some r) (hk : key r ≠ k) : lookup key k (l.modify i f) = lookup key k l := by
  refine lookup_modify_ne hf fun x hx => ?_
  obtain rfl := Option.some.inj (hi.symm.trans hx)
  exact hk

/-- Modifying the first record of a key modifies what its look-up finds. -/
theorem lookup_modify_self {f : ρ → ρ} (hf : ∀ x, key (f x) = key x) {i : Nat}
    (hi : index key k l = some i) :
    lookup key k (l.modify i f) = (lookup key k l).map f := by
  induction l generalizing i with
  | nil => cases hi
  | cons y ys ih =>
    unfold index lookup at *
    rw [List.findIdx?_cons] at hi
    by_cases hy : key y = k
    · rw [decide_eq_true hy, if_pos rfl] at hi
      obtain rfl := Option.some.inj hi
      rw [List.modify_zero_cons, List.find?_cons_of_pos (by simpa [hf] using hy),
        List.find?_cons_of_pos (by simpa using hy)]
      rfl
    · rw [decide_eq_false hy, if_neg Bool.false_ne_true] at hi
      obtain ⟨j, hj, rfl⟩ := Option.map_eq_some_iff.mp hi
      rw [List.modify_succ_cons, List.find?_cons_of_neg (by simpa using hy),
        List.find?_cons_of_neg (by simpa using hy), ih hj]

omit [DecidableEq κ] in
/-- Modifying one record, key kept, keeps the list of keys. -/
theorem map_key_modify {f : ρ → ρ} (hf : ∀ x, key (f x) = key x) (i : Nat) :
    (l.modify i f).map key = l.map key := by
  refine List.ext_getElem? fun j => ?_
  rw [List.getElem?_map, List.getElem?_map]
  by_cases hj : i = j
  · subst hj
    rw [List.getElem?_modify_eq]
    cases l[i]? with
    | none => rfl
    | some r => exact congrArg some (hf r)
  · rw [List.getElem?_modify_ne _ _ hj]

/-- Modifying a record, key kept, leaves where a key is found. -/
theorem index_modify {f : ρ → ρ} (hf : ∀ x, key (f x) = key x) (i : Nat) :
    index key k (l.modify i f) = index key k l := by
  have hkeys : ∀ l : List ρ, index key k l = (l.map key).findIdx? fun x => x = k := by
    intro l
    rw [List.findIdx?_map]
    rfl
  rw [hkeys, hkeys, map_key_modify hf]

omit [DecidableEq κ] in
theorem getElem?_modify_self (f : ρ → ρ) {i : Nat} (hi : l[i]? = some r) :
    (l.modify i f)[i]? = some (f r) := by
  rw [List.getElem?_modify_eq, hi]
  rfl

end Lib.Keyed
