import Mathlib.Data.List.Basic

/-!
# Fixed-size buffers with bounds-checked block copies

A C array of `n` cells. `read` and `write` are the two halves of a
`memcpy`: both are `none` as soon as one cell outside the array would be
touched, so a computation over buffers that returns `some` has stayed inside
every array. The length is a field, so a buffer of the wrong size cannot be
built.

`writeAll` is a history of writes of any lengths, which may overlap. What a
cell holds afterwards is what the last write that covers it has put there
(`lastWritten`, `getElem?_of_writeAll`).
-/

namespace Lib

/-- An array of exactly `n` cells. -/
structure Buf (α : Type*) (n : Nat) where
  cells : List α
  length_eq : cells.length = n

namespace Buf

variable {α : Type*} {n : Nat}

/-- Read the cell at `i`. -/
def get (b : Buf α n) (i : Fin n) : α :=
  b.cells.get ⟨i, by rw [b.length_eq]; exact i.isLt⟩

/-- Write the cell at `i`. -/
def set (b : Buf α n) (i : Fin n) (c : α) : Buf α n :=
  ⟨b.cells.set i c, by rw [List.length_set, b.length_eq]⟩

/-- The `len` cells from `off` on, if they all lie inside the buffer. -/
def read (b : Buf α n) (off len : Nat) : Option (List α) :=
  if off + len ≤ n then some ((b.cells.drop off).take len) else none

/-- Overwrite the cells from `off` on by `src`, if they all lie inside. -/
def write (b : Buf α n) (off : Nat) (src : List α) : Option (Buf α n) :=
  if h : off + src.length ≤ n then
    some ⟨b.cells.take off ++ src ++ b.cells.drop (off + src.length), by
      have := b.length_eq
      simp only [List.length_append, List.length_take, List.length_drop]
      omega⟩
  else none

/-- A buffer is its cells. -/
theorem eq_of_cells {b b' : Buf α n} (h : b.cells = b'.cells) : b = b' := by
  cases b
  cases b'
  cases h
  rfl

@[simp] theorem get_set (b : Buf α n) (i j : Fin n) (c : α) :
    (b.set i c).get j = if i = j then c else b.get j := by
  simp only [get, set, List.get_eq_getElem, List.getElem_set, Fin.ext_iff]

/-- The cells up to a cell that was set. -/
theorem set_take_succ (b : Buf α n) (i : Fin n) (c : α) :
    (b.set i c).cells.take (i + 1) = b.cells.take i ++ [c] := by
  have hlt : (i : Nat) < b.cells.length := by
    rw [b.length_eq]
    exact i.isLt
  rw [List.take_add_one, set, List.take_set_of_le (Nat.le_refl _), List.getElem?_set_self hlt]
  rfl

/-- A cell, as an entry of the list. -/
theorem getElem?_eq_get (b : Buf α n) (i : Fin n) : b.cells[(i : Nat)]? = some (b.get i) :=
  List.getElem?_eq_getElem (by rw [b.length_eq]; exact i.isLt)

theorem read_eq_some {b : Buf α n} {off len : Nat} {l : List α}
    (h : b.read off len = some l) : off + len ≤ n ∧ l = (b.cells.drop off).take len := by
  unfold read at h
  split at h
  next hle => exact ⟨hle, (Option.some.inj h).symm⟩
  next => cases h

/-- A read that stays inside the buffer succeeds. -/
theorem read_of_le (b : Buf α n) {off len : Nat} (h : off + len ≤ n) :
    ∃ l, b.read off len = some l :=
  ⟨_, if_pos h⟩

theorem read_length {b : Buf α n} {off len : Nat} {l : List α}
    (h : b.read off len = some l) : l.length = len := by
  obtain ⟨hle, rfl⟩ := read_eq_some h
  have := b.length_eq
  simp only [List.length_take, List.length_drop]
  omega

theorem write_eq_some {b b' : Buf α n} {off : Nat} {src : List α}
    (h : b.write off src = some b') :
    off + src.length ≤ n ∧
      b'.cells = b.cells.take off ++ src ++ b.cells.drop (off + src.length) := by
  unfold write at h
  split at h
  next hle =>
    obtain rfl := Option.some.inj h
    exact ⟨hle, rfl⟩
  next => cases h

/-- A write that stays inside the buffer succeeds. -/
theorem write_of_le (b : Buf α n) {off : Nat} {src : List α} (h : off + src.length ≤ n) :
    ∃ b', b.write off src = some b' :=
  ⟨_, dif_pos h⟩

/-- The cells up to the end of a write. -/
theorem write_take {b b' : Buf α n} {off : Nat} {src : List α}
    (h : b.write off src = some b') :
    b'.cells.take (off + src.length) = b.cells.take off ++ src := by
  obtain ⟨hle, hcells⟩ := write_eq_some h
  have hoff : (b.cells.take off).length = off := by
    rw [List.length_take, b.length_eq]
    omega
  rw [hcells]
  refine List.take_left' ?_
  rw [List.length_append, hoff]

/-- The cells before a write. -/
theorem write_take_of_le {b b' : Buf α n} {off k : Nat} {src : List α}
    (h : b.write off src = some b') (hk : k ≤ off) : b'.cells.take k = b.cells.take k := by
  obtain ⟨hle, hcells⟩ := write_eq_some h
  have hoff : k ≤ (b.cells.take off).length := by
    rw [List.length_take, b.length_eq]
    omega
  rw [hcells, List.append_assoc, List.take_append_of_le_length hoff, List.take_take,
    Nat.min_eq_left hk]

/-- A write at the start, followed by what was behind it. -/
theorem write_zero_cells {b b' : Buf α n} {src : List α} (h : b.write 0 src = some b') :
    b'.cells = src ++ b.cells.drop src.length := by
  obtain ⟨-, hcells⟩ := write_eq_some h
  rw [hcells, List.take_zero, List.nil_append, Nat.zero_add]

/-- A cell that a write at the start covers. -/
theorem get_write_zero {b b' : Buf α n} {src : List α} (h : b.write 0 src = some b')
    {i : Fin n} (hi : i < src.length) : src[(i : Nat)]? = some (b'.get i) := by
  rw [← getElem?_eq_get, write_zero_cells h, List.getElem?_append_left hi]

/-- A cell behind a write at the start. -/
theorem get_write_zero_of_le {b b' : Buf α n} {src : List α} (h : b.write 0 src = some b')
    {i : Fin n} (hi : src.length ≤ i) : b'.get i = b.get i := by
  have hcell : b'.cells[(i : Nat)]? = b.cells[(i : Nat)]? := by
    rw [write_zero_cells h, List.getElem?_append_right hi, List.getElem?_drop]
    congr 1
    omega
  rw [getElem?_eq_get, getElem?_eq_get] at hcell
  exact Option.some.inj hcell

/-- A write past the first cell keeps the first cell. -/
theorem write_head? {b b' : Buf α n} {off : Nat} {src : List α}
    (h : b.write off src = some b') (hoff : 0 < off) (hn : 0 < n) :
    b'.cells.head? = b.cells.head? := by
  obtain ⟨_, hcells⟩ := write_eq_some h
  have hlen := b.length_eq
  cases hb : b.cells with
  | nil => rw [hb] at hlen; simp at hlen; omega
  | cons y ys =>
    obtain ⟨k, rfl⟩ : ∃ k, off = k + 1 := ⟨off - 1, by omega⟩
    rw [hcells, hb]
    rfl

/-- A write at the start puts its own first cell in front. -/
theorem write_zero_head? {b b' : Buf α n} {c : α} {src : List α}
    (h : b.write 0 (c :: src) = some b') : b'.cells.head? = some c := by
  obtain ⟨_, hcells⟩ := write_eq_some h
  rw [hcells]
  rfl

/-- Cell by cell: what the write covers, and what it does not. -/
theorem getElem?_of_write {b b' : Buf α n} {off : Nat} {src : List α}
    (h : b.write off src = some b') (k : Nat) :
    b'.cells[k]? = (if off ≤ k then src[k - off]? else none).or b.cells[k]? := by
  obtain ⟨hle, hcells⟩ := write_eq_some h
  have hoff : (b.cells.take off).length = off := by
    rw [List.length_take, b.length_eq]
    omega
  rw [hcells, List.append_assoc, List.getElem?_append, hoff]
  by_cases hk : off ≤ k
  · rw [if_neg (by omega), if_pos hk, List.getElem?_append]
    by_cases hin : k - off < src.length
    · rw [if_pos hin, List.getElem?_eq_getElem hin]
      rfl
    · have hsrc : src[k - off]? = none := List.getElem?_eq_none (by omega)
      rw [if_neg hin, List.getElem?_drop, hsrc, Option.none_or]
      congr 1
      omega
  · rw [if_pos (by omega), if_neg hk, List.getElem?_take_of_lt (by omega), Option.none_or]

/-- Writing one cell is `set`. -/
theorem write_singleton (b : Buf α n) (i : Fin n) (c : α) :
    b.write i [c] = some (b.set i c) := by
  have hlt : (i : Nat) < b.cells.length := by
    rw [b.length_eq]
    exact i.isLt
  have hle : (i : Nat) + [c].length ≤ n := i.isLt
  unfold write set
  rw [dif_pos hle]
  simp only [List.set_eq_take_append_cons_drop, if_pos hlt, List.append_assoc,
    List.singleton_append, List.length_singleton]

/-- A read returns the cells it covers. -/
theorem getElem?_of_read {b : Buf α n} {off len : Nat} {l : List α}
    (h : b.read off len = some l) {i : Nat} (hi : i < len) : b.cells[off + i]? = l[i]? := by
  obtain ⟨-, rfl⟩ := read_eq_some h
  rw [List.getElem?_take_of_lt hi, List.getElem?_drop]

theorem read_nil (b : Buf α n) {off : Nat} (h : off ≤ n) : b.read off 0 = some [] := by
  rw [read, if_pos (by omega), List.take_zero]

/-- One more cell in front. -/
theorem read_cons {b : Buf α n} {off len : Nat} {c : α} {l : List α}
    (hc : b.cells[off]? = some c) (h : b.read (off + 1) len = some l) :
    b.read off (len + 1) = some (c :: l) := by
  obtain ⟨hle, rfl⟩ := read_eq_some h
  obtain ⟨hoff, rfl⟩ := List.getElem?_eq_some_iff.mp hc
  rw [read, if_pos (by omega), List.drop_eq_getElem_cons hoff, List.take_succ_cons]

/-- Cells that hold a list are read as that list. -/
theorem read_of_getElem? {b : Buf α n} {off : Nat} {l : List α} (hle : off + l.length ≤ n)
    (h : ∀ i < l.length, b.cells[off + i]? = l[i]?) : b.read off l.length = some l := by
  unfold read
  rw [if_pos hle]
  refine congrArg some (List.ext_getElem? fun i => ?_)
  by_cases hi : i < l.length
  · rw [List.getElem?_take_of_lt hi, List.getElem?_drop, h i hi]
  · have htake : ((b.cells.drop off).take l.length).length ≤ i := by
      rw [List.length_take]
      omega
    rw [List.getElem?_eq_none htake, List.getElem?_eq_none (by omega)]

/-! ## Histories of writes -/

/-- Writes, each an offset and what is written there, one after the other. -/
def writeAll (b : Buf α n) : List (Nat × List α) → Option (Buf α n)
  | [] => some b
  | w :: ws => (b.write w.1 w.2).bind fun b' => b'.writeAll ws

/-- What the last write that covers cell `k` has put there, if there is one. -/
def lastWritten (k : Nat) : List (Nat × List α) → Option α
  | [] => none
  | w :: ws => (lastWritten k ws).or (if w.1 ≤ k then w.2[k - w.1]? else none)

/-- Writes that stay inside the buffer succeed. -/
theorem writeAll_of_le (b : Buf α n) {ws : List (Nat × List α)}
    (h : ∀ w ∈ ws, w.1 + w.2.length ≤ n) : ∃ b', b.writeAll ws = some b' := by
  induction ws generalizing b with
  | nil => exact ⟨b, rfl⟩
  | cons w ws ih =>
    obtain ⟨b₁, hw⟩ := b.write_of_le (h w (List.mem_cons_self ..))
    obtain ⟨b', hws⟩ := ih b₁ fun x hx => h x (List.mem_cons_of_mem _ hx)
    exact ⟨b', by rw [writeAll, hw, Option.bind_some, hws]⟩

/-- **A cell holds what the last write that covers it has put there.** -/
theorem getElem?_of_writeAll {b b' : Buf α n} {ws : List (Nat × List α)}
    (h : b.writeAll ws = some b') (k : Nat) :
    b'.cells[k]? = (lastWritten k ws).or b.cells[k]? := by
  induction ws generalizing b with
  | nil =>
    obtain rfl := Option.some.inj h
    rfl
  | cons w ws ih =>
    obtain ⟨b₁, hw, hws⟩ := Option.bind_eq_some_iff.mp h
    rw [ih hws, getElem?_of_write hw, lastWritten, Option.or_assoc]

theorem lastWritten_append (k : Nat) (ws ws' : List (Nat × List α)) :
    lastWritten k (ws ++ ws') = (lastWritten k ws').or (lastWritten k ws) := by
  induction ws with
  | nil => rw [List.nil_append, lastWritten, Option.or_none]
  | cons w ws ih => rw [List.cons_append, lastWritten, ih, lastWritten, Option.or_assoc]

/-- A cell outside every write. -/
theorem lastWritten_eq_none {k : Nat} {ws : List (Nat × List α)}
    (h : ∀ w ∈ ws, k < w.1 ∨ w.1 + w.2.length ≤ k) : lastWritten k ws = none := by
  induction ws with
  | nil => rfl
  | cons w ws ih =>
    rw [lastWritten, ih fun x hx => h x (List.mem_cons_of_mem _ hx), Option.none_or]
    rcases h w (List.mem_cons_self ..) with hk | hk
    · rw [if_neg (by omega)]
    · rw [if_pos (by omega), List.getElem?_eq_none (by omega)]

/-- **A write that no later one overlaps is read back.** -/
theorem read_writeAll {b b' : Buf α n} {before after : List (Nat × List α)} {w : Nat × List α}
    (h : b.writeAll (before ++ w :: after) = some b') (hle : w.1 + w.2.length ≤ n)
    (hafter : ∀ x ∈ after, w.1 + w.2.length ≤ x.1 ∨ x.1 + x.2.length ≤ w.1) :
    b'.read w.1 w.2.length = some w.2 := by
  refine read_of_getElem? hle fun i hi => ?_
  have hlater : lastWritten (w.1 + i) after = none := by
    refine lastWritten_eq_none fun x hx => ?_
    have := hafter x hx
    omega
  rw [getElem?_of_writeAll h, lastWritten_append, lastWritten, hlater, Option.none_or,
    if_pos (Nat.le_add_right ..), Nat.add_sub_cancel_left, List.getElem?_eq_getElem hi]
  rfl

end Buf

end Lib
