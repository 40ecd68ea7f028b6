import ContentNetwork.Common.Project
import ContentNetwork.Lib.Keyed

/-!
# The tables of the simplified router and their timer

`RTrecord`, `PRTrecord` and `timer_function` of the simplified `router.cpp`.
The tables are `std::list`s; a routing record is searched by its content ID,
a pending record by content ID and host ID. The field `isvalid` of both
records is never read or written by the router and has no counterpart.

One pass of `timer_function` over a table is a `while` loop around a `for`
loop. The `for` loop starts at `begin()`, ages the record there, and leaves
by one of two breaks: with `erase` set when the record expired, and otherwise
at once, since `erase` is still false. So a pass erases expired records from
the front and ages the first record that survives (`timerPass_eq`); the
records behind it are not touched. The two passes of the timer differ in the
table only, and are one definition with the record's ttl as parameter.
-/

namespace ContentNetwork.Simplified

open Lib

def g_PENDING_TABLE_EXPIRY_TIME : Int := 35
def g_ROUTING_TABLE_EXPIRY_TIME : Int := 25

/-- `class RTrecord`. -/
structure RTrecord where
  cID : Int
  interface : Int
  num_hops : Int
  ttl_rt : Int
  deriving DecidableEq, Repr

/-- `class PRTrecord`. -/
structure PRTrecord where
  cID : Int
  hID : Int
  interface : Int
  ttl_val : Int
  deriving DecidableEq, Repr

/-- What a pending record is searched by. -/
def PRTrecord.key (r : PRTrecord) : Int × Int := (r.cID, r.hID)

/-- The two tables; the router has a shared pair and main's local copies. -/
structure Tables where
  RoutingTable : List RTrecord
  PendingRequestTable : List PRTrecord
  deriving DecidableEq, Repr

/-! ## `timer_function` -/

section Timer

variable {ρ κ : Type*} (ttl : ρ → Int) (age : ρ → ρ)

/-- The `for` loop from `rtindex` on: `erase` when it ends, the records
before `rtindex`, and the records from `rtindex` on. -/
def timerFor (erase : Bool) (before : List ρ) : List ρ → Bool × List ρ × List ρ
  | [] => (erase, before, [])
  | r :: rest =>
    if ttl (age r) ≤ 0 then (true, before, age r :: rest)
    else if erase = false then (erase, before, age r :: rest)
    else timerFor erase (before ++ [age r]) rest

/-- The `while` loop with `delete_count` turns left. `none` would be
`erase(end())`. -/
def timerWhile : Nat → List ρ → Option (List ρ)
  | 0, t => some t
  | delete_count + 1, t =>
    match timerFor ttl age false [] t with
    | (true, before, _ :: rest) => timerWhile delete_count (before ++ rest)
    | (true, _, []) => none
    | (false, before, rest) => some (before ++ rest)

/-- One locked section of `timer_function` on one table. -/
def timerPass (t : List ρ) : Option (List ρ) :=
  timerWhile ttl age t.length t

/-- The first record, if any, aged. -/
def ageHead : List ρ → List ρ
  | [] => []
  | r :: rest => age r :: rest

variable {ttl age}

/-- A pass erases the expiring records at the front and ages the next one. -/
theorem timerWhile_eq (t : List ρ) : ∀ count, t.length ≤ count →
    timerWhile ttl age count t
      = some (ageHead age (t.dropWhile fun r => ttl (age r) ≤ 0)) := by
  induction t with
  | nil => intro count _; cases count <;> rfl
  | cons r rest ih =>
    intro count hcount
    obtain ⟨count, rfl⟩ : ∃ c, count = c + 1 :=
      ⟨count - 1, by simp only [List.length_cons] at hcount; omega⟩
    by_cases hr : ttl (age r) ≤ 0
    · simp only [timerWhile, timerFor, if_pos hr, List.nil_append]
      rw [ih count (by simpa using hcount), List.dropWhile_cons_of_pos (by simpa using hr)]
    · simp only [timerWhile, timerFor, if_neg hr, if_true, List.nil_append]
      rw [List.dropWhile_cons_of_neg (by simpa using hr)]
      rfl

theorem timerPass_eq (t : List ρ) :
    timerPass ttl age t = some (ageHead age (t.dropWhile fun r => ttl (age r) ≤ 0)) :=
  timerWhile_eq t _ (Nat.le_refl _)

/-- A record after a pass was there before, either untouched or aged and
still alive. -/
theorem mem_timerPass {t t' : List ρ} (h : timerPass ttl age t = some t') :
    ∀ r ∈ t', r ∈ t ∨ ∃ x ∈ t, r = age x ∧ 0 < ttl (age x) := by
  rw [timerPass_eq, Option.some.injEq] at h
  subst h
  intro r hr
  have hsub := (List.dropWhile_sublist (l := t) fun r => ttl (age r) ≤ 0).subset
  cases hd : t.dropWhile fun r => ttl (age r) ≤ 0 with
  | nil => rw [hd] at hr; cases hr
  | cons x rest =>
    rw [hd] at hr hsub
    have halive : 0 < ttl (age x) := by
      have := List.head_dropWhile_not (fun r => decide (ttl (age r) ≤ 0)) (l := t) (by simp [hd])
      simpa [hd] using this
    rcases List.mem_cons.mp hr with rfl | hr
    · exact Or.inr ⟨x, hsub (List.mem_cons_self ..), rfl, halive⟩
    · exact Or.inl (hsub (List.mem_cons_of_mem _ hr))

/-- A pass keeps the order of the surviving keys and adds none. -/
theorem timerPass_keys {key : ρ → κ} (hage : ∀ r, key (age r) = key r) {t t' : List ρ}
    (h : timerPass ttl age t = some t') : (t'.map key).Sublist (t.map key) := by
  rw [timerPass_eq, Option.some.injEq] at h
  subst h
  have hhead : ∀ l : List ρ, (ageHead age l).map key = l.map key := by
    intro l
    cases l with
    | nil => rfl
    | cons r rest => simp [ageHead, hage]
  rw [hhead]
  exact (List.dropWhile_sublist _).map key

/-- The keys after a pass were there before. -/
theorem timerPass_key_mem {key : ρ → κ} (hage : ∀ r, key (age r) = key r) {t t' : List ρ}
    (h : timerPass ttl age t = some t') : ∀ r' ∈ t', ∃ r ∈ t, key r = key r' := by
  intro r' hr'
  obtain ⟨r, hr, he⟩ := List.mem_map.mp
    ((timerPass_keys hage h).subset (List.mem_map_of_mem hr'))
  exact ⟨r, hr, he⟩

end Timer

/-- `rtindex->ttl_rt = rtindex->ttl_rt - 10`. -/
def RTrecord.age (r : RTrecord) : RTrecord := { r with ttl_rt := r.ttl_rt - 10 }

/-- `prtindex->ttl_val = prtindex->ttl_val - 10`. -/
def PRTrecord.age (r : PRTrecord) : PRTrecord := { r with ttl_val := r.ttl_val - 10 }

theorem RTrecord.cID_age (r : RTrecord) : r.age.cID = r.cID := rfl

theorem PRTrecord.key_age (r : PRTrecord) : r.age.key = r.key := rfl

/-- The section of `timer_function` under `mutex_rt`. -/
def timerRouting (t : List RTrecord) : Option (List RTrecord) :=
  timerPass RTrecord.ttl_rt RTrecord.age t

/-- The section of `timer_function` under `mutex_prt`. -/
def timerPending (t : List PRTrecord) : Option (List PRTrecord) :=
  timerPass PRTrecord.ttl_val PRTrecord.age t

end ContentNetwork.Simplified
