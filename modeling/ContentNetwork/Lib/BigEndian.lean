import Mathlib.Tactic.Ring

/-!
# Integers as big-endian bytes

`bytes w v` are the `w` bytes of the integer `v` in two's complement, the most
significant first. Read back, they are a natural number (`unsigned`), or an
integer of `8 * w` bits (`signed`). A value in the range of a signed integer of
that width is read back as it is (`signed_bytes`).
-/

namespace Lib.BigEndian

/-- The last `w` base-256 digits of `v`. -/
def bytes : Nat → Int → List UInt8
  | 0, _ => []
  | w + 1, v => bytes w (v / 256) ++ [UInt8.ofInt v]

/-- The number with these base-256 digits. -/
def unsigned (l : List UInt8) : Nat :=
  l.foldl (fun n b => n * 256 + b.toNat) 0

/-- The integer with these bytes in two's complement. -/
def signed (l : List UInt8) : Int :=
  Int.bmod (unsigned l) (256 ^ l.length)

variable {w : Nat} {v : Int}

@[simp] theorem length_bytes (w : Nat) (v : Int) : (bytes w v).length = w := by
  induction w generalizing v with
  | zero => rfl
  | succ w ih => rw [bytes, List.length_append, ih, List.length_singleton]

theorem unsigned_concat (l : List UInt8) (b : UInt8) :
    unsigned (l ++ [b]) = unsigned l * 256 + b.toNat := by
  rw [unsigned, List.foldl_append]
  rfl

theorem unsigned_singleton (b : UInt8) : unsigned [b] = b.toNat := by
  rw [unsigned, List.foldl_cons, List.foldl_nil, Nat.zero_mul, Nat.zero_add]

theorem signed_of_length {l : List UInt8} (hl : l.length = w) :
    signed l = Int.bmod (unsigned l) (256 ^ w) := by
  rw [signed, hl]

theorem toNat_ofInt (v : Int) : ((UInt8.ofInt v).toNat : Int) = v % 256 := by
  rw [UInt8.ofInt, UInt8.toNat_ofNat']
  omega

/-- The bytes denote the value modulo `256 ^ w`. -/
theorem unsigned_bytes (w : Nat) (v : Int) : (unsigned (bytes w v) : Int) = v % 256 ^ w := by
  induction w generalizing v with
  | zero => simp [bytes, unsigned]
  | succ w ih =>
    have hdiv : v / 256 / 256 ^ w = v / (256 * 256 ^ w) := Int.ediv_ediv_of_nonneg (by decide)
    rw [bytes, unsigned_concat, Nat.cast_add, Nat.cast_mul, ih, toNat_ofInt, pow_succ',
      Int.emod_def (v / 256), Int.emod_def v 256, Int.emod_def v (256 * 256 ^ w), hdiv]
    push_cast
    ring

/-- A value in range is read back. -/
theorem signed_bytes (hmin : -(256 ^ w : Int) ≤ v * 2) (hmax : v * 2 < 256 ^ w) :
    signed (bytes w v) = v := by
  have hcast : (256 ^ w : Int) = ((256 ^ w : Nat) : Int) := by norm_num
  rw [signed, length_bytes, unsigned_bytes, hcast, Int.emod_bmod]
  rw [hcast] at hmin hmax
  exact Int.bmod_eq_of_le_mul_two hmin hmax

end Lib.BigEndian
