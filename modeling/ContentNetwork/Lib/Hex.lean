import Mathlib.Data.List.Basic

/-!
# Hexadecimal digits in C strings

A `char` is a signed byte. `IsDigit` and `value` are the hexadecimal digits,
in upper and lower case, and `upper` is the digit that `printf` writes for
`%X`. Two digits denote a byte (`pairs`), and `%02X` writes those two
(`byteChars`): reading back what was written gives the bytes again
(`pairs_byteChars`).
-/

namespace Lib.Hex

/-- `0`–`9`, `A`–`F` or `a`–`f`. -/
def IsDigit (c : Int8) : Prop :=
  (0x30 ≤ c ∧ c ≤ 0x39) ∨ (0x41 ≤ c ∧ c ≤ 0x46) ∨ (0x61 ≤ c ∧ c ≤ 0x66)

instance : DecidablePred IsDigit := fun _ => inferInstanceAs (Decidable (_ ∨ _ ∨ _))

/-- What a digit denotes. -/
def value (c : Int8) : Nat :=
  if c ≤ 0x39 then (c.toInt - 0x30).toNat
  else if c ≤ 0x46 then (c.toInt - 0x41).toNat + 10
  else (c.toInt - 0x61).toNat + 10

/-- The digit for `n < 16`. -/
def upper (n : Nat) : Int8 :=
  if n < 10 then Int8.ofNat (0x30 + n) else Int8.ofNat (0x41 + (n - 10))

/-- The two digits of a byte. -/
def byteChars (b : UInt8) : List Int8 := [upper (b.toNat / 16), upper (b.toNat % 16)]

/-- The bytes that pairs of digits denote. -/
def pairs : List Nat → List UInt8
  | hi :: lo :: rest => UInt8.ofNat (16 * hi + lo) :: pairs rest
  | _ => []

/-- A property of characters, checked one by one. -/
theorem forall_char {P : Int8 → Prop} (h : ∀ n < 256, P (Int8.ofNat n)) (c : Int8) : P c := by
  have hc : Int8.ofNat c.toUInt8.toNat = c := by
    rw [← UInt8.toInt8_ofNat', UInt8.ofNat_toNat]
    rfl
  rw [← hc]
  exact h _ c.toUInt8.toNat_lt

theorem isDigit_upper : ∀ n < 16, IsDigit (upper n) := by decide

theorem value_upper : ∀ n < 16, value (upper n) = n := by decide

theorem value_lt (c : Int8) : IsDigit c → value c < 16 :=
  forall_char (P := fun c => IsDigit c → value c < 16) (by decide +kernel) c

theorem isDigit_of_mem_byteChars {b : UInt8} : ∀ c ∈ byteChars b, IsDigit c := by
  have hb := b.toNat_lt
  intro c hc
  rcases List.mem_pair.mp hc with rfl | rfl
  · exact isDigit_upper _ (by omega)
  · exact isDigit_upper _ (by omega)

theorem length_flatMap_byteChars (l : List UInt8) :
    (l.flatMap byteChars).length = l.length * 2 := by
  induction l with
  | nil => rfl
  | cons b l ih =>
    have hpair : (byteChars b).length = 2 := rfl
    rw [List.flatMap_cons, List.length_append, hpair, ih, List.length_cons]
    omega

/-- What is written for some bytes denotes these bytes. -/
theorem pairs_byteChars (l : List UInt8) : pairs ((l.flatMap byteChars).map value) = l := by
  induction l with
  | nil => rfl
  | cons b l ih =>
    have hb := b.toNat_lt
    have hbyte : UInt8.ofNat (16 * value (upper (b.toNat / 16)) + value (upper (b.toNat % 16)))
        = b := by
      rw [value_upper _ (by omega), value_upper _ (by omega), Nat.div_add_mod, UInt8.ofNat_toNat]
    calc pairs (((b :: l).flatMap byteChars).map value)
        = UInt8.ofNat (16 * value (upper (b.toNat / 16)) + value (upper (b.toNat % 16)))
            :: pairs ((l.flatMap byteChars).map value) := rfl
      _ = b :: l := by rw [hbyte, ih]

end Lib.Hex
