import Mathlib.Data.List.TakeWhile
import ContentNetwork.Lib.Hex
import ContentNetwork.Common.HeaderFields
import ContentNetwork.Common.Ports

/-!
# MAC addresses in colon format

`Address::setHWAddrFromColonFormat` and `convertHWAddrToColonFormat` of
`common.cpp`. The first goes through a string twice: a scan that counts
hexadecimal digits up to the thirteenth, and a conversion that checks nothing
any more. The second prints the six bytes.

Mirroring notes:

- A `char` is signed. `HexChar | 0x20` and the subtractions are done in `int`
  and stored in a `char` again, which is the same in a `char` throughout.
- The string is the memory that may be read, from `colonmac` on. A read behind
  it is undefined, and so is `Count++` at the largest `int`, after which there
  is no character to read (`readable`).
- `sprintf` writes a NUL behind the text. Writing behind the array is
  undefined.
-/

namespace ContentNetwork

open Lib (Buf)
open Lib.Hex

def MAC_ADDR_LENGTH : Nat := 6

def colon : Int8 := 0x3A

namespace Address

/-- The characters that `colonmac[Count++]` can read. -/
def readable (colonmac : List Int8) : List Int8 := colonmac.take INT_MAX

/-- Upper case to lower case. -/
def lower (HexChar : Int8) : Int8 := if HexChar > 0x39 then HexChar ||| 0x20 else HexChar

/-- The first loop, with the characters that are left: how many digits it
counts. -/
def verify (num_mac_char : Nat) : List Int8 → Except Failure Nat
  | [] => .error .undefined
  | c :: rest =>
    if c = colon then verify num_mac_char rest
    else
      let HexChar := lower c
      if HexChar = 0 ∨ num_mac_char ≥ MAC_ADDR_LENGTH * 2 ∨
          ¬((0x30 ≤ HexChar ∧ HexChar ≤ 0x39) ∨ (0x61 ≤ HexChar ∧ HexChar ≤ 0x66)) then
        .ok num_mac_char
      else verify (num_mac_char + 1) rest

/-- The digit in the second loop. -/
def hexDigit (c : Int8) : Int8 :=
  let HexChar := lower c
  let HexChar := HexChar - 0x30
  if HexChar > 0x09 then HexChar - 0x27 else HexChar

/-- `HexValue = (HexValue << 4) | HexChar`. -/
def shiftIn (HexValue : UInt8) (HexChar : Int8) : UInt8 :=
  truncate (promote HexValue <<< 4 ||| HexChar.toInt32)

/-- The second loop. -/
def convert (num_mac_char mac_byte_num : Nat) (HexValue : UInt8)
    (macaddr_ : Buf UInt8 MAC_ADDR_LENGTH) :
    List Int8 → Buf UInt8 MAC_ADDR_LENGTH × Except Failure Unit
  | [] => (macaddr_, if mac_byte_num < MAC_ADDR_LENGTH then .error .undefined else .ok ())
  | c :: rest =>
    if hbyte : mac_byte_num < MAC_ADDR_LENGTH then
      if c = colon then convert num_mac_char mac_byte_num HexValue macaddr_ rest
      else
        let num_mac_char := num_mac_char + 1
        let HexValue := shiftIn HexValue (hexDigit c)
        if num_mac_char % 2 = 0 then
          convert num_mac_char (mac_byte_num + 1) 0 (macaddr_.set ⟨mac_byte_num, hbyte⟩ HexValue)
            rest
        else convert num_mac_char mac_byte_num HexValue macaddr_ rest
    else (macaddr_, .ok ())

/-- `macaddr_` afterwards, and how the call ends. -/
def setHWAddrFromColonFormat (macaddr_ : Buf UInt8 MAC_ADDR_LENGTH) (colonmac : List Int8) :
    Buf UInt8 MAC_ADDR_LENGTH × Except Failure Unit :=
  match verify 0 (readable colonmac) with
  | .error e => (macaddr_, .error e)
  | .ok num_mac_char =>
    if num_mac_char ≠ MAC_ADDR_LENGTH * 2 then
      (macaddr_, .error (.throws "Given Wrong MAC address Format."))
    else convert 0 0 0 macaddr_ (readable colonmac)

/-- What `%02X:%02X:%02X:%02X:%02X:%02X` prints. -/
def colonText (macaddr_ : Buf UInt8 MAC_ADDR_LENGTH) : List Int8 :=
  List.intercalate [colon] (macaddr_.cells.map byteChars)

/-- The `sprintf` into `colonformat`, an array of `n` characters. -/
def printColonFormat {n : Nat} (colonformat : Buf Int8 n)
    (macaddr_ : Buf UInt8 MAC_ADDR_LENGTH) : Option (Buf Int8 n) :=
  colonformat.write 0 (colonText macaddr_ ++ [0])

def convertHWAddrToColonFormat (alloc : (n : Nat) → Buf Int8 n)
    (macaddr_ : Buf UInt8 MAC_ADDR_LENGTH) : Option (Buf Int8 17) :=
  printColonFormat (alloc 17) macaddr_

/-! ## Single characters -/

/-- Both tests of the scan, on the character itself. -/
theorem lower_isDigit (c : Int8) :
    (0x30 ≤ lower c ∧ lower c ≤ 0x39) ∨ (0x61 ≤ lower c ∧ lower c ≤ 0x66) ↔ IsDigit c :=
  forall_char (P := fun c => (0x30 ≤ lower c ∧ lower c ≤ 0x39) ∨
    (0x61 ≤ lower c ∧ lower c ≤ 0x66) ↔ IsDigit c) (by decide +kernel) c

theorem lower_ne_zero (c : Int8) : IsDigit c → lower c ≠ 0 :=
  forall_char (P := fun c => IsDigit c → lower c ≠ 0) (by decide +kernel) c

theorem ne_colon (c : Int8) : IsDigit c → c ≠ colon :=
  forall_char (P := fun c => IsDigit c → c ≠ colon) (by decide +kernel) c

/-- The second loop finds the value of a digit. -/
theorem hexDigit_eq (c : Int8) : IsDigit c → hexDigit c = Int8.ofNat (value c) :=
  forall_char (P := fun c => IsDigit c → hexDigit c = Int8.ofNat (value c)) (by decide +kernel) c

theorem shiftIn_ofNat : ∀ v < 16, ∀ d < 16,
    shiftIn (UInt8.ofNat v) (Int8.ofNat d) = UInt8.ofNat (16 * v + d) := by
  decide +kernel

theorem shiftIn_hexDigit {c : Int8} {v : Nat} (hc : IsDigit c) (hv : v < 16) :
    shiftIn (UInt8.ofNat v) (hexDigit c) = UInt8.ofNat (16 * v + value c) := by
  rw [hexDigit_eq c hc]
  exact shiftIn_ofNat v hv _ (value_lt c hc)

/-! ## The scan -/

/-- The characters that count. -/
def digits (s : List Int8) : List Int8 := s.filter fun c => c ≠ colon

/-- What the scan leaves behind it when it still wants `n` digits. -/
def scanned : Nat → List Int8 → List Int8
  | _, [] => []
  | n, c :: rest =>
    if c = colon then c :: scanned n rest
    else if 0 < n ∧ IsDigit c then c :: scanned (n - 1) rest
    else []

section Scan

variable {s p : List Int8} {c : Int8} {n k : Nat}

@[simp] theorem digits_colon : digits (colon :: s) = digits s := rfl

theorem digits_cons (hc : c ≠ colon) : digits (c :: s) = c :: digits s :=
  List.filter_cons_of_pos (by simpa using hc)

theorem scanned_colon : scanned n (colon :: s) = colon :: scanned n s := by
  rw [scanned, if_pos rfl]

theorem scanned_zero (hc : c ≠ colon) : scanned 0 (c :: s) = [] := by
  rw [scanned, if_neg hc, if_neg fun h => Nat.lt_irrefl 0 h.1]

theorem scanned_digit (hc : IsDigit c) : scanned (n + 1) (c :: s) = c :: scanned n s := by
  rw [scanned, if_neg (ne_colon c hc), if_pos ⟨Nat.succ_pos n, hc⟩, Nat.add_sub_cancel]

theorem scanned_other (hc : c ≠ colon) (hdigit : ¬IsDigit c) : scanned n (c :: s) = [] := by
  rw [scanned, if_neg hc, if_neg fun h => hdigit h.2]

theorem scanned_isPrefix (n : Nat) (s : List Int8) : scanned n s <+: s := by
  induction s generalizing n with
  | nil => exact List.prefix_refl _
  | cons c s ih =>
    by_cases hc : c = colon
    · rw [hc, scanned_colon]
      exact (List.prefix_cons_inj _).mpr (ih n)
    · by_cases hdigit : IsDigit c
      · cases n with
        | zero =>
          rw [scanned_zero hc]
          exact List.nil_prefix
        | succ n =>
          rw [scanned_digit hdigit]
          exact (List.prefix_cons_inj _).mpr (ih n)
      · rw [scanned_other hc hdigit]
        exact List.nil_prefix

/-- The scan passes digits and colons only. -/
theorem mem_scanned (h : c ∈ scanned n s) : c = colon ∨ IsDigit c := by
  induction s generalizing n with
  | nil => cases h
  | cons x s ih =>
    by_cases hx : x = colon
    · rw [hx, scanned_colon] at h
      rcases List.mem_cons.mp h with hcx | h
      · exact Or.inl hcx
      · exact ih h
    · by_cases hdigit : IsDigit x
      · cases n with
        | zero =>
          rw [scanned_zero hx] at h
          cases h
        | succ n =>
          rw [scanned_digit hdigit] at h
          rcases List.mem_cons.mp h with hcx | h
          · exact Or.inr (hcx ▸ hdigit)
          · exact ih h
      · rw [scanned_other hx hdigit] at h
        cases h

/-- It passes the digits in front of the first character that is none. -/
theorem digits_scanned (n : Nat) (s : List Int8) :
    digits (scanned n s) = ((digits s).take n).takeWhile fun c => IsDigit c := by
  induction s generalizing n with
  | nil => rw [scanned, digits, List.filter_nil, List.take_nil, List.takeWhile_nil]
  | cons c s ih =>
    by_cases hc : c = colon
    · rw [hc, scanned_colon, digits_colon, digits_colon, ih]
    · rw [digits_cons hc]
      by_cases hdigit : IsDigit c
      · cases n with
        | zero =>
          rw [scanned_zero hc]
          rfl
        | succ n =>
          rw [scanned_digit hdigit, digits_cons hc, ih, List.take_succ_cons,
            List.takeWhile_cons_of_pos (by simpa using hdigit)]
      · rw [scanned_other hc hdigit]
        cases n with
        | zero => rfl
        | succ n =>
          rw [List.take_succ_cons, List.takeWhile_cons_of_neg (by simpa using hdigit)]
          rfl

/-- One character of the first loop. -/
theorem verify_cons (hc : c ≠ colon) (num_mac_char : Nat) :
    verify num_mac_char (c :: s) =
      if MAC_ADDR_LENGTH * 2 ≤ num_mac_char ∨ ¬IsDigit c then .ok num_mac_char
      else verify (num_mac_char + 1) s := by
  rw [verify, if_neg hc]
  dsimp only
  refine if_congr ?_ rfl rfl
  rw [lower_isDigit]
  constructor
  · intro hstop
    rcases hstop with hzero | hfull | hother
    · exact Or.inr fun hdigit => lower_ne_zero c hdigit hzero
    · exact Or.inl hfull
    · exact Or.inr hother
  · exact Or.inr

/-- The first loop stops behind what is scanned, if it can read so far: at a
NUL at the latest. -/
theorem verify_scanned (n k : Nat) (hn : n ≤ MAC_ADDR_LENGTH * 2) (s rest : List Int8) :
    verify (MAC_ADDR_LENGTH * 2 - n) ((s ++ 0 :: rest).take k) =
      if (scanned n s).length < k then
        .ok (MAC_ADDR_LENGTH * 2 - n + (digits (scanned n s)).length)
      else .error .undefined := by
  have hread : ∀ k, ([] : List Int8).length < k + 1 := fun k => Nat.succ_pos k
  induction s generalizing n k with
  | nil =>
    cases k with
    | zero => rfl
    | succ k =>
      rw [List.nil_append, List.take_succ_cons, verify_cons (by decide),
        if_pos (Or.inr (by decide)), scanned, if_pos (hread k)]
      rfl
  | cons c s ih =>
    cases k with
    | zero => rfl
    | succ k =>
      rw [List.cons_append, List.take_succ_cons]
      by_cases hc : c = colon
      · rw [hc, scanned_colon, digits_colon, verify, if_pos rfl, ih n k hn, List.length_cons]
        simp only [Nat.add_lt_add_iff_right]
      · rw [verify_cons hc]
        by_cases hdigit : IsDigit c
        · cases n with
          | zero =>
            rw [scanned_zero hc, if_pos (hread k), Nat.sub_zero, if_pos (Or.inl (Nat.le_refl _))]
            rfl
          | succ n =>
            have hnum : MAC_ADDR_LENGTH * 2 - (n + 1) + 1 = MAC_ADDR_LENGTH * 2 - n := by omega
            have hnot : ¬(MAC_ADDR_LENGTH * 2 ≤ MAC_ADDR_LENGTH * 2 - (n + 1) ∨ ¬IsDigit c) := by
              rintro (hfull | hother)
              · omega
              · exact hother hdigit
            rw [if_neg hnot, hnum, ih n k (by omega), scanned_digit hdigit, digits_cons hc,
              List.length_cons, List.length_cons]
            simp only [Nat.add_lt_add_iff_right]
            congr 2
            omega
        · rw [scanned_other hc hdigit, if_pos (Or.inr hdigit), if_pos (hread k)]
          rfl

end Scan

/-! ## The conversion -/

section Convert

variable {p s : List Int8} {c : Int8}

/-- A digit in the second loop. -/
theorem convert_digit {num_mac_char mac_byte_num : Nat} {HexValue : UInt8}
    {macaddr_ : Buf UInt8 MAC_ADDR_LENGTH} (hbyte : mac_byte_num < MAC_ADDR_LENGTH)
    (hc : IsDigit c) :
    convert num_mac_char mac_byte_num HexValue macaddr_ (c :: s) =
      if (num_mac_char + 1) % 2 = 0 then
        convert (num_mac_char + 1) (mac_byte_num + 1) 0
          (macaddr_.set ⟨mac_byte_num, hbyte⟩ (shiftIn HexValue (hexDigit c))) s
      else convert (num_mac_char + 1) mac_byte_num (shiftIn HexValue (hexDigit c)) macaddr_ s := by
  rw [convert, dif_pos hbyte, if_neg (ne_colon c hc)]

theorem convert_colon {num_mac_char mac_byte_num : Nat} {HexValue : UInt8}
    {macaddr_ : Buf UInt8 MAC_ADDR_LENGTH} (hbyte : mac_byte_num < MAC_ADDR_LENGTH) :
    convert num_mac_char mac_byte_num HexValue macaddr_ (colon :: s)
      = convert num_mac_char mac_byte_num HexValue macaddr_ s := by
  rw [convert, dif_pos hbyte, if_pos rfl]

/-- With all bytes converted the second loop reads no more. -/
theorem convert_done {num_mac_char : Nat} {HexValue : UInt8}
    (macaddr_ : Buf UInt8 MAC_ADDR_LENGTH) (s : List Int8) :
    ∃ mac, convert num_mac_char MAC_ADDR_LENGTH HexValue macaddr_ s = (mac, .ok ()) ∧
      mac.cells = macaddr_.cells.take MAC_ADDR_LENGTH ++ pairs [] := by
  refine ⟨macaddr_, ?_, ?_⟩
  · cases s with
    | nil => rfl
    | cons c s => rw [convert, dif_neg (Nat.lt_irrefl _)]
  · rw [List.take_of_length_le (Nat.le_of_eq macaddr_.length_eq)]
    exact (List.append_nil _).symm

/-- **The second loop over colons and digits**: it converts the digits to
bytes, from byte `b` on, either with no digit of that byte converted yet or
with its first digit `v`. -/
theorem convert_scanned (hp : ∀ c ∈ p, c = colon ∨ IsDigit c) (rest : List Int8) :
    (∀ b macaddr_, 2 * b + (digits p).length = MAC_ADDR_LENGTH * 2 →
      ∃ mac, convert (2 * b) b 0 macaddr_ (p ++ rest) = (mac, .ok ()) ∧
        mac.cells = macaddr_.cells.take b ++ pairs ((digits p).map value)) ∧
    ∀ b v macaddr_, v < 16 → 2 * b + 1 + (digits p).length = MAC_ADDR_LENGTH * 2 →
      ∃ mac, convert (2 * b + 1) b (UInt8.ofNat v) macaddr_ (p ++ rest) = (mac, .ok ()) ∧
        mac.cells = macaddr_.cells.take b ++ pairs (v :: (digits p).map value) := by
  induction p with
  | nil =>
    refine ⟨fun b macaddr_ hlen => ?_, fun b v macaddr_ _ hlen => ?_⟩
    · rw [digits, List.filter_nil, List.length_nil] at hlen
      obtain rfl : b = MAC_ADDR_LENGTH := by omega
      exact convert_done macaddr_ _
    · rw [digits, List.filter_nil, List.length_nil] at hlen
      omega
  | cons c p ih =>
    obtain ⟨heven, hodd⟩ := ih fun x hx => hp x (List.mem_cons_of_mem _ hx)
    rcases hp c (List.mem_cons_self ..) with rfl | hc
    · rw [digits_colon, List.cons_append]
      refine ⟨fun b macaddr_ hlen => ?_, fun b v macaddr_ hv hlen => ?_⟩
      · by_cases hb : b < MAC_ADDR_LENGTH
        · rw [convert_colon hb]
          exact heven b macaddr_ hlen
        · -- no digit is left, and the colon is not read
          obtain rfl : b = MAC_ADDR_LENGTH := by omega
          rw [List.length_eq_zero_iff.mp (by omega : (digits p).length = 0)]
          exact convert_done macaddr_ _
      · rw [convert_colon (by omega)]
        exact hodd b v macaddr_ hv hlen
    · rw [digits_cons (ne_colon c hc), List.cons_append, List.length_cons, List.map_cons]
      refine ⟨fun b macaddr_ hlen => ?_, fun b v macaddr_ hv hlen => ?_⟩
      · have hfirst : shiftIn 0 (hexDigit c) = UInt8.ofNat (value c) := by
          show shiftIn (UInt8.ofNat 0) (hexDigit c) = UInt8.ofNat (value c)
          rw [shiftIn_hexDigit hc (by decide), Nat.mul_zero, Nat.zero_add]
        rw [convert_digit (by omega) hc, if_neg (by omega), hfirst]
        exact hodd b (value c) macaddr_ (value_lt c hc) (by omega)
      · have hb : b < MAC_ADDR_LENGTH := by omega
        obtain ⟨mac, hmac, hcells⟩ := heven (b + 1)
          (macaddr_.set ⟨b, hb⟩ (UInt8.ofNat (16 * v + value c))) (by omega)
        rw [convert_digit hb hc, if_pos (by omega), shiftIn_hexDigit hc hv]
        refine ⟨mac, hmac, ?_⟩
        rw [hcells, Buf.set_take_succ macaddr_ ⟨b, hb⟩, List.append_assoc]
        rfl

end Convert

/-! ## Parsing -/

/-- The digits that denote the address. -/
def addressDigits (s : List Int8) : List Int8 := (digits s).take (MAC_ADDR_LENGTH * 2)

/-- The first twelve characters that are no colon exist, and are hexadecimal
digits. -/
def Accepted (s : List Int8) : Prop :=
  (addressDigits s).length = MAC_ADDR_LENGTH * 2 ∧ ∀ c ∈ addressDigits s, IsDigit c

instance : DecidablePred Accepted := fun _ => inferInstanceAs (Decidable (_ ∧ _))

/-- `setHWAddrFromColonFormat` on the string `s`, whatever is behind its NUL:
an accepted string stores the bytes that its digits denote, and any other
throws and changes nothing. -/
def ParsesExactly (s : List Int8) : Prop :=
  ∀ macaddr_ rest,
    if Accepted s then
      ∃ mac, setHWAddrFromColonFormat macaddr_ (s ++ 0 :: rest) = (mac, .ok ()) ∧
        mac.cells = pairs ((addressDigits s).map value)
    else
      setHWAddrFromColonFormat macaddr_ (s ++ 0 :: rest)
        = (macaddr_, .error (.throws "Given Wrong MAC address Format."))

section Parse

variable {s : List Int8}

/-- In an accepted string the scan passes the digits of the address. -/
theorem digits_scanned_of_accepted (h : Accepted s) :
    digits (scanned (MAC_ADDR_LENGTH * 2) s) = addressDigits s := by
  rw [digits_scanned]
  exact List.takeWhile_eq_self_iff.mpr fun c hc => by simpa using h.2 c hc

/-- The scan passes twelve digits iff the string is accepted. -/
theorem digits_scanned_length :
    (digits (scanned (MAC_ADDR_LENGTH * 2) s)).length = MAC_ADDR_LENGTH * 2 ↔ Accepted s := by
  constructor
  · intro hlen
    rw [digits_scanned, ← addressDigits] at hlen
    have hfront := List.takeWhile_prefix (fun c => decide (IsDigit c)) (l := addressDigits s)
    have hle : (addressDigits s).length ≤ MAC_ADDR_LENGTH * 2 := List.length_take_le _ _
    -- nothing is cut off, so all characters are digits
    have hall := hfront.eq_of_length_le (by omega)
    refine ⟨by rwa [hall] at hlen, fun c hc => ?_⟩
    rw [← hall] at hc
    simpa using List.mem_takeWhile_imp hc
  · intro haccepted
    rw [digits_scanned_of_accepted haccepted]
    exact haccepted.1

/-- What can be read of a string and the memory behind it, when the scan ends
there. -/
theorem readable_eq (h : (scanned (MAC_ADDR_LENGTH * 2) s).length < INT_MAX) (rest : List Int8) :
    ∃ rest', readable (s ++ 0 :: rest) = scanned (MAC_ADDR_LENGTH * 2) s ++ rest' := by
  obtain ⟨t, ht⟩ := scanned_isPrefix (MAC_ADDR_LENGTH * 2) s
  rw [readable]
  nth_rewrite 1 [← ht]
  rw [List.append_assoc, List.take_append, List.take_of_length_le (Nat.le_of_lt h)]
  exact ⟨_, rfl⟩

theorem parsesExactly_of_lt (h : (scanned (MAC_ADDR_LENGTH * 2) s).length < INT_MAX) :
    ParsesExactly s := by
  intro macaddr_ rest
  have hverify := verify_scanned (MAC_ADDR_LENGTH * 2) INT_MAX (Nat.le_refl _) s rest
  rw [Nat.sub_self, if_pos h, Nat.zero_add] at hverify
  unfold setHWAddrFromColonFormat
  rw [readable, hverify]
  dsimp only
  split
  next haccepted =>
    rw [if_neg fun hne => hne (digits_scanned_length.mpr haccepted)]
    obtain ⟨rest', hreadable⟩ := readable_eq h rest
    rw [readable] at hreadable
    rw [hreadable]
    have hlen := digits_scanned_length.mpr haccepted
    obtain ⟨mac, hmac, hcells⟩ := (convert_scanned (fun c hc => mem_scanned hc) rest').1 0 macaddr_
      ((Nat.zero_add _).trans hlen)
    rw [digits_scanned_of_accepted haccepted] at hcells
    exact ⟨mac, hmac, hcells⟩
  next hrejected =>
    rw [if_pos fun hlen => hrejected (digits_scanned_length.mp hlen)]

/-- Where the scan does not end in time, `Count` overflows. -/
theorem not_parsesExactly_of_le (h : INT_MAX ≤ (scanned (MAC_ADDR_LENGTH * 2) s).length) :
    ¬ParsesExactly s := by
  intro hparses
  have hverify := verify_scanned (MAC_ADDR_LENGTH * 2) INT_MAX (Nat.le_refl _) s []
  rw [Nat.sub_self, if_neg (Nat.not_lt.mpr h)] at hverify
  have hundefined : ∀ macaddr_, setHWAddrFromColonFormat macaddr_ (s ++ [0])
      = (macaddr_, .error .undefined) := by
    intro macaddr_
    unfold setHWAddrFromColonFormat
    rw [readable, hverify]
  have hexact := hparses (zeroBuf MAC_ADDR_LENGTH) []
  rw [hundefined] at hexact
  split at hexact
  next =>
    obtain ⟨mac, hmac, -⟩ := hexact
    cases (Prod.mk.inj hmac).2
  next => cases (Prod.mk.inj hexact).2

end Parse

/-! ## Back from the text -/

section Text

theorem digits_append (s t : List Int8) : digits (s ++ t) = digits s ++ digits t :=
  List.filter_append ..

theorem digits_byteChars (b : UInt8) : digits (byteChars b) = byteChars b := by
  refine List.filter_eq_self.mpr fun c hc => ?_
  simpa using ne_colon c (isDigit_of_mem_byteChars c hc)

/-- The text has no digits but those of the bytes. -/
theorem digits_intercalate (l : List UInt8) :
    digits (List.intercalate [colon] (l.map byteChars)) = l.flatMap byteChars := by
  induction l with
  | nil => rfl
  | cons b l ih =>
    cases l with
    | nil =>
      rw [List.map_singleton, List.intercalate_singleton, digits_byteChars]
      exact (List.append_nil _).symm
    | cons b' l =>
      rw [List.map_cons, List.map_cons, List.intercalate_cons_cons, ← List.map_cons, digits_append,
        digits_append, digits_byteChars, ih, List.flatMap_cons]
      rfl

theorem length_intercalate (l : List UInt8) :
    (List.intercalate [colon] (l.map byteChars)).length = 3 * l.length - 1 := by
  induction l with
  | nil => rfl
  | cons b l ih =>
    cases l with
    | nil => rfl
    | cons b' l =>
      rw [List.map_cons, List.map_cons, List.intercalate_cons_cons, ← List.map_cons,
        List.length_append, List.length_append, ih]
      have hpair : (byteChars b).length = 2 := rfl
      have hcolon : [colon].length = 1 := rfl
      rw [hpair, hcolon]
      simp only [List.length_cons]
      omega

variable (macaddr_ : Buf UInt8 MAC_ADDR_LENGTH)

theorem length_colonText : (colonText macaddr_).length = 17 := by
  rw [colonText, length_intercalate, macaddr_.length_eq]
  rfl

theorem length_byteChars : (macaddr_.cells.flatMap byteChars).length = MAC_ADDR_LENGTH * 2 := by
  rw [length_flatMap_byteChars, macaddr_.length_eq]

theorem addressDigits_colonText :
    addressDigits (colonText macaddr_) = macaddr_.cells.flatMap byteChars := by
  rw [addressDigits, colonText, digits_intercalate,
    List.take_of_length_le (Nat.le_of_eq (length_byteChars macaddr_))]

theorem accepted_colonText : Accepted (colonText macaddr_) := by
  unfold Accepted
  rw [addressDigits_colonText]
  refine ⟨length_byteChars macaddr_, fun c hc => ?_⟩
  obtain ⟨b, -, hb⟩ := List.mem_flatMap.mp hc
  exact isDigit_of_mem_byteChars c hb

/-- Parsing a printed array gives the six bytes. -/
def ParsesBack (macaddr_ : Buf UInt8 MAC_ADDR_LENGTH) {n : Nat} (colonformat : Option (Buf Int8 n)) :
    Prop :=
  ∃ text, colonformat = some text ∧
    ∀ old, setHWAddrFromColonFormat old text.cells = (macaddr_, .ok ())

/-- An array is large enough from 18 characters on, and then it is parsed back. -/
theorem parsesBack_iff {n : Nat} (colonformat : Buf Int8 n) :
    ParsesBack macaddr_ (printColonFormat colonformat macaddr_) ↔ 18 ≤ n := by
  have hlen : (colonText macaddr_ ++ [0]).length = 18 := by
    rw [List.length_append, length_colonText, List.length_singleton]
  constructor
  · intro hback
    obtain ⟨text, htext, -⟩ := hback
    have hle := (Buf.write_eq_some htext).1
    omega
  · intro hle
    obtain ⟨text, htext⟩ : ∃ b, colonformat.write 0 (colonText macaddr_ ++ [0]) = some b :=
      colonformat.write_of_le (by omega)
    refine ⟨text, htext, fun old => ?_⟩
    have hcells : text.cells = colonText macaddr_ ++ 0 :: colonformat.cells.drop 18 := by
      rw [Buf.write_zero_cells htext, hlen, List.append_assoc]
      rfl
    have hshort : (scanned (MAC_ADDR_LENGTH * 2) (colonText macaddr_)).length < INT_MAX := by
      have hprefix := (scanned_isPrefix (MAC_ADDR_LENGTH * 2) (colonText macaddr_)).length_le
      rw [length_colonText] at hprefix
      exact Nat.lt_of_le_of_lt hprefix (by decide)
    have hexact := parsesExactly_of_lt hshort old (colonformat.cells.drop 18)
    rw [if_pos (accepted_colonText macaddr_)] at hexact
    obtain ⟨mac, hmac, hbytes⟩ := hexact
    rw [addressDigits_colonText, pairs_byteChars] at hbytes
    rw [hcells, hmac, Buf.eq_of_cells hbytes]

end Text

/-- **The parser is exact for every string in which its `int` counter gets to
the end of the scan; the printed text is parsed back from every array of 18
characters or more, and the array that is allocated has 17.** -/
theorem hwAddr_iff {n : Nat} (s : List Int8) (colonformat : Buf Int8 n)
    (alloc : (n : Nat) → Buf Int8 n) (macaddr_ : Buf UInt8 MAC_ADDR_LENGTH) :
    (ParsesExactly s ↔ (scanned (MAC_ADDR_LENGTH * 2) s).length < INT_MAX) ∧
    (ParsesBack macaddr_ (printColonFormat colonformat macaddr_) ↔ 18 ≤ n) ∧
    ¬ParsesBack macaddr_ (convertHWAddrToColonFormat alloc macaddr_) := by
  refine ⟨⟨fun hparses => ?_, parsesExactly_of_lt⟩, parsesBack_iff macaddr_ colonformat,
    fun hback => ?_⟩
  · by_contra hlong
    exact not_parsesExactly_of_le (Nat.not_lt.mp hlong) hparses
  · exact absurd ((parsesBack_iff macaddr_ (alloc 17)).mp hback) (by decide)

/-- `00:00:00:00:00:00` does not fit into the array that is allocated. -/
theorem zero_not_printed :
    convertHWAddrToColonFormat (fun n => ⟨List.replicate n 0, List.length_replicate⟩)
        (zeroBuf MAC_ADDR_LENGTH) = none ∧
      ¬ParsesBack (zeroBuf MAC_ADDR_LENGTH)
        (convertHWAddrToColonFormat (fun n => ⟨List.replicate n 0, List.length_replicate⟩)
          (zeroBuf MAC_ADDR_LENGTH)) := by
  have hnone : convertHWAddrToColonFormat
      (fun n => ⟨List.replicate n 0, List.length_replicate⟩) (zeroBuf MAC_ADDR_LENGTH) = none := rfl
  refine ⟨hnone, fun hback => ?_⟩
  obtain ⟨text, htext, -⟩ := hback
  rw [hnone] at htext
  cases htext

end Address

end ContentNetwork
