import Mathlib.Data.List.TakeWhile
import ContentNetwork.Common.Ports

/-!
# The configuration of a router

The start of `main` in the simplified `router.cpp`: the loop that reads the
numbers of the configuration file, and the loops that set up the ports. The
file holds the router's ID, the number `n` of interfaces, and then three
ranges of `n` port numbers each: received on, sent from, sent to. What follows
is ignored.

The loop puts each number where it belongs (`read_after`), up to the first one
that is no `int`, where `file >> num` fails. The ports are the trouble: they are
cast to `short`, and `init` takes one that became negative for an address that is
not set. `configure_honours_iff` is the exact statement: the router has the
interfaces of the file iff its ID is an `int` and no port is above 32767 (and the
loop reads no more numbers than its `int` can count).
-/

namespace ContentNetwork.Simplified

def ROUTER_NUM_POS : Int := 0
def NUM_TX_RX_REMOTE_INTERFACES_POS : Int := 1

/-! ## Reading the file -/

/-- The variables of `main` that the loop over the file works on. -/
structure Configuration where
  index : Int
  RouterID : Int
  num_RX_TX_RemoteInterfaces : Int
  RxAddressess : List Int
  TxAddressess : List Int
  TxRemoteAddressess : List Int
  TxAddr : List Address
  TxRemoteAddr : List Address
  deriving DecidableEq, Repr

/-- Before the loop. `RouterID` and the number of interfaces have no initial
value: they are whatever is there. -/
def Configuration.start (RouterID num_RX_TX_RemoteInterfaces : Int32) : Configuration :=
  ⟨0, RouterID.toInt, num_RX_TX_RemoteInterfaces.toInt, [], [], [], [], []⟩

/-- `file >> num` can read the number: it is an `int`. -/
def isInt (num : Int) : Bool := decide (INT_MIN ≤ num ∧ num ≤ INT_MAX)

/-- The numbers of the file that `file >> num` delivers. After the first failure
it delivers nothing. -/
def extracted (numbers : List Int) : List Int := numbers.takeWhile isInt

/-- The chain of tests on `index`. -/
def Configuration.store (c : Configuration) (num : Int) : Configuration :=
  if c.index = ROUTER_NUM_POS then { c with RouterID := num }
  else if c.index = NUM_TX_RX_REMOTE_INTERFACES_POS then
    { c with num_RX_TX_RemoteInterfaces := num }
  else if c.index ≥ 2 ∧ c.index < 2 + c.num_RX_TX_RemoteInterfaces then
    { c with RxAddressess := c.RxAddressess ++ [num] }
  else if c.index ≥ 2 + c.num_RX_TX_RemoteInterfaces ∧
      c.index < 2 + 2 * c.num_RX_TX_RemoteInterfaces then
    { c with
      TxAddressess := c.TxAddressess ++ [num]
      TxAddr := c.TxAddr ++ [.localhost num] }
  else if c.index ≥ 2 + 2 * c.num_RX_TX_RemoteInterfaces ∧
      c.index < 2 + 3 * c.num_RX_TX_RemoteInterfaces then
    { c with
      TxRemoteAddressess := c.TxRemoteAddressess ++ [num]
      TxRemoteAddr := c.TxRemoteAddr ++ [.localhost num] }
  else c

/-- `while (file >> num)`, over the numbers that are delivered. `none` is the
overflow of `index++`; the sums in the tests overflow only for an `n` so large
that the numbers of the file overflow the counter. -/
def Configuration.read (c : Configuration) : List Int → Option Configuration
  | [] => some c
  | num :: rest =>
    if c.index < INT_MAX then ({ c.store num with index := c.index + 1 }).read rest else none

/-! ## Setting up the ports -/

/-- `for (int index = 0; index < n; index++)`, with what each turn adds. -/
def forIndex {β : Type} (body : Nat → Except Failure β) : Nat → Except Failure (List β)
  | 0 => .ok []
  | n + 1 => do
    let l ← forIndex body n
    let x ← body n
    .ok (l ++ [x])

/-- The sending port of an interface; `[]` does not check its index. -/
def Configuration.sendingPort (c : Configuration) (index : Nat) : Except Failure Port :=
  match c.TxAddr[index]?, c.TxRemoteAddr[index]? with
  | some addr, some daddr =>
    SendingPort.init ((newSendingPort.setAddress addr).setRemoteAddress daddr)
  | _, _ => .error .undefined

/-- The line of an interface in the configuration details; `at` does. -/
def Configuration.printed (c : Configuration) (index : Nat) : Except Failure Unit :=
  if index < c.RxAddressess.length ∧ index < c.TxAddressess.length ∧
      index < c.TxRemoteAddressess.length then .ok ()
  else .error .outOfRange

/-- The receiving port of an interface. -/
def Configuration.receivingPort (c : Configuration) (index : Nat) : Except Failure Port :=
  match c.RxAddressess[index]? with
  | some num => ReceivingPort.init (newReceivingPort.setAddress (.localhost num))
  | none => .error .outOfRange

/-- A router that is set up. `receivingPorts` are the ports of its receive
threads, by `interface_num`. -/
structure RouterSetup where
  RouterID : Int
  MySendingPorts : List Port
  receivingPorts : List Port
  deriving DecidableEq, Repr

/-- The three loops over the interfaces. -/
def Configuration.setUp (c : Configuration) : Except Failure RouterSetup := do
  let MySendingPorts ← forIndex c.sendingPort c.num_RX_TX_RemoteInterfaces.toNat
  let _ ← forIndex c.printed c.num_RX_TX_RemoteInterfaces.toNat
  let receivingPorts ← forIndex c.receivingPort c.num_RX_TX_RemoteInterfaces.toNat
  .ok ⟨c.RouterID, MySendingPorts, receivingPorts⟩

/-- `main` up to its threads, on the numbers of the file. The first two
arguments are what the variables hold before. -/
def configure (RouterID num_RX_TX_RemoteInterfaces : Int32) (numbers : List Int) :
    Except Failure RouterSetup :=
  match (Configuration.start RouterID num_RX_TX_RemoteInterfaces).read (extracted numbers) with
  | some c => c.setUp
  | none => .error .undefined

/-! ## What the loop over the file leaves -/

section Ranges

variable {α : Type} {l : List α} {x : α} {a b : Nat}

/-- One more element falls into a range of positions, -/
theorem range_concat (ha : a ≤ l.length) (hb : l.length < a + b) :
    ((l ++ [x]).drop a).take b = (l.drop a).take b ++ [x] := by
  rw [List.drop_append_of_le_length ha, List.take_of_length_le, List.take_of_length_le]
  · rw [List.length_drop]
    omega
  · rw [List.length_append, List.length_drop, List.length_singleton]
    omega

/-- or does not. -/
theorem range_concat_of_not (h : l.length < a ∨ a + b ≤ l.length) :
    ((l ++ [x]).drop a).take b = (l.drop a).take b := by
  rcases h with hlt | hle
  · rw [List.drop_eq_nil_of_le, List.drop_eq_nil_of_le]
    · omega
    · rw [List.length_append, List.length_singleton]
      omega
  · rw [List.drop_append_of_le_length (by omega), List.take_append_of_le_length]
    rw [List.length_drop]
    omega

end Ranges

/-- The variables after the ID, the number `n` and the numbers `read`. -/
def Configuration.after (RouterID : Int) (n : Nat) (read : List Int) : Configuration :=
  { index := 2 + read.length
    RouterID := RouterID
    num_RX_TX_RemoteInterfaces := n
    RxAddressess := (read.drop 0).take n
    TxAddressess := (read.drop n).take n
    TxRemoteAddressess := (read.drop (2 * n)).take n
    TxAddr := ((read.drop n).take n).map .localhost
    TxRemoteAddr := ((read.drop (2 * n)).take n).map .localhost }

section Read

variable {RouterID : Int} {n : Nat} {read : List Int} {num : Int}

/-- One turn of the loop: the range that `index` is in gets the number. -/
theorem store_after : { (Configuration.after RouterID n read).store num with
      index := (Configuration.after RouterID n read).index + 1 }
    = Configuration.after RouterID n (read ++ [num]) := by
  have hindex : (2 + read.length : Int) + 1 = 2 + ((read ++ [num]).length : Nat) := by
    rw [List.length_append, List.length_singleton]
    omega
  have h0 : ¬(2 + read.length : Int) = ROUTER_NUM_POS := by
    show ¬(2 + read.length : Int) = 0
    omega
  have h1 : ¬(2 + read.length : Int) = NUM_TX_RX_REMOTE_INTERFACES_POS := by
    show ¬(2 + read.length : Int) = 1
    omega
  unfold Configuration.store Configuration.after
  dsimp only
  rw [if_neg h0, if_neg h1]
  by_cases hrx : read.length < n
  · rw [if_pos (by omega), hindex, range_concat (Nat.zero_le _) (by omega),
      range_concat_of_not (Or.inl hrx), range_concat_of_not (Or.inl (by omega))]
  by_cases htx : read.length < 2 * n
  · rw [if_neg (by omega), if_pos (by omega), hindex,
      range_concat_of_not (Or.inr (by omega)), range_concat (by omega) (by omega),
      range_concat_of_not (Or.inl htx), List.map_append]
    rfl
  by_cases hremote : read.length < 3 * n
  · rw [if_neg (by omega), if_neg (by omega), if_pos (by omega), hindex,
      range_concat_of_not (Or.inr (by omega)), range_concat_of_not (Or.inr (by omega)),
      range_concat (by omega) (by omega), List.map_append]
    rfl
  · rw [if_neg (by omega), if_neg (by omega), if_neg (by omega), hindex,
      range_concat_of_not (Or.inr (by omega)), range_concat_of_not (Or.inr (by omega)),
      range_concat_of_not (Or.inr (by omega))]

/-- The loop reads the file to its end unless the counter overflows. -/
theorem read_after (rest : List Int) (hread : 2 + (read.length : Int) ≤ INT_MAX) :
    (Configuration.after RouterID n read).read rest
      = if 2 + ((read ++ rest).length : Int) ≤ INT_MAX
        then some (.after RouterID n (read ++ rest)) else none := by
  induction rest generalizing read with
  | nil =>
    rw [List.append_nil, if_pos hread]
    rfl
  | cons num rest ih =>
    rw [Configuration.read, store_after]
    have hindex : (Configuration.after RouterID n read).index = 2 + read.length := rfl
    by_cases hlt : (Configuration.after RouterID n read).index < INT_MAX
    · rw [if_pos hlt, ih (by rw [List.length_append, List.length_singleton]; omega),
        List.append_assoc, List.singleton_append]
    · rw [if_neg hlt, if_neg]
      rw [List.length_append, List.length_cons]
      omega

/-- The first two numbers. -/
theorem read_start (RouterID₀ n₀ : Int32) (rest : List Int) :
    (Configuration.start RouterID₀ n₀).read (RouterID :: (n : Int) :: rest)
      = if 2 + (rest.length : Int) ≤ INT_MAX then some (.after RouterID n rest) else none := by
  have hstart : { ({ (Configuration.start RouterID₀ n₀).store RouterID with index := 0 + 1 } :
        Configuration).store n with index := 0 + 1 + 1 } = Configuration.after RouterID n [] := by
    simp [Configuration.store, Configuration.start, Configuration.after, ROUTER_NUM_POS,
      NUM_TX_RX_REMOTE_INTERFACES_POS]
  have hrest := @read_after RouterID n [] rest (by decide)
  rw [← hstart] at hrest
  exact hrest

end Read

/-! ## What the loops over the interfaces leave -/

section ForIndex

variable {β : Type} {body : Nat → Except Failure β} {n : Nat}

theorem forIndex_succ_ok {l : List β} :
    forIndex body (n + 1) = .ok l
      ↔ ∃ l' x, forIndex body n = .ok l' ∧ body n = .ok x ∧ l = l' ++ [x] := by
  show (forIndex body n >>= fun l' => body n >>= fun x => .ok (l' ++ [x])) = .ok l ↔ _
  cases forIndex body n with
  | error e => simp [bind, Except.bind]
  | ok l' =>
    cases body n with
    | error e => simp [bind, Except.bind]
    | ok x => simp [bind, Except.bind, eq_comm]

/-- A loop that ends has ended every turn, and collected them all. -/
theorem forIndex_eq_ok {l : List β} (h : forIndex body n = .ok l) :
    l.length = n ∧ ∀ i < n, ∃ x, body i = .ok x ∧ l[i]? = some x := by
  induction n generalizing l with
  | zero =>
    obtain rfl := Except.ok.inj h
    exact ⟨rfl, fun i hi => absurd hi (Nat.not_lt_zero i)⟩
  | succ n ih =>
    obtain ⟨l', x, hl', hx, rfl⟩ := forIndex_succ_ok.mp h
    obtain ⟨hlen, hall⟩ := ih hl'
    refine ⟨by rw [List.length_append, hlen]; rfl, fun i hi => ?_⟩
    by_cases hlast : i = n
    · subst hlast
      refine ⟨x, hx, ?_⟩
      rw [← hlen]
      exact List.getElem?_concat_length
    · obtain ⟨y, hy, hget⟩ := hall i (by omega)
      refine ⟨y, hy, ?_⟩
      rw [List.getElem?_append_left (by omega)]
      exact hget

/-- A loop none of whose turns fails ends. -/
theorem forIndex_isOk (h : ∀ i < n, ∃ x, body i = .ok x) : ∃ l, forIndex body n = .ok l := by
  induction n with
  | zero => exact ⟨[], rfl⟩
  | succ n ih =>
    obtain ⟨l, hl⟩ := ih fun i hi => h i (by omega)
    obtain ⟨x, hx⟩ := h n (Nat.lt_succ_self n)
    exact ⟨_, forIndex_succ_ok.mpr ⟨l, x, hl, hx, rfl⟩⟩

end ForIndex

theorem setUp_eq_ok {c : Configuration} {r : RouterSetup} :
    c.setUp = .ok r ↔
      forIndex c.sendingPort c.num_RX_TX_RemoteInterfaces.toNat = .ok r.MySendingPorts ∧
      (∃ l, forIndex c.printed c.num_RX_TX_RemoteInterfaces.toNat = .ok l) ∧
      forIndex c.receivingPort c.num_RX_TX_RemoteInterfaces.toNat = .ok r.receivingPorts ∧
      r.RouterID = c.RouterID := by
  obtain ⟨id, sending, receiving⟩ := r
  unfold Configuration.setUp
  cases forIndex c.sendingPort c.num_RX_TX_RemoteInterfaces.toNat with
  | error e => simp [bind, Except.bind]
  | ok l =>
    cases forIndex c.printed c.num_RX_TX_RemoteInterfaces.toNat with
    | error e => simp [bind, Except.bind]
    | ok l' =>
      cases forIndex c.receivingPort c.num_RX_TX_RemoteInterfaces.toNat with
      | error e => simp [bind, Except.bind]
      | ok l'' =>
        simp only [bind, Except.bind, Except.ok.injEq, RouterSetup.mk.injEq]
        constructor
        · intro h
          obtain ⟨hid, hsending, hreceiving⟩ := h
          exact ⟨hsending, ⟨l', rfl⟩, hreceiving, hid.symm⟩
        · intro h
          obtain ⟨hsending, -, hreceiving, hid⟩ := h
          exact ⟨hid.symm, hsending, hreceiving⟩

section Interfaces

variable {RouterID : Int} {n : Nat} {rest : List Int} {i : Nat} {p a b : Int}

/-- A position of one of the three ranges. -/
theorem getElem?_range {from' : Nat} (hi : i < n) :
    ((rest.drop from').take n)[i]? = rest[from' + i]? := by
  rw [List.getElem?_take_of_lt hi, List.getElem?_drop]

theorem receivingPort_after (hi : i < n) (hp : rest[i]? = some p) (h0 : 0 ≤ p) (h1 : p ≤ 65535) :
    ∃ x, (Configuration.after RouterID n rest).receivingPort i = .ok x ∧
      x.sockfd_ = some (if p ≤ 32767 then p else 4000) := by
  have hget : (Configuration.after RouterID n rest).RxAddressess[i]? = some p := by
    show ((rest.drop 0).take n)[i]? = some p
    rw [getElem?_range hi, Nat.zero_add, hp]
  unfold Configuration.receivingPort
  rw [hget]
  exact ReceivingPort.init_localhost h0 h1

theorem sendingPort_after (hi : i < n) (ha : rest[n + i]? = some a)
    (hb : rest[2 * n + i]? = some b) :
    (Configuration.after RouterID n rest).sendingPort i
      = SendingPort.init
          ((newSendingPort.setAddress (.localhost a)).setRemoteAddress (.localhost b)) := by
  have haddr : (Configuration.after RouterID n rest).TxAddr[i]? = some (.localhost a) := by
    show (((rest.drop n).take n).map Address.localhost)[i]? = _
    rw [List.getElem?_map, getElem?_range hi, ha]
    rfl
  have hdaddr : (Configuration.after RouterID n rest).TxRemoteAddr[i]? = some (.localhost b) := by
    show (((rest.drop (2 * n)).take n).map Address.localhost)[i]? = _
    rw [List.getElem?_map, getElem?_range hi, hb]
    rfl
  unfold Configuration.sendingPort
  rw [haddr, hdaddr]

/-- An interface none of whose ports is above 32767 receives where its file
says, -/
theorem receivingPort_after_le (hi : i < n) (hp : rest[i]? = some p) (h0 : 0 ≤ p)
    (hle : p ≤ 32767) :
    ∃ x, (Configuration.after RouterID n rest).receivingPort i = .ok x ∧ x.sockfd_ = rest[i]? := by
  obtain ⟨x, hx, hsock⟩ := @receivingPort_after RouterID n rest i p hi hp h0 (by omega)
  rw [if_pos hle, ← hp] at hsock
  exact ⟨x, hx, hsock⟩

/-- and sends from and to where its file says. -/
theorem sendingPort_after_le (hi : i < n) (ha : rest[n + i]? = some a)
    (hb : rest[2 * n + i]? = some b) (ha0 : 0 ≤ a) (hale : a ≤ 32767) (hb0 : 0 ≤ b)
    (hble : b ≤ 32767) :
    ∃ x, (Configuration.after RouterID n rest).sendingPort i = .ok x ∧
      x.sockfd_ = rest[n + i]? ∧ some x.destination = rest[2 * n + i]? := by
  obtain ⟨x, hx, hsock, hdest⟩ := @SendingPort.init_localhost a b ha0 (by omega) hb0 hble
  rw [if_pos hale, ← ha] at hsock
  refine ⟨x, ?_, hsock, ?_⟩
  · rw [sendingPort_after hi ha hb]
    exact hx
  · rw [hdest, hb]

theorem printed_after (hi : i < n) (hlen : 3 * n ≤ rest.length) :
    (Configuration.after RouterID n rest).printed i = .ok () := by
  unfold Configuration.printed
  refine if_pos ⟨?_, ?_, ?_⟩
  all_goals
    show i < (List.take n (List.drop _ rest)).length
    rw [List.length_take, List.length_drop]
    omega

end Interfaces

/-! ## The router and its file -/

/-- The router has the `n` interfaces of its file: interface `i` receives on
the port at position `2 + i`, and sends from the port at position `2 + n + i`
to the one at position `2 + 2 * n + i`. -/
structure Honours (numbers : List Int) (n : Nat) (r : RouterSetup) : Prop where
  id : some r.RouterID = numbers[0]?
  interfaces : r.receivingPorts.length = n ∧ r.MySendingPorts.length = n
  receives : ∀ i < n, (r.receivingPorts[i]?).bind Port.sockfd_ = numbers[2 + i]?
  sends : ∀ i < n, (r.MySendingPorts[i]?).bind Port.sockfd_ = numbers[2 + n + i]?
  destinations : ∀ i < n, (r.MySendingPorts[i]?).map Port.destination = numbers[2 + 2 * n + i]?

section Main

variable {RouterID : Int} {n : Nat} {rest : List Int}

theorem getElem?_numbers (k : Nat) : (RouterID :: (n : Int) :: rest)[2 + k]? = rest[k]? := by
  rw [Nat.add_comm]
  rfl

/-- The ports of the file, interface by interface. -/
theorem forall_ports_iff {Q : Int → Prop} (hlen : 3 * n ≤ rest.length) :
    (∀ p ∈ rest.take (3 * n), Q p) ↔
      ∀ i < n, ∃ p a b, rest[i]? = some p ∧ rest[n + i]? = some a ∧ rest[2 * n + i]? = some b ∧
        Q p ∧ Q a ∧ Q b := by
  have hmem : ∀ k p, k < 3 * n → rest[k]? = some p → p ∈ rest.take (3 * n) := by
    intro k p hk hp
    refine List.mem_of_getElem? (i := k) ?_
    rw [List.getElem?_take_of_lt hk]
    exact hp
  constructor
  · intro hall i hi
    have hget : ∀ k < 3 * n, ∃ p, rest[k]? = some p ∧ Q p := by
      intro k hk
      have hp : rest[k]? = some rest[k] := List.getElem?_eq_getElem (by omega)
      exact ⟨rest[k], hp, hall _ (hmem k _ hk hp)⟩
    obtain ⟨p, hp, hQp⟩ := hget i (by omega)
    obtain ⟨a, ha, hQa⟩ := hget (n + i) (by omega)
    obtain ⟨b, hb, hQb⟩ := hget (2 * n + i) (by omega)
    exact ⟨p, a, b, hp, ha, hb, hQp, hQa, hQb⟩
  · intro hall p hp
    obtain ⟨k, hk⟩ := List.mem_iff_getElem?.mp hp
    have hlt : k < 3 * n := by
      have := (List.getElem?_eq_some_iff.mp hk).1
      rw [List.length_take] at this
      omega
    rw [List.getElem?_take_of_lt hlt] at hk
    -- which of the three ranges the position is in
    by_cases hrx : k < n
    · obtain ⟨p', -, -, hp', -, -, hQ, -, -⟩ := hall k hrx
      rw [hk] at hp'
      exact Option.some.inj hp' ▸ hQ
    by_cases htx : k < 2 * n
    · obtain ⟨-, a, -, -, ha, -, -, hQ, -⟩ := hall (k - n) (by omega)
      rw [show n + (k - n) = k by omega, hk] at ha
      exact Option.some.inj ha ▸ hQ
    · obtain ⟨-, -, b, -, -, hb, -, -, hQ⟩ := hall (k - 2 * n) (by omega)
      rw [show 2 * n + (k - 2 * n) = k by omega, hk] at hb
      exact Option.some.inj hb ▸ hQ

/-- A router that honours its file has no port above 32767. -/
theorem ports_le_of_honours (hlen : 3 * n ≤ rest.length)
    (hports : ∀ p ∈ rest.take (3 * n), 1 ≤ p ∧ p ≤ 65535) {r : RouterSetup}
    (hr : (Configuration.after RouterID n rest).setUp = .ok r)
    (hh : Honours (RouterID :: n :: rest) n r) : ∀ p ∈ rest.take (3 * n), p ≤ 32767 := by
  obtain ⟨hsending, -, hreceiving, -⟩ := setUp_eq_ok.mp hr
  have hsend := (forIndex_eq_ok hsending).2
  have hreceive := (forIndex_eq_ok hreceiving).2
  rw [show (Configuration.after RouterID n rest).num_RX_TX_RemoteInterfaces.toNat = n from
    Int.toNat_natCast n] at hsend hreceive
  rw [forall_ports_iff hlen] at hports ⊢
  intro i hi
  obtain ⟨p, a, b, hp, ha, hb, hpr, har, hbr⟩ := hports i hi
  refine ⟨p, a, b, hp, ha, hb, ?_, ?_⟩
  · -- the receiving port is bound to `p` itself
    obtain ⟨x, hx, hget⟩ := hreceive i hi
    obtain ⟨y, hy, hsock⟩ := @receivingPort_after RouterID n rest i p hi hp (by omega) (by omega)
    obtain rfl := Except.ok.inj (hx.symm.trans hy)
    have hbound := hh.receives i hi
    rw [hget, Option.bind_some, hsock, getElem?_numbers, hp] at hbound
    have hbound := Option.some.inj hbound
    split at hbound <;> omega
  · obtain ⟨x, hx, hget⟩ := hsend i hi
    rw [sendingPort_after hi ha hb] at hx
    have hb' : b ≤ 32767 := by
      refine Int.not_lt.mp fun hlt => ?_
      rw [SendingPort.init_throws hlt hbr.2] at hx
      cases hx
    obtain ⟨y, hy, hsock, -⟩ := @SendingPort.init_localhost a b (by omega) (by omega) (by omega) hb'
    obtain rfl := Except.ok.inj (hx.symm.trans hy)
    have hbound := hh.sends i hi
    rw [hget, Option.bind_some, hsock, Nat.add_assoc, getElem?_numbers, ha] at hbound
    have hbound := Option.some.inj hbound
    exact ⟨by split at hbound <;> omega, hb'⟩

/-- Without such a port the router is set up as its file says. -/
theorem honours_of_ports_le (hlen : 3 * n ≤ rest.length)
    (hports : ∀ p ∈ rest.take (3 * n), 1 ≤ p ∧ p ≤ 32767) :
    ∃ r, (Configuration.after RouterID n rest).setUp = .ok r ∧
      Honours (RouterID :: n :: rest) n r := by
  rw [forall_ports_iff hlen] at hports
  -- what each turn leaves
  have hreceive : ∀ i < n, ∃ x, (Configuration.after RouterID n rest).receivingPort i = .ok x ∧
      x.sockfd_ = rest[i]? := by
    intro i hi
    obtain ⟨p, -, -, hp, -, -, hpr, -, -⟩ := hports i hi
    exact receivingPort_after_le hi hp (by omega) hpr.2
  have hsend : ∀ i < n, ∃ x, (Configuration.after RouterID n rest).sendingPort i = .ok x ∧
      x.sockfd_ = rest[n + i]? ∧ some x.destination = rest[2 * n + i]? := by
    intro i hi
    obtain ⟨-, a, b, -, ha, hb, -, har, hbr⟩ := hports i hi
    exact sendingPort_after_le hi ha hb (by omega) har.2 (by omega) hbr.2
  obtain ⟨sending, hsending⟩ := forIndex_isOk fun i hi => (hsend i hi).imp fun _ h => h.1
  obtain ⟨receiving, hreceiving⟩ := forIndex_isOk fun i hi => (hreceive i hi).imp fun _ h => h.1
  obtain ⟨details, hdetails⟩ := forIndex_isOk fun i (hi : i < n) =>
    ⟨(), @printed_after RouterID n rest i hi hlen⟩
  obtain ⟨hslen, hsall⟩ := forIndex_eq_ok hsending
  obtain ⟨hrlen, hrall⟩ := forIndex_eq_ok hreceiving
  have hn : (Configuration.after RouterID n rest).num_RX_TX_RemoteInterfaces.toNat = n :=
    Int.toNat_natCast n
  refine ⟨⟨RouterID, sending, receiving⟩, setUp_eq_ok.mpr ?_, ⟨rfl, ⟨hrlen, hslen⟩, ?_, ?_, ?_⟩⟩
  · rw [hn]
    exact ⟨hsending, ⟨details, hdetails⟩, hreceiving, rfl⟩
  · intro i hi
    obtain ⟨x, hx, hget⟩ := hrall i hi
    obtain ⟨y, hy, hsock⟩ := hreceive i hi
    obtain rfl := Except.ok.inj (hx.symm.trans hy)
    rw [hget, Option.bind_some, hsock, getElem?_numbers]
  · intro i hi
    obtain ⟨x, hx, hget⟩ := hsall i hi
    obtain ⟨y, hy, hsock, -⟩ := hsend i hi
    obtain rfl := Except.ok.inj (hx.symm.trans hy)
    rw [hget, Option.bind_some, hsock, Nat.add_assoc, getElem?_numbers]
  · intro i hi
    obtain ⟨x, hx, hget⟩ := hsall i hi
    obtain ⟨y, hy, -, hdest⟩ := hsend i hi
    obtain rfl := Except.ok.inj (hx.symm.trans hy)
    rw [hget, Option.map_some, hdest, Nat.add_assoc, getElem?_numbers]

/-- Only the ID, `n` and the `3 * n` numbers behind them count. -/
theorem Honours.congr {rest' : List Int} {r : RouterSetup}
    (htake : rest'.take (3 * n) = rest.take (3 * n)) (h : Honours (RouterID :: n :: rest) n r) :
    Honours (RouterID :: n :: rest') n r := by
  have hget : ∀ k < 3 * n, rest'[k]? = rest[k]? := by
    intro k hk
    rw [← List.getElem?_take_of_lt hk, htake, List.getElem?_take_of_lt hk]
  refine ⟨h.id, h.interfaces, fun i hi => ?_, fun i hi => ?_, fun i hi => ?_⟩
  · rw [h.receives i hi, getElem?_numbers, getElem?_numbers, hget i (by omega)]
  · rw [h.sends i hi, Nat.add_assoc, getElem?_numbers, getElem?_numbers, hget _ (by omega)]
  · rw [h.destinations i hi, Nat.add_assoc, getElem?_numbers, getElem?_numbers,
      hget _ (by omega)]

/-- The numbers in front are delivered if they are `int`s. -/
theorem take_extracted {m : Nat} (hm : m ≤ rest.length) (hint : ∀ p ∈ rest.take m, isInt p) :
    m ≤ (extracted rest).length ∧ (extracted rest).take m = rest.take m := by
  have hsplit : extracted rest = rest.take m ++ (rest.drop m).takeWhile isInt := by
    rw [← List.takeWhile_append_of_pos hint, List.take_append_drop]
    rfl
  have hlength : (rest.take m).length = m := by
    rw [List.length_take]
    omega
  constructor
  · rw [hsplit, List.length_append, hlength]
    exact Nat.le_add_right ..
  · rw [hsplit, List.take_append_of_le_length (by rw [hlength]), List.take_of_length_le (by omega)]

/-- What is left where the ID is no `int`: nothing has been read. -/
theorem not_honours_of_id {RouterID₀ n₀ : Int32} {numbers : List Int} {r : RouterSetup}
    (hid : isInt RouterID = false)
    (hr : (Configuration.start RouterID₀ n₀).setUp = .ok r) :
    ¬Honours (RouterID :: numbers) n r := by
  intro hh
  obtain ⟨-, -, -, hid₀⟩ := setUp_eq_ok.mp hr
  have heq : RouterID₀.toInt = RouterID := hid₀.symm.trans (Option.some.inj hh.id)
  have hlo := RouterID₀.le_toInt
  have hhi := RouterID₀.toInt_lt
  have hno : ¬(INT_MIN ≤ RouterID ∧ RouterID ≤ INT_MAX) := of_decide_eq_false hid
  unfold INT_MIN INT_MAX at hno
  omega

/-- And where `n` is none, which is positive then: there is no port. -/
theorem not_honours_of_num {c : Configuration} {numbers : List Int} {r : RouterSetup}
    (hn : 0 < n) (hports : c.RxAddressess = []) (hr : c.setUp = .ok r) :
    ¬Honours numbers n r := by
  intro hh
  obtain ⟨-, -, hreceiving, -⟩ := setUp_eq_ok.mp hr
  obtain ⟨hlength, hall⟩ := forIndex_eq_ok hreceiving
  obtain ⟨x, hx, -⟩ := hall 0 (by rw [← hlength, hh.interfaces.1]; exact hn)
  unfold Configuration.receivingPort at hx
  rw [hports] at hx
  cases hx

/-- **A file is honoured, interface by interface, iff its ID is an `int` and none
of its ports is above 32767**, and the counter of the numbers that are delivered
does not overflow. -/
theorem configure_honours_iff (RouterID₀ n₀ : Int32) (hlen : 3 * n ≤ rest.length)
    (hports : ∀ p ∈ rest.take (3 * n), 1 ≤ p ∧ p ≤ 65535) :
    (∃ r, configure RouterID₀ n₀ (RouterID :: n :: rest) = .ok r ∧
        Honours (RouterID :: n :: rest) n r)
      ↔ isInt RouterID ∧ (∀ p ∈ rest.take (3 * n), p ≤ 32767) ∧
        2 + ((extracted rest).length : Int) ≤ INT_MAX := by
  have hint : ∀ p ∈ rest.take (3 * n), isInt p := by
    intro p hp
    have hrange := hports p hp
    refine decide_eq_true ?_
    unfold INT_MIN INT_MAX
    omega
  obtain ⟨hlen', htake⟩ := take_extracted hlen hint
  unfold configure
  cases hid : isInt RouterID with
  | false =>
    rw [extracted, List.takeWhile_cons_of_neg (by simp [hid])]
    refine iff_of_false ?_ (by simp)
    rintro ⟨r, hr, hh⟩
    exact not_honours_of_id hid hr hh
  | true =>
    by_cases hnum : isInt n
    · -- the numbers go to their places
      rw [extracted, List.takeWhile_cons_of_pos hid, List.takeWhile_cons_of_pos hnum,
        show rest.takeWhile isInt = extracted rest from rfl, read_start, ← htake]
      rw [← htake] at hports
      by_cases hmax : 2 + ((extracted rest).length : Int) ≤ INT_MAX
      · rw [if_pos hmax, and_iff_left hmax, and_iff_right rfl]
        constructor
        · rintro ⟨r, hr, hh⟩
          exact ports_le_of_honours hlen' hports hr (hh.congr htake)
        · intro hle
          obtain ⟨r, hr, hh⟩ :=
            honours_of_ports_le hlen' fun p hp => ⟨(hports p hp).1, hle p hp⟩
          exact ⟨r, hr, hh.congr htake.symm⟩
      · rw [if_neg hmax]
        refine iff_of_false ?_ fun hright => hmax hright.2.2
        rintro ⟨r, hr, -⟩
        cases hr
    · -- `n` is not delivered, nor would the counter suffice
      have hlarge : (INT_MAX : Int) < n := by
        have hno : ¬(INT_MIN ≤ (n : Int) ∧ (n : Int) ≤ INT_MAX) := fun h => hnum (decide_eq_true h)
        unfold INT_MIN at hno
        omega
      rw [extracted, List.takeWhile_cons_of_pos hid, List.takeWhile_cons_of_neg hnum]
      refine iff_of_false ?_ fun hright => ?_
      · rintro ⟨r, hr, hh⟩
        exact not_honours_of_num (by omega) rfl hr hh
      · have := hright.2.2
        omega

end Main

/-- An ID that is no `int` leaves all interfaces out. -/
example : configure 0 0 [3000000000, 1, 5000, 6000, 4000] = .ok ⟨0, [], []⟩ := rfl

/-- Router 1 with one interface, its destination the port 40000: the ports
are not set up. -/
theorem large_port_throws :
    configure 0 0 [1, 1, 5000, 6000, 40000]
        = .error (.throws "Destination address of a sending port is not set!") ∧
      ¬∃ r, configure 0 0 [1, 1, 5000, 6000, 40000] = .ok r ∧
        Honours [1, 1, 5000, 6000, 40000] 1 r := by
  have h : configure 0 0 [1, 1, 5000, 6000, 40000]
      = .error (.throws "Destination address of a sending port is not set!") := rfl
  refine ⟨h, fun hex => ?_⟩
  obtain ⟨r, hr, -⟩ := hex
  rw [h] at hr
  cases hr

/-- The same router with the destination 4000, and numbers behind the ports. -/
theorem small_ports_honoured :
    ∃ r, configure 0 0 [1, 1, 5000, 6000, 4000, 9, 9] = .ok r ∧
      Honours [1, 1, 5000, 6000, 4000, 9, 9] 1 r :=
  (@configure_honours_iff 1 1 [5000, 6000, 4000, 9, 9] 0 0 (by decide) (by decide)).mpr
    (by decide)

end ContentNetwork.Simplified
