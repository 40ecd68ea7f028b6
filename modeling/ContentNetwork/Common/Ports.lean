/-!
# Addresses and the set-up of ports

`Address`, and the `init` functions of `SendingPort` and `ReceivingPort` in
`common.h` / `common.cpp`. Port numbers are kept as `short`: a number above
32767 becomes negative there. The socket address still gets the right bits
from it, but `Address::isSet` takes a negative port for an address that was
never set, and `init` acts on that: it replaces an own address that is not set
by a default one, and throws for a remote address that is not set.

Creating and binding a socket succeeds here.
-/

namespace ContentNetwork

def INT_MIN : Int := -2147483648
def INT_MAX : Nat := 2147483647

/-- `class Address`, without its MAC address. -/
structure Address where
  hostname_ : String
  port_ : Int16
  deriving DecidableEq, Repr

/-- `Address()`. -/
def Address.unset : Address := ⟨"", -1⟩

/-- `Address("localhost", (short)(num))`. -/
def Address.localhost (num : Int) : Address := ⟨"localhost", Int16.ofInt num⟩

def Address.isSet (a : Address) : Bool := a.hostname_ ≠ "" ∧ 0 ≤ a.port_

/-- The port number in the `sockaddr_in` that `setSockAddress` fills:
`htons((short)port)`, read as the unsigned number that it is there. -/
def Address.sin_port (a : Address) : Int := a.port_.toInt % 65536

def DEFAULT_SEND_PORT : Int16 := 3000
def DEFAULT_RECV_PORT : Int16 := 4000

/-- `class Port`. `sockfd_` is the port number that its socket is bound to,
once it has one. -/
structure Port where
  myaddr_ : Address
  itsaddr_ : Address
  sockfd_ : Option Int
  deriving DecidableEq, Repr

/-- How a call ends that does not return: by a `throw`, by the
`std::out_of_range` of `vector::at`, or not defined at all (an element outside
a vector, an `int` that overflows). -/
inductive Failure
  | throws (text : String)
  | outOfRange
  | undefined
  deriving DecidableEq, Repr

namespace Port

def setAddress (p : Port) (addr : Address) : Port := { p with myaddr_ := addr }

def setRemoteAddress (p : Port) (daddr : Address) : Port := { p with itsaddr_ := daddr }

/-- The first test of both `init` functions. -/
def defaultAddress (p : Port) (port : Int16) : Port :=
  if p.myaddr_.isSet = false then p.setAddress ⟨"localhost", port⟩ else p

/-- `socket` and `bind`, to any address of the host and the own port. -/
def bindSocket (p : Port) : Port := { p with sockfd_ := some p.myaddr_.sin_port }

/-- The port number that packets are sent to. -/
def destination (p : Port) : Int := p.itsaddr_.sin_port

end Port

/-- `SendingPort()`. -/
def newSendingPort : Port := ⟨⟨"localhost", DEFAULT_SEND_PORT⟩, .unset, none⟩

/-- `ReceivingPort()`. -/
def newReceivingPort : Port := ⟨.unset, .unset, none⟩

/-- `SendingPort::init`. -/
def SendingPort.init (p : Port) : Except Failure Port :=
  if p.sockfd_.isSome then .ok p
  else
    let p := p.defaultAddress DEFAULT_SEND_PORT
    if p.itsaddr_.isSet = false then
      .error (.throws "Destination address of a sending port is not set!")
    else .ok p.bindSocket

/-- `ReceivingPort::init`. -/
def ReceivingPort.init (p : Port) : Except Failure Port :=
  if p.sockfd_.isSome then .ok p
  else .ok (p.defaultAddress DEFAULT_RECV_PORT).bindSocket

section Localhost

variable {a b : Int}

/-- The socket address has the number that was given. -/
theorem sin_port_localhost (h0 : 0 ≤ a) (h1 : a ≤ 65535) : (Address.localhost a).sin_port = a := by
  show (Int16.ofInt a).toInt % 65536 = a
  rw [Int16.toInt_ofInt]
  show a.bmod Int16.size % (Int16.size : Int) = a
  rw [Int.bmod_emod]
  show a % 65536 = a
  omega

/-- An address counts as set when its port is no more than 32767. -/
theorem isSet_localhost (h0 : 0 ≤ a) (h1 : a ≤ 65535) :
    (Address.localhost a).isSet = decide (a ≤ 32767) := by
  have hport : 0 ≤ Int16.ofInt a ↔ a ≤ 32767 := by
    rw [Int16.le_iff_toInt_le, Int16.toInt_ofInt]
    show 0 ≤ a.bmod 65536 ↔ _
    rw [Int.bmod_def]
    split <;> omega
  have hname : (Address.localhost a).hostname_ ≠ "" := by
    show "localhost" ≠ ""
    decide
  unfold Address.isSet
  rw [decide_eq_decide]
  exact (and_iff_right hname).trans hport

theorem itsaddr_defaultAddress (p : Port) (port : Int16) :
    (p.defaultAddress port).itsaddr_ = p.itsaddr_ := by
  unfold Port.defaultAddress
  split <;> rfl

/-- A port with the own address `a` binds to `a`, or else to the default. -/
theorem bind_defaultAddress (h0 : 0 ≤ a) (h1 : a ≤ 65535) {p : Port}
    (hp : p.myaddr_ = .localhost a) (port : Int16) :
    (p.defaultAddress port).bindSocket.sockfd_
      = some (if a ≤ 32767 then a else port.toInt % 65536) := by
  unfold Port.defaultAddress
  rw [hp, isSet_localhost h0 h1]
  by_cases ha : a ≤ 32767
  · rw [if_neg (by simpa using ha), if_pos ha]
    show some p.myaddr_.sin_port = some a
    rw [hp, sin_port_localhost h0 h1]
  · rw [if_pos (by simpa using ha), if_neg ha]
    rfl

/-- `ReceivingPort::init` does not throw. -/
theorem ReceivingPort.init_localhost (h0 : 0 ≤ a) (h1 : a ≤ 65535) :
    ∃ p, ReceivingPort.init (newReceivingPort.setAddress (.localhost a)) = .ok p ∧
      p.sockfd_ = some (if a ≤ 32767 then a else 4000) :=
  ⟨_, rfl, bind_defaultAddress h0 h1 rfl DEFAULT_RECV_PORT⟩

/-- `SendingPort::init` from `a` to `b` does not throw when `b` counts as set. -/
theorem SendingPort.init_localhost (ha0 : 0 ≤ a) (ha1 : a ≤ 65535) (hb0 : 0 ≤ b)
    (hb1 : b ≤ 32767) :
    ∃ p, SendingPort.init
        ((newSendingPort.setAddress (.localhost a)).setRemoteAddress (.localhost b)) = .ok p ∧
      p.sockfd_ = some (if a ≤ 32767 then a else 3000) ∧ p.destination = b := by
  have hset : (Address.localhost b).isSet = true := by
    rw [isSet_localhost hb0 (by omega)]
    exact decide_eq_true hb1
  let p := (newSendingPort.setAddress (.localhost a)).setRemoteAddress (.localhost b)
  have hits : (p.defaultAddress DEFAULT_SEND_PORT).itsaddr_ = .localhost b :=
    itsaddr_defaultAddress ..
  refine ⟨(p.defaultAddress DEFAULT_SEND_PORT).bindSocket, ?_,
    bind_defaultAddress ha0 ha1 rfl DEFAULT_SEND_PORT, ?_⟩
  · show (if (p.defaultAddress DEFAULT_SEND_PORT).itsaddr_.isSet = false then _ else _) = _
    rw [hits, hset, if_neg (by decide)]
  · show (p.defaultAddress DEFAULT_SEND_PORT).itsaddr_.sin_port = b
    rw [hits, sin_port_localhost hb0 (by omega)]

/-- It throws when `b` does not. -/
theorem SendingPort.init_throws (hb0 : 32767 < b) (hb1 : b ≤ 65535) :
    SendingPort.init
        ((newSendingPort.setAddress (.localhost a)).setRemoteAddress (.localhost b))
      = .error (.throws "Destination address of a sending port is not set!") := by
  have hset : (Address.localhost b).isSet = false := by
    rw [isSet_localhost (by omega) hb1]
    exact decide_eq_false (by omega)
  let p := (newSendingPort.setAddress (.localhost a)).setRemoteAddress (.localhost b)
  have hits : (p.defaultAddress DEFAULT_SEND_PORT).itsaddr_ = .localhost b :=
    itsaddr_defaultAddress ..
  show (if (p.defaultAddress DEFAULT_SEND_PORT).itsaddr_.isSet = false then _ else _) = _
  rw [hits, hset, if_pos rfl]

end Localhost

end ContentNetwork
