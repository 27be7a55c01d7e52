/-
# Socket addresses

`SockAddr` owns a copy of the bytes of a socket address. Its readers check that
an address is there and that it is as long as the structure of its family.

Families, offsets and sizes are those of the socket interface of Linux, where
the family is the first field, in host order, and the port the second, in
network order, in either structure. `inet_ntop` is a parameter: what it writes,
which fits the room that the interface reserves for it.
-/

import Fup.Message.RoundTrip

namespace Fup

/-! ### Families -/

/-- The families whose addresses the readers know. -/
inductive Family
  | inet
  | inet6
  deriving DecidableEq

/-- `sizeof(sa_family_t)`. -/
def saFamilySize : ℕ := 2

namespace Family

/-- `AF_INET` and `AF_INET6`, as comparing with them finds them. -/
def ofCode (code : UInt16) : Option Family :=
  if code = 2 then some inet else if code = 10 then some inet6 else none

/-- `sizeof(struct sockaddr_in)` and `sizeof(struct sockaddr_in6)`. -/
def size : Family → ℕ
  | inet => 16
  | inet6 => 28

/-- Where `sin_addr` and `sin6_addr` start. -/
def addrOffset : Family → ℕ
  | inet => 4
  | inet6 => 8

def addrSize : Family → ℕ
  | inet => 4
  | inet6 => 16

/-- `INET_ADDRSTRLEN` and `INET6_ADDRSTRLEN`. -/
def strLen : Family → ℕ
  | inet => 16
  | inet6 => 46

/-- What the exceptions call the family. -/
def name : Family → String
  | inet => "IPv4"
  | inet6 => "IPv6"

/-- The address lies inside the structure, behind the port. -/
theorem addrEnd_le_size (family : Family) : family.addrOffset + family.addrSize ≤ family.size := by
  cases family <;> decide

theorem four_le_addrOffset (family : Family) : 4 ≤ family.addrOffset := by
  cases family <;> decide

theorem strLen_le_inet6 (family : Family) : family.strLen ≤ inet6.strLen := by
  cases family <;> decide

/-- A structure is longer than a pointer. -/
theorem eight_lt_size (family : Family) : 8 < family.size := by
  cases family <;> decide

end Family

/-- `inet_ntop`: the text of an address, which fits the room of its family with
the terminating zero. -/
structure InetNtop where
  text : Family → List Byte → List Byte
  fits : ∀ family address, address.length = family.addrSize →
    (text family address).length < family.strLen

/-- The call with a buffer of some size, which returns `nullptr` when the text
does not fit. -/
def InetNtop.convert (inetNtop : InetNtop) (family : Family) (address : List Byte) (size : ℕ) :
    Option (List Byte) :=
  let text := inetNtop.text family address
  if text.length < size then some text else none

theorem InetNtop.convert_eq (inetNtop : InetNtop) {family : Family} {address : List Byte}
    (whole : address.length = family.addrSize) {size : ℕ} (room : family.strLen ≤ size) :
    inetNtop.convert family address size = some (inetNtop.text family address) :=
  if_pos ((inetNtop.fits family address whole).trans_le room)

/-- The decimal digits of a byte. -/
def decimal (b : Byte) : List Byte :=
  (if 100 ≤ b.toNat then [48 + b / 100] else []) ++
    (if 10 ≤ b.toNat then [48 + b / 10 % 10] else []) ++ [48 + b % 10]

theorem length_decimal_le (b : Byte) : (decimal b).length ≤ 3 := by
  rw [decimal]
  split_ifs <;> simp

/-- Numbers with dots between them, as IPv4 addresses are written. Of the IPv6
addresses only the one of zeros is written right. -/
def InetNtop.dotted : InetNtop where
  text family address :=
    match family with
    | .inet => List.intercalate [46] (address.map decimal)
    | .inet6 => [58, 58]
  fits := by
    intro family address whole
    cases family with
    | inet6 =>
      change 2 < 46
      decide
    | inet =>
      obtain ⟨a, b, c, d, rfl⟩ := List.length_eq_four.mp whole
      have first := length_decimal_le a
      have second := length_decimal_le b
      have third := length_decimal_le c
      have fourth := length_decimal_le d
      simp only [List.map_cons, List.map_nil, List.intercalate, List.intersperse, List.flatten_cons,
        List.flatten_nil, List.length_append, List.length_singleton, List.length_nil, Family.strLen]
      omega

/-! ### Addresses -/

/-- The bytes of an address and their number: no bytes at all, or some. -/
structure SockAddr where
  addrBuf : Option (List Byte)
  addrLen : UInt32
  counted : (addrBuf.getD []).length = addrLen.toNat
  nonempty : addrBuf ≠ some []
  deriving DecidableEq

namespace SockAddr

/-- `SockAddr()`. -/
def empty : SockAddr := ⟨none, 0, rfl, nofun⟩

/-- `SetAddr` on a new object, with the bytes behind the pointer. -/
def setAddr (addr : Option (List Byte)) (addrlen : UInt32) : Except Failure SockAddr :=
  match addr with
  | none => .ok empty
  | some source =>
    if positive : 0 < addrlen.toNat then
      if inside : addrlen.toNat ≤ source.length then
        .ok ⟨source.take addrlen.toNat, addrlen, List.length_take_of_le inside, fun empty => by
          have length := List.length_take_of_le inside
          rw [Option.some.inj empty, List.length_nil] at length
          omega⟩
      else .error .outOfBounds
    else .ok empty

/-- The copy constructor. -/
def copy (other : SockAddr) : Except Failure SockAddr := setAddr other.addrBuf other.addrLen

/-- A copy is what it was made from. -/
theorem copy_eq (other : SockAddr) : other.copy = .ok other := by
  obtain ⟨addrBuf, addrLen, counted, nonempty⟩ := other
  cases addrBuf with
  | none =>
    have zero : addrLen = 0 := UInt32.toNat_inj.mp counted.symm
    subst zero
    rfl
  | some data =>
    have length : data.length = addrLen.toNat := counted
    have positive : 0 < addrLen.toNat := by
      rw [← length]
      exact List.length_pos_iff.mpr fun empty => nonempty (empty ▸ rfl)
    simp only [copy, setAddr, dif_pos positive, dif_pos length.ge]
    congr 3
    exact List.take_of_length_le length.le

section Read

variable (order : ByteOrder)

/-- The field `sa_family`. -/
def readFamily (data : List Byte) : Except Failure UInt16 := do
  let bytes ← readBytes data 0 saFamilySize
  return UInt16.ofNat (order.load bytes)

/-- The field `sin_port` or `sin6_port`. -/
def readPort (data : List Byte) : Except Failure Port := readNtohs order data 2

/-- The field `sin_addr` or `sin6_addr`, as text in a buffer of some size. -/
def readIp (inetNtop : InetNtop) (family : Family) (data : List Byte) (size : ℕ) :
    Except Failure (Option (List Byte)) := do
  let address ← readBytes data family.addrOffset family.addrSize
  return inetNtop.convert family address size

/-- The checks of `GetPort` and `GetIpAddress`, in front of what they read. -/
def checked {α : Type} (what : String) (a : SockAddr)
    (read : Family → List Byte → Except Failure α) : Except Failure α :=
  match a.addrBuf with
  | none => .error (.exception (what ++ ": address is not set"))
  | some data =>
    if a.addrLen.toNat < saFamilySize then
      .error (.exception (what ++ ": address is not set"))
    else do
      let code ← readFamily order data
      match Family.ofCode code with
      | some family =>
        if a.addrLen.toNat < family.size then
          .error (.exception (what ++
            ": address does not contain enough data for corresponding family: " ++ family.name))
        else read family data
      | none => .error (.exception (what ++ ": address is not an IPv4 or IPv6 type"))

def getPort (a : SockAddr) : Except Failure Port :=
  checked order "SockAddr::GetPort" a fun _ data => readPort order data

/-- A text that does not fit is `ENOSPC`. -/
def getIpAddress (inetNtop : InetNtop) (a : SockAddr) : Except Failure (List Byte) :=
  checked order "SockAddr::GetIpAddress" a fun family data => do
    match ← readIp inetNtop family data family.strLen with
    | some text => return text
    | none => .error (.exception ("SockAddr::GetIpAddress: Failed to convert " ++ family.name ++
        " address to string: No space left on device"))

/-! ### What is read -/

/-- The first two bytes as a family. -/
def familyOf (data : List Byte) : Option Family :=
  Family.ofCode (UInt16.ofNat (order.load (data.take saFamilySize)))

/-- The family of an address, when it has one that the readers know. -/
def family (a : SockAddr) : Option Family := familyOf order (a.addrBuf.getD [])

/-- The family is that of the first two bytes. -/
theorem familyOf_congr {data other : List Byte}
    (same : data.take saFamilySize = other.take saFamilySize) :
    familyOf order data = familyOf order other := by
  rw [familyOf, familyOf, same]

theorem readFamily_eq {data : List Byte} (enough : saFamilySize ≤ data.length) :
    readFamily order data = .ok (UInt16.ofNat (order.load (data.take saFamilySize))) := by
  rw [readFamily, readBytes_eq ((Nat.zero_add _).trans_le enough), ok_bind, List.drop_zero]
  rfl

/-- `SetAddr` copies the bytes it is told to. -/
theorem setAddr_eq {source : List Byte} {addrlen : UInt32} (positive : 0 < addrlen.toNat)
    (inside : addrlen.toNat ≤ source.length) :
    ∃ a, setAddr (.some source) addrlen = .ok a ∧ a.addrLen = addrlen ∧
      a.addrBuf = .some (source.take addrlen.toNat) := by
  rw [setAddr, dif_pos positive, dif_pos inside]
  exact ⟨_, rfl, rfl, rfl⟩

theorem readFamily_eq_outOfBounds {data : List Byte} (short : data.length < saFamilySize) :
    readFamily order data = .error .outOfBounds := by
  rw [readFamily, readBytes, Buffer.slice?_eq_none _ (by omega)]
  rfl

/-- Behind the checks of a length of two, the branches are those of the family. -/
theorem checked_eq {α : Type} {what : String} {a : SockAddr} {data : List Byte}
    {read : Family → List Byte → Except Failure α} (there : a.addrBuf = some data)
    (counted : data.length = a.addrLen.toNat) (enough : saFamilySize ≤ data.length) :
    checked order what a read =
      match familyOf order data with
      | some family =>
        if data.length < family.size then
          .error (.exception (what ++
            ": address does not contain enough data for corresponding family: " ++ family.name))
        else read family data
      | none => .error (.exception (what ++ ": address is not an IPv4 or IPv6 type")) := by
  rw [checked, there]
  dsimp only
  rw [← counted, if_neg (Nat.not_lt.mpr enough), readFamily_eq order enough, ok_bind]
  rfl

theorem readPort_eq {data : List Byte} (enough : 4 ≤ data.length) :
    readPort order data = .ok (field16 data 2) :=
  readNtohs_eq order (by decide) enough

section GetPort

variable {a : SockAddr} {data : List Byte} {family : Family} (there : a.addrBuf = some data)
  (counted : data.length = a.addrLen.toNat) (known : familyOf order data = some family)
include there counted known

/-- `GetPort` on an address that is as long as its family says. -/
theorem getPort_of_whole (whole : family.size ≤ data.length) :
    a.getPort order = .ok (field16 data 2) := by
  have four : 4 ≤ data.length := (by decide : 4 ≤ 8).trans (family.eight_lt_size.le.trans whole)
  rw [getPort, checked_eq order there counted ((by decide : saFamilySize ≤ 4).trans four), known]
  dsimp only
  rw [if_neg (Nat.not_lt.mpr whole), readPort_eq order four]

/-- `GetPort` on one that is cut behind its family. -/
theorem getPort_of_truncated (enough : saFamilySize ≤ data.length)
    (truncated : data.length < family.size) :
    ∃ what, a.getPort order = .error (.exception what) := by
  rw [getPort, checked_eq order there counted enough, known]
  dsimp only
  rw [if_pos truncated]
  exact ⟨_, rfl⟩

end GetPort

theorem readIp_eq (inetNtop : InetNtop) {family : Family} {data : List Byte}
    (inside : family.addrOffset + family.addrSize ≤ data.length) {size : ℕ}
    (room : family.strLen ≤ size) :
    readIp inetNtop family data size =
      .ok (some (inetNtop.text family ((data.drop family.addrOffset).take family.addrSize))) := by
  rw [readIp, readBytes_eq inside, ok_bind, inetNtop.convert_eq (length_field inside) room]
  rfl

end Read

end SockAddr

end Fup
