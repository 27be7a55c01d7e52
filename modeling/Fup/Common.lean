/-
# Constants, integer types and failures

The wire constants, the fixed-width types of the fields, the keyword of a
message and the ways a call can fail. Integer conversions between the host and
the network are the ones of the socket interface, at the width of their
argument; a value of another width is converted to that width first, as the
language does implicitly.
-/

import Fup.Lib.FixedWidth
import Mathlib.Data.Int.Basic
import Mathlib.Tactic.IntervalCases

namespace Fup

/-! ### Types and sizes of the fields -/

abbrev Byte := UInt8

abbrev Version := UInt16
abbrev NameSize := UInt16
abbrev FileCountSize := UInt16
abbrev Port := UInt16

abbrev Checksum := UInt32
abbrev ConnectionId := UInt32
abbrev PacketCount := UInt32

abbrev BodySize := UInt64
abbrev MessageSize := UInt64
abbrev FileSize := UInt64
abbrev SequenceId := UInt64

/-- `FUP_PACKET_MESSAGE_SIZE`: a whole datagram, header included. -/
def packetMessageSize : ℕ := 1200

/-- `FUP_PACKET_SIZE`: the body of a datagram. -/
def packetSize : ℕ := 1185

/-- `FUP_PACKET_PAYLOAD_SIZE`: the file bytes of one packet, and the distance
between the positions of two consecutive packets. -/
def packetPayloadSize : ℕ := 1175

/-- Numbers below a packet count are sequence ids. -/
theorem toNat_ofNat_of_lt {k : ℕ} {packetCount : PacketCount} (below : k < packetCount.toNat) :
    (UInt64.ofNat k).toNat = k := by
  have limit := packetCount.toNat_lt
  exact UInt64.toNat_ofNat_of_lt' (below.trans (limit.trans (by decide)))

/-! ### Keywords -/

/-- The enumeration `Keyword` of one byte. A byte without a named enumerator is
still a value of the type. -/
inductive Keyword
  | listFiles
  | files
  | download
  | upload
  | resend
  | ack
  | abort
  | packet
  /-- A byte that names no keyword. -/
  | unnamed (value : Byte) (beyond : 7 < value.toNat)
  deriving DecidableEq

namespace Keyword

/-- The byte of a keyword. -/
def toByte : Keyword → Byte
  | listFiles => 0
  | files => 1
  | download => 2
  | upload => 3
  | resend => 4
  | ack => 5
  | abort => 6
  | packet => 7
  | unnamed value _ => value

/-- The cast `(Keyword)k`. -/
def ofByte (k : Byte) : Keyword :=
  if h : 7 < k.toNat then unnamed k h
  else match k.toNat with
    | 0 => listFiles
    | 1 => files
    | 2 => download
    | 3 => upload
    | 4 => resend
    | 5 => ack
    | 6 => abort
    | _ => packet

@[simp] theorem ofByte_toByte (keyword : Keyword) : ofByte keyword.toByte = keyword := by
  cases keyword with
  | unnamed value beyond => rw [toByte, ofByte, dif_pos beyond]
  | _ => rfl

@[simp] theorem toByte_ofByte (k : Byte) : (ofByte k).toByte = k := by
  rw [ofByte]
  split_ifs with beyond
  · rfl
  · apply UInt8.toNat_inj.mp
    have named : k.toNat ≤ 7 := Nat.le_of_not_lt beyond
    interval_cases k.toNat <;> rfl

end Keyword

/-! ### Failures -/

/-- How a call ends when it does not return. -/
inductive Failure
  /-- A C++ exception with its text. -/
  | exception (what : String)
  /-- An access outside the object it was meant for. The language promises
  nothing from here on. -/
  | outOfBounds
  /-- A use of a null pointer, with as little promised. -/
  | nullPointer
  deriving DecidableEq, Repr

/-- The call returned or threw: everything it accessed was there. -/
def Defined {α : Type*} (result : Except Failure α) : Prop :=
  match result with
  | .ok _ => True
  | .error (.exception _) => True
  | .error .outOfBounds => False
  | .error .nullPointer => False

@[simp] theorem ok_bind {α β : Type} (a : α) (f : α → Except Failure β) :
    ((Except.ok a : Except Failure α) >>= f) = f a := rfl

theorem map_eq_ok {α β : Type*} {f : α → β} {result : Except Failure α} {b : β} :
    result.map f = .ok b ↔ ∃ a, result = .ok a ∧ f a = b := by
  cases result <;> simp [Except.map]

theorem eq_error_of_map {α β : Type*} {f : α → β} {result : Except Failure α} {failure : Failure}
    (mapped : result.map f = .error failure) : result = .error failure := by
  cases result with
  | ok a => cases mapped
  | error _ => exact congrArg Except.error (Except.error.inj mapped)

theorem map_inj {α β : Type*} {f : α → β} (injective : Function.Injective f)
    {first second : Except Failure α} : first.map f = second.map f ↔ first = second := by
  constructor
  · intro same
    cases second with
    | ok b =>
      obtain ⟨a, made, equal⟩ := map_eq_ok.mp same
      rw [made, injective equal]
    | error failure => exact eq_error_of_map same
  · exact congrArg (Except.map f)

/-! ### Host integers -/

/-- The value of an `int` computation: 32 bits in two's complement. -/
def int32 (x : ℤ) : ℤ := x.bmod (2 ^ 32)

theorem int32_of_small {x : ℤ} (nonnegative : 0 ≤ x) (small : x < 2 ^ 31) : int32 x = x := by
  rw [int32, Int.bmod_eq_emod]
  split_ifs <;> omega

/-- From `2 ^ 31` on a value comes out negative. -/
theorem int32_of_large {x : ℤ} (large : 2 ^ 31 ≤ x) (below : x < 2 ^ 32) :
    int32 x = x - 2 ^ 32 := by
  rw [int32, Int.bmod_eq_emod]
  split_ifs <;> omega

theorem int32_lt (x : ℤ) : int32 x < 2 ^ 31 := by
  rw [int32, Int.bmod_eq_emod]
  split_ifs <;> omega

theorem le_int32 (x : ℤ) : -2 ^ 31 ≤ int32 x := by
  rw [int32, Int.bmod_eq_emod]
  split_ifs <;> omega

/-- Multiples of `2 ^ 32` make no difference. -/
theorem int32_add_mul (x k : ℤ) : int32 (x + 2 ^ 32 * k) = int32 x :=
  Int.add_mul_bmod_self_left x (2 ^ 32) k

theorem int32_add_int32 (x y : ℤ) : int32 (int32 x + y) = int32 (x + y) := Int.bmod_add_bmod

variable (order : ByteOrder)

/-- `htons` and `ntohs`. -/
def htons (x : UInt16) : UInt16 := UInt16.ofNat (order.network 2 x.toNat)

/-- `htonl` and `ntohl`. -/
def htonl (x : UInt32) : UInt32 := UInt32.ofNat (order.network 4 x.toNat)

/-- `htonll` and `ntohll`. -/
def htonll (x : UInt64) : UInt64 := UInt64.ofNat (order.network 8 x.toNat)

theorem toNat_htons (x : UInt16) : (htons order x).toNat = order.network 2 x.toNat :=
  UInt16.toNat_ofNat_of_lt' (order.network_lt x.toNat_lt)

theorem toNat_htonl (x : UInt32) : (htonl order x).toNat = order.network 4 x.toNat :=
  UInt32.toNat_ofNat_of_lt' (order.network_lt x.toNat_lt)

theorem toNat_htonll (x : UInt64) : (htonll order x).toNat = order.network 8 x.toNat :=
  UInt64.toNat_ofNat_of_lt' (order.network_lt x.toNat_lt)

end Fup
