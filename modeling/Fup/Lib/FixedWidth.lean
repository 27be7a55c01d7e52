/-
# Integers of a fixed width in memory and on the network

An integer of `w` bytes has two byte strings, one per byte order, and a host
keeps one of them in memory. The network order is the high byte first. A host
that keeps the low byte first converts by reversing the bytes of the value; on
the other kind of host the conversion is the identity. Storing a converted
value therefore writes the same bytes on both.

The cancellation needs one width. When a value is converted at width `w` and
then stored at a larger width, the two hosts put the padding on opposite sides.
-/

import Mathlib.Algebra.Order.Group.Nat
import Mathlib.Data.List.Basic
import Mathlib.Tactic.Ring

/-- Which byte of an integer a host keeps at the lowest address. -/
inductive ByteOrder
  /-- The least significant one. -/
  | little
  /-- The most significant one. -/
  | big
  deriving DecidableEq, Repr

namespace FixedWidth

/-! ### Byte strings of a number -/

/-- The `w` low bytes of a number, the lowest first. -/
def lowFirst : ℕ → ℕ → List UInt8
  | 0, _ => []
  | w + 1, n => UInt8.ofNat n :: lowFirst w (n / 256)

/-- The number whose bytes are given, the lowest first. -/
def ofLowFirst : List UInt8 → ℕ
  | [] => 0
  | byte :: rest => byte.toNat + 256 * ofLowFirst rest

/-- The `w` low bytes of a number, the highest first. -/
def highFirst (w n : ℕ) : List UInt8 := (lowFirst w n).reverse

/-- The number whose bytes are given, the highest first. -/
def ofHighFirst (bytes : List UInt8) : ℕ := ofLowFirst bytes.reverse

@[simp] theorem length_lowFirst (w n : ℕ) : (lowFirst w n).length = w := by
  induction w generalizing n with
  | zero => rfl
  | succ w ih => rw [lowFirst, List.length_cons, ih]

@[simp] theorem length_highFirst (w n : ℕ) : (highFirst w n).length = w := by
  rw [highFirst, List.length_reverse, length_lowFirst]

/-- Reading back gives the number modulo the width. -/
theorem ofLowFirst_lowFirst (w n : ℕ) : ofLowFirst (lowFirst w n) = n % 256 ^ w := by
  induction w generalizing n with
  | zero => simp [lowFirst, ofLowFirst, Nat.mod_one]
  | succ w ih =>
    have lowest : (UInt8.ofNat n).toNat = n % 256 := by simp
    rw [lowFirst, ofLowFirst, ih, lowest, pow_succ' 256 w, Nat.mod_mul]

theorem ofHighFirst_highFirst (w n : ℕ) : ofHighFirst (highFirst w n) = n % 256 ^ w := by
  rw [ofHighFirst, highFirst, List.reverse_reverse, ofLowFirst_lowFirst]

/-- A byte string is determined by its length and its number. -/
theorem lowFirst_ofLowFirst (bytes : List UInt8) :
    lowFirst bytes.length (ofLowFirst bytes) = bytes := by
  induction bytes with
  | nil => rfl
  | cons byte rest ih =>
    have below : byte.toNat < 256 := byte.toNat_lt
    have quotient : (byte.toNat + 256 * ofLowFirst rest) / 256 = ofLowFirst rest := by omega
    have remainder : UInt8.ofNat (byte.toNat + 256 * ofLowFirst rest) = byte := by
      apply UInt8.toNat_inj.mp
      rw [UInt8.toNat_ofNat']
      omega
    rw [List.length_cons, ofLowFirst, lowFirst, quotient, remainder, ih]

theorem ofLowFirst_lt (bytes : List UInt8) : ofLowFirst bytes < 256 ^ bytes.length := by
  induction bytes with
  | nil => exact Nat.one_pos
  | cons byte rest ih =>
    have below : byte.toNat < 256 := byte.toNat_lt
    rw [ofLowFirst, List.length_cons, pow_succ']
    omega

theorem highFirst_ofHighFirst (bytes : List UInt8) :
    highFirst bytes.length (ofHighFirst bytes) = bytes := by
  rw [highFirst, ofHighFirst, ← List.length_reverse, lowFirst_ofLowFirst, List.reverse_reverse]

theorem ofHighFirst_lt (bytes : List UInt8) : ofHighFirst bytes < 256 ^ bytes.length := by
  have below := ofLowFirst_lt bytes.reverse
  rwa [List.length_reverse] at below

theorem lowFirst_zero (w : ℕ) : lowFirst w 0 = List.replicate w 0 := by
  induction w with
  | zero => rfl
  | succ w ih => rw [lowFirst, Nat.zero_div, ih, List.replicate_succ]; rfl

/-- A number that needs fewer bytes is padded on the high side. -/
theorem lowFirst_add {w n : ℕ} (fits : n < 256 ^ w) (k : ℕ) :
    lowFirst (w + k) n = lowFirst w n ++ List.replicate k 0 := by
  induction w generalizing n with
  | zero =>
    obtain rfl : n = 0 := by simpa using fits
    rw [Nat.zero_add, lowFirst_zero, lowFirst, List.nil_append]
  | succ w ih =>
    have smaller : n / 256 < 256 ^ w := by
      rw [pow_succ] at fits
      exact Nat.div_lt_of_lt_mul (by rwa [Nat.mul_comm])
    rw [Nat.add_right_comm, lowFirst, ih smaller, lowFirst, List.cons_append]

theorem highFirst_add {w n : ℕ} (fits : n < 256 ^ w) (k : ℕ) :
    highFirst (w + k) n = List.replicate k 0 ++ highFirst w n := by
  rw [highFirst, lowFirst_add fits, List.reverse_append, List.reverse_replicate, highFirst]

theorem highFirst_eq_zeros_iff {w n : ℕ} (fits : n < 256 ^ w) :
    highFirst w n = List.replicate w 0 ↔ n = 0 := by
  constructor
  · intro zeros
    -- A string of zeros has the value of zero.
    have value := ofHighFirst_highFirst w n
    rw [zeros, ← List.reverse_replicate, ← lowFirst_zero w] at value
    change ofHighFirst (highFirst w 0) = n % 256 ^ w at value
    rw [ofHighFirst_highFirst, Nat.zero_mod, Nat.mod_eq_of_lt fits] at value
    exact value.symm
  · rintro rfl
    rw [highFirst, lowFirst_zero, List.reverse_replicate]

/-- Padding on the high side and padding on the low side differ unless the
number is zero. -/
theorem pad_comm_iff {w n : ℕ} (fits : n < 256 ^ w) :
    highFirst w n ++ List.replicate w 0 = List.replicate w 0 ++ highFirst w n ↔ n = 0 := by
  rw [← highFirst_eq_zeros_iff fits]
  constructor
  · intro same
    exact (List.append_inj same (by simp)).1
  · intro zeros
    rw [zeros]

theorem ofLowFirst_append (low high : List UInt8) :
    ofLowFirst (low ++ high) = ofLowFirst low + 256 ^ low.length * ofLowFirst high := by
  induction low with
  | nil => simp [ofLowFirst]
  | cons byte rest ih =>
    rw [List.cons_append, ofLowFirst, ofLowFirst, ih, List.length_cons, pow_succ]
    ring

/-- Dropping high bytes of the number keeps the low part of the string. -/
theorem ofLowFirst_mod (bytes : List UInt8) {w : ℕ} (within : w ≤ bytes.length) :
    ofLowFirst bytes % 256 ^ w = ofLowFirst (bytes.take w) := by
  have size : (bytes.take w).length = w := List.length_take_of_le within
  have below := ofLowFirst_lt (bytes.take w)
  have split := ofLowFirst_append (bytes.take w) (bytes.drop w)
  rw [List.take_append_drop, size] at split
  rw [size] at below
  rw [split, Nat.add_mul_mod_self_left, Nat.mod_eq_of_lt below]

end FixedWidth

namespace ByteOrder

open FixedWidth

/-! ### A host's memory and the network order -/

/-- The bytes of an object of `w` bytes that holds `n`, lowest address first. -/
def store (order : ByteOrder) (w n : ℕ) : List UInt8 :=
  match order with
  | little => lowFirst w n
  | big => highFirst w n

/-- The number held by an object with these bytes. -/
def load (order : ByteOrder) (bytes : List UInt8) : ℕ :=
  match order with
  | little => ofLowFirst bytes
  | big => ofHighFirst bytes

/-- Conversion between host and network order at a width of `w` bytes, in
either direction: it reverses the bytes on a low-byte-first host and does
nothing on the other. -/
def network (order : ByteOrder) (w n : ℕ) : ℕ :=
  match order with
  | little => ofHighFirst (lowFirst w n)
  | big => n

variable (order : ByteOrder)

@[simp] theorem length_store (w n : ℕ) : (order.store w n).length = w := by
  cases order <;> simp [store]

theorem load_lt (bytes : List UInt8) : order.load bytes < 256 ^ bytes.length := by
  cases order with
  | little => exact ofLowFirst_lt bytes
  | big => exact ofHighFirst_lt bytes

theorem network_lt {w n : ℕ} (fits : n < 256 ^ w) : order.network w n < 256 ^ w := by
  cases order with
  | little => simpa only [network, length_lowFirst] using ofHighFirst_lt (lowFirst w n)
  | big => exact fits

private theorem lowFirst_network_little {w n : ℕ} :
    lowFirst w (network little w n) = highFirst w n := by
  have same := lowFirst_ofLowFirst (lowFirst w n).reverse
  rwa [List.length_reverse, length_lowFirst] at same

/-- A converted value stored at its own width is the network string, whatever
the host. -/
theorem store_network (w n : ℕ) : order.store w (order.network w n) = highFirst w n := by
  cases order with
  | little => exact lowFirst_network_little
  | big => rfl

/-- Loading a whole field and converting it reads the network string. -/
theorem network_load (bytes : List UInt8) :
    order.network bytes.length (order.load bytes) = ofHighFirst bytes := by
  cases order with
  | little => rw [network, load, lowFirst_ofLowFirst]
  | big => rfl

/-- Where a host puts the padding of a value converted at width `w` and stored
with `k` bytes more. -/
theorem store_network_wide {w n : ℕ} (fits : n < 256 ^ w) (k : ℕ) :
    order.store (w + k) (order.network w n) =
      match order with
      | little => highFirst w n ++ List.replicate k 0
      | big => List.replicate k 0 ++ highFirst w n := by
  cases order with
  | little =>
    rw [store, lowFirst_add (little.network_lt fits), lowFirst_network_little]
  | big => exact highFirst_add fits k

/-- Which bytes of a field of `w + k` bytes a conversion at width `w` reads. -/
theorem network_load_wide {w k : ℕ} (bytes : List UInt8) (size : bytes.length = w + k) :
    order.network w (order.load bytes % 256 ^ w) =
      match order with
      | little => ofHighFirst (bytes.take w)
      | big => ofHighFirst (bytes.drop k) := by
  cases order with
  | little =>
    have width : (bytes.take w).length = w := List.length_take_of_le (by omega)
    have whole := little.network_load (bytes.take w)
    rw [width] at whole
    rw [load, ofLowFirst_mod bytes (by omega)]
    exact whole
  | big =>
    -- The low bytes of the number are the last ones of the string.
    have reversed : bytes.reverse.take w = (bytes.drop k).reverse := by
      rw [List.take_reverse, show bytes.length - w = k by omega]
    rw [network, load, ofHighFirst,
      ofLowFirst_mod bytes.reverse (by rw [List.length_reverse]; omega), reversed]
    rfl

end ByteOrder
