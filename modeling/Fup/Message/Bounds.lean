/-
# Which decoders stay inside their data

All decoders but one check every size they copy. The FILES decoder sums the
name lengths and the offset in an `int` and compares that sum. A sum of
`2 ^ 31` or more comes out negative and passes, and the offset of the copies
wraps in the same way. The decoder leaves its data exactly when that happens.
-/

import Fup.Message.Wire
import Mathlib.Algebra.Order.BigOperators.Group.List

namespace Fup

theorem defined_map {α β : Type*} (f : α → β) (result : Except Failure α) :
    Defined (result.map f) ↔ Defined result := by
  cases result with
  | ok _ => exact Iff.rfl
  | error failure => cases failure <;> exact Iff.rfl

namespace Files

/-! ### What the data declares -/

section Declared

variable (data : List Byte)

/-- The declared number of names. -/
def count : ℕ := (field16 data 0).toNat

/-- Consecutive declared lengths, from the length at index `k` on. -/
def sizesFrom (k n : ℕ) : List NameSize :=
  (List.range' k n).map fun i => field16 data (2 + 2 * i)

/-- The declared name lengths. -/
def sizes : List NameSize := sizesFrom data 0 (count data)

/-- The sum of some lengths, in exact arithmetic. -/
def total (nameSizes : List NameSize) : ℕ := (nameSizes.map UInt16.toNat).sum

/-- The offset behind the last declared name. -/
def namesEnd : ℕ := 2 + 2 * count data + total (sizes data)

/-- The offset of the last declared name. -/
def lastNameStart : ℕ := 2 + 2 * count data + total (sizes data).dropLast

/-- The `int` comparison accepts data it should not: the size table is there,
the wrapped sum is no more than the wrapped size, and yet the names end behind
the data or the last of them starts at an offset that wraps. -/
def CheckWraps : Prop :=
  2 + 2 * count data ≤ data.length ∧ int32 (namesEnd data) ≤ int32 data.length ∧
    (data.length < namesEnd data ∨ 2 ^ 31 ≤ lastNameStart data)

end Declared

@[simp] theorem total_nil : total [] = 0 := rfl

@[simp] theorem total_cons (s : NameSize) (nameSizes : List NameSize) :
    total (s :: nameSizes) = s.toNat + total nameSizes := by
  rw [total, List.map_cons, List.sum_cons, total]

theorem total_replicate (n : ℕ) (s : NameSize) :
    total (List.replicate n s) = n * s.toNat := by
  induction n with
  | zero => rw [List.replicate_zero, total_nil, Nat.zero_mul]
  | succ n ih => rw [List.replicate_succ, total_cons, ih, Nat.succ_mul, Nat.add_comm]

theorem total_le (nameSizes : List NameSize) : total nameSizes ≤ nameSizes.length * 65535 := by
  induction nameSizes with
  | nil => exact le_rfl
  | cons s nameSizes ih =>
    have below := s.toNat_lt
    rw [total_cons, List.length_cons]
    omega

@[simp] theorem length_sizes (data : List Byte) : (sizes data).length = count data := by
  simp [sizes, sizesFrom]

theorem count_lt (data : List Byte) : count data < 65536 := (field16 data 0).toNat_lt

/-- The exact end of the names passes `2 ^ 32` by one at most. -/
theorem namesEnd_lt (data : List Byte) : namesEnd data < 2 ^ 32 + 2 := by
  have bound := total_le (sizes data)
  have few := count_lt data
  rw [length_sizes] at bound
  rw [namesEnd]
  omega

theorem lastNameStart_le_namesEnd (data : List Byte) : lastNameStart data ≤ namesEnd data := by
  have front := (List.dropLast_sublist (sizes data)).map UInt16.toNat
  exact Nat.add_le_add_left (List.Sublist.sum_le_sum front (fun _ _ => Nat.zero_le _)) _

/-! ### The loop over the lengths -/

/-- The first loop reads the declared lengths and keeps the wrapped sum. -/
theorem readSizes_eq (order : ByteOrder) (data : List Byte) (n k : ℕ) (summed : ℤ)
    (table : 2 + 2 * (k + n) ≤ data.length) (few : k + n ≤ 65535) :
    readSizes order data n (int32 summed) (2 + 2 * k : ℕ) =
      .ok (sizesFrom data k n, int32 (summed + total (sizesFrom data k n)),
        (2 + 2 * (k + n) : ℕ)) := by
  induction n generalizing k summed with
  | zero => simp [readSizes, sizesFrom]
  | succ n ih =>
    have start : ((2 + 2 * k : ℕ) : ℤ).toNat = 2 + 2 * k := Int.toNat_natCast _
    have next : int32 (((2 + 2 * k : ℕ) : ℤ) + 2) = ((2 + 2 * (k + 1) : ℕ) : ℤ) := by
      -- Inside the data the offset stays far below the wrap.
      rw [int32_of_small (by omega) (by omega)]
      push_cast
      ring
    have here : readNtohs order data (2 + 2 * k : ℕ) =
        .ok (field16 data ((2 + 2 * k : ℕ) : ℤ).toNat) :=
      readNtohs_eq order (Int.natCast_nonneg (2 + 2 * k)) (by omega)
    have rest := ih (k + 1) (summed + (field16 data (2 + 2 * k)).toNat) (by omega) (by omega)
    rw [readSizes, here, ok_bind, start, int32_add_int32, next, rest, ok_bind]
    have unrolled : sizesFrom data k (n + 1) =
        field16 data (2 + 2 * k) :: sizesFrom data (k + 1) n := by
      rw [sizesFrom, List.range'_succ, List.map_cons, sizesFrom]
    have added (s t : ℕ) : summed + ((s + t : ℕ) : ℤ) = summed + s + t := by push_cast; ring
    rw [unrolled, total_cons, added, show k + 1 + n = k + (n + 1) by ring]
    rfl

/-! ### The loop over the names -/

/-- Every name starts at an offset that does not wrap and ends inside the data. -/
def Fits (data : List Byte) : ℕ → List NameSize → Prop
  | _, [] => True
  | offset, s :: nameSizes =>
    offset < 2 ^ 31 ∧ offset + s.toNat ≤ data.length ∧ Fits data (offset + s.toNat) nameSizes

/-- The second loop returns or leaves the data. -/
theorem readNames_defined_iff (data : List Byte) (nameSizes : List NameSize) {offset : ℕ}
    (below : offset < 2 ^ 32) :
    Defined (readNames data nameSizes (int32 offset)) ↔ Fits data offset nameSizes := by
  induction nameSizes generalizing offset with
  | nil => exact Iff.rfl
  | cons s nameSizes ih =>
    rw [readNames, Fits]
    -- An offset from here on is a negative `int`, and the copy starts in front of the data.
    by_cases small : offset < 2 ^ 31
    · rw [int32_of_small (Int.natCast_nonneg offset) (by omega)]
      by_cases inside : offset + s.toNat ≤ data.length
      · have short := s.toNat_lt
        rw [readBytesAt_eq (Int.natCast_nonneg offset) (by simpa using inside), ok_bind]
        have later := ih (show offset + s.toNat < 2 ^ 32 by omega)
        push_cast at later
        cases result : readNames data nameSizes (int32 (offset + s.toNat)) with
        | ok names =>
          rw [result] at later
          exact ⟨fun _ => ⟨small, inside, later.mp trivial⟩, fun _ => trivial⟩
        | error failure =>
          rw [result] at later
          exact ⟨fun defined => ⟨small, inside, later.mp defined⟩, fun fits => later.mpr fits.2.2⟩
      · rw [readBytesAt_eq_outOfBounds (Or.inr (by simpa using inside))]
        exact ⟨False.elim, fun fits => absurd fits.2.1 inside⟩
    · rw [int32_of_large (by omega) (by omega), readBytesAt_eq_outOfBounds (Or.inl (by omega))]
      exact ⟨False.elim, fun fits => absurd fits.1 small⟩

/-- Only the last name matters: it ends last and starts last. -/
theorem fits_iff (data : List Byte) (nameSizes : List NameSize) (offset : ℕ) :
    Fits data offset nameSizes ↔
      nameSizes = [] ∨ offset + total nameSizes ≤ data.length ∧
        offset + total nameSizes.dropLast < 2 ^ 31 := by
  induction nameSizes generalizing offset with
  | nil => simp [Fits]
  | cons s nameSizes ih =>
    rw [Fits, ih]
    cases nameSizes with
    | nil => simp [and_comm]
    | cons t rest =>
      simp only [List.dropLast_cons_cons, total_cons, reduceCtorEq, false_or]
      omega

/-! ### The decoder -/

/-- The decoder after its first loop: two checks, and the loop over the names. -/
theorem ofData_eq (order : ByteOrder) (data : List Byte) :
    ofData order data =
      if data.length < 2 + 2 * count data then
        .error (.exception "fup::Files: Insufficient data")
      else if int32 (namesEnd data) > int32 data.length then
        .error (.exception "fup::Files: Insufficient data")
      else (readNames data (sizes data) (2 + 2 * count data : ℕ)).map
        fun filenames => ⟨field16 data 0, sizes data, filenames⟩ := by
  rw [ofData]
  by_cases short : data.length < 2
  · rw [if_pos short, if_pos (by omega)]
  have here : readNtohs order data 0 = .ok (field16 data 0) :=
    readNtohs_eq order (by decide) (by simp; omega)
  rw [if_neg short, here, ok_bind, ← count]
  by_cases table : data.length < 2 + 2 * count data
  · rw [if_pos (by omega), if_pos table]
  -- The table is inside the data, and the first loop returns.
  have few := count_lt data
  have loop := readSizes_eq order data (count data) 0 0 (by omega) (by omega)
  rw [int32_of_small (by decide) (by decide), zero_add, zero_add, ← sizes] at loop
  have summed : int32 (int32 (total (sizes data)) + (2 + 2 * count data : ℕ)) =
      int32 (namesEnd data) := by
    rw [int32_add_int32, namesEnd]
    push_cast
    ring_nf
  rw [if_neg (by omega), if_neg table]
  change (readSizes order data (count data) 0 (2 + 2 * 0 : ℕ) >>= _) = _
  rw [loop, ok_bind, summed]
  cases readNames data (sizes data) (2 + 2 * count data : ℕ) <;> rfl

/-- The second loop behind the table, by the declared end of the names. -/
theorem readNames_sizes_defined_iff (data : List Byte) :
    Defined (readNames data (sizes data) (2 + 2 * count data : ℕ)) ↔
      sizes data = [] ∨ namesEnd data ≤ data.length ∧ lastNameStart data < 2 ^ 31 := by
  have few := count_lt data
  have names := readNames_defined_iff data (sizes data)
    (show 2 + 2 * count data < 2 ^ 32 by omega)
  rwa [int32_of_small (by omega) (by omega), fits_iff] at names

/-- The decoder returns or throws unless its comparison wraps. -/
theorem ofData_defined_iff (order : ByteOrder) (data : List Byte) :
    Defined (ofData order data) ↔ ¬ CheckWraps data := by
  rw [ofData_eq, CheckWraps]
  by_cases table : data.length < 2 + 2 * count data
  · rw [if_pos table]
    exact iff_of_true trivial fun wraps => Nat.not_le_of_lt table wraps.1
  rw [if_neg table]
  -- The comparison of the wrapped sum with the wrapped length.
  by_cases rejected : int32 (namesEnd data) > int32 data.length
  · rw [if_pos rejected]
    exact iff_of_true trivial fun wraps => not_le.mpr rejected wraps.2.1
  -- What passes it is read by the second loop, which has no check of its own.
  rw [if_neg rejected, defined_map, readNames_sizes_defined_iff]
  have accepted : int32 (namesEnd data) ≤ int32 data.length := not_lt.mp rejected
  rcases List.eq_nil_or_concat (sizes data) with empty | ⟨front, last, nonempty⟩
  · have length := length_sizes data
    rw [empty, List.length_nil] at length
    rw [namesEnd, lastNameStart, empty, total_nil, List.dropLast_nil, total_nil]
    simp only [true_or, true_iff]
    omega
  · have listed : sizes data ≠ [] := by simp [nonempty]
    simp only [listed, false_or, accepted, true_and]
    omega

/-- For data of less than `2 ^ 31` bytes the comparison wraps when the names end
at `2 ^ 31` or behind. -/
theorem checkWraps_iff_of_short {data : List Byte} (short : data.length < 2 ^ 31) :
    CheckWraps data ↔ 2 + 2 * count data ≤ data.length ∧ 2 ^ 31 ≤ namesEnd data := by
  have size : int32 data.length = data.length := int32_of_small (by omega) (by omega)
  have bound := namesEnd_lt data
  have last := lastNameStart_le_namesEnd data
  rw [CheckWraps, size]
  refine and_congr_right fun table => ?_
  by_cases small : namesEnd data < 2 ^ 31
  · rw [int32_of_small (by omega) (by omega)]
    omega
  -- The sum wraps once or comes back to a small positive number.
  · by_cases once : namesEnd data < 2 ^ 32
    · rw [int32_of_large (by omega) (by omega)]
      omega
    · have wrapped : int32 (namesEnd data) = namesEnd data - 2 ^ 32 := by
        rw [int32, ← Int.sub_bmod_right]
        exact int32_of_small (by omega) (by omega)
      rw [wrapped]
      omega

end Files

/-! ### All decoders -/

theorem Download.ofData_defined (order : ByteOrder) (data : List Byte) :
    Defined (Download.ofData order data) := by
  rw [Download.ofData_eq]
  split_ifs <;> trivial

theorem Upload.ofData_defined (order : ByteOrder) (data : List Byte) :
    Defined (Upload.ofData order data) := by
  rw [Upload.ofData_eq]
  split_ifs <;> trivial

theorem Resend.ofData_defined (order : ByteOrder) (data : List Byte) :
    Defined (Resend.ofData order data) := by
  rw [Resend.ofData_eq]
  split_ifs <;> trivial

theorem Packet.ofData_defined (order : ByteOrder) (data : List Byte) :
    Defined (Packet.ofData order data) := by
  rw [Packet.ofData_eq]
  split_ifs <;> trivial

namespace Body

/-- Decoding a body returns or throws, with every copy inside the data, unless
it is a FILES body whose comparison wraps. -/
theorem createBody_defined_iff (order : ByteOrder) (keyword : Keyword) (data : List Byte) :
    Defined (createBody order keyword data) ↔
      ¬ (keyword = .files ∧ Files.CheckWraps data) := by
  cases keyword with
  | files =>
    rw [createBody, defined_map, Files.ofData_defined_iff]
    simp
  | download =>
    rw [createBody, defined_map]
    exact iff_of_true (Download.ofData_defined order data) (by simp)
  | upload =>
    rw [createBody, defined_map]
    exact iff_of_true (Upload.ofData_defined order data) (by simp)
  | resend =>
    rw [createBody, defined_map]
    exact iff_of_true (Resend.ofData_defined order data) (by simp)
  | packet =>
    rw [createBody, defined_map]
    exact iff_of_true (Packet.ofData_defined order data) (by simp)
  | listFiles | ack | abort | unnamed => exact iff_of_true trivial (by simp)

/-- A FILES body of 32769 names of 65535 bytes each, cut off behind its size
table. -/
def oversizedNames : List Byte := 0x80 :: 0x01 :: List.replicate 65538 0xFF

theorem count_oversizedNames : Files.count oversizedNames = 32769 := by
  simp only [Files.count, field16, oversizedNames, List.drop_zero, List.take_succ_cons,
    List.take_zero]
  decide

theorem field16_oversizedNames {i : ℕ} (inside : i < 32769) :
    field16 oversizedNames (2 + 2 * i) = 65535 := by
  have slice : (oversizedNames.drop (2 + 2 * i)).take 2 = [0xFF, 0xFF] := by
    rw [oversizedNames, Nat.add_comm 2, List.drop_succ_cons, List.drop_succ_cons,
      List.drop_replicate, List.take_replicate, show min 2 (65538 - 2 * i) = 2 by omega]
    rfl
  rw [field16, slice]
  decide

theorem namesEnd_oversizedNames : Files.namesEnd oversizedNames = 2147581955 := by
  have sizes : Files.sizes oversizedNames = List.replicate 32769 65535 := by
    rw [Files.sizes, Files.sizesFrom, count_oversizedNames]
    refine List.eq_replicate_iff.mpr ⟨by simp, fun s listed => ?_⟩
    obtain ⟨i, inRange, rfl⟩ := List.mem_map.mp listed
    rw [List.mem_range'_1] at inRange
    exact field16_oversizedNames (by omega)
  have long : (65535 : NameSize).toNat = 65535 := rfl
  rw [Files.namesEnd, sizes, count_oversizedNames, Files.total_replicate, long]

/-- On that body the decoder reads behind the data. -/
theorem createBody_oversizedNames :
    ¬ Defined (createBody .little .files oversizedNames) := by
  have length : oversizedNames.length = 65540 := by
    rw [oversizedNames, List.length_cons, List.length_cons, List.length_replicate]
  rw [createBody, defined_map, Files.ofData_defined_iff, not_not,
    Files.checkWraps_iff_of_short (by omega), count_oversizedNames, namesEnd_oversizedNames,
    length]
  decide

end Body

end Fup
