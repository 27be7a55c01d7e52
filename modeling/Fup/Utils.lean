/-
# Packet counts, packet tables and checksums

The arithmetic the two ends of a transfer share: how many packets a file takes,
which of them is next, and whether a payload matches its checksum. The count is
a ceiling division of 64-bit integers narrowed to 32 bits, exact up to the
largest file that 32-bit packet counts can describe. The checksum function is a
parameter.
-/

import Fup.Common

namespace Fup

/-- `util::CalculateTotalPacketCount`. -/
def calculateTotalPacketCount (fileSize : FileSize) : Except Failure PacketCount :=
  if fileSize = 0 then .error (.exception "File size cannot be zero.")
  else
    let stride := UInt64.ofNat packetPayloadSize
    .ok ((fileSize + stride - 1) / stride).toUInt32

/-- The largest file whose packet count fits its type. -/
def maxFileSize : ℕ := packetPayloadSize * (2 ^ 32 - 1)

/-- The count of a file that is not empty, as the language computes it. -/
theorem toNat_calculateTotalPacketCount {fileSize : FileSize} {count : PacketCount}
    (counted : calculateTotalPacketCount fileSize = .ok count) :
    count.toNat = (fileSize.toNat + 1174) % 2 ^ 64 / 1175 % 2 ^ 32 := by
  rw [calculateTotalPacketCount] at counted
  split_ifs at counted
  obtain rfl := Except.ok.inj counted
  have stride : (UInt64.ofNat packetPayloadSize).toNat = 1175 := rfl
  have one : (1 : UInt64).toNat = 1 := rfl
  have numerator : (fileSize + UInt64.ofNat packetPayloadSize - 1).toNat =
      (fileSize.toNat + 1174) % 2 ^ 64 := by
    rw [UInt64.toNat_sub, UInt64.toNat_add, stride, one]
    omega
  rw [UInt64.toNat_toUInt32, UInt64.toNat_div, numerator, stride]

/-- The count is the ceiling of the division for every file it can describe. -/
theorem calculateTotalPacketCount_eq {fileSize : FileSize} (nonempty : 1 ≤ fileSize.toNat)
    (describable : fileSize.toNat ≤ maxFileSize) :
    ∃ count, calculateTotalPacketCount fileSize = .ok count ∧
      count.toNat = (fileSize.toNat + 1174) / 1175 := by
  have nonzero : fileSize ≠ 0 := by
    rintro rfl
    exact absurd nonempty (by decide)
  have limit : fileSize.toNat ≤ 1175 * (2 ^ 32 - 1) := describable
  have counted : calculateTotalPacketCount fileSize = .ok _ := if_neg nonzero
  -- Neither the numerator nor the count wraps below the limit.
  refine ⟨_, counted, ?_⟩
  rw [toNat_calculateTotalPacketCount counted, Nat.mod_eq_of_lt (by omega),
    Nat.mod_eq_of_lt (by omega)]

/-! ### The table of packets to send -/

/-- The loop of `util::GetNextPossiblePacketId` from index `i` on. -/
def scanPacketsToSend : List Bool → ℕ → ℤ
  | [], _ => -1
  | sent :: packetsToSend, i => if !sent then i else scanPacketsToSend packetsToSend (i + 1)

/-- `util::GetNextPossiblePacketId`: the first packet not marked, or `-1`. -/
def getNextPossiblePacketId (packetsToSend : List Bool) : ℤ := scanPacketsToSend packetsToSend 0

theorem scanPacketsToSend_cases (packetsToSend : List Bool) (i : ℕ) :
    scanPacketsToSend packetsToSend i = -1 ∧ (∀ sent ∈ packetsToSend, sent = true) ∨
      ∃ k, scanPacketsToSend packetsToSend i = (i + k : ℕ) ∧ packetsToSend[k]? = some false ∧
        ∀ j < k, packetsToSend[j]? = some true := by
  induction packetsToSend generalizing i with
  | nil => exact Or.inl ⟨rfl, fun _ listed => absurd listed List.not_mem_nil⟩
  | cons sent packetsToSend ih =>
    cases sent with
    | false => exact Or.inr ⟨0, rfl, rfl, fun j below => absurd below (Nat.not_lt_zero j)⟩
    | true =>
      rcases ih (i + 1) with ⟨minusOne, all⟩ | ⟨k, found, unsent, before⟩
      · refine Or.inl ⟨minusOne, fun sent listed => ?_⟩
        rcases List.mem_cons.mp listed with rfl | later
        · rfl
        · exact all sent later
      · refine Or.inr ⟨k + 1, ?_, unsent, fun j below => ?_⟩
        · rw [show i + (k + 1) = i + 1 + k by omega]
          exact found
        · cases j with
          | zero => rfl
          | succ j => exact before j (Nat.lt_of_succ_lt_succ below)

/-- The scan returns `-1` when every packet is marked, and otherwise the first
index that is not. -/
theorem getNextPossiblePacketId_cases (packetsToSend : List Bool) :
    getNextPossiblePacketId packetsToSend = -1 ∧ (∀ sent ∈ packetsToSend, sent = true) ∨
      ∃ k : ℕ, getNextPossiblePacketId packetsToSend = k ∧ packetsToSend[k]? = some false ∧
        ∀ j < k, packetsToSend[j]? = some true := by
  have scan := scanPacketsToSend_cases packetsToSend 0
  simpa only [getNextPossiblePacketId, Nat.zero_add] using scan

/-- The first packet that is not marked is the one the scan returns. -/
theorem getNextPossiblePacketId_eq {packetsToSend : List Bool} {k : ℕ}
    (unsent : packetsToSend[k]? = some false)
    (before : ∀ j < k, packetsToSend[j]? = some true) :
    getNextPossiblePacketId packetsToSend = k := by
  rcases getNextPossiblePacketId_cases packetsToSend with ⟨-, all⟩ | ⟨i, found, clear, marked⟩
  · exact absurd (all false (List.mem_of_getElem? unsent)) (by decide)
  · rcases Nat.lt_trichotomy i k with early | rfl | late
    · exact absurd (clear.symm.trans (before i early)) (by simp)
    · exact found
    · exact absurd (unsent.symm.trans (marked k late)) (by simp)

/-! ### Checksums -/

/-- `util::ValidateChecksum`, over the checksum function of the library. -/
def validateChecksum (crc32 : List Byte → Checksum) (data : List Byte) (checksum : Checksum) :
    Bool :=
  crc32 data == checksum

end Fup
