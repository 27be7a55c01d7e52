/-
# The packets of a file and its bytes

The packets read stretches of the file, one payload each. The packet count is
exact, and the stretches tile the file, up to the largest file whose count fits
32 bits. Beyond it the count is narrowed without a check, and the packets leave
out all but a part of the file.
-/

import Fup.Client.TransmitPackets
import Fup.Lib.Strides

namespace Fup.Client

/-- What `TransmitPackets` reads for a packet from a stream that has not failed. -/
def bytesRead (file : List Byte) (nextSeqId : ℕ) : List Byte :=
  ((InputStream.ofFile file).readAt (nextSeqId * packetPayloadSize) packetPayloadSize).2

theorem bytesRead_eq (file : List Byte) (nextSeqId : ℕ) :
    bytesRead file nextSeqId =
      (file.drop (packetPayloadSize * nextSeqId)).take packetPayloadSize := by
  rw [bytesRead, (InputStream.readAt_of_good rfl _ _).1, Nat.mul_comm]
  rfl

/-- The packet count is the exact ceiling, and the packets tile the file and read
all of it. -/
structure CoversFile (fileSize : FileSize) (packetCount : PacketCount) : Prop where
  nonempty : 1 ≤ packetCount.toNat
  starts : (packetCount.toNat - 1) * packetPayloadSize < fileSize.toNat
  reaches : fileSize.toNat ≤ packetCount.toNat * packetPayloadSize
  tiles : Strides.Tiles packetPayloadSize fileSize.toNat packetCount.toNat
  reads : ∀ file : List Byte, file.length = fileSize.toNat →
    ((List.range packetCount.toNat).map (bytesRead file)).flatten = file

/-- A count that is the exact ceiling covers the file. -/
theorem coversFile_of_bounds {fileSize : FileSize} {packetCount : PacketCount}
    (nonempty : 1 ≤ packetCount.toNat)
    (starts : (packetCount.toNat - 1) * packetPayloadSize < fileSize.toNat)
    (reaches : fileSize.toNat ≤ packetCount.toNat * packetPayloadSize) :
    CoversFile fileSize packetCount := by
  refine ⟨nonempty, starts, reaches, ?_, ?_⟩
  · refine Strides.tiles_of_bounds (by decide) ?_ (Nat.mul_comm _ _ ▸ reaches)
    intro i listed
    calc packetPayloadSize * i
        ≤ packetPayloadSize * (packetCount.toNat - 1) :=
          Nat.mul_le_mul_left _ (Nat.le_sub_one_of_lt listed)
      _ = (packetCount.toNat - 1) * packetPayloadSize := Nat.mul_comm _ _
      _ < fileSize.toNat := starts
  · intro file length
    have all : file.length ≤ packetPayloadSize * packetCount.toNat := by
      rw [length, Nat.mul_comm]
      exact reaches
    rw [funext (bytesRead_eq file)]
    exact Strides.flatten_stretches_of_le all

/-- The packet count covers a file exactly when it can describe it. -/
theorem coversFile_iff (fileSize : FileSize) :
    (∀ packetCount, calculateTotalPacketCount fileSize = .ok packetCount →
      CoversFile fileSize packetCount) ↔ fileSize.toNat ≤ maxFileSize := by
  have stride : packetPayloadSize = 1175 := rfl
  have largest : maxFileSize = 1175 * (2 ^ 32 - 1) := rfl
  by_cases empty : fileSize = 0
  · subst empty
    exact iff_of_true (fun _ counted => nomatch counted) (Nat.zero_le _)
  constructor
  · intro covers
    obtain ⟨packetCount, counted⟩ : ∃ packetCount,
        calculateTotalPacketCount fileSize = .ok packetCount := ⟨_, if_neg empty⟩
    -- Whatever the count is, it is below `2 ^ 32`.
    have reaches := (covers packetCount counted).reaches
    have below := packetCount.toNat_lt
    rw [stride] at reaches
    omega
  · intro describable packetCount counted
    have nonempty : 1 ≤ fileSize.toNat :=
      Nat.one_le_iff_ne_zero.mpr fun zero => empty (UInt64.toNat_inj.mp zero)
    obtain ⟨_, counted', ceiling⟩ := calculateTotalPacketCount_eq nonempty describable
    obtain rfl := Except.ok.inj (counted.symm.trans counted')
    apply coversFile_of_bounds
    · omega
    · rw [stride]
      omega
    · rw [stride]
      omega

/-- A file of `2 ^ 32` full packets and one byte is counted as one packet. -/
theorem not_coversFile_narrowed :
    calculateTotalPacketCount 5046586572801 = .ok 1 ∧ ¬ CoversFile 5046586572801 1 := by
  refine ⟨by decide, ?_⟩
  intro covers
  exact absurd covers.reaches (by decide)

end Fup.Client
