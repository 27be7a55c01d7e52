/-
# Two scans for missing packets

The ids that are not received, once collected from an ordered set and once read
off a table of marks, one id at a time. Both scans go through the ids in order.
Marking the id that the second one returns and asking again visits what the first
one collects.
-/

import Fup.Lib.ClearEntries
import Fup.Utils
import Mathlib.Data.Finset.Basic

namespace Fup

open ClearEntries

theorem toNat_succ_of_lt {i : SequenceId} {packetCount : PacketCount}
    (below : i < packetCount.toUInt64) : (i + 1).toNat = i.toNat + 1 := by
  have inside : i.toNat < packetCount.toNat := by
    rwa [UInt64.lt_iff_toNat_lt, UInt32.toNat_toUInt64] at below
  have limit := packetCount.toNat_lt
  rw [UInt64.toNat_add, UInt64.toNat_one]
  exact Nat.mod_eq_of_lt (by omega)

/-- The loop of `util::GetMissingPacketIds` from id `i` on. -/
def scanReceivedPackets (receivedPackets : Finset SequenceId) (packetCount : PacketCount)
    (i : SequenceId) : List SequenceId :=
  -- The count is converted to the width of the ids.
  if _below : i < packetCount.toUInt64 then
    if i ∉ receivedPackets then i :: scanReceivedPackets receivedPackets packetCount (i + 1)
    else scanReceivedPackets receivedPackets packetCount (i + 1)
  else []
termination_by packetCount.toNat - i.toNat
decreasing_by
  all_goals
    have next := toNat_succ_of_lt _below
    rw [UInt64.lt_iff_toNat_lt, UInt32.toNat_toUInt64] at _below
    omega

/-- `util::GetMissingPacketIds`. -/
def getMissingPacketIds (receivedPackets : Finset SequenceId) (packetCount : PacketCount) :
    List SequenceId :=
  scanReceivedPackets receivedPackets packetCount 0

/-- The table of received packets. -/
def packetTable (receivedPackets : Finset SequenceId) (packetCount : PacketCount) : List Bool :=
  (List.range packetCount.toNat).map fun i => decide (UInt64.ofNat i ∈ receivedPackets)

/-! ### The table -/

/-- The scan of a table returns the index of its first clear entry. -/
theorem getNextPossiblePacketId_eq_head (packetsToSend : List Bool) :
    getNextPossiblePacketId packetsToSend = ((clear packetsToSend).head?.map Nat.cast).getD (-1) := by
  rcases getNextPossiblePacketId_cases packetsToSend with ⟨minusOne, all⟩ | ⟨k, found, entry, before⟩
  · rw [minusOne, clear_eq_nil_iff.mpr all]
    rfl
  · obtain ⟨rest, first⟩ := exists_clear_eq_cons entry before
    rw [found, first]
    rfl

theorem getNextPossiblePacketId_of_nil {packetsToSend : List Bool}
    (empty : clear packetsToSend = []) : getNextPossiblePacketId packetsToSend = -1 := by
  rw [getNextPossiblePacketId_eq_head, empty]
  rfl

theorem getNextPossiblePacketId_of_cons {packetsToSend : List Bool} {k : ℕ} {rest : List ℕ}
    (first : clear packetsToSend = k :: rest) : getNextPossiblePacketId packetsToSend = k := by
  rw [getNextPossiblePacketId_eq_head, first]
  rfl

/-- Mark the id that `util::GetNextPossiblePacketId` returns and ask again, until
there is none. -/
def visitedPacketIds (packetsToSend : List Bool) : List ℤ :=
  let nextSeqId := getNextPossiblePacketId packetsToSend
  if nextSeqId = -1 then []
  else nextSeqId :: visitedPacketIds (packetsToSend.set nextSeqId.toNat true)
termination_by (clear packetsToSend).length
decreasing_by
  rename_i some
  cases entries : clear packetsToSend with
  | nil => exact absurd (getNextPossiblePacketId_of_nil entries) some
  | cons k rest =>
    rw [getNextPossiblePacketId_of_cons entries, Int.toNat_natCast, clear_set_of_cons entries]
    exact Nat.lt_succ_self _

theorem visitedPacketIds_eq (packetsToSend : List Bool) :
    visitedPacketIds packetsToSend = (clear packetsToSend).map Nat.cast := by
  generalize entries : clear packetsToSend = ids
  induction ids generalizing packetsToSend with
  | nil =>
    rw [visitedPacketIds, getNextPossiblePacketId_of_nil entries]
    rfl
  | cons k rest ih =>
    have index : (k : ℤ) ≠ -1 := by omega
    rw [visitedPacketIds, getNextPossiblePacketId_of_cons entries]
    simp only [if_neg index, Int.toNat_natCast]
    rw [ih _ (clear_set_of_cons entries), List.map_cons]

/-! ### The set -/

/-- The loop over the ids collects those that are not in the set. -/
theorem scanReceivedPackets_eq (receivedPackets : Finset SequenceId) (packetCount : PacketCount)
    (i : SequenceId) :
    scanReceivedPackets receivedPackets packetCount i =
      ((List.range' i.toNat (packetCount.toNat - i.toNat)).filter fun k =>
        UInt64.ofNat k ∉ receivedPackets).map UInt64.ofNat := by
  have first {i : SequenceId} (below : i < packetCount.toUInt64) :
      List.range' i.toNat (packetCount.toNat - i.toNat) =
        i.toNat :: List.range' (i + 1).toNat (packetCount.toNat - (i + 1).toNat) := by
    have inside : i.toNat < packetCount.toNat := by
      rwa [UInt64.lt_iff_toNat_lt, UInt32.toNat_toUInt64] at below
    rw [toNat_succ_of_lt below, ← List.range'_succ]
    congr 1
    omega
  fun_induction scanReceivedPackets receivedPackets packetCount i with
  | case1 i below missing ih =>
    rw [first below, List.filter_cons_of_pos (by simpa using missing), List.map_cons, ih,
      UInt64.ofNat_toNat]
  | case2 i below received ih =>
    rw [first below, List.filter_cons_of_neg (by simpa using received), ih]
  | case3 i past =>
    rw [UInt64.lt_iff_toNat_lt, UInt32.toNat_toUInt64] at past
    rw [Nat.sub_eq_zero_of_le (Nat.le_of_not_lt past)]
    rfl

/-- The clear entries are those below the count whose ids are not in the set. -/
theorem mem_clear_packetTable {receivedPackets : Finset SequenceId} {packetCount : PacketCount}
    {k : ℕ} : k ∈ clear (packetTable receivedPackets packetCount) ↔
      k < packetCount.toNat ∧ UInt64.ofNat k ∉ receivedPackets := by
  rw [mem_clear, packetTable, List.getElem?_map]
  by_cases below : k < packetCount.toNat
  · rw [List.getElem?_range below]
    simp [below]
  · rw [List.getElem?_eq_none (by simpa using below)]
    simp [below]

theorem getMissingPacketIds_eq (receivedPackets : Finset SequenceId) (packetCount : PacketCount) :
    getMissingPacketIds receivedPackets packetCount =
      (clear (packetTable receivedPackets packetCount)).map UInt64.ofNat := by
  have size : (packetTable receivedPackets packetCount).length = packetCount.toNat := by
    rw [packetTable, List.length_map, List.length_range]
  rw [getMissingPacketIds, scanReceivedPackets_eq, clear, size, List.range_eq_range',
    UInt64.toNat_zero, Nat.sub_zero]
  congr 1
  -- Below the count an entry is clear when its id is missing.
  apply List.filter_congr
  intro k inside
  have below : k < packetCount.toNat := by simpa using inside
  have entry : k ∈ clear (packetTable receivedPackets packetCount) ↔ _ := mem_clear_packetTable
  rw [mem_clear] at entry
  exact decide_eq_decide.mpr ((and_iff_right below).symm.trans entry.symm)

/-! ### Both -/

/-- The set's scan collects exactly the ids below the count that are not in the
set, in increasing order; the table's scan returns the first of them, or `-1` when
there is none; and marking what it returns visits them all in that order. -/
structure ScansAgree (receivedPackets : Finset SequenceId) (packetCount : PacketCount) : Prop where
  increasing : (getMissingPacketIds receivedPackets packetCount).Pairwise (· < ·)
  exactly : ∀ id, id ∈ getMissingPacketIds receivedPackets packetCount ↔
    id.toNat < packetCount.toNat ∧ id ∉ receivedPackets
  next : ∀ id, (getMissingPacketIds receivedPackets packetCount).head? = some id →
    getNextPossiblePacketId (packetTable receivedPackets packetCount) = id.toNat
  emptied : getNextPossiblePacketId (packetTable receivedPackets packetCount) = -1 ↔
    getMissingPacketIds receivedPackets packetCount = []
  visits : visitedPacketIds (packetTable receivedPackets packetCount) =
    (getMissingPacketIds receivedPackets packetCount).map fun id => (id.toNat : ℤ)

theorem scansAgree (receivedPackets : Finset SequenceId) (packetCount : PacketCount) :
    ScansAgree receivedPackets packetCount := by
  set table := packetTable receivedPackets packetCount with tableIs
  have collected := getMissingPacketIds_eq receivedPackets packetCount
  -- The entries are below the count, so they are the numbers of their ids.
  have own {k : ℕ} (listed : k ∈ clear table) : (UInt64.ofNat k).toNat = k :=
    toNat_ofNat_of_lt (mem_clear_packetTable.mp listed).1
  refine ⟨?_, ?_, ?_, ?_, ?_⟩
  · rw [collected, List.pairwise_map]
    refine (pairwise_clear table).imp_of_mem fun here there before => ?_
    rw [UInt64.lt_iff_toNat_lt, own here, own there]
    exact before
  · intro id
    rw [collected, List.mem_map]
    constructor
    · rintro ⟨k, listed, rfl⟩
      rw [own listed]
      exact mem_clear_packetTable.mp listed
    · rintro ⟨below, missing⟩
      refine ⟨id.toNat, mem_clear_packetTable.mpr ⟨below, ?_⟩, UInt64.ofNat_toNat⟩
      rwa [UInt64.ofNat_toNat]
  · intro id first
    rw [collected] at first
    cases entries : clear table with
    | nil =>
      rw [entries] at first
      cases first
    | cons k rest =>
      rw [entries, List.map_cons, List.head?_cons, Option.some_inj] at first
      rw [getNextPossiblePacketId_of_cons entries, ← first, own (entries ▸ List.mem_cons_self)]
  · rw [collected, List.map_eq_nil_iff]
    refine ⟨fun minusOne => ?_, getNextPossiblePacketId_of_nil⟩
    cases entries : clear table with
    | nil => rfl
    | cons k rest =>
      -- An index is never the `-1` that stands for none.
      rw [getNextPossiblePacketId_of_cons entries] at minusOne
      omega
  · rw [visitedPacketIds_eq, collected, List.map_map]
    refine List.map_congr_left fun k listed => ?_
    exact congrArg Nat.cast (own listed).symm

end Fup
