/-
# The receiving end of a transfer

`ReceivePackets` loops over what its socket delivers. A round decodes a
datagram, drops it for one of four reasons or accepts it, and an accepted packet
is written at the position of its sequence id and marked. No other round touches
the file or the table, so both are a fold over the accepted packets.

A payload is shorter than the distance between two positions. Packets with
different ids therefore never write the same byte, which makes the order of
arrival and repetitions irrelevant. It also leaves a hole behind every payload.
-/

import Fup.Communications
import Fup.Lib.PositionedWrite
import Fup.Utils

namespace Fup.Client

/-! ### The loop -/

/-- The arguments of `ReceivePackets` that its decisions depend on, with the
host's byte order and the checksum function of the library. -/
structure Receiver where
  order : ByteOrder
  crc32 : List Byte → Checksum
  connectionId : ConnectionId
  packetCount : PacketCount

/-- The output file and the table of received packets. -/
@[ext] structure Received where
  fileStream : List Byte
  packetsReceived : List Bool
  deriving DecidableEq

/-- What `select` and `recvfrom` answer in one round. -/
inductive Poll
  | selectFailed (errno : String)
  | quiet
  | recvFailed (errno : String)
  | datagram (bytes : List Byte)

/-- Everything one round of the loop learns from outside: the poll, the outcome
of `RequestResend` if it is called, and the stop signal at the end. -/
structure Round where
  poll : Poll
  resend : Except Failure Unit
  stop : Bool

/-- How the loop goes on after a round. -/
inductive Flow
  | running
  | left
  | threw (failure : Failure)
  deriving DecidableEq

namespace Received

/-- The empty file and the cleared table that the loop is started with. -/
def start (packetCount : PacketCount) : Received where
  fileStream := []
  packetsReceived := List.replicate packetCount.toNat false

/-- Where `seekp` and `write` put the payload of a packet. -/
def piece (packet : Packet) : Piece Byte where
  offset := (packet.seqId * UInt64.ofNat packetPayloadSize).toNat
  data := packet.payload

/-- The writes of one round to the file and to the table. -/
def put (state : Received) (packet : Packet) : Received where
  fileStream := Piece.write 0 state.fileStream (piece packet)
  packetsReceived := state.packetsReceived.set packet.seqId.toNat true

/-- An entry in the table, and a payload that leaves the last two bytes of its slot
alone. -/
def Bounded (packetCount : PacketCount) (packet : Packet) : Prop :=
  packet.seqId.toNat < packetCount.toNat ∧ packet.payload.length ≤ Packet.payloadRoom

end Received

namespace Receiver

variable (receiver : Receiver)

/-- The check of the stop signal at the end of a round. -/
def checkStop (round : Round) : Flow := if round.stop then .left else .running

/-- The body of the loop. -/
def loopBody (state : Received) (round : Round) : Received × Flow :=
  match round.poll with
  | .selectFailed errno => (state, .threw (.exception ("Error in select: " ++ errno ++ "\n")))
  | .quiet => (state, checkStop round)
  | .recvFailed errno =>
    (state, .threw (.exception
      ("Socket::Receive: An error occured while receiving UDP message: " ++ errno)))
  | .datagram bytes =>
    match UdpWrapper.receive receiver.order bytes with
    | .error failure => (state, .threw failure)
    | .ok message =>
      if message.header.connectionId ≠ receiver.connectionId then (state, .running)
      else if message.header.keyword = .packet then
        match message.body with
        | some (.packet packet) =>
          if packet.seqId ≥ receiver.packetCount.toUInt64 then (state, .running)
          else if validateChecksum receiver.crc32 packet.payload packet.checksum then
            (state.put packet, checkStop round)
          else
            match round.resend with
            | .error failure => (state, .threw failure)
            | .ok () => (state, checkStop round)
        -- The branch for a null body reads the id of the null packet.
        | none => (state, .threw .nullPointer)
        -- The cast to a packet is static, and nothing checks it.
        | some _ => (state, .threw .outOfBounds)
      else (state, checkStop round)

/-- `ReceivePackets` on the rounds it is given, from a state on. -/
def receivePackets (state : Received) : List Round → Received × Flow
  | [] => (state, .running)
  | round :: rounds =>
    match receiver.loopBody state round with
    | (next, .running) => receivePackets next rounds
    | stopped => stopped

/-! ### Accepted packets -/

/-- The conditions on a message under which its packet is stored. -/
def Accepts (message : Message) (packet : Packet) : Prop :=
  message.header.connectionId = receiver.connectionId ∧ message.header.keyword = .packet ∧
    message.body = some (.packet packet) ∧ packet.seqId.toNat < receiver.packetCount.toNat ∧
      receiver.crc32 packet.payload = packet.checksum

instance (message : Message) (packet : Packet) : Decidable (receiver.Accepts message packet) :=
  inferInstanceAs (Decidable (_ ∧ _ ∧ _ ∧ _ ∧ _))

/-- The packet that a poll delivers, when it is accepted. -/
def accepted? (poll : Poll) : Option Packet :=
  match poll with
  | .datagram bytes =>
    match UdpWrapper.receive receiver.order bytes with
    | .ok message =>
      match message.body with
      | some (.packet packet) => if receiver.Accepts message packet then some packet else none
      | _ => none
    | .error _ => none
  | _ => none

/-- The flow of a round, which no state influences. -/
def flow (round : Round) : Flow := (receiver.loopBody (Received.start 0) round).2

/-- The rounds that the loop executes before it ends. -/
def handled : List Round → List Round
  | [] => []
  | round :: rounds => round :: if receiver.flow round = .running then handled rounds else []

/-- The packets accepted by the loop, in order of arrival. -/
def accepted (rounds : List Round) : List Packet :=
  (receiver.handled rounds).filterMap fun round => receiver.accepted? round.poll

/-! ### One round -/

theorem seqId_guard (packet : Packet) :
    packet.seqId ≥ receiver.packetCount.toUInt64 ↔
      ¬ packet.seqId.toNat < receiver.packetCount.toNat := by
  rw [ge_iff_le, UInt64.le_iff_toNat_le, UInt32.toNat_toUInt64, not_lt]

/-- A round stores the packet it accepts, and nothing else. -/
theorem loopBody_eq (state : Received) (round : Round) :
    receiver.loopBody state round =
      ((receiver.accepted? round.poll).elim state state.put, receiver.flow round) := by
  cases polled : round.poll with
  | selectFailed errno => simp only [flow, loopBody, accepted?, polled, Option.elim_none]
  | quiet => simp only [flow, loopBody, accepted?, polled, Option.elim_none]
  | recvFailed errno => simp only [flow, loopBody, accepted?, polled, Option.elim_none]
  | datagram bytes =>
    cases received : UdpWrapper.receive receiver.order bytes with
    | error failure => simp only [flow, loopBody, accepted?, polled, received, Option.elim_none]
    | ok message =>
      simp only [flow, loopBody, accepted?, polled, received]
      cases carried : message.body with
      | none => split_ifs <;> rfl
      | some body =>
        cases body with
        | packet packet =>
          have guard := receiver.seqId_guard packet
          by_cases accepts : receiver.Accepts message packet
          · obtain ⟨mine, keyword, -, inRange, valid⟩ := id accepts
            have checked : validateChecksum receiver.crc32 packet.payload packet.checksum :=
              beq_iff_eq.mpr valid
            have inTable : ¬ packet.seqId ≥ receiver.packetCount.toUInt64 :=
              fun outside => guard.mp outside inRange
            -- All four checks pass, so the packet is put.
            simp only [if_pos accepts, if_neg (not_not.mpr mine), if_pos keyword, if_neg inTable,
              if_pos checked, Option.elim_some]
          · simp only [if_neg accepts, Option.elim_none]
            split_ifs with foreign keyword outside valid
            · rfl
            · rfl
            · -- All four checks passed, which is what acceptance means.
              exact absurd ⟨not_not.mp foreign, keyword, carried, not_not.mp (mt guard.mpr outside),
                beq_iff_eq.mp valid⟩ accepts
            · cases round.resend <;> rfl
            · rfl
        | _ => split_ifs <;> rfl

theorem accepted?_eq_some {poll : Poll} {packet : Packet}
    (accepted : receiver.accepted? poll = some packet) :
    ∃ bytes message, poll = .datagram bytes ∧
      UdpWrapper.receive receiver.order bytes = .ok message ∧
        receiver.Accepts message packet := by
  cases poll with
  | datagram bytes =>
    cases received : UdpWrapper.receive receiver.order bytes with
    | error failure => simp only [accepted?, received, reduceCtorEq] at accepted
    | ok message =>
      cases carried : message.body with
      | none => simp only [accepted?, received, carried, reduceCtorEq] at accepted
      | some body =>
        cases body with
        | packet inside =>
          simp only [accepted?, received, carried, Option.ite_none_right_eq_some,
            Option.some_inj] at accepted
          obtain ⟨accepts, rfl⟩ := accepted
          exact ⟨bytes, message, rfl, received, accepts⟩
        | _ => simp only [accepted?, received, carried, reduceCtorEq] at accepted
  | _ => simp only [accepted?, reduceCtorEq] at accepted

theorem bounded_of_accepted? {poll : Poll} {packet : Packet}
    (accepted : receiver.accepted? poll = some packet) :
    Received.Bounded receiver.packetCount packet := by
  obtain ⟨bytes, message, -, received, accepts⟩ := receiver.accepted?_eq_some accepted
  obtain ⟨-, -, carried, inRange, -⟩ := accepts
  exact ⟨inRange, (UdpWrapper.payload_of_receive received carried).2⟩

theorem bounded_of_mem_accepted {rounds : List Round} {packet : Packet}
    (listed : packet ∈ receiver.accepted rounds) :
    Received.Bounded receiver.packetCount packet := by
  obtain ⟨round, -, accepted⟩ := List.mem_filterMap.mp listed
  exact receiver.bounded_of_accepted? accepted

/-- An accepted packet ends its round at the check of the stop signal. -/
theorem flow_of_accepted? {round : Round} {packet : Packet}
    (accepted : receiver.accepted? round.poll = some packet) :
    receiver.flow round = checkStop round := by
  obtain ⟨bytes, message, polled, received, accepts⟩ := receiver.accepted?_eq_some accepted
  obtain ⟨mine, keyword, carried, inRange, valid⟩ := accepts
  have checked : validateChecksum receiver.crc32 packet.payload packet.checksum :=
    beq_iff_eq.mpr valid
  have inTable : ¬ packet.seqId ≥ receiver.packetCount.toUInt64 :=
    fun outside => (receiver.seqId_guard packet).mp outside inRange
  simp only [flow, loopBody, polled, received, if_neg (not_not.mpr mine), if_pos keyword, carried,
    if_neg inTable, if_pos checked]

/-! ### A run -/

/-- A loop that no round ends executes every round. -/
theorem handled_eq_self {rounds : List Round}
    (running : ∀ round ∈ rounds, receiver.flow round = .running) :
    receiver.handled rounds = rounds := by
  induction rounds with
  | nil => rfl
  | cons round rounds ih =>
    rw [handled, if_pos (running round List.mem_cons_self),
      ih fun later listed => running later (List.mem_cons_of_mem round listed)]

/-- A run is a fold over the accepted packets. -/
theorem receivePackets_eq (state : Received) (rounds : List Round) :
    (receiver.receivePackets state rounds).1 =
      (receiver.accepted rounds).foldl Received.put state := by
  induction rounds generalizing state with
  | nil => rfl
  | cons round rounds ih =>
    rw [receivePackets, loopBody_eq, accepted, handled, List.filterMap_cons]
    by_cases goesOn : receiver.flow round = .running
    · rw [goesOn, if_pos rfl]
      -- The rest of the run starts from what this round leaves.
      cases stored : receiver.accepted? round.poll with
      | none => exact ih state
      | some packet => exact ih (state.put packet)
    -- The last round executed: its packet, if any, is the last one accepted.
    · rw [if_neg goesOn, List.filterMap_nil]
      cases stored : receiver.accepted? round.poll <;> cases ends : receiver.flow round <;>
        first | rfl | exact absurd ends goesOn

end Receiver

/-! ### What a list of packets leaves -/

namespace Received

@[simp] theorem data_piece (packet : Packet) : (piece packet).data = packet.payload := rfl

@[simp] theorem put_packetsReceived (state : Received) (packet : Packet) :
    (state.put packet).packetsReceived =
      state.packetsReceived.set packet.seqId.toNat true := rfl

/-- Packets in order are pieces in order. -/
theorem fileStream_foldl_put (state : Received) (packets : List Packet) :
    (packets.foldl put state).fileStream =
      Piece.writeAll 0 state.fileStream (packets.map piece) := by
  induction packets generalizing state with
  | nil => rfl
  | cons packet packets ih =>
    rw [List.foldl_cons, ih, List.map_cons, Piece.writeAll_cons]
    rfl

@[simp] theorem length_packetsReceived_foldl_put (state : Received) (packets : List Packet) :
    (packets.foldl put state).packetsReceived.length = state.packetsReceived.length := by
  induction packets generalizing state with
  | nil => rfl
  | cons packet packets ih => rw [List.foldl_cons, ih, put_packetsReceived, List.length_set]

/-- An entry of the table is set when a packet of its id is among them. -/
theorem packetsReceived_foldl_put (state : Received) (packets : List Packet) {i : ℕ}
    (inside : i < state.packetsReceived.length) :
    (packets.foldl put state).packetsReceived[i]? = some true ↔
      state.packetsReceived[i]? = some true ∨ ∃ packet ∈ packets, packet.seqId.toNat = i := by
  induction packets generalizing state with
  | nil => simp
  | cons packet packets ih =>
    rw [List.foldl_cons, ih (state.put packet) (by simpa using inside), put_packetsReceived,
      List.getElem?_set]
    by_cases same : packet.seqId.toNat = i
    · simp [same, inside]
    · simp [same]

/-- Below `2 ^ 32` the product of the position does not wrap. -/
theorem offset_piece {packet : Packet} {packetCount : PacketCount}
    (inRange : packet.seqId.toNat < packetCount.toNat) :
    (piece packet).offset = packetPayloadSize * packet.seqId.toNat := by
  have stride : (UInt64.ofNat packetPayloadSize).toNat = 1175 := rfl
  have narrow := packetCount.toNat_lt
  rw [piece, UInt64.toNat_mul, stride, packetPayloadSize, Nat.mul_comm]
  exact Nat.mod_eq_of_lt (by omega)

/-- Only packet zero covers a position in front of the first hole. -/
theorem lt_length_of_covers_early {packet : Packet} {packetCount : PacketCount}
    (inRange : packet.seqId.toNat < packetCount.toNat) {pos : ℕ}
    (early : pos ≤ Packet.payloadRoom) (covers : (piece packet).Covers pos) :
    pos < packet.payload.length := by
  obtain ⟨after, before⟩ := covers
  rw [offset_piece inRange] at after before
  have zero : packet.seqId.toNat = 0 := by
    by_contra later
    have room : Packet.payloadRoom < packetPayloadSize := by decide
    have next := Nat.le_mul_of_pos_right packetPayloadSize (Nat.pos_of_ne_zero later)
    omega
  rwa [zero, Nat.mul_zero, Nat.zero_add] at before

/-- Packet zero covers the positions its payload reaches. -/
theorem covers_of_lt_length {packet : Packet} {packetCount : PacketCount}
    (inRange : packet.seqId.toNat < packetCount.toNat) (zero : packet.seqId.toNat = 0) {pos : ℕ}
    (inside : pos < packet.payload.length) : (piece packet).Covers pos := by
  constructor
  · rw [offset_piece inRange, zero]
    exact Nat.zero_le pos
  · rw [offset_piece inRange, zero, Nat.mul_zero, Nat.zero_add]
    exact inside

/-- A covered byte ends as a packet that covers it has it. -/
theorem exists_byte_foldl_put (state : Received) {packets : List Packet} {pos : ℕ}
    (covered : ∃ packet ∈ packets, (piece packet).Covers pos) :
    ∃ packet ∈ packets, (piece packet).Covers pos ∧
      (packets.foldl put state).fileStream[pos]? =
        packet.payload[pos - (piece packet).offset]? := by
  obtain ⟨packet, listed, covers⟩ := covered
  obtain ⟨p, inside, covers, cell⟩ := Piece.exists_cell_writeAll 0 state.fileStream
    ⟨piece packet, List.mem_map_of_mem listed, covers⟩
  obtain ⟨last, listed, rfl⟩ := List.mem_map.mp inside
  refine ⟨last, listed, covers, ?_⟩
  obtain ⟨after, before⟩ := covers
  have within : pos - (piece last).offset < last.payload.length := by
    rw [data_piece] at before
    omega
  -- A file with a payload up to there is as long.
  have reached : pos < (Piece.writeAll 0 state.fileStream (packets.map piece)).length :=
    (Piece.lt_length_writeAll 0 _ _ pos).mpr (Or.inr ⟨piece last, inside,
      List.length_pos_iff.mp (Nat.zero_lt_of_lt within), before⟩)
  rw [Piece.cellAt_of_lt 0 reached, Piece.cell, data_piece, Piece.cellAt_of_lt 0 within] at cell
  rw [fileStream_foldl_put, List.getElem?_eq_getElem reached, List.getElem?_eq_getElem within,
    cell]

/-! ### Slots -/

/-- The bytes between the position of an id and the next position. -/
def InSlot (i j : ℕ) : Prop := packetPayloadSize * i ≤ j ∧ j < packetPayloadSize * (i + 1)

/-- A change of the slot `i` alone: outside the slot old bytes are kept, new
bytes are the zeros of the gap between the old end of the file and the slot, and
the table changes at `i`. -/
structure ChangesSlot (i : ℕ) (before after : Received) : Prop where
  kept : ∀ j < before.fileStream.length, ¬ InSlot i j →
    after.fileStream[j]? = before.fileStream[j]?
  gap : ∀ j < after.fileStream.length, before.fileStream.length ≤ j → ¬ InSlot i j →
    after.fileStream[j]? = some 0 ∧ j < packetPayloadSize * i
  grows : before.fileStream.length ≤ after.fileStream.length
  table : after.packetsReceived = before.packetsReceived.set i true

variable {packetCount : PacketCount}

theorem inSlot_of_covers {packet : Packet} (bounded : Bounded packetCount packet) {j : ℕ}
    (covers : (piece packet).Covers j) : InSlot packet.seqId.toNat j := by
  obtain ⟨inRange, short⟩ := bounded
  obtain ⟨after, before⟩ := covers
  rw [offset_piece inRange] at after before
  have room : Packet.payloadRoom ≤ packetPayloadSize := by decide
  refine ⟨after, lt_of_lt_of_le before ?_⟩
  rw [Nat.mul_succ]
  exact Nat.add_le_add_left (short.trans room) _

/-- No position is in two slots. -/
theorem slot_unique {i k j : ℕ} (first : InSlot i j) (second : InSlot k j) : i = k := by
  simp only [InSlot, packetPayloadSize] at first second
  omega

theorem put_changesSlot {packet : Packet} (bounded : Bounded packetCount packet)
    (state : Received) : ChangesSlot packet.seqId.toNat state (state.put packet) := by
  have grows : state.fileStream.length ≤ (state.put packet).fileStream.length := by
    change _ ≤ (Piece.write 0 state.fileStream (piece packet)).length
    rw [Piece.length_write]
    split_ifs
    · exact le_rfl
    · exact le_max_left _ _
  -- Outside the slot every position holds what it held, and zero past the end.
  have elsewhere (j : ℕ) (outside : ¬ InSlot packet.seqId.toNat j) :
      Piece.cellAt 0 (state.put packet).fileStream j = Piece.cellAt 0 state.fileStream j := by
    change Piece.cellAt 0 (Piece.write 0 state.fileStream (piece packet)) j = _
    rw [Piece.cellAt_write, if_neg fun covers => outside (inSlot_of_covers bounded covers)]
  refine ⟨fun j inside outside => ?_, fun j inside past outside => ⟨?_, ?_⟩, grows, rfl⟩
  · have cell := elsewhere j outside
    rw [Piece.cellAt_of_lt 0 inside, Piece.cellAt_of_lt 0 (inside.trans_le grows)] at cell
    rw [List.getElem?_eq_getElem inside, List.getElem?_eq_getElem (inside.trans_le grows), cell]
  · have cell := elsewhere j outside
    rw [Piece.cellAt_of_lt 0 inside, Piece.cellAt_of_length_le 0 past] at cell
    rw [List.getElem?_eq_getElem inside, cell]
  · -- A file that ends behind `j` now was extended by the payload.
    change j < (Piece.write 0 state.fileStream (piece packet)).length at inside
    rw [Piece.length_write] at inside
    split_ifs at inside
    · exact absurd past (Nat.not_le_of_lt inside)
    · by_contra behind
      have before : j < (piece packet).offset + (piece packet).data.length := by omega
      rw [offset_piece bounded.1] at before
      refine outside (inSlot_of_covers bounded ⟨?_, ?_⟩)
      · rw [offset_piece bounded.1]
        exact Nat.le_of_not_lt behind
      · rwa [offset_piece bounded.1]

/-- Packets of one id with one payload never write two values to a byte. -/
theorem agreeing_pieces {packets : List Packet}
    (bounded : ∀ packet ∈ packets, Bounded packetCount packet)
    (unambiguous : ∀ p ∈ packets, ∀ q ∈ packets, p.seqId = q.seqId → p.payload = q.payload) :
    Piece.Agreeing 0 (packets.map piece) := by
  intro first listed second listed' j covers covers'
  obtain ⟨p, pListed, rfl⟩ := List.mem_map.mp listed
  obtain ⟨q, qListed, rfl⟩ := List.mem_map.mp listed'
  have sameId : p.seqId = q.seqId := UInt64.toNat_inj.mp
    (slot_unique (inSlot_of_covers (bounded p pListed) covers)
      (inSlot_of_covers (bounded q qListed) covers'))
  have samePayload := unambiguous p pListed q qListed sameId
  rw [Piece.cell, Piece.cell]
  simp only [piece, sameId, samePayload]

/-- The set of packets determines what they leave. -/
theorem foldl_put_eq_of_mem_iff {first second : List Packet}
    (bounded : ∀ packet ∈ first, Bounded packetCount packet)
    (unambiguous : ∀ p ∈ first, ∀ q ∈ first, p.seqId = q.seqId → p.payload = q.payload)
    (same : ∀ packet, packet ∈ first ↔ packet ∈ second) (state : Received) :
    first.foldl put state = second.foldl put state := by
  ext1
  -- The file: slots do not overlap, so agreeing packets write agreeing pieces.
  · rw [fileStream_foldl_put, fileStream_foldl_put]
    apply Piece.writeAll_eq_of_mem_iff 0 _ (agreeing_pieces bounded unambiguous)
    intro p
    simp only [List.mem_map, same]
  · apply List.ext_getElem (by simp)
    intro i inside _
    rw [length_packetsReceived_foldl_put] at inside
    have set := packetsReceived_foldl_put state first inside
    have set' := packetsReceived_foldl_put state second inside
    simp only [same] at set
    have agree := set.trans set'.symm
    rw [List.getElem?_eq_getElem (by simpa), List.getElem?_eq_getElem (by simpa),
      Option.some_inj, Option.some_inj] at agree
    exact Bool.eq_iff_iff.mpr agree

end Received

namespace Receiver

variable (receiver : Receiver)

/-! ### Reassembly -/

/-- From any state, a round whose datagram is not accepted changes nothing, and an
accepted packet is put and changes its slot alone. The loop puts the packets it
accepts, one after the other. So the list of these determines the state, and when equal
ids carry equal payloads their set already does. -/
theorem receivePackets_reassembles (state : Received) :
    (∀ round, receiver.accepted? round.poll = none →
      (receiver.loopBody state round).1 = state) ∧
    (∀ round packet, receiver.accepted? round.poll = some packet →
      (receiver.loopBody state round).1 = state.put packet ∧
        Received.ChangesSlot packet.seqId.toNat state (receiver.loopBody state round).1) ∧
    (∀ rounds, (receiver.receivePackets state rounds).1 =
      (receiver.accepted rounds).foldl Received.put state) ∧
    (∀ rounds rounds', receiver.accepted rounds = receiver.accepted rounds' →
      (receiver.receivePackets state rounds).1 = (receiver.receivePackets state rounds').1) ∧
    (∀ rounds rounds',
      (∀ packet, packet ∈ receiver.accepted rounds ↔ packet ∈ receiver.accepted rounds') →
      (∀ p ∈ receiver.accepted rounds, ∀ q ∈ receiver.accepted rounds,
        p.seqId = q.seqId → p.payload = q.payload) →
      (receiver.receivePackets state rounds).1 = (receiver.receivePackets state rounds').1) := by
  refine ⟨?_, ?_, receiver.receivePackets_eq state, ?_, ?_⟩
  · intro round rejected
    rw [loopBody_eq, rejected, Option.elim_none]
  · intro round packet accepted
    rw [loopBody_eq, accepted, Option.elim_some]
    exact ⟨rfl, Received.put_changesSlot (receiver.bounded_of_accepted? accepted) state⟩
  · intro rounds rounds' same
    rw [receivePackets_eq, receivePackets_eq, same]
  · intro rounds rounds' same unambiguous
    rw [receivePackets_eq, receivePackets_eq]
    exact Received.foldl_put_eq_of_mem_iff (fun _ => receiver.bounded_of_mem_accepted)
      unambiguous same state

/-- The bytes 111 and 98, whose checksum is `0x65e3`, as packet zero. -/
def twoBytes : List Byte :=
  [0, 0, 0, 0, 0, 1, 7, 0, 0, 0, 14, 0, 0, 0, 0, 0, 0, 0, 0, 0, 0, 0, 0, 0x65, 0xe3, 0, 0, 111, 98]

/-- A receiver of one packet, with a checksum function that has the library's
value on these two bytes. -/
def twoBytesReceiver : Receiver where
  order := .little
  crc32 := fun _ => 0x65e3
  connectionId := 1
  packetCount := 1

/-- The same bytes as packet one. -/
def nextTwoBytes : List Byte :=
  [0, 0, 0, 0, 0, 1, 7, 0, 0, 0, 14, 0, 0, 0, 0, 0, 0, 0, 0, 0, 0, 0, 1, 0x65, 0xe3, 0, 0, 111, 98]

/-- A receiver of two packets. -/
def twoPacketsReceiver : Receiver := { twoBytesReceiver with packetCount := 2 }

/-- Both packets in order, and the other way round with the first one twice. -/
def inOrder : List Round := [twoBytes, nextTwoBytes].map fun bytes => ⟨.datagram bytes, .ok (), false⟩

def outOfOrder : List Round :=
  [nextTwoBytes, twoBytes, twoBytes].map fun bytes => ⟨.datagram bytes, .ok (), false⟩

theorem accepted_inOrder : twoPacketsReceiver.accepted inOrder =
    [⟨0, 0x65e3, [111, 98]⟩, ⟨1, 0x65e3, [111, 98]⟩] := by
  decide +kernel

theorem accepted_outOfOrder : twoPacketsReceiver.accepted outOfOrder =
    [⟨1, 0x65e3, [111, 98]⟩, ⟨0, 0x65e3, [111, 98]⟩, ⟨0, 0x65e3, [111, 98]⟩] := by
  decide +kernel

/-- The theorem for the two packets, which leave the same both ways. -/
theorem receivePackets_reassembles_outOfOrder :
    (twoPacketsReceiver.receivePackets (Received.start 2) inOrder).1 =
        (twoPacketsReceiver.receivePackets (Received.start 2) outOfOrder).1 ∧
      (twoPacketsReceiver.receivePackets (Received.start 2) inOrder).1.packetsReceived =
        [true, true] := by
  obtain ⟨-, -, puts, -, reassembles⟩ :=
    twoPacketsReceiver.receivePackets_reassembles (Received.start 2)
  refine ⟨reassembles inOrder outOfOrder ?_ ?_, ?_⟩
  · intro packet
    simp only [accepted_inOrder, accepted_outOfOrder, List.mem_cons, List.not_mem_nil, or_false]
    tauto
  · rw [accepted_inOrder]
    decide
  · rw [puts, accepted_inOrder]
    rfl

/-! ### Holes -/

/-- Whether the entries of the table are all set. -/
theorem all_received_iff (rounds : List Round) :
    (∀ flag ∈ (receiver.receivePackets (Received.start receiver.packetCount)
        rounds).1.packetsReceived, flag = true) ↔
      ∀ id < receiver.packetCount.toNat, ∃ packet ∈ receiver.accepted rounds,
        packet.seqId.toNat = id := by
  have size : (Received.start receiver.packetCount).packetsReceived.length =
      receiver.packetCount.toNat := List.length_replicate
  have cleared {id : ℕ} : (Received.start receiver.packetCount).packetsReceived[id]? ≠
      some true := by
    rw [Received.start, List.getElem?_replicate]
    split_ifs <;> simp
  rw [receivePackets_eq, List.forall_mem_iff_getElem]
  constructor
  · intro all id below
    -- A set entry was not set at the start, so a packet has set it.
    have entry := all id (by rwa [Received.length_packetsReceived_foldl_put, size])
    have marked := (Received.packetsReceived_foldl_put (Received.start receiver.packetCount)
      (receiver.accepted rounds) (by rwa [size])).mp
      (by rw [List.getElem?_eq_getElem (by rwa [Received.length_packetsReceived_foldl_put, size]),
        entry])
    exact marked.resolve_left cleared
  · intro each id inside
    rw [Received.length_packetsReceived_foldl_put] at inside
    have marked := (Received.packetsReceived_foldl_put (Received.start receiver.packetCount)
      (receiver.accepted rounds) inside).mpr (Or.inr (each id (size ▸ inside)))
    rw [List.getElem?_eq_getElem, Option.some_inj] at marked
    exact marked

/-- When every entry of the table is set, every byte of a file of `fileSize`
bytes has been written by an accepted packet, and is in the output as some packet that
covers it has it. -/
def FlagsSound (fileSize : FileSize) (rounds : List Round) : Prop :=
  (∀ flag ∈ (receiver.receivePackets (Received.start receiver.packetCount)
      rounds).1.packetsReceived, flag = true) →
    ∀ pos < fileSize.toNat, ∃ packet ∈ receiver.accepted rounds,
      (Received.piece packet).Covers pos ∧
        (receiver.receivePackets (Received.start receiver.packetCount) rounds).1.fileStream[pos]? =
          packet.payload[pos - (Received.piece packet).offset]?

/-- The bytes of the output follow from where the packets go. -/
theorem flagsSound_iff_covered {fileSize : FileSize} {rounds : List Round} :
    receiver.FlagsSound fileSize rounds ↔
      ((∀ id < receiver.packetCount.toNat, ∃ packet ∈ receiver.accepted rounds,
          packet.seqId.toNat = id) →
        ∀ pos < fileSize.toNat, ∃ packet ∈ receiver.accepted rounds,
          (Received.piece packet).Covers pos) := by
  rw [FlagsSound, all_received_iff, receivePackets_eq]
  constructor
  · intro sound all pos inFile
    obtain ⟨packet, listed, covers, -⟩ := sound all pos inFile
    exact ⟨packet, listed, covers⟩
  · intro covered all pos inFile
    exact Received.exists_byte_foldl_put _ (covered all pos inFile)

/-- The flags are sound exactly when some packet never arrived, or when the file
fits in one payload and some packet carried all of it. -/
theorem flagsSound_iff {fileSize : FileSize} (nonempty : 1 ≤ fileSize.toNat)
    (describable : fileSize.toNat ≤ maxFileSize)
    (counted : calculateTotalPacketCount fileSize = .ok receiver.packetCount)
    (rounds : List Round) :
    receiver.FlagsSound fileSize rounds ↔
      (∃ id < receiver.packetCount.toNat, ∀ packet ∈ receiver.accepted rounds,
        packet.seqId.toNat ≠ id) ∨
      (fileSize.toNat ≤ Packet.payloadRoom ∧ ∃ packet ∈ receiver.accepted rounds,
        fileSize.toNat ≤ packet.payload.length) := by
  obtain ⟨count, isCount, value⟩ := calculateTotalPacketCount_eq nonempty describable
  obtain rfl := Except.ok.inj (isCount.symm.trans counted)
  rw [flagsSound_iff_covered]
  constructor
  · intro sound
    by_cases missing : ∃ id < receiver.packetCount.toNat, ∀ packet ∈ receiver.accepted rounds,
        packet.seqId.toNat ≠ id
    · exact Or.inl missing
    refine Or.inr ?_
    have covered := sound (by simpa using missing)
    have first {pos : ℕ} (early : pos ≤ Packet.payloadRoom) (inFile : pos < fileSize.toNat) :
        ∃ packet ∈ receiver.accepted rounds, pos < packet.payload.length := by
      obtain ⟨packet, listed, covers⟩ := covered pos inFile
      have inRange := (receiver.bounded_of_mem_accepted listed).1
      exact ⟨packet, listed, Received.lt_length_of_covers_early inRange early covers⟩
    have small : fileSize.toNat ≤ Packet.payloadRoom := by
      by_contra large
      obtain ⟨packet, listed, long⟩ := first le_rfl (Nat.lt_of_not_le large)
      exact absurd (receiver.bounded_of_mem_accepted listed).2 (Nat.not_le_of_lt long)
    have early : fileSize.toNat - 1 ≤ Packet.payloadRoom := (Nat.sub_le _ 1).trans small
    obtain ⟨packet, listed, long⟩ := first early (by omega)
    exact ⟨small, packet, listed, by omega⟩
  · rintro (⟨id, below, missing⟩ | ⟨small, packet, listed, whole⟩) all pos inFile
    · obtain ⟨packet, listed, same⟩ := all id below
      exact absurd same (missing packet listed)
    -- A file this small is a single packet, and its payload covers it.
    · have inRange := (receiver.bounded_of_mem_accepted listed).1
      have room : Packet.payloadRoom = 1173 := rfl
      have zero : packet.seqId.toNat = 0 := by omega
      exact ⟨packet, listed,
        Received.covers_of_lt_length inRange zero (inFile.trans_le whole)⟩

theorem accepted_twoBytes :
    twoBytesReceiver.accepted [⟨.datagram twoBytes, .ok (), false⟩] =
      [⟨0, 0x65e3, [111, 98]⟩] := by
  decide +kernel

/-- With a file of three bytes the table is full and the last byte unwritten. -/
theorem not_flagsSound_twoBytes :
    calculateTotalPacketCount 3 = .ok twoBytesReceiver.packetCount ∧
      ¬ twoBytesReceiver.FlagsSound 3 [⟨.datagram twoBytes, .ok (), false⟩] := by
  unfold FlagsSound
  decide +kernel

/-- With a file of two bytes nothing is missing. -/
theorem flagsSound_twoBytes :
    twoBytesReceiver.FlagsSound 2 [⟨.datagram twoBytes, .ok (), false⟩] := by
  apply (twoBytesReceiver.flagsSound_iff (by decide) (by decide) (by decide) _).mpr
  refine Or.inr ⟨by decide, ⟨0, 0x65e3, [111, 98]⟩, ?_, by decide⟩
  rw [accepted_twoBytes]
  exact List.mem_singleton_self _

end Receiver

end Fup.Client
