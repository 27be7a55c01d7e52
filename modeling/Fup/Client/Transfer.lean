/-
# A file, end to end

The datagrams that the sending end builds for a file, in any order and with any
repetitions, handed to the receiving end. Each datagram carries the front of its
chunk and, of the checksum of the whole chunk, what fits half its field. The
transfer restores the file exactly when nothing of what is dropped matters.
-/

import Fup.Client.ReceivePackets
import Fup.Client.TransmitPackets

namespace Fup.Client

/-- A file of describable size and an order of delivery of its datagrams in
which every one of them occurs. -/
structure Transfer where
  senderOrder : ByteOrder
  receiverOrder : ByteOrder
  crc32 : List Byte → Checksum
  version : Version
  connectionId : ConnectionId
  file : List Byte
  packetCount : PacketCount
  delivery : List ℕ
  nonempty : 1 ≤ file.length
  describable : file.length ≤ maxFileSize
  counted : calculateTotalPacketCount (UInt64.ofNat file.length) = .ok packetCount
  complete : ∀ id, id ∈ delivery ↔ id < packetCount.toNat

namespace Transfer

variable (transfer : Transfer)

def sender : Sender :=
  ⟨transfer.senderOrder, transfer.crc32, transfer.version, transfer.connectionId⟩

def receiver : Receiver :=
  ⟨transfer.receiverOrder, transfer.crc32, transfer.connectionId, transfer.packetCount⟩

/-- The bytes that arrive for a sequence id. -/
def datagram (id : ℕ) : List Byte :=
  match transfer.sender.datagram id (chunk transfer.file id) with
  | .ok buf => buf.cells
  | .error _ => []

/-- The rounds of the receiver: one for each delivery. -/
def rounds : List Round :=
  transfer.delivery.map fun id => ⟨.datagram (transfer.datagram id), .ok (), false⟩

/-- What the receiver has when everything is delivered. -/
def final : Received :=
  (transfer.receiver.receivePackets (Received.start transfer.packetCount) transfer.rounds).1

/-- Every datagram is accepted, every entry of the table is set, and the output
is the file. -/
structure Faithful : Prop where
  accepted : ∀ id ∈ transfer.delivery,
    (transfer.receiver.accepted? (.datagram (transfer.datagram id))).isSome
  received : ∀ flag ∈ transfer.final.packetsReceived, flag = true
  restored : transfer.final.fileStream = transfer.file

/-- The front of a chunk that its datagram carries. -/
def front (id : ℕ) : List Byte := (chunk transfer.file id).take Packet.payloadRoom

/-- The checksum that the receiver reads. -/
def checksumRead (id : ℕ) : ℕ :=
  if transfer.senderOrder = transfer.receiverOrder then
    (transfer.crc32 (chunk transfer.file id)).toNat % 2 ^ 16
  else 0

/-- What the datagrams drop does not matter: the file ends with the front of its
last chunk, it holds zeros behind the front of every other, and each front has
the checksum that is left of its chunk's. -/
structure Lossless : Prop where
  ends : transfer.file.length % packetPayloadSize = Packet.payloadRoom
  zeros : ∀ j < transfer.file.length, Packet.payloadRoom ≤ j % packetPayloadSize →
    transfer.file[j]? = some 0
  checksums : ∀ id < transfer.packetCount.toNat,
    (transfer.crc32 (transfer.front id)).toNat = transfer.checksumRead id

/-! ### One datagram -/

/-- The packet that arrives for a sequence id. -/
def delivered (id : ℕ) : Packet where
  seqId := UInt64.ofNat id
  checksum := Packet.readChecksum transfer.receiverOrder
    (Packet.checksumField transfer.senderOrder (transfer.crc32 (chunk transfer.file id)))
  payload := transfer.front id

theorem toNat_packetCount :
    transfer.packetCount.toNat = (transfer.file.length + 1174) / 1175 := by
  have limit : maxFileSize < 2 ^ 64 := by decide
  have length : (UInt64.ofNat transfer.file.length).toNat = transfer.file.length :=
    UInt64.toNat_ofNat_of_lt' (transfer.describable.trans_lt limit)
  obtain ⟨count, isCount, value⟩ := calculateTotalPacketCount_eq
    (by rw [length]; exact transfer.nonempty) (by rw [length]; exact transfer.describable)
  obtain rfl := Except.ok.inj (isCount.symm.trans transfer.counted)
  rw [value, length]

theorem carried_chunk (id : ℕ) :
    Packet.carried (chunk transfer.file id) = transfer.front id := by
  have longer : Packet.payloadRoom - packetPayloadSize = 0 := by decide
  rw [Packet.carried, length_chunk, longer, List.replicate_zero, List.append_nil, front]

theorem datagram_eq (id : ℕ) :
    transfer.datagram id = transfer.sender.header.wire transfer.senderOrder ++
      (Packet.serialize transfer.senderOrder ⟨UInt64.ofNat id,
        transfer.crc32 (chunk transfer.file id), chunk transfer.file id⟩).cells := by
  rw [datagram, transfer.sender.datagram_eq id (length_chunk transfer.file id)]
  rfl

/-- The message that the receiver decodes. -/
theorem receive_datagram (id : ℕ) :
    ∃ header : Header, header.connectionId = transfer.connectionId ∧ header.keyword = .packet ∧
      UdpWrapper.receive transfer.receiverOrder (transfer.datagram id) =
        .ok ⟨header, some (.packet (transfer.delivered id))⟩ := by
  set cells := (Packet.serialize transfer.senderOrder ⟨UInt64.ofNat id,
    transfer.crc32 (chunk transfer.file id), chunk transfer.file id⟩).cells with cellsAre
  have width : cells.length = packetSize := by
    rw [cellsAre, Packet.cells_serialize, List.length_append, List.length_append,
      FixedWidth.length_highFirst, Packet.length_checksumField, Packet.length_carried]
    rfl
  have whole : (transfer.sender.header.wire transfer.senderOrder).length = Header.size :=
    Header.length_wire _ _
  have length : (transfer.datagram id).length = packetMessageSize := by
    rw [datagram_eq, List.length_append, whole, width]
    rfl
  have read := Header.read_wire transfer.senderOrder transfer.receiverOrder transfer.sender.header
  refine ⟨Header.read transfer.receiverOrder
    (transfer.sender.header.wire transfer.senderOrder), by rw [read]; rfl, by rw [read]; rfl, ?_⟩
  -- A reader of the other kind finds a body size of zero, which is not too large either.
  have announced : (Header.read transfer.receiverOrder
      (transfer.sender.header.wire transfer.senderOrder)).bodySize.toNat ≤ packetSize := by
    rw [read, Header.readBodySize_bodySizeField]
    split_ifs
    · exact Nat.mod_le _ _
    · exact Nat.zero_le _
  have nonempty : ¬ packetMessageSize ≤ 0 := by decide
  have keyword : (Header.read transfer.receiverOrder
      (transfer.sender.header.wire transfer.senderOrder)).keyword = .packet := by rw [read]; rfl
  rw [UdpWrapper.receive, List.take_of_length_le length.le, length, if_neg nonempty, datagram_eq,
    Message.ofData_append _ whole, ← cellsAre, width, if_neg (Nat.not_lt.mpr announced), keyword,
    Body.createBody, cellsAre, Packet.ofData_serialize, carried_chunk]
  rfl

@[simp] theorem payload_delivered (id : ℕ) :
    (transfer.delivered id).payload = transfer.front id := by
  rw [delivered]

theorem toNat_checksum_delivered (id : ℕ) :
    (transfer.delivered id).checksum.toNat = transfer.checksumRead id :=
  Packet.readChecksum_checksumField _ _ _

theorem toNat_seqId_delivered {id : ℕ} (below : id < transfer.packetCount.toNat) :
    (transfer.delivered id).seqId.toNat = id := by
  -- The id has 32 bits, and the field has 64.
  have narrow := transfer.packetCount.toNat_lt
  exact UInt64.toNat_ofNat_of_lt' (below.trans (narrow.trans (by decide)))

/-- A datagram is accepted when the front of its chunk has the checksum read. -/
theorem accepted?_datagram {id : ℕ} (below : id < transfer.packetCount.toNat) :
    transfer.receiver.accepted? (.datagram (transfer.datagram id)) =
      if (transfer.crc32 (transfer.front id)).toNat = transfer.checksumRead id then
        some (transfer.delivered id)
      else none := by
  obtain ⟨header, mine, keyword, received⟩ := transfer.receive_datagram id
  have accepts : transfer.receiver.Accepts ⟨header, some (.packet (transfer.delivered id))⟩
      (transfer.delivered id) ↔
        (transfer.crc32 (transfer.front id)).toNat = transfer.checksumRead id := by
    rw [← toNat_checksum_delivered, UInt32.toNat_inj, ← payload_delivered]
    -- The first three conditions hold of every datagram, the fourth of these ids.
    constructor
    · rintro ⟨-, -, -, -, valid⟩
      exact valid
    · intro valid
      refine ⟨mine, keyword, rfl, ?_, valid⟩
      rw [toNat_seqId_delivered _ below]
      exact below
  have order : transfer.receiver.order = transfer.receiverOrder := rfl
  simp only [Receiver.accepted?, order, received]
  exact if_congr accepts rfl rfl

/-! ### All datagrams -/

/-- The checksums decide whether every datagram is accepted. -/
theorem all_accepted_iff :
    (∀ id ∈ transfer.delivery,
      (transfer.receiver.accepted? (.datagram (transfer.datagram id))).isSome) ↔
      ∀ id < transfer.packetCount.toNat,
        (transfer.crc32 (transfer.front id)).toNat = transfer.checksumRead id := by
  simp only [transfer.complete]
  refine forall_congr' fun id => forall_congr' fun below => ?_
  rw [transfer.accepted?_datagram below]
  split_ifs with valid
  · exact iff_of_true rfl valid
  · exact iff_of_false (by simp) valid

/-- What the receiver accepts when it accepts every datagram. -/
theorem accepted_rounds (checksums : ∀ id < transfer.packetCount.toNat,
    (transfer.crc32 (transfer.front id)).toNat = transfer.checksumRead id) :
    transfer.receiver.accepted transfer.rounds =
      transfer.delivery.map transfer.delivered := by
  have each {id : ℕ} (listed : id ∈ transfer.delivery) :
      transfer.receiver.accepted? (.datagram (transfer.datagram id)) =
        some (transfer.delivered id) := by
    have below := (transfer.complete id).mp listed
    rw [transfer.accepted?_datagram below, if_pos (checksums id below)]
  -- No datagram ends the loop, so every round is handled.
  have running : ∀ round ∈ transfer.rounds, transfer.receiver.flow round = .running := by
    intro round listed
    obtain ⟨id, delivered, rfl⟩ := List.mem_map.mp listed
    exact transfer.receiver.flow_of_accepted? (each delivered)
  rw [Receiver.accepted, transfer.receiver.handled_eq_self running, rounds, List.filterMap_map]
  rw [← List.filterMap_eq_map]
  apply List.filterMap_congr
  intro id listed
  simp only [Function.comp_apply, each listed]

/-! ### The output -/

/-- The pieces of the file that arrive. -/
def pieces : List (Piece Byte) :=
  transfer.delivery.map fun id => Received.piece (transfer.delivered id)

theorem offset_delivered {id : ℕ} (below : id < transfer.packetCount.toNat) :
    (Received.piece (transfer.delivered id)).offset = packetPayloadSize * id := by
  have sameId := transfer.toNat_seqId_delivered below
  have inRange : (transfer.delivered id).seqId.toNat < transfer.packetCount.toNat := by
    rwa [sameId]
  rw [Received.offset_piece inRange, sameId]

theorem length_front (id : ℕ) : (transfer.front id).length = Packet.payloadRoom := by
  rw [front, List.length_take, length_chunk]
  rfl

/-- The positions of a piece are those of its slot but the last two. -/
theorem covers_delivered_iff {id j : ℕ} (below : id < transfer.packetCount.toNat) :
    (Received.piece (transfer.delivered id)).Covers j ↔
      j / packetPayloadSize = id ∧ j % packetPayloadSize < Packet.payloadRoom := by
  have room : Packet.payloadRoom = 1173 := rfl
  rw [Piece.Covers, transfer.offset_delivered below, Received.data_piece, payload_delivered,
    length_front, packetPayloadSize, room]
  omega

/-- Every piece is part of the file with zeros behind its end. -/
theorem partOf_file {p : Piece Byte} (listed : p ∈ transfer.pieces) :
    p.PartOf 0 transfer.file := by
  obtain ⟨id, delivered, rfl⟩ := List.mem_map.mp listed
  have below := (transfer.complete id).mp delivered
  intro j covers
  obtain ⟨slot, before⟩ := (transfer.covers_delivered_iff below).mp covers
  have room : Packet.payloadRoom < packetPayloadSize := by decide
  have inSlot : j - packetPayloadSize * id = j % packetPayloadSize := by
    rw [← slot]
    exact Nat.sub_eq_of_eq_add (Nat.mod_add_div j packetPayloadSize).symm
  rw [Piece.cell, transfer.offset_delivered below, Received.data_piece, payload_delivered, inSlot,
    Piece.cellAt, front, List.getElem?_take_of_lt before,
    getElem?_chunk transfer.file id (before.trans room), Piece.cellAt, ← slot, Nat.div_add_mod]

/-- Where the pieces end: behind the front of the last slot. -/
theorem length_writeAll_pieces :
    (Piece.writeAll 0 [] transfer.pieces).length =
      packetPayloadSize * (transfer.packetCount.toNat - 1) + Packet.payloadRoom := by
  have positive : 0 < transfer.packetCount.toNat := by
    have nonempty := transfer.nonempty
    rw [toNat_packetCount]
    omega
  apply eq_of_forall_lt_iff
  intro m
  rw [Piece.lt_length_writeAll]
  constructor
  · rintro (nothing | ⟨p, listed, -, inside⟩)
    · exact absurd nothing (Nat.not_lt_zero m)
    -- No piece ends behind the one of the last id.
    · obtain ⟨id, delivered, rfl⟩ := List.mem_map.mp listed
      have below := (transfer.complete id).mp delivered
      rw [transfer.offset_delivered below, Received.data_piece, payload_delivered,
        length_front] at inside
      have last := Nat.mul_le_mul_left packetPayloadSize (Nat.le_pred_of_lt below)
      exact inside.trans_le (Nat.add_le_add_right last _)
  · intro inside
    -- The last id is delivered at least once.
    have below : transfer.packetCount.toNat - 1 < transfer.packetCount.toNat :=
      Nat.sub_lt positive Nat.one_pos
    refine Or.inr ⟨_, List.mem_map_of_mem ((transfer.complete _).mpr below), ?_, ?_⟩
    · rw [Received.data_piece, payload_delivered, ← List.length_pos_iff, length_front]
      decide
    · rwa [transfer.offset_delivered below, Received.data_piece, payload_delivered, length_front]

/-- The pieces rebuild the file when it ends with the front of a slot and holds
zeros behind the front of every other. -/
theorem writeAll_pieces_eq_iff :
    Piece.writeAll 0 [] transfer.pieces = transfer.file ↔
      transfer.file.length % packetPayloadSize = Packet.payloadRoom ∧
        ∀ j < transfer.file.length, Packet.payloadRoom ≤ j % packetPayloadSize →
          transfer.file[j]? = some 0 := by
  have count := transfer.toNat_packetCount
  have room : Packet.payloadRoom = 1173 := rfl
  have stride : packetPayloadSize = 1175 := rfl
  -- The length is right when the last chunk is as long as a front.
  have ends : (Piece.writeAll 0 [] transfer.pieces).length = transfer.file.length ↔
      transfer.file.length % packetPayloadSize = Packet.payloadRoom := by
    have nonempty := transfer.nonempty
    rw [length_writeAll_pieces, room, stride]
    omega
  rw [Piece.writeAll_nil_eq_iff 0 fun p listed => transfer.partOf_file listed, ends]
  refine and_congr_right fun _ => forall_congr' fun j => forall_congr' fun inside => ?_
  -- The bytes nobody writes are the last two of each slot.
  have uncovered : (∀ p ∈ transfer.pieces, ¬ p.Covers j) ↔
      Packet.payloadRoom ≤ j % packetPayloadSize := by
    constructor
    · intro uncovered
      by_contra before
      have below : j / packetPayloadSize < transfer.packetCount.toNat := by
        rw [count, stride]
        omega
      exact uncovered _ (List.mem_map_of_mem ((transfer.complete _).mpr below))
        ((transfer.covers_delivered_iff below).mpr ⟨rfl, Nat.lt_of_not_le before⟩)
    · intro behind p listed covers
      obtain ⟨id, delivered, rfl⟩ := List.mem_map.mp listed
      have before := ((transfer.covers_delivered_iff
        ((transfer.complete id).mp delivered)).mp covers).2
      exact absurd before (Nat.not_lt_of_le behind)
  rw [uncovered, Piece.cellAt_of_lt 0 inside, List.getElem?_eq_getElem inside, Option.some_inj]

/-! ### The transfer -/

/-- A transfer is faithful exactly when it loses nothing that matters. -/
theorem faithful_iff_lossless : transfer.Faithful ↔ transfer.Lossless := by
  have output (checksums : ∀ id < transfer.packetCount.toNat,
      (transfer.crc32 (transfer.front id)).toNat = transfer.checksumRead id) :
      transfer.final.fileStream = Piece.writeAll 0 [] transfer.pieces := by
    rw [final, Receiver.receivePackets_eq, transfer.accepted_rounds checksums,
      Received.fileStream_foldl_put, List.map_map]
    rfl
  constructor
  · rintro ⟨accepted, -, restored⟩
    -- Only what is accepted is written, so the checksums come first.
    have checksums := transfer.all_accepted_iff.mp accepted
    rw [output checksums] at restored
    obtain ⟨ends, zeros⟩ := transfer.writeAll_pieces_eq_iff.mp restored
    exact ⟨ends, zeros, checksums⟩
  · rintro ⟨ends, zeros, checksums⟩
    refine ⟨transfer.all_accepted_iff.mpr checksums, ?_, ?_⟩
    · apply (transfer.receiver.all_received_iff transfer.rounds).mpr
      intro id below
      rw [transfer.accepted_rounds checksums]
      exact ⟨_, List.mem_map_of_mem ((transfer.complete id).mpr below),
        transfer.toNat_seqId_delivered below⟩
    · rw [output checksums]
      exact transfer.writeAll_pieces_eq_iff.mpr ⟨ends, zeros⟩

/-- No datagram is built inside the bounds of the encoder's vector. Apart from
that, the transfer is faithful exactly when what it drops does not matter. -/
theorem unbounded_and_faithful_iff :
    (∀ id < transfer.packetCount.toNat, ∃ cells,
      transfer.sender.datagram id (chunk transfer.file id) = .ok ⟨cells, false⟩) ∧
      (transfer.Faithful ↔ transfer.Lossless) := by
  constructor
  · intro id _
    exact ⟨_, transfer.sender.datagram_eq id (length_chunk transfer.file id)⟩
  · exact transfer.faithful_iff_lossless

/-- A file of one byte, delivered once, with a checksum function that never
rejects. -/
def oneByte : Transfer where
  senderOrder := .little
  receiverOrder := .little
  crc32 := fun _ => 0
  version := 1
  connectionId := 7
  file := [1]
  packetCount := 1
  delivery := [0]
  nonempty := by decide
  describable := by decide
  counted := by decide
  complete := by
    intro id
    rw [List.mem_singleton, show (1 : PacketCount).toNat = 1 from rfl, Nat.lt_one_iff]

/-- The one byte arrives with the zeros of its buffer. -/
theorem not_faithful_oneByte : ¬ oneByte.Faithful := by
  rw [faithful_iff_lossless]
  intro lossless
  exact absurd lossless.ends (by decide)

end Transfer

end Fup.Client
