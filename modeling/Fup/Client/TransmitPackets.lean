/-
# The sending end of a transfer

`TransmitPackets` reads one chunk of the file into a buffer of zeros, takes the
checksum of the whole buffer and sends it as a packet. The buffer is two bytes
longer than the room that the packet's encoder has for it.
-/

import Fup.Communications
import Fup.Lib.InputStream
import Fup.Message.RoundTrip
import Fup.Utils

namespace Fup.Client

/-- What the packets of one transmission have in common. -/
structure Sender where
  order : ByteOrder
  crc32 : List Byte → Checksum
  version : Version
  connectionId : ConnectionId

/-- The vector `buffer` after `read` has filled its front. -/
def payloadBuffer (bytes : List Byte) : List Byte :=
  ((Buffer.fill packetPayloadSize 0).memcpy 0 bytes).cells

/-- The chunk of a file that belongs to a sequence id, in its buffer. -/
def chunk (file : List Byte) (id : ℕ) : List Byte :=
  payloadBuffer ((InputStream.ofFile file).readAt (id * packetPayloadSize) packetPayloadSize).2

namespace Sender

variable (sender : Sender)

def packetMessage (nextSeqId : ℕ) (buffer : List Byte) : Except Failure Message :=
  let checksum := sender.crc32 buffer
  Message.ofBody ⟨sender.version, sender.connectionId, .packet, 0⟩
    (some (.packet ⟨UInt64.ofNat nextSeqId, checksum, buffer⟩))

/-- The vector that `UdpWrapper::Send` passes to the socket. -/
def datagram (nextSeqId : ℕ) (buffer : List Byte) : Except Failure (Buffer Byte) := do
  let packet ← sender.packetMessage nextSeqId buffer
  packet.serialize sender.order

end Sender

/-! ### Chunks -/

theorem payloadBuffer_eq {bytes : List Byte} (short : bytes.length ≤ packetPayloadSize) :
    payloadBuffer bytes =
      bytes ++ List.replicate (packetPayloadSize - bytes.length) 0 := by
  rw [payloadBuffer, Buffer.fill_memcpy_zero, List.take_of_length_le short]

theorem chunk_eq (file : List Byte) (id : ℕ) :
    chunk file id =
      payloadBuffer ((file.drop (id * packetPayloadSize)).take packetPayloadSize) := by
  have good : (InputStream.ofFile file).failbit = false := rfl
  rw [chunk, (InputStream.readAt_of_good good _ _).1]
  rfl

@[simp] theorem length_payloadBuffer (bytes : List Byte) :
    (payloadBuffer bytes).length = packetPayloadSize := by
  rw [payloadBuffer, Buffer.length_cells_memcpy, Buffer.cells_fill, List.length_replicate]

@[simp] theorem length_chunk (file : List Byte) (id : ℕ) :
    (chunk file id).length = packetPayloadSize := length_payloadBuffer _

/-- A chunk holds what the file holds, and zeros past its end. -/
theorem getElem?_chunk (file : List Byte) (id : ℕ) {k : ℕ} (inside : k < packetPayloadSize) :
    (chunk file id)[k]?.getD 0 = file[packetPayloadSize * id + k]?.getD 0 := by
  set bytes := (file.drop (id * packetPayloadSize)).take packetPayloadSize with bytesAre
  have short : bytes.length ≤ packetPayloadSize := List.length_take_le _ _
  have cell : bytes[k]? = file[packetPayloadSize * id + k]? := by
    rw [bytesAre, List.getElem?_take_of_lt inside, List.getElem?_drop, Nat.mul_comm]
  rw [chunk_eq, payloadBuffer_eq short, ← cell]
  by_cases read : k < bytes.length
  · rw [List.getElem?_append_left read]
  · have past : bytes.length ≤ k := Nat.le_of_not_lt read
    rw [List.getElem?_append_right past, List.getElem?_replicate, if_pos (by omega),
      List.getElem?_eq_none past, Option.getD_some, Option.getD_none]

/-! ### Datagrams -/

namespace Sender

variable (sender : Sender)

/-- The header of every datagram. -/
def header : Header :=
  ⟨sender.version, sender.connectionId, .packet, UInt64.ofNat packetSize⟩

/-- The datagram of a full buffer: the last two payload bytes are copied behind
the end of the encoder's vector and are lost to the datagram. -/
theorem datagram_eq (nextSeqId : ℕ) {buffer : List Byte}
    (full : buffer.length = packetPayloadSize) :
    sender.datagram nextSeqId buffer =
      .ok ⟨sender.header.wire sender.order ++
        (Packet.serialize sender.order
          ⟨UInt64.ofNat nextSeqId, sender.crc32 buffer, buffer⟩).cells, false⟩ := by
  set packet : Packet := ⟨UInt64.ofNat nextSeqId, sender.crc32 buffer, buffer⟩ with packetIs
  have sized : (packet.serialize sender.order).cells.length = (Body.packet packet).size.toNat := by
    rw [Packet.cells_serialize, List.length_append, List.length_append,
      FixedWidth.length_highFirst,
      Packet.length_checksumField, Packet.length_carried]
    rfl
  -- Two bytes more than there is room for.
  have outside : (packet.serialize sender.order).inBounds = false := by
    rw [Packet.serialize_eq, full]
    rfl
  have small : (Body.packet packet).size.toNat < 2 ^ 63 := by
    change (UInt64.ofNat packetSize).toNat < 2 ^ 63
    decide
  have present : (Message.mk sender.header (some (.packet packet))).body =
      some (.packet packet) := rfl
  have encoded := Message.serialize_eq sender.order present rfl sized small
  rw [outside] at encoded
  exact encoded

end Sender

end Fup.Client
