/-
# Receiving messages

A datagram is read into a buffer of the size of a whole message, so nothing
behind that size arrives. It becomes a message, or an exception.
-/

import Fup.Message.Wire

namespace Fup

/-- Only the decoder of packets makes a packet. -/
theorem Body.ofData_of_createBody {order : ByteOrder} {keyword : Keyword} {data : List Byte}
    {packet : Packet} (created : createBody order keyword data = .ok (.packet packet)) :
    Packet.ofData order data = .ok packet := by
  cases keyword with
  | packet =>
    obtain ⟨inside, decoded, same⟩ := map_eq_ok.mp created
    exact Body.packet.inj same ▸ decoded
  | files | download | upload | resend =>
    obtain ⟨_, -, same⟩ := map_eq_ok.mp created
    cases same
  | listFiles | ack | abort | unnamed => cases created

namespace Message

/-- Decoding data that starts with a whole header. -/
theorem ofData_append (order : ByteOrder) {front rest : List Byte}
    (whole : front.length = Header.size) :
    ofData order (front ++ rest) =
      if rest.length < (Header.read order front).bodySize.toNat then
        .error (.exception "fup::Message: Insufficient data")
      else (Body.createBody order (Header.read order front).keyword rest).map fun body =>
        ⟨Header.read order front, some body⟩ := by
  have length : (front ++ rest).length = Header.size + rest.length := by
    rw [List.length_append, whole]
  have enough : ¬ (front ++ rest).length < Header.size := by
    rw [length]
    exact Nat.not_lt.mpr (Nat.le_add_right _ _)
  rw [ofData, if_neg enough, Header.ofData_eq order (Nat.le_of_not_lt enough), ok_bind, length,
    Nat.add_sub_cancel_left, Header.read_append order whole.ge, bodyRange, if_neg enough, ok_bind,
    List.drop_left' whole]
  -- Both sides compare the announced size with what is behind the header.
  split_ifs with truncated
  · rfl
  · cases Body.createBody order (Header.read order front).keyword rest <;> rfl

/-- What a decoded message says about its data. -/
theorem ofData_eq_ok {order : ByteOrder} {data : List Byte} {message : Message}
    (decoded : ofData order data = .ok message) :
    Header.size ≤ data.length ∧ message.header = Header.read order data ∧
      message.header.bodySize.toNat ≤ data.length - Header.size ∧
      ∃ body, message.body = some body ∧
        Body.createBody order message.header.keyword (data.drop Header.size) = .ok body := by
  rw [ofData] at decoded
  split_ifs at decoded with short
  have enough : Header.size ≤ data.length := Nat.le_of_not_lt short
  rw [Header.ofData_eq order enough, ok_bind] at decoded
  split_ifs at decoded with truncated
  rw [bodyRange, if_neg short, ok_bind] at decoded
  cases created : Body.createBody order (Header.read order data).keyword
      (data.drop Header.size) with
  | error failure =>
    rw [created] at decoded
    cases decoded
  | ok body =>
    rw [created] at decoded
    obtain rfl := Except.ok.inj decoded
    exact ⟨enough, rfl, Nat.le_of_not_lt truncated, body, rfl, created⟩

/-- A packet message carries everything behind the header, the sequence id and
the checksum. -/
theorem packet_of_ofData {order : ByteOrder} {data : List Byte} {message : Message}
    {packet : Packet} (decoded : ofData order data = .ok message)
    (carried : message.body = some (.packet packet)) :
    packet.payload = data.drop 27 ∧ 27 ≤ data.length := by
  obtain ⟨enough, -, -, body, present, created⟩ := ofData_eq_ok decoded
  obtain rfl := Option.some.inj (present.symm.trans carried)
  have fields := Body.ofData_of_createBody created
  rw [Packet.ofData_eq] at fields
  split_ifs at fields with short
  have fields := Except.ok.inj fields
  have split : (data.drop Header.size).drop 12 = data.drop 27 := List.drop_drop
  rw [List.length_drop] at short
  have fifteen : 15 ≤ data.length := enough
  have size : Header.size = 15 := rfl
  exact ⟨by rw [← fields, ← split], by omega⟩

end Message

/-- `UdpWrapper::Receive` on a datagram that `recvfrom` delivers. -/
def UdpWrapper.receive (order : ByteOrder) (datagram : List Byte) : Except Failure Message :=
  let buffer := datagram.take packetMessageSize
  if buffer.length ≤ 0 then .error (.exception "UdpWrapper::Receive: No data received.")
  else Message.ofData order buffer

theorem UdpWrapper.ofData_of_receive {order : ByteOrder} {datagram : List Byte}
    {message : Message} (received : receive order datagram = .ok message) :
    Message.ofData order (datagram.take packetMessageSize) = .ok message := by
  rw [receive] at received
  split_ifs at received
  exact received

/-- The payload of a packet that arrives in a datagram: what the buffer leaves
room for behind the header, the sequence id and the checksum. -/
theorem UdpWrapper.payload_of_receive {order : ByteOrder} {datagram : List Byte}
    {message : Message} {packet : Packet} (received : receive order datagram = .ok message)
    (carried : message.body = some (.packet packet)) :
    packet.payload = (datagram.take packetMessageSize).drop 27 ∧
      packet.payload.length ≤ Packet.payloadRoom := by
  obtain ⟨payload, -⟩ := Message.packet_of_ofData (ofData_of_receive received) carried
  refine ⟨payload, ?_⟩
  have size : packetMessageSize = Packet.payloadRoom + 27 := rfl
  rw [payload, List.length_drop, List.length_take, size]
  omega

end Fup
