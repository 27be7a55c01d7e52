/-
# What one host reads of what another writes

A field in network order is read back as it was written. The two fields that
are converted at half their width lose their high half between hosts of one
kind, and everything between hosts of two kinds. A packet also loses the payload
bytes without room, and gains zeros up to it.
-/

import Fup.Message.Wire

namespace Fup

open FixedWidth

/-! ### Fields -/

/-- Cutting a field out of what stands around it. -/
theorem slice_append (front field rest : List Byte) :
    ((front ++ (field ++ rest)).drop front.length).take field.length = field := by
  rw [List.drop_left, List.take_left]

section Fields

variable (front rest : List Byte) {offset : ℕ} (starts : front.length = offset)

include starts

theorem field16_highFirst (x : UInt16) :
    field16 (front ++ (highFirst 2 x.toNat ++ rest)) offset = x := by
  have cut := slice_append front (highFirst 2 x.toNat) rest
  have fits : x.toNat < 256 ^ 2 := x.toNat_lt
  rw [starts, length_highFirst] at cut
  rw [field16, cut, ofHighFirst_highFirst, Nat.mod_eq_of_lt fits, UInt16.ofNat_toNat]

theorem field32_highFirst (x : UInt32) :
    field32 (front ++ (highFirst 4 x.toNat ++ rest)) offset = x := by
  have cut := slice_append front (highFirst 4 x.toNat) rest
  have fits : x.toNat < 256 ^ 4 := x.toNat_lt
  rw [starts, length_highFirst] at cut
  rw [field32, cut, ofHighFirst_highFirst, Nat.mod_eq_of_lt fits, UInt32.ofNat_toNat]

theorem field64_highFirst (x : UInt64) :
    field64 (front ++ (highFirst 8 x.toNat ++ rest)) offset = x := by
  have cut := slice_append front (highFirst 8 x.toNat) rest
  have fits : x.toNat < 256 ^ 8 := x.toNat_lt
  rw [starts, length_highFirst] at cut
  rw [field64, cut, ofHighFirst_highFirst, Nat.mod_eq_of_lt fits, UInt64.ofNat_toNat]

end Fields

/-- The half that a host reads of a value that a host wrote at half width. -/
theorem half_read (writer reader : ByteOrder) {w n : ℕ} (fits : n < 256 ^ w) :
    let field := match writer with
      | .little => highFirst w n ++ List.replicate w 0
      | .big => List.replicate w 0 ++ highFirst w n
    (match reader with
      | .little => ofHighFirst (field.take w)
      | .big => ofHighFirst (field.drop w)) = if writer = reader then n else 0 := by
  have value : ofHighFirst (highFirst w n) = n := by
    rw [ofHighFirst_highFirst, Nat.mod_eq_of_lt fits]
  have zeros : ofHighFirst (List.replicate w 0) = 0 := by
    have zero := ofHighFirst_highFirst w 0
    rwa [highFirst, lowFirst_zero, List.reverse_replicate, Nat.zero_mod] at zero
  have width : (highFirst w n).length = w := length_highFirst w n
  have padding : (List.replicate w (0 : UInt8)).length = w := List.length_replicate
  -- A reader of the other kind looks at the half that the writer has padded.
  cases writer with
  | little =>
    cases reader with
    | little => simpa only [List.take_left' width, if_pos] using value
    | big => simpa only [List.drop_left' width, reduceCtorEq, if_false] using zeros
  | big =>
    cases reader with
    | little => simpa only [List.take_left' padding, reduceCtorEq, if_false] using zeros
    | big => simpa only [List.drop_left' padding, if_pos] using value

/-! ### Header -/

namespace Header

theorem readBodySize_bodySizeField (writer reader : ByteOrder) (bodySize : BodySize) :
    (readBodySize reader (bodySizeField writer bodySize)).toNat =
      if writer = reader then bodySize.toNat % 2 ^ 32 else 0 := by
  have fits : bodySize.toNat % 2 ^ 32 < 256 ^ 4 := Nat.mod_lt _ (by decide)
  have half := half_read writer reader fits
  have narrow : (if writer = reader then bodySize.toNat % 2 ^ 32 else 0) < 2 ^ 32 := by
    split_ifs
    · exact fits
    · exact Nat.two_pow_pos 32
  rw [← half] at narrow ⊢
  cases writer <;> cases reader <;>
    exact (UInt32.toNat_toUInt64 _).trans (UInt32.toNat_ofNat_of_lt' narrow)

/-- The header that arrives: only the body size may have changed. -/
theorem read_wire (writer reader : ByteOrder) (header : Header) :
    read reader (header.wire writer) =
      { header with
        bodySize := readBodySize reader (bodySizeField writer header.bodySize) } := by
  set version := highFirst 2 header.version.toNat with versionIs
  set connectionId := highFirst 4 header.connectionId.toNat with connectionIdIs
  set bodySize := bodySizeField writer header.bodySize with bodySizeIs
  have layout : header.wire writer =
      version ++ (connectionId ++ ([header.keyword.toByte] ++ bodySize)) := by
    rw [wire, List.append_assoc, List.append_assoc]
  have width : version.length = 2 := length_highFirst 2 _
  have width' : (version ++ connectionId).length = 6 := by simp [versionIs, connectionIdIs]
  -- Each read skips the fields in front of its own.
  have readVersion : field16 (header.wire writer) 0 = header.version := by
    rw [layout]
    exact field16_highFirst [] _ rfl header.version
  have readConnectionId : field32 (header.wire writer) 2 = header.connectionId := by
    rw [layout]
    exact field32_highFirst version _ width header.connectionId
  have readKeyword : ((header.wire writer).drop 6).take 1 = [header.keyword.toByte] := by
    rw [layout, ← List.append_assoc, List.drop_left' width']
    rfl
  have readSize : ((header.wire writer).drop 7).take 8 = bodySize := by
    have width'' : (version ++ connectionId ++ [header.keyword.toByte]).length = 7 := by
      rw [List.length_append, width', List.length_singleton]
    rw [layout, ← List.append_assoc, ← List.append_assoc, List.drop_left' width'',
      List.take_of_length_le (length_bodySizeField writer header.bodySize).le]
  simp only [read, readVersion, readConnectionId, readKeyword, readSize, List.headD_cons,
    Keyword.ofByte_toByte]

end Header

/-! ### Packet -/

namespace Packet

theorem readChecksum_checksumField (writer reader : ByteOrder) (checksum : Checksum) :
    (readChecksum reader (checksumField writer checksum)).toNat =
      if writer = reader then checksum.toNat % 2 ^ 16 else 0 := by
  have fits : checksum.toNat % 2 ^ 16 < 256 ^ 2 := Nat.mod_lt _ (by decide)
  have half := half_read writer reader fits
  have narrow : (if writer = reader then checksum.toNat % 2 ^ 16 else 0) < 2 ^ 16 := by
    split_ifs
    · exact fits
    · exact Nat.two_pow_pos 16
  rw [← half] at narrow ⊢
  cases writer <;> cases reader <;>
    exact (UInt16.toNat_toUInt32 _).trans (UInt16.toNat_ofNat_of_lt' narrow)

/-- The payload that the encoder leaves in its buffer: cut where there is no
room, and padded up to it. -/
def carried (payload : List Byte) : List Byte :=
  payload.take payloadRoom ++ List.replicate (payloadRoom - payload.length) 0

@[simp] theorem length_carried (payload : List Byte) :
    (carried payload).length = payloadRoom := by
  simp only [carried, List.length_append, List.length_take, List.length_replicate]
  omega

theorem carried_eq_self_iff (payload : List Byte) :
    carried payload = payload ↔ payload.length = payloadRoom := by
  constructor
  · intro same
    rw [← same, length_carried]
  · intro full
    rw [carried, List.take_of_length_le full.le, full, Nat.sub_self, List.replicate_zero,
      List.append_nil]

/-- The encoder's buffer, field by field. -/
theorem cells_serialize (order : ByteOrder) (packet : Packet) :
    (packet.serialize order).cells =
      highFirst 8 packet.seqId.toNat ++ (checksumField order packet.checksum ++
        carried packet.payload) := by
  have front : (highFirst 8 packet.seqId.toNat ++
      checksumField order packet.checksum).length = 12 := by simp
  have room : packetSize = 12 + payloadRoom := rfl
  rw [serialize_eq, fields, carried, room, ← front, List.take_length_add_append,
    List.append_assoc, List.append_assoc]

/-- The packet that arrives. -/
theorem ofData_serialize (writer reader : ByteOrder) (packet : Packet) :
    ofData reader (packet.serialize writer).cells =
      .ok { packet with
        checksum := readChecksum reader (checksumField writer packet.checksum)
        payload := carried packet.payload } := by
  set seqId := highFirst 8 packet.seqId.toNat with seqIdIs
  set checksum := checksumField writer packet.checksum with checksumIs
  have width : seqId.length = 8 := length_highFirst 8 _
  have width' : checksum.length = 4 := length_checksumField _ _
  have width'' : (seqId ++ checksum).length = 12 := by rw [List.length_append, width, width']
  have long : ¬ (seqId ++ (checksum ++ carried packet.payload)).length < 12 := by
    rw [← List.append_assoc, List.length_append, width'']
    exact Nat.not_lt.mpr (Nat.le_add_right 12 _)
  have readSeqId : field64 (seqId ++ (checksum ++ carried packet.payload)) 0 = packet.seqId :=
    field64_highFirst [] _ rfl packet.seqId
  have readField : ((seqId ++ (checksum ++ carried packet.payload)).drop 8).take 4 = checksum := by
    rw [List.drop_left' width, List.take_left' width']
  have readPayload : (seqId ++ (checksum ++ carried packet.payload)).drop 12 =
      carried packet.payload := by
    rw [← List.append_assoc, List.drop_left' width'']
  rw [cells_serialize, ofData_eq, if_neg long, readSeqId, readField, readPayload]

end Packet

/-! ### Message -/

namespace Message

/-- The encoder puts the body behind the header. -/
theorem serialize_eq (order : ByteOrder) {message : Message} {body : Body} {buf : Buffer Byte}
    (carried : message.body = some body) (encoded : body.serialize order = .ok buf)
    (sized : buf.cells.length = body.size.toNat) (small : body.size.toNat < 2 ^ 63) :
    message.serialize order =
      .ok ⟨message.header.wire order ++ buf.cells, buf.inBounds⟩ := by
  -- A body this small does not wrap the size of the message.
  have total : (UInt64.ofNat Header.size + body.size).toNat =
      Header.size + body.size.toNat := by
    have header : (UInt64.ofNat Header.size).toNat = Header.size := rfl
    rw [UInt64.toNat_add, header]
    refine Nat.mod_eq_of_lt ?_
    have fifteen : Header.size = 15 := rfl
    omega
  have length : (message.header.wire order ++ buf.cells).length =
      Header.size + body.size.toNat := by
    rw [List.length_append, Header.length_wire, sized]
  simp only [serialize, size, carried, ok_bind, encoded, Header.serialize_eq, total]
  rw [Buffer.memcpy_next _ _ _ _ (Nat.zero_add _), Buffer.fill_memcpy_zero, length, Nat.sub_self,
    List.replicate_zero, List.append_nil, List.take_of_length_le length.le, decide_eq_true le_rfl]
  rfl

/-- A vector with room for a header begins with it, whatever the body. -/
theorem take_of_serialize {order : ByteOrder} {message : Message} {buf : Buffer Byte}
    (encoded : message.serialize order = .ok buf) (enough : Header.size ≤ buf.cells.length) :
    buf.cells.take Header.size = message.header.wire order := by
  have width := Header.length_wire order message.header
  cases carried : message.body with
  | none =>
    rw [serialize, size, carried] at encoded
    cases encoded
  | some body =>
    simp only [serialize, size, carried, ok_bind, Header.serialize_eq] at encoded
    cases written : body.serialize order with
    | error failure =>
      rw [written] at encoded
      cases encoded
    | ok inner =>
      rw [written, ok_bind, Buffer.memcpy_next _ _ _ _ (Nat.zero_add _),
        Buffer.fill_memcpy_zero] at encoded
      obtain rfl := Except.ok.inj encoded
      have room : Header.size ≤ (UInt64.ofNat Header.size + body.size).toNat := by
        rw [List.length_append, List.length_take, List.length_replicate] at enough
        omega
      have long : Header.size ≤ ((message.header.wire order ++ inner.cells).take
          (UInt64.ofNat Header.size + body.size).toNat).length := by
        rw [List.length_take, List.length_append, width]
        exact Nat.le_min.mpr ⟨room, Nat.le_add_right _ _⟩
      -- What is copied behind the header leaves it as it is.
      rw [List.take_append_of_le_length long, List.take_take, Nat.min_eq_left room,
        List.take_left' width]

end Message

end Fup
