/-
# What encoders write and decoders read

Each encoder's copies are adjacent, so its buffer is one copy of the fields in
order. Each decoder's copies are in range once its size checks have passed, so
it returns the fields of fixed ranges of the data. A field converted at its own
width is in network order and no host matters. The body size of a header and
the checksum of a packet are converted at half their width: there the host
decides which half holds the value.
-/

import Fup.Message

namespace Fup

open FixedWidth

/-! ### Fields in network order -/

section Fields

variable (data : List Byte)

/-- The field of two bytes at an offset. -/
def field16 (offset : ℕ) : UInt16 := UInt16.ofNat (ofHighFirst ((data.drop offset).take 2))

/-- The field of four bytes at an offset. -/
def field32 (offset : ℕ) : UInt32 := UInt32.ofNat (ofHighFirst ((data.drop offset).take 4))

/-- The field of eight bytes at an offset. -/
def field64 (offset : ℕ) : UInt64 := UInt64.ofNat (ofHighFirst ((data.drop offset).take 8))

variable {data} {offset : ℤ} (order : ByteOrder)

theorem readBytes_eq {offset length : ℕ} (inside : offset + length ≤ data.length) :
    readBytes data offset length = .ok ((data.drop offset).take length) := by
  rw [readBytes, Buffer.slice?_eq_some data inside]

theorem readBytesAt_eq {length : ℕ} (nonnegative : 0 ≤ offset)
    (inside : offset.toNat + length ≤ data.length) :
    readBytesAt data offset length = .ok ((data.drop offset.toNat).take length) := by
  rw [readBytesAt, if_neg (by omega), readBytes_eq inside]

/-- A copy at an offset below zero or past the end is out of bounds. -/
theorem readBytesAt_eq_outOfBounds {length : ℕ}
    (outside : offset < 0 ∨ data.length < offset.toNat + length) :
    readBytesAt data offset length = .error .outOfBounds := by
  rw [readBytesAt]
  split_ifs with negative
  · rfl
  · rw [readBytes, Buffer.slice?_eq_none data (outside.resolve_left negative)]

theorem length_field {offset length : ℕ} (inside : offset + length ≤ data.length) :
    ((data.drop offset).take length).length = length := by
  rw [List.length_take, List.length_drop]
  omega

/-- A range of a string only depends on what the string has up to its end. -/
theorem take_drop_append {front : List Byte} {offset length : ℕ}
    (inside : offset + length ≤ front.length) (rest : List Byte) :
    ((front ++ rest).drop offset).take length = (front.drop offset).take length := by
  rw [List.drop_append_of_le_length (by omega),
    List.take_append_of_le_length (by rw [List.length_drop]; omega)]

theorem field16_append {front : List Byte} {offset : ℕ} (inside : offset + 2 ≤ front.length)
    (rest : List Byte) : field16 (front ++ rest) offset = field16 front offset := by
  rw [field16, take_drop_append inside, field16]

theorem field32_append {front : List Byte} {offset : ℕ} (inside : offset + 4 ≤ front.length)
    (rest : List Byte) : field32 (front ++ rest) offset = field32 front offset := by
  rw [field32, take_drop_append inside, field32]

theorem field64_append {front : List Byte} {offset : ℕ} (inside : offset + 8 ≤ front.length)
    (rest : List Byte) : field64 (front ++ rest) offset = field64 front offset := by
  rw [field64, take_drop_append inside, field64]

theorem htons_load {bytes : List Byte} (width : bytes.length = 2) :
    htons order (UInt16.ofNat (order.load bytes)) = UInt16.ofNat (ofHighFirst bytes) := by
  have below : order.load bytes < 2 ^ 16 := by simpa [width] using order.load_lt bytes
  rw [htons, UInt16.toNat_ofNat_of_lt' below, ← width, order.network_load]

theorem htonl_load {bytes : List Byte} (width : bytes.length = 4) :
    htonl order (UInt32.ofNat (order.load bytes)) = UInt32.ofNat (ofHighFirst bytes) := by
  have below : order.load bytes < 2 ^ 32 := by simpa [width] using order.load_lt bytes
  rw [htonl, UInt32.toNat_ofNat_of_lt' below, ← width, order.network_load]

theorem htonll_load {bytes : List Byte} (width : bytes.length = 8) :
    htonll order (UInt64.ofNat (order.load bytes)) = UInt64.ofNat (ofHighFirst bytes) := by
  have below : order.load bytes < 2 ^ 64 := by simpa [width] using order.load_lt bytes
  rw [htonll, UInt64.toNat_ofNat_of_lt' below, ← width, order.network_load]

theorem readNtohs_eq (nonnegative : 0 ≤ offset) (inside : offset.toNat + 2 ≤ data.length) :
    readNtohs order data offset = .ok (field16 data offset.toNat) := by
  rw [readNtohs, readBytesAt_eq nonnegative inside]
  exact congrArg Except.ok (htons_load order (length_field inside))

theorem readNtohl_eq (nonnegative : 0 ≤ offset) (inside : offset.toNat + 4 ≤ data.length) :
    readNtohl order data offset = .ok (field32 data offset.toNat) := by
  rw [readNtohl, readBytesAt_eq nonnegative inside]
  exact congrArg Except.ok (htonl_load order (length_field inside))

theorem readNtohll_eq (nonnegative : 0 ≤ offset) (inside : offset.toNat + 8 ≤ data.length) :
    readNtohll order data offset = .ok (field64 data offset.toNat) := by
  rw [readNtohll, readBytesAt_eq nonnegative inside]
  exact congrArg Except.ok (htonll_load order (length_field inside))

theorem store_htons (x : UInt16) :
    order.store 2 (htons order x).toNat = highFirst 2 x.toNat := by
  rw [toNat_htons, order.store_network]

theorem store_htonl (x : UInt32) :
    order.store 4 (htonl order x).toNat = highFirst 4 x.toNat := by
  rw [toNat_htonl, order.store_network]

theorem store_htonll (x : UInt64) :
    order.store 8 (htonll order x).toNat = highFirst 8 x.toNat := by
  rw [toNat_htonll, order.store_network]

end Fields

/-! ### Header -/

namespace Header

/-- The eight bytes of the body size: the low half in network order, on the
side the host keeps its low bytes. -/
def bodySizeField (order : ByteOrder) (bodySize : BodySize) : List Byte :=
  match order with
  | .little => highFirst 4 (bodySize.toNat % 2 ^ 32) ++ List.replicate 4 0
  | .big => List.replicate 4 0 ++ highFirst 4 (bodySize.toNat % 2 ^ 32)

/-- The bytes of a header. -/
def wire (order : ByteOrder) (header : Header) : List Byte :=
  highFirst 2 header.version.toNat ++ highFirst 4 header.connectionId.toNat ++
    [header.keyword.toByte] ++ bodySizeField order header.bodySize

@[simp] theorem length_bodySizeField (order : ByteOrder) (bodySize : BodySize) :
    (bodySizeField order bodySize).length = 8 := by
  cases order <;> simp [bodySizeField]

@[simp] theorem length_wire (order : ByteOrder) (header : Header) :
    (header.wire order).length = size := by
  simp [wire, size]

theorem store_bodySize (order : ByteOrder) (bodySize : BodySize) :
    order.store 8 (htonl order bodySize.toUInt32).toUInt64.toNat =
      bodySizeField order bodySize := by
  have narrow : bodySize.toUInt32.toNat = bodySize.toNat % 2 ^ 32 := UInt64.toNat_toUInt32 bodySize
  have fits : bodySize.toNat % 2 ^ 32 < 256 ^ 4 := Nat.mod_lt _ (by decide)
  rw [UInt32.toNat_toUInt64, toNat_htonl, narrow]
  have placed := order.store_network_wide fits 4
  cases order <;> exact placed

/-- The encoder writes the header's bytes, all of them inside its buffer. -/
theorem serialize_eq (order : ByteOrder) (header : Header) :
    header.serialize order = ⟨header.wire order, true⟩ := by
  simp only [serialize, store_htons, store_htonl, store_bodySize]
  rw [Buffer.memcpy_next _ _ _ _ (by simp), Buffer.memcpy_next _ _ _ _ (by simp),
    Buffer.memcpy_next _ _ _ _ (by simp)]
  change (Buffer.fill size 0).memcpy 0 (header.wire order) = _
  rw [Buffer.fill_memcpy_zero, length_wire, Nat.sub_self, List.replicate_zero, List.append_nil,
    List.take_of_length_le (length_wire order header).le, decide_eq_true le_rfl]

/-- The body size that a host reads from a field: one half of it. -/
def readBodySize (order : ByteOrder) (field : List Byte) : BodySize :=
  match order with
  | .little => (UInt32.ofNat (ofHighFirst (field.take 4))).toUInt64
  | .big => (UInt32.ofNat (ofHighFirst (field.drop 4))).toUInt64

theorem htonl_load_bodySize (order : ByteOrder) {field : List Byte} (width : field.length = 8) :
    (htonl order (UInt64.ofNat (order.load field)).toUInt32).toUInt64 =
      readBodySize order field := by
  have below : order.load field < 2 ^ 64 := by simpa [width] using order.load_lt field
  have halves := order.network_load_wide field (w := 4) (k := 4) width
  rw [htonl, UInt64.toNat_toUInt32, UInt64.toNat_ofNat_of_lt' below]
  cases order with
  | little => exact congrArg (fun n => (UInt32.ofNat n).toUInt64) halves
  | big => exact congrArg (fun n => (UInt32.ofNat n).toUInt64) halves

/-- The header that a host reads from the data. -/
def read (order : ByteOrder) (data : List Byte) : Header where
  version := field16 data 0
  connectionId := field32 data 2
  keyword := Keyword.ofByte (((data.drop 6).take 1).headD 0)
  bodySize := readBodySize order ((data.drop 7).take 8)

theorem ofData_eq (order : ByteOrder) {data : List Byte} (enough : size ≤ data.length) :
    ofData order data = .ok (read order data) := by
  have fifteen : 15 ≤ data.length := enough
  rw [ofData, if_neg (by omega), readNtohs_eq order (by decide) (by simp; omega),
    readNtohl_eq order (by decide) (by simp; omega),
    readBytesAt_eq (by decide) (by simp; omega), readBytesAt_eq (by decide) (by simp; omega)]
  have width : ((data.drop 7).take 8).length = 8 := length_field (by omega)
  simp only [bind, Except.bind, pure, Except.pure, read]
  rw [← htonl_load_bodySize order width]
  rfl

/-- A header read from data only depends on its own bytes. -/
theorem read_append (order : ByteOrder) {front : List Byte} (enough : size ≤ front.length)
    (rest : List Byte) : read order (front ++ rest) = read order front := by
  have fifteen : 15 ≤ front.length := enough
  rw [read, read, field16_append (by omega), field32_append (by omega),
    take_drop_append (by omega), take_drop_append (by omega)]

end Header

/-! ### Bodies of fixed fields and one name -/

namespace Download

/-- The bytes of a DOWNLOAD body. The length is the one that fits the field. -/
def wire (download : Download) : List Byte :=
  highFirst 2 download.udpPort.toNat ++
    highFirst 2 (UInt16.ofNat download.filename.length).toNat ++ download.filename

theorem toNat_size (download : Download) (short : download.filename.length < 2 ^ 63) :
    download.size.toNat = 4 + download.filename.length := by
  rw [size, UInt64.toNat_ofNat_of_lt' (by change _ < 2 ^ 64; omega)]

theorem length_wire (download : Download) :
    download.wire.length = 4 + download.filename.length := by
  simp only [wire, List.length_append, length_highFirst]

theorem serialize_eq (order : ByteOrder) (download : Download)
    (short : download.filename.length < 2 ^ 63) :
    download.serialize order = ⟨download.wire, true⟩ := by
  have width := download.length_wire
  simp only [serialize, store_htons, toNat_size download short]
  rw [Buffer.memcpy_next _ _ _ _ (by simp), Buffer.memcpy_next _ _ _ _ (by simp)]
  change (Buffer.fill _ 0).memcpy 0 download.wire = _
  rw [Buffer.fill_memcpy_zero, width, Nat.sub_self, List.replicate_zero, List.append_nil,
    List.take_of_length_le width.le, decide_eq_true le_rfl]

theorem ofData_eq (order : ByteOrder) (data : List Byte) :
    ofData order data =
      if data.length < 4 then .error (.exception "fup::Download: Insufficient data")
      else if field16 data 2 = 0 ∨ data.length - 4 < (field16 data 2).toNat then
        .error (.exception "fup::Download: Insufficient data")
      else .ok ⟨field16 data 0, none, (data.drop 4).take (field16 data 2).toNat⟩ := by
  rw [ofData]
  split_ifs with short long
  · rfl
  · rw [readNtohs_eq order (by decide) (by simp; omega),
      readNtohs_eq order (by decide) (by simp; omega)]
    exact if_pos long
  · rw [readNtohs_eq order (by decide) (by simp; omega),
      readNtohs_eq order (by decide) (by simp; omega)]
    refine (if_neg long).trans ?_
    change (readBytes data 4 (field16 data 2).toNat).bind _ = _
    rw [readBytes_eq (by omega)]
    rfl

/-- A decoded name has the length that its field counts, which no member keeps. -/
theorem length_of_ofData {order : ByteOrder} {data : List Byte} {download : Download}
    (decoded : ofData order data = .ok download) :
    download.filenameSize = none ∧ download.filename.length = (field16 data 2).toNat := by
  rw [ofData_eq] at decoded
  split_ifs at decoded with short long
  obtain rfl := Except.ok.inj decoded
  exact ⟨rfl, length_field (by omega)⟩

end Download

namespace Upload

/-- The bytes of an UPLOAD body. -/
def wire (upload : Upload) : List Byte :=
  highFirst 2 upload.udpPort.toNat ++ highFirst 8 upload.fileSize.toNat ++
    highFirst 4 upload.packetCount.toNat ++
      highFirst 2 (UInt16.ofNat upload.filename.length).toNat ++ upload.filename

theorem toNat_size (upload : Upload) (short : upload.filename.length < 2 ^ 63) :
    upload.size.toNat = 16 + upload.filename.length := by
  rw [size, UInt64.toNat_ofNat_of_lt' (by change _ < 2 ^ 64; omega)]

theorem length_wire (upload : Upload) :
    upload.wire.length = 16 + upload.filename.length := by
  simp only [wire, List.length_append, length_highFirst]

theorem serialize_eq (order : ByteOrder) (upload : Upload)
    (short : upload.filename.length < 2 ^ 63) :
    upload.serialize order = ⟨upload.wire, true⟩ := by
  have width := upload.length_wire
  simp only [serialize, store_htons, store_htonl, store_htonll, toNat_size upload short]
  rw [Buffer.memcpy_next _ _ _ _ (by simp), Buffer.memcpy_next _ _ _ _ (by simp),
    Buffer.memcpy_next _ _ _ _ (by simp), Buffer.memcpy_next _ _ _ _ (by simp)]
  change (Buffer.fill _ 0).memcpy 0 upload.wire = _
  rw [Buffer.fill_memcpy_zero, width, Nat.sub_self, List.replicate_zero, List.append_nil,
    List.take_of_length_le width.le, decide_eq_true le_rfl]

theorem ofData_eq (order : ByteOrder) (data : List Byte) :
    ofData order data =
      if data.length < 16 then .error (.exception "fup::Upload: Insufficient data")
      else if field16 data 14 = 0 ∨ data.length - 16 < (field16 data 14).toNat then
        .error (.exception "fup::Upload: Insufficient data")
      else .ok ⟨field16 data 0, field64 data 2, field32 data 10, none,
        (data.drop 16).take (field16 data 14).toNat⟩ := by
  rw [ofData]
  split_ifs with short long
  · rfl
  · rw [readNtohs_eq order (by decide) (by simp; omega),
      readNtohll_eq order (by decide) (by simp; omega),
      readNtohl_eq order (by decide) (by simp; omega),
      readNtohs_eq order (by decide) (by simp; omega)]
    exact if_pos long
  · rw [readNtohs_eq order (by decide) (by simp; omega),
      readNtohll_eq order (by decide) (by simp; omega),
      readNtohl_eq order (by decide) (by simp; omega),
      readNtohs_eq order (by decide) (by simp; omega)]
    refine (if_neg long).trans ?_
    change (readBytes data 16 (field16 data 14).toNat).bind _ = _
    rw [readBytes_eq (by omega)]
    rfl

/-- A decoded name has the length that its field counts, which no member keeps. -/
theorem length_of_ofData {order : ByteOrder} {data : List Byte} {upload : Upload}
    (decoded : ofData order data = .ok upload) :
    upload.filenameSize = none ∧ upload.filename.length = (field16 data 14).toNat := by
  rw [ofData_eq] at decoded
  split_ifs at decoded with short long
  obtain rfl := Except.ok.inj decoded
  exact ⟨rfl, length_field (by omega)⟩

end Upload

namespace Resend

/-- The bytes of a RESEND body. -/
def wire (resend : Resend) : List Byte := highFirst 8 resend.seqId.toNat

theorem serialize_eq (order : ByteOrder) (resend : Resend) :
    resend.serialize order = ⟨resend.wire, true⟩ := by
  simp only [serialize, store_htonll]
  change (Buffer.fill 8 0).memcpy 0 resend.wire = _
  have width : resend.wire.length = 8 := length_highFirst 8 _
  rw [Buffer.fill_memcpy_zero, width, Nat.sub_self, List.replicate_zero, List.append_nil,
    List.take_of_length_le width.le, decide_eq_true le_rfl]

theorem ofData_eq (order : ByteOrder) (data : List Byte) :
    ofData order data =
      if data.length < 8 then .error (.exception "fup::Resend: Insufficient data")
      else .ok ⟨field64 data 0⟩ := by
  rw [ofData]
  split_ifs with short
  · rfl
  · rw [readNtohll_eq order (by decide) (by simp; omega)]
    rfl

end Resend

/-! ### Packet -/

namespace Packet

/-- The four bytes of the checksum: the low half in network order, on the side
the host keeps its low bytes. -/
def checksumField (order : ByteOrder) (checksum : Checksum) : List Byte :=
  match order with
  | .little => highFirst 2 (checksum.toNat % 2 ^ 16) ++ List.replicate 2 0
  | .big => List.replicate 2 0 ++ highFirst 2 (checksum.toNat % 2 ^ 16)

/-- The fields of a packet in order. The encoder has room for the first
`packetSize` of these bytes. -/
def fields (order : ByteOrder) (packet : Packet) : List Byte :=
  highFirst 8 packet.seqId.toNat ++ checksumField order packet.checksum ++ packet.payload

/-- The payload bytes that fit behind the sequence id and the checksum. -/
def payloadRoom : ℕ := packetSize - 12

@[simp] theorem length_checksumField (order : ByteOrder) (checksum : Checksum) :
    (checksumField order checksum).length = 4 := by
  cases order <;> simp [checksumField]

@[simp] theorem length_fields (order : ByteOrder) (packet : Packet) :
    (packet.fields order).length = 12 + packet.payload.length := by
  simp only [fields, List.length_append, length_highFirst, length_checksumField]

theorem store_checksum (order : ByteOrder) (checksum : Checksum) :
    order.store 4 (htons order checksum.toUInt16).toUInt32.toNat =
      checksumField order checksum := by
  have narrow : checksum.toUInt16.toNat = checksum.toNat % 2 ^ 16 :=
    UInt32.toNat_toUInt16 checksum
  have fits : checksum.toNat % 2 ^ 16 < 256 ^ 2 := Nat.mod_lt _ (by decide)
  rw [UInt16.toNat_toUInt32, toNat_htons, narrow]
  have placed := order.store_network_wide fits 2
  cases order <;> exact placed

/-- The encoder's buffer: the fields cut to its size or padded to it. The last
copy stays inside only when the payload has room. -/
theorem serialize_eq (order : ByteOrder) (packet : Packet) :
    packet.serialize order =
      ⟨(packet.fields order).take packetSize ++
          List.replicate (payloadRoom - packet.payload.length) 0,
        decide (packet.payload.length ≤ payloadRoom)⟩ := by
  simp only [serialize, store_htonll, store_checksum]
  rw [Buffer.memcpy_next _ _ _ _ (by simp), Buffer.memcpy_next _ _ _ _ (by simp)]
  change (Buffer.fill packetSize 0).memcpy 0 (packet.fields order) = _
  have room : packetSize = 12 + payloadRoom := rfl
  rw [Buffer.fill_memcpy_zero, length_fields, room, Nat.add_sub_add_left]
  simp only [Nat.add_le_add_iff_left]

/-- The checksum that a host reads from a field: one half of it. -/
def readChecksum (order : ByteOrder) (field : List Byte) : Checksum :=
  match order with
  | .little => (UInt16.ofNat (ofHighFirst (field.take 2))).toUInt32
  | .big => (UInt16.ofNat (ofHighFirst (field.drop 2))).toUInt32

theorem htons_load_checksum (order : ByteOrder) {field : List Byte} (width : field.length = 4) :
    (htons order (UInt32.ofNat (order.load field)).toUInt16).toUInt32 =
      readChecksum order field := by
  have below : order.load field < 2 ^ 32 := by simpa [width] using order.load_lt field
  have halves := order.network_load_wide field (w := 2) (k := 2) width
  rw [htons, UInt32.toNat_toUInt16, UInt32.toNat_ofNat_of_lt' below]
  cases order with
  | little => exact congrArg (fun n => (UInt16.ofNat n).toUInt32) halves
  | big => exact congrArg (fun n => (UInt16.ofNat n).toUInt32) halves

theorem ofData_eq (order : ByteOrder) (data : List Byte) :
    ofData order data =
      if data.length < 12 then .error (.exception "fup::Packet: Insufficient data")
      else .ok ⟨field64 data 0, readChecksum order ((data.drop 8).take 4), data.drop 12⟩ := by
  rw [ofData]
  split_ifs with short
  · rfl
  · have width : ((data.drop 8).take 4).length = 4 := length_field (by omega)
    rw [readNtohll_eq order (by decide) (by simp; omega),
      readBytesAt_eq (by decide) (by simp; omega), readBytes_eq (by omega)]
    simp only [bind, Except.bind, pure, Except.pure]
    have rest : (data.drop 12).take (data.length - 12) = data.drop 12 :=
      List.take_of_length_le (by rw [List.length_drop])
    rw [← htons_load_checksum order width, rest]
    rfl

end Packet

end Fup
