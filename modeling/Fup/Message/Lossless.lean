/-
# What survives encoding and decoding

A header and a packet each have one field that is converted at half its width.
The host reads back the half it wrote, so a body size of `2 ^ 32` or more and a
checksum of `2 ^ 16` or more come back smaller, and of two headers that differ in
the other half only one was written. A packet also comes back with as many payload
bytes as its encoder has room for, whatever it had.

A FILES body is encoded into one byte for each length and one for their number,
where its decoder needs two. No string of that size decodes to the body.
-/

import Fup.Message.HostOrder
import Fup.Message.Language
import Fup.Message.Sizes

namespace Fup

open FixedWidth

/-! ### Header -/

namespace Header

/-- Written on one host and read on another, with anything behind it, the header
comes back. -/
def RoundTrips (writer reader : ByteOrder) (header : Header) : Prop :=
  ∀ rest, ofData reader ((header.serialize writer).cells ++ rest) = .ok header

/-- The string is what a host writes of the header that it reads from it. -/
def Canonical (order : ByteOrder) (data : List Byte) : Prop :=
  ∃ header, ofData order data = .ok header ∧ header.serialize order = ⟨data, true⟩

/-- The half of the body size that a host reads. -/
def readHalf (order : ByteOrder) (data : List Byte) : List Byte :=
  match order with
  | .little => (data.drop 7).take 4
  | .big => (data.drop 11).take 4

/-- The half of the body size that a host does not read. -/
def unreadHalf (order : ByteOrder) (data : List Byte) : List Byte :=
  match order with
  | .little => (data.drop 11).take 4
  | .big => (data.drop 7).take 4

/-- A header comes back when the half of its body size that is read holds all of
it. -/
theorem roundTrips_iff_small (writer reader : ByteOrder) (header : Header) :
    header.RoundTrips writer reader ↔
      header.bodySize.toNat < if writer = reader then 2 ^ 32 else 1 := by
  have enough : size ≤ (header.wire writer).length := (header.length_wire writer).ge
  have arrives (rest : List Byte) :
      ofData reader ((header.serialize writer).cells ++ rest) =
        .ok { header with
          bodySize := readBodySize reader (bodySizeField writer header.bodySize) } := by
    have longer : size ≤ (header.wire writer ++ rest).length := by
      rw [List.length_append]
      exact enough.trans (Nat.le_add_right _ _)
    rw [serialize_eq, ofData_eq reader longer, read_append reader enough, read_wire]
  have kept : header.RoundTrips writer reader ↔
      readBodySize reader (bodySizeField writer header.bodySize) = header.bodySize := by
    constructor
    · intro returns
      have same := (arrives []).symm.trans (returns [])
      exact congrArg bodySize (Except.ok.inj same)
    · intro same rest
      rw [arrives, same]
  rw [kept, ← UInt64.toNat_inj, readBodySize_bodySizeField]
  split_ifs <;> omega

/-- The size field with zeros in place of the half that a host does not read. -/
def keptField (order : ByteOrder) (data : List Byte) : List Byte :=
  match order with
  | .little => readHalf .little data ++ List.replicate 4 0
  | .big => List.replicate 4 0 ++ readHalf .big data

/-- A half of four bytes is written as it was read. -/
theorem highFirst_half {half : List Byte} (four : half.length = 4) :
    highFirst 4 ((UInt32.ofNat (ofHighFirst half)).toUInt64.toNat % 2 ^ 32) = half := by
  have below : ofHighFirst half < 2 ^ 32 := by simpa [four] using ofHighFirst_lt half
  have same := highFirst_ofHighFirst half
  rw [four] at same
  rw [UInt32.toNat_toUInt64, UInt32.toNat_ofNat_of_lt' below, Nat.mod_eq_of_lt below, same]

section Whole

variable {data : List Byte} (whole : data.length = size)

include whole

/-- The size field is its two halves. -/
theorem drop_eq_halves :
    data.drop 7 = (data.drop 7).take 4 ++ (data.drop 11).take 4 := by
  have fifteen : data.length = 15 := whole
  have rest : (data.drop 11).take 4 = (data.drop 7).drop 4 := by
    rw [List.drop_drop, List.take_of_length_le (by rw [List.length_drop, fifteen])]
  rw [rest, List.take_append_drop]

theorem bodySizeField_read (order : ByteOrder) :
    bodySizeField order (read order data).bodySize = keptField order data := by
  have fifteen : data.length = 15 := whole
  cases order with
  | little =>
    have half : (readHalf .little data).length = 4 := length_field (by omega)
    have same : ((data.drop 7).take 8).take 4 = readHalf .little data := List.take_take ..
    rw [bodySizeField, read, readBodySize, same, highFirst_half half, keptField]
  | big =>
    have half : (readHalf .big data).length = 4 := length_field (by omega)
    have same : ((data.drop 7).take 8).drop 4 = readHalf .big data := by
      rw [List.drop_take, List.drop_drop, readHalf]
    rw [bodySizeField, read, readBodySize, same, highFirst_half half, keptField]

/-- A header is written as it was read, up to the unread half. -/
theorem wire_read (order : ByteOrder) :
    (read order data).wire order = data.take 7 ++ keptField order data := by
  have fifteen : data.length = 15 := whole
  obtain ⟨k, single⟩ := List.length_eq_one_iff.mp
    (length_field (show 6 + 1 ≤ data.length by omega))
  have keyword : [(Keyword.ofByte (((data.drop 6).take 1).headD 0)).toByte] =
      (data.drop 6).take 1 := by
    rw [single, List.headD_cons, Keyword.toByte_ofByte]
  rw [wire, bodySizeField_read whole, read, highFirst_field16 (by omega),
    highFirst_field32 (by omega), keyword, take_drop_add data 0 2, take_drop_add data 0 6,
    List.drop_zero]

/-- A string is canonical when the header read from it is written as the string. -/
theorem canonical_iff_wire (order : ByteOrder) :
    Canonical order data ↔ (read order data).wire order = data := by
  rw [Canonical, ofData_eq order whole.ge]
  constructor
  · rintro ⟨header, decoded, encoded⟩
    obtain rfl := Except.ok.inj decoded
    rw [serialize_eq] at encoded
    exact congrArg Buffer.cells encoded
  · intro same
    exact ⟨read order data, rfl, by rw [serialize_eq, same]⟩

/-- A host writes a header as it read it when the unread half is zero. -/
theorem canonical_iff (order : ByteOrder) :
    Canonical order data ↔ unreadHalf order data = List.replicate 4 0 := by
  have split : data = data.take 7 ++ ((data.drop 7).take 4 ++ (data.drop 11).take 4) := by
    rw [← drop_eq_halves whole, List.take_append_drop]
  rw [canonical_iff_wire whole, wire_read whole]
  conv_lhs => rhs; rw [split]
  rw [List.append_right_inj]
  cases order with
  | little =>
    rw [keptField, readHalf, unreadHalf, List.append_right_inj]
    exact eq_comm
  | big =>
    rw [keptField, readHalf, unreadHalf, List.append_left_inj]
    exact eq_comm

end Whole

/-- Headers that are read alike are written alike, and the other way around. -/
theorem wire_read_inj (order : ByteOrder) (first second : List Byte) :
    (read order first).wire order = (read order second).wire order ↔
      read order first = read order second := by
  constructor
  · intro same
    have returns (data : List Byte) :
        ofData order ((read order data).wire order) = .ok (read order data) := by
      have narrow : (read order data).bodySize.toNat < if order = order then 2 ^ 32 else 1 := by
        rw [if_pos rfl]
        exact Message.toNat_bodySize_read_lt order data
      have again := (roundTrips_iff_small order order (read order data)).mpr narrow []
      rwa [serialize_eq, List.append_nil] at again
    have read_first := returns first
    rw [same, returns second] at read_first
    exact (Except.ok.inj read_first).symm
  · exact congrArg (wire order)

/-- The strings of the size of a header. -/
abbrev Bytes : Type := { data : List Byte // data.length = size }

/-- Two strings decode to one header when they differ in the unread half alone. -/
theorem ofData_eq_ofData_iff (order : ByteOrder) (first second : Bytes) :
    ofData order first.1 = ofData order second.1 ↔
      first.1.take 7 = second.1.take 7 ∧ readHalf order first.1 = readHalf order second.1 := by
  obtain ⟨data, whole⟩ := first
  obtain ⟨other, whole'⟩ := second
  have fronts : (data.take 7).length = (other.take 7).length := by
    rw [List.length_take, List.length_take, whole, whole']
  have parts : data.take 7 ++ keptField order data = other.take 7 ++ keptField order other ↔
      data.take 7 = other.take 7 ∧ keptField order data = keptField order other := by
    constructor
    · intro same
      exact List.append_inj same fronts
    · rintro ⟨same, same'⟩
      rw [same, same']
  rw [ofData_eq order whole.ge, ofData_eq order whole'.ge, Except.ok.injEq, ← wire_read_inj,
    wire_read whole, wire_read whole', parts]
  apply and_congr_right'
  cases order with
  | little => exact List.append_left_inj _
  | big => exact List.append_right_inj _

/-- Which headers come back, which strings are written again as they were read,
and which strings are read alike. -/
theorem lossless_iff (writer reader : ByteOrder) (header : Header) (first second : Bytes) :
    (header.RoundTrips writer reader ↔
      header.bodySize.toNat < if writer = reader then 2 ^ 32 else 1) ∧
    (Canonical reader first.1 ↔ unreadHalf reader first.1 = List.replicate 4 0) ∧
    (ofData reader first.1 = ofData reader second.1 ↔
      first.1.take 7 = second.1.take 7 ∧ readHalf reader first.1 = readHalf reader second.1) := by
  refine ⟨roundTrips_iff_small writer reader header, ?_, ofData_eq_ofData_iff reader first second⟩
  exact canonical_iff first.2 reader

/-- A body size of `2 ^ 32` comes back as zero. -/
theorem not_roundTrips_largeBody :
    ¬ (Header.mk 1 7 .files 4294967296).RoundTrips .little .little := by
  intro returns
  have arrives : ofData .little (((Header.mk 1 7 .files 4294967296).serialize .little).cells ++ []) =
      .ok ⟨1, 7, .files, 0⟩ := by decide
  rw [returns []] at arrives
  exact absurd arrives (by decide)

end Header

/-! ### Packet -/

namespace Packet

/-- The encoder stays inside its buffer of `size` bytes, and the packet comes back. -/
structure RoundTrips (writer reader : ByteOrder) (packet : Packet) : Prop where
  inBounds : (packet.serialize writer).inBounds = true
  sized : (packet.serialize writer).cells.length = packet.size.toNat
  returned : ofData reader (packet.serialize writer).cells = .ok packet

/-- A packet comes back when its payload fills its room and the half of its
checksum that is read holds all of it. -/
theorem roundTrips_iff (writer reader : ByteOrder) (packet : Packet) :
    packet.RoundTrips writer reader ↔ packet.payload.length = payloadRoom ∧
      packet.checksum.toNat < if writer = reader then 2 ^ 16 else 1 := by
  have kept : ofData reader (packet.serialize writer).cells = .ok packet ↔
      readChecksum reader (checksumField writer packet.checksum) = packet.checksum ∧
        carried packet.payload = packet.payload := by
    rw [ofData_serialize, Except.ok.injEq]
    cases packet
    simp only [mk.injEq, true_and]
  have checksum : readChecksum reader (checksumField writer packet.checksum) = packet.checksum ↔
      packet.checksum.toNat < if writer = reader then 2 ^ 16 else 1 := by
    rw [← UInt32.toNat_inj, readChecksum_checksumField]
    split_ifs <;> omega
  rw [checksum, carried_eq_self_iff] at kept
  constructor
  · intro returns
    exact (kept.mp returns.returned).symm
  · rintro ⟨full, low⟩
    refine ⟨?_, ?_, kept.mpr ⟨low, full⟩⟩
    · rw [serialize_eq]
      exact decide_eq_true full.le
    · rw [cells_serialize, List.length_append, List.length_append, length_highFirst,
        length_checksumField, length_carried]
      rfl

/-- The payload that every transmitted packet has is longer than its room. -/
theorem not_roundTrips_fullPayload :
    ¬ (Packet.mk 0 0 (List.replicate packetPayloadSize 0)).RoundTrips .little .little := by
  intro returns
  have inside := returns.inBounds
  rw [serialize_eq, List.length_replicate] at inside
  exact absurd inside (by decide)

end Packet

/-! ### FILES -/

namespace Files

/-- The body that describes a list of names. -/
def ofNames (names : List (List Byte)) : Files where
  elemCount := UInt16.ofNat names.length
  nameSizes := names.map fun name => UInt16.ofNat name.length
  filenames := names

/-- Every number that describes the list fits its field, and the encoding fits
the `int` of an offset. -/
structure NamesFit (names : List (List Byte)) : Prop where
  few : names.length ≤ 65535
  short : ∀ name ∈ names, name.length ≤ 65535
  total : 2 + 2 * names.length + (names.map List.length).sum < 2 ^ 31

/-- The encoder stays inside its buffer and fills it, and the body comes back. -/
def RoundTrips (writer reader : ByteOrder) (files : Files) : Prop :=
  ∃ buf, files.serialize writer = .ok buf ∧ buf.inBounds = true ∧
    buf.cells.length = files.size.toNat ∧ ofData reader buf.cells = .ok files

theorem total_nameSizes_ofNames {names : List (List Byte)}
    (short : ∀ name ∈ names, name.length ≤ 65535) :
    total (ofNames names).nameSizes = (names.map List.length).sum := by
  rw [ofNames, total, List.map_map]
  apply congrArg List.sum
  apply List.map_congr_left
  intro name listed
  exact UInt16.toNat_ofNat_of_lt' (Nat.lt_succ_of_le (short name listed))

/-- The buffer of the encoder is shorter than the fields, by a byte for each name
and one more. -/
theorem toNat_size_ofNames {names : List (List Byte)} (fits : NamesFit names) :
    (ofNames names).size.toNat + (names.length + 1) =
      2 + 2 * names.length + (names.map List.length).sum := by
  have size := toNat_size (ofNames names)
  have sum := total_nameSizes_ofNames fits.short
  have count : (ofNames names).nameSizes.length = names.length := List.length_map _
  have small := fits.total
  rw [sum, count, int32_of_small (by omega) (by omega)] at size
  omega

/-- No list of names is encoded inside the buffer, and no string of the buffer's
size decodes to one. -/
theorem not_roundTrips_ofNames {names : List (List Byte)} (fits : NamesFit names)
    (writer reader : ByteOrder) :
    ¬ RoundTrips writer reader (ofNames names) ∧
      ∀ data, data.length = (ofNames names).size.toNat →
        ofData reader data ≠ .ok (ofNames names) := by
  refine ⟨?_, ?_⟩
  · rintro ⟨⟨cells, _⟩, encoded, rfl, -⟩
    exact WireObject.files_not_inBounds (ofNames names) writer encoded
  · intro data sized decoded
    have shorter := toNat_size_ofNames fits
    have small := fits.total
    exact size_ne_length (decodedFrom_of_ofData decoded) (by omega) sized.symm

/-- The theorem for a list of two names. -/
theorem not_roundTrips_ofNames_pair :
    ¬ RoundTrips .little .little (ofNames [[97], [98, 99]]) ∧
      ∀ data, data.length = (ofNames [[97], [98, 99]]).size.toNat →
        ofData .little data ≠ .ok (ofNames [[97], [98, 99]]) :=
  not_roundTrips_ofNames ⟨by decide, by decide, by decide⟩ .little .little

/-- The list of one file named by one letter: the encoder leaves its three bytes. -/
theorem not_roundTrips_oneLetter : ¬ RoundTrips .little .little (ofNames [[97]]) := by
  rintro ⟨buf, encoded, inside, -⟩
  have made : (ofNames [[97]]).serialize .little = .ok ⟨[1, 0, 0], false⟩ := by decide
  rw [made] at encoded
  obtain rfl := Except.ok.inj encoded
  exact absurd inside (by decide)

end Files

end Fup
