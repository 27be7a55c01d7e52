/-
# Which objects are the same on every host

An object is host independent when its encoder stays inside its buffer and writes
the same bytes on both kinds of host, and both read those bytes back as the object. A
conversion at the width of its field gives exactly that. Where the width differs the
two hosts pad on opposite sides: only a zero in the converted half looks the same from
both, and then it is zero that both read.

What a decoder refuses is not read back at all. So a body with an empty name is not
host independent, although its bytes are.
-/

import Fup.Message.Language

namespace Fup

open FixedWidth

/-- The header and the bodies that have fields to encode. -/
inductive WireObject
  | header (header : Header)
  | files (files : Files)
  | download (download : Download)
  | upload (upload : Upload)
  | resend (resend : Resend)
  | packet (packet : Packet)
  deriving DecidableEq

namespace WireObject

/-- The encoder of the object's class. -/
def serialize (object : WireObject) (order : ByteOrder) : Except Failure (Buffer Byte) :=
  match object with
  | header h => .ok (h.serialize order)
  | files f => f.serialize order
  | download d => .ok (d.serialize order)
  | upload u => .ok (u.serialize order)
  | resend r => .ok (r.serialize order)
  | packet p => .ok (p.serialize order)

/-- The decoder of the object's class. -/
def decode (object : WireObject) (order : ByteOrder) (data : List Byte) :
    Except Failure WireObject :=
  match object with
  | header _ => (Header.ofData order data).map header
  | files _ => (Files.ofData order data).map files
  | download _ => (Download.ofData order data).map download
  | upload _ => (Upload.ofData order data).map upload
  | resend _ => (Resend.ofData order data).map resend
  | packet _ => (Packet.ofData order data).map packet

/-- The length fields describe the data beside them. -/
def Consistent : WireObject → Prop
  | files f => f.elemCount.toNat = f.nameSizes.length ∧
      f.nameSizes.map UInt16.toNat = f.filenames.map List.length
  | download d => d.filenameSize.map UInt16.toNat = some d.filename.length
  | upload u => u.filenameSize.map UInt16.toNat = some u.filename.length
  | _ => True

/-- The object with the members that its decoder assigns. The length of a name is
written from the name, and the decoders leave its member alone. -/
def assigned : WireObject → WireObject
  | download d => download { d with filenameSize := none }
  | upload u => upload { u with filenameSize := none }
  | object => object

/-- Both kinds of host write the same bytes, inside the buffer, and both read the
values back that were written. -/
def HostIndependent (object : WireObject) : Prop :=
  ∃ wire, (∀ order, object.serialize order = .ok ⟨wire, true⟩) ∧
    ∀ order, object.decode order wire = .ok object.assigned

/-- Where the conversions leave no trace of the host, and nothing is lost. -/
def Portable : WireObject → Prop
  | header h => h.bodySize = 0
  | files _ => False
  | download d => d.filename ≠ []
  | upload u => u.filename ≠ []
  | resend _ => True
  | packet p => p.payload.length = Packet.payloadRoom ∧ p.checksum = 0

/-! ### Header -/

theorem bodySizeField_eq_iff (bodySize : BodySize) :
    Header.bodySizeField .little bodySize = Header.bodySizeField .big bodySize ↔
      bodySize.toNat % 2 ^ 32 = 0 :=
  pad_comm_iff (w := 4) (Nat.mod_lt _ (by decide))

theorem header_wire_eq_iff (h : Header) :
    h.wire .little = h.wire .big ↔ h.bodySize.toNat % 2 ^ 32 = 0 := by
  rw [← bodySizeField_eq_iff, Header.wire, Header.wire]
  exact List.append_cancel_left_eq _ _ _ |>.to_iff

theorem header_hostIndependent_iff (h : Header) :
    (header h).HostIndependent ↔ h.bodySize = 0 := by
  have arrives (writer reader : ByteOrder) : Header.ofData reader (h.wire writer) =
      .ok { h with
        bodySize := Header.readBodySize reader (Header.bodySizeField writer h.bodySize) } := by
    rw [Header.ofData_eq reader (h.length_wire writer).ge, Header.read_wire]
  have half (writer reader : ByteOrder) :=
    Header.readBodySize_bodySizeField writer reader h.bodySize
  constructor
  · rintro ⟨wire, written, returned⟩
    have big := written .big
    simp only [serialize, Header.serialize_eq, Except.ok.injEq, Buffer.mk.injEq] at big
    obtain ⟨header', read, same⟩ := map_eq_ok.mp (returned .little)
    rw [← big.1, arrives .big .little] at read
    -- The other host reads the half that was not written.
    obtain rfl := Except.ok.inj read
    have lost : Header.readBodySize .little (Header.bodySizeField .big h.bodySize) =
        h.bodySize := congrArg Header.bodySize (WireObject.header.inj same)
    have zero := half .big .little
    rw [lost] at zero
    exact UInt64.toNat_inj.mp zero
  · intro empty
    have zero : h.bodySize.toNat % 2 ^ 32 = 0 := by rw [empty]; rfl
    have same : h.wire .little = h.wire .big := (header_wire_eq_iff h).mpr zero
    refine ⟨h.wire .little, ?_, ?_⟩
    · intro order
      cases order with
      | little => rw [serialize, Header.serialize_eq]
      | big => rw [serialize, Header.serialize_eq, same]
    · intro order
      have read : Header.readBodySize order (Header.bodySizeField .little h.bodySize) =
          h.bodySize := by
        rw [← UInt64.toNat_inj, half, zero, ite_self, empty]
        rfl
      rw [decode, arrives, read]
      rfl

/-! ### Files -/

theorem inBounds_of_foldl_putName {names : List (List Byte)} {buf : Buffer Byte × ℕ}
    (inside : (names.foldl Files.putName buf).1.inBounds = true) : buf.1.inBounds = true := by
  induction names generalizing buf with
  | nil => exact inside
  | cons name names ih => exact Buffer.inBounds_of_memcpy (ih inside)

theorem inBounds_of_foldl_putSize {order : ByteOrder} {sizes : List NameSize}
    {buf : Buffer Byte × ℕ} (inside : (sizes.foldl (Files.putSize order) buf).1.inBounds = true) :
    buf.1.inBounds = true := by
  induction sizes generalizing buf with
  | nil => exact inside
  | cons s sizes ih => exact Buffer.inBounds_of_memcpyObject (ih inside)

/-- No FILES body is encoded inside the bounds: the first length is copied from
a one-byte variable as two, and without lengths the buffer has one byte for the
two of the count. -/
theorem files_not_inBounds (f : Files) (order : ByteOrder) {wire : List Byte} :
    f.serialize order ≠ .ok ⟨wire, true⟩ := by
  intro written
  rw [Files.serialize] at written
  split_ifs at written with negative
  have whole := congrArg Buffer.inBounds (Except.ok.inj written)
  have sizes := inBounds_of_foldl_putName whole
  cases nameSizes : f.nameSizes with
  | nil =>
    rw [nameSizes] at sizes
    -- The count is copied into one byte.
    have count := ((Buffer.inBounds_memcpy _ _ _).mp sizes).2
    have one : f.size = 1 := by
      simp only [Files.size, nameSizes, List.foldl_nil, List.length_nil]
      decide
    rw [one, show int32 (1 : MessageSize).toNat = 1 by decide] at count
    simp at count
  | cons s rest =>
    rw [nameSizes, List.foldl_cons] at sizes
    -- A store outside is never taken back by the later ones.
    have first := inBounds_of_foldl_putSize sizes
    have source := ((Buffer.inBounds_memcpyObject _ _ _ _).mp first).2.2
    exact absurd source (by simp)

theorem files_not_hostIndependent (f : Files) : ¬ (files f).HostIndependent := by
  rintro ⟨wire, written, -⟩
  exact files_not_inBounds f .little (written .little)

/-! ### Bodies of fixed fields and one name -/

theorem filename_length_lt {size : Option NameSize} {filename : List Byte}
    (consistent : size.map UInt16.toNat = some filename.length) : filename.length < 2 ^ 16 := by
  obtain ⟨s, -, same⟩ := Option.map_eq_some_iff.mp consistent
  exact same ▸ s.toNat_lt

/-- A name with a consistent length fits its field if there is anything of it. -/
theorem nameFits_iff {filename : List Byte} (short : filename.length < 2 ^ 16) :
    NameFits filename ↔ filename ≠ [] := by
  rw [NameFits, ← List.length_pos_iff]
  omega

theorem download_hostIndependent_iff (d : Download) (consistent : (download d).Consistent) :
    (download d).HostIndependent ↔ d.filename ≠ [] := by
  have short := filename_length_lt consistent
  have writes (order : ByteOrder) : (download d).serialize order = .ok ⟨d.wire, true⟩ := by
    rw [serialize, Download.serialize_eq order d (short.trans (by decide))]
  rw [← nameFits_iff short]
  constructor
  · rintro ⟨wire, -, returned⟩
    obtain ⟨d', read, same⟩ := map_eq_ok.mp (returned .little)
    -- What the decoder accepts has a name that fits.
    have fits := (Download.wire_of_ofData read).1
    rwa [WireObject.download.inj same] at fits
  · intro fits
    refine ⟨d.wire, writes, fun order => ?_⟩
    have read := Download.ofData_wire order fits []
    rw [List.append_nil] at read
    rw [decode, read]
    rfl

theorem upload_hostIndependent_iff (u : Upload) (consistent : (upload u).Consistent) :
    (upload u).HostIndependent ↔ u.filename ≠ [] := by
  have short := filename_length_lt consistent
  have writes (order : ByteOrder) : (upload u).serialize order = .ok ⟨u.wire, true⟩ := by
    rw [serialize, Upload.serialize_eq order u (short.trans (by decide))]
  rw [← nameFits_iff short]
  constructor
  · rintro ⟨wire, -, returned⟩
    obtain ⟨u', read, same⟩ := map_eq_ok.mp (returned .little)
    have fits := (Upload.wire_of_ofData read).1
    rwa [WireObject.upload.inj same] at fits
  · intro fits
    refine ⟨u.wire, writes, fun order => ?_⟩
    have read := Upload.ofData_wire order fits []
    rw [List.append_nil] at read
    rw [decode, read]
    rfl

theorem resend_hostIndependent (r : Resend) : (resend r).HostIndependent := by
  refine ⟨r.wire, fun order => ?_, fun order => ?_⟩
  · rw [serialize, Resend.serialize_eq]
  · obtain ⟨r', read, same⟩ := map_eq_ok.mp ((Resend.prefixCode order).reads trivial [])
    rw [List.append_nil] at read
    rw [decode, read]
    exact congrArg (fun seqId => Except.ok (resend ⟨seqId⟩)) same

/-! ### Packet -/

theorem checksumField_eq_iff (checksum : Checksum) :
    Packet.checksumField .little checksum = Packet.checksumField .big checksum ↔
      checksum.toNat % 2 ^ 16 = 0 :=
  pad_comm_iff (w := 2) (Nat.mod_lt _ (by decide))

theorem packet_fields_eq_iff (p : Packet) :
    p.fields .little = p.fields .big ↔ p.checksum.toNat % 2 ^ 16 = 0 := by
  rw [← checksumField_eq_iff, Packet.fields, Packet.fields, List.append_left_inj,
    List.append_right_inj]

/-- Encoded inside the bounds, a packet is its fields and the padding. -/
theorem packet_serialize_eq_of_room {p : Packet} (room : p.payload.length ≤ Packet.payloadRoom)
    (order : ByteOrder) : p.serialize order =
      ⟨p.fields order ++ List.replicate (Packet.payloadRoom - p.payload.length) 0, true⟩ := by
  have whole : (p.fields order).length ≤ packetSize := by
    rw [Packet.length_fields]
    exact Nat.add_le_add_left room 12
  rw [Packet.serialize_eq, List.take_of_length_le whole, decide_eq_true room]

theorem packet_hostIndependent_iff (p : Packet) :
    (packet p).HostIndependent ↔
      p.payload.length = Packet.payloadRoom ∧ p.checksum = 0 := by
  have half (writer reader : ByteOrder) :=
    Packet.readChecksum_checksumField writer reader p.checksum
  constructor
  · rintro ⟨wire, written, returned⟩
    have big := Except.ok.inj (written .big)
    obtain ⟨p', read, same⟩ := map_eq_ok.mp (returned .little)
    have cells : (p.serialize .big).cells = wire := congrArg Buffer.cells big
    rw [← cells, Packet.ofData_serialize .big .little] at read
    obtain rfl := Except.ok.inj read
    have same := WireObject.packet.inj same
    -- The payload comes back padded, and the checksum from the other half.
    have full : Packet.carried p.payload = p.payload := congrArg Packet.payload same
    have lost : Packet.readChecksum .little (Packet.checksumField .big p.checksum) =
        p.checksum := congrArg Packet.checksum same
    have zero := half .big .little
    rw [lost] at zero
    exact ⟨(Packet.carried_eq_self_iff p.payload).mp full, UInt32.toNat_inj.mp zero⟩
  · rintro ⟨full, empty⟩
    have zero : p.checksum.toNat % 2 ^ 16 = 0 := by rw [empty]; rfl
    have same : p.fields .little = p.fields .big := (packet_fields_eq_iff p).mpr zero
    have writes (order : ByteOrder) : p.serialize order = ⟨p.fields .little, true⟩ := by
      rw [packet_serialize_eq_of_room full.le, full, Nat.sub_self, List.replicate_zero,
        List.append_nil]
      cases order with
      | little => rfl
      | big => rw [same]
    refine ⟨p.fields .little, fun order => congrArg Except.ok (writes order), fun order => ?_⟩
    have arrives := Packet.ofData_serialize .little order p
    have read : Packet.readChecksum order (Packet.checksumField .little p.checksum) =
        p.checksum := by
      rw [← UInt32.toNat_inj, half, zero, ite_self, empty]
      rfl
    rw [writes, read, (Packet.carried_eq_self_iff p.payload).mpr full] at arrives
    rw [decode, arrives]
    rfl

/-! ### The whole format -/

/-- The same bytes on both hosts, and the values back from them: never for a FILES
body, for a header only if it announces no body, for a packet only if its payload fills
its room and its checksum is zero, and for a body with a name only if there is one. -/
theorem hostIndependent_iff (object : WireObject) (consistent : object.Consistent) :
    object.HostIndependent ↔ object.Portable := by
  cases object with
  | header h => exact header_hostIndependent_iff h
  | files f => exact iff_of_false (files_not_hostIndependent f) not_false
  | download d => exact download_hostIndependent_iff d consistent
  | upload u => exact upload_hostIndependent_iff u consistent
  | resend r => exact iff_of_true (resend_hostIndependent r) trivial
  | packet p => exact packet_hostIndependent_iff p

/-- The theorem at a packet with a full payload and the checksum zero. -/
theorem hostIndependent_fullPacket :
    (packet ⟨3, 0, List.replicate Packet.payloadRoom 1⟩).HostIndependent :=
  (hostIndependent_iff (packet ⟨3, 0, List.replicate Packet.payloadRoom 1⟩) trivial).mpr
    ⟨List.length_replicate, rfl⟩

/-- The header of a message with a one-byte body encodes differently on the two
kinds of host. -/
theorem not_hostIndependent_header :
    ¬ (header ⟨1, 7, .resend, 1⟩).HostIndependent := by
  rintro ⟨wire, written, -⟩
  have little := written .little
  have big := written .big
  rw [← big] at little
  exact absurd little (by decide)

end WireObject

end Fup
