/-
# The strings of the DOWNLOAD, UPLOAD and RESEND encoders

Every field of these bodies is converted at its own width, and the name comes
last with its length in front. So a decoder that has passed its size checks reads
back what was written, and what it read is written as the bytes it read it from.
Each of the three decoders is the decoder of a prefix code: it accepts exactly
the strings that its encoder writes, with anything behind them.

An empty name is encoded but not accepted, and a name with more bytes than its
length field can count is encoded with another length.
-/

import Fup.Lib.PrefixCode
import Fup.Message.Bounds
import Fup.Message.RoundTrip
import Fup.Message.WellFormed

namespace Fup

open FixedWidth

/-! ### Writing what was read -/

section Fields

variable {data : List Byte} {offset : ℕ}

theorem highFirst_field16 (inside : offset + 2 ≤ data.length) :
    highFirst 2 (field16 data offset).toNat = (data.drop offset).take 2 := by
  have width : ((data.drop offset).take 2).length = 2 := length_field inside
  have below := ofHighFirst_lt ((data.drop offset).take 2)
  have same := highFirst_ofHighFirst ((data.drop offset).take 2)
  rw [width] at below same
  rw [field16, UInt16.toNat_ofNat_of_lt' below, same]

theorem highFirst_field32 (inside : offset + 4 ≤ data.length) :
    highFirst 4 (field32 data offset).toNat = (data.drop offset).take 4 := by
  have width : ((data.drop offset).take 4).length = 4 := length_field inside
  have below := ofHighFirst_lt ((data.drop offset).take 4)
  have same := highFirst_ofHighFirst ((data.drop offset).take 4)
  rw [width] at below same
  rw [field32, UInt32.toNat_ofNat_of_lt' below, same]

theorem highFirst_field64 (inside : offset + 8 ≤ data.length) :
    highFirst 8 (field64 data offset).toNat = (data.drop offset).take 8 := by
  have width : ((data.drop offset).take 8).length = 8 := length_field inside
  have below := ofHighFirst_lt ((data.drop offset).take 8)
  have same := highFirst_ofHighFirst ((data.drop offset).take 8)
  rw [width] at below same
  rw [field64, UInt64.toNat_ofNat_of_lt' below, same]

/-- A range is its front and the range behind it. -/
theorem take_drop_add (data : List Byte) (offset first second : ℕ) :
    (data.drop offset).take first ++ (data.drop (offset + first)).take second =
      (data.drop offset).take (first + second) := by
  rw [List.take_add, List.drop_drop]

end Fields

/-- The length field can count the name, and the decoders accept it. -/
def NameFits (filename : List Byte) : Prop := 1 ≤ filename.length ∧ filename.length ≤ 65535

instance (filename : List Byte) : Decidable (NameFits filename) := inferInstanceAs (Decidable (_ ∧ _))

theorem NameFits.toNat_length {filename : List Byte} (fits : NameFits filename) :
    (UInt16.ofNat filename.length).toNat = filename.length :=
  UInt16.toNat_ofNat_of_lt' (Nat.lt_succ_of_le fits.2)

theorem NameFits.short {filename : List Byte} (fits : NameFits filename) :
    filename.length < 2 ^ 63 :=
  fits.2.trans_lt (by decide)

theorem NameFits.length_ne_zero {filename : List Byte} (fits : NameFits filename) :
    UInt16.ofNat filename.length ≠ 0 := by
  intro zero
  have length := fits.toNat_length
  rw [zero] at length
  exact absurd length (Nat.ne_of_lt fits.1)

/-- A name that has passed the decoder's checks fits. -/
theorem nameFits_of_checked {data : List Byte} {offset : ℕ} {ns : NameSize} (nonzero : ns ≠ 0)
    (inside : offset + ns.toNat ≤ data.length) :
    NameFits ((data.drop offset).take ns.toNat) := by
  have length : ((data.drop offset).take ns.toNat).length = ns.toNat := length_field inside
  have positive : ns.toNat ≠ 0 := fun zero => nonzero (UInt16.toNat_inj.mp zero)
  rw [NameFits, length]
  exact ⟨Nat.one_le_iff_ne_zero.mpr positive, Nat.le_of_lt_succ ns.toNat_lt⟩

/-! ### DOWNLOAD -/

namespace Download

/-- What the encoder writes of an object. -/
def fields (download : Download) : Port × List Byte := (download.udpPort, download.filename)

/-- Decoding a string that starts with an encoding. -/
theorem ofData_wire (order : ByteOrder) {download : Download} (fits : NameFits download.filename)
    (rest : List Byte) :
    ofData order (download.wire ++ rest) = .ok { download with filenameSize := none } := by
  set port := highFirst 2 download.udpPort.toNat with portIs
  set length := highFirst 2 (UInt16.ofNat download.filename.length).toNat with lengthIs
  have width : port.length = 2 := length_highFirst 2 _
  have width' : (port ++ length).length = 4 := by simp [portIs, lengthIs]
  have layout : download.wire ++ rest = port ++ (length ++ (download.filename ++ rest)) := by
    rw [wire, List.append_assoc, List.append_assoc]
  have readPort : field16 (download.wire ++ rest) 0 = download.udpPort := by
    rw [layout]
    exact field16_highFirst [] _ rfl download.udpPort
  have readLength : field16 (download.wire ++ rest) 2 =
      UInt16.ofNat download.filename.length := by
    rw [layout]
    exact field16_highFirst port _ width _
  have behind : (download.wire ++ rest).drop 4 = download.filename ++ rest := by
    rw [layout, ← List.append_assoc, List.drop_left' width']
  have total : (download.wire ++ rest).length = 4 + (download.filename.length + rest.length) := by
    rw [layout, ← List.append_assoc, List.length_append, width', List.length_append]
  rw [ofData_eq, if_neg (by omega), if_neg, readPort, readLength, fits.toNat_length, behind,
    List.take_left]
  rw [readLength, fits.toNat_length, not_or]
  exact ⟨fits.length_ne_zero, by omega⟩

/-- The encoding of a name that fits has the size of the body. -/
theorem sized_wire {download : Download} (fits : NameFits download.filename) :
    download.wire.length = download.size.toNat ∧ download.wire.length < 2 ^ 63 := by
  rw [toNat_size download fits.short, length_wire]
  exact ⟨rfl, (Nat.add_le_add_left fits.2 4).trans_lt (by decide)⟩

/-- What is decoded was written in front of the rest. -/
theorem wire_of_ofData {order : ByteOrder} {data : List Byte} {download : Download}
    (decoded : ofData order data = .ok download) :
    NameFits download.filename ∧ ∃ rest, data = download.wire ++ rest := by
  rw [ofData_eq] at decoded
  split_ifs at decoded with short long
  obtain rfl := Except.ok.inj decoded
  obtain ⟨nonzero, inside⟩ := not_or.mp long
  have length : ((data.drop 4).take (field16 data 2).toNat).length = (field16 data 2).toNat :=
    length_field (by omega)
  refine ⟨nameFits_of_checked nonzero (by omega), data.drop (4 + (field16 data 2).toNat), ?_⟩
  rw [wire, length, UInt16.ofNat_toNat, highFirst_field16 (by omega),
    highFirst_field16 (by omega)]
  -- The fields are adjacent ranges of the data, from its start on.
  rw [take_drop_add data 0 2 2, take_drop_add data 0 4, List.drop_zero, List.take_append_drop]

/-- The decoder reads exactly the encodings with a name that fits. -/
theorem prefixCode (order : ByteOrder) :
    PrefixCode (fun value : Port × List Byte => NameFits value.2)
      (fun value => wire ⟨value.1, none, value.2⟩) (fun data => (ofData order data).map fields) where
  reads := by
    intro value fits rest
    rw [ofData_wire order fits]
    rfl
  written := by
    intro data value decoded
    obtain ⟨download, read, rfl⟩ := map_eq_ok.mp decoded
    exact wire_of_ofData read

end Download

/-! ### UPLOAD -/

namespace Upload

/-- What the encoder writes of an object. -/
def fields (upload : Upload) : Port × FileSize × PacketCount × List Byte :=
  (upload.udpPort, upload.fileSize, upload.packetCount, upload.filename)

/-- Decoding a string that starts with an encoding. -/
theorem ofData_wire (order : ByteOrder) {upload : Upload} (fits : NameFits upload.filename)
    (rest : List Byte) :
    ofData order (upload.wire ++ rest) = .ok { upload with filenameSize := none } := by
  set port := highFirst 2 upload.udpPort.toNat with portIs
  set size := highFirst 8 upload.fileSize.toNat with sizeIs
  set count := highFirst 4 upload.packetCount.toNat with countIs
  set length := highFirst 2 (UInt16.ofNat upload.filename.length).toNat with lengthIs
  have width : port.length = 2 := length_highFirst 2 _
  have width' : (port ++ size).length = 10 := by simp [portIs, sizeIs]
  have width'' : (port ++ size ++ count).length = 14 := by simp [portIs, sizeIs, countIs]
  have width''' : (port ++ size ++ count ++ length).length = 16 := by
    simp [portIs, sizeIs, countIs, lengthIs]
  have layout : upload.wire ++ rest =
      port ++ (size ++ (count ++ (length ++ (upload.filename ++ rest)))) := by
    rw [wire]
    simp only [List.append_assoc, portIs, sizeIs, countIs, lengthIs]
  have readPort : field16 (upload.wire ++ rest) 0 = upload.udpPort := by
    rw [layout]
    exact field16_highFirst [] _ rfl upload.udpPort
  have readSize : field64 (upload.wire ++ rest) 2 = upload.fileSize := by
    rw [layout]
    exact field64_highFirst port _ width upload.fileSize
  have readCount : field32 (upload.wire ++ rest) 10 = upload.packetCount := by
    rw [layout, ← List.append_assoc]
    exact field32_highFirst (port ++ size) _ width' upload.packetCount
  have readLength : field16 (upload.wire ++ rest) 14 = UInt16.ofNat upload.filename.length := by
    rw [layout, ← List.append_assoc, ← List.append_assoc]
    exact field16_highFirst (port ++ size ++ count) _ width'' _
  have behind : (upload.wire ++ rest).drop 16 = upload.filename ++ rest := by
    rw [layout, ← List.append_assoc, ← List.append_assoc, ← List.append_assoc,
      List.drop_left' width''']
  have total : (upload.wire ++ rest).length = 16 + (upload.filename.length + rest.length) := by
    rw [layout, ← List.append_assoc, ← List.append_assoc, ← List.append_assoc,
      List.length_append, width''', List.length_append]
  rw [ofData_eq, if_neg (by omega), if_neg, readPort, readSize, readCount, readLength,
    fits.toNat_length, behind, List.take_left]
  rw [readLength, fits.toNat_length, not_or]
  exact ⟨fits.length_ne_zero, by omega⟩

/-- The encoding of a name that fits has the size of the body. -/
theorem sized_wire {upload : Upload} (fits : NameFits upload.filename) :
    upload.wire.length = upload.size.toNat ∧ upload.wire.length < 2 ^ 63 := by
  rw [toNat_size upload fits.short, length_wire]
  exact ⟨rfl, (Nat.add_le_add_left fits.2 16).trans_lt (by decide)⟩

/-- What is decoded was written in front of the rest. -/
theorem wire_of_ofData {order : ByteOrder} {data : List Byte} {upload : Upload}
    (decoded : ofData order data = .ok upload) :
    NameFits upload.filename ∧ ∃ rest, data = upload.wire ++ rest := by
  rw [ofData_eq] at decoded
  split_ifs at decoded with short long
  obtain rfl := Except.ok.inj decoded
  obtain ⟨nonzero, inside⟩ := not_or.mp long
  have length : ((data.drop 16).take (field16 data 14).toNat).length = (field16 data 14).toNat :=
    length_field (by omega)
  refine ⟨nameFits_of_checked nonzero (by omega), data.drop (16 + (field16 data 14).toNat), ?_⟩
  rw [wire, length, UInt16.ofNat_toNat, highFirst_field16 (by omega),
    highFirst_field64 (by omega), highFirst_field32 (by omega), highFirst_field16 (by omega)]
  rw [take_drop_add data 0 2 8, take_drop_add data 0 10 4, take_drop_add data 0 14 2,
    take_drop_add data 0 16, List.drop_zero, List.take_append_drop]

/-- The decoder reads exactly the encodings with a name that fits. -/
theorem prefixCode (order : ByteOrder) :
    PrefixCode (fun value : Port × FileSize × PacketCount × List Byte => NameFits value.2.2.2)
      (fun value => wire ⟨value.1, value.2.1, value.2.2.1, none, value.2.2.2⟩)
      (fun data => (ofData order data).map fields) where
  reads := by
    intro value fits rest
    rw [ofData_wire order fits]
    rfl
  written := by
    intro data value decoded
    obtain ⟨upload, read, rfl⟩ := map_eq_ok.mp decoded
    exact wire_of_ofData read

end Upload

/-! ### RESEND -/

namespace Resend

/-- The decoder reads exactly the encodings. -/
theorem prefixCode (order : ByteOrder) :
    PrefixCode (fun _ : SequenceId => True) (fun value => wire ⟨value⟩)
      (fun data => (ofData order data).map seqId) where
  reads := by
    intro value _ rest
    have read : field64 (wire ⟨value⟩ ++ rest) 0 = value := field64_highFirst [] rest rfl value
    have width : (wire ⟨value⟩).length = 8 := length_highFirst 8 _
    rw [ofData_eq, if_neg (by rw [List.length_append, width]; omega), read]
    rfl
  written := by
    intro data value decoded
    obtain ⟨resend, read, rfl⟩ := map_eq_ok.mp decoded
    rw [ofData_eq] at read
    split_ifs at read with short
    obtain rfl := Except.ok.inj read
    refine ⟨trivial, data.drop 8, ?_⟩
    rw [wire, highFirst_field64 (by omega), List.drop_zero, List.take_append_drop]

end Resend

/-! ### The decoders and the encoders' strings -/

/-- On the data, the decoder of a class accepts exactly what its encoder writes of
allowed objects, with anything behind it. The encoded fields are then the only
ones possible and the ones returned, and other data make it throw. -/
structure AcceptsExactly {α φ : Type} (allowed : α → Prop) (serialize : α → Buffer Byte)
    (fields : α → φ) (decode : List Byte → Except Failure α) (data : List Byte) : Prop where
  encodes : ∀ body, allowed body → (serialize body).inBounds = true
  accepts : Returns (decode data) ↔ ∃ body rest, allowed body ∧
    data = (serialize body).cells ++ rest
  unique : ∀ body body' rest rest', allowed body → allowed body' →
    data = (serialize body).cells ++ rest → data = (serialize body').cells ++ rest' →
      fields body = fields body'
  returned : ∀ body rest, allowed body → data = (serialize body).cells ++ rest →
    ∃ decoded, decode data = .ok decoded ∧ fields decoded = fields body
  throws : ¬ Returns (decode data) → ∃ what, decode data = .error (.exception what)

/-- The decoder of a prefix code for the encoded fields accepts exactly what the
encoder writes. -/
theorem acceptsExactly_of_prefixCode {α φ : Type} {allowed : α → Prop} {fits : φ → Prop}
    {serialize : α → Buffer Byte} {fields : α → φ} {decode : List Byte → Except Failure α}
    {wire : φ → List Byte} (code : PrefixCode fits wire fun data => (decode data).map fields)
    (allowed_iff : ∀ body, allowed body ↔ fits (fields body))
    (encoded : ∀ body, allowed body → serialize body = ⟨wire (fields body), true⟩)
    (onto : ∀ value, ∃ body, fields body = value) {data : List Byte}
    (defined : Defined (decode data)) : AcceptsExactly allowed serialize fields decode data := by
  have cells {body : α} (admitted : allowed body) :
      (serialize body).cells = wire (fields body) := by rw [encoded body admitted]
  refine ⟨?_, ?_, ?_, ?_, ?_⟩
  · intro body admitted
    rw [encoded body admitted]
  · rw [← returns_map fields, Returns, code.accepts_iff]
    constructor
    -- The values of the code are the fields of the bodies.
    · rintro ⟨value, rest, fit, same⟩
      obtain ⟨body, rfl⟩ := onto value
      have admitted := (allowed_iff body).mpr fit
      exact ⟨body, rest, admitted, by rw [cells admitted]; exact same⟩
    · rintro ⟨body, rest, admitted, same⟩
      rw [cells admitted] at same
      exact ⟨fields body, rest, (allowed_iff body).mp admitted, same⟩
  · intro body body' rest rest' admitted admitted' same same'
    rw [cells admitted] at same
    rw [cells admitted'] at same'
    exact (code.unique ((allowed_iff body).mp admitted) ((allowed_iff body').mp admitted')
      (same.symm.trans same')).1
  · intro body rest admitted same
    rw [cells admitted] at same
    have read := code.reads ((allowed_iff body).mp admitted) rest
    rw [← same] at read
    exact map_eq_ok.mp read
  · intro rejected
    -- What is not accepted is refused by an exception, since the decoder is defined.
    cases result : decode data with
    | ok body => exact absurd ⟨body, result⟩ rejected
    | error failure =>
      rw [result] at defined
      cases failure with
      | exception what => exact ⟨what, rfl⟩
      | outOfBounds | nullPointer => exact defined.elim

theorem Download.acceptsExactly (writer reader : ByteOrder) (data : List Byte) :
    AcceptsExactly (fun download => NameFits download.filename) (Download.serialize writer)
      Download.fields (Download.ofData reader) data := by
  refine acceptsExactly_of_prefixCode (Download.prefixCode reader) (fun _ => Iff.rfl) ?_ ?_
    (Download.ofData_defined reader data)
  · intro download fits
    rw [Download.serialize_eq writer download (NameFits.short fits)]
    rfl
  · rintro ⟨port, filename⟩
    exact ⟨⟨port, none, filename⟩, rfl⟩

theorem Upload.acceptsExactly (writer reader : ByteOrder) (data : List Byte) :
    AcceptsExactly (fun upload => NameFits upload.filename) (Upload.serialize writer)
      Upload.fields (Upload.ofData reader) data := by
  refine acceptsExactly_of_prefixCode (Upload.prefixCode reader) (fun _ => Iff.rfl) ?_ ?_
    (Upload.ofData_defined reader data)
  · intro upload fits
    rw [Upload.serialize_eq writer upload (NameFits.short fits)]
    rfl
  · rintro ⟨port, size, count, filename⟩
    exact ⟨⟨port, size, count, none, filename⟩, rfl⟩

theorem Resend.acceptsExactly (writer reader : ByteOrder) (data : List Byte) :
    AcceptsExactly (fun _ => True) (Resend.serialize writer) Resend.seqId (Resend.ofData reader)
      data := by
  refine acceptsExactly_of_prefixCode (Resend.prefixCode reader) (fun _ => Iff.rfl) ?_ ?_
    (Resend.ofData_defined reader data)
  · intro resend _
    rw [Resend.serialize_eq writer resend]
  · intro value
    exact ⟨⟨value⟩, rfl⟩

/-- Between hosts of any two kinds, the three decoders accept exactly the strings
that the encoders write. -/
theorem decoders_acceptExactly (writer reader : ByteOrder) (data : List Byte) :
    AcceptsExactly (fun download => NameFits download.filename) (Download.serialize writer)
        Download.fields (Download.ofData reader) data ∧
      AcceptsExactly (fun upload => NameFits upload.filename) (Upload.serialize writer)
        Upload.fields (Upload.ofData reader) data ∧
      AcceptsExactly (fun _ => True) (Resend.serialize writer) Resend.seqId
        (Resend.ofData reader) data :=
  ⟨Download.acceptsExactly writer reader data, Upload.acceptsExactly writer reader data,
    Resend.acceptsExactly writer reader data⟩

end Fup
