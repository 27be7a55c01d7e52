/-
# Sizes and lengths that are kept twice

A body knows its size, and its encoder fills a vector of that size. The header
of a message announces a size, and the bodies with names keep the lengths of the
names beside them. This module says when these agree.

Each encoder but one returns as many bytes as its body's size says. The size of a
FILES body passes through an `int` on the way. A decoded header keeps the size it
was sent with, whatever the size of the body made of it: the decoders ignore what
is behind the last field, a packet has one size, and a FILES body counts one byte
for a length that takes two.

The decoders of DOWNLOAD and UPLOAD read the length of the name into a local
variable and leave the member as it was.
-/

import Fup.Message.RoundTrip
import Fup.Message.WellFormed

namespace Fup

/-! ### Decoded FILES bodies -/

theorem length_of_readBytesAt {data bytes : List Byte} {offset : ℤ} {length : ℕ}
    (read : readBytesAt data offset length = .ok bytes) : bytes.length = length := by
  by_cases inside : 0 ≤ offset ∧ offset.toNat + length ≤ data.length
  · rw [readBytesAt_eq inside.1 inside.2] at read
    rw [← Except.ok.inj read, length_field inside.2]
  · rw [readBytesAt_eq_outOfBounds (by omega)] at read
    cases read

namespace Files

/-- Every name has the length it was read with. -/
theorem lengths_of_readNames {data : List Byte} {nameSizes : List NameSize} {offset : ℤ}
    {names : List (List Byte)} (read : readNames data nameSizes offset = .ok names) :
    names.map List.length = nameSizes.map UInt16.toNat := by
  induction nameSizes generalizing offset names with
  | nil =>
    obtain rfl := Except.ok.inj read
    rfl
  | cons s nameSizes ih =>
    rw [readNames] at read
    cases first : readBytesAt data offset s.toNat with
    | error failure =>
      rw [first] at read
      cases read
    | ok name =>
      rw [first, ok_bind] at read
      cases others : readNames data nameSizes (int32 (offset + s.toNat)) with
      | error failure =>
        rw [others] at read
        cases read
      | ok rest =>
        rw [others, ok_bind] at read
        obtain rfl := Except.ok.inj read
        rw [List.map_cons, List.map_cons, length_of_readBytesAt first, ih others]

/-- What a decoded FILES body says about its data. -/
structure DecodedFrom (data : List Byte) (files : Files) : Prop where
  elemCount : files.elemCount = field16 data 0
  nameSizes : files.nameSizes = sizes data
  filenames : files.filenames.map List.length = (sizes data).map UInt16.toNat
  inside : namesEnd data ≤ data.length
  unwrapped : lastNameStart data < 2 ^ 31

theorem decodedFrom_of_ofData {order : ByteOrder} {data : List Byte} {files : Files}
    (decoded : ofData order data = .ok files) : DecodedFrom data files := by
  rw [ofData_eq] at decoded
  split_ifs at decoded with short rejected
  obtain ⟨names, read, rfl⟩ := map_eq_ok.mp decoded
  have defined := readNames_sizes_defined_iff data
  rw [read] at defined
  -- A count of zero has neither sizes nor names to read.
  have ends : namesEnd data ≤ data.length ∧ lastNameStart data < 2 ^ 31 := by
    rcases defined.mp trivial with empty | ends
    · have length := length_sizes data
      rw [empty, List.length_nil] at length
      rw [namesEnd, lastNameStart, empty, total_nil, List.dropLast_nil, total_nil]
      omega
    · exact ends
  exact ⟨rfl, rfl, lengths_of_readNames read, ends.1, ends.2⟩

/-- The last name ends at most 65535 bytes behind its start. -/
theorem namesEnd_le_lastNameStart (data : List Byte) :
    namesEnd data ≤ lastNameStart data + 65535 := by
  -- The last size is at most what two bytes hold.
  have last (nameSizes : List NameSize) :
      total nameSizes ≤ total nameSizes.dropLast + 65535 := by
    induction nameSizes with
    | nil => exact Nat.zero_le _
    | cons s nameSizes ih =>
      cases nameSizes with
      | nil =>
        have below := s.toNat_lt
        rw [List.dropLast_singleton, total_cons, total_nil]
        omega
      | cons t rest =>
        rw [List.dropLast_cons_cons, total_cons, total_cons s]
        omega
  have bound := last (sizes data)
  rw [namesEnd, lastNameStart]
  omega

/-! ### The size of a FILES body -/

/-- The loop of `size` keeps the wrapped sum. -/
theorem foldl_int32_add (nameSizes : List NameSize) (summed : ℤ) :
    nameSizes.foldl (fun total s => int32 (total + s.toNat)) (int32 summed) =
      int32 (summed + total nameSizes) := by
  induction nameSizes generalizing summed with
  | nil => rw [List.foldl_nil, total_nil, Nat.cast_zero, add_zero]
  | cons s nameSizes ih =>
    rw [List.foldl_cons, int32_add_int32, ih, total_cons, Nat.cast_add, add_assoc]

/-- The size in exact arithmetic: the wrapped sum of the lengths, and one byte
for each length and for their number. -/
theorem toNat_size (files : Files) :
    (files.size.toNat : ℤ) =
      (int32 (total files.nameSizes) + (files.nameSizes.length + 1)) % 2 ^ 64 := by
  have loop := foldl_int32_add files.nameSizes 0
  rw [int32_of_small le_rfl (by decide), zero_add] at loop
  have below : ((int32 (total files.nameSizes) +
      ((files.nameSizes.length + 1) * 1 : ℕ)) % 2 ^ 64).toNat < 2 ^ 64 := by omega
  rw [size, loop, UInt64.ofInt, UInt64.toNat_ofNat_of_lt' below]
  push_cast
  rw [mul_one]
  exact Int.toNat_of_nonneg (Int.emod_nonneg _ (by decide))

/-- The encoder's size fits the `int` that it is converted to. -/
def Sizable (files : Files) : Prop :=
  (int32 (total files.nameSizes) + (files.nameSizes.length + 1)) % 2 ^ 64 < 2 ^ 31

theorem length_foldl_putSize (order : ByteOrder) (nameSizes : List NameSize)
    (buf : Buffer Byte × ℕ) :
    (nameSizes.foldl (putSize order) buf).1.cells.length = buf.1.cells.length := by
  induction nameSizes generalizing buf with
  | nil => rfl
  | cons s nameSizes ih =>
    rw [List.foldl_cons, ih, putSize]
    exact Buffer.length_cells_memcpy _ _ _

theorem length_foldl_putName (names : List (List Byte)) (buf : Buffer Byte × ℕ) :
    (names.foldl putName buf).1.cells.length = buf.1.cells.length := by
  induction names generalizing buf with
  | nil => rfl
  | cons name names ih =>
    rw [List.foldl_cons, ih, putName]
    exact Buffer.length_cells_memcpy _ _ _

/-- The encoder returns as many bytes as the size says when the size fits. -/
theorem serialize_sized_iff (order : ByteOrder) (files : Files) :
    (∃ buf, files.serialize order = .ok buf ∧ buf.cells.length = files.size.toNat) ↔
      files.Sizable := by
  have length (buf : Buffer Byte) (n : ℕ) (filled : buf.cells.length = n) :
      ((files.filenames.foldl putName
        (files.nameSizes.foldl (putSize order) (buf, 2))).1).cells.length = n := by
    rw [length_foldl_putName, length_foldl_putSize, filled]
  rw [Sizable, ← toNat_size, serialize]
  constructor
  · rintro ⟨buf, encoded, sized⟩
    split_ifs at encoded with negative
    obtain rfl := Except.ok.inj encoded
    rw [length _ (int32 files.size.toNat).toNat (by simp)] at sized
    have below := int32_lt files.size.toNat
    omega
  · intro small
    have fits : int32 files.size.toNat = files.size.toNat :=
      int32_of_small (Int.natCast_nonneg _) small
    refine ⟨_, if_neg ?_, ?_⟩
    · rw [fits]
      exact not_lt.mpr (Int.natCast_nonneg _)
    · rw [length _ files.size.toNat]
      simp [fits]

/-- The size of a decoded FILES body falls short of the bytes it was read from. -/
theorem size_ne_length {data : List Byte} {files : Files} (decoded : DecodedFrom data files)
    (short : data.length < 2 ^ 32) : files.size.toNat ≠ data.length := by
  have size := toNat_size files
  have few := count_lt data
  have inside := decoded.inside
  have unwrapped := decoded.unwrapped
  have last := namesEnd_le_lastNameStart data
  rw [decoded.nameSizes, length_sizes] at size
  rw [namesEnd] at inside last
  by_cases small : total (sizes data) < 2 ^ 31
  · -- One byte of two is missing for each length and for their number.
    rw [int32_of_small (by omega) (by omega)] at size
    omega
  · -- The sum has wrapped below zero, and the size is close to `2 ^ 64`.
    rw [int32_of_large (by omega) (by omega)] at size
    omega

end Files

/-! ### Lengths after decoding -/

namespace Body

/-- The length fields of a body describe the data beside them. A member that its
constructor did not assign holds what its memory held before. -/
def LengthsAgree (before : NameSize) : Body → Prop
  | files f => f.elemCount.toNat = f.nameSizes.length ∧
      f.elemCount.toNat = f.filenames.length ∧
        f.nameSizes.map UInt16.toNat = f.filenames.map List.length
  | download d => (d.filenameSize.getD before).toNat = d.filename.length
  | upload u => (u.filenameSize.getD before).toNat = u.filename.length
  | _ => True

/-- The memory of the unassigned member happens to hold the length that is read
into the local variable. -/
def HoldsLength (keyword : Keyword) (data : List Byte) (before : NameSize) : Prop :=
  match keyword with
  | .download => before = field16 data 2
  | .upload => before = field16 data 14
  | _ => True

/-- Decoding a FILES body makes its lengths agree. Decoding a DOWNLOAD or an UPLOAD
leaves that to the memory it is made in. -/
theorem lengthsAgree_iff {order : ByteOrder} {keyword : Keyword} {data : List Byte} {body : Body}
    (created : createBody order keyword data = .ok body) (before : NameSize) :
    body.LengthsAgree before ↔ HoldsLength keyword data before := by
  cases keyword with
  | listFiles | ack | abort =>
    obtain rfl := Except.ok.inj created
    exact Iff.rfl
  | unnamed value beyond => cases created
  | files =>
    obtain ⟨files, made, rfl⟩ := map_eq_ok.mp created
    have decoded := Files.decodedFrom_of_ofData made
    have names := congrArg List.length decoded.filenames
    rw [List.length_map, List.length_map, Files.length_sizes] at names
    refine iff_of_true ⟨?_, ?_, ?_⟩ trivial
    · rw [decoded.elemCount, decoded.nameSizes, Files.length_sizes, Files.count]
    · rw [decoded.elemCount, names, Files.count]
    · rw [decoded.nameSizes, decoded.filenames]
  | download =>
    obtain ⟨download, made, rfl⟩ := map_eq_ok.mp created
    obtain ⟨unassigned, length⟩ := Download.length_of_ofData made
    rw [LengthsAgree, HoldsLength, unassigned, length, Option.getD_none, UInt16.toNat_inj]
  | upload =>
    obtain ⟨upload, made, rfl⟩ := map_eq_ok.mp created
    obtain ⟨unassigned, length⟩ := Upload.length_of_ofData made
    rw [LengthsAgree, HoldsLength, unassigned, length, Option.getD_none, UInt16.toNat_inj]
  | resend | packet =>
    obtain ⟨_, -, rfl⟩ := map_eq_ok.mp created
    exact Iff.rfl

/-- The theorem for a FILES body of one name. -/
theorem lengthsAgree_iff_oneName :
    (files ⟨1, [1], [[97]]⟩).LengthsAgree 0 ↔ HoldsLength .files [0, 1, 0, 1, 97] 0 :=
  lengthsAgree_iff (by decide : createBody .little .files [0, 1, 0, 1, 97] = .ok _) 0

/-- A DOWNLOAD of one name in memory of zeros has the length zero. -/
theorem not_lengthsAgree_download :
    ∃ body, createBody .little .download [0, 80, 0, 1, 97] = .ok body ∧ ¬ body.LengthsAgree 0 := by
  refine ⟨.download ⟨80, none, [97]⟩, by decide, ?_⟩
  rw [LengthsAgree]
  decide

/-! ### Sizes -/

/-- The vector that the encoder returns has the size of the body. -/
def Sizable : Body → Prop
  | files f => f.Sizable
  | _ => True

theorem serialize_sized_iff (order : ByteOrder) (body : Body) :
    (∃ buf, body.serialize order = .ok buf ∧ buf.cells.length = body.size.toNat) ↔
      body.Sizable := by
  cases body with
  | files f => exact f.serialize_sized_iff order
  | base => exact iff_of_true ⟨_, rfl, rfl⟩ trivial
  | download d => exact iff_of_true ⟨_, rfl, by simp [Download.serialize, size]⟩ trivial
  | upload u => exact iff_of_true ⟨_, rfl, by simp [Upload.serialize, size]⟩ trivial
  | resend r => exact iff_of_true ⟨_, rfl, by simp [Resend.serialize, size]⟩ trivial
  | packet p => exact iff_of_true ⟨_, rfl, by simp [Packet.serialize, size]⟩ trivial

/-- A body below `2 ^ 31` bytes is encoded in as many bytes as its size says. -/
theorem sizable_of_small {body : Body} (small : body.size.toNat < 2 ^ 31) : body.Sizable := by
  cases body with
  | files files =>
    have size := Files.toNat_size files
    rw [Body.size] at small
    rw [Sizable, Files.Sizable, ← size]
    exact_mod_cast small
  | base | download | upload | resend | packet => trivial

/-- The body of a message with this keyword has as many bytes as the object made
of it writes. -/
def Exact (keyword : Keyword) (body : List Byte) : Prop :=
  match keyword with
  | .listFiles => body = []
  | .files => False
  | .download => body.length = 4 + (field16 body 2).toNat
  | .upload => body.length = 16 + (field16 body 14).toNat
  | .resend => body.length = 8
  | .ack => body = []
  | .abort => body = []
  | .packet => body.length = packetSize
  | .unnamed _ _ => False

/-- What is made of a body has its size and writes that many bytes exactly when
nothing is behind its last field, a packet is full, and there are no names to
list. -/
theorem sized_createBody_iff {order : ByteOrder} {keyword : Keyword} {data : List Byte}
    {body : Body} (created : createBody order keyword data = .ok body)
    (short : data.length < 2 ^ 32) :
    body.size.toNat = data.length ∧ body.Sizable ↔ Exact keyword data := by
  cases keyword with
  | listFiles | ack | abort =>
    obtain rfl := Except.ok.inj created
    exact (and_iff_left trivial).trans (eq_comm.trans List.length_eq_zero_iff)
  | unnamed value beyond => cases created
  | files =>
    obtain ⟨files, made, rfl⟩ := map_eq_ok.mp created
    have differs := Files.size_ne_length (Files.decodedFrom_of_ofData made) short
    exact iff_of_false (fun sized => differs sized.1) id
  | download =>
    obtain ⟨download, made, rfl⟩ := map_eq_ok.mp created
    obtain ⟨-, length⟩ := Download.length_of_ofData made
    have below := (field16 data 2).toNat_lt
    rw [size, Download.toNat_size _ (by rw [length]; omega), length, Exact]
    exact (and_iff_left trivial).trans eq_comm
  | upload =>
    obtain ⟨upload, made, rfl⟩ := map_eq_ok.mp created
    obtain ⟨-, length⟩ := Upload.length_of_ofData made
    have below := (field16 data 14).toNat_lt
    rw [size, Upload.toNat_size _ (by rw [length]; omega), length, Exact]
    exact (and_iff_left trivial).trans eq_comm
  | resend | packet =>
    obtain ⟨_, -, rfl⟩ := map_eq_ok.mp created
    exact (and_iff_left trivial).trans eq_comm

end Body

namespace Message

/-- The header announces the size of the body, and the body writes that many
bytes. -/
def SizesAgree (order : ByteOrder) (message : Message) : Prop :=
  ∃ body buf, message.body = some body ∧ body.serialize order = .ok buf ∧
    message.header.bodySize = body.size ∧ buf.cells.length = body.size.toNat

theorem sizesAgree_some_iff (order : ByteOrder) (header : Header) (body : Body) :
    SizesAgree order ⟨header, some body⟩ ↔ header.bodySize = body.size ∧ body.Sizable := by
  rw [← body.serialize_sized_iff order]
  constructor
  · rintro ⟨_, buf, ⟨⟩, encoded, announced, sized⟩
    exact ⟨announced, buf, encoded, sized⟩
  · rintro ⟨announced, buf, encoded, sized⟩
    exact ⟨body, buf, rfl, encoded, announced, sized⟩

theorem sizesAgree_of_ofBody {order : ByteOrder} {header : Header} {body : Body}
    {message : Message} (made : ofBody header (some body) = .ok message) :
    message.SizesAgree order ↔ body.Sizable := by
  obtain rfl := Except.ok.inj made
  rw [sizesAgree_some_iff]
  exact and_iff_right rfl

/-- A host reads a body size of 32 bits. -/
theorem toNat_bodySize_read_lt (order : ByteOrder) (data : List Byte) :
    (Header.read order data).bodySize.toNat < 2 ^ 32 := by
  cases order with
  | little => exact UInt32.toNat_lt _
  | big => exact UInt32.toNat_lt _

theorem sizesAgree_of_ofData {order : ByteOrder} {data : List Byte} {message : Message}
    (decoded : ofData order data = .ok message)
    (exactly : data.length = Header.size + message.header.bodySize.toNat) :
    message.SizesAgree order ↔
      Body.Exact message.header.keyword (data.drop Header.size) := by
  obtain ⟨-, read, -, body, present, created⟩ := ofData_eq_ok decoded
  have short := toNat_bodySize_read_lt order data
  have length : (data.drop Header.size).length = message.header.bodySize.toNat := by
    rw [List.length_drop, exactly, Nat.add_sub_cancel_left]
  rw [← read, ← length] at short
  rw [← Body.sized_createBody_iff created short, length]
  obtain ⟨header, _⟩ := message
  obtain rfl := present
  rw [sizesAgree_some_iff, ← UInt64.toNat_inj]
  exact and_congr_left fun _ => eq_comm

/-- A message whose sizes agree is sent, with any connection id, as a header and
the bytes it announces. -/
theorem length_serialize_of_sizesAgree {order : ByteOrder} {message : Message}
    (agree : message.SizesAgree order) (small : message.header.bodySize.toNat < 2 ^ 63)
    (id : ConnectionId) :
    ∃ frame, ({ message with header := { message.header with connectionId := id } }).serialize
      order = .ok frame ∧ frame.cells.length = Header.size + message.header.bodySize.toNat := by
  obtain ⟨body, buf, present, encoded, announced, sized⟩ := agree
  rw [announced] at small
  refine ⟨_, serialize_eq order present encoded sized small, ?_⟩
  rw [List.length_append, Header.length_wire, sized, announced]

/-- In which messages the announced size, the size of the body and the size of its
encoding agree, for both ways of making one, and what that means on the wire. -/
theorem sizesAgree_iff (order : ByteOrder) :
    (∀ header body (message : Message), ofBody header (some body) = .ok message →
      (message.SizesAgree order ↔ body.Sizable)) ∧
    (∀ data (message : Message), ofData order data = .ok message →
      data.length = Header.size + message.header.bodySize.toNat →
      (message.SizesAgree order ↔
        Body.Exact message.header.keyword (data.drop Header.size))) ∧
    ∀ message : Message, message.SizesAgree order → message.header.bodySize.toNat < 2 ^ 63 → ∀ id,
      ∃ frame, ({ message with header := { message.header with connectionId := id } }).serialize
        order = .ok frame ∧ frame.cells.length = Header.size + message.header.bodySize.toNat :=
  ⟨fun _ _ _ made => sizesAgree_of_ofBody made,
    fun _ _ decoded exactly => sizesAgree_of_ofData decoded exactly,
    fun _ agree small id => length_serialize_of_sizesAgree agree small id⟩

/-- The theorem for a RESEND, made, decoded and sent on. -/
theorem sizesAgree_iff_resend :
    (SizesAgree .little ⟨⟨1, 7, .resend, 8⟩, some (.resend ⟨2⟩)⟩ ↔ (Body.resend ⟨2⟩).Sizable) ∧
    (SizesAgree .little ⟨⟨1, 7, .resend, 8⟩, some (.resend ⟨2⟩)⟩ ↔
      Body.Exact .resend [0, 0, 0, 0, 0, 0, 0, 2]) ∧
      ∃ frame, (Message.mk ⟨1, 9, .resend, 8⟩ (some (.resend ⟨2⟩))).serialize .little = .ok frame ∧
        frame.cells.length = Header.size + 8 :=
  ⟨(sizesAgree_iff .little).1 ⟨1, 7, .resend, 8⟩ (.resend ⟨2⟩) _ rfl,
    (sizesAgree_iff .little).2.1
      [0, 1, 0, 0, 0, 7, 4, 0, 0, 0, 8, 0, 0, 0, 0, 0, 0, 0, 0, 0, 0, 0, 2] _ (by decide)
      (by decide),
    (sizesAgree_iff .little).2.2 ⟨⟨1, 7, .resend, 8⟩, some (.resend ⟨2⟩)⟩
      ⟨.resend ⟨2⟩, ⟨[0, 0, 0, 0, 0, 0, 0, 2], true⟩, rfl, by decide, rfl, rfl⟩ (by decide) 9⟩

/-- A list of one file, as the decoder accepts it, announces five bytes and has
three. -/
theorem not_sizesAgree_files :
    ∃ message, ofData .little
        [0, 1, 0, 0, 0, 7, 1, 0, 0, 0, 5, 0, 0, 0, 0, 0, 1, 0, 1, 97] = .ok message ∧
      message.header.bodySize = 5 ∧ ¬ message.SizesAgree .little := by
  refine ⟨⟨⟨1, 7, .files, 5⟩, some (.files ⟨1, [1], [[97]]⟩)⟩, by decide, rfl, ?_⟩
  rw [sizesAgree_some_iff]
  intro agree
  exact absurd agree.1 (by decide)

end Message

end Fup
