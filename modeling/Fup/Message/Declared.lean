/-
# Bytes behind the declared body

The decoder of a datagram compares the size that the header declares with what is
there, and then passes everything behind the header to the decoder of the body.
What is behind the declared body makes no difference as long as that decoder
finds the end of its last field by itself. The bodies with one name do, and so do
the bodies of one field or none. A packet takes all there is as its payload. A FILES
body finds its end, but compares it with the size of everything, as an `int`: the
comparison turns at `2 ^ 31` bytes.
-/

import Fup.Lib.PrefixCode
import Fup.Message.Language
import Fup.Message.Sizes

namespace Fup

/-- Wrapping what a decoder returns does not change where it settles. -/
theorem settles_map_iff {α β : Type} {decode : List Byte → Except Failure α} {f : α → β}
    (injective : Function.Injective f) {data : List Byte} :
    Settles (fun d => (decode d).map f) data ↔ Settles decode data :=
  forall_congr' fun _ => map_inj injective

/-! ### Bodies of fixed fields and one name -/

/-- A field of two bytes that reaches into a run of ones is not zero. -/
theorem field16_ne_zero_of_ones {data : List Byte} {offset n : ℕ}
    (reaches : data.length ≤ offset + 1) (inside : offset + 2 ≤ data.length + n) :
    field16 (data ++ List.replicate n 1) offset ≠ 0 := by
  intro zero
  have long : offset + 2 ≤ (data ++ List.replicate n 1).length := by
    rw [List.length_append, List.length_replicate]
    exact inside
  have bytes := highFirst_field16 long
  rw [zero] at bytes
  -- The second byte of the field is one of the ones.
  have one : (((data ++ List.replicate n 1).drop offset).take 2)[1]? = some 1 := by
    rw [List.getElem?_take_of_lt (by decide), List.getElem?_drop,
      List.getElem?_append_right reaches, List.getElem?_replicate, if_pos (by omega)]
  rw [← bytes] at one
  exact absurd one (by decide)

/-- A decoder of fixed fields up to `fixed`, the last of them the length of a name
that comes next. -/
structure Named {α : Type} (decode : List Byte → Except Failure α) (fixed : ℕ) (what : String)
    (make : List Byte → α) : Prop where
  eq : ∀ data, decode data =
    if data.length < fixed + 2 then .error (.exception what)
    else if field16 data fixed = 0 ∨ data.length - (fixed + 2) < (field16 data fixed).toNat then
      .error (.exception what)
    else .ok (make data)
  make_append : ∀ data rest, fixed + 2 + (field16 data fixed).toNat ≤ data.length →
    make (data ++ rest) = make data

namespace Named

variable {α : Type} {decode : List Byte → Except Failure α} {fixed : ℕ} {what : String}
  {make : List Byte → α} (named : Named decode fixed what make) {data : List Byte}

include named

theorem accepts (nonzero : field16 data fixed ≠ 0)
    (inside : fixed + 2 + (field16 data fixed).toNat ≤ data.length) :
    decode data = .ok (make data) := by
  rw [named.eq, if_neg (by omega), if_neg (not_or.mpr ⟨nonzero, by omega⟩)]

theorem rejects (cut : data.length < fixed + 2 + (field16 data fixed).toNat) :
    decode data = .error (.exception what) := by
  rw [named.eq]
  split_ifs
  · rfl
  · rfl
  · omega

/-- The decoder settles on data that hold the length and the name it counts. -/
theorem settles_iff : Settles decode data ↔
    fixed + 2 ≤ data.length ∧ fixed + 2 + (field16 data fixed).toNat ≤ data.length := by
  constructor
  · intro settled
    by_contra missing
    have rejected : decode data = .error (.exception what) := named.rejects (by omega)
    -- Some continuation is accepted, although the data are not.
    by_cases short : data.length < fixed + 2
    · have accepted := settled (List.replicate (fixed + 65537) 1)
      have nonzero : field16 (data ++ List.replicate (fixed + 65537) 1) fixed ≠ 0 :=
        field16_ne_zero_of_ones (by omega) (by omega)
      have below := (field16 (data ++ List.replicate (fixed + 65537) 1) fixed).toNat_lt
      rw [rejected, named.accepts nonzero (by rw [List.length_append, List.length_replicate]; omega)]
        at accepted
      cases accepted
    · have accepted := settled (List.replicate (field16 data fixed).toNat 0)
      have same := field16_append (show fixed + 2 ≤ data.length by omega)
        (List.replicate (field16 data fixed).toNat 0)
      have nonzero : field16 data fixed ≠ 0 := by
        intro zero
        rw [zero, UInt16.toNat_zero] at missing
        omega
      rw [rejected, named.accepts (by rwa [same])
        (by rw [same, List.length_append, List.length_replicate]; omega)] at accepted
      cases accepted
  · rintro ⟨whole, inside⟩ rest
    have same := field16_append whole rest
    by_cases zero : field16 data fixed = 0
    · rw [named.eq, named.eq data, same, if_pos (Or.inl zero), if_pos (Or.inl zero),
        if_neg (Nat.not_lt.mpr whole), if_neg]
      rw [List.length_append]
      omega
    · rw [named.accepts zero inside, named.accepts (by rwa [same]), named.make_append _ _ inside]
      rw [same, List.length_append]
      omega

end Named

theorem Download.named (order : ByteOrder) :
    Named (ofData order) 2 "fup::Download: Insufficient data" fun data =>
      ⟨field16 data 0, none, (data.drop 4).take (field16 data 2).toNat⟩ where
  eq data := ofData_eq order data
  make_append := by
    intro data rest inside
    rw [field16_append (by omega), field16_append (by omega), take_drop_append inside]

theorem Upload.named (order : ByteOrder) :
    Named (ofData order) 14 "fup::Upload: Insufficient data" fun data =>
      ⟨field16 data 0, field64 data 2, field32 data 10, none,
        (data.drop 16).take (field16 data 14).toNat⟩ where
  eq data := ofData_eq order data
  make_append := by
    intro data rest inside
    rw [field16_append (by omega), field64_append (by omega), field32_append (by omega),
      field16_append (by omega), take_drop_append inside]

theorem Resend.settles_iff (order : ByteOrder) (data : List Byte) :
    Settles (ofData order) data ↔ 8 ≤ data.length := by
  constructor
  · intro settled
    by_contra short
    have accepted := settled (List.replicate 8 0)
    rw [ofData_eq, ofData_eq order data, List.length_append, List.length_replicate,
      if_neg (by omega), if_pos (by omega)] at accepted
    cases accepted
  · intro whole
    have accepted : (ofData order data).map seqId = .ok (field64 data 0) := by
      rw [ofData_eq, if_neg (by omega)]
      rfl
    have injective : Function.Injective Resend.seqId := by
      rintro ⟨first⟩ ⟨second⟩ rfl
      rfl
    exact (settles_map_iff injective).mp ((prefixCode order).settles accepted)

/-- More bytes are a longer payload. -/
theorem Packet.not_settles (order : ByteOrder) (data : List Byte) :
    ¬ Settles (ofData order) data := by
  intro settled
  have accepted := settled (List.replicate 12 0)
  rw [ofData_eq, ofData_eq order data, List.length_append, List.length_replicate,
    if_neg (by omega)] at accepted
  split_ifs at accepted with short
  have payloads := congrArg (fun packet : Packet => packet.payload.length)
    (Except.ok.inj accepted)
  simp only [List.length_drop, List.length_append, List.length_replicate] at payloads
  omega

/-! ### FILES -/

namespace Files

variable {data : List Byte}

section Append

variable (table : 2 + 2 * count data ≤ data.length) (rest : List Byte)

include table

theorem count_append : count (data ++ rest) = count data := by
  rw [count, field16_append (by omega), count]

theorem sizes_append : sizes (data ++ rest) = sizes data := by
  rw [sizes, count_append table, sizes, sizesFrom, sizesFrom]
  apply List.map_congr_left
  intro i listed
  have inTable := (List.mem_range'_1.mp listed).2
  exact field16_append (by omega) rest

theorem namesEnd_append : namesEnd (data ++ rest) = namesEnd data := by
  rw [namesEnd, count_append table, sizes_append table, namesEnd]

end Append

/-- Names that end inside the data are read alike whatever is behind them. -/
theorem readNames_append {nameSizes : List NameSize} {offset : ℕ}
    (fits : Fits data offset nameSizes) (rest : List Byte) :
    readNames (data ++ rest) nameSizes (int32 offset) =
      readNames data nameSizes (int32 offset) := by
  induction nameSizes generalizing offset with
  | nil => rfl
  | cons s nameSizes ih =>
    obtain ⟨small, inside, later⟩ := fits
    have others := ih later
    push_cast at others
    rw [readNames, readNames, int32_of_small (Int.natCast_nonneg offset) (by omega), others,
      readBytesAt_eq (Int.natCast_nonneg offset)
        (by rw [Int.toNat_natCast, List.length_append]; omega),
      readBytesAt_eq (Int.natCast_nonneg offset) (by rw [Int.toNat_natCast]; exact inside),
      Int.toNat_natCast, take_drop_append inside]

/-- The loop over the names has no exception of its own. -/
theorem readNames_ne_exception (nameSizes : List NameSize) (offset : ℤ) (what : String) :
    readNames data nameSizes offset ≠ .error (.exception what) := by
  induction nameSizes generalizing offset with
  | nil => exact fun impossible => by cases impossible
  | cons s nameSizes ih =>
    intro threw
    rw [readNames] at threw
    -- Only the reads of the names can fail, and only outside the data.
    by_cases inside : 0 ≤ offset ∧ offset.toNat + s.toNat ≤ data.length
    · rw [readBytesAt_eq inside.1 inside.2, ok_bind] at threw
      have others := ih (int32 (offset + s.toNat))
      cases result : readNames data nameSizes (int32 (offset + s.toNat)) with
      | ok names =>
        rw [result] at threw
        cases threw
      | error failure =>
        rw [result] at threw others
        exact others threw
    · rw [readBytesAt_eq_outOfBounds (by omega)] at threw
      cases threw

/-- What the decoder makes of data whose table of lengths is inside, by the
comparison at its end. -/
theorem ofData_append_eq (order : ByteOrder) (table : 2 + 2 * count data ≤ data.length)
    (rest : List Byte) :
    ofData order (data ++ rest) =
      if int32 (namesEnd data) > int32 (data ++ rest).length then
        .error (.exception "fup::Files: Insufficient data")
      else (readNames (data ++ rest) (sizes data) (2 + 2 * count data : ℕ)).map
        fun filenames => ⟨field16 data 0, sizes data, filenames⟩ := by
  rw [ofData_eq, count_append table, namesEnd_append table, sizes_append table,
    field16_append (by omega), if_neg]
  rw [List.length_append]
  omega

/-- When the names end inside the data, what is behind them only counts in the
comparison. -/
theorem ofData_append_of_inside (order : ByteOrder) (inside : namesEnd data ≤ data.length)
    (unwrapped : lastNameStart data < 2 ^ 31) (rest : List Byte)
    (alike : int32 (namesEnd data) > int32 (data ++ rest).length ↔
      int32 (namesEnd data) > int32 data.length) :
    ofData order (data ++ rest) = ofData order data := by
  have table : 2 + 2 * count data ≤ data.length := (Nat.le_add_right _ _).trans inside
  have few := count_lt data
  have fits : Fits data (2 + 2 * count data) (sizes data) :=
    (fits_iff data (sizes data) _).mpr (Or.inr ⟨inside, unwrapped⟩)
  have names := readNames_append fits rest
  rw [int32_of_small (by omega) (by omega)] at names
  -- The data alone are the case of nothing behind them.
  have here := ofData_append_eq order table []
  rw [List.append_nil] at here
  rw [ofData_append_eq order table rest, here, names]
  simp only [alike]

/-- The names end where the comparison turns, and the last of them starts before. -/
def TurnsAt (data : List Byte) : Prop :=
  namesEnd data ≤ data.length ∧ namesEnd data = 2 ^ 31 ∧ lastNameStart data < 2 ^ 31

/-- As the data grow, their size comes out at either end of the `int`. -/
theorem int32_length_turns (n : ℕ) :
    int32 ((2 ^ 31 - 1 + 2 ^ 32 * n : ℕ) : ℤ) = 2 ^ 31 - 1 ∧
      int32 ((2 ^ 31 + 2 ^ 32 * n : ℕ) : ℤ) = -2 ^ 31 := by
  have highest : ((2 ^ 31 - 1 + 2 ^ 32 * n : ℕ) : ℤ) = 2 ^ 31 - 1 + 2 ^ 32 * n := by omega
  have lowest : ((2 ^ 31 + 2 ^ 32 * n : ℕ) : ℤ) = 2 ^ 31 + 2 ^ 32 * n := by omega
  rw [highest, lowest, int32_add_mul, int32_add_mul]
  exact ⟨int32_of_small (by decide) (by decide), int32_of_large (by decide) (by decide)⟩

/-- Unless the names end at `2 ^ 31`, some size of the data passes for too small and
another does not. -/
theorem namesEnd_of_settles {order : ByteOrder} (table : 2 + 2 * count data ≤ data.length)
    (settled : Settles (ofData order) data) : namesEnd data = 2 ^ 31 := by
  by_contra elsewhere
  have bound := namesEnd_lt data
  obtain ⟨highest, lowest⟩ := int32_length_turns data.length
  have reach (total : ℕ) (more : data.length ≤ total) :
      ((data ++ List.replicate (total - data.length) (0 : Byte)).length : ℤ) = total := by
    rw [List.length_append, List.length_replicate]
    omega
  have above : -2 ^ 31 < int32 (namesEnd data) := by
    rw [int32, Int.bmod_eq_emod]
    split_ifs <;> omega
  -- Both sizes are reached with zeros behind the data.
  have large := settled (List.replicate (2 ^ 31 - 1 + 2 ^ 32 * data.length - data.length) 0)
  have small := settled (List.replicate (2 ^ 31 + 2 ^ 32 * data.length - data.length) 0)
  rw [ofData_append_eq order table, reach _ (by omega), highest, if_neg] at large
  · rw [ofData_append_eq order table, reach _ (by omega), lowest, if_pos above] at small
    rw [← small] at large
    exact readNames_ne_exception _ _ _ (eq_error_of_map large)
  · have limit := int32_lt (namesEnd data)
    omega

/-- The decoder settles, and stays inside the data, exactly when the names end where
the comparison turns. -/
theorem settles_iff (order : ByteOrder) (data : List Byte) :
    Settles (ofData order) data ∧ Defined (ofData order data) ↔ TurnsAt data := by
  constructor
  · rintro ⟨settled, defined⟩
    -- With enough behind them the data have the whole table.
    set extended := data ++ List.replicate 131072 0 with extendedIs
    have few := count_lt extended
    have table : 2 + 2 * count extended ≤ extended.length := by
      rw [extendedIs, List.length_append, List.length_replicate, ← extendedIs]
      omega
    have turns := namesEnd_of_settles table (settled.append _)
    have result := ofData_append_eq order table []
    have least := le_int32 (extended ++ []).length
    rw [turns, int32_of_large (by decide) (by decide), if_neg (by omega), List.append_nil,
      settled] at result
    -- The comparison passes every size, so nothing was rejected.
    have returned : ∃ files, ofData order data = .ok files := by
      cases made : ofData order data with
      | ok files => exact ⟨files, rfl⟩
      | error failure =>
        rw [made] at defined result
        cases failure with
        | exception what =>
          exact absurd (eq_error_of_map result.symm) (readNames_ne_exception _ _ _)
        | outOfBounds | nullPointer => exact defined.elim
    obtain ⟨files, made⟩ := returned
    have decoded := decodedFrom_of_ofData made
    have inTable : 2 + 2 * count data ≤ data.length :=
      (Nat.le_add_right _ _).trans decoded.inside
    rw [extendedIs, namesEnd_append inTable] at turns
    exact ⟨decoded.inside, turns, decoded.unwrapped⟩
  · rintro ⟨inside, turns, unwrapped⟩
    have passes (n : ℕ) : ¬ int32 (namesEnd data) > int32 n := by
      have least := le_int32 n
      rw [turns, int32_of_large (by decide) (by decide)]
      push_cast
      omega
    refine ⟨fun rest => ?_, ?_⟩
    · exact ofData_append_of_inside order inside unwrapped rest
        (iff_of_false (passes _) (passes _))
    · rw [ofData_defined_iff]
      rintro ⟨-, -, outside⟩
      omega

end Files

/-! ### All bodies -/

/-- The decoder of the keyword finds the end of the body by itself. -/
def Body.Delimited (keyword : Keyword) (body : List Byte) : Prop :=
  match keyword with
  | .listFiles => True
  | .files => Files.TurnsAt body
  | .download => 4 ≤ body.length ∧ 4 + (field16 body 2).toNat ≤ body.length
  | .upload => 16 ≤ body.length ∧ 16 + (field16 body 14).toNat ≤ body.length
  | .resend => 8 ≤ body.length
  | .ack => True
  | .abort => True
  | .packet => False
  | .unnamed _ _ => True

/-- The factory settles, and stays inside the data, exactly on the delimited bodies. -/
theorem Body.settles_iff (order : ByteOrder) (keyword : Keyword) (data : List Byte) :
    Settles (createBody order keyword) data ∧ Defined (createBody order keyword data) ↔
      Delimited keyword data := by
  cases keyword with
  | listFiles | ack | abort | unnamed => exact iff_of_true ⟨fun _ => rfl, trivial⟩ trivial
  | files =>
    rw [createBody, defined_map]
    exact (and_congr_left' (settles_map_iff fun _ _ => Body.files.inj)).trans
      (Files.settles_iff order data)
  | download =>
    rw [createBody, defined_map, and_iff_left (Download.ofData_defined order data)]
    exact (settles_map_iff fun _ _ => Body.download.inj).trans (Download.named order).settles_iff
  | upload =>
    rw [createBody, defined_map, and_iff_left (Upload.ofData_defined order data)]
    exact (settles_map_iff fun _ _ => Body.upload.inj).trans (Upload.named order).settles_iff
  | resend =>
    rw [createBody, defined_map, and_iff_left (Resend.ofData_defined order data)]
    exact (settles_map_iff fun _ _ => Body.resend.inj).trans (Resend.settles_iff order data)
  | packet =>
    refine iff_of_false (fun settled => ?_) id
    exact Packet.not_settles order data
      ((settles_map_iff fun _ _ => Body.packet.inj).mp settled.1)

/-! ### Messages -/

namespace Message

/-- The number of bytes of the header and the body that it declares. -/
def declaredEnd (order : ByteOrder) (data : List Byte) : ℕ :=
  Header.size + (Header.read order data).bodySize.toNat

/-- The bytes of the declared body. -/
def declaredBody (order : ByteOrder) (data : List Byte) : List Byte :=
  (data.drop Header.size).take (Header.read order data).bodySize.toNat

/-- The message, or the exception, is a function of the header and the declared
body: it stays the same with anything else behind them, or nothing. -/
def OnlyDeclared (order : ByteOrder) (data : List Byte) : Prop :=
  Defined (ofData order data) ∧
    ∀ rest, ofData order (data.take (declaredEnd order data) ++ rest) = ofData order data

section Declared

variable {order : ByteOrder} {data : List Byte} (whole : declaredEnd order data ≤ data.length)

include whole

theorem size_le_length_of_whole : Header.size ≤ data.length :=
  (Nat.le_add_right _ _).trans whole

/-- Decoding the declared bytes with others behind them. -/
theorem ofData_declared_append (rest : List Byte) :
    ofData order (data.take (declaredEnd order data) ++ rest) =
      (Body.createBody order (Header.read order data).keyword
        (declaredBody order data ++ rest)).map
          fun body => ⟨Header.read order data, some body⟩ := by
  have enough := size_le_length_of_whole whole
  have front : (data.take Header.size).length = Header.size := List.length_take_of_le enough
  have header : Header.read order (data.take Header.size) = Header.read order data := by
    have read := Header.read_append order front.ge (data.drop Header.size)
    rw [List.take_append_drop] at read
    exact read.symm
  have body : (declaredBody order data).length = (Header.read order data).bodySize.toNat := by
    have inside : (Header.read order data).bodySize.toNat ≤ data.length - Header.size :=
      Nat.le_sub_of_add_le' whole
    rw [declaredBody, List.length_take, List.length_drop, Nat.min_eq_left inside]
  have split : data.take (declaredEnd order data) =
      data.take Header.size ++ declaredBody order data := by
    rw [declaredEnd, List.take_add, declaredBody]
  rw [split, List.append_assoc, ofData_append order front, header, if_neg]
  rw [List.length_append, body]
  exact Nat.not_lt.mpr (Nat.le_add_right _ _)

/-- The data themselves are the declared bytes and what is behind them. -/
theorem ofData_eq_of_whole :
    ofData order data =
      (Body.createBody order (Header.read order data).keyword
        (declaredBody order data ++ data.drop (declaredEnd order data))).map
          fun body => ⟨Header.read order data, some body⟩ := by
  have same := ofData_declared_append whole (data.drop (declaredEnd order data))
  rwa [List.take_append_drop] at same

/-- Decoding depends on nothing behind the declared body exactly when the decoder
of the keyword finds the end of it. A FILES body whose names end inside it is
decoded alike as long as the size of everything fits an `int`. -/
theorem onlyDeclared_iff :
    (OnlyDeclared order data ↔
      Body.Delimited (Header.read order data).keyword (declaredBody order data)) ∧
    ((Header.read order data).keyword = .files →
      Files.namesEnd (declaredBody order data) ≤ (declaredBody order data).length →
      ∀ rest, declaredEnd order data + rest.length < 2 ^ 31 →
        ofData order (data.take (declaredEnd order data) ++ rest) =
          ofData order (data.take (declaredEnd order data))) := by
  set header := Header.read order data with isHeader
  set body := declaredBody order data with isBody
  have wrapped : Function.Injective fun b : Body => Message.mk header (some b) := by
    intro first second same
    exact Option.some.inj (Message.mk.inj same).2
  refine ⟨?_, ?_⟩
  · rw [← Body.settles_iff order, OnlyDeclared, ofData_eq_of_whole whole, defined_map]
    simp only [ofData_declared_append whole, ← isHeader, ← isBody, map_inj wrapped]
    constructor
    · rintro ⟨defined, alike⟩
      -- Nothing behind the body is one of the cases.
      have alone := alike []
      rw [List.append_nil] at alone
      rw [alone]
      exact ⟨fun rest => (alike rest).trans alone.symm, defined⟩
    · rintro ⟨settled, defined⟩
      rw [settled]
      exact ⟨defined, settled⟩
  · intro kind inside rest small
    have alone := ofData_declared_append whole []
    rw [List.append_nil, List.append_nil] at alone
    have unwrapped := Files.lastNameStart_le_namesEnd body
    have length : body.length ≤ header.bodySize.toNat := List.length_take_le _ _
    have sized : header.bodySize.toNat + rest.length < 2 ^ 31 :=
      (Nat.add_le_add_right (Nat.le_add_left _ _) _).trans_lt small
    have same := Files.ofData_append_of_inside order inside (by omega) rest
      (iff_of_false (not_lt.mpr ?_) (not_lt.mpr ?_))
    · rw [ofData_declared_append whole, alone, ← isHeader, ← isBody, kind, Body.createBody,
        Body.createBody, same]
    · rw [List.length_append, int32_of_small (by omega) (by omega),
        int32_of_small (by omega) (by omega)]
      omega
    · rw [int32_of_small (by omega) (by omega), int32_of_small (by omega) (by omega)]
      omega

end Declared

/-- An ACK with three more bytes behind it. -/
def trailedAck : List Byte := [0, 1, 0, 0, 0, 7, 5, 0, 0, 0, 0, 0, 0, 0, 0, 1, 2, 3]

/-- The theorem for this ACK. -/
theorem onlyDeclared_iff_trailedAck :
    (OnlyDeclared .little trailedAck ↔
      Body.Delimited (Header.read .little trailedAck).keyword
        (declaredBody .little trailedAck)) ∧
    ((Header.read .little trailedAck).keyword = .files →
      Files.namesEnd (declaredBody .little trailedAck) ≤
        (declaredBody .little trailedAck).length →
      ∀ rest, declaredEnd .little trailedAck + rest.length < 2 ^ 31 →
        ofData .little (trailedAck.take (declaredEnd .little trailedAck) ++ rest) =
          ofData .little (trailedAck.take (declaredEnd .little trailedAck))) :=
  onlyDeclared_iff (by decide)

/-- A packet that declares twelve bytes of body and no payload. -/
def barePacket : List Byte :=
  [0, 1, 0, 0, 0, 7, 7, 0, 0, 0, 12, 0, 0, 0, 0] ++ [0, 0, 0, 0, 0, 0, 0, 2] ++ [0, 0, 0, 0]

/-- A byte behind the declared body of a packet becomes its payload. -/
theorem not_onlyDeclared_barePacket :
    ofData .little barePacket =
        .ok ⟨⟨1, 7, .packet, 12⟩, some (.packet ⟨2, 0, []⟩)⟩ ∧
      ofData .little (barePacket ++ [9]) =
        .ok ⟨⟨1, 7, .packet, 12⟩, some (.packet ⟨2, 0, [9]⟩)⟩ ∧
      ¬ OnlyDeclared .little barePacket := by
  refine ⟨by decide, by decide, ?_⟩
  rintro ⟨-, alike⟩
  exact absurd (alike [9]) (by decide)

end Message

end Fup
