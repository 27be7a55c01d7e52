/-
# Which data the decoders accept

A datagram is well formed when everything it declares is there: the header, as
many bytes behind it as the header announces, and a body that is long enough for
its keyword and for the names it announces. The decoders return exactly on the
well-formed data, up to the size a datagram can have. Up to that size the `int`
comparison of the FILES decoder is exact.
-/

import Fup.Communications
import Fup.Message.Bounds

namespace Fup

/-! ### Bodies -/

/-- The body of a message with this keyword is complete. -/
def Body.WellFormed (keyword : Keyword) (body : List Byte) : Prop :=
  match keyword with
  | .listFiles => True
  | .files => 2 ≤ body.length ∧ Files.namesEnd body ≤ body.length
  | .download => 4 ≤ body.length ∧ field16 body 2 ≠ 0 ∧
      4 + (field16 body 2).toNat ≤ body.length
  | .upload => 16 ≤ body.length ∧ field16 body 14 ≠ 0 ∧
      16 + (field16 body 14).toNat ≤ body.length
  | .resend => 8 ≤ body.length
  | .ack => True
  | .abort => True
  | .packet => 12 ≤ body.length
  | .unnamed _ _ => False

instance (keyword : Keyword) (body : List Byte) : Decidable (Body.WellFormed keyword body) :=
  match keyword with
  | .listFiles => instDecidableTrue
  | .files => inferInstanceAs (Decidable (_ ∧ _))
  | .download => inferInstanceAs (Decidable (_ ∧ _ ∧ _))
  | .upload => inferInstanceAs (Decidable (_ ∧ _ ∧ _))
  | .resend => inferInstanceAs (Decidable (_ ≤ _))
  | .ack => instDecidableTrue
  | .abort => instDecidableTrue
  | .packet => inferInstanceAs (Decidable (_ ≤ _))
  | .unnamed _ _ => instDecidableFalse

/-- A header, the bytes it announces and a complete body. -/
structure Message.WellFormed (order : ByteOrder) (data : List Byte) : Prop where
  header : Header.size ≤ data.length
  announced : (Header.read order data).bodySize.toNat ≤ data.length - Header.size
  body : Body.WellFormed (Header.read order data).keyword (data.drop Header.size)

/-- The call returned. -/
def Returns {α : Type} (result : Except Failure α) : Prop := ∃ a, result = .ok a

theorem returns_ok {α : Type} (a : α) : Returns (.ok a : Except Failure α) := ⟨a, rfl⟩

theorem not_returns_error {α : Type} (failure : Failure) :
    ¬ Returns (.error failure : Except Failure α) := by
  rintro ⟨a, impossible⟩
  cases impossible

theorem returns_map {α β : Type} (f : α → β) (result : Except Failure α) :
    Returns (result.map f) ↔ Returns result := by
  cases result with
  | ok a => exact iff_of_true (returns_ok _) (returns_ok a)
  | error failure => exact iff_of_false (not_returns_error failure) (not_returns_error failure)

/-- A check in front of a result. -/
theorem returns_ite {α : Type} {failure : Failure} {result : Except Failure α} {p : Prop}
    [Decidable p] : Returns (if p then .error failure else result) ↔ ¬ p ∧ Returns result := by
  split_ifs with failed
  · exact iff_of_false (not_returns_error failure) fun passed => passed.1 failed
  · exact (and_iff_right failed).symm

namespace Files

/-- The second loop reads all names when they end inside the data. -/
theorem returns_readNames {data : List Byte} (short : data.length < 2 ^ 31)
    (nameSizes : List NameSize) {offset : ℕ} (inside : offset + total nameSizes ≤ data.length) :
    Returns (readNames data nameSizes offset) := by
  induction nameSizes generalizing offset with
  | nil => exact returns_ok []
  | cons s nameSizes ih =>
    rw [total_cons] at inside
    obtain ⟨names, rest⟩ := ih (show offset + s.toNat + total nameSizes ≤ data.length by omega)
    push_cast at rest
    have here : ((offset : ℤ)).toNat + s.toNat ≤ data.length := by
      rw [Int.toNat_natCast]
      omega
    rw [readNames, readBytesAt_eq (Int.natCast_nonneg offset) here, ok_bind,
      int32_of_small (by omega) (by omega), rest]
    exact returns_ok _

theorem returns_ofData_iff (order : ByteOrder) {data : List Byte} (short : data.length ≤ 65535) :
    Returns (ofData order data) ↔ 2 ≤ data.length ∧ namesEnd data ≤ data.length := by
  have bound := total_le (sizes data)
  rw [length_sizes] at bound
  rw [ofData_eq, returns_ite, returns_ite, returns_map, not_lt]
  constructor
  · rintro ⟨table, fits, -⟩
    -- With so few names the sum does not wrap.
    rw [namesEnd, int32_of_small (by omega) (by omega), int32_of_small (by omega) (by omega)] at fits
    rw [namesEnd]
    omega
  · rintro ⟨two, fits⟩
    have inside := fits
    rw [namesEnd] at inside
    refine ⟨by omega, ?_, returns_readNames (by omega) (sizes data) inside⟩
    rw [int32_of_small (by omega) (by omega), int32_of_small (by omega) (by omega)]
    omega

end Files

/-- The factory returns a body exactly for the complete ones. -/
theorem Body.returns_createBody_iff (order : ByteOrder) (keyword : Keyword) {data : List Byte}
    (short : data.length ≤ 65535) :
    Returns (createBody order keyword data) ↔ WellFormed keyword data := by
  cases keyword with
  | listFiles | ack | abort => exact iff_of_true (returns_ok _) trivial
  | unnamed value beyond => exact iff_of_false (not_returns_error _) id
  | files => exact (returns_map _ _).trans (Files.returns_ofData_iff order short)
  | download =>
    rw [createBody, returns_map, Download.ofData_eq, returns_ite, returns_ite,
      and_iff_left (returns_ok _), WellFormed, not_lt, not_or, not_lt]
    refine and_congr_right fun fixed => and_congr_right fun named => ?_
    omega
  | upload =>
    rw [createBody, returns_map, Upload.ofData_eq, returns_ite, returns_ite,
      and_iff_left (returns_ok _), WellFormed, not_lt, not_or, not_lt]
    refine and_congr_right fun fixed => and_congr_right fun named => ?_
    omega
  | resend =>
    rw [createBody, returns_map, Resend.ofData_eq, returns_ite, and_iff_left (returns_ok _), not_lt,
      WellFormed]
  | packet =>
    rw [createBody, returns_map, Packet.ofData_eq, returns_ite, and_iff_left (returns_ok _), not_lt,
      WellFormed]

/-! ### Messages -/

/-- The decoder returns a message exactly for well-formed data. -/
theorem Message.returns_ofData_iff (order : ByteOrder) {data : List Byte}
    (short : data.length ≤ 65535) : Returns (ofData order data) ↔ WellFormed order data := by
  have rest : (data.drop Header.size).length ≤ 65535 :=
    (List.length_drop.trans_le (Nat.sub_le _ _)).trans short
  constructor
  · rintro ⟨message, decoded⟩
    obtain ⟨enough, header, announced, body, -, created⟩ := ofData_eq_ok decoded
    rw [header] at announced created
    exact ⟨enough, announced, (Body.returns_createBody_iff order _ rest).mp ⟨body, created⟩⟩
  · rintro ⟨enough, announced, complete⟩
    obtain ⟨body, created⟩ := (Body.returns_createBody_iff order _ rest).mpr complete
    rw [ofData, if_neg (Nat.not_lt.mpr enough), Header.ofData_eq order enough, ok_bind,
      if_neg (Nat.not_lt.mpr announced), bodyRange, if_neg (Nat.not_lt.mpr enough), ok_bind,
      created]
    exact returns_ok _

/-- The packet a host reads from a body. -/
def Packet.read (order : ByteOrder) (body : List Byte) : Packet where
  seqId := field64 body 0
  checksum := readChecksum order ((body.drop 8).take 4)
  payload := body.drop 12

/-- A message with the keyword of a packet carries the packet of its data. -/
theorem Message.body_of_ofData {order : ByteOrder} {data : List Byte} {message : Message}
    (decoded : ofData order data = .ok message) (kind : message.header.keyword = .packet) :
    message.body = some (.packet (Packet.read order (data.drop Header.size))) := by
  obtain ⟨-, -, -, body, present, created⟩ := ofData_eq_ok decoded
  rw [kind] at created
  obtain ⟨packet, made, rfl⟩ := map_eq_ok.mp created
  rw [Packet.ofData_eq] at made
  split_ifs at made
  obtain rfl := Except.ok.inj made
  exact present

/-- A datagram is received exactly when the data that fits the buffer is well
formed. -/
theorem UdpWrapper.returns_receive_iff (order : ByteOrder) (datagram : List Byte) :
    Returns (receive order datagram) ↔
      Message.WellFormed order (datagram.take packetMessageSize) := by
  have short : (datagram.take packetMessageSize).length ≤ 65535 :=
    (List.length_take_le _ _).trans (by decide)
  rw [receive, returns_ite, Message.returns_ofData_iff order short, and_iff_right_iff_imp]
  -- The check for an empty datagram comes in front of a check for more bytes.
  intro complete empty
  exact absurd (complete.header.trans empty) (by decide)

end Fup
