/-
# What is left of a message at the other end

`Receive` stores a body from behind the size of a header in a buffer of the body's own
size, and decodes it from there. So it stores behind the end of the buffer, the last
bytes of the body are lost with that, and a body shorter than a header is read from
behind its end.

The DOWNLOAD, UPLOAD and RESEND decoders are those of prefix codes, which accept no
proper front of an encoding. So a request never gets through, and neither does a
message without a body. The result of a call is then the same on all runs of a
connection: it is a matter of the frame alone.
-/

import Fup.Message.Language
import Fup.TcpLink

namespace Fup

/-- The bytes begin with a header that announces fewer bytes than a header has. -/
def TcpWrapper.Short (order : ByteOrder) (bytes : List Byte) : Prop :=
  Header.size ≤ bytes.length ∧ (Header.read order bytes).bodySize.toNat < Header.size

/-- What the ends of a connection have to say to each other, lists of files apart: a
body of the class that the keyword stands for, with a name that its length field can
tell. -/
inductive Spoken : Keyword → Body → Prop
  | listFiles : Spoken .listFiles .base
  | ack : Spoken .ack .base
  | abort : Spoken .abort .base
  | download (download : Download) (fits : NameFits download.filename) :
    Spoken .download (.download download)
  | upload (upload : Upload) (fits : NameFits upload.filename) : Spoken .upload (.upload upload)
  | resend (resend : Resend) : Spoken .resend (.resend resend)

/-- What is spoken has less than `2 ^ 31` bytes. -/
theorem Spoken.small {keyword : Keyword} {body : Body} (spoken : Spoken keyword body) :
    body.size.toNat < 2 ^ 31 := by
  cases spoken with
  | listFiles | ack | abort => decide
  | resend resend => exact (by decide : (8 : MessageSize).toNat < 2 ^ 31)
  | download download fits =>
    rw [Body.size, ← (Download.sized_wire fits).1, Download.length_wire]
    exact (Nat.add_le_add_left fits.2 4).trans_lt (by decide)
  | upload upload fits =>
    rw [Body.size, ← (Upload.sized_wire fits).1, Upload.length_wire]
    exact (Nat.add_le_add_left fits.2 16).trans_lt (by decide)

/-- A decoder that returns nothing fails. -/
theorem exists_error_of_ne_ok {α : Type*} {result : Except Failure α}
    (rejected : ∀ value, result ≠ .ok value) : ∃ failure, result = .error failure := by
  cases result with
  | ok value => exact absurd rfl (rejected value)
  | error failure => exact ⟨failure, rfl⟩

/-- No proper front of such a body is decoded. -/
theorem Spoken.rejects {order : ByteOrder} {keyword : Keyword} {body : Body}
    (spoken : Spoken keyword body) {bytes part rest : List Byte} {inBounds : Bool}
    (encoded : body.serialize order = .ok ⟨bytes, inBounds⟩) (split : bytes = part ++ rest)
    (nonempty : rest ≠ []) : ∃ failure, Body.createBody order keyword part = .error failure := by
  refine exists_error_of_ne_ok fun body' created => ?_
  cases spoken with
  | listFiles | ack | abort =>
    obtain ⟨rfl, -⟩ := Buffer.mk.inj (Except.ok.inj encoded)
    exact nonempty (List.append_eq_nil_iff.mp split.symm).2
  | download download fits =>
    rw [Body.serialize, Download.serialize_eq order download (NameFits.short fits)] at encoded
    obtain ⟨rfl, -⟩ := Buffer.mk.inj (Except.ok.inj encoded)
    obtain ⟨download', decoded, -⟩ := map_eq_ok.mp created
    exact (Download.prefixCode order).rejects_part (Download.fields download) fits split
      nonempty (map_eq_ok.mpr ⟨download', decoded, rfl⟩)
  | upload upload fits =>
    rw [Body.serialize, Upload.serialize_eq order upload (NameFits.short fits)] at encoded
    obtain ⟨rfl, -⟩ := Buffer.mk.inj (Except.ok.inj encoded)
    obtain ⟨upload', decoded, -⟩ := map_eq_ok.mp created
    exact (Upload.prefixCode order).rejects_part (Upload.fields upload) fits split
      nonempty (map_eq_ok.mpr ⟨upload', decoded, rfl⟩)
  | resend resend =>
    rw [Body.serialize, Resend.serialize_eq order resend] at encoded
    obtain ⟨rfl, -⟩ := Buffer.mk.inj (Except.ok.inj encoded)
    obtain ⟨resend', decoded, -⟩ := map_eq_ok.mp created
    exact (Resend.prefixCode order).rejects_part resend.seqId trivial split nonempty
      (map_eq_ok.mpr ⟨resend', decoded, rfl⟩)

namespace TcpWrapper

/-- A frame of a short body is short for a reader on any host. -/
theorem short_wire (writer reader : ByteOrder) {header : Header} (bytes : List Byte)
    (small : header.bodySize.toNat < Header.size) :
    Short reader (header.wire writer ++ bytes) := by
  have width := Header.length_wire writer header
  refine ⟨?_, ?_⟩
  · rw [List.length_append, width]
    exact Nat.le_add_right _ _
  · rw [Header.read_append reader width.ge, Header.read_wire, Header.readBodySize_bodySizeField]
    split_ifs
    · exact (Nat.mod_le _ _).trans_lt small
    · decide

/-- `Receive` never returns a short message. -/
theorem Receiving.result_of_short {order : ByteOrder} {bytes : List Byte}
    {outcome : Except Failure Message} (short : Short order bytes)
    (returned : (Receiving.after order bytes).result order = some outcome) :
    outcome = .error .outOfBounds := by
  obtain ⟨enough, small⟩ := short
  rw [Receiving.after_of_le order enough, Receiving.result] at returned
  split_ifs at returned with missing
  obtain rfl := Option.some.inj returned
  -- The body buffer has the size of the body, and the body is read from behind it.
  have width (bodySize : ℕ) (body : List Byte) :
      (Receiving.bodyAfter bodySize body).cells.length = bodySize := by
    rw [Receiving.bodyAfter]
    split_ifs
    · rw [Buffer.cells_fill, List.length_replicate]
    · rw [Buffer.length_cells_memcpy, Buffer.cells_fill, List.length_replicate]
  rw [Message.ofHeader, width, if_neg (lt_irrefl _), Message.bodyRange, width, if_pos small]
  rfl

/-- The buffer of a body that is not shorter than a header begins with zeros and ends
in front of the last bytes of the body. -/
theorem Receiving.cells_bodyAfter {body : List Byte} (long : Header.size ≤ body.length) :
    (Receiving.bodyAfter body.length body).cells =
      List.replicate Header.size 0 ++ body.take (body.length - Header.size) := by
  have positive : 0 < Header.size := by decide
  have nonempty : body ≠ [] := List.length_pos_iff.mp (positive.trans_le long)
  rw [Receiving.bodyAfter, if_neg nonempty, Buffer.memcpy, Buffer.cells_fill, List.take_replicate,
    Nat.min_eq_left long, List.drop_replicate, Nat.sub_eq_zero_of_le (Nat.le_add_left _ _),
    List.replicate_zero, List.append_nil, List.length_replicate, List.take_append,
    List.length_replicate, List.take_of_length_le (by rw [List.length_replicate]; exact long)]

/-- `Receive` decodes a frame from its body without the last bytes. -/
theorem Receiving.result_of_frame {order : ByteOrder} {bytes : List Byte}
    (coded : bytes ∈ frames order)
    (long : Header.size ≤ (Header.read order bytes).bodySize.toNat) :
    (Receiving.after order bytes).result order =
      some ((Body.createBody order (Header.read order bytes).keyword ((bytes.drop Header.size).take
        ((Header.read order bytes).bodySize.toNat - Header.size))).map
          fun body => ⟨Header.read order bytes, some body⟩) := by
  obtain ⟨enough, exactly⟩ := mem_frames_iff.mp coded
  have width : (bytes.drop Header.size).length = (Header.read order bytes).bodySize.toNat := by
    rw [List.length_drop, exactly, Nat.add_sub_cancel_left]
  have cells := Receiving.cells_bodyAfter (width ▸ long)
  have filled := congrArg List.length cells
  rw [width] at cells filled
  rw [List.length_append, List.length_replicate, List.length_take, width,
    Nat.min_eq_left (Nat.sub_le _ _), Nat.add_sub_cancel' long] at filled
  rw [Receiving.after_of_le order enough, Receiving.result, exactly, Nat.add_sub_cancel_left,
    if_neg (lt_irrefl _), Message.ofHeader, filled, if_neg (lt_irrefl _), Message.bodyRange,
    filled, if_neg (Nat.not_lt.mpr long), cells, ok_bind,
    List.drop_left' (List.length_replicate)]
  cases Body.createBody order (Header.read order bytes).keyword _ <;> rfl

namespace Announced

/-- What is written behind the header is the body. -/
theorem exists_drop_written (order : ByteOrder) (announced : Announced) :
    ∃ inBounds, announced.body.serialize order =
      .ok ⟨(announced.written order).drop Header.size, inBounds⟩ := by
  obtain ⟨buf, encoded, sized⟩ := (Body.serialize_sized_iff order announced.body).mpr
    (Body.sizable_of_small announced.small)
  have below : announced.body.size.toNat < 2 ^ 63 := announced.small.trans (by decide)
  have whole := Message.serialize_eq order announced.carried encoded sized below
  refine ⟨buf.inBounds, ?_⟩
  rw [encoded, written, whole]
  dsimp only
  rw [List.drop_left' (Header.length_wire order announced.message.header)]

/-- Nothing that is spoken is returned at the other end. -/
theorem exists_error_of_spoken {order : ByteOrder} {announced : Announced}
    (spoken : Spoken announced.message.header.keyword announced.body)
    {result : Except Failure Message}
    (returned : (Receiving.after order (announced.written order)).result order = some result) :
    ∃ failure, result = .error failure := by
  have coded := announced.written_mem_frames order
  have read := announced.read_written order
  rcases Nat.lt_or_ge announced.message.header.bodySize.toNat Header.size with small | long
  · exact ⟨.outOfBounds, Receiving.result_of_short
      ⟨(mem_frames_iff.mp coded).1, by rw [read]; exact small⟩ returned⟩
  · rw [Receiving.result_of_frame coded (by rw [read]; exact long), read] at returned
    obtain ⟨inBounds, encoded⟩ := announced.exists_drop_written order
    set bytes := (announced.written order).drop Header.size with bytesAre
    have width : bytes.length = announced.message.header.bodySize.toNat := by
      rw [bytesAre, List.length_drop, announced.length_written, Nat.add_sub_cancel_left]
    -- As many bytes as a header has are missing at the end.
    have nonempty : bytes.drop (announced.message.header.bodySize.toNat - Header.size) ≠ [] := by
      rw [← List.length_pos_iff, List.length_drop, width, Nat.sub_sub_self long]
      decide
    obtain ⟨failure, refused⟩ := spoken.rejects encoded (List.take_append_drop _ bytes).symm nonempty
    rw [refused] at returned
    exact ⟨failure, (Option.some.inj returned).symm⟩

end Announced

/-! ### What the calls return -/

/-- A call that has consumed the frame of the message has stored or read outside its
body buffer. With the bytes stored there lost it decodes the body without its last
bytes, and it fails where the message is one that is spoken. -/
structure Garbled (order : ByteOrder) (announced : Announced) (call : Call) : Prop where
  outside : (Receiving.after order (announced.written order)).inBounds = false ∨
    call.result = .error .outOfBounds
  cut : Header.size ≤ announced.body.size.toNat →
    call.result = (Body.createBody order announced.message.header.keyword
      (((announced.written order).drop Header.size).take
        (announced.body.size.toNat - Header.size))).map
          fun body => ⟨announced.message.header, some body⟩
  fails : Spoken announced.message.header.keyword announced.body →
    ∃ failure, call.result = .error failure

theorem garbled_of_result {order : ByteOrder} {announced : Announced} {call : Call}
    (returned : (Receiving.after order (announced.written order)).result order =
      some call.result) : Garbled order announced call := by
  have coded := announced.written_mem_frames order
  have read := announced.read_written order
  obtain ⟨enough, exactly⟩ := mem_frames_iff.mp coded
  refine ⟨?_, fun long => ?_, fun spoken => announced.exists_error_of_spoken spoken returned⟩
  · rcases after_outOfBounds (Header.ofData_eq order enough) exactly with stored | loaded
    · exact Or.inl stored
    · exact Or.inr (Option.some.inj (returned.symm.trans loaded))
  · rw [announced.announces] at long ⊢
    rw [Receiving.result_of_frame coded (by rw [read]; exact long), read] at returned
    exact (Option.some.inj returned).symm

/-- In every run, what an intact call of `Send` has written is the frame of a message,
and the call of `Receive` for it ends so, whichever message with this frame it was. -/
theorem Link.garbled_of_reachable {ι : Type} [DecidableEq ι] {order : ByteOrder}
    {id id' : ConnectionId} {s : Link ι} (reached : (Link.system ι order id id').Reachable s)
    {k : ℕ} {block : Block ι} {call : Call} (sent : s.sending.intact[k]? = some block)
    (received : s.receptions.ended[k]? = some call) :
    (∃ announced : Announced, block.frame = announced.written order) ∧
      ∀ announced : Announced, block.frame = announced.written order →
        Garbled order announced call := by
  have kept := kept_of_reachable reached
  have same := kept.inOrder.matched k block call sent received
  obtain ⟨genuine, -⟩ := kept.written.genuine_of_sent
    (Sending.mem_sent_of_mem_intact (List.mem_of_getElem? sent))
  have returned := (kept.framed.ended call (List.mem_of_getElem? received)).2
  refine ⟨genuine, fun announced frame => ?_⟩
  rw [same, frame] at returned
  exact garbled_of_result returned

/-- A DOWNLOAD with a name of four letters, whose body is as long as that of a RESEND. -/
def namedDownload : Announced :=
  .ofBody ⟨1, 7, .download, 0⟩ (.download ⟨5, some 4, [97, 98, 99, 100]⟩) (by decide)

def namedFrame : List Byte :=
  [0, 1, 0, 0, 0, 7, 2, 0, 0, 0, 8, 0, 0, 0, 0, 0, 5, 0, 4, 97, 98, 99, 100]

/-- It goes out and comes in as a whole. -/
def namedMoves : List (LinkMove Unit) :=
  [.call () namedDownload, .lock (), .send () (.ok 23), .finish (), .receive .call,
    .receive (.recv 15), .receive (.recv 8), .receive .finish]

/-- The theorem for the DOWNLOAD. -/
theorem Link.garbled_named :
    ∃ s block call, (Link.system Unit .little 7 7).exec
        ⟨Sending.start 7, Receptions.start 7 []⟩ namedMoves = some s ∧
      s.sending.intact[0]? = some block ∧ s.receptions.ended[0]? = some call ∧
        block.frame = namedDownload.written .little ∧ Garbled .little namedDownload call := by
  have both : ((Link.system Unit .little 7 7).exec ⟨Sending.start 7, Receptions.start 7 []⟩
      namedMoves).map (fun s => (s.sending.intact, s.receptions.ended)) =
        some ([⟨(), namedFrame, namedFrame, some .returned⟩],
          [⟨namedFrame, .error .outOfBounds⟩]) := by decide +kernel
  obtain ⟨s, run, ends⟩ := Option.map_eq_some_iff.mp both
  obtain ⟨sent, received⟩ := Prod.mk.inj ends
  have first : s.sending.intact[0]? = some ⟨(), namedFrame, namedFrame, some .returned⟩ := by
    rw [sent]
    rfl
  have ended : s.receptions.ended[0]? = some ⟨namedFrame, .error .outOfBounds⟩ := by
    rw [received]
    rfl
  have frame : namedFrame = namedDownload.written .little := by decide +kernel
  exact ⟨s, _, _, run, first, ended, frame,
    (Link.garbled_of_reachable ⟨_, namedMoves, rfl, run⟩ first ended).2 namedDownload frame⟩

end TcpWrapper

end Fup
