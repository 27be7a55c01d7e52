/-
# Receiving a message over TCP

`TcpWrapper::Receive` fills a header buffer and then a body buffer from as many
calls of `recv` as it takes. Between two calls its state is determined by the
bytes received so far, however they were cut.

Both loops advance a pointer by what was read. The one of the body starts behind
the size of a header, in a buffer that holds the body alone, and the message is
decoded from behind the size of a header again.
-/

import Fup.Communications

namespace Fup

namespace TcpWrapper

/-- The locals of `Receive` between two calls of `recv`. -/
inductive Receiving
  /-- In the first loop: `headerBuffer` and `totalBytesRead`. -/
  | readingHeader (headerBuffer : Buffer Byte) (totalBytesRead : ℕ)
  /-- In the second loop: `header`, `bodyBuffer` and `currentBodyBytesRead`. -/
  | readingBody (header : Header) (bodyBuffer : Buffer Byte) (currentBodyBytesRead : ℕ)
  deriving DecidableEq

/-- The most that one call of `recv` returns. -/
def recvLimit : ℕ := 0x7ffff000

namespace Receiving

/-- The state on entry. -/
def start : Receiving := .readingHeader (Buffer.fill Header.size 0) 0

/-- The length passed to the next `recv`, zero when there is none. -/
def wants : Receiving → ℕ
  | .readingHeader _ totalBytesRead => Header.size - totalBytesRead
  | .readingBody header _ currentBodyBytesRead => header.bodySize.toNat - currentBodyBytesRead

/-- The effect of a `recv` that returned some bytes. -/
def take (order : ByteOrder) (receiving : Receiving) (bytes : List Byte) :
    Except Failure Receiving :=
  match receiving with
  | .readingHeader headerBuffer totalBytesRead =>
    let headerBuffer := headerBuffer.memcpy totalBytesRead bytes
    let totalBytesRead := totalBytesRead + bytes.length
    if totalBytesRead < Header.size then .ok (.readingHeader headerBuffer totalBytesRead)
    else do
      let header ← Header.ofData order headerBuffer.cells
      return .readingBody header
        { Buffer.fill header.bodySize.toNat 0 with inBounds := headerBuffer.inBounds } 0
  | .readingBody header bodyBuffer currentBodyBytesRead =>
    .ok (.readingBody header (bodyBuffer.memcpy (Header.size + currentBodyBytesRead) bytes)
      (currentBodyBytesRead + bytes.length))

/-- Every store so far stayed inside its buffer. -/
def inBounds : Receiving → Bool
  | .readingHeader headerBuffer _ => headerBuffer.inBounds
  | .readingBody _ bodyBuffer _ => bodyBuffer.inBounds

/-- What `Receive` returns, once both loops have ended. -/
def result (order : ByteOrder) : Receiving → Option (Except Failure Message)
  | .readingHeader _ _ => none
  | .readingBody header bodyBuffer currentBodyBytesRead =>
    if currentBodyBytesRead < header.bodySize.toNat then none
    else some (Message.ofHeader order header bodyBuffer.cells)

/-- The bytes that the next `recv` returns when some are in the socket's buffer. -/
def recv (receiving : Receiving) (buffered : List Byte) : List Byte :=
  buffered.take (min receiving.wants recvLimit)

/-- How `Receive` ends when its next `recv` throws. -/
def failed (receiving : Receiving) (what : String) : Failure :=
  match receiving with
  | .readingHeader _ _ =>
    .exception ("TcpWrapper::Receive: Failed to receive message header: " ++ what)
  | .readingBody _ _ _ =>
    .exception ("TcpWrapper::Receive: Failed to receive message body: " ++ what)

/-- Several calls of `recv` in a row. -/
def takeAll (order : ByteOrder) : Receiving → List (List Byte) → Except Failure Receiving
  | receiving, [] => .ok receiving
  | receiving, chunk :: chunks =>
    match receiving.take order chunk with
    | .ok next => takeAll order next chunks
    | .error failure => .error failure

theorem takeAll_append (order : ByteOrder) (receiving : Receiving)
    (first second : List (List Byte)) :
    takeAll order receiving (first ++ second) =
      (takeAll order receiving first >>= fun next => takeAll order next second) := by
  induction first generalizing receiving with
  | nil => rfl
  | cons chunk first ih =>
    rw [List.cons_append, takeAll, takeAll]
    cases receiving.take order chunk with
    | ok next => exact ih next
    | error failure => rfl

/-! ### The state from the bytes alone -/

/-- The body buffer after some bytes of the body. -/
def bodyAfter (bodySize : ℕ) (bytes : List Byte) : Buffer Byte :=
  if bytes = [] then Buffer.fill bodySize 0
  else (Buffer.fill bodySize 0).memcpy Header.size bytes

/-- The state after some bytes of a frame. -/
def after (order : ByteOrder) (bytes : List Byte) : Receiving :=
  if bytes.length < Header.size then
    .readingHeader ((Buffer.fill Header.size 0).memcpy 0 bytes) bytes.length
  else
    let header := Header.read order bytes
    .readingBody header (bodyAfter header.bodySize.toNat (bytes.drop Header.size))
      (bytes.length - Header.size)

theorem bodyAfter_append (bodySize : ℕ) (bytes : List Byte) {chunk : List Byte}
    (nonempty : chunk ≠ []) :
    (bodyAfter bodySize bytes).memcpy (Header.size + bytes.length) chunk =
      bodyAfter bodySize (bytes ++ chunk) := by
  rw [bodyAfter, bodyAfter, if_neg (List.append_ne_nil_of_right_ne_nil bytes nonempty)]
  split_ifs with first
  · rw [first, List.nil_append, List.length_nil, Nat.add_zero]
  · exact Buffer.memcpy_memcpy _ _ _ _

variable (order : ByteOrder)

theorem after_of_lt {bytes : List Byte} (short : bytes.length < Header.size) :
    after order bytes =
      .readingHeader ((Buffer.fill Header.size 0).memcpy 0 bytes) bytes.length := if_pos short

theorem after_of_le {bytes : List Byte} (enough : Header.size ≤ bytes.length) :
    after order bytes = .readingBody (Header.read order bytes)
      (bodyAfter (Header.read order bytes).bodySize.toNat (bytes.drop Header.size))
      (bytes.length - Header.size) :=
  if_neg (Nat.not_lt.mpr enough)

/-- A `recv` within the bytes asked for takes the state after some bytes to the
state after more. -/
theorem take_after {bytes chunk : List Byte} (nonempty : chunk ≠ [])
    (asked : chunk.length ≤ (after order bytes).wants) :
    (after order bytes).take order chunk = .ok (after order (bytes ++ chunk)) := by
  have length : (bytes ++ chunk).length = bytes.length + chunk.length := List.length_append
  rcases Nat.lt_or_ge bytes.length Header.size with short | enough
  · -- In the first loop; this call may be its last.
    rw [after_of_lt order short] at asked ⊢
    have room : chunk.length ≤ Header.size - bytes.length := asked
    have fits : bytes.length + chunk.length ≤ Header.size :=
      Nat.add_le_of_le_sub' short.le room
    have copied : ((Buffer.fill Header.size 0).memcpy 0 bytes).memcpy bytes.length chunk =
        (Buffer.fill Header.size 0).memcpy 0 (bytes ++ chunk) :=
      Buffer.memcpy_next _ _ _ _ (Nat.zero_add _)
    rw [take, copied, ← length]
    split_ifs with still
    · rw [after_of_lt order still]
    · have whole : (bytes ++ chunk).length = Header.size :=
        Nat.le_antisymm (length.trans_le fits) (Nat.le_of_not_lt still)
      rw [after_of_le order whole.ge, Buffer.fill_memcpy_zero, whole, Nat.sub_self,
        List.replicate_zero, List.append_nil, List.take_of_length_le whole.le,
        Header.ofData_eq order whole.ge, ok_bind, List.drop_of_length_le whole.le,
        decide_eq_true le_rfl]
      rfl
  · -- In the second loop.
    have more : Header.size ≤ (bytes ++ chunk).length :=
      length ▸ Nat.le_add_right_of_le enough
    have received : (bytes.drop Header.size).length = bytes.length - Header.size :=
      List.length_drop
    rw [after_of_le order enough, after_of_le order more, take, Header.read_append order enough,
      List.drop_append_of_le_length enough, ← received, bodyAfter_append _ _ nonempty, length,
      received, Nat.sub_add_comm enough]

/-- Before the end of the header there is at least one byte to ask for. -/
theorem wants_after_of_lt {bytes : List Byte} (short : bytes.length < Header.size) :
    (after order bytes).wants = Header.size - bytes.length := by
  rw [after_of_lt order short, wants]

theorem wants_after_of_le {bytes : List Byte} (enough : Header.size ≤ bytes.length) :
    (after order bytes).wants =
      (Header.read order bytes).bodySize.toNat - (bytes.length - Header.size) := by
  rw [after_of_le order enough, wants]

/-- Chunks that stay within what is asked for, one after the other. -/
theorem takeAll_after {chunks : List (List Byte)} {bytes : List Byte}
    (nonempty : ∀ chunk ∈ chunks, chunk ≠ [])
    (asked : bytes.length < Header.size ∧ bytes.length + chunks.flatten.length ≤ Header.size ∨
      Header.size ≤ bytes.length ∧ chunks.flatten.length ≤ (after order bytes).wants) :
    takeAll order (after order bytes) chunks = .ok (after order (bytes ++ chunks.flatten)) := by
  induction chunks generalizing bytes with
  | nil => rw [takeAll, List.flatten_nil, List.append_nil]
  | cons chunk chunks ih =>
    have length : (bytes ++ chunk).length = bytes.length + chunk.length := List.length_append
    rw [List.flatten_cons, List.length_append] at asked
    -- The first chunk is within the bytes asked for.
    have here : chunk.length ≤ (after order bytes).wants := by
      rcases asked with ⟨short, fits⟩ | ⟨-, fits⟩
      · rw [wants_after_of_lt order short]
        omega
      · exact (Nat.le_add_right _ _).trans fits
    rw [takeAll, take_after order (nonempty chunk List.mem_cons_self) here]
    change takeAll order (after order (bytes ++ chunk)) chunks = _
    rw [ih (fun later listed => nonempty later (List.mem_cons_of_mem chunk listed)), List.flatten_cons,
      List.append_assoc]
    rw [length]
    -- So are the others, in the loop that comes next.
    rcases asked with ⟨short, fits⟩ | ⟨enough, fits⟩
    · rcases Nat.lt_or_ge (bytes.length + chunk.length) Header.size with still | whole
      · exact Or.inl ⟨still, by omega⟩
      · -- The header is complete, so nothing is left of its chunks.
        exact Or.inr ⟨whole, by omega⟩
    · refine Or.inr ⟨Nat.le_add_right_of_le enough, ?_⟩
      rw [wants_after_of_le order enough] at fits
      rw [wants_after_of_le order (length ▸ Nat.le_add_right_of_le enough),
        Header.read_append order enough, length]
      omega

end Receiving

/-! ### Both decoders -/

/-- A way in which blocking calls of `recv` cut some bytes: the chunks returned
to the first loop and those returned to the second. -/
structure Cut (data : List Byte) where
  headerChunks : List (List Byte)
  bodyChunks : List (List Byte)
  header : headerChunks.flatten = data.take Header.size
  body : bodyChunks.flatten = data.drop Header.size
  nonempty : ∀ chunk ∈ headerChunks ++ bodyChunks, chunk ≠ []
  limited : ∀ chunk ∈ headerChunks ++ bodyChunks, chunk.length ≤ recvLimit

/-- `Receive` on the chunks stores inside its buffers, reads inside its body
buffer, and returns the message that the datagram decoder returns, or fails when
that fails. -/
def Agrees (order : ByteOrder) {data : List Byte} (cut : Cut data) : Prop :=
  ∃ last result,
    Receiving.takeAll order .start (cut.headerChunks ++ cut.bodyChunks) = .ok last ∧
      last.inBounds = true ∧ last.result order = some result ∧ result ≠ .error .outOfBounds ∧
        ∀ message, result = .ok message ↔ Message.ofData order data = .ok message

section Exact

variable {order : ByteOrder} {data : List Byte} {header : Header}
  (decodes : Header.ofData order data = .ok header)
  (exactly : data.length = Header.size + header.bodySize.toNat)

include decodes exactly

theorem read_of_decodes : Header.size ≤ data.length ∧ Header.read order data = header := by
  have enough : Header.size ≤ data.length := exactly ▸ Nat.le_add_right _ _
  rw [Header.ofData_eq order enough] at decodes
  exact ⟨enough, Except.ok.inj decodes⟩

/-- However the bytes are cut, the state in the end is that of all bytes. -/
theorem takeAll_cut (cut : Cut data) :
    Receiving.takeAll order .start (cut.headerChunks ++ cut.bodyChunks) =
      .ok (Receiving.after order data) := by
  obtain ⟨enough, isHeader⟩ := read_of_decodes decodes exactly
  have front : (data.take Header.size).length = Header.size := List.length_take_of_le enough
  have sameHeader : Header.read order (data.take Header.size) = header := by
    have read := Header.read_append order front.ge (data.drop Header.size)
    rw [List.take_append_drop, isHeader] at read
    exact read.symm
  -- The first loop ends with the header, the second with the body.
  have headerRead : Receiving.takeAll order .start cut.headerChunks =
      .ok (Receiving.after order (data.take Header.size)) := by
    have positive : ([] : List Byte).length < Header.size := by decide
    rw [← cut.header]
    refine Receiving.takeAll_after order
      (fun chunk listed => cut.nonempty chunk (List.mem_append_left _ listed))
      (Or.inl ⟨positive, ?_⟩)
    rw [cut.header, front, List.length_nil, Nat.zero_add]
  have bodyRead : Receiving.takeAll order (Receiving.after order (data.take Header.size))
      cut.bodyChunks = .ok (Receiving.after order data) := by
    have whole := Receiving.takeAll_after order
      (fun chunk listed => cut.nonempty chunk (List.mem_append_right _ listed))
      (Or.inr ⟨front.ge, ?_⟩)
    · rwa [cut.body, List.take_append_drop] at whole
    · rw [Receiving.wants_after_of_le order front.ge, sameHeader, cut.body, List.length_drop,
        front, exactly, Nat.sub_self, Nat.add_sub_cancel_left, Nat.sub_zero]
  rw [Receiving.takeAll_append, headerRead, ok_bind, bodyRead]

/-- The last store of a body that is not empty ends behind the body buffer, and
an empty body is read from behind its end. -/
theorem after_outOfBounds :
    (Receiving.after order data).inBounds = false ∨
      (Receiving.after order data).result order = some (.error .outOfBounds) := by
  obtain ⟨enough, isHeader⟩ := read_of_decodes decodes exactly
  have body : (data.drop Header.size).length = header.bodySize.toNat := by
    rw [List.length_drop, exactly, Nat.add_sub_cancel_left]
  rw [Receiving.after_of_le order enough, isHeader]
  by_cases empty : data.drop Header.size = []
  · right
    -- Without a body the decoder skips a header in an empty buffer.
    have zero : header.bodySize.toNat = 0 := by rw [← body, empty, List.length_nil]
    have positive : 0 < Header.size := by decide
    rw [Receiving.result, zero, if_neg (Nat.not_lt_zero _), empty, Receiving.bodyAfter, if_pos rfl,
      Message.ofHeader, Buffer.cells_fill, List.replicate_zero, List.length_nil, zero,
      if_neg (lt_irrefl 0), Message.bodyRange, List.length_nil, if_pos positive]
    rfl
  · left
    -- The store of the body starts a header's size into a buffer of its own size.
    rw [Receiving.inBounds, Receiving.bodyAfter, if_neg empty, Bool.eq_false_iff]
    intro inside
    have last := ((Buffer.inBounds_memcpy _ _ _).mp inside).2
    rw [body, Buffer.cells_fill, List.length_replicate] at last
    have positive : 0 < Header.size := by decide
    omega

/-- The two decoders agree on no message and no cut. -/
theorem not_agrees (cut : Cut data) : ¬ Agrees order cut := by
  rintro ⟨last, result, run, inside, returned, defined, -⟩
  rw [takeAll_cut decodes exactly cut] at run
  obtain rfl := Except.ok.inj run
  rcases after_outOfBounds decodes exactly with outside | undefined
  · exact absurd inside (by rw [outside]; decide)
  · exact defined (Option.some.inj (returned.symm.trans undefined))

end Exact

/-- A RESEND of packet 2 on connection 7. -/
def resendFrame : List Byte :=
  [0, 1, 0, 0, 0, 7, 4, 0, 0, 0, 8, 0, 0, 0, 0, 0, 0, 0, 0, 0, 0, 0, 2]

/-- The RESEND with its header and its body in two chunks each. -/
def resendCut : Cut resendFrame where
  headerChunks := [resendFrame.take 1, (resendFrame.drop 1).take 14]
  bodyChunks := [(resendFrame.drop 15).take 5, resendFrame.drop 20]
  header := by decide
  body := by decide
  nonempty := by decide
  limited := by decide

theorem not_agrees_resend : ¬ Agrees .little resendCut := by
  have decodes : Header.ofData .little resendFrame = .ok ⟨1, 7, .resend, 8⟩ := by decide
  exact not_agrees decodes (by decide) resendCut

/-- An ACK of connection 7. -/
def ackFrame : List Byte := [0, 1, 0, 0, 0, 7, 5, 0, 0, 0, 0, 0, 0, 0, 0]

/-- The ACK in one chunk. -/
def ackCut : Cut ackFrame where
  headerChunks := [ackFrame]
  bodyChunks := []
  header := by decide
  body := by decide
  nonempty := by decide
  limited := by decide

/-- The datagram decoder returns the ACK, and `Receive` reads outside its empty
body buffer. -/
theorem not_agrees_ack :
    Message.ofData .little ackFrame = .ok ⟨⟨1, 7, .ack, 0⟩, some .base⟩ ∧
      ¬ Agrees .little ackCut := by
  refine ⟨by decide, ?_⟩
  rintro ⟨last, result, run, -, returned, defined, -⟩
  have ended : Receiving.takeAll .little .start (ackCut.headerChunks ++ ackCut.bodyChunks) =
      .ok (.readingBody ⟨1, 7, .ack, 0⟩ ⟨[], true⟩ 0) := by decide
  obtain rfl := Except.ok.inj (ended.symm.trans run)
  have undefined : Receiving.result .little (.readingBody ⟨1, 7, .ack, 0⟩ ⟨[], true⟩ 0) =
      some (.error .outOfBounds) := by decide
  exact defined (Option.some.inj (returned.symm.trans undefined))

end TcpWrapper

end Fup
