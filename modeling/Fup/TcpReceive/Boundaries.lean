/-
# Frame boundaries on a stream of messages

A connection calls `Receive` again and again on one stream, and blocking calls of
`recv` return as many of the next bytes as they like, but at least one and no
more than they are asked for. Each call consumes its header and the bytes that
the header announces before it decodes the body. So whether it returns or throws,
the next call starts with the next frame.

Sender and receiver are hosts of one kind. Where the bytes of a body are stored
makes no difference to what is consumed, and a read outside the body buffer ends a
call as an exception does.
-/

import Fup.Client.ListenResend
import Fup.Message.Lossless
import Fup.Message.Sizes

namespace Fup

namespace TcpWrapper

open Client.ListenResend (Frame stream)

/-! ### Messages on the stream -/

/-- A message whose header announces the size of its body, below `2 ^ 31`. -/
structure Announced where
  message : Message
  body : Body
  carried : message.body = some body
  announces : body.size = message.header.bodySize
  small : body.size.toNat < 2 ^ 31

namespace Announced

/-- What the encoder writes of the message. -/
def written (order : ByteOrder) (announced : Announced) : List Byte :=
  match announced.message.serialize order with
  | .ok buf => buf.cells
  | .error _ => []

/-- The message is written as its header and as many bytes as it announces. -/
theorem written_eq (order : ByteOrder) (announced : Announced) :
    ∃ bytes, announced.written order = announced.message.header.wire order ++ bytes ∧
      bytes.length = announced.message.header.bodySize.toNat := by
  obtain ⟨buf, encoded, sized⟩ := (Body.serialize_sized_iff order announced.body).mpr
    (Body.sizable_of_small announced.small)
  have below : announced.body.size.toNat < 2 ^ 63 := announced.small.trans (by decide)
  have whole := Message.serialize_eq order announced.carried encoded sized below
  refine ⟨buf.cells, ?_, ?_⟩
  · rw [written, whole]
  · rw [sized, announced.announces]

theorem length_written (order : ByteOrder) (announced : Announced) :
    (announced.written order).length =
      Header.size + announced.message.header.bodySize.toNat := by
  obtain ⟨bytes, same, length⟩ := announced.written_eq order
  rw [same, List.length_append, Header.length_wire, length]

/-- A host of the same kind reads the announced size. -/
theorem read_written (order : ByteOrder) (announced : Announced) :
    Header.read order (announced.written order) = announced.message.header := by
  obtain ⟨bytes, same, -⟩ := announced.written_eq order
  set header := announced.message.header with headerIs
  have narrow : header.bodySize.toNat < if order = order then 2 ^ 32 else 1 := by
    rw [if_pos rfl, headerIs, ← announced.announces]
    exact announced.small.trans (by decide)
  have enough : Header.size ≤ (header.wire order ++ bytes).length := by
    rw [List.length_append, Header.length_wire]
    exact Nat.le_add_right _ _
  have returned := (Header.roundTrips_iff_small order order header).mpr narrow bytes
  rw [Header.serialize_eq, Header.ofData_eq order enough] at returned
  rw [same]
  exact Except.ok.inj returned

/-- The bytes of the message are a frame. -/
def frame (order : ByteOrder) (announced : Announced) : Frame order where
  bytes := announced.written order
  enough := by
    rw [length_written]
    exact Nat.le_add_right _ _
  exactly := by rw [length_written, read_written]

end Announced

/-- Messages written one behind the other. -/
def writtenAll (order : ByteOrder) (messages : List Announced) : List Byte :=
  (messages.map (Announced.written order)).flatten

theorem stream_frames (order : ByteOrder) (messages : List Announced) :
    stream (messages.map (Announced.frame order)) = writtenAll order messages := by
  rw [stream, writtenAll, List.map_map]
  rfl

/-! ### Calls of `Receive` -/

/-- A call that has ended: the bytes it consumed and what it returned or threw. -/
structure Call where
  consumed : List Byte
  result : Except Failure Message
  deriving DecidableEq

/-- A connection that receives: the bytes of the stream that are not consumed
yet, its id, the locals of the current call beside the bytes it has consumed, and
the calls before it. -/
structure Receptions where
  unread : List Byte
  id : ConnectionId
  current : Option (Receiving × List Byte)
  ended : List Call
  deriving DecidableEq

/-- What happens next: a call of `Receive`, a `recv` of the current call that
returns some bytes, or the end of the call. -/
inductive ReceptionMove
  | call
  | recv (k : ℕ)
  | finish
  deriving DecidableEq

/-- A call that returns has got all it asked for. -/
theorem Receiving.wants_of_result {order : ByteOrder} {receiving : Receiving}
    {result : Except Failure Message} (returned : receiving.result order = some result) :
    receiving.wants = 0 := by
  cases receiving with
  | readingHeader headerBuffer totalBytesRead => cases returned
  | readingBody header bodyBuffer currentBodyBytesRead =>
    rw [Receiving.result] at returned
    split_ifs at returned with complete
    exact Nat.sub_eq_zero_of_le (Nat.le_of_not_lt complete)

/-- A call that has the header and has got all it asked for returns. -/
theorem Receiving.exists_result_after {order : ByteOrder} {bytes : List Byte}
    (enough : Header.size ≤ bytes.length) (done : (Receiving.after order bytes).wants = 0) :
    ∃ result, (Receiving.after order bytes).result order = some result := by
  rw [Receiving.wants_after_of_le order enough] at done
  rw [Receiving.after_of_le order enough, Receiving.result,
    if_neg (Nat.not_lt.mpr (Nat.sub_eq_zero_iff_le.mp done))]
  exact ⟨_, rfl⟩

namespace Receptions

def call (s : Receptions) : Option Receptions :=
  match s.current with
  | none => some { s with current := some (.start, []) }
  | some _ => none

/-- A `recv` that returns the next `k` bytes of the stream. -/
def recv (order : ByteOrder) (k : ℕ) (s : Receptions) : Option Receptions :=
  match s.current with
  | none => none
  | some (receiving, consumed) =>
    if 0 < k ∧ k ≤ min receiving.wants recvLimit ∧ k ≤ s.unread.length then
      let chunk := s.unread.take k
      let unread := s.unread.drop k
      match receiving.take order chunk with
      | .ok next => some { s with unread := unread, current := some (next, consumed ++ chunk) }
      | .error failure => some { s with
          unread := unread
          current := none
          ended := s.ended ++ [⟨consumed ++ chunk, .error failure⟩] }
    else none

/-- The end of a call behind its two loops. The first message gives a connection
without an id its id. -/
def finish (order : ByteOrder) (s : Receptions) : Option Receptions :=
  match s.current with
  | none => none
  | some (receiving, consumed) =>
    (receiving.result order).map fun result => { s with
      id :=
        match result with
        | .ok message => if s.id = 0 then message.header.connectionId else s.id
        | .error _ => s.id
      current := none
      ended := s.ended ++ [⟨consumed, result⟩] }

def start (id : ConnectionId) (bytes : List Byte) : Receptions := ⟨bytes, id, none, []⟩

/-- All ways of receiving from a stream. -/
def system (order : ByteOrder) (id : ConnectionId) (bytes : List Byte) :
    StepSystem Receptions ReceptionMove where
  init s := s = start id bytes
  step s move :=
    match move with
    | .call => s.call
    | .recv k => s.recv order k
    | .finish => s.finish order

/-! ### The steps -/

variable {order : ByteOrder} {s t : Receptions}

theorem call_cases (moved : s.call = some t) :
    s.current = none ∧ t = { s with current := some (.start, []) } := by
  rw [call] at moved
  cases current : s.current with
  | none =>
    rw [current] at moved
    exact ⟨rfl, (Option.some.inj moved).symm⟩
  | some _ =>
    rw [current] at moved
    cases moved

/-- A `recv` gives the current call some bytes it has asked for. -/
theorem recv_cases {k : ℕ} (moved : s.recv order k = some t) :
    ∃ receiving consumed, s.current = some (receiving, consumed) ∧
      0 < k ∧ k ≤ receiving.wants ∧ k ≤ s.unread.length ∧
        match receiving.take order (s.unread.take k) with
        | .ok next => t = { s with
            unread := s.unread.drop k
            current := some (next, consumed ++ s.unread.take k) }
        | .error failure => t = { s with
            unread := s.unread.drop k
            current := none
            ended := s.ended ++ [⟨consumed ++ s.unread.take k, .error failure⟩] } := by
  rw [recv] at moved
  cases current : s.current with
  | none =>
    rw [current] at moved
    cases moved
  | some state =>
    obtain ⟨receiving, consumed⟩ := state
    rw [current] at moved
    dsimp only at moved
    split_ifs at moved with possible
    obtain ⟨positive, asked, available⟩ := possible
    refine ⟨receiving, consumed, rfl, positive, (le_min_iff.mp asked).1, available, ?_⟩
    split at moved <;> exact (Option.some.inj moved).symm

theorem finish_cases (moved : s.finish order = some t) :
    ∃ receiving consumed result, s.current = some (receiving, consumed) ∧
      receiving.result order = some result ∧ t.unread = s.unread ∧ t.current = none ∧
        t.ended = s.ended ++ [⟨consumed, result⟩] := by
  rw [finish] at moved
  cases current : s.current with
  | none =>
    rw [current] at moved
    cases moved
  | some state =>
    obtain ⟨receiving, consumed⟩ := state
    rw [current] at moved
    obtain ⟨result, returned, rfl⟩ := Option.map_eq_some_iff.mp moved
    exact ⟨receiving, consumed, result, rfl, returned, rfl, rfl, rfl⟩

/-! ### Where the stream stands -/

/-- The current call and the bytes to come stand in front of these frames. A call
on an exhausted stream waits. -/
inductive Ahead : List (Frame order) → Option (Receiving × List Byte) → List Byte → Prop
  | between (rest : List (Frame order)) : Ahead rest none (stream rest)
  | exhausted : Ahead [] (some (.start, [])) []
  | inside {frame : Frame order} {rest : List (Frame order)} {consumed missing : List Byte}
      (split : frame.bytes = consumed ++ missing) :
      Ahead (frame :: rest) (some (.after order consumed, consumed)) (missing ++ stream rest)

/-- Every ended call has consumed a frame, and the others are ahead. -/
def Consistent (frames : List (Frame order)) (s : Receptions) : Prop :=
  ∃ done rest, frames = done ++ rest ∧ s.ended.map Call.consumed = done.map Frame.bytes ∧
    Ahead rest s.current s.unread

variable {frames : List (Frame order)}

theorem consistent_start (id : ConnectionId) (frames : List (Frame order)) :
    Consistent frames (start id (stream frames)) :=
  ⟨[], frames, rfl, rfl, .between frames⟩

theorem Consistent.call (consistent : Consistent frames s) (moved : s.call = some t) :
    Consistent frames t := by
  obtain ⟨done, rest, whole, consumed, ahead⟩ := consistent
  obtain ⟨idle, rfl⟩ := call_cases moved
  refine ⟨done, rest, whole, consumed, ?_⟩
  rw [idle] at ahead
  obtain ⟨current, unread⟩ := s
  dsimp only at ahead ⊢
  cases ahead
  cases rest with
  | nil => exact .exhausted
  | cons frame rest => exact .inside (List.nil_append frame.bytes).symm

/-- A `recv` takes bytes of the frame that the call stands in. -/
theorem Consistent.recv {k : ℕ} (consistent : Consistent frames s)
    (moved : s.recv order k = some t) : Consistent frames t := by
  obtain ⟨done, rest, whole, consumed, ahead⟩ := consistent
  obtain ⟨receiving, front, current, positive, asked, available, taken⟩ := recv_cases moved
  rw [current] at ahead
  generalize unread : s.unread = bytes at ahead available taken
  cases ahead with
  | exhausted => exact absurd positive (Nat.not_lt.mpr available)
  | @inside frame rest _ missing split =>
    -- A call asks for no more than is missing from its frame.
    have inFrame : k ≤ missing.length := asked.trans (frame.wants_le split)
    have width : (missing.take k).length = k := List.length_take_of_le inFrame
    have nonempty : missing.take k ≠ [] := by
      rw [← List.length_pos_iff, width]
      exact positive
    rw [List.take_append_of_le_length inFrame, List.drop_append_of_le_length inFrame,
      Receiving.take_after order nonempty (width.trans_le asked)] at taken
    rw [taken]
    refine ⟨done, frame :: rest, whole, consumed, .inside ?_⟩
    rw [split, List.append_assoc, List.take_append_drop]

/-- A call ends with its frame. -/
theorem Consistent.finish (consistent : Consistent frames s) (moved : s.finish order = some t) :
    Consistent frames t := by
  obtain ⟨done, rest, whole, consumed, ahead⟩ := consistent
  obtain ⟨receiving, front, result, current, returned, unread, idle, ended⟩ := finish_cases moved
  rw [current] at ahead
  rw [← unread] at ahead
  generalize left : t.unread = bytes at ahead
  cases ahead with
  | exhausted => cases returned
  | @inside frame rest _ missing split =>
    -- A call that has a result has all of its frame.
    have all := frame.front_eq_of_wants split (Receiving.wants_of_result returned)
    have nothing : missing = [] := by
      rw [← all] at split
      exact List.self_eq_append_right.mp split
    refine ⟨done ++ [frame], rest, ?_, ?_, ?_⟩
    · rw [whole, List.append_assoc, List.singleton_append]
    · rw [ended, List.map_append, List.map_append, consumed, List.map_singleton,
        List.map_singleton, all]
    · rw [idle, left, nothing, List.nil_append]
      exact .between rest

theorem Consistent.step {id : ConnectionId} {bytes : List Byte} {move : ReceptionMove}
    (consistent : Consistent frames s) (moved : (system order id bytes).step s move = some t) :
    Consistent frames t := by
  cases move with
  | call => exact consistent.call moved
  | recv k => exact consistent.recv moved
  | finish => exact consistent.finish moved

/-- A call that has frames in front of it can go on. -/
theorem Consistent.enabled (consistent : Consistent frames s) (id : ConnectionId)
    (bytes : List Byte) (more : s.ended.length < frames.length) :
    ∃ move, ((system order id bytes).step s move).isSome := by
  obtain ⟨done, rest, whole, consumed, ahead⟩ := consistent
  have count := congrArg List.length consumed
  rw [List.length_map, List.length_map] at count
  generalize located : s.current = current at ahead
  generalize left : s.unread = unread at ahead
  cases ahead with
  | between =>
    refine ⟨.call, ?_⟩
    change s.call.isSome = true
    rw [Receptions.call, located]
    rfl
  | exhausted =>
    rw [whole, List.append_nil, count] at more
    exact absurd more (lt_irrefl _)
  | @inside frame rest front missing split =>
    by_cases complete : (Receiving.after order front).wants = 0
    -- The frame is complete, so the call ends.
    · have all := frame.front_eq_of_wants split complete
      obtain ⟨result, returned⟩ := Receiving.exists_result_after (all ▸ frame.enough) complete
      refine ⟨.finish, ?_⟩
      change (s.finish order).isSome = true
      rw [Receptions.finish, located]
      dsimp only
      rw [returned]
      rfl
    · -- The frame has a byte left, which the next `recv` may return alone.
      have asking := Nat.pos_of_ne_zero complete
      have available := asking.trans_le (frame.wants_le split)
      have one : (missing ++ stream rest).take 1 = missing.take 1 :=
        List.take_append_of_le_length available
      have width : (missing.take 1).length = 1 := List.length_take_of_le available
      have nonempty : missing.take 1 ≠ [] := by
        rw [← List.length_pos_iff, width]
        exact Nat.one_pos
      have taken := Receiving.take_after order nonempty (width.trans_le asking)
      have possible : 0 < 1 ∧ 1 ≤ min (Receiving.after order front).wants recvLimit ∧
          1 ≤ s.unread.length := by
        rw [left, List.length_append]
        exact ⟨Nat.one_pos, le_min asking (by decide), Nat.le_add_right_of_le available⟩
      refine ⟨.recv 1, ?_⟩
      change (s.recv order 1).isSome = true
      rw [Receptions.recv, located]
      dsimp only
      rw [if_pos possible, left, one, taken]
      rfl

/-! ### How long it takes -/

/-- The moves of a call that are no `recv`, over all calls. -/
def turns (s : Receptions) : ℕ := 2 * s.ended.length + if s.current.isSome then 1 else 0

/-- Every move consumes a byte or is the begin or the end of a call. -/
theorem turns_step {id : ConnectionId} {bytes : List Byte} {move : ReceptionMove}
    (moved : (system order id bytes).step s move = some t) :
    s.turns + t.unread.length + 1 ≤ t.turns + s.unread.length := by
  cases move with
  | call =>
    obtain ⟨idle, rfl⟩ := call_cases moved
    simp only [turns, idle, Option.isSome_some, Option.isSome_none, if_true, Bool.false_eq_true,
      if_false]
    omega
  | recv k =>
    -- A `recv` takes a byte at least, whether the call goes on or throws.
    obtain ⟨receiving, consumed, current, positive, -, available, taken⟩ := recv_cases moved
    split at taken
    all_goals
      rw [taken]
      simp only [turns, current, Option.isSome_some, Option.isSome_none, if_true,
        Bool.false_eq_true, if_false, List.length_drop, List.length_append,
        List.length_singleton]
      omega
  | finish =>
    obtain ⟨receiving, consumed, result, current, -, unread, idle, ended⟩ := finish_cases moved
    simp only [turns, current, idle, ended, unread, Option.isSome_some, Option.isSome_none,
      if_true, Bool.false_eq_true, if_false, List.length_append, List.length_singleton]
    omega

theorem turns_exec {id : ConnectionId} {bytes : List Byte} {moves : List ReceptionMove}
    (run : (system order id bytes).exec s moves = some t) :
    s.turns + t.unread.length + moves.length ≤ t.turns + s.unread.length := by
  induction moves generalizing s with
  | nil =>
    rw [StepSystem.exec_nil, Option.some_inj] at run
    rw [run, List.length_nil, Nat.add_zero]
  | cons move moves ih =>
    obtain ⟨r, moved, rest⟩ := Option.bind_eq_some_iff.mp run
    have first := turns_step moved
    have later := ih rest
    rw [List.length_cons]
    omega

/-- Every ended call has consumed one of the frames. -/
theorem Consistent.length_ended_le (consistent : Consistent frames s) :
    s.ended.length ≤ frames.length := by
  obtain ⟨done, rest, rfl, consumed, -⟩ := consistent
  have count := congrArg List.length consumed
  rw [List.length_map, List.length_map] at count
  rw [count, List.length_append]
  exact Nat.le_add_right _ _

/-! ### In step -/

/-- The bytes that the current call has consumed. -/
def consumed (s : Receptions) : List Byte :=
  match s.current with
  | none => []
  | some (_, bytes) => bytes

/-- Each ended call has consumed a header and the body that its message announces,
and the current call or the next one started where the first message that is left
starts. -/
structure InStep (order : ByteOrder) (messages : List Announced) (s : Receptions) : Prop where
  consumes : ∀ (k : ℕ) (call : Call), s.ended[k]? = some call →
    ∃ announced : Announced, messages[k]? = some announced ∧
      call.consumed.length = Header.size + announced.message.header.bodySize.toNat
  starts : s.consumed ++ s.unread = writtenAll order (messages.drop s.ended.length)

theorem Ahead.consumed_append {rest : List (Frame order)}
    (ahead : Ahead rest s.current s.unread) : s.consumed ++ s.unread = stream rest := by
  rw [consumed]
  generalize s.current = current at ahead
  generalize s.unread = unread at ahead
  cases ahead with
  | between => exact List.nil_append _
  | exhausted => rfl
  | inside split =>
    rw [← List.append_assoc, ← split]
    rfl

theorem Consistent.inStep {messages : List Announced}
    (consistent : Consistent (messages.map (Announced.frame order)) s) :
    InStep order messages s := by
  obtain ⟨done, rest, whole, consumed, ahead⟩ := consistent
  obtain ⟨first, later, rfl, rfl, rfl⟩ := List.map_eq_append_iff.mp whole
  have count := congrArg List.length consumed
  rw [List.length_map, List.length_map, List.length_map] at count
  refine ⟨?_, ?_⟩
  · intro k call listed
    -- The bytes of the call are the frame of the message with its number.
    have here := congrArg (fun calls : List (List Byte) => calls[k]?) consumed
    simp only [List.getElem?_map, listed, Option.map_some, Option.map_map] at here
    obtain ⟨announced, found, same⟩ := Option.map_eq_some_iff.mp here.symm
    have inside : k < first.length := (List.getElem?_eq_some_iff.mp found).1
    refine ⟨announced, ?_, ?_⟩
    · rw [List.getElem?_append_left inside, found]
    · rw [← same]
      exact announced.length_written order
  · rw [ahead.consumed_append, stream_frames, count, List.drop_left]

/-- However `recv` cuts the stream, every call consumes its own frame and the
next one starts behind it. The calls go on until all messages are received, and
that takes no more moves than there are bytes, begins and ends. -/
theorem inStep_of_exec {id : ConnectionId} {messages : List Announced}
    {moves : List ReceptionMove}
    (run : (system order id (writtenAll order messages)).exec
      (start id (writtenAll order messages)) moves = some s) :
    InStep order messages s ∧
      moves.length ≤ (writtenAll order messages).length + 2 * messages.length + 1 ∧
        ((∀ move, (system order id (writtenAll order messages)).step s move = none) →
          s.ended.length = messages.length) := by
  have number : (messages.map (Announced.frame order)).length = messages.length :=
    List.length_map _
  have begins := consistent_start id (messages.map (Announced.frame order))
  rw [stream_frames] at begins
  have consistent := StepSystem.exec_invariant begins
    (fun _ _ _ before moved => Consistent.step before moved) run
  have few := consistent.length_ended_le
  refine ⟨consistent.inStep, ?_, ?_⟩
  -- Each move is paid for by a byte, or by the begin or the end of a call.
  · have spent := turns_exec run
    have turns : s.turns ≤ 2 * s.ended.length + 1 := by
      rw [Receptions.turns]
      split_ifs <;> omega
    change 0 + _ + _ ≤ _ + (writtenAll order messages).length at spent
    omega
  · intro stuck
    -- As long as a frame is left, some move is possible.
    by_contra missing
    have more : s.ended.length < (messages.map (Announced.frame order)).length := by omega
    obtain ⟨move, possible⟩ := consistent.enabled id (writtenAll order messages) more
    rw [stuck move] at possible
    cases possible

/-- A RESEND of packet 2 and an ACK of connection 7. -/
def resendAndAck : List Announced :=
  [⟨⟨⟨1, 7, .resend, 8⟩, some (.resend ⟨2⟩)⟩, .resend ⟨2⟩, rfl, rfl, by decide⟩,
    ⟨⟨⟨1, 7, .ack, 0⟩, some .base⟩, .base, rfl, rfl, by decide⟩]

/-- The header of the RESEND comes in two pieces. -/
def resendAndAckMoves : List ReceptionMove :=
  [.call, .recv 1, .recv 14, .recv 8, .finish, .call, .recv 15, .finish]

/-- Both calls end with a read outside the body buffer. -/
def resendAndAckReceived : Receptions :=
  ⟨[], 7, none, [⟨resendFrame, .error .outOfBounds⟩, ⟨ackFrame, .error .outOfBounds⟩]⟩

theorem exec_resendAndAck :
    (system .little 7 (writtenAll .little resendAndAck)).exec
      (start 7 (writtenAll .little resendAndAck)) resendAndAckMoves =
        some resendAndAckReceived := by decide +kernel

/-- The theorem for these messages, although neither call returns. -/
theorem inStep_resendAndAck :
    InStep .little resendAndAck resendAndAckReceived ∧
      resendAndAckMoves.length ≤
        (writtenAll .little resendAndAck).length + 2 * resendAndAck.length + 1 ∧
        ((∀ move, (system .little 7 (writtenAll .little resendAndAck)).step
          resendAndAckReceived move = none) →
          resendAndAckReceived.ended.length = resendAndAck.length) :=
  inStep_of_exec exec_resendAndAck

end Receptions

end TcpWrapper

end Fup
