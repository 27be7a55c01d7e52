/-
# The resend listener on a fragmented stream

`ListenResend` waits until its socket is readable and then receives a whole
message from it, although it has made the socket non-blocking. The network moves
bytes from the stream to the socket's buffer whenever it likes. A call of `recv`
that finds the buffer empty throws, and the bytes that the message already
consumed are lost with the locals of `Receive`.

The bytes consumed determine the state of `Receive`, so as long as no call finds
the buffer empty the listener sees what it would see of whole frames.
-/

import Fup.Lib.StepSystem
import Fup.TcpReceive

namespace Fup.Client

open TcpWrapper

/-! ### Messages -/

/-- What `ListenResend` does with a message. -/
inductive Dispatch
  | resend (seqId : SequenceId)
  | ack
  | abort
  | unexpected
  | threw (failure : Failure)
  deriving DecidableEq

/-- The branches on the keyword. -/
def dispatch (message : Message) : Dispatch :=
  if message.header.keyword = .resend then
    match message.body with
    | some (.resend resend) => .resend resend.seqId
    | none => .threw (.exception "Failed to cast response body to fup::Resend")
    -- The cast to a RESEND is static, and nothing checks it.
    | some _ => .threw .outOfBounds
  else if message.header.keyword = .ack then .ack
  else if message.header.keyword = .abort then .abort
  else .unexpected

/-- A RESEND is a message with the keyword and a body of its kind. -/
theorem dispatch_eq_resend_iff {message : Message} {seqId : SequenceId} :
    dispatch message = .resend seqId ↔
      message.header.keyword = .resend ∧ message.body = some (.resend ⟨seqId⟩) := by
  rw [dispatch]
  split_ifs with kind
  · rw [and_iff_right kind]
    cases message.body with
    | none => simp
    | some body =>
      cases body with
      | resend resend => rcases resend with ⟨seqId'⟩; simp
      | _ => simp
  all_goals simp [kind]

/-- The listener does not come back to its loop. -/
def Dispatch.ends : Dispatch → Bool
  | .resend _ => false
  | .unexpected => false
  | .ack => true
  | .abort => true
  | .threw _ => true

namespace ListenResend

/-! ### The listener and its socket -/

/-- Where the listener is. While it receives, the bytes consumed for the message
are remembered beside the locals that hold them. -/
inductive Phase
  | selecting
  | receiving (receiving : Receiving) (consumed : List Byte)
  | ended (failure : Option Failure)
  deriving DecidableEq

/-- The socket and the listener: the bytes the network has not made available
yet, those in the socket's buffer, the messages handled so far, and consumed
bytes that no message got. -/
structure Listening where
  inFlight : List Byte
  buffered : List Byte
  phase : Phase
  handled : List Message
  dropped : List Byte
  deriving DecidableEq

/-- Who moves: the network makes some bytes available, or the listener goes on
to its next call. -/
inductive Action
  | arrive (k : ℕ)
  | listen
  deriving DecidableEq

/-- The text of a `recv` on an empty buffer. -/
def wouldBlock : String :=
  "Socket::Receive: An error occured while receiving TCP message: " ++
    "Resource temporarily unavailable"

/-- The end of `Receive` and the branches on its message. `stopSignal` is set by
the listener alone, and then it returns. -/
def finish (state : Listening) (result : Except Failure Message) : Listening :=
  match result with
  | .error failure => { state with phase := .ended (some failure) }
  | .ok message =>
    { state with
      phase :=
        match dispatch message with
        | .resend _ => .selecting
        | .unexpected => .selecting
        | .ack => .ended none
        | .abort => .ended none
        | .threw failure => .ended (some failure)
      handled := state.handled ++ [message] }

/-- The next call of the listener. -/
def listen (order : ByteOrder) (state : Listening) : Option Listening :=
  match state.phase with
  | .ended _ => none
  | .selecting =>
    -- `select` reports the socket readable when a byte is buffered, or times out.
    some (if state.buffered = [] then state
      else { state with phase := .receiving .start [] })
  | .receiving receiving consumed =>
    if receiving.wants = 0 then (receiving.result order).map (finish state)
    else if state.buffered = [] then
      some { state with
        phase := .ended (some (receiving.failed wouldBlock))
        dropped := state.dropped ++ consumed }
    else
      let chunk := receiving.recv state.buffered
      match receiving.take order chunk with
      | .error failure => some { state with phase := .ended (some failure) }
      | .ok next =>
        some { state with
          buffered := state.buffered.drop chunk.length
          phase := .receiving next (consumed ++ chunk) }

/-- The network makes the next bytes of the stream available. -/
def arrive (k : ℕ) (state : Listening) : Option Listening :=
  if 0 < k ∧ k ≤ state.inFlight.length then
    some { state with
      inFlight := state.inFlight.drop k
      buffered := state.buffered ++ state.inFlight.take k }
  else none

def start (stream : List Byte) : Listening := ⟨stream, [], .selecting, [], []⟩

/-- The listener on a stream, under every way of making its bytes available. -/
def system (order : ByteOrder) (stream : List Byte) : StepSystem Listening Action where
  init state := state = start stream
  step state action :=
    match action with
    | .arrive k => arrive k state
    | .listen => listen order state

/-! ### Whole frames -/

/-- A frame: a header and as many bytes as it announces. -/
structure Frame (order : ByteOrder) where
  bytes : List Byte
  enough : Header.size ≤ bytes.length
  exactly : bytes.length = Header.size + (Header.read order bytes).bodySize.toNat

/-- `Receive` with all bytes of a frame in the buffer: calls of `recv` until none
is needed. -/
def receiveWhole (order : ByteOrder) : ℕ → Receiving → List Byte →
    Option (Except Failure Message)
  | 0, receiving, _ => receiving.result order
  | fuel + 1, receiving, buffered =>
    if receiving.wants = 0 then receiving.result order
    else
      let chunk := receiving.recv buffered
      match receiving.take order chunk with
      | .error failure => some (.error failure)
      | .ok next => receiveWhole order fuel next (buffered.drop chunk.length)

variable {order : ByteOrder}

/-- The messages handled when each frame becomes available whole. -/
def wholeMessages : List (Frame order) → List Message
  | [] => []
  | frame :: frames =>
    match receiveWhole order frame.bytes.length .start frame.bytes with
    | some (.ok message) =>
      message :: if (dispatch message).ends then [] else wholeMessages frames
    | _ => []

/-- The bytes of several frames. -/
def stream (frames : List (Frame order)) : List Byte := (frames.map Frame.bytes).flatten

/-! ### Inside a frame -/

namespace Frame

variable (frame : Frame order) {front missing : List Byte}
  (split : frame.bytes = front ++ missing)

include split

/-- `Receive` never asks for more than the frame still has. -/
theorem wants_le : (Receiving.after order front).wants ≤ missing.length := by
  have exactly := frame.exactly
  have enough := frame.enough
  rw [split, List.length_append] at exactly enough
  rcases Nat.lt_or_ge front.length Header.size with short | whole
  · rw [Receiving.wants_after_of_lt order short]
    omega
  · rw [Header.read_append order whole] at exactly
    rw [Receiving.wants_after_of_le order whole]
    omega

/-- When it asks for nothing, it has the whole frame. -/
theorem front_eq_of_wants (done : (Receiving.after order front).wants = 0) :
    front = frame.bytes := by
  have exactly := frame.exactly
  rw [split, List.length_append] at exactly
  rcases Nat.lt_or_ge front.length Header.size with short | whole
  · rw [Receiving.wants_after_of_lt order short] at done
    omega
  · rw [Receiving.wants_after_of_le order whole] at done
    rw [Header.read_append order whole] at exactly
    have empty : missing.length = 0 := by omega
    rw [split, List.length_eq_zero_iff.mp empty, List.append_nil]

/-- A `recv` that finds bytes in the buffer takes the next bytes of the frame. -/
theorem recv {buffered rest rest' : List Byte} (next : buffered ++ rest = missing ++ rest')
    (asking : (Receiving.after order front).wants ≠ 0) (available : buffered ≠ []) :
    ∃ chunk missing' buffered', (Receiving.after order front).recv buffered = chunk ∧
      chunk ≠ [] ∧ missing = chunk ++ missing' ∧ buffered = chunk ++ buffered' ∧
        (Receiving.after order front).take order chunk =
          .ok (Receiving.after order (front ++ chunk)) := by
  set chunk := (Receiving.after order front).recv buffered with isChunk
  have asked : chunk.length ≤ (Receiving.after order front).wants :=
    (List.length_take_le _ _).trans (min_le_left _ _)
  have nonempty : chunk ≠ [] := by
    have limit : 0 < recvLimit := by decide
    have positive := List.length_pos_iff.mpr available
    rw [← List.length_pos_iff, isChunk, Receiving.recv, List.length_take]
    exact lt_min (lt_min (Nat.pos_of_ne_zero asking) limit) positive
  -- The chunk is at the front of the buffer, and the frame's bytes come first there.
  have inBuffer : chunk <+: buffered := List.take_prefix _ _
  have inFrame : chunk <+: missing :=
    List.prefix_of_prefix_length_le (inBuffer.trans (List.prefix_append buffered rest))
      (next ▸ List.prefix_append missing rest') (asked.trans (frame.wants_le split))
  obtain ⟨buffered', isBuffered⟩ := inBuffer
  obtain ⟨missing', isMissing⟩ := inFrame
  exact ⟨chunk, missing', buffered', rfl, nonempty, isMissing.symm, isBuffered.symm,
    Receiving.take_after order nonempty asked⟩

/-- With the whole frame in the buffer, `Receive` ends in the state of its bytes. -/
theorem receiveWhole_eq (fuel : ℕ) (enough : missing.length ≤ fuel) :
    receiveWhole order fuel (Receiving.after order front) missing =
      (Receiving.after order frame.bytes).result order := by
  induction fuel generalizing front missing with
  | zero =>
    obtain rfl := List.length_eq_zero_iff.mp (Nat.le_zero.mp enough)
    rw [receiveWhole, split, List.append_nil]
  | succ fuel ih =>
    rw [receiveWhole]
    split_ifs with done
    · rw [frame.front_eq_of_wants split done]
    -- As long as it asks for bytes the frame has some left.
    · have available : missing ≠ [] := by
        rw [← List.length_pos_iff]
        exact (Nat.pos_of_ne_zero done).trans_le (frame.wants_le split)
      obtain ⟨chunk, missing', _, returned, nonempty, cut, -, taken⟩ :=
        frame.recv split (rfl : missing ++ [] = missing ++ []) done available
      have shorter := List.length_pos_iff.mpr nonempty
      simp only [returned, taken]
      rw [cut, List.length_append] at enough
      rw [cut, List.drop_left]
      refine ih ?_ (by omega)
      rw [split, cut, List.append_assoc]

end Frame

/-- What the listener makes of a whole frame. -/
theorem wholeMessages_cons (frame : Frame order) (frames : List (Frame order)) :
    wholeMessages (frame :: frames) =
      match (Receiving.after order frame.bytes).result order with
      | some (.ok message) =>
        message :: if (dispatch message).ends then [] else wholeMessages frames
      | _ => [] := by
  have whole := frame.receiveWhole_eq (List.nil_append frame.bytes).symm frame.bytes.length le_rfl
  change receiveWhole order frame.bytes.length .start frame.bytes = _ at whole
  rw [wholeMessages, whole]

/-! ### Every schedule -/

/-- The messages handled so far, with those of the frames to come, are those of
whole frames, and what is consumed, buffered and in flight are these frames. -/
def Consistent (frames : List (Frame order)) (state : Listening) : Prop :=
  state.dropped = [] ∧
    match state.phase with
    | .selecting => ∃ rest : List (Frame order),
        state.handled ++ wholeMessages rest = wholeMessages frames ∧
          state.buffered ++ state.inFlight = stream rest
    | .receiving receiving consumed => ∃ (frame : Frame order) (rest : List (Frame order))
        (missing : List Byte),
        state.handled ++ wholeMessages (frame :: rest) = wholeMessages frames ∧
          frame.bytes = consumed ++ missing ∧
          state.buffered ++ state.inFlight = missing ++ stream rest ∧
          receiving = Receiving.after order consumed ∧ (consumed = [] → state.buffered ≠ [])
    | .ended _ => state.handled = wholeMessages frames

/-- The next call is not a `recv` on an empty buffer. -/
def NotStarved (state : Listening) (action : Action) : Prop :=
  ∀ receiving consumed, action = .listen → state.phase = .receiving receiving consumed →
    receiving.wants ≠ 0 → state.buffered ≠ []

/-- The listener handles the messages of whole frames: in their order, all of
them by the time it has ended or waits with nothing left to come, and without
dropping a byte. -/
structure SeesWholeFrames (frames : List (Frame order)) (state : Listening) : Prop where
  inOrder : state.handled <+: wholeMessages frames
  complete : (∃ failure, state.phase = .ended failure) ∨
    state.phase = .selecting ∧ state.buffered = [] ∧ state.inFlight = [] →
    state.handled = wholeMessages frames
  keeps : state.dropped = []

theorem consistent_start (frames : List (Frame order)) :
    Consistent frames (start (stream frames)) :=
  ⟨rfl, frames, rfl, rfl⟩

theorem Consistent.seesWholeFrames {frames : List (Frame order)} {state : Listening}
    (consistent : Consistent frames state) : SeesWholeFrames frames state := by
  obtain ⟨keeps, rest⟩ := consistent
  refine ⟨?_, ?_, keeps⟩
  · cases phase : state.phase with
    | selecting =>
      rw [phase] at rest
      obtain ⟨rest, handled, -⟩ := rest
      exact handled ▸ List.prefix_append _ _
    | receiving receiving consumed =>
      rw [phase] at rest
      obtain ⟨frame, rest, missing, handled, -⟩ := rest
      exact handled ▸ List.prefix_append _ _
    | ended failure =>
      rw [phase] at rest
      exact rest ▸ List.prefix_rfl
  · rintro (⟨failure, phase⟩ | ⟨phase, nothing, nothing'⟩)
    · rwa [phase] at rest
    · rw [phase] at rest
      obtain ⟨rest, handled, bytes⟩ := rest
      rw [nothing, nothing', List.nil_append] at bytes
      cases rest with
      | nil => rwa [wholeMessages, List.append_nil] at handled
      | cons frame rest =>
        -- A frame is not empty, so none is left.
        have positive : 0 < frame.bytes.length := lt_of_lt_of_le (by decide) frame.enough
        have empty : (stream (frame :: rest)).length = 0 := by rw [← bytes, List.length_nil]
        rw [stream, List.map_cons, List.flatten_cons, List.length_append] at empty
        omega

/-- Making bytes available changes nothing the listener has seen. -/
theorem Consistent.arrive {frames : List (Frame order)} {state next : Listening} {k : ℕ}
    (consistent : Consistent frames state)
    (moved : ListenResend.arrive k state = some next) : Consistent frames next := by
  rw [ListenResend.arrive] at moved
  split_ifs at moved
  obtain rfl := Option.some.inj moved
  obtain ⟨keeps, rest⟩ := consistent
  -- Bytes move from the connection to the buffer, in order.
  have same : state.buffered ++ state.inFlight.take k ++ state.inFlight.drop k =
      state.buffered ++ state.inFlight := by
    rw [List.append_assoc, List.take_append_drop]
  refine ⟨keeps, ?_⟩
  cases phase : state.phase with
  | selecting =>
    simp only [phase] at rest ⊢
    rwa [same]
  | receiving receiving consumed =>
    simp only [phase] at rest ⊢
    obtain ⟨frame, rest, missing, handled, split, bytes, located, first⟩ := rest
    refine ⟨frame, rest, missing, handled, split, same.trans bytes, located, ?_⟩
    intro nothing
    exact List.append_ne_nil_of_left_ne_nil (first nothing) _
  | ended failure =>
    simp only [phase] at rest ⊢
    exact rest

/-- The end of `Receive` handles the message of the frame received. -/
theorem Consistent.finish {frames rest : List (Frame order)} {frame : Frame order}
    {state : Listening} {result : Except Failure Message} (keeps : state.dropped = [])
    (handled : state.handled ++ wholeMessages (frame :: rest) = wholeMessages frames)
    (bytes : state.buffered ++ state.inFlight = stream rest)
    (ended : (Receiving.after order frame.bytes).result order = some result) :
    Consistent frames (ListenResend.finish state result) := by
  rw [wholeMessages_cons, ended] at handled
  cases result with
  | error failure =>
    refine ⟨keeps, ?_⟩
    simpa only [ListenResend.finish, List.append_nil] using handled
  | ok message =>
    refine ⟨keeps, ?_⟩
    -- A message either goes back to `select` or ends the listener.
    cases kind : dispatch message with
    | resend seqId =>
      simp only [kind, Dispatch.ends, Bool.false_eq_true, if_false] at handled
      simp only [ListenResend.finish, kind]
      exact ⟨rest, by rw [List.append_assoc]; exact handled, bytes⟩
    | unexpected =>
      simp only [kind, Dispatch.ends, Bool.false_eq_true, if_false] at handled
      simp only [ListenResend.finish, kind]
      exact ⟨rest, by rw [List.append_assoc]; exact handled, bytes⟩
    | ack | abort | threw =>
      simp only [kind, Dispatch.ends, if_true] at handled
      simp only [ListenResend.finish, kind]
      exact handled

/-- A call of the listener that does not starve keeps the account of frames. -/
theorem Consistent.listen {frames : List (Frame order)} {state next : Listening}
    (consistent : Consistent frames state) (fed : NotStarved state .listen)
    (moved : ListenResend.listen order state = some next) : Consistent frames next := by
  obtain ⟨keeps, rest⟩ := consistent
  rw [ListenResend.listen] at moved
  cases phase : state.phase with
  | ended failure =>
    simp only [phase, reduceCtorEq] at moved
  | selecting =>
    simp only [phase, Option.some_inj] at moved rest
    obtain ⟨rest, handled, bytes⟩ := rest
    split_ifs at moved with nothing
    · rw [← moved]
      exact ⟨keeps, by simp only [phase]; exact ⟨rest, handled, bytes⟩⟩
    · rw [← moved]
      cases rest with
      | nil =>
        -- Bytes in the buffer belong to a frame.
        exact absurd (List.append_eq_nil_iff.mp bytes).1 nothing
      | cons frame rest =>
        exact ⟨keeps, frame, rest, frame.bytes, handled, rfl, bytes, rfl, fun _ => nothing⟩
  | receiving receiving consumed =>
    simp only [phase] at moved rest
    obtain ⟨frame, rest, missing, handled, split, bytes, located, -⟩ := rest
    subst located
    by_cases done : (Receiving.after order consumed).wants = 0
    · -- The frame is complete.
      rw [if_pos done] at moved
      obtain ⟨result, ended, rfl⟩ := Option.map_eq_some_iff.mp moved
      have whole := frame.front_eq_of_wants split done
      rw [whole] at ended
      have nothing : missing = [] := by
        rw [whole] at split
        exact List.append_right_eq_self.mp split.symm
      rw [nothing, List.nil_append] at bytes
      exact Consistent.finish keeps handled bytes ended
    · -- The next chunk is of this frame.
      have available := fed _ _ rfl phase done
      obtain ⟨chunk, missing', buffered', returned, nonempty, cut, cut', taken⟩ :=
        frame.recv split bytes done available
      rw [if_neg done, if_neg available] at moved
      simp only [returned, taken, Option.some_inj] at moved
      rw [cut', List.drop_left] at moved
      rw [cut, cut', List.append_assoc, List.append_assoc] at bytes
      rw [← moved]
      refine ⟨keeps, frame, rest, missing', handled, ?_, List.append_cancel_left bytes, rfl, ?_⟩
      · rw [split, cut, List.append_assoc]
      · intro nothing
        exact absurd (List.append_eq_nil_iff.mp nothing).2 nonempty

/-- A `recv` on an empty buffer drops the bytes consumed for the frame. -/
theorem Consistent.starve {frames : List (Frame order)} {state next : Listening} {action : Action}
    (consistent : Consistent frames state) (starved : ¬ NotStarved state action)
    (moved : (system order (stream frames)).step state action = some next) :
    ¬ SeesWholeFrames frames next := by
  simp only [NotStarved, not_forall, not_not] at starved
  obtain ⟨receiving, consumed, rfl, phase, asking, nothing⟩ := starved
  obtain ⟨keeps, rest⟩ := consistent
  simp only [phase] at rest
  obtain ⟨frame, rest, missing, -, -, -, -, first⟩ := rest
  change ListenResend.listen order state = some next at moved
  rw [ListenResend.listen] at moved
  simp only [phase, if_neg asking, if_pos nothing, Option.some_inj] at moved
  intro sees
  have lost := sees.keeps
  rw [← moved] at lost
  -- Something was consumed, or the socket would not have been readable.
  have consumedNone : consumed = [] := (List.append_eq_nil_iff.mp lost).2
  exact first consumedNone nothing

/-- The listener sees whole frames throughout a run exactly when none of its
calls of `recv` finds the buffer empty. -/
theorem seesWholeFrames_iff (frames : List (Frame order)) {actions : List Action}
    {last : Listening}
    (run : (system order (stream frames)).exec (start (stream frames)) actions = some last) :
    (system order (stream frames)).Throughout (SeesWholeFrames frames)
        (start (stream frames)) actions ↔
      (system order (stream frames)).Within NotStarved (start (stream frames)) actions := by
  refine StepSystem.throughout_iff_within (consistent_start frames) ?_ ?_ ?_ run
  · intro state action next consistent fed moved
    cases action with
    | arrive k => exact consistent.arrive moved
    | listen => exact consistent.listen fed moved
  · intro state consistent
    exact consistent.seesWholeFrames
  · intro state action next consistent starved moved
    exact consistent.starve starved moved

/-- A RESEND of packet 2 with fifteen bytes behind its sequence id. -/
def paddedResend : Frame .little where
  bytes := [0, 1, 0, 0, 0, 7, 4, 0, 0, 0, 23, 0, 0, 0, 0] ++ [0, 0, 0, 0, 0, 0, 0, 2] ++
    List.replicate 15 0
  enough := by decide
  exactly := by decide

/-- The theorem on a run in which the frame arrives whole and is handled. -/
theorem seesWholeFrames_iff_paddedResend :
    (system .little (stream [paddedResend])).Throughout (SeesWholeFrames [paddedResend])
        (start (stream [paddedResend])) [.arrive 38, .listen, .listen, .listen, .listen] ↔
      (system .little (stream [paddedResend])).Within NotStarved
        (start (stream [paddedResend])) [.arrive 38, .listen, .listen, .listen, .listen] :=
  seesWholeFrames_iff [paddedResend] (Option.some_get (by decide)).symm

/-- Whole, the frame is handled. When its first byte arrives alone the listener
throws with that byte consumed. -/
theorem not_seesWholeFrames_paddedResend :
    wholeMessages [paddedResend] = [⟨⟨1, 7, .resend, 23⟩, some (.resend ⟨2⟩)⟩] ∧
      ¬ (system .little (stream [paddedResend])).Throughout (SeesWholeFrames [paddedResend])
        (start (stream [paddedResend])) [.arrive 1, .listen, .listen, .listen] := by
  refine ⟨by decide, ?_⟩
  intro throughout
  have lost : ((system .little (stream [paddedResend])).exec (start (stream [paddedResend]))
      [.arrive 1, .listen, .listen, .listen]).map Listening.dropped = some [0] := by decide
  obtain ⟨last, run, dropped⟩ := Option.map_eq_some_iff.mp lost
  have keeps := (throughout _ List.prefix_rfl last run).keeps
  exact absurd (keeps.symm.trans dropped) (by decide)

end ListenResend

end Fup.Client
