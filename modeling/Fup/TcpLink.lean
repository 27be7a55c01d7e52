/-
# Both ends of a connection

Any number of threads call `Send` at one end of a connection, and calls of `Receive`
follow each other at the other end. What a `send` has put on the stream arrives in
order and is not lost, and each `recv` returns as many of the bytes on their way as it
likes.

The receiving end knows nothing of the blocks it reads. It finds the frames again
since no frame is the front of another one: what its calls have consumed and what the
calls of `Send` have written are two ways of cutting words off one stream. So the
calls of both ends correspond, up to the first call of `Send` that fails in the middle
of its frame.
-/

import Fup.Lib.PrefixCode
import Fup.TcpReceive.Boundaries
import Fup.TcpSend
import Mathlib.Data.List.TakeWhile

namespace Fup

namespace TcpWrapper

open Client.ListenResend (Frame)

/-! ### Frames -/

/-- The byte strings that are one frame for a host. -/
def frames (order : ByteOrder) : Set (List Byte) := {bytes | ∃ frame : Frame order, frame.bytes = bytes}

theorem mem_frames_iff {order : ByteOrder} {bytes : List Byte} :
    bytes ∈ frames order ↔ Header.size ≤ bytes.length ∧
      bytes.length = Header.size + (Header.read order bytes).bodySize.toNat := by
  constructor
  · rintro ⟨frame, rfl⟩
    exact ⟨frame.enough, frame.exactly⟩
  · rintro ⟨enough, exactly⟩
    exact ⟨⟨bytes, enough, exactly⟩, rfl⟩

/-- A header announces where its frame ends, so no frame is the front of another. -/
theorem prefixFree_frames (order : ByteOrder) : PrefixFree (frames order) := by
  intro word coded word' coded' front
  obtain ⟨enough, exactly⟩ := mem_frames_iff.mp coded
  obtain ⟨-, exactly'⟩ := mem_frames_iff.mp coded'
  obtain ⟨rest, rfl⟩ := front
  rw [Header.read_append order enough, ← exactly] at exactly'
  rw [List.length_append] at exactly'
  rw [List.length_eq_zero_iff.mp (by omega : rest.length = 0), List.append_nil]

namespace Announced

theorem written_mem_frames (order : ByteOrder) (announced : Announced) :
    announced.written order ∈ frames order := ⟨announced.frame order, rfl⟩

/-- A message as its constructor makes it. -/
def ofBody (header : Header) (body : Body) (small : body.size.toNat < 2 ^ 31) : Announced where
  message := ⟨{ header with bodySize := body.size }, some body⟩
  body := body
  carried := rfl
  announces := rfl
  small := small

/-- The message with the id that a connection gives it. -/
def onConnection (announced : Announced) (id : ConnectionId) : Announced :=
  { announced with
    message := { announced.message with
      header := { announced.message.header with connectionId := id } } }

/-- The vector of `Send` is the message as it is written. -/
theorem written_onConnection {order : ByteOrder} {announced : Announced} {id : ConnectionId}
    {buffer : Buffer Byte} (made : TcpWrapper.frame order id announced.message = .ok buffer) :
    (announced.onConnection id).written order = buffer.cells := by
  have encoded : (announced.onConnection id).message.serialize order = .ok buffer := made
  rw [written, encoded]

/-- It has less than `2 ^ 32` bytes. -/
theorem length_written_lt (order : ByteOrder) (announced : Announced) :
    (announced.written order).length < 2 ^ 32 := by
  have small := announced.small
  rw [announced.announces] at small
  rw [announced.length_written]
  have header : Header.size = 15 := rfl
  omega

end Announced

/-! ### The sending end -/

/-- The frame that a thread has at hand. -/
def SendPc.frame? : SendPc → Option (List Byte)
  | .idle => none
  | .locking frame => some frame
  | .sending frame _ => some frame

/-- The bytes are the frame of a message. -/
def Genuine (order : ByteOrder) (bytes : List Byte) : Prop :=
  ∃ announced : Announced, bytes = announced.written order

theorem Genuine.mem_frames {order : ByteOrder} {bytes : List Byte}
    (genuine : Genuine order bytes) : bytes ∈ frames order := by
  obtain ⟨announced, rfl⟩ := genuine
  exact announced.written_mem_frames order

theorem Genuine.length_lt {order : ByteOrder} {bytes : List Byte}
    (genuine : Genuine order bytes) : bytes.length < 2 ^ 32 := by
  obtain ⟨announced, rfl⟩ := genuine
  exact announced.length_written_lt order

namespace Sending

variable {ι : Type}

/-- The calls whose bytes are on the stream, in the order in which they took the
mutex. -/
def sent (s : Sending ι) : List (Block ι) :=
  s.blocks.reverse.filter fun block => block.bytes ≠ []

/-- Those of them in front of the first one that has left a part of its frame only. -/
def intact (s : Sending ι) : List (Block ι) :=
  s.sent.takeWhile fun block => block.bytes = block.frame

/-- That one and those behind it. -/
def remains (s : Sending ι) : List (Block ι) :=
  s.sent.dropWhile fun block => block.bytes = block.frame

/-- Threads send frames of messages, one at a time, and the block of a call is a front
of its frame. -/
structure Written (order : ByteOrder) (s : Sending ι) : Prop where
  exclusive : Exclusive s
  unmixed : Unmixed s
  threads : ∀ w frame, (s.threads w).frame? = some frame → Genuine order frame
  blocks : ∀ block ∈ s.blocks, Genuine order block.frame ∧ block.bytes <+: block.frame

theorem written_start (order : ByteOrder) (id : ConnectionId) :
    Written order (start id : Sending ι) where
  exclusive := exclusive_start id
  unmixed := unmixed_start id
  threads := fun _ _ located => by cases located
  blocks := fun _ listed => absurd listed List.not_mem_nil

/-- No call returns with a frame of `2 ^ 32` bytes or more. -/
theorem Written.narrow {order : ByteOrder} {s : Sending ι} (written : Written order s)
    (move : SendMove ι) : Narrow s move :=
  fun w frame _ _ located _ _ => (written.threads w frame (by rw [located]; rfl)).length_lt

section Steps

variable [DecidableEq ι] {order : ByteOrder} {s t : Sending ι}

theorem call_cases {w : ι} {message : Message} (moved : s.call order w message = some t) :
    t = s ∨ ∃ buffer, TcpWrapper.frame order s.id message = .ok buffer ∧
      s.threads w = .idle ∧ t = s.goto w (.locking buffer.cells) := by
  unfold call at moved
  split at moved
  case h_1 located =>
    split at moved
    case h_1 buffer made =>
      exact Or.inr ⟨buffer, made, located, (Option.some.inj moved).symm⟩
    case h_2 => exact Or.inl (Option.some.inj moved).symm
  case h_2 => cases moved

/-- A thread that goes to another block has a frame that was there before, or the one of
that block. -/
theorem frame?_goto {w v : ι} {pc : SendPc} {frame : List Byte}
    (located : ((s.goto w pc).threads v).frame? = some frame) :
    pc.frame? = some frame ∨ (s.threads v).frame? = some frame := by
  rw [threads_goto] at located
  split_ifs at located
  · exact Or.inl located
  · exact Or.inr located

theorem Written.call {w : ι} {announced : Announced} (written : Written order s)
    (moved : s.call order w announced.message = some t) : Written order t := by
  rcases call_cases moved with rfl | ⟨buffer, made, idle, rfl⟩
  · exact written
  · have steps : Steps s (.call w announced.message) (s.goto w (.locking buffer.cells)) :=
      .serializes w _ _ idle
    refine ⟨written.exclusive.steps steps,
      (unmixed_steps_iff written.exclusive written.unmixed steps).mpr (written.narrow _), ?_,
      written.blocks⟩
    intro v frame located
    rcases frame?_goto located with made' | before
    · obtain rfl := Option.some.inj made'
      exact ⟨announced.onConnection s.id, (Announced.written_onConnection made).symm⟩
    · exact written.threads v frame before

/-- A call that ends leaves its frame and its bytes. -/
theorem Written.of_close {w : ι} (written : Written order s) (outcome : Sent)
    (exclusive : Exclusive (s.close w outcome)) (unmixed : Unmixed (s.close w outcome)) :
    Written order (s.close w outcome) := by
  refine ⟨exclusive, unmixed, ?_, ?_⟩
  · intro v frame located
    have located : ((s.goto w .idle).threads v).frame? = some frame := located
    rcases frame?_goto located with idle | before
    · cases idle
    · exact written.threads v frame before
  · have before := written.blocks
    change ∀ block ∈ s.blocks.modifyHead _, _
    cases blocks : s.blocks with
    | nil => exact fun _ listed => absurd listed List.not_mem_nil
    | cons block rest =>
      rw [blocks, List.forall_mem_cons] at before
      exact List.forall_mem_cons.mpr ⟨before.1, before.2⟩

theorem Written.steps {move : SendMove ι} (written : Written order s)
    (other : ∀ w message, move ≠ .call w message) (moved : Steps s move t) :
    Written order t := by
  have exclusive := written.exclusive.steps moved
  have unmixed := (unmixed_steps_iff written.exclusive written.unmixed moved).mpr
    (written.narrow move)
  cases moved with
  | identifies => exact ⟨exclusive, unmixed, written.threads, written.blocks⟩
  | serializes w message => exact absurd rfl (other w message)
  | locks w frame located free =>
    have genuine := written.threads w frame (by rw [located]; rfl)
    refine ⟨exclusive, unmixed, ?_, ?_⟩
    · intro v frame' located'
      have located' : ((s.goto w (.sending frame 0)).threads v).frame? = some frame' := located'
      rcases frame?_goto located' with mine | before
      · exact Option.some.inj mine ▸ genuine
      · exact written.threads v frame' before
    · exact List.forall_mem_cons.mpr ⟨⟨genuine, List.nil_prefix⟩, written.blocks⟩
  | sends w frame bytesSent currentBytesSent located room =>
    have genuine := written.threads w frame (by rw [located]; rfl)
    obtain ⟨-, rest, blocks⟩ := written.exclusive.blocks_eq located
    have before := written.blocks
    rw [blocks, List.forall_mem_cons] at before
    refine ⟨exclusive, unmixed, ?_, ?_⟩
    · intro v frame' located'
      have located' : ((s.goto w (.sending frame (bytesSent + currentBytesSent))).threads
        v).frame? = some frame' := located'
      rcases frame?_goto located' with mine | earlier
      · exact Option.some.inj mine ▸ genuine
      · exact written.threads v frame' earlier
    · simp only [blocks, List.modifyHead_cons]
      -- The block of the call has grown along its frame.
      refine List.forall_mem_cons.mpr ⟨⟨genuine, ?_⟩, before.2⟩
      rw [← List.take_add]
      exact List.take_prefix _ frame
  | fails => exact written.of_close _ exclusive unmixed
  | finishes => exact written.of_close _ exclusive unmixed

/-- A step adds to the stream at its end. -/
theorem stream_isPrefix {move : SendMove ι} (moved : Steps s move t) : s.stream <+: t.stream := by
  cases moved with
  | sends => exact List.prefix_append _ _
  | _ => exact List.prefix_rfl

end Steps

/-! ### Blocks on the stream -/

/-- The calls that put nothing on the stream can be left out. -/
theorem flatten_bytes_filter (blocks : List (Block ι)) :
    ((blocks.filter fun block => block.bytes ≠ []).map Block.bytes).flatten =
      (blocks.map Block.bytes).flatten := by
  induction blocks with
  | nil => rfl
  | cons block blocks ih =>
    rw [List.filter_cons]
    split_ifs with nonempty
    · rw [List.map_cons, List.flatten_cons, ih, List.map_cons, List.flatten_cons]
    · have empty : block.bytes = [] := by simpa using nonempty
      rw [ih, List.map_cons, List.flatten_cons, empty, List.nil_append]

theorem stream_eq_sent {s : Sending ι} (unmixed : Unmixed s) :
    s.stream = (s.sent.map Block.bytes).flatten := by
  rw [unmixed.stream, Sending.written, sent, flatten_bytes_filter]

/-- The frames of the intact calls, and what the calls behind them have left. -/
theorem stream_eq_intact {s : Sending ι} (unmixed : Unmixed s) :
    s.stream = (s.intact.map Block.frame).flatten ++ (s.remains.map Block.bytes).flatten := by
  have whole : s.intact.map Block.bytes = s.intact.map Block.frame := by
    refine List.map_congr_left fun block listed => ?_
    exact of_decide_eq_true
      (List.mem_takeWhile_imp (p := fun block : Block ι => block.bytes = block.frame) listed)
  rw [stream_eq_sent unmixed, ← whole, intact, remains, ← List.flatten_append, ← List.map_append,
    List.takeWhile_append_dropWhile]

theorem Written.genuine_of_sent {order : ByteOrder} {s : Sending ι} (written : Written order s)
    {block : Block ι} (listed : block ∈ s.sent) :
    Genuine order block.frame ∧ block.bytes <+: block.frame :=
  written.blocks block (List.mem_reverse.mp (List.mem_of_mem_filter listed))

theorem mem_sent_of_mem_intact {s : Sending ι} {block : Block ι} (listed : block ∈ s.intact) :
    block ∈ s.sent := (List.takeWhile_sublist _).subset listed

/-- When no call but the latest has left a part of a frame only, that part is all that
remains. -/
theorem remains_of_alone {s : Sending ι}
    (alone : ∀ block ∈ s.sent.dropLast, block.bytes = block.frame) :
    s.remains = [] ∨ ∃ block ∈ s.sent, s.remains = [block] ∧ block.bytes ≠ block.frame := by
  have whole : s.intact ++ s.remains = s.sent := List.takeWhile_append_dropWhile
  cases remaining : s.remains with
  | nil => exact Or.inl rfl
  | cons block rest =>
    rw [remaining] at whole
    -- The first call that remains has left a part, so it is the latest.
    have part : block.bytes ≠ block.frame := by
      have first := List.head?_dropWhile_not
        (fun block : Block ι => decide (block.bytes = block.frame)) s.sent
      rw [← remains, remaining] at first
      simpa using first
    have latest : rest = [] := by
      by_contra more
      refine part (alone block ?_)
      rw [← whole, List.dropLast_append_cons, List.dropLast_cons_of_ne_nil more]
      exact List.mem_append_right _ List.mem_cons_self
    exact Or.inr ⟨block, whole ▸ List.mem_append_right _ List.mem_cons_self,
      by rw [latest], part⟩

/-- No frame has come in whole in what remains. -/
theorem Written.short_remains {order : ByteOrder} {s : Sending ι} (written : Written order s)
    (alone : ∀ block ∈ s.sent.dropLast, block.bytes = block.frame) :
    ∀ word ∈ frames order, ¬ word <+: (s.remains.map Block.bytes).flatten := by
  intro word coded front
  rcases remains_of_alone alone with nothing | ⟨block, listed, one, part⟩
  · rw [nothing, List.map_nil, List.flatten_nil, List.prefix_nil] at front
    have enough := (mem_frames_iff.mp coded).1
    rw [front] at enough
    exact absurd enough (by decide)
  · rw [one, List.map_singleton, List.flatten_singleton] at front
    obtain ⟨genuine, inFrame⟩ := written.genuine_of_sent listed
    -- A frame inside this part would be the call's own.
    have same := prefixFree_frames order word coded _ genuine.mem_frames (front.trans inFrame)
    rw [same] at front
    exact part (inFrame.eq_of_length_le front.length_le)

end Sending

/-! ### The receiving end -/

namespace Receptions

/-- The bytes that have come in, consumed or not. -/
def arrived (s : Receptions) : List Byte :=
  (s.ended.map Call.consumed).flatten ++ (s.consumed ++ s.unread)

/-- The current call is where its bytes have taken it, which are no more than a frame,
and each ended call has consumed a frame and decoded it. -/
structure Framed (order : ByteOrder) (s : Receptions) : Prop where
  current : ∀ receiving bytes, s.current = some (receiving, bytes) →
    receiving = .after order bytes ∧ (Header.size ≤ bytes.length →
      bytes.length ≤ Header.size + (Header.read order bytes).bodySize.toNat)
  ended : ∀ call ∈ s.ended, call.consumed ∈ frames order ∧
    (Receiving.after order call.consumed).result order = some call.result

/-- The next move of the receiving end. -/
def next (order : ByteOrder) (s : Receptions) : ReceptionMove → Option Receptions
  | .call => s.call
  | .recv k => s.recv order k
  | .finish => s.finish order

theorem framed_start (order : ByteOrder) (id : ConnectionId) : Framed order (start id []) where
  current := fun _ _ located => by cases located
  ended := fun _ listed => absurd listed List.not_mem_nil

/-- A `recv` within what is asked for stays within the frame. -/
theorem length_append_le {order : ByteOrder} {bytes chunk : List Byte}
    (asked : chunk.length ≤ (Receiving.after order bytes).wants)
    (inFrame : Header.size ≤ bytes.length →
      bytes.length ≤ Header.size + (Header.read order bytes).bodySize.toNat)
    (enough : Header.size ≤ (bytes ++ chunk).length) :
    (bytes ++ chunk).length ≤
      Header.size + (Header.read order (bytes ++ chunk)).bodySize.toNat := by
  rw [List.length_append] at enough ⊢
  rcases Nat.lt_or_ge bytes.length Header.size with short | long
  -- The first loop asks for no more than the header.
  · rw [Receiving.wants_after_of_lt order short] at asked
    omega
  · rw [Receiving.wants_after_of_le order long] at asked
    have fits := inFrame long
    rw [Header.read_append order long]
    omega

theorem Framed.next {order : ByteOrder} {s t : Receptions} {move : ReceptionMove}
    (framed : Framed order s) (moved : s.next order move = some t) :
    Framed order t ∧ t.arrived = s.arrived := by
  cases move with
  | call =>
    obtain ⟨idle, rfl⟩ := call_cases moved
    refine ⟨⟨?_, framed.ended⟩, ?_⟩
    · intro receiving bytes located
      obtain ⟨rfl, rfl⟩ := Prod.mk.inj (Option.some.inj located)
      exact ⟨rfl, fun enough => absurd enough (by decide)⟩
    · simp only [arrived, consumed, idle]
  | recv k =>
    obtain ⟨receiving, bytes, located, nonempty, asked, available, taken⟩ := recv_cases moved
    obtain ⟨rfl, inFrame⟩ := framed.current receiving bytes located
    have width : (s.unread.take k).length = k := List.length_take_of_le available
    have nonempty : s.unread.take k ≠ [] := by
      rw [← List.length_pos_iff, width]
      exact nonempty
    have asked : (s.unread.take k).length ≤ (Receiving.after order bytes).wants :=
      width.trans_le asked
    rw [Receiving.take_after order nonempty asked] at taken
    rw [taken]
    refine ⟨⟨?_, framed.ended⟩, ?_⟩
    · intro receiving' bytes' located'
      obtain ⟨rfl, rfl⟩ := Prod.mk.inj (Option.some.inj located')
      exact ⟨rfl, length_append_le asked inFrame⟩
    · simp only [arrived, consumed, located, List.append_assoc, List.take_append_drop]
  | finish =>
    obtain ⟨receiving, bytes, result, located, returned, unread, idle, ended⟩ :=
      finish_cases moved
    obtain ⟨rfl, inFrame⟩ := framed.current receiving bytes located
    refine ⟨⟨?_, ?_⟩, ?_⟩
    · intro receiving' bytes' located'
      rw [idle] at located'
      cases located'
    · -- A call that has a result has a header, and all that it announces.
      have enough : Header.size ≤ bytes.length := by
        by_contra short
        rw [Receiving.after_of_lt order (Nat.not_le.mp short)] at returned
        cases returned
      have complete := Receiving.wants_of_result returned
      rw [Receiving.wants_after_of_le order enough] at complete
      have exactly : bytes.length = Header.size + (Header.read order bytes).bodySize.toNat :=
        Nat.le_antisymm (inFrame enough) (by omega)
      rw [ended]
      intro call listed
      rcases List.mem_append.mp listed with before | last
      · exact framed.ended call before
      · obtain rfl := List.mem_singleton.mp last
        exact ⟨mem_frames_iff.mpr ⟨enough, exactly⟩, returned⟩
    · simp only [arrived, consumed, idle, located, ended, unread, List.map_append,
        List.flatten_append, List.map_singleton, List.flatten_singleton, List.nil_append,
        List.append_assoc]

end Receptions

/-! ### The link -/

/-- The threads and the stream at one end, and the calls of `Receive` at the other,
with the bytes that are on their way or wait in the socket's buffer as `unread`. -/
structure Link (ι : Type) where
  sending : Sending ι
  receptions : Receptions

/-- What happens next: a move of a thread at the sending end, with a message for a call
of `Send`, or one of the receiving end. -/
inductive LinkMove (ι : Type)
  | call (w : ι) (announced : Announced)
  | lock (w : ι)
  | send (w : ι) (result : Except String ℕ)
  | finish (w : ι)
  | adopt (id : ConnectionId)
  | receive (move : ReceptionMove)

namespace Link

variable {ι : Type} [DecidableEq ι] {order : ByteOrder}

/-- What the sending end has put on the stream is on its way. -/
def carry (s : Link ι) (sending : Sending ι) : Link ι where
  sending := sending
  receptions := { s.receptions with
    unread := s.receptions.unread ++ sending.stream.drop s.sending.stream.length }

/-- All interleavings of the two ends of a connection with these ids. -/
def system (ι : Type) [DecidableEq ι] (order : ByteOrder) (id id' : ConnectionId) :
    StepSystem (Link ι) (LinkMove ι) where
  init s := s = ⟨Sending.start id, Receptions.start id' []⟩
  step s move :=
    match move with
    | .call w announced => (s.sending.call order w announced.message).map s.carry
    | .lock w => (s.sending.lock w).map s.carry
    | .send w result => (s.sending.send w result).map s.carry
    | .finish w => (s.sending.finish w).map s.carry
    | .adopt id => some (s.carry (s.sending.adopt id))
    | .receive move =>
      (s.receptions.next order move).map fun receptions => { s with receptions := receptions }

/-- A step is one of the sending end, or one of the receiving end. -/
inductive Moves (order : ByteOrder) (s : Link ι) : Link ι → Prop
  | calls {w : ι} {announced : Announced} {sending : Sending ι}
    (moved : s.sending.call order w announced.message = some sending) :
    Moves order s (s.carry sending)
  | sends {move : SendMove ι} {sending : Sending ι} (other : ∀ w message, move ≠ .call w message)
    (moved : Sending.Steps s.sending move sending) : Moves order s (s.carry sending)
  | receives {move : ReceptionMove} {receptions : Receptions}
    (moved : s.receptions.next order move = some receptions) :
    Moves order s { s with receptions := receptions }

theorem moves_of_step {id id' : ConnectionId} {s t : Link ι} {move : LinkMove ι}
    (moved : (system ι order id id').step s move = some t) : Moves order s t := by
  -- A move of a thread is one of the sending end alone.
  have sends {m : SendMove ι} {sending : Sending ι} (other : ∀ w message, m ≠ .call w message)
      (moved : (Sending.system order id).step s.sending m = some sending) :
      Moves order s (s.carry sending) := .sends other (Sending.steps_of_step moved)
  cases move with
  | call w announced =>
    obtain ⟨sending, done, rfl⟩ := Option.map_eq_some_iff.mp moved
    exact .calls done
  | lock w =>
    obtain ⟨sending, done, rfl⟩ := Option.map_eq_some_iff.mp moved
    exact sends (m := .lock w) (by simp) done
  | send w result =>
    obtain ⟨sending, done, rfl⟩ := Option.map_eq_some_iff.mp moved
    exact sends (m := .send w result) (by simp) done
  | finish w =>
    obtain ⟨sending, done, rfl⟩ := Option.map_eq_some_iff.mp moved
    exact sends (m := .finish w) (by simp) done
  | adopt other =>
    obtain rfl := Option.some.inj moved
    exact sends (m := .adopt other) (by simp) rfl
  | receive move =>
    obtain ⟨receptions, done, rfl⟩ := Option.map_eq_some_iff.mp moved
    exact .receives done

/-- The two ends are sound, and what has arrived at the one is what the other has
sent. -/
structure Kept (order : ByteOrder) (s : Link ι) : Prop where
  written : s.sending.Written order
  framed : s.receptions.Framed order
  conserved : s.receptions.arrived = s.sending.stream

omit [DecidableEq ι] in
/-- A step of the sending end gets on its way what it adds to the stream. -/
theorem Kept.carry {s : Link ι} (kept : Kept order s) {sending : Sending ι}
    (written : sending.Written order) (grown : s.sending.stream <+: sending.stream) :
    Kept order (s.carry sending) := by
  refine ⟨written, ⟨kept.framed.current, kept.framed.ended⟩, ?_⟩
  obtain ⟨more, whole⟩ := grown
  have arrived : (s.carry sending).receptions.arrived =
      s.receptions.arrived ++ sending.stream.drop s.sending.stream.length := by
    simp only [Link.carry, Receptions.arrived, Receptions.consumed, List.append_assoc]
  rw [arrived, kept.conserved, ← whole, List.drop_left]
  exact whole

theorem kept_of_reachable {id id' : ConnectionId} {s : Link ι}
    (reached : (system ι order id id').Reachable s) : Kept order s := by
  refine reached.invariant ?_ ?_
  · rintro s rfl
    exact ⟨Sending.written_start order id, Receptions.framed_start order id', rfl⟩
  · intro s move t kept moved
    cases moves_of_step moved with
    | calls called =>
      have written := kept.written.call called
      rcases Sending.call_cases called with rfl | ⟨buffer, -, -, rfl⟩
      · exact kept.carry written List.prefix_rfl
      · exact kept.carry written List.prefix_rfl
    | sends other stepped =>
      exact kept.carry (kept.written.steps other stepped) (Sending.stream_isPrefix stepped)
    | receives received =>
      obtain ⟨framed, same⟩ := kept.framed.next received
      exact ⟨kept.written, framed, same.trans kept.conserved⟩

/-! ### The calls of the two ends -/

/-- The calls of `Receive` that have ended have consumed the frames of the intact
calls of `Send`, each the one with its number, and there are not more of them as long
as no call but the latest has left a part of its frame only. None is missing when all
bytes have been consumed. -/
structure InOrder (s : Link ι) : Prop where
  matched : ∀ (k : ℕ) (block : Block ι) (call : Call), s.sending.intact[k]? = some block →
    s.receptions.ended[k]? = some call → call.consumed = block.frame
  nothingElse : (∀ block ∈ s.sending.sent.dropLast, block.bytes = block.frame) →
    s.receptions.ended.length ≤ s.sending.intact.length
  nothingMissing : s.receptions.consumed = [] → s.receptions.unread = [] →
    s.sending.intact.length ≤ s.receptions.ended.length

section Frames

variable {s : Link ι} (kept : Kept order s)

include kept

omit [DecidableEq ι]

theorem Kept.frames_of_intact :
    ∀ word ∈ s.sending.intact.map Block.frame, word ∈ frames order := by
  intro word listed
  obtain ⟨block, found, rfl⟩ := List.mem_map.mp listed
  exact (kept.written.genuine_of_sent (Sending.mem_sent_of_mem_intact found)).1.mem_frames

theorem Kept.frames_of_ended :
    ∀ word ∈ s.receptions.ended.map Call.consumed, word ∈ frames order := by
  intro word listed
  obtain ⟨call, found, rfl⟩ := List.mem_map.mp listed
  exact (kept.framed.ended call found).1

/-- The frames of the intact calls are at the front of the stream. -/
theorem Kept.intact_isPrefix :
    (s.sending.intact.map Block.frame).flatten <+: s.sending.stream := by
  rw [Sending.stream_eq_intact kept.written.unmixed]
  exact List.prefix_append _ _

/-- So are the bytes of the calls of `Receive`. -/
theorem Kept.ended_isPrefix :
    (s.receptions.ended.map Call.consumed).flatten <+: s.sending.stream := by
  rw [← kept.conserved]
  exact List.prefix_append _ _

theorem Kept.inOrder : InOrder s := by
  have free := prefixFree_frames order
  have either := free.isPrefix_or_isPrefix kept.frames_of_intact kept.frames_of_ended
    kept.intact_isPrefix kept.ended_isPrefix
  refine ⟨?_, ?_, ?_⟩
  · intro k block call sent received
    have here : (s.sending.intact.map Block.frame)[k]? = some block.frame := by
      rw [List.getElem?_map, sent, Option.map_some]
    have there : (s.receptions.ended.map Call.consumed)[k]? = some call.consumed := by
      rw [List.getElem?_map, received, Option.map_some]
    -- The one list is the front of the other, so they agree where both reach.
    rcases either with shorter | longer
    · obtain ⟨inside, value⟩ := List.getElem?_eq_some_iff.mp here
      have same := List.prefix_iff_getElem?.mp shorter k inside
      rw [there, value] at same
      exact Option.some.inj same
    · obtain ⟨inside, value⟩ := List.getElem?_eq_some_iff.mp there
      have same := List.prefix_iff_getElem?.mp longer k inside
      rw [here, value] at same
      exact (Option.some.inj same).symm
  · intro alone
    have front := kept.ended_isPrefix
    rw [Sending.stream_eq_intact kept.written.unmixed] at front
    have few := (free.isPrefix_of_part kept.frames_of_intact kept.frames_of_ended
      (kept.written.short_remains alone) front).length_le
    rwa [List.length_map, List.length_map] at few
  · intro idle empty
    have all : s.sending.stream = (s.receptions.ended.map Call.consumed).flatten := by
      rw [← kept.conserved, Receptions.arrived, idle, empty, List.append_nil, List.append_nil]
    have nonempty : ∀ word ∈ frames order, ¬ word <+: [] := by
      intro word coded front
      have enough := (mem_frames_iff.mp coded).1
      rw [List.prefix_nil.mp front] at enough
      exact absurd enough (by decide)
    have front := kept.intact_isPrefix
    rw [all, ← List.append_nil (s.receptions.ended.map Call.consumed).flatten] at front
    have few := (free.isPrefix_of_part kept.frames_of_ended kept.frames_of_intact nonempty
      front).length_le
    rwa [List.length_map, List.length_map] at few

end Frames

/-- Whatever the threads do, however `send` takes the bytes and `recv` returns them. -/
theorem inOrder_of_reachable {id id' : ConnectionId} {s : Link ι}
    (reached : (system ι order id id').Reachable s) : InOrder s :=
  (kept_of_reachable reached).inOrder

theorem small_resend (resend : Resend) : (Body.resend resend).size.toNat < 2 ^ 31 := by
  have eight : (8 : UInt64).toNat < 2 ^ 31 := by decide
  exact eight

/-- A RESEND of packet 3 on connection 7. -/
def askedFrame : List Byte :=
  [0, 1, 0, 0, 0, 7, 4, 0, 0, 0, 8, 0, 0, 0, 0, 0, 0, 0, 0, 0, 0, 0, 3]

/-- It goes out in two parts, and its header comes in before the second. -/
def askedMoves : List (LinkMove Unit) :=
  [.call () (.ofBody ⟨1, 7, .resend, 0⟩ (.resend ⟨3⟩) (small_resend ⟨3⟩)), .lock (),
    .send () (.ok 16), .receive .call, .receive (.recv 15), .send () (.ok 7), .finish (),
    .receive (.recv 8), .receive .finish]

/-- The theorem where the RESEND has been received, if not returned. -/
theorem inOrder_asked :
    ∃ s, (system Unit .little 7 7).exec ⟨Sending.start 7, Receptions.start 7 []⟩ askedMoves =
        some s ∧
      s.receptions.ended = [⟨askedFrame, .error .outOfBounds⟩] ∧ InOrder s := by
  have received : ((system Unit .little 7 7).exec ⟨Sending.start 7, Receptions.start 7 []⟩
      askedMoves).map (fun s => s.receptions.ended) =
        some [⟨askedFrame, .error .outOfBounds⟩] := by decide +kernel
  obtain ⟨s, run, ended⟩ := Option.map_eq_some_iff.mp received
  exact ⟨s, run, ended, inOrder_of_reachable ⟨_, askedMoves, rfl, run⟩⟩

end Link

end TcpWrapper

end Fup
