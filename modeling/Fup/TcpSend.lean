/-
# Sending messages over TCP

`TcpWrapper::Send` serializes the message and passes the vector to
`Socket::Send`, which holds the mutex of the socket while it calls `send` until
everything is out or a call fails. The length is a `size_t` in the one and an
`int` in the other, and the comparison at the end is made on the converted
length too.

Any number of threads share a connection. Each block of a thread is one step,
and what `send` returns is part of the label. The calls that have taken the
mutex are kept with the bytes each of them has put on the stream.
-/

import Fup.Lib.StepSystem
import Fup.Message.RoundTrip
import Mathlib.Logic.Function.Basic

namespace Fup

namespace TcpWrapper

/-! ### States -/

/-- The vector of `Send`: a copy of the message with the id of the connection. -/
def frame (order : ByteOrder) (id : ConnectionId) (message : Message) :
    Except Failure (Buffer Byte) :=
  let cpy := { message with header := { message.header with connectionId := id } }
  cpy.serialize order

/-- A body encoded in as many bytes as its size says is framed behind a header. -/
theorem exists_frame_of_body (order : ByteOrder) (id : ConnectionId) (header : Header)
    {body : Body} {bytes : List Byte} (encoded : body.serialize order = .ok ⟨bytes, true⟩)
    (sized : bytes.length = body.size.toNat) (small : bytes.length < 2 ^ 63) :
    ∃ cells, frame order id ⟨header, some body⟩ = .ok ⟨cells, true⟩ ∧
      cells.length = Header.size + bytes.length ∧ cells.drop Header.size = bytes := by
  have carried : (Message.mk { header with connectionId := id } (some body)).body = some body := rfl
  have width := Header.length_wire order { header with connectionId := id }
  refine ⟨_, Message.serialize_eq order carried encoded sized (sized ▸ small), ?_, ?_⟩
  · rw [List.length_append, width]
  · exact List.drop_left' width

/-- The parameter `length` of `Socket::Send`. -/
def intLength (frame : List Byte) : ℤ := int32 frame.length

/-- How a call of `Send` ended, once it had the mutex. -/
inductive Sent
  | returned
  | threw (failure : Failure)
  deriving DecidableEq

/-- A call that has taken the mutex: its frame, the bytes it has put on the
stream, and how it ended. -/
structure Block (ι : Type) where
  caller : ι
  frame : List Byte
  bytes : List Byte
  sent : Option Sent
  deriving DecidableEq

/-- The block of a call that has returned is its frame, and that of a call that
threw is the front of its frame. -/
def Block.Faithful {ι : Type} (block : Block ι) : Prop :=
  match block.sent with
  | none => True
  | some .returned => block.bytes = block.frame
  | some (.threw _) => block.bytes <+: block.frame

/-- The next block of a thread. -/
inductive SendPc
  | idle
  /-- In front of the mutex, with the vector. -/
  | locking (frame : List Byte)
  /-- In the loop of `sendBase`, with the mutex. -/
  | sending (frame : List Byte) (bytesSent : ℕ)
  deriving DecidableEq

/-- The connection, the threads, the stream, and the calls that have taken the
mutex, the latest first. -/
structure Sending (ι : Type) where
  id : ConnectionId
  owner : Option ι
  threads : ι → SendPc
  stream : List Byte
  blocks : List (Block ι)

/-- Who moves: a thread calls `Send`, takes the mutex, calls `send` or leaves
its loop. A message received on the connection may give it its id. -/
inductive SendMove (ι : Type)
  | call (w : ι) (message : Message)
  | lock (w : ι)
  /-- The number of bytes that `send` takes, or the text of its error. -/
  | send (w : ι) (result : Except String ℕ)
  | finish (w : ι)
  | adopt (id : ConnectionId)

namespace Sending

variable {ι : Type}

/-! ### Steps -/

section Steps

variable [DecidableEq ι]

/-- A thread goes on to another block. -/
def goto (s : Sending ι) (w : ι) (pc : SendPc) : Sending ι :=
  { s with threads := Function.update s.threads w pc }

/-- The call with the mutex ends and gives it back. -/
def close (s : Sending ι) (w : ι) (sent : Sent) : Sending ι :=
  { s.goto w .idle with
    owner := none
    blocks := s.blocks.modifyHead fun block => { block with sent := some sent } }

/-- The exception of `Send` for one inside it. -/
def incomplete (what : String) : Failure :=
  .exception ("TcpWrapper::Send: Failed to send the complete message: " ++ what)

/-- `Send` is called. When the vector can not be made, the call never gets to
the socket. -/
def call (order : ByteOrder) (s : Sending ι) (w : ι) (message : Message) : Option (Sending ι) :=
  match s.threads w with
  | .idle =>
    match TcpWrapper.frame order s.id message with
    | .ok buffer => some (s.goto w (.locking buffer.cells))
    | .error _ => some s
  | _ => none

/-- `Socket::Send` takes the mutex. -/
def lock (s : Sending ι) (w : ι) : Option (Sending ι) :=
  match s.threads w, s.owner with
  | .locking frame, none =>
    some { s.goto w (.sending frame 0) with
      owner := some w
      blocks := ⟨w, frame, [], none⟩ :: s.blocks }
  | _, _ => none

/-- A turn of the loop: `send` is called with the bytes left. -/
def send (s : Sending ι) (w : ι) (result : Except String ℕ) : Option (Sending ι) :=
  match s.threads w with
  | .sending frame bytesSent =>
    if bytesSent < intLength frame then
      match result with
      | .ok currentBytesSent =>
        if 1 ≤ currentBytesSent ∧ bytesSent + currentBytesSent ≤ intLength frame then
          let bytes := (frame.drop bytesSent).take currentBytesSent
          some { s.goto w (.sending frame (bytesSent + currentBytesSent)) with
            stream := s.stream ++ bytes
            blocks := s.blocks.modifyHead fun block =>
              { block with bytes := block.bytes ++ bytes } }
        else none
      | .error errno =>
        some (s.close w (.threw (incomplete
          ("Socket::Send: An error occured when sending a message: " ++
            ("Socket::sendBase: An error occured while sending TCP message: " ++ errno)))))
    else none
  | _ => none

/-- The loop is over, and `Send` compares what it returned with the length. -/
def finish (s : Sending ι) (w : ι) : Option (Sending ι) :=
  match s.threads w with
  | .sending frame bytesSent =>
    if bytesSent < intLength frame then none
    else some (s.close w
      (if bytesSent = 0 ∨ intLength frame ≠ bytesSent then
        .threw (incomplete "Bytes sent is not equal to the expected amount.")
      else .returned))
  | _ => none

/-- `Receive` gives the connection its id, once. -/
def adopt (s : Sending ι) (id : ConnectionId) : Sending ι :=
  if s.id = 0 then { s with id := id } else s

end Steps

/-- A connection on which nothing has been sent. -/
def start (id : ConnectionId) : Sending ι where
  id := id
  owner := none
  threads := fun _ => .idle
  stream := []
  blocks := []

variable [DecidableEq ι]

/-- All interleavings of the threads, and every way for `send` to answer. -/
def system (order : ByteOrder) (id : ConnectionId) : StepSystem (Sending ι) (SendMove ι) where
  init s := s = start id
  step s move :=
    match move with
    | .call w message => s.call order w message
    | .lock w => s.lock w
    | .send w result => s.send w result
    | .finish w => s.finish w
    | .adopt id => some (s.adopt id)

/-! ### Frames on the stream -/

/-- The blocks one after the other, in the order in which the calls took the
mutex. -/
def written (blocks : List (Block ι)) : List Byte := (blocks.reverse.map Block.bytes).flatten

/-- The stream is made of one block for each call that took the mutex, and the
blocks are what the calls that have ended should have sent. -/
structure Unmixed (s : Sending ι) : Prop where
  stream : s.stream = written s.blocks
  faithful : ∀ block ∈ s.blocks, block.Faithful

/-- A call that is about to return has a frame of less than `2 ^ 32` bytes. -/
def Narrow (s : Sending ι) (move : SendMove ι) : Prop :=
  ∀ w frame bytesSent, move = .finish w → s.threads w = .sending frame bytesSent →
    0 < bytesSent → intLength frame = bytesSent → frame.length < 2 ^ 32

instance decidableNarrow (s : Sending ι) (move : SendMove ι) : Decidable (Narrow s move) :=
  match move with
  | .finish w =>
    match located : s.threads w with
    | .sending frame bytesSent =>
      decidable_of_iff (0 < bytesSent → intLength frame = bytesSent → frame.length < 2 ^ 32) (by
        constructor
        · rintro narrow _ _ _ ⟨⟩ same
          obtain ⟨rfl, rfl⟩ := SendPc.sending.inj (located.symm.trans same)
          exact narrow
        · exact fun narrow => narrow w frame bytesSent rfl located)
    | .idle | .locking _ => isTrue (by
        rintro _ _ _ ⟨⟩ same
        cases located.symm.trans same)
  | .call _ _ | .lock _ | .send _ _ | .adopt _ => isTrue nofun

/-- The thread with the mutex is the only one in the loop, and what it has sent
so far is the block of its call. All other blocks are closed. -/
structure Exclusive (s : Sending ι) : Prop where
  owned : ∀ w frame bytesSent, s.threads w = .sending frame bytesSent → s.owner = some w
  inside : ∀ w, s.owner = some w → ∃ frame bytesSent rest,
    s.threads w = .sending frame bytesSent ∧
      s.blocks = ⟨w, frame, frame.take bytesSent, none⟩ :: rest ∧
        (bytesSent = 0 ∨ bytesSent ≤ intLength frame)

/-! ### What a step does -/

/-- What a step does, by its kind. -/
inductive Steps (s : Sending ι) : SendMove ι → Sending ι → Prop
  | identifies (move : SendMove ι) (id : ConnectionId) (other : ∀ w, move ≠ .finish w) :
    Steps s move { s with id := id }
  | serializes (w : ι) (message : Message) (frame : List Byte) (located : s.threads w = .idle) :
    Steps s (.call w message) (s.goto w (.locking frame))
  | locks (w : ι) (frame : List Byte) (located : s.threads w = .locking frame)
    (free : s.owner = none) :
    Steps s (.lock w) { s.goto w (.sending frame 0) with
      owner := some w
      blocks := ⟨w, frame, [], none⟩ :: s.blocks }
  | sends (w : ι) (frame : List Byte) (bytesSent currentBytesSent : ℕ)
    (located : s.threads w = .sending frame bytesSent)
    (room : bytesSent + currentBytesSent ≤ intLength frame) :
    Steps s (.send w (.ok currentBytesSent))
      { s.goto w (.sending frame (bytesSent + currentBytesSent)) with
        stream := s.stream ++ (frame.drop bytesSent).take currentBytesSent
        blocks := s.blocks.modifyHead fun block =>
          { block with bytes := block.bytes ++ (frame.drop bytesSent).take currentBytesSent } }
  | fails (w : ι) (frame : List Byte) (bytesSent : ℕ) (errno : String) (failure : Failure)
    (located : s.threads w = .sending frame bytesSent) :
    Steps s (.send w (.error errno)) (s.close w (.threw failure))
  | finishes (w : ι) (frame : List Byte) (bytesSent : ℕ)
    (located : s.threads w = .sending frame bytesSent) (done : intLength frame ≤ bytesSent) :
    Steps s (.finish w) (s.close w (if bytesSent = 0 ∨ intLength frame ≠ bytesSent then
      .threw (incomplete "Bytes sent is not equal to the expected amount.") else .returned))

theorem steps_of_step {order : ByteOrder} {id : ConnectionId} {s t : Sending ι}
    {move : SendMove ι} (moved : (system order id).step s move = some t) : Steps s move t := by
  cases move with
  | call w message =>
    -- A message that cannot be encoded leaves the state alone.
    have moved : s.call order w message = some t := moved
    unfold call at moved
    split at moved
    case h_1 located =>
      split at moved
      · exact Option.some.inj moved ▸ .serializes w message _ located
      · exact Option.some.inj moved ▸ .identifies _ s.id (by simp)
    case h_2 => cases moved
  | lock w =>
    have moved : s.lock w = some t := moved
    unfold lock at moved
    split at moved
    case h_1 frame located free => exact Option.some.inj moved ▸ .locks w frame located free
    case h_2 => cases moved
  | send w result =>
    -- `send` takes some of the bytes it is asked for, or fails.
    have moved : s.send w result = some t := moved
    unfold send at moved
    split at moved
    case h_1 frame bytesSent located =>
      split_ifs at moved
      cases result with
      | ok currentBytesSent =>
        simp only at moved
        split_ifs at moved with asked
        exact Option.some.inj moved ▸ .sends w frame bytesSent currentBytesSent located asked.2
      | error errno => exact Option.some.inj moved ▸ .fails w frame bytesSent errno _ located
    case h_2 => cases moved
  | finish w =>
    have moved : s.finish w = some t := moved
    unfold finish at moved
    split at moved
    case h_1 frame bytesSent located =>
      obtain ⟨done, moved⟩ := Option.ite_none_left_eq_some.mp moved
      exact Option.some.inj moved ▸ .finishes w frame bytesSent located (not_lt.mp done)
    case h_2 => cases moved
  | adopt id =>
    have moved : some (s.adopt id) = some t := moved
    unfold adopt at moved
    split_ifs at moved
    · exact Option.some.inj moved ▸ .identifies _ id (by simp)
    · exact Option.some.inj moved ▸ .identifies _ s.id (by simp)

section Goto

variable {s : Sending ι} {w v : ι} {pc : SendPc}

theorem threads_goto : (s.goto w pc).threads v = if v = w then pc else s.threads v :=
  Function.update_apply s.threads w pc v

/-- A thread in the loop after a step of another pc is another thread, and was
there before. -/
theorem sending_of_goto {frame : List Byte} {bytesSent : ℕ}
    (elsewhere : ∀ frame bytesSent, pc ≠ .sending frame bytesSent)
    (located : (s.goto w pc).threads v = .sending frame bytesSent) :
    v ≠ w ∧ s.threads v = .sending frame bytesSent := by
  rw [threads_goto] at located
  split_ifs at located with same
  · exact absurd located (elsewhere frame bytesSent)
  · exact ⟨same, located⟩

end Goto

/-! ### One call at a time -/

omit [DecidableEq ι] in
theorem exclusive_start (id : ConnectionId) : Exclusive (start id : Sending ι) where
  owned := fun _ _ _ located => by cases located
  inside := fun _ owner => by cases owner

/-- With the loop left, the mutex is free and no thread is in the loop. -/
theorem Exclusive.close {s : Sending ι} (exclusive : Exclusive s) {w : ι} {frame : List Byte}
    {bytesSent : ℕ} (located : s.threads w = .sending frame bytesSent) (sent : Sent) :
    Exclusive (s.close w sent) where
  owned := by
    intro v frame' bytesSent' located'
    have located' : (s.goto w .idle).threads v = .sending frame' bytesSent' := located'
    obtain ⟨other, before⟩ := sending_of_goto (by simp) located'
    have mine := exclusive.owned w frame bytesSent located
    have theirs := exclusive.owned v frame' bytesSent' before
    exact absurd (Option.some.inj (theirs.symm.trans mine)) other
  inside := fun _ owner => by cases owner

theorem Exclusive.steps {s t : Sending ι} {move : SendMove ι} (exclusive : Exclusive s)
    (moved : Steps s move t) : Exclusive t := by
  cases moved with
  | identifies move id other => exact ⟨exclusive.owned, exclusive.inside⟩
  | serializes w message frame located =>
    refine ⟨fun v frame' bytesSent located' => ?_, fun v owner => ?_⟩
    · exact exclusive.owned v frame' bytesSent (sending_of_goto (by simp) located').2
    · obtain ⟨frame', bytesSent, rest, here, blocks, sent⟩ := exclusive.inside v owner
      have other : v ≠ w := by
        rintro rfl
        rw [located] at here
        cases here
      exact ⟨frame', bytesSent, rest, by rw [threads_goto, if_neg other, here], blocks, sent⟩
  | locks w frame located free =>
    refine ⟨fun v frame' bytesSent located' => ?_, fun v owner => ?_⟩
    · have located' : (s.goto w (.sending frame 0)).threads v = .sending frame' bytesSent :=
        located'
      rw [threads_goto] at located'
      split_ifs at located' with same
      · rw [same]
      -- The mutex was free, so no other thread was in the loop.
      · have owned := exclusive.owned v frame' bytesSent located'
        cases free.symm.trans owned
    · obtain rfl := Option.some.inj owner
      exact ⟨frame, 0, s.blocks, threads_goto.trans (if_pos rfl), rfl, Or.inl rfl⟩
  | sends w frame bytesSent currentBytesSent located room =>
    have mine := exclusive.owned w frame bytesSent located
    refine ⟨fun v frame' bytesSent' located' => ?_, fun v owner => ?_⟩
    · have located' : (s.goto w (.sending frame (bytesSent + currentBytesSent))).threads v =
          .sending frame' bytesSent' := located'
      rw [threads_goto] at located'
      split_ifs at located' with same
      · rw [same]
        exact mine
      · exact exclusive.owned v frame' bytesSent' located'
    · obtain rfl := Option.some.inj (mine.symm.trans owner)
      obtain ⟨frame', bytesSent', rest, here, blocks, -⟩ := exclusive.inside w mine
      obtain ⟨rfl, rfl⟩ := SendPc.sending.inj (located.symm.trans here)
      refine ⟨frame, bytesSent + currentBytesSent, rest, threads_goto.trans (if_pos rfl), ?_,
        Or.inr (by exact_mod_cast room)⟩
      rw [blocks, List.modifyHead_cons, List.take_add]
  | fails w frame bytesSent errno failure located => exact exclusive.close located _
  | finishes w frame bytesSent located done => exact exclusive.close located _

/-! ### One block after the other -/

omit [DecidableEq ι] in
/-- The call with the mutex is the latest, and its block is what it has sent. -/
theorem Exclusive.blocks_eq {s : Sending ι} (exclusive : Exclusive s) {w : ι} {frame : List Byte}
    {bytesSent : ℕ} (located : s.threads w = .sending frame bytesSent) :
    (bytesSent = 0 ∨ bytesSent ≤ intLength frame) ∧
      ∃ rest, s.blocks = ⟨w, frame, frame.take bytesSent, none⟩ :: rest := by
  obtain ⟨frame', bytesSent', rest, here, blocks, bound⟩ :=
    exclusive.inside w (exclusive.owned w frame bytesSent located)
  obtain ⟨rfl, rfl⟩ := SendPc.sending.inj (located.symm.trans here)
  exact ⟨bound, rest, blocks⟩

omit [DecidableEq ι] in
theorem written_cons (block : Block ι) (blocks : List (Block ι)) :
    written (block :: blocks) = written blocks ++ block.bytes := by
  simp [written]

omit [DecidableEq ι] in
theorem Unmixed.earlier {s : Sending ι} {block : Block ι} {rest : List (Block ι)}
    (unmixed : Unmixed s) (blocks : s.blocks = block :: rest) : ∀ b ∈ rest, b.Faithful :=
  fun b listed => unmixed.faithful b (blocks ▸ List.mem_cons_of_mem block listed)

omit [DecidableEq ι] in
theorem unmixed_start (id : ConnectionId) : Unmixed (start id : Sending ι) where
  stream := rfl
  faithful := fun _ listed => absurd listed List.not_mem_nil

/-- A call that ends closes its block, and the stream stays as it is. -/
theorem unmixed_close_iff {s : Sending ι} (exclusive : Exclusive s) (unmixed : Unmixed s) {w : ι}
    {frame : List Byte} {bytesSent : ℕ} (located : s.threads w = .sending frame bytesSent)
    (sent : Sent) :
    Unmixed (s.close w sent) ↔ (sent = .returned → frame.take bytesSent = frame) := by
  obtain ⟨-, rest, blocks⟩ := exclusive.blocks_eq located
  have after : (s.close w sent).blocks = ⟨w, frame, frame.take bytesSent, some sent⟩ :: rest := by
    change s.blocks.modifyHead _ = _
    rw [blocks, List.modifyHead_cons]
  constructor
  -- The block is the latest one, and it is closed as returned.
  · rintro closed rfl
    exact closed.faithful _ (after ▸ List.mem_cons_self)
  · intro whole
    refine ⟨?_, ?_⟩
    · rw [after, written_cons]
      change s.stream = _
      rw [unmixed.stream, blocks, written_cons]
    · rw [after, List.forall_mem_cons]
      refine ⟨?_, unmixed.earlier blocks⟩
      -- A call that has thrown leaves a front of its frame.
      cases sent with
      | returned => exact whole rfl
      | threw failure => exact List.take_prefix bytesSent frame

/-- When the converted length is out, the frame is out exactly when it has less
than `2 ^ 32` bytes. -/
theorem take_eq_self_iff {frame : List Byte} {bytesSent : ℕ} (positive : 0 < bytesSent)
    (out : intLength frame = bytesSent) :
    frame.take bytesSent = frame ↔ frame.length < 2 ^ 32 := by
  rw [List.take_eq_self_iff]
  rw [intLength] at out
  have below := int32_lt frame.length
  constructor
  · intro whole
    omega
  · intro narrow
    -- From `2 ^ 31` to here the length converts to a negative number.
    rcases Nat.lt_or_ge frame.length (2 ^ 31) with small | large
    · rw [int32_of_small (Int.natCast_nonneg _) (by exact_mod_cast small)] at out
      omega
    · rw [int32_of_large (by exact_mod_cast large) (by exact_mod_cast narrow)] at out
      omega

omit [DecidableEq ι] in
theorem narrow_finish_iff {s : Sending ι} {w : ι} {frame : List Byte} {bytesSent : ℕ}
    (located : s.threads w = .sending frame bytesSent) :
    Narrow s (.finish w) ↔
      (0 < bytesSent → intLength frame = bytesSent → frame.length < 2 ^ 32) := by
  constructor
  · intro narrow
    exact narrow w frame bytesSent rfl located
  · intro narrow v frame' bytesSent' same located'
    obtain rfl := SendMove.finish.inj same
    obtain ⟨rfl, rfl⟩ := SendPc.sending.inj (located.symm.trans located')
    exact narrow

/-- A step keeps the blocks apart exactly when it lets no long frame return. -/
theorem unmixed_steps_iff {s t : Sending ι} {move : SendMove ι} (exclusive : Exclusive s)
    (unmixed : Unmixed s) (moved : Steps s move t) : Unmixed t ↔ Narrow s move := by
  cases moved with
  | identifies move id other =>
    exact iff_of_true ⟨unmixed.stream, unmixed.faithful⟩ fun w _ _ same => absurd same (other w)
  | serializes w message frame located =>
    exact iff_of_true ⟨unmixed.stream, unmixed.faithful⟩ fun _ _ _ same => by cases same
  | locks w frame located free =>
    refine iff_of_true ⟨?_, ?_⟩ fun _ _ _ same => by cases same
    · rw [written_cons, List.append_nil]
      exact unmixed.stream
    · exact List.forall_mem_cons.mpr ⟨trivial, unmixed.faithful⟩
  | sends w frame bytesSent currentBytesSent located room =>
    obtain ⟨-, rest, blocks⟩ := exclusive.blocks_eq located
    refine iff_of_true ⟨?_, ?_⟩ fun _ _ _ same => by cases same
    · -- The bytes go to the end of the stream and to the end of the latest block.
      simp only [unmixed.stream, blocks, List.modifyHead_cons, written_cons, List.append_assoc]
    · simp only [blocks, List.modifyHead_cons]
      exact List.forall_mem_cons.mpr ⟨trivial, unmixed.earlier blocks⟩
  | fails w frame bytesSent errno failure located =>
    exact iff_of_true ((unmixed_close_iff exclusive unmixed located _).mpr (by simp))
      fun _ _ _ same => by cases same
  | finishes w frame bytesSent located done =>
    -- The end of a call is faithful when the whole frame is out.
    rw [unmixed_close_iff exclusive unmixed located, narrow_finish_iff located]
    split_ifs with short
    -- The call throws, so nothing is asked of its frame.
    · refine iff_of_true (by simp) fun positive out => ?_
      rcases short with nothing | differs
      · exact absurd nothing positive.ne'
      · exact absurd out differs
    · obtain ⟨nonzero, out⟩ := not_or.mp short
      have positive := Nat.pos_of_ne_zero nonzero
      rw [take_eq_self_iff positive (not_not.mp out)]
      exact ⟨fun whole _ _ => whole rfl, fun narrow _ => narrow positive (not_not.mp out)⟩

/-- The mutex is respected, and so far nothing is mixed. -/
structure Orderly (s : Sending ι) : Prop where
  exclusive : Exclusive s
  unmixed : Unmixed s

omit [DecidableEq ι] in
theorem orderly_start (id : ConnectionId) : Orderly (start id : Sending ι) :=
  ⟨exclusive_start id, unmixed_start id⟩

/-- In a run the frames stay unmixed exactly when no call returns with a frame of
`2 ^ 32` bytes or more. -/
theorem throughout_unmixed_iff {order : ByteOrder} {id : ConnectionId}
    {moves : List (SendMove ι)} {t : Sending ι}
    (run : (system order id).exec (start id) moves = some t) :
    (system order id).Throughout Unmixed (start id) moves ↔
      (system order id).Within Narrow (start id) moves := by
  refine StepSystem.throughout_iff_within (orderly_start id) ?_
    (fun _ orderly => orderly.unmixed) ?_ run
  · rintro s move u ⟨exclusive, unmixed⟩ narrow moved
    have steps := steps_of_step moved
    exact ⟨exclusive.steps steps, (unmixed_steps_iff exclusive unmixed steps).mpr narrow⟩
  · rintro s move u ⟨exclusive, unmixed⟩ wide moved closed
    exact wide ((unmixed_steps_iff exclusive unmixed (steps_of_step moved)).mp closed)

/-- One thread sends an ACK in two pieces while another one waits for the mutex with an
ABORT, of which the network takes four bytes. -/
def ackThenAbort : List (SendMove Bool) :=
  [.call true ⟨⟨1, 0, .ack, 0⟩, some .base⟩, .call false ⟨⟨1, 0, .abort, 0⟩, some .base⟩,
    .lock true, .send true (.ok 4), .send true (.ok 11), .finish true,
    .lock false, .send false (.ok 4), .send false (.error "Connection reset by peer")]

/-- The theorem for the two of them. -/
theorem throughout_unmixed_ackThenAbort :
    ((system .little 7).exec (start 7) ackThenAbort).map stream =
        some [0, 1, 0, 0, 0, 7, 5, 0, 0, 0, 0, 0, 0, 0, 0, 0, 1, 0, 0] ∧
      (system .little 7).Throughout Unmixed (start 7) ackThenAbort := by
  have sends : ((system .little 7).exec (start 7) ackThenAbort).map stream =
      some [0, 1, 0, 0, 0, 7, 5, 0, 0, 0, 0, 0, 0, 0, 0, 0, 1, 0, 0] := by decide
  have narrow : (system .little 7).Within Narrow (start 7) ackThenAbort := by decide
  obtain ⟨s, run, -⟩ := Option.map_eq_some_iff.mp sends
  exact ⟨sends, (throughout_unmixed_iff run).mpr narrow⟩

/-! ### A frame of `2 ^ 32 + 19` bytes -/

/-- The request for a file with this name. -/
def requestFor (filename : List Byte) : Message where
  header := ⟨1, 7, .download, UInt64.ofNat (4 + filename.length)⟩
  body := some (.download ⟨50000, some (UInt16.ofNat filename.length), filename⟩)

theorem frame_requestFor (order : ByteOrder) (id : ConnectionId) {filename : List Byte}
    (short : filename.length < 2 ^ 62) :
    ∃ cells, frame order id (requestFor filename) = .ok ⟨cells, true⟩ ∧
      cells.length = 19 + filename.length := by
  set download : Download := ⟨50000, some (UInt16.ofNat filename.length), filename⟩ with fields
  have named : download.filename.length < 2 ^ 63 := short.trans (by decide)
  have wire : download.wire.length = 4 + filename.length := download.length_wire
  have encoded : (Body.download download).serialize order = .ok ⟨download.wire, true⟩ :=
    congrArg Except.ok (download.serialize_eq order named)
  have sized : download.wire.length = (Body.download download).size.toNat :=
    wire.trans (download.toNat_size named).symm
  obtain ⟨cells, framed, length, -⟩ := exists_frame_of_body order id
    ⟨1, 7, .download, UInt64.ofNat (4 + filename.length)⟩ encoded sized (by omega)
  refine ⟨cells, framed, ?_⟩
  rw [length, wire, Header.size]
  omega

/-- `send` takes 19 bytes of a message, and `Send` compares. -/
def nineteenBytes (message : Message) : List (SendMove Unit) :=
  [.call () message, .lock (), .send () (.ok 19), .finish ()]

section Enabled

variable {s : Sending ι} {w : ι} {frame : List Byte} {bytesSent currentBytesSent : ℕ}

theorem lock_eq (located : s.threads w = .locking frame) (free : s.owner = none) :
    s.lock w = some { s.goto w (.sending frame 0) with
      owner := some w
      blocks := ⟨w, frame, [], none⟩ :: s.blocks } := by
  simp only [lock, located, free]

theorem send_eq (located : s.threads w = .sending frame bytesSent)
    (more : bytesSent < intLength frame) (positive : 1 ≤ currentBytesSent)
    (room : bytesSent + currentBytesSent ≤ intLength frame) :
    s.send w (.ok currentBytesSent) =
      .some { s.goto w (.sending frame (bytesSent + currentBytesSent)) with
        stream := s.stream ++ (frame.drop bytesSent).take currentBytesSent
        blocks := s.blocks.modifyHead fun block => { block with
          bytes := block.bytes ++ (frame.drop bytesSent).take currentBytesSent } } := by
  simp only [send, located, if_pos more, if_pos (And.intro positive room)]

theorem finish_eq (located : s.threads w = .sending frame bytesSent) (positive : 0 < bytesSent)
    (out : intLength frame = bytesSent) : s.finish w = some (s.close w .returned) := by
  have returned : ¬ (bytesSent = 0 ∨ intLength frame ≠ bytesSent) := by
    rintro (nothing | differs)
    · exact positive.ne' nothing
    · exact differs out
  simp only [finish, located, if_neg (not_lt.mpr out.le), if_neg returned]

end Enabled

/-- With a converted length of 19 the call returns. -/
theorem exec_nineteenBytes {order : ByteOrder} {id : ConnectionId} {message : Message}
    {buffer : Buffer Byte} (built : frame order id message = .ok buffer)
    (out : intLength buffer.cells = 19) :
    ∃ t, (system order id).exec (start id : Sending Unit) (nineteenBytes message) = some t ∧
      ⟨(), buffer.cells, buffer.cells.take 19, some .returned⟩ ∈ t.blocks := by
  -- The blocks of the call, one after the other.
  obtain ⟨s, called, located, free, nothing⟩ : ∃ s,
      (start id : Sending Unit).call order () message = some s ∧
        s.threads () = .locking buffer.cells ∧ s.owner = none ∧ s.blocks = [] := by
    refine ⟨(start id).goto () (.locking buffer.cells), ?_, rfl, rfl, rfl⟩
    simp only [call, start, built]
  obtain ⟨t, locked, located, first⟩ : ∃ t, s.lock () = some t ∧
      t.threads () = .sending buffer.cells 0 ∧ t.blocks = [⟨(), buffer.cells, [], none⟩] := by
    refine ⟨_, lock_eq located free, rfl, ?_⟩
    rw [nothing]
  obtain ⟨u, sent, located, partly⟩ : ∃ u, t.send () (.ok 19) = some u ∧
      u.threads () = .sending buffer.cells 19 ∧
        u.blocks = [⟨(), buffer.cells, buffer.cells.take 19, none⟩] := by
    refine ⟨_, send_eq located ?_ (by decide) ?_, rfl, ?_⟩
    · rw [out]
      decide
    · rw [out]
      decide
    · rw [first]
      rfl
  have finished := finish_eq located (by decide) (out.trans rfl)
  refine ⟨u.close () .returned, ?_, ?_⟩
  · exact Option.bind_eq_some_iff.mpr ⟨s, called, Option.bind_eq_some_iff.mpr ⟨t, locked,
      Option.bind_eq_some_iff.mpr ⟨u, sent, Option.bind_eq_some_iff.mpr ⟨_, finished, rfl⟩⟩⟩⟩
  · change _ ∈ u.blocks.modifyHead _
    rw [partly]
    exact List.mem_singleton_self _

/-- With a name of `2 ^ 32` bytes the rest of the frame is not sent. -/
theorem not_unmixed_of_long {filename : List Byte} (long : filename.length = 2 ^ 32) :
    ¬ (system .little 7).Throughout Unmixed (start 7 : Sending Unit)
      (nineteenBytes (requestFor filename)) := by
  have short : filename.length < 2 ^ 62 := by omega
  obtain ⟨cells, built, length⟩ := frame_requestFor .little 7 short
  have out : intLength cells = 19 := by
    rw [intLength, length, long, int32, Int.bmod_eq_emod]
    norm_num
  obtain ⟨t, run, listed⟩ := exec_nineteenBytes built out
  intro throughout
  have unmixed := throughout _ List.prefix_rfl t run
  have whole : cells.take 19 = cells := unmixed.faithful _ listed
  rw [List.take_eq_self_iff, length] at whole
  omega

/-- A name of `2 ^ 32` bytes. -/
def longName : List Byte := List.replicate (2 ^ 32) 97

theorem not_unmixed_longName :
    ¬ (system .little 7).Throughout Unmixed (start 7 : Sending Unit)
      (nineteenBytes (requestFor longName)) :=
  not_unmixed_of_long List.length_replicate

end Sending

end TcpWrapper

end Fup
