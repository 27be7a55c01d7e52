/-
# The id of a connection

`Send` puts the id of the connection into its copy of the message, and `Receive`
takes over the id of a message while the connection has none. The constructor
opens the socket and leaves the id alone, so a connection starts with what its
memory held. `SendAndReceive` is the two calls one after the other.

The calls on a connection are a run. What they were given and what they made is
kept beside the id.
-/

import Fup.TcpReceive.Boundaries
import Fup.TcpSend

namespace Fup

/-- The header of a message is the front of every vector with room for it. -/
theorem Message.cells_of_serialize {order : ByteOrder} {message : Message} {buffer : Buffer Byte}
    (encoded : message.serialize order = .ok buffer) (enough : Header.size ≤ buffer.cells.length) :
    ∃ rest, buffer.cells = message.header.wire order ++ rest := by
  have width := Header.length_wire order message.header
  cases carried : message.body with
  | none =>
    rw [serialize, size, carried] at encoded
    cases encoded
  | some body =>
    simp only [serialize, size, carried, ok_bind, Header.serialize_eq] at encoded
    -- The header is copied in front, and the body behind it.
    cases coded : body.serialize order with
    | error failure =>
      rw [coded] at encoded
      cases encoded
    | ok b =>
      rw [coded, ok_bind] at encoded
      obtain rfl := Except.ok.inj encoded
      rw [Buffer.length_cells_memcpy, Buffer.length_cells_memcpy, Buffer.cells_fill,
        List.length_replicate] at enough
      rw [Buffer.memcpy_next _ _ _ _ (Nat.zero_add _), Buffer.fill_memcpy_zero,
        List.take_append, List.take_of_length_le (width.trans_le enough), List.append_assoc]
      exact ⟨_, rfl⟩

namespace TcpWrapper

/-! ### Calls -/

/-- The id after a message has been received. -/
def adoptId (id : ConnectionId) (message : Message) : ConnectionId :=
  if id = 0 then message.header.connectionId else id

/-- A call of `Send`: the message it was given, that message after the call, and
the vector it filled. The messages received before it are counted. -/
structure SendCall where
  given : Message
  left : Message
  vector : Except Failure (Buffer Byte)
  received : ℕ

/-- A connection in use, with the messages it has returned and the calls of
`Send` on it. -/
structure Identified where
  id : ConnectionId
  received : List Message
  sent : List SendCall

/-- A call on the connection: `Send`, or a `Receive` that returns a message or
throws. -/
inductive Use
  | send (message : Message)
  | receive (result : Except Failure Message)

namespace Identified

/-- `Send` works on a copy. -/
def send (order : ByteOrder) (s : Identified) (message : Message) : Identified :=
  { s with sent := s.sent ++
    [⟨message, message, frame order s.id message, s.received.length⟩] }

def receive (s : Identified) (result : Except Failure Message) : Identified :=
  match result with
  | .ok message => { s with id := adoptId s.id message, received := s.received ++ [message] }
  | .error _ => s

/-- A connection behind its constructor. -/
def start (id : ConnectionId) : Identified := ⟨id, [], []⟩

/-- All sequences of calls, from every value the memory of the id may hold. -/
def system (order : ByteOrder) : StepSystem Identified Use where
  init s := ∃ id, s = start id
  step s use :=
    match use with
    | .send message => some (s.send order message)
    | .receive result => some (s.receive result)

end Identified

/-- The calls of `Receive` on a stream adopt ids in the same way. -/
theorem Receptions.id_of_finish {order : ByteOrder} {s t : Receptions}
    (moved : s.finish order = some t) :
    ∃ receiving consumed result, s.current = some (receiving, consumed) ∧
      receiving.result order = some result ∧
        t.id = (Identified.receive ⟨s.id, [], []⟩ result).id := by
  rw [finish] at moved
  cases current : s.current with
  | none =>
    rw [current] at moved
    cases moved
  | some state =>
    obtain ⟨receiving, consumed⟩ := state
    rw [current] at moved
    obtain ⟨result, returned, rfl⟩ := Option.map_eq_some_iff.mp moved
    refine ⟨receiving, consumed, result, rfl, returned, ?_⟩
    cases result <;> rfl

/-- So do the threads that share a connection. -/
theorem Sending.id_adopt {ι : Type} (s : Sending ι) (message : Message) :
    (s.adopt message.header.connectionId).id = adoptId s.id message := by
  rw [adopt, adoptId]
  split_ifs <;> rfl

namespace Identified

/-! ### The id -/

/-- The first id other than zero in some messages, zero when there is none. -/
def firstId (messages : List Message) : ConnectionId :=
  ((messages.map fun message => message.header.connectionId).find? (· ≠ 0)).getD 0

/-- Every host that decodes the vector reads the id in its header. -/
def Carries (buffer : Buffer Byte) (id : ConnectionId) : Prop :=
  ∀ reader, ∃ header, Header.ofData reader buffer.cells = .ok header ∧ header.connectionId = id

/-- `GetId` returns the first id received, and the calls of `Send` left their
messages alone and filled every vector that has room for a header with what had
been the id at that time. -/
structure KeepsId (s : Identified) : Prop where
  id : s.id = firstId s.received
  unchanged : ∀ call ∈ s.sent, call.left = call.given
  carries : ∀ call ∈ s.sent, ∀ buffer, call.vector = .ok buffer →
    Header.size ≤ buffer.cells.length → Carries buffer (firstId (s.received.take call.received))

theorem firstId_snoc (messages : List Message) (message : Message) :
    firstId (messages ++ [message]) = adoptId (firstId messages) message := by
  rw [firstId, List.map_append, List.map_singleton, List.find?_append, adoptId, firstId]
  cases found : (messages.map fun message => message.header.connectionId).find? (· ≠ 0) with
  | none =>
    -- The new message is the first that may have an id.
    rw [Option.none_or, Option.getD_none, if_pos rfl, List.find?_singleton]
    split_ifs with named
    · rfl
    · exact (not_not.mp fun other => named (decide_eq_true other)).symm
  | some id =>
    have named : id ≠ 0 := by simpa using List.find?_some found
    rw [Option.some_or, Option.getD_some, if_neg named]

/-- Every message with a vector is sent under the id of the connection. -/
theorem carries_of_frame {order : ByteOrder} {id : ConnectionId} {message : Message}
    {buffer : Buffer Byte} (framed : frame order id message = .ok buffer)
    (enough : Header.size ≤ buffer.cells.length) : Carries buffer id := by
  intro reader
  refine ⟨_, Header.ofData_eq reader enough, ?_⟩
  obtain ⟨rest, cells⟩ := Message.cells_of_serialize framed enough
  rw [cells, Header.read_append reader (Header.length_wire order _).ge, Header.read_wire]

/-! ### Every run -/

/-- The connection keeps its id, and the calls recorded so far saw some of the
messages received so far. -/
structure Kept (s : Identified) : Prop extends KeepsId s where
  recorded : ∀ call ∈ s.sent, call.received ≤ s.received.length

theorem kept_start : Kept (start 0) where
  id := rfl
  unchanged := fun _ listed => absurd listed List.not_mem_nil
  carries := fun _ listed => absurd listed List.not_mem_nil
  recorded := fun _ listed => absurd listed List.not_mem_nil

theorem Kept.send {s : Identified} (kept : Kept s) (order : ByteOrder) (message : Message) :
    Kept (s.send order message) where
  id := kept.id
  unchanged := by
    intro call listed
    rcases List.mem_append.mp listed with before | last
    · exact kept.unchanged call before
    · rw [List.mem_singleton.mp last]
  carries := by
    intro call listed buffer framed enough
    rcases List.mem_append.mp listed with before | last
    · exact kept.carries call before buffer framed enough
    · -- The new frame has the id of the connection, which is the first one received.
      obtain rfl := List.mem_singleton.mp last
      have carried := carries_of_frame framed enough
      rw [kept.id] at carried
      exact (List.take_length (l := s.received)).symm ▸ carried
  recorded := by
    intro call listed
    rcases List.mem_append.mp listed with before | last
    · exact kept.recorded call before
    · rw [List.mem_singleton.mp last]
      exact le_rfl

theorem Kept.receive {s : Identified} (kept : Kept s) (result : Except Failure Message) :
    Kept (s.receive result) := by
  cases result with
  | error failure => exact kept
  | ok message =>
    have id : adoptId s.id message = firstId (s.received ++ [message]) := by
      rw [firstId_snoc, kept.id]
    refine ⟨⟨id, kept.unchanged, ?_⟩, ?_⟩
    · -- What a recorded call saw is a front of the messages that does not change.
      intro call listed buffer framed enough
      change Carries buffer (firstId ((s.received ++ [message]).take call.received))
      rw [List.take_append_of_le_length (kept.recorded call listed)]
      exact kept.carries call listed buffer framed enough
    · intro call listed
      change call.received ≤ (s.received ++ [message]).length
      rw [List.length_append]
      exact (kept.recorded call listed).trans (Nat.le_add_right _ _)

theorem Kept.step {order : ByteOrder} {s t : Identified} {use : Use} (kept : Kept s)
    (moved : (system order).step s use = some t) : Kept t := by
  cases use with
  | send message => exact Option.some.inj moved ▸ kept.send order message
  | receive result => exact Option.some.inj moved ▸ kept.receive result

/-- In every sequence of calls the connection keeps the first id it receives,
exactly when the memory of its id happened to be zero. -/
theorem keepsId_iff (order : ByteOrder) (initial : ConnectionId) (uses : List Use) :
    (system order).Throughout KeepsId (start initial) uses ↔ initial = 0 := by
  constructor
  · intro kept
    exact (kept [] List.nil_prefix (start initial) rfl).id
  · rintro rfl before _ s run
    have kept := StepSystem.exec_invariant kept_start (fun _ _ _ kept moved => kept.step moved) run
    exact kept.toKeepsId

/-- A connection in memory that held a one. -/
theorem not_keepsId_one : ¬ ∀ s, (system .little).Reachable s → KeepsId s := by
  intro kept
  have id := (kept (start 1) ⟨start 1, [], ⟨1, rfl⟩, rfl⟩).id
  exact absurd id (by decide)

end Identified

end TcpWrapper

end Fup
