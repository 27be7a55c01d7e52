/-
# Transmitters and the resend listener

Any number of `TransmitPackets` workers share a table of packets to send, a file
stream and a stop signal with one `ListenResend`. Each block that holds a mutex
is one step, and so is each send. A run is a list of steps, every step labelled
with who takes it and what the calls it makes return.

A worker chooses an id, reads its chunk, sends it and marks it in four separate
steps. A RESEND handled between the send and the mark is overwritten by the
mark. The stream is shared as well, and after one short read it gives nothing to
anyone.
-/

import Fup.Client.ListenResend
import Fup.Client.TransmitPackets
import Mathlib.Logic.Function.Basic

namespace Fup.Client

/-! ### States -/

/-- How `TransmitPackets` ends. -/
inductive Exit
  | stopped
  | noMoreData
  | threw (failure : Failure)
  deriving DecidableEq

/-- The next block of a worker. -/
inductive TransmitPc
  | checkStop
  | choose
  | read (nextSeqId : ℕ)
  | send (nextSeqId : ℕ) (buffer : List Byte)
  | mark (nextSeqId : ℕ)
  | exited (exit : Exit)
  deriving DecidableEq

/-- The next block of the listener, and how it ended. -/
inductive ListenPc
  | entering
  | selecting
  | handling (message : Message)
  | checkStop
  | ended (failure : Option Failure)
  deriving DecidableEq

/-- What happened to a packet: a RESEND of it was handled, or a send of it was
started. -/
inductive Event
  | resend (i : ℕ)
  | send (i : ℕ) (packet : Packet)
  deriving DecidableEq

/-- What the workers and the listener share, where each of them is, and the
events so far, the latest first. -/
structure Transmission (ι : Type) where
  packetsToSend : List Bool
  fileStream : InputStream Byte
  stop : Bool
  listener : ListenPc
  workers : ι → TransmitPc
  history : List Event

/-- What the calls in the listener's next block return. -/
inductive Answer
  /-- `SetBlocking` and `SetTimeout`. -/
  | setup (fault : Option Failure)
  | selectFailed (errno : String)
  | quiet
  /-- `select` reports the socket readable, and `Receive` returns or throws. -/
  | received (outcome : Except Failure Message)
  /-- A block that asks nothing. -/
  | internal

/-- A step: a worker's next block, with how its send ends if it sends, or the
listener's. -/
inductive Move (ι : Type)
  | transmit (w : ι) (sendFault : Option Failure)
  | listen (answer : Answer)

/-- The packet a worker has chosen and not finished with. -/
def TransmitPc.chosen : TransmitPc → Option ℕ
  | .checkStop => none
  | .choose => none
  | .read nextSeqId => some nextSeqId
  | .send nextSeqId _ => some nextSeqId
  | .mark nextSeqId => some nextSeqId
  | .exited _ => none

namespace Transmission

variable {ι : Type}

/-! ### Steps -/

section Steps

variable [DecidableEq ι]

/-- A worker goes on to another block. -/
def goto (s : Transmission ι) (w : ι) (pc : TransmitPc) : Transmission ι :=
  { s with workers := Function.update s.workers w pc }

/-- The next block of a worker. -/
def transmit (sender : Sender) (s : Transmission ι) (w : ι) (sendFault : Option Failure) :
    Option (Transmission ι) :=
  match s.workers w with
  | .checkStop => some (s.goto w (if s.stop then .exited .stopped else .choose))
  | .choose =>
    let nextSeqId := getNextPossiblePacketId s.packetsToSend
    some (s.goto w (if nextSeqId = -1 then .checkStop else .read nextSeqId.toNat))
  | .read nextSeqId =>
    let read := s.fileStream.readAt (nextSeqId * packetPayloadSize) packetPayloadSize
    some { s.goto w (if read.2.length = 0 then .exited .noMoreData
        else .send nextSeqId (payloadBuffer read.2)) with
      fileStream := read.1 }
  | .send nextSeqId buffer =>
    let packet : Packet := ⟨UInt64.ofNat nextSeqId, sender.crc32 buffer, buffer⟩
    some { s.goto w (match sendFault with
        | none => .mark nextSeqId
        | some failure => .exited (.threw failure)) with
      history := .send nextSeqId packet :: s.history }
  | .mark nextSeqId =>
    some { s.goto w .checkStop with packetsToSend := s.packetsToSend.set nextSeqId true }
  | .exited _ => none

end Steps

/-- The branches of the listener on a message. -/
def handle (s : Transmission ι) (message : Message) : Transmission ι :=
  match dispatch message with
  | .resend seqId =>
    if seqId.toNat < s.packetsToSend.length then
      { s with
        packetsToSend := s.packetsToSend.set seqId.toNat false
        listener := .checkStop
        history := .resend seqId.toNat :: s.history }
    else { s with listener := .ended (some .outOfBounds) }
  | .ack => { s with stop := true, listener := .ended none }
  | .abort => { s with listener := .ended none }
  | .unexpected => { s with listener := .checkStop }
  | .threw failure => { s with listener := .ended (some failure) }

/-- The next block of the listener. -/
def listen (s : Transmission ι) (answer : Answer) : Option (Transmission ι) :=
  match s.listener, answer with
  | .entering, .setup none => some { s with listener := .selecting }
  | .entering, .setup (some failure) => some { s with listener := .ended (some failure) }
  | .selecting, .selectFailed errno =>
    some { s with
      listener := .ended (some (.exception ("Error in select: " ++ errno ++ "\n"))) }
  | .selecting, .quiet => some { s with listener := .checkStop }
  | .selecting, .received (.ok message) => some { s with listener := .handling message }
  | .selecting, .received (.error failure) => some { s with listener := .ended (some failure) }
  | .handling message, .internal => some (s.handle message)
  | .checkStop, .internal =>
    some { s with listener := if s.stop then .ended none else .selecting }
  | _, _ => none

/-- The state in which the listener and the workers are started: nothing is
sent, and the stream is at the start of the file. -/
def start (file : List Byte) (packetCount : ℕ) : Transmission ι where
  packetsToSend := List.replicate packetCount false
  fileStream := InputStream.ofFile file
  stop := false
  listener := .entering
  workers := fun _ => .checkStop
  history := []

variable [DecidableEq ι]

/-- All interleavings of the workers and the listener. -/
def system (sender : Sender) (file : List Byte) (packetCount : ℕ) :
    StepSystem (Transmission ι) (Move ι) where
  init s := s = start file packetCount
  step s move :=
    match move with
    | .transmit w sendFault => s.transmit sender w sendFault
    | .listen answer => s.listen answer

/-- The smallest instance: one worker and a file of one byte. -/
def oneWorker : StepSystem (Transmission Unit) (Move Unit) :=
  system ⟨.little, fun _ => 0, 1, 7⟩ [1] 1

/-! ### What a step does -/

section Goto

variable (s : Transmission ι) (w : ι) (pc : TransmitPc)

@[simp] theorem packetsToSend_goto : (s.goto w pc).packetsToSend = s.packetsToSend := rfl

theorem workers_goto (v : ι) :
    (s.goto w pc).workers v = if v = w then pc else s.workers v :=
  Function.update_apply s.workers w pc v

/-- What holds of the block a worker goes to and of the blocks of the others
holds of all. -/
theorem forall_workers_goto (holds : TransmitPc → Prop) (here : holds pc)
    (others : ∀ v ≠ w, holds (s.workers v)) (v : ι) : holds ((s.goto w pc).workers v) := by
  rw [workers_goto]
  split_ifs with same
  · exact here
  · exact others v same

end Goto

/-- What a worker's block does, by the block. -/
inductive Transmits (sender : Sender) (s : Transmission ι) (w : ι) : Transmission ι → Prop
  | checks (located : s.workers w = .checkStop) :
    Transmits sender s w (s.goto w (if s.stop then .exited .stopped else .choose))
  | waits (located : s.workers w = .choose) (marked : ∀ sent ∈ s.packetsToSend, sent = true) :
    Transmits sender s w (s.goto w .checkStop)
  | chooses (nextSeqId : ℕ) (located : s.workers w = .choose)
    (unsent : s.packetsToSend[nextSeqId]? = some false)
    (first : ∀ j < nextSeqId, s.packetsToSend[j]? = some true) :
    Transmits sender s w (s.goto w (.read nextSeqId))
  | runsDry (nextSeqId : ℕ) (located : s.workers w = .read nextSeqId)
    (nothing : (s.fileStream.readAt (nextSeqId * packetPayloadSize) packetPayloadSize).2 = []) :
    Transmits sender s w { s.goto w (.exited .noMoreData) with
      fileStream :=
        (s.fileStream.readAt (nextSeqId * packetPayloadSize) packetPayloadSize).1 }
  | reads (nextSeqId : ℕ) (located : s.workers w = .read nextSeqId)
    (something :
      (s.fileStream.readAt (nextSeqId * packetPayloadSize) packetPayloadSize).2 ≠ []) :
    Transmits sender s w { s.goto w (.send nextSeqId (payloadBuffer
        (s.fileStream.readAt (nextSeqId * packetPayloadSize) packetPayloadSize).2)) with
      fileStream :=
        (s.fileStream.readAt (nextSeqId * packetPayloadSize) packetPayloadSize).1 }
  | sends (nextSeqId : ℕ) (buffer : List Byte) (pc : TransmitPc)
    (located : s.workers w = .send nextSeqId buffer)
    (outcome : pc = .mark nextSeqId ∨ ∃ failure, pc = .exited (.threw failure)) :
    Transmits sender s w { s.goto w pc with
      history := .send nextSeqId ⟨UInt64.ofNat nextSeqId, sender.crc32 buffer, buffer⟩ ::
        s.history }
  | marks (nextSeqId : ℕ) (located : s.workers w = .mark nextSeqId) :
    Transmits sender s w { s.goto w .checkStop with
      packetsToSend := s.packetsToSend.set nextSeqId true }

theorem transmits_of_transmit {sender : Sender} {s t : Transmission ι} {w : ι}
    {sendFault : Option Failure} (moved : s.transmit sender w sendFault = some t) :
    Transmits sender s w t := by
  rw [transmit] at moved
  cases located : s.workers w with
  | checkStop =>
    simp only [located, Option.some_inj] at moved
    exact moved ▸ .checks located
  | choose =>
    simp only [located, Option.some_inj] at moved
    rcases getNextPossiblePacketId_cases s.packetsToSend with ⟨minusOne, marked⟩ | ⟨k, next, found⟩
    · rw [minusOne, if_pos rfl] at moved
      exact moved ▸ .waits located marked
    -- An index is never the `-1` that stands for none.
    · have index : (k : ℤ) ≠ -1 := by omega
      rw [next, if_neg index, Int.toNat_natCast] at moved
      exact moved ▸ .chooses k located found.1 found.2
  | read nextSeqId =>
    simp only [located, Option.some_inj] at moved
    split_ifs at moved with nothing
    · exact moved ▸ .runsDry nextSeqId located (List.length_eq_zero_iff.mp nothing)
    · exact moved ▸ .reads nextSeqId located (mt List.length_eq_zero_iff.mpr nothing)
  | send nextSeqId buffer =>
    simp only [located, Option.some_inj] at moved
    refine moved ▸ .sends nextSeqId buffer _ located ?_
    cases sendFault with
    | none => exact Or.inl rfl
    | some failure => exact Or.inr ⟨failure, rfl⟩
  | mark nextSeqId =>
    simp only [located, Option.some_inj] at moved
    exact moved ▸ .marks nextSeqId located
  | exited exit => simp only [located, reduceCtorEq] at moved

/-- What a block of the listener does, by the block. -/
inductive Hears (s : Transmission ι) : Answer → Transmission ι → Prop
  | enters : Hears s (.setup none) { s with listener := .selecting }
  | setupFails (failure : Failure) :
    Hears s (.setup (some failure)) { s with listener := .ended (some failure) }
  | selectFails (errno : String) :
    Hears s (.selectFailed errno)
      { s with listener := .ended (some (.exception ("Error in select: " ++ errno ++ "\n"))) }
  | quiet : Hears s .quiet { s with listener := .checkStop }
  | receives (message : Message) :
    Hears s (.received (.ok message)) { s with listener := .handling message }
  | receiveFails (failure : Failure) :
    Hears s (.received (.error failure)) { s with listener := .ended (some failure) }
  | resends (message : Message) (seqId : SequenceId) (located : s.listener = .handling message)
    (kind : dispatch message = .resend seqId) (inside : seqId.toNat < s.packetsToSend.length) :
    Hears s .internal { s with
      packetsToSend := s.packetsToSend.set seqId.toNat false
      listener := .checkStop
      history := .resend seqId.toNat :: s.history }
  | resendsBeyond (message : Message) (seqId : SequenceId)
    (located : s.listener = .handling message) (kind : dispatch message = .resend seqId) :
    Hears s .internal { s with listener := .ended (some .outOfBounds) }
  | acks (message : Message) (located : s.listener = .handling message)
    (kind : dispatch message = .ack) :
    Hears s .internal { s with stop := true, listener := .ended none }
  | aborts (message : Message) (located : s.listener = .handling message)
    (kind : dispatch message = .abort) : Hears s .internal { s with listener := .ended none }
  | ignores (message : Message) (located : s.listener = .handling message)
    (kind : dispatch message = .unexpected) : Hears s .internal { s with listener := .checkStop }
  | handleFails (message : Message) (failure : Failure)
    (located : s.listener = .handling message) (kind : dispatch message = .threw failure) :
    Hears s .internal { s with listener := .ended (some failure) }
  | checks (located : s.listener = .checkStop) :
    Hears s .internal { s with listener := if s.stop then .ended none else .selecting }

omit [DecidableEq ι] in
theorem hears_of_listen {s t : Transmission ι} {answer : Answer}
    (moved : s.listen answer = some t) : Hears s answer t := by
  unfold listen at moved
  split at moved
  case h_1 => exact Option.some.inj moved ▸ .enters
  case h_2 failure _ => exact Option.some.inj moved ▸ .setupFails failure
  case h_3 errno _ => exact Option.some.inj moved ▸ .selectFails errno
  case h_4 => exact Option.some.inj moved ▸ .quiet
  case h_5 message _ => exact Option.some.inj moved ▸ .receives message
  case h_6 failure _ => exact Option.some.inj moved ▸ .receiveFails failure
  -- The one block with branches on a message.
  case h_7 message located =>
    obtain rfl := Option.some.inj moved
    rw [handle]
    cases kind : dispatch message with
    | resend seqId =>
      simp only
      split_ifs with inside
      · exact .resends message seqId located kind inside
      · exact .resendsBeyond message seqId located kind
    | ack => exact .acks message located kind
    | abort => exact .aborts message located kind
    | unexpected => exact .ignores message located kind
    | threw failure => exact .handleFails message failure located kind
  case h_8 located => exact Option.some.inj moved ▸ .checks located
  case h_9 => cases moved

/-- What the listener's block does to what it shares. -/
inductive Listens (s : Transmission ι) : Transmission ι → Prop
  | goes (pc : ListenPc) : Listens s { s with listener := pc }
  | resends (message : Message) (seqId : SequenceId)
    (located : s.listener = .handling message) (kind : dispatch message = .resend seqId)
    (inside : seqId.toNat < s.packetsToSend.length) :
    Listens s { s with
      packetsToSend := s.packetsToSend.set seqId.toNat false
      listener := .checkStop
      history := .resend seqId.toNat :: s.history }
  | stops : Listens s { s with stop := true, listener := .ended none }

omit [DecidableEq ι] in
theorem listens_of_listen {s t : Transmission ι} {answer : Answer}
    (moved : s.listen answer = some t) : Listens s t := by
  cases hears_of_listen moved with
  | resends message seqId located kind inside => exact .resends message seqId located kind inside
  | acks => exact .stops
  | _ => exact .goes _

/-! ### Chosen packets have an entry -/

/-- The table keeps its size, and chosen packets are in it. -/
structure InTable (packetCount : ℕ) (s : Transmission ι) : Prop where
  size : s.packetsToSend.length = packetCount
  chosen : ∀ w, ∀ i ∈ (s.workers w).chosen, i < packetCount

omit [DecidableEq ι] in
theorem inTable_start (file : List Byte) (packetCount : ℕ) :
    InTable packetCount (start file packetCount : Transmission ι) where
  size := List.length_replicate
  chosen := fun _ _ held => absurd held (Option.not_mem_none _)

/-- A worker that holds on to its packet, lets it go or chooses one in the
table keeps the chosen packets in the table. -/
theorem InTable.goto {packetCount : ℕ} {s t : Transmission ι} (inTable : InTable packetCount s)
    {w : ι} {pc : TransmitPc} (size : t.packetsToSend.length = packetCount)
    (workers : t.workers = (s.goto w pc).workers) (here : ∀ i ∈ pc.chosen, i < packetCount) :
    InTable packetCount t where
  size := size
  chosen := by
    rw [workers]
    apply forall_workers_goto s w pc (fun pc => ∀ i ∈ pc.chosen, i < packetCount) here
    intro v _
    exact inTable.chosen v

theorem InTable.step {sender : Sender} {file : List Byte} {packetCount : ℕ}
    {s t : Transmission ι} {move : Move ι} (inTable : InTable packetCount s)
    (moved : (system sender file packetCount).step s move = some t) : InTable packetCount t := by
  cases move with
  | listen answer =>
    cases listens_of_listen moved with
    | goes pc => exact ⟨inTable.size, inTable.chosen⟩
    | stops => exact ⟨inTable.size, inTable.chosen⟩
    | resends message seqId located kind inside =>
      exact ⟨List.length_set.trans inTable.size, inTable.chosen⟩
  | transmit w sendFault =>
    have held := inTable.chosen w
    cases transmits_of_transmit moved with
    | checks located =>
      refine inTable.goto inTable.size rfl ?_
      split_ifs <;> exact fun _ held => absurd held (Option.not_mem_none _)
    | waits located marked =>
      exact inTable.goto inTable.size rfl fun _ held => absurd held (Option.not_mem_none _)
    | chooses nextSeqId located unsent first =>
      refine inTable.goto inTable.size rfl ?_
      intro i same
      obtain rfl := Option.some.inj same
      -- A chosen packet has an entry that is clear.
      exact inTable.size ▸ (List.getElem?_eq_some_iff.mp unsent).1
    | runsDry nextSeqId located nothing =>
      exact inTable.goto inTable.size rfl fun _ held => absurd held (Option.not_mem_none _)
    | reads nextSeqId located something =>
      rw [located] at held
      exact inTable.goto inTable.size rfl held
    | sends nextSeqId buffer pc located outcome =>
      rw [located] at held
      refine inTable.goto inTable.size rfl ?_
      rcases outcome with rfl | ⟨failure, rfl⟩
      · exact held
      · exact fun _ held => absurd held (Option.not_mem_none _)
    | marks nextSeqId located =>
      refine inTable.goto (List.length_set.trans inTable.size) rfl ?_
      exact fun _ held => absurd held (Option.not_mem_none _)

end Transmission

end Fup.Client
