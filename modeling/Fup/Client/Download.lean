/-
# The download

Once the server has agreed, `Client::Download` enqueues `ReceivePackets` and
receives messages over TCP in a loop. Every turn ends in a `throw` or a
`continue`, and the check of the stop signal behind them is never reached. Nor
is what follows the loop. An exception unwinds the stack through the destructor
of the pool, which waits for the workers.

`Receive` calls `recv` on a blocking socket with the mutex of the socket held,
and `ReceivePackets` needs the same mutex to send a RESEND.
-/

import Fup.Client.ReceivePackets.Datagrams
import Fup.TcpReceive
import Fup.TcpSend
import Fup.Threadpool

namespace Fup.Client

open TcpWrapper

/-! ### States -/

/-- How a block of `Download` fails: in the branch for an ABORT, or in a call. -/
inductive Thrown
  | aborted (failure : Failure)
  | call (failure : Failure)
  deriving DecidableEq

/-- The next block of `Download`, and how it ended. -/
inductive DownloadPc
  | enqueueReceiver
  /-- In `Receive`, in front of the mutex for a `recv`. -/
  | receiving (receiving : Receiving)
  /-- In a `recv`, with the mutex. -/
  | inRecv (receiving : Receiving)
  /-- In `Receive`, with everything read. -/
  | decoding
  | handling (message : Message)
  | checkStop
  | waitAll
  | join (k : ℕ)
  | acknowledge
  /-- An exception is on its way to the destructor of the pool. -/
  | unwinding (thrown : Thrown)
  /-- In the destructor of the pool, about to join a worker. -/
  | destroying (thrown : Thrown) (k : ℕ)
  | ended (thrown : Option Thrown)
  deriving DecidableEq

/-- Where a block of `Download` is: up to the end of a turn of the loop, behind
it, or on the way out after an exception. -/
inductive Place
  | loop
  | behind
  | aborted
  | failed
  deriving DecidableEq

def DownloadPc.place : DownloadPc → Place
  | .enqueueReceiver => .loop
  | .receiving _ => .loop
  | .inRecv _ => .loop
  | .decoding => .loop
  | .handling _ => .loop
  | .checkStop => .behind
  | .waitAll => .behind
  | .join _ => .behind
  | .acknowledge => .behind
  | .unwinding (.aborted _) => .aborted
  | .unwinding (.call _) => .failed
  | .destroying (.aborted _) _ => .aborted
  | .destroying (.call _) _ => .failed
  | .ended none => .behind
  | .ended (some (.aborted _)) => .aborted
  | .ended (some (.call _)) => .failed

/-- The next block of `ReceivePackets`, and how it ended. -/
inductive ReceivePc
  | polling
  | handling (message : Message)
  | storing (packet : Packet)
  | marking (packet : Packet)
  /-- About to call `RequestResend`. -/
  | requesting (seqId : SequenceId)
  /-- In `Socket::Send`, in front of the mutex. -/
  | locking (seqId : SequenceId) (frame : List Byte)
  /-- In the loop of `sendBase`, with the mutex. -/
  | sending (seqId : SequenceId) (frame : List Byte) (bytesSent : ℕ)
  | checkStop
  | ended (failure : Option Failure)
  deriving DecidableEq

/-- The threads that use the TCP connection. -/
inductive Side
  | download
  | receivePackets
  deriving DecidableEq

/-- A download on a pool of `n` workers. -/
structure Downloading (n : ℕ) where
  pc : DownloadPc
  pool : Threadpool (Fin n) Unit
  task : ReceivePc
  received : Received
  /-- `stopSignal->stop`. -/
  stop : Bool
  connectionId : ConnectionId
  /-- Who holds the mutex of the TCP socket. -/
  mutex : Option Side
  /-- Bytes that have arrived on the TCP connection. -/
  buffered : List Byte
  /-- What a `recv` throws that finds no bytes and a dead connection. -/
  fault : Option String
  /-- The RESENDs sent, the latest first. -/
  resent : List SequenceId

/-- What the next block of `ReceivePackets` learns from outside. -/
inductive TaskAnswer
  | internal
  | polled (poll : Poll)
  | sent (result : Except String ℕ)

/-- Who moves: `Download`, a worker of the pool, the task it runs, or the
network. What the decoder makes of the buffers of `Receive` is part of the
label, since they are filled and read out of bounds. -/
inductive DownloadMove (n : ℕ)
  | download
  | decoded (outcome : Except Failure Message)
  | worker (w : Fin n)
  | task (w : Fin n) (answer : TaskAnswer)
  | arrive (bytes : List Byte)
  | breakDown (what : String)

namespace Downloading

variable {n : ℕ}

/-! ### Steps -/

/-- An exception unwinds the stack. After anything else nothing is promised. -/
def throws (s : Downloading n) (failure : Failure) : Downloading n :=
  match failure with
  | .exception what => { s with pc := .unwinding (.call (.exception what)) }
  | _ => { s with pc := .ended (some (.call failure)) }

/-- The next block of `Download`. -/
def download (order : ByteOrder) (version : Version) (s : Downloading n) :
    Option (Downloading n) :=
  match s.pc with
  | .enqueueReceiver =>
    match s.pool.enqueue () with
    | .ok pool => some { s with pool := pool, pc := .receiving .start }
    | .error failure => some (s.throws failure)
  | .receiving receiving =>
    if s.mutex = none then some { s with mutex := some .download, pc := .inRecv receiving }
    else none
  | .inRecv receiving =>
    if s.buffered = [] then
      -- The call blocks while the connection lives.
      s.fault.map fun what => { s with mutex := none }.throws (receiving.failed what)
    else
      let chunk := receiving.recv s.buffered
      let s := { s with mutex := none, buffered := s.buffered.drop chunk.length }
      match receiving.take order chunk with
      | .error failure => some (s.throws failure)
      | .ok next => some { s with pc := if next.wants = 0 then .decoding else .receiving next }
  | .decoding => none
  | .handling message =>
    if message.header.keyword = .abort then
      some { s with
        stop := true
        pc := .unwinding (.aborted (.exception "Remote server aborted the download.")) }
    else some { s with pc := .receiving .start }
  -- No branch leads here.
  | .checkStop => some { s with pc := if s.stop then .waitAll else .receiving .start }
  | .waitAll => some { s with pool := s.pool.close, pc := .join 0 }
  | .join k =>
    if below : k < n then
      match s.pool.workers ⟨k, below⟩ with
      | .exited => some { s with pc := .join (k + 1) }
      | _ => none
    else some { s with pc := .acknowledge }
  | .acknowledge =>
    match Message.ofBody ⟨version, s.connectionId, .ack, 0⟩ none with
    | .ok _ => some { s with pc := .ended none }
    | .error failure => some { s with pc := .ended (some (.call failure)) }
  | .unwinding thrown => some { s with pool := s.pool.close, pc := .destroying thrown 0 }
  | .destroying thrown k =>
    if below : k < n then
      match s.pool.workers ⟨k, below⟩ with
      | .exited => some { s with pc := .destroying thrown (k + 1) }
      | _ => none
    else some { s with pc := .ended (some thrown) }
  | .ended _ => none

/-- The end of `Receive`. The first message gives a connection without an id its
id. -/
def decoded (s : Downloading n) (outcome : Except Failure Message) : Option (Downloading n) :=
  match s.pc, outcome with
  | .decoding, .ok message =>
    some { s with
      connectionId :=
        if s.connectionId = 0 then message.header.connectionId else s.connectionId
      pc := .handling message }
  | .decoding, .error failure => some (s.throws failure)
  | _, _ => none

/-- The message and the vector of `RequestResend`. -/
def resendFrame (order : ByteOrder) (version : Version) (s : Downloading n)
    (seqId : SequenceId) : Except Failure (Buffer Byte) := do
  let resendMessage ← Message.ofBody ⟨version, s.connectionId, .resend, 0⟩ (some (.resend ⟨seqId⟩))
  TcpWrapper.frame order s.connectionId resendMessage

/-- The next block of `ReceivePackets`. -/
def receive (receiver : Receiver) (version : Version) (s : Downloading n) (answer : TaskAnswer) :
    Option (Downloading n) :=
  match s.task, answer with
  | .polling, .polled poll =>
    match receiver.poll poll with
    | .error failure => some { s with task := .ended (some failure) }
    | .ok none => some { s with task := .checkStop }
    | .ok (some message) => some { s with task := .handling message }
  | .handling message, .internal =>
    match { receiver with connectionId := s.connectionId }.verdict message with
    | .skip => some { s with task := .polling }
    | .unexpected => some { s with task := .checkStop }
    | .store packet => some { s with task := .storing packet }
    | .request seqId => some { s with task := .requesting seqId }
    | .threw failure => some { s with task := .ended (some failure) }
  | .storing packet, .internal =>
    let fileStream := (s.received.put packet).fileStream
    some { s with
      received := { s.received with fileStream := fileStream }
      task := .marking packet }
  | .marking packet, .internal =>
    let packetsReceived := (s.received.put packet).packetsReceived
    some { s with
      received := { s.received with packetsReceived := packetsReceived }
      task := .checkStop }
  | .requesting seqId, .internal =>
    match s.resendFrame receiver.order version seqId with
    | .ok buffer => some { s with task := .locking seqId buffer.cells }
    | .error failure => some { s with task := .ended (some failure) }
  | .locking seqId frame, .internal =>
    if s.mutex = none then
      some { s with mutex := some .receivePackets, task := .sending seqId frame 0 }
    else none
  | .sending seqId frame bytesSent, .sent (.ok currentBytesSent) =>
    if bytesSent < intLength frame ∧ 1 ≤ currentBytesSent ∧
        bytesSent + currentBytesSent ≤ intLength frame then
      some { s with task := .sending seqId frame (bytesSent + currentBytesSent) }
    else none
  | .sending _ frame bytesSent, .sent (.error errno) =>
    if bytesSent < intLength frame then
      some { s with
        mutex := none
        task := .ended (some (Sending.incomplete
          ("Socket::Send: An error occured when sending a message: " ++
            ("Socket::sendBase: An error occured while sending TCP message: " ++ errno)))) }
    else none
  | .sending seqId frame bytesSent, .internal =>
    if bytesSent < intLength frame then none
    else if bytesSent = 0 ∨ intLength frame ≠ bytesSent then
      some { s with
        mutex := none
        task := .ended (some (Sending.incomplete
          "Bytes sent is not equal to the expected amount.")) }
    else some { s with mutex := none, task := .checkStop, resent := seqId :: s.resent }
  | .checkStop, .internal => some { s with task := if s.stop then .ended none else .polling }
  | _, _ => none

/-- `ReceivePackets` has returned or thrown. -/
def returned (s : Downloading n) : Bool :=
  match s.task with
  | .ended _ => true
  | _ => false

/-- The next block of a worker of the pool. It waits for the task it runs. -/
def worker (s : Downloading n) (w : Fin n) : Option (Downloading n) :=
  match s.pool.workers w with
  | .running _ =>
    if s.returned then (s.pool.work w).map fun pool => { s with pool := pool } else none
  | _ => (s.pool.work w).map fun pool => { s with pool := pool }

/-- The download when the file is open and the pool is constructed. -/
def start (receiver : Receiver) (working : UInt64) : Downloading n where
  pc := .enqueueReceiver
  pool := .start working
  task := .polling
  received := Received.start receiver.packetCount
  stop := false
  connectionId := receiver.connectionId
  mutex := none
  buffered := []
  fault := none
  resent := []

/-- All interleavings of a download, from any value of the pool's counter. -/
def system (receiver : Receiver) (version : Version) :
    StepSystem (Downloading n) (DownloadMove n) where
  init s := ∃ working, s = start receiver working
  step s move :=
    match move with
    | .download => s.download receiver.order version
    | .decoded outcome => s.decoded outcome
    | .worker w => s.worker w
    | .task w answer =>
      if s.pool.workers w = .running () then s.receive receiver version answer else none
    | .arrive bytes => some { s with buffered := s.buffered ++ bytes }
    | .breakDown what => some { s with fault := some what }

/-! ### Where the blocks lead -/

section Moves

variable {s t : Downloading n}

theorem throws_cases (s : Downloading n) (failure : Failure) :
    (∃ what, failure = .exception what ∧ s.throws failure =
        { s with pc := .unwinding (.call failure) }) ∨
      s.throws failure = { s with pc := .ended (some (.call failure)) } := by
  cases failure with
  | exception what => exact Or.inl ⟨what, rfl, rfl⟩
  | _ => exact Or.inr rfl

/-- What a block of `Download` does, by the block. -/
inductive Downloads (s : Downloading n) : Downloading n → Prop
  | enqueues (pool : Threadpool (Fin n) Unit) (located : s.pc = .enqueueReceiver)
    (accepted : s.pool.enqueue () = .ok pool) :
    Downloads s { s with pool := pool, pc := .receiving .start }
  | refused (failure : Failure) (located : s.pc = .enqueueReceiver) :
    Downloads s (s.throws failure)
  | locks (receiving : Receiving) (located : s.pc = .receiving receiving) (free : s.mutex = none) :
    Downloads s { s with mutex := some .download, pc := .inRecv receiving }
  | reads (receiving next : Receiving) (count : ℕ) (located : s.pc = .inRecv receiving)
    (unread : s.buffered ≠ []) :
    Downloads s { s with
      mutex := none
      buffered := s.buffered.drop count
      pc := if next.wants = 0 then .decoding else .receiving next }
  | fails (receiving : Receiving) (failure : Failure) (bytes : List Byte)
    (located : s.pc = .inRecv receiving) (ready : s.buffered = [] → s.fault ≠ none) :
    Downloads s ({ s with mutex := none, buffered := bytes }.throws failure)
  | aborts (message : Message) (located : s.pc = .handling message) (failure : Failure) :
    Downloads s { s with stop := true, pc := .unwinding (.aborted failure) }
  | continues (message : Message) (located : s.pc = .handling message) :
    Downloads s { s with pc := .receiving .start }
  | goesOn (pool : Threadpool (Fin n) Unit) (pc : DownloadPc) (located : s.pc.place = .behind)
    (workers : pool.workers = s.pool.workers) (outside : ∀ receiving, pc ≠ .inRecv receiving)
    (apart : ∀ thrown k, pc ≠ .destroying thrown k) :
    Downloads s { s with pool := pool, pc := pc }
  | unwinds (thrown : Thrown) (located : s.pc = .unwinding thrown) :
    Downloads s { s with pool := s.pool.close, pc := .destroying thrown 0 }
  | joins (thrown : Thrown) (k : ℕ) (located : s.pc = .destroying thrown k) :
    Downloads s { s with pc := .destroying thrown (k + 1) }
  | ends (thrown : Thrown) (k : ℕ) (located : s.pc = .destroying thrown k) :
    Downloads s { s with pc := .ended (some thrown) }

theorem downloads_of_download {order : ByteOrder} {version : Version}
    (moved : s.download order version = some t) : Downloads s t := by
  unfold Downloading.download at moved
  split at moved
  case h_1 located =>
    split at moved
    case h_1 pool accepted => exact Option.some.inj moved ▸ .enqueues pool located accepted
    case h_2 failure _ => exact Option.some.inj moved ▸ .refused failure located
  case h_2 receiving located =>
    split_ifs at moved with free
    exact Option.some.inj moved ▸ .locks receiving located free
  case h_3 receiving located =>
    split_ifs at moved with empty
    · obtain ⟨what, dead, rfl⟩ := Option.map_eq_some_iff.mp moved
      exact .fails receiving _ s.buffered located fun _ alive => by simp [alive] at dead
    · simp only at moved
      split at moved
      case h_1 failure _ =>
        exact Option.some.inj moved ▸
          .fails receiving failure _ located fun nothing => absurd nothing empty
      case h_2 next _ => exact Option.some.inj moved ▸ .reads receiving next _ located empty
  case h_4 => cases moved
  case h_5 message located =>
    split_ifs at moved
    · exact Option.some.inj moved ▸ .aborts message located _
    · exact Option.some.inj moved ▸ .continues message located
  case h_10 thrown located => exact Option.some.inj moved ▸ .unwinds thrown located
  case h_11 thrown k located =>
    split_ifs at moved
    · split at moved
      · exact Option.some.inj moved ▸ .joins thrown k located
      · cases moved
    · exact Option.some.inj moved ▸ .ends thrown k located
  case h_12 => cases moved
  -- The places behind the loop.
  case h_6 located =>
    obtain rfl := Option.some.inj moved
    refine .goesOn s.pool _ (by rw [located]; rfl) rfl (fun _ => ?_) fun _ _ => ?_
    all_goals split_ifs <;> simp
  case h_7 located =>
    obtain rfl := Option.some.inj moved
    exact .goesOn _ _ (by rw [located]; rfl) rfl (by simp) (by simp)
  case h_8 k located =>
    split_ifs at moved
    · split at moved
      · obtain rfl := Option.some.inj moved
        exact .goesOn s.pool _ (by rw [located]; rfl) rfl (by simp) (by simp)
      · cases moved
    · obtain rfl := Option.some.inj moved
      exact .goesOn s.pool _ (by rw [located]; rfl) rfl (by simp) (by simp)
  case h_9 located =>
    split at moved
    all_goals
      obtain rfl := Option.some.inj moved
      exact .goesOn s.pool _ (by rw [located]; rfl) rfl (by simp) (by simp)

/-- `ReceivePackets` touches neither `Download` nor the stop signal. -/
theorem keeps_of_receive {receiver : Receiver} {version : Version} {answer : TaskAnswer}
    (moved : s.receive receiver version answer = some t) :
    t.pc = s.pc ∧ t.stop = s.stop ∧ t.pool = s.pool ∧ t.buffered = s.buffered ∧
      t.fault = s.fault := by
  unfold receive at moved
  split at moved
  all_goals repeat' split at moved
  all_goals cases moved <;> exact ⟨rfl, rfl, rfl, rfl, rfl⟩

/-- What a move does, by who moves. -/
inductive Moves (receiver : Receiver) (version : Version) (s : Downloading n) :
    DownloadMove n → Downloading n → Prop
  | download (t : Downloading n) (next : Downloads s t) : Moves receiver version s .download t
  | handles (message : Message) (id : ConnectionId) (located : s.pc = .decoding) :
    Moves receiver version s (.decoded (.ok message))
      { s with connectionId := id, pc := .handling message }
  | undecodable (failure : Failure) (located : s.pc = .decoding) :
    Moves receiver version s (.decoded (.error failure)) (s.throws failure)
  | worker (w : Fin n) (pool : Threadpool (Fin n) Unit) (works : s.pool.Works w pool)
    (waited : s.pool.workers w = .running () → s.returned = true) :
    Moves receiver version s (.worker w) { s with pool := pool }
  | task (w : Fin n) (answer : TaskAnswer) (t : Downloading n)
    (running : s.pool.workers w = .running ())
    (received : s.receive receiver version answer = some t) :
    Moves receiver version s (.task w answer) t
  | arrives (bytes : List Byte) :
    Moves receiver version s (.arrive bytes) { s with buffered := s.buffered ++ bytes }
  | breaksDown (what : String) :
    Moves receiver version s (.breakDown what) { s with fault := some what }

theorem moves_of_step {receiver : Receiver} {version : Version} {move : DownloadMove n}
    (moved : (system receiver version).step s move = some t) :
    Moves receiver version s move t := by
  cases move with
  | download =>
    have moved : s.download receiver.order version = some t := moved
    exact .download t (downloads_of_download moved)
  | decoded outcome =>
    have moved : s.decoded outcome = some t := moved
    unfold Downloading.decoded at moved
    split at moved
    · exact Option.some.inj moved ▸ .handles _ _ ‹_›
    · exact Option.some.inj moved ▸ .undecodable _ ‹_›
    · cases moved
  | worker w =>
    -- A worker that runs the task waits for it to return.
    have moved : s.worker w = some t := moved
    unfold Downloading.worker at moved
    split at moved
    · split_ifs at moved with returned
      obtain ⟨pool, worked, rfl⟩ := Option.map_eq_some_iff.mp moved
      exact .worker w pool (Threadpool.works_of_work worked) fun _ => returned
    case h_2 apart =>
      obtain ⟨pool, worked, rfl⟩ := Option.map_eq_some_iff.mp moved
      exact .worker w pool (Threadpool.works_of_work worked) fun running =>
        absurd running (apart ())
  | task w answer =>
    obtain ⟨running, received⟩ := Option.ite_none_right_eq_some.mp moved
    exact .task w answer t running received
  | arrive bytes => exact Option.some.inj moved ▸ .arrives bytes
  | breakDown what => exact Option.some.inj moved ▸ .breaksDown what

end Moves

/-! ### The loop is never left at its end -/

/-- `Download` is in its loop, and it is left by an ABORT only if the signal is
set, by an exception of a call only if it is clear. -/
structure InLoop (s : Downloading n) : Prop where
  ahead : s.pc.place ≠ .behind
  signal : s.stop = decide (s.pc.place = .aborted)

theorem inLoop_start (receiver : Receiver) (working : UInt64) :
    InLoop (start receiver working : Downloading n) where
  ahead := by simp [start, DownloadPc.place]
  signal := rfl

/-- In the loop the signal is clear. -/
theorem InLoop.clear {s : Downloading n} (inLoop : InLoop s) (here : s.pc.place = .loop) :
    s.stop = false := by
  rw [inLoop.signal, here]
  rfl

theorem inLoop_throws {s : Downloading n} (clear : s.stop = false) (failure : Failure) :
    InLoop (s.throws failure) := by
  rcases throws_cases s failure with ⟨what, -, same⟩ | same
  all_goals
    rw [same]
    exact ⟨by simp [DownloadPc.place], clear⟩

theorem InLoop.downloads {s t : Downloading n} (inLoop : InLoop s) (moved : Downloads s t) :
    InLoop t := by
  cases moved with
  | enqueues pool located accepted =>
    exact ⟨by simp [DownloadPc.place], inLoop.clear (by rw [located]; rfl)⟩
  | refused failure located => exact inLoop_throws (inLoop.clear (by rw [located]; rfl)) failure
  | locks receiving located free =>
    exact ⟨by simp [DownloadPc.place], inLoop.clear (by rw [located]; rfl)⟩
  | reads receiving next count located unread =>
    -- A `recv` that is not the last leaves the place in the loop.
    have clear := inLoop.clear (by rw [located]; rfl)
    refine ⟨?_, ?_⟩
    · split_ifs <;> simp [DownloadPc.place]
    · split_ifs <;> exact clear
  | fails receiving failure bytes located ready =>
    apply inLoop_throws
    exact inLoop.clear (by rw [located]; rfl)
  | aborts message located failure => exact ⟨by simp [DownloadPc.place], rfl⟩
  | continues message located =>
    exact ⟨by simp [DownloadPc.place], inLoop.clear (by rw [located]; rfl)⟩
  | goesOn pool pc located workers outside apart => exact absurd located inLoop.ahead
  | unwinds thrown located | joins thrown _ located | ends thrown _ located =>
    -- On the way out the signal stays what it was when the loop was left.
    have signal := inLoop.signal
    rw [located] at signal
    cases thrown <;> exact ⟨by simp [DownloadPc.place], signal⟩

theorem InLoop.step {receiver : Receiver} {version : Version} {s t : Downloading n}
    {move : DownloadMove n} (inLoop : InLoop s)
    (moved : (system receiver version).step s move = some t) : InLoop t := by
  cases moves_of_step moved with
  | download _ next => exact inLoop.downloads next
  | handles message id located =>
    exact ⟨by simp [DownloadPc.place], inLoop.clear (by rw [located]; rfl)⟩
  | undecodable failure located =>
    exact inLoop_throws (inLoop.clear (by rw [located]; rfl)) failure
  | task w answer _ running received =>
    obtain ⟨pc, stop, -⟩ := keeps_of_receive received
    exact ⟨pc ▸ inLoop.ahead, by rw [stop, pc, inLoop.signal]⟩
  | worker | arrives | breaksDown => exact ⟨inLoop.ahead, inLoop.signal⟩

theorem inLoop_of_reachable {receiver : Receiver} {version : Version} {s : Downloading n}
    (reached : (system receiver version).Reachable s) : InLoop s := by
  refine reached.invariant ?_ fun t move u inLoop moved => inLoop.step moved
  rintro _ ⟨working, rfl⟩
  exact inLoop_start receiver working

/-! ### Finishing -/

/-- The code behind the loop: `WaitAll`, the ACK and the `return`. -/
def Behind : DownloadPc → Prop
  | .waitAll => True
  | .join _ => True
  | .acknowledge => True
  | .ended none => True
  | _ => False

/-- As long as the server has not aborted and the connection is alive, the code
behind the loop can be reached, and there all packets have been received. -/
structure Finishes (n : ℕ) (receiver : Receiver) (version : Version) : Prop where
  reaches : ∀ s : Downloading n, (system receiver version).Reachable s → s.pc.place = .loop →
    s.fault = none → ∃ moves t, (system receiver version).exec s moves = some t ∧ Behind t.pc
  complete : ∀ s : Downloading n, (system receiver version).Reachable s → Behind s.pc →
    ∀ flag ∈ s.received.packetsReceived, flag = true

theorem not_behind_of_reachable {receiver : Receiver} {version : Version} {s : Downloading n}
    (reached : (system receiver version).Reachable s) : ¬ Behind s.pc := by
  have ahead := (inLoop_of_reachable reached).ahead
  intro behind
  apply ahead
  cases located : s.pc with
  | waitAll | join | acknowledge => rfl
  | ended thrown =>
    rw [located] at behind
    cases thrown with
    | none => rfl
    | some thrown => exact behind.elim
  | _ =>
    rw [located] at behind
    exact behind.elim

/-- No continuation of any reachable state finishes. -/
theorem not_behind_of_exec {receiver : Receiver} {version : Version} {s t : Downloading n}
    {moves : List (DownloadMove n)} (reached : (system receiver version).Reachable s)
    (run : (system receiver version).exec s moves = some t) : ¬ Behind t.pc := by
  obtain ⟨first, before, started, front⟩ := reached
  exact not_behind_of_reachable
    ⟨first, before ++ moves, started, StepSystem.exec_append_eq_some.mpr ⟨s, front, run⟩⟩

theorem reachable_start (receiver : Receiver) (version : Version) (working : UInt64) :
    (system receiver version).Reachable (start receiver working : Downloading n) :=
  ⟨_, [], ⟨working, rfl⟩, rfl⟩

/-- A download never finishes. -/
theorem not_finishes (n : ℕ) (receiver : Receiver) (version : Version) :
    ¬ Finishes n receiver version := by
  intro finishes
  have started := reachable_start (n := n) receiver version 0
  obtain ⟨moves, t, run, behind⟩ := finishes.reaches _ started rfl rfl
  exact not_behind_of_exec started run behind

/-- A download of one packet. -/
theorem not_finishes_twoBytes : ¬ Finishes 1 Receiver.twoBytesReceiver 1 := by
  intro finishes
  have started := reachable_start (n := 1) Receiver.twoBytesReceiver 1 0
  obtain ⟨moves, t, run, behind⟩ := finishes.reaches _ started rfl rfl
  exact not_behind_of_exec started run behind

/-! ### Leaving on an error -/

/-- `Download` waits for the workers, in `WaitAll` or in the destructor. -/
def Joining : DownloadPc → Prop
  | .join _ => True
  | .destroying _ _ => True
  | _ => False

/-- When the workers are waited for, the stop signal is set. -/
def Signalled (s : Downloading n) : Prop := Joining s.pc → s.stop = true

/-- The move does not enter the destructor of the pool on an exception of a call
in the loop. -/
def NotThrown (s : Downloading n) (move : DownloadMove n) : Prop :=
  ∀ failure, move = .download → s.pc ≠ .unwinding (.call failure)

theorem not_destroying_throws (s : Downloading n) (failure : Failure) (thrown : Thrown) (k : ℕ) :
    (s.throws failure).pc ≠ .destroying thrown k := by
  rcases throws_cases s failure with ⟨what, -, same⟩ | same
  all_goals
    rw [same]
    simp

theorem destroying_of_downloads {s t : Downloading n} {thrown : Thrown} {k : ℕ}
    (moved : Downloads s t) (entered : t.pc = .destroying thrown k) :
    s.pc = .unwinding thrown ∨ ∃ j, s.pc = .destroying thrown j := by
  cases moved with
  | refused failure located => exact absurd entered (not_destroying_throws s failure thrown k)
  | fails receiving failure bytes located ready =>
    exact absurd entered (not_destroying_throws _ failure thrown k)
  | reads receiving next count located unread => split_ifs at entered
  | goesOn pool pc located workers outside apart => exact absurd entered (apart thrown k)
  | unwinds raised located =>
    obtain ⟨rfl, -⟩ := DownloadPc.destroying.inj entered
    exact Or.inl located
  | joins raised j located =>
    obtain ⟨rfl, -⟩ := DownloadPc.destroying.inj entered
    exact Or.inr ⟨j, located⟩
  | _ => cases entered

/-- The destructor is entered from the unwinding. -/
theorem destroying_of_step {receiver : Receiver} {version : Version} {s t : Downloading n}
    {move : DownloadMove n} {thrown : Thrown} {k : ℕ}
    (moved : (system receiver version).step s move = some t)
    (entered : t.pc = .destroying thrown k) :
    move = .download ∧ s.pc = .unwinding thrown ∨ ∃ j, s.pc = .destroying thrown j := by
  cases moves_of_step moved with
  | download _ next =>
    exact (destroying_of_downloads next entered).imp_left fun located => ⟨rfl, located⟩
  | handles => cases entered
  | undecodable failure => exact absurd entered (not_destroying_throws s failure thrown k)
  | task w answer _ running received => exact Or.inr ⟨k, (keeps_of_receive received).1 ▸ entered⟩
  | worker | arrives | breaksDown => exact Or.inr ⟨k, entered⟩

/-- The destructor has not been entered on an exception of a call. -/
structure NoneThrown (s : Downloading n) : Prop where
  inLoop : InLoop s
  notCall : ∀ failure k, s.pc ≠ .destroying (.call failure) k

theorem noneThrown_start (receiver : Receiver) (working : UInt64) :
    NoneThrown (start receiver working : Downloading n) :=
  ⟨inLoop_start receiver working, fun _ _ => nofun⟩

/-- The signal is set when the workers are waited for, unless a call has thrown. -/
theorem NoneThrown.signalled {s : Downloading n} (noneThrown : NoneThrown s) : Signalled s := by
  intro joining
  rw [noneThrown.inLoop.signal, decide_eq_true_iff]
  cases located : s.pc with
  | join k => exact absurd (by rw [located]; rfl) noneThrown.inLoop.ahead
  | destroying thrown k =>
    cases thrown with
    | aborted failure => rfl
    | call failure => exact absurd located (noneThrown.notCall failure k)
  | _ =>
    rw [located] at joining
    exact joining.elim

/-- In a run the stop signal is set before the workers are waited for exactly
when the destructor of the pool is never entered on an exception of a call. -/
theorem throughout_signalled_iff {receiver : Receiver} {version : Version} {working : UInt64}
    {moves : List (DownloadMove n)} {t : Downloading n}
    (run : (system receiver version).exec (start receiver working) moves = some t) :
    (system receiver version).Throughout Signalled (start receiver working) moves ↔
      (system receiver version).Within NotThrown (start receiver working) moves := by
  refine StepSystem.throughout_iff_within (noneThrown_start receiver working) ?_
    (fun _ noneThrown => noneThrown.signalled) ?_ run
  · rintro s move u ⟨inLoop, notCall⟩ guard moved
    refine ⟨inLoop.step moved, fun failure k entered => ?_⟩
    rcases destroying_of_step moved entered with ⟨rfl, located⟩ | ⟨j, located⟩
    · exact guard failure rfl located
    · exact notCall failure j located
  · rintro s move u ⟨inLoop, -⟩ thrown moved signalled
    simp only [NotThrown, not_forall, not_not, exists_prop] at thrown
    obtain ⟨failure, rfl, located⟩ := thrown
    have moved : s.download receiver.order version = some u := moved
    simp only [Downloading.download, located, Option.some.injEq] at moved
    -- The unwinding leaves the signal as it is, which is clear.
    have clear : s.stop = false := by
      rw [inLoop.signal, located]
      rfl
    subst moved
    exact Bool.false_ne_true (clear.symm.trans (signalled trivial))

/-- The server aborts. -/
def abortedRun : List (DownloadMove 1) :=
  [.download, .download, .arrive (Header.wire .little ⟨1, 1, .abort, 0⟩), .download,
    .decoded (.ok ⟨⟨1, 1, .abort, 0⟩, some .base⟩), .download, .download]

theorem isSome_abortedRun :
    ((system Receiver.twoBytesReceiver 1).exec (start Receiver.twoBytesReceiver 0)
      abortedRun).isSome := by decide +kernel

/-- The theorem for an ABORT. -/
theorem throughout_signalled_aborted :
    (system Receiver.twoBytesReceiver 1).Throughout Signalled (start Receiver.twoBytesReceiver 0)
        abortedRun ↔
      (system Receiver.twoBytesReceiver 1).Within NotThrown (start Receiver.twoBytesReceiver 0)
        abortedRun :=
  throughout_signalled_iff (Option.some_get isSome_abortedRun).symm

/-- The server closes the connection while `Download` is in `recv`. -/
def closedRun : List (DownloadMove 1) :=
  [.download, .download, .breakDown "Connection closed by peer", .download, .download]

theorem not_throughout_signalled_closed :
    ¬ (system Receiver.twoBytesReceiver 1).Throughout Signalled
      (start Receiver.twoBytesReceiver 0) closedRun := by
  intro throughout
  have signalled := throughout closedRun List.prefix_rfl _ rfl trivial
  cases signalled

end Downloading

end Fup.Client
