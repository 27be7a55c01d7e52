/-
# The upload

Once the server has agreed, `Client::Upload` enqueues the listener and then one
transmitter after the other until the pool is full or the stop signal is set. It
waits for all workers, closes the file and sends an ACK without a body. The
tasks run on the workers of the pool, one next block at a time, interleaved with
the blocks of `Upload` and those of the pool.

Whatever the pool does, what the listener and the transmitters share moves as it
does without a pool.
-/

import Fup.Threadpool
import Fup.Client.Transmission.Stop

namespace Fup.Client

open Threadpool (onlyWorker)

/-! ### States -/

/-- A task of the pool. The transmitters are numbered as they are enqueued. -/
inductive Task
  | listenResend
  | transmitPackets (k : ℕ)
  deriving DecidableEq

/-- The next block of `Upload`, and how it ended. -/
inductive UploadPc
  | enqueueListener
  | loopGuard
  | enqueueTransmitter
  | checkStop
  | waitAll
  | join (k : ℕ)
  | acknowledge
  | ended (failure : Option Failure)
  deriving DecidableEq

/-- An upload on a pool of `n` workers. -/
structure Uploading (n : ℕ) where
  pc : UploadPc
  pool : Threadpool (Fin n) Task
  /-- The number of transmitters enqueued so far. -/
  transmitters : ℕ
  transmission : Transmission ℕ

/-- Who moves: `Upload`, a worker of the pool, or the task a worker runs. -/
inductive UploadMove (n : ℕ)
  | upload
  | worker (w : Fin n)
  | task (w : Fin n) (move : Move ℕ)

/-- The task whose block a move is. -/
def Move.task : Move ℕ → Task
  | .transmit k _ => .transmitPackets k
  | .listen _ => .listenResend

/-- The block of a task that a move is. -/
def UploadMove.ofTask {n : ℕ} : UploadMove n → Option (Move ℕ)
  | .task _ move => some move
  | _ => none

namespace Uploading

variable {n : ℕ}

/-! ### Steps -/

/-- `Upload` enqueues a task and goes on to another block. -/
def enqueue (s : Uploading n) (task : Task) (pc : UploadPc) : Uploading n :=
  match s.pool.enqueue task with
  | .ok pool => { s with pool := pool, pc := pc }
  | .error failure => { s with pc := .ended (some failure) }

/-- The next block of `Upload`. -/
def upload (sender : Sender) (s : Uploading n) : Option (Uploading n) :=
  match s.pc with
  | .enqueueListener => some (s.enqueue .listenResend .loopGuard)
  | .loopGuard =>
    some { s with
      pc := if s.pool.getWorkingThreadsCount.toNat ≤ n then .enqueueTransmitter else .waitAll }
  | .enqueueTransmitter =>
    some { s.enqueue (.transmitPackets s.transmitters) .checkStop with
      transmitters := s.transmitters + 1 }
  | .checkStop => some { s with pc := if s.transmission.stop then .waitAll else .loopGuard }
  | .waitAll => some { s with pool := s.pool.close, pc := .join 0 }
  | .join k =>
    if below : k < n then
      match s.pool.workers ⟨k, below⟩ with
      | .exited => some { s with pc := .join (k + 1) }
      | _ => none
    else some { s with pc := .acknowledge }
  | .acknowledge =>
    match Message.ofBody ⟨sender.version, sender.connectionId, .ack, 0⟩ none with
    | .ok _ => some { s with pc := .ended none }
    | .error failure => some { s with pc := .ended (some failure) }
  | .ended _ => none

/-- The task has returned or thrown, which is the same to the pool. -/
def returned (s : Uploading n) : Task → Bool
  | .listenResend => match s.transmission.listener with
    | .ended _ => true
    | _ => false
  | .transmitPackets k => match s.transmission.workers k with
    | .exited _ => true
    | _ => false

/-- The next block of a worker of the pool. It waits for the task it runs. -/
def worker (s : Uploading n) (w : Fin n) : Option (Uploading n) :=
  match s.pool.workers w with
  | .running task =>
    if s.returned task then (s.pool.work w).map fun pool => { s with pool := pool } else none
  | _ => (s.pool.work w).map fun pool => { s with pool := pool }

/-- The next block of the task that a worker runs. -/
def task (sender : Sender) (s : Uploading n) (w : Fin n) (move : Move ℕ) :
    Option (Uploading n) :=
  if s.pool.workers w = .running move.task then
    match move with
    | .transmit k sendFault =>
      (s.transmission.transmit sender k sendFault).map fun t => { s with transmission := t }
    | .listen answer => (s.transmission.listen answer).map fun t => { s with transmission := t }
  else none

/-- The upload when the server has agreed and the pool is constructed. -/
def start (file : List Byte) (packetCount : ℕ) (working : UInt64) : Uploading n where
  pc := .enqueueListener
  pool := .start working
  transmitters := 0
  transmission := .start file packetCount

/-- All interleavings of an upload, from any value of the pool's counter. -/
def system (sender : Sender) (file : List Byte) (packetCount : ℕ) :
    StepSystem (Uploading n) (UploadMove n) where
  init s := ∃ working, s = start file packetCount working
  step s move :=
    match move with
    | .upload => s.upload sender
    | .worker w => s.worker w
    | .task w move => s.task sender w move

/-! ### What `Upload` does -/

/-- What the next block of `Upload` does, by the block. -/
inductive Uploads (s : Uploading n) : Uploading n → Prop
  | enqueuesListener (located : s.pc = .enqueueListener) :
    Uploads s (s.enqueue .listenResend .loopGuard)
  | guards (located : s.pc = .loopGuard) :
    Uploads s { s with
      pc := if s.pool.getWorkingThreadsCount.toNat ≤ n then .enqueueTransmitter else .waitAll }
  | enqueuesTransmitter (located : s.pc = .enqueueTransmitter) :
    Uploads s { s.enqueue (.transmitPackets s.transmitters) .checkStop with
      transmitters := s.transmitters + 1 }
  | checks (located : s.pc = .checkStop) :
    Uploads s { s with pc := if s.transmission.stop then .waitAll else .loopGuard }
  | closes (located : s.pc = .waitAll) :
    Uploads s { s with pool := s.pool.close, pc := .join 0 }
  | joins (k : Fin n) (located : s.pc = .join k) (left : s.pool.workers k = .exited) :
    Uploads s { s with pc := .join (k + 1) }
  | joined (k : ℕ) (located : s.pc = .join k) (all : n ≤ k) :
    Uploads s { s with pc := .acknowledge }
  | acknowledges (failure : Option Failure) (located : s.pc = .acknowledge) :
    Uploads s { s with pc := .ended failure }

theorem uploads_of_upload {sender : Sender} {s t : Uploading n}
    (moved : s.upload sender = some t) : Uploads s t := by
  unfold upload at moved
  split at moved
  case h_1 located => exact Option.some.inj moved ▸ .enqueuesListener located
  case h_2 located => exact Option.some.inj moved ▸ .guards located
  case h_3 located => exact Option.some.inj moved ▸ .enqueuesTransmitter located
  case h_4 located => exact Option.some.inj moved ▸ .checks located
  case h_5 located => exact Option.some.inj moved ▸ .closes located
  case h_6 k located =>
    split_ifs at moved with below
    · split at moved
      case h_1 left => exact Option.some.inj moved ▸ .joins ⟨k, below⟩ located left
      case h_2 => cases moved
    · exact Option.some.inj moved ▸ .joined k located (Nat.le_of_not_lt below)
  case h_7 located =>
    split at moved
    · exact Option.some.inj moved ▸ .acknowledges none located
    · exact Option.some.inj moved ▸ .acknowledges (some _) located
  case h_8 => cases moved

/-- A pool that is not stopped accepts the task. -/
theorem enqueue_of_open {s : Uploading n} (opened : s.pool.stop = false) (task : Task)
    (pc : UploadPc) :
    s.enqueue task pc =
      { s with pool := { s.pool with tasks := s.pool.tasks ++ [task] }, pc := pc } := by
  rw [enqueue, Threadpool.enqueue, if_neg (Bool.not_eq_true _ ▸ opened)]

/-- What a block of a worker does to the upload is what it does to the pool. -/
theorem works_of_worker {s t : Uploading n} {w : Fin n} (moved : s.worker w = some t) :
    ∃ pool, s.pool.Works w pool ∧ t = { s with pool := pool } := by
  unfold worker at moved
  split at moved
  · split_ifs at moved
    obtain ⟨pool, worked, rfl⟩ := Option.map_eq_some_iff.mp moved
    exact ⟨pool, Threadpool.works_of_work worked, rfl⟩
  · obtain ⟨pool, worked, rfl⟩ := Option.map_eq_some_iff.mp moved
    exact ⟨pool, Threadpool.works_of_work worked, rfl⟩

/-- A block of a task leaves `Upload` and the pool as they are. -/
theorem keeps_of_task {s t : Uploading n} {w : Fin n} {move : Move ℕ}
    (moved : s.task sender w move = some t) : t.pc = s.pc ∧ t.pool = s.pool := by
  unfold task at moved
  split_ifs at moved
  cases move with
  | transmit k sendFault =>
    obtain ⟨next, -, rfl⟩ := Option.map_eq_some_iff.mp moved
    exact ⟨rfl, rfl⟩
  | listen answer =>
    obtain ⟨next, -, rfl⟩ := Option.map_eq_some_iff.mp moved
    exact ⟨rfl, rfl⟩

/-! ### What the tasks share -/

theorem transmission_enqueue (s : Uploading n) (task : Task) (pc : UploadPc) :
    (s.enqueue task pc).transmission = s.transmission := by
  rw [enqueue]
  split <;> rfl

theorem transmission_upload {sender : Sender} {s t : Uploading n}
    (moved : s.upload sender = some t) : t.transmission = s.transmission := by
  cases uploads_of_upload moved with
  | enqueuesListener => exact transmission_enqueue s _ _
  | enqueuesTransmitter => exact transmission_enqueue s _ _
  | _ => rfl

theorem transmission_worker {s t : Uploading n} {w : Fin n} (moved : s.worker w = some t) :
    t.transmission = s.transmission := by
  unfold worker at moved
  split at moved
  · split_ifs at moved
    obtain ⟨pool, -, rfl⟩ := Option.map_eq_some_iff.mp moved
    rfl
  · obtain ⟨pool, -, rfl⟩ := Option.map_eq_some_iff.mp moved
    rfl

theorem transmission_task {sender : Sender} {file : List Byte} {packetCount : ℕ}
    {s t : Uploading n} {w : Fin n} {move : Move ℕ} (moved : s.task sender w move = some t) :
    (Transmission.system sender file packetCount).step s.transmission move =
      some t.transmission := by
  unfold task at moved
  split_ifs at moved
  cases move with
  | transmit k sendFault =>
    obtain ⟨next, step, rfl⟩ := Option.map_eq_some_iff.mp moved
    exact step
  | listen answer =>
    obtain ⟨next, step, rfl⟩ := Option.map_eq_some_iff.mp moved
    exact step

/-- An upload is a run of the transmitters and the listener. -/
def toTransmission (sender : Sender) (file : List Byte) (packetCount : ℕ) :
    StepSystem.Projection (system sender file packetCount : StepSystem (Uploading n) (UploadMove n))
      (Transmission.system (ι := ℕ) sender file packetCount) where
  state := Uploading.transmission
  label := UploadMove.ofTask
  init := by
    rintro _ ⟨working, rfl⟩
    rfl
  stays := by
    intro s move t moved unlabelled
    cases move with
    | upload =>
      have moved : s.upload sender = some t := moved
      exact transmission_upload moved
    | worker w => exact transmission_worker moved
    | task w move => cases unlabelled
  moves := by
    intro s move t next moved labelled
    cases move with
    | task w move =>
      cases labelled
      exact transmission_task moved
    | _ => cases labelled

/-- Whatever an upload reaches, the transmitters and the listener reach without
the pool. -/
theorem reachable_transmission {sender : Sender} {file : List Byte} {packetCount : ℕ}
    {s : Uploading n} (reached : (system sender file packetCount).Reachable s) :
    (Transmission.system sender file packetCount).Reachable s.transmission :=
  (toTransmission sender file packetCount).reachable reached

/-! ### The end of the listener -/

/-- The move is no block of the listener that cuts it short. -/
def RunsOn (s : Uploading n) (move : UploadMove n) : Prop :=
  ∀ next, move.ofTask = some next → s.transmission.RunsOn next

/-- The end of the listener is signalled throughout an upload exactly when no
step of the upload cuts the listener short. -/
theorem endSignalled_iff {sender : Sender} {file : List Byte} {packetCount : ℕ}
    {working : UInt64} {moves : List (UploadMove n)} {t : Uploading n}
    (run : (system sender file packetCount).exec (start file packetCount working) moves = some t) :
    (system sender file packetCount).Throughout (fun s => s.transmission.EndSignalled)
        (start file packetCount working) moves ↔
      (system sender file packetCount).Within RunsOn (start file packetCount working) moves := by
  let projection := toTransmission (n := n) sender file packetCount
  have shared := Transmission.throughout_endSignalled_iff (projection.exec run)
  exact (projection.throughout_iff run).trans (shared.trans (projection.within_iff run).symm)

/-- An upload of one byte on one worker. -/
def oneThread : StepSystem (Uploading 1) (UploadMove 1) :=
  system ⟨.little, fun _ => 0, 1, 7⟩ [1] 1

/-- What `Receive` throws when the connection is closed between two messages. -/
def closedConnection : Failure :=
  .exception ("TcpWrapper::Receive: Failed to receive message header: " ++
    "Socket::Receive: Peer closed connection while receiving TCP message")

/-- The listener is started and the server closes the connection. -/
def peerClosed : List (UploadMove 1) :=
  [.upload, .worker onlyWorker, .task onlyWorker (.listen (.setup none)),
    .task onlyWorker (.listen (.received (.error closedConnection)))]

/-- The listener is started and the server sends an ABORT. -/
def aborted : List (UploadMove 1) :=
  [.upload, .worker onlyWorker, .task onlyWorker (.listen (.setup none)),
    .task onlyWorker (.listen (.received (.ok ⟨⟨1, 7, .abort, 0⟩, some .base⟩))),
    .task onlyWorker (.listen .internal)]

theorem isSome_peerClosed : (oneThread.exec (start [1] 1 0) peerClosed).isSome := by decide

/-- The theorem for the closed connection. -/
theorem endSignalled_iff_peerClosed :
    oneThread.Throughout (fun s => s.transmission.EndSignalled) (start [1] 1 0) peerClosed ↔
      oneThread.Within RunsOn (start [1] 1 0) peerClosed :=
  endSignalled_iff (Option.some_get isSome_peerClosed).symm

/-- A run at whose end the listener has ended and the signal is clear. -/
theorem not_throughout_of_clear {s : Uploading 1} {moves : List (UploadMove 1)} {pc : ListenPc}
    (ended : Transmission.Ended pc)
    (ends : (oneThread.exec s moves).map (fun t => (t.transmission.listener, t.transmission.stop)) =
      some (pc, false)) :
    ¬ oneThread.Throughout (fun t => t.transmission.EndSignalled) s moves := by
  intro throughout
  obtain ⟨last, run, values⟩ := Option.map_eq_some_iff.mp ends
  obtain ⟨rfl, clear⟩ := Prod.mk.inj values
  have stopped := throughout moves List.prefix_rfl last run ended
  exact Bool.false_ne_true (clear.symm.trans stopped)

/-- In both runs the listener ends and the signal stays clear. -/
theorem not_endSignalled_peerClosed :
    ¬ oneThread.Throughout (fun s => s.transmission.EndSignalled) (start [1] 1 0) peerClosed ∧
      ¬ oneThread.Throughout (fun s => s.transmission.EndSignalled) (start [1] 1 0) aborted := by
  constructor
  · have ended : Transmission.Ended (.ended (some closedConnection)) := trivial
    exact not_throughout_of_clear ended rfl
  · have ended : Transmission.Ended (.ended none) := trivial
    exact not_throughout_of_clear ended rfl

end Uploading

end Fup.Client
