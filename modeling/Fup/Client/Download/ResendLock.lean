/-
# The lock in front of a RESEND

Both `Send` and `Receive` of the socket hold its mutex for the whole call, and
`Download` calls `recv` on a socket that blocks. A worker that has found a
damaged packet waits for that call, and only a message of the server ends it.
Without one a RESEND is sent exactly when `Download` is outside `recv` or finds
something there.
-/

import Fup.Client.Download

namespace Fup.Client

open TcpWrapper
open Threadpool (onlyWorker)

namespace Downloading

variable {n : ℕ}

/-! ### The property -/

/-- Nothing arrives over TCP, and the connection stays as it is. -/
def Local : DownloadMove n → Prop
  | .arrive _ => False
  | .breakDown _ => False
  | _ => True

/-- Some continuation sends the RESEND without anything from the server. -/
def Resends (receiver : Receiver) (version : Version) (s : Downloading n)
    (seqId : SequenceId) : Prop :=
  ∃ moves t, (∀ move ∈ moves, Local move) ∧
    (system receiver version).exec s moves = some t ∧ t.resent = seqId :: s.resent

/-- When the worker is about to call `RequestResend` and the connection is alive,
the RESEND can be sent. -/
def CanResend (receiver : Receiver) (version : Version) (s : Downloading n) : Prop :=
  ∀ seqId, s.task = .requesting seqId → s.fault = none → Resends receiver version s seqId

/-- On a live connection without unread bytes the worker does not turn to
`RequestResend` while `Download` is in `recv`, and `Download` does not enter
`recv` while the worker is about to call `RequestResend`. -/
def Spares (receiver : Receiver) (s : Downloading n) (move : DownloadMove n) : Prop :=
  s.fault = none → s.buffered = [] →
    match move with
    | .download => ∀ seqId, s.task = .requesting seqId → ∀ receiving, s.pc ≠ .receiving receiving
    | .task _ _ => ∀ message seqId, s.task = .handling message →
        { receiver with connectionId := s.connectionId }.verdict message = .request seqId →
          ∀ receiving, s.pc ≠ .inRecv receiving
    | _ => True

/-! ### What the blocks do to the mutex -/

/-- The fields that `Download` leaves to the others. -/
structure Alike (s t : Downloading n) : Prop where
  task : t.task = s.task
  resent : t.resent = s.resent
  workers : t.pool.workers = s.pool.workers
  fault : t.fault = s.fault

/-- What a block of `Download` does to the mutex, which it holds in `recv`. -/
inductive RecvStep (s t : Downloading n) : Prop
  | enters (receiving : Receiving) (located : s.pc = .receiving receiving) (free : s.mutex = none)
    (next : t = { s with mutex := some .download, pc := .inRecv receiving })
  | leaves (receiving : Receiving) (located : s.pc = .inRecv receiving)
    (ready : s.buffered = [] → s.fault ≠ none) (outside : ∀ r, t.pc ≠ .inRecv r)
    (freed : t.mutex = none) (alike : Alike s t)
  | stays (front : ∀ r, s.pc ≠ .receiving r) (before : ∀ r, s.pc ≠ .inRecv r)
    (outside : ∀ r, t.pc ≠ .inRecv r) (same : t.mutex = s.mutex) (alike : Alike s t)

/-- What a block of `ReceivePackets` does to the mutex, which it holds while it
sends. -/
inductive SendStep (receiver : Receiver) (s t : Downloading n) : Prop
  | requests (message : Message) (seqId : SequenceId) (located : s.task = .handling message)
    (judged : { receiver with connectionId := s.connectionId }.verdict message = .request seqId)
    (next : t = { s with task := .requesting seqId })
  | locks (seqId : SequenceId) (frame : List Byte) (located : s.task = .locking seqId frame)
    (free : s.mutex = none)
    (next : t = { s with mutex := some .receivePackets, task := .sending seqId frame 0 })
  | sends (seqId : SequenceId) (frame : List Byte) (bytesSent bytesSent' : ℕ)
    (located : s.task = .sending seqId frame bytesSent)
    (next : t = { s with task := .sending seqId frame bytesSent' })
  | unlocks (seqId : SequenceId) (frame : List Byte) (bytesSent : ℕ)
    (located : s.task = .sending seqId frame bytesSent) (freed : t.mutex = none)
    (outside : ∀ seqId frame bytesSent, t.task ≠ .sending seqId frame bytesSent)
    (other : ∀ seqId, t.task ≠ .requesting seqId)
  | stays (before : ∀ seqId frame bytesSent, s.task ≠ .sending seqId frame bytesSent)
    (sound : ∀ message, s.task = .handling message → ∀ seqId,
      { receiver with connectionId := s.connectionId }.verdict message ≠ .request seqId)
    (outside : ∀ seqId frame bytesSent, t.task ≠ .sending seqId frame bytesSent)
    (other : ∀ seqId, t.task ≠ .requesting seqId)
    (same : t.mutex = s.mutex) (resent : t.resent = s.resent)

section Moves

variable {receiver : Receiver} {version : Version} {order : ByteOrder} {s t : Downloading n}

theorem alike_throws (s : Downloading n) (failure : Failure) :
    Alike s (s.throws failure) ∧ (s.throws failure).mutex = s.mutex ∧
      ∀ r, (s.throws failure).pc ≠ .inRecv r := by
  rcases throws_cases s failure with ⟨what, -, same⟩ | same
  all_goals
    rw [same]
    exact ⟨⟨rfl, rfl, rfl, rfl⟩, rfl, by simp⟩

theorem recvStep_throws (front : ∀ r, s.pc ≠ .receiving r) (before : ∀ r, s.pc ≠ .inRecv r)
    (failure : Failure) : RecvStep s (s.throws failure) := by
  obtain ⟨alike, same, outside⟩ := alike_throws s failure
  exact .stays front before outside same alike

theorem recvStep_of_downloads (moved : Downloads s t) : RecvStep s t := by
  cases moved with
  | locks receiving located free => exact .enters receiving located free rfl
  | reads receiving next count located unread =>
    refine .leaves receiving located (fun nothing => absurd nothing unread) (fun r => ?_) rfl
      ⟨rfl, rfl, rfl, rfl⟩
    split_ifs <;> simp
  | fails receiving failure bytes located ready =>
    obtain ⟨⟨task, resent, workers, fault⟩, same, outside⟩ :=
      alike_throws { s with mutex := none, buffered := bytes } failure
    exact .leaves receiving located ready outside same ⟨task, resent, workers, fault⟩
  | refused failure located =>
    exact recvStep_throws (by simp [located]) (by simp [located]) failure
  | enqueues pool located accepted =>
    obtain ⟨-, rfl⟩ := Threadpool.enqueue_eq_ok accepted
    exact .stays (by simp [located]) (by simp [located]) (by simp) rfl ⟨rfl, rfl, rfl, rfl⟩
  | goesOn pool pc located workers outside apart =>
    refine .stays (fun r at' => ?_) (fun r at' => ?_) outside rfl ⟨rfl, rfl, workers, rfl⟩
    all_goals
      rw [at'] at located
      cases located
  | aborts _ located | continues _ located | unwinds _ located | joins _ _ located
  | ends _ _ located =>
    exact .stays (by simp [located]) (by simp [located]) (by simp) rfl ⟨rfl, rfl, rfl, rfl⟩

theorem sendStep_of_receive {answer : TaskAnswer}
    (moved : s.receive receiver version answer = some t) : SendStep receiver s t := by
  unfold Downloading.receive at moved
  split at moved
  case h_2 message located =>
    -- Judging a message sends nothing, whatever the verdict.
    have before (seqId frame bytesSent) : s.task ≠ .sending seqId frame bytesSent := by
      simp [located]
    have same (other) : s.task = .handling other → other = message := by simp [located, eq_comm]
    split at moved
    case h_4 seqId judged =>
      cases moved
      exact .requests message seqId located judged rfl
    all_goals
      rename_i judged
      cases moved
      refine .stays before (fun other at' => ?_) (by simp) (by simp) rfl rfl
      rw [same other at', judged]
      simp
  case h_6 seqId frame located =>
    split_ifs at moved with free
    cases moved
    exact .locks seqId frame located free rfl
  case h_7 seqId frame bytesSent currentBytesSent located =>
    split_ifs at moved
    cases moved
    exact .sends seqId frame bytesSent _ located rfl
  case h_8 seqId frame bytesSent errno located =>
    split_ifs at moved
    cases moved
    exact .unlocks seqId frame bytesSent located rfl (by simp) (by simp)
  case h_9 seqId frame bytesSent located =>
    split_ifs at moved
    all_goals
      cases moved
      exact .unlocks seqId frame bytesSent located rfl (by simp) (by simp)
  case h_10 located =>
    cases moved
    refine .stays (by simp [located]) (by simp [located]) (fun seqId frame bytesSent => ?_)
      (fun seqId => ?_) rfl rfl
    all_goals split_ifs <;> simp
  case h_11 => cases moved
  case h_1 poll located | h_5 seqId located =>
    have before (seqId frame bytesSent) : s.task ≠ .sending seqId frame bytesSent := by
      simp [located]
    split at moved
    all_goals
      cases moved
      exact .stays before (by simp [located]) (by simp) (by simp) rfl rfl
  case h_3 packet located | h_4 packet located =>
    cases moved
    exact .stays (by simp [located]) (by simp [located]) (by simp) (by simp) rfl rfl

end Moves

/-! ### Invariants -/

/-- The mutex is held in `recv` and in the loop of `sendBase`. -/
structure Locked (s : Downloading n) : Prop where
  download : s.mutex = some .download ↔ ∃ receiving, s.pc = .inRecv receiving
  receivePackets : s.mutex = some .receivePackets ↔
    ∃ seqId frame bytesSent, s.task = .sending seqId frame bytesSent

/-- Once `ReceivePackets` has started, a worker runs it until it ends. -/
def Manned (s : Downloading n) : Prop :=
  s.task = .polling ∨ s.returned = true ∨ ∃ w, s.pool.workers w = .running ()

section Invariants

variable {receiver : Receiver} {version : Version} {s t : Downloading n} {move : DownloadMove n}

theorem locked_start (receiver : Receiver) (working : UInt64) :
    Locked (start receiver working : Downloading n) where
  download := iff_of_false (by simp [start]) (by simp [start])
  receivePackets := iff_of_false (by simp [start]) (by simp [start])

theorem Locked.recvStep (locked : Locked s) (moved : RecvStep s t) : Locked t := by
  cases moved with
  | enters receiving located free next =>
    subst next
    refine ⟨iff_of_true rfl ⟨receiving, rfl⟩, iff_of_false (by simp) ?_⟩
    rw [← locked.receivePackets, free]
    simp
  | leaves receiving located ready outside freed alike =>
    have held := locked.download.mpr ⟨receiving, located⟩
    refine ⟨iff_of_false (by simp [freed]) (by simpa using outside),
      iff_of_false (by simp [freed]) ?_⟩
    rw [alike.task, ← locked.receivePackets, held]
    simp
  | stays front before outside same alike =>
    refine ⟨?_, ?_⟩
    · rw [same, locked.download]
      exact iff_of_false (by simpa using before) (by simpa using outside)
    · rw [same, alike.task]
      exact locked.receivePackets

theorem Locked.sendStep (locked : Locked s) (moved : SendStep receiver s t) (pc : t.pc = s.pc) :
    Locked t := by
  cases moved with
  | requests message seqId located judged next =>
    subst next
    refine ⟨locked.download, ?_⟩
    rw [locked.receivePackets, located]
    simp
  | locks seqId frame located free next =>
    subst next
    refine ⟨iff_of_false (by simp) ?_, iff_of_true rfl ⟨seqId, frame, 0, rfl⟩⟩
    rw [pc, ← locked.download, free]
    simp
  | sends seqId frame bytesSent bytesSent' located next =>
    subst next
    have held := locked.receivePackets.mpr ⟨seqId, frame, bytesSent, located⟩
    exact ⟨locked.download, iff_of_true held ⟨seqId, frame, bytesSent', rfl⟩⟩
  | unlocks seqId frame bytesSent located freed outside other =>
    have held := locked.receivePackets.mpr ⟨seqId, frame, bytesSent, located⟩
    refine ⟨iff_of_false (by simp [freed]) ?_,
      iff_of_false (by simp [freed]) (by simpa using outside)⟩
    rw [pc, ← locked.download, held]
    simp
  | stays before sound outside other same resent =>
    refine ⟨by rw [same, pc, locked.download], ?_⟩
    rw [same, locked.receivePackets]
    exact iff_of_false (by simpa using before) (by simpa using outside)

theorem Locked.step (locked : Locked s)
    (moved : (system receiver version).step s move = some t) : Locked t := by
  cases moves_of_step moved with
  | download _ next => exact locked.recvStep (recvStep_of_downloads next)
  | handles message id located =>
    exact locked.recvStep
      (.stays (by simp [located]) (by simp [located]) (by simp) rfl ⟨rfl, rfl, rfl, rfl⟩)
  | undecodable failure located =>
    exact locked.recvStep (recvStep_throws (by simp [located]) (by simp [located]) failure)
  | task w answer _ running received =>
    exact locked.sendStep (sendStep_of_receive received) (keeps_of_receive received).1
  | worker | arrives | breaksDown => exact ⟨locked.download, locked.receivePackets⟩

theorem locked_of_reachable (reached : (system receiver version).Reachable s) : Locked s := by
  refine reached.invariant ?_ fun t move u locked moved => locked.step moved
  rintro _ ⟨working, rfl⟩
  exact locked_start receiver working

theorem Manned.alike (manned : Manned s) (alike : Alike s t) : Manned t := by
  rw [Manned, returned, alike.task, alike.workers]
  exact manned

theorem Manned.step (manned : Manned s)
    (moved : (system receiver version).step s move = some t) : Manned t := by
  cases moves_of_step moved with
  | download _ next =>
    cases recvStep_of_downloads next with
    | enters receiving located free next => exact next ▸ manned
    | leaves receiving located ready outside freed alike => exact manned.alike alike
    | stays front before outside same alike => exact manned.alike alike
  | undecodable failure => exact manned.alike (alike_throws s failure).1
  | worker w pool works waited =>
    -- A worker leaves the task only when it has returned.
    refine manned.imp_right fun manned => ?_
    rcases manned with returned | ⟨v, running⟩
    · exact Or.inl returned
    · by_cases same : v = w
      · have returned : s.returned = true := waited (same ▸ running)
        exact Or.inl returned
      · exact Or.inr ⟨v, (works.others same).trans running⟩
  | task w answer _ running received =>
    obtain ⟨-, -, pool, -⟩ := keeps_of_receive received
    exact Or.inr (Or.inr ⟨w, pool ▸ running⟩)
  | handles | arrives | breaksDown => exact manned

/-- A worker is there to send a RESEND. -/
theorem Manned.running {seqId : SequenceId} (manned : Manned s)
    (located : s.task = .requesting seqId) : ∃ w, s.pool.workers w = .running () := by
  rcases manned with polling | returned | running
  · simp [located] at polling
  · simp [Downloading.returned, located] at returned
  · exact running

end Invariants

/-! ### Waiting for the server -/

/-- `Download` is in a `recv` that waits for bytes, with the mutex. -/
structure Blocked (s : Downloading n) : Prop where
  waits : ∃ receiving, s.pc = .inRecv receiving
  unread : s.buffered = []
  alive : s.fault = none

section Blocking

variable {receiver : Receiver} {version : Version} {s t : Downloading n} {move : DownloadMove n}

/-- Without the server `Download` stays in `recv` and no RESEND is sent. -/
theorem Blocked.step (blocked : Blocked s) (locked : Locked s) (kept : Local move)
    (moved : (system receiver version).step s move = some t) :
    Blocked t ∧ t.resent = s.resent := by
  obtain ⟨⟨receiving, located⟩, unread, alive⟩ := blocked
  have held := locked.download.mpr ⟨receiving, located⟩
  cases moves_of_step moved with
  | download _ next =>
    cases recvStep_of_downloads next with
    | enters r elsewhere => simp [located] at elsewhere
    | leaves r _ ready => exact absurd alive (ready unread)
    | stays _ before => exact absurd located (before receiving)
  | handles message id elsewhere => simp [located] at elsewhere
  | undecodable failure elsewhere => simp [located] at elsewhere
  | worker w pool works waited => exact ⟨⟨⟨receiving, located⟩, unread, alive⟩, rfl⟩
  | task w answer _ running received =>
    obtain ⟨pc, -, -, buffered, fault⟩ := keeps_of_receive received
    refine ⟨⟨⟨receiving, pc.trans located⟩, buffered.trans unread, fault.trans alive⟩, ?_⟩
    -- The worker is not in the loop of `sendBase`, where a RESEND ends.
    have outside (seqId frame bytesSent) : s.task ≠ .sending seqId frame bytesSent := by
      intro sending
      have other := locked.receivePackets.mpr ⟨seqId, frame, bytesSent, sending⟩
      simp [held] at other
    cases sendStep_of_receive received with
    | requests message seqId _ _ next => exact next ▸ rfl
    | locks seqId frame _ _ next => exact next ▸ rfl
    | sends seqId frame bytesSent bytesSent' sending => exact absurd sending (outside _ _ _)
    | unlocks seqId frame bytesSent sending => exact absurd sending (outside _ _ _)
    | stays _ _ _ _ _ resent => exact resent
  | arrives | breaksDown => exact kept.elim

/-- What lasts as long as the server is silent. -/
structure Stuck (resent : List SequenceId) (s : Downloading n) : Prop where
  locked : Locked s
  blocked : Blocked s
  resent : s.resent = resent

/-- A run without the server leaves `Download` in `recv`. -/
theorem Blocked.exec (blocked : Blocked s) (locked : Locked s) {moves : List (DownloadMove n)}
    (kept : ∀ move ∈ moves, Local move)
    (run : (system receiver version).exec s moves = some t) : t.resent = s.resent := by
  have stuck : Stuck s.resent t := by
    refine StepSystem.invariant_of_within ⟨locked, blocked, rfl⟩ ?_
      ((StepSystem.within_label_iff run).mpr kept) run
    rintro u move v ⟨locked, blocked, same⟩ kept moved
    obtain ⟨still, resent⟩ := blocked.step locked kept moved
    exact ⟨locked.step moved, still, resent.trans same⟩
  exact stuck.resent

theorem not_canResend_of_blocked (locked : Locked s) (blocked : Blocked s) {seqId : SequenceId}
    (located : s.task = .requesting seqId) : ¬ CanResend receiver version s := by
  intro resends
  obtain ⟨moves, t, kept, run, resent⟩ := resends seqId located blocked.alive
  rw [blocked.exec locked kept run] at resent
  exact List.cons_ne_self seqId s.resent resent.symm

end Blocking

/-! ### Sending the RESEND -/

section Sends

variable {receiver : Receiver} {version : Version} {order : ByteOrder} {s : Downloading n}
  {seqId : SequenceId}

/-- The vector of a RESEND has 23 bytes. -/
theorem resendFrame_eq (order : ByteOrder) (version : Version) (s : Downloading n)
    (seqId : SequenceId) :
    ∃ cells, s.resendFrame order version seqId = .ok ⟨cells, true⟩ ∧ cells.length = 23 := by
  have encoded : (Body.resend ⟨seqId⟩).serialize order = .ok ⟨(Resend.mk seqId).wire, true⟩ :=
    congrArg Except.ok (Resend.serialize_eq order ⟨seqId⟩)
  have wire : (Resend.mk seqId).wire.length = 8 := FixedWidth.length_highFirst 8 _
  obtain ⟨cells, framed, length, -⟩ := exists_frame_of_body order s.connectionId
    ⟨version, s.connectionId, .resend, 8⟩ encoded wire (wire ▸ by decide)
  exact ⟨cells, framed, by rw [length, wire, Header.size]⟩

theorem intLength_resend {cells : List Byte} (length : cells.length = 23) :
    intLength cells = 23 := by
  rw [intLength, length, int32_of_small (by decide) (by decide)]
  rfl

theorem receive_requesting {buffer : Buffer Byte} (located : s.task = .requesting seqId)
    (built : s.resendFrame receiver.order version seqId = .ok buffer) :
    s.receive receiver version .internal = some { s with task := .locking seqId buffer.cells } := by
  unfold Downloading.receive
  rw [located]
  dsimp only
  rw [built]

theorem receive_locking {frame : List Byte} (located : s.task = .locking seqId frame)
    (free : s.mutex = none) :
    s.receive receiver version .internal =
      some { s with mutex := some .receivePackets, task := .sending seqId frame 0 } := by
  unfold Downloading.receive
  rw [located]
  exact if_pos free

theorem receive_sending {frame : List Byte} {bytesSent currentBytesSent : ℕ}
    (located : s.task = .sending seqId frame bytesSent) (more : bytesSent < intLength frame)
    (positive : 1 ≤ currentBytesSent) (room : bytesSent + currentBytesSent ≤ intLength frame) :
    s.receive receiver version (.sent (.ok currentBytesSent)) =
      .some { s with task := .sending seqId frame (bytesSent + currentBytesSent) } := by
  unfold Downloading.receive
  rw [located]
  exact if_pos ⟨more, positive, room⟩

theorem receive_sent {frame : List Byte} {bytesSent : ℕ}
    (located : s.task = .sending seqId frame bytesSent) (positive : 0 < bytesSent)
    (out : intLength frame = bytesSent) :
    s.receive receiver version .internal =
      some { s with mutex := none, task := .checkStop, resent := seqId :: s.resent } := by
  have returned : ¬ (bytesSent = 0 ∨ intLength frame ≠ bytesSent) := by
    rintro (nothing | differs)
    · exact positive.ne' nothing
    · exact differs out
  unfold Downloading.receive
  rw [located]
  exact (if_neg (not_lt.mpr out.le)).trans (if_neg returned)

/-- A running worker makes the blocks of `ReceivePackets`. -/
theorem step_task {w : Fin n} (running : s.pool.workers w = .running ()) (answer : TaskAnswer) :
    (system receiver version).step s (.task w answer) = s.receive receiver version answer :=
  if_pos running

/-- With the mutex free the worker sends its RESEND. -/
theorem resends_of_free {w : Fin n} (running : s.pool.workers w = .running ())
    (located : s.task = .requesting seqId) (free : s.mutex = none) :
    Resends receiver version s seqId := by
  obtain ⟨cells, built, length⟩ := resendFrame_eq receiver.order version s seqId
  -- Serialized, locked, sent in one `send`, and unlocked.
  have out := intLength_resend length
  obtain ⟨s₁, serialized, located, free, running, unsent⟩ : ∃ t,
      (system receiver version).step s (.task w .internal) = some t ∧
        t.task = .locking seqId cells ∧ t.mutex = none ∧ t.pool.workers w = .running () ∧
          t.resent = s.resent :=
    ⟨_, (step_task running _).trans (receive_requesting located built), rfl, free, running, rfl⟩
  obtain ⟨s₂, locked, located, running, unsent⟩ : ∃ t,
      (system receiver version).step s₁ (.task w .internal) = some t ∧
        t.task = .sending seqId cells 0 ∧ t.pool.workers w = .running () ∧ t.resent = s.resent :=
    ⟨_, (step_task running _).trans (receive_locking located free), rfl, running, unsent⟩
  obtain ⟨s₃, sent, located, running, unsent⟩ : ∃ t,
      (system receiver version).step s₂ (.task w (.sent (.ok 23))) = some t ∧
        t.task = .sending seqId cells 23 ∧ t.pool.workers w = .running () ∧
          t.resent = s.resent := by
    refine ⟨_, (step_task running _).trans (receive_sending located ?_ (by decide) ?_), rfl,
      running, unsent⟩
    all_goals
      rw [out]
      decide
  obtain ⟨s₄, finished, resent⟩ : ∃ t,
      (system receiver version).step s₃ (.task w .internal) = some t ∧
        t.resent = seqId :: s.resent :=
    ⟨_, (step_task running _).trans (receive_sent located (by decide) out),
      congrArg (seqId :: ·) unsent⟩
  refine ⟨[.task w .internal, .task w .internal, .task w (.sent (.ok 23)), .task w .internal], s₄,
    by simp [Local], ?_, resent⟩
  rw [StepSystem.exec_cons, serialized, Option.bind_some, StepSystem.exec_cons, locked,
    Option.bind_some, StepSystem.exec_cons, sent, Option.bind_some, StepSystem.exec_cons,
    finished, Option.bind_some, StepSystem.exec_nil]

/-- A `recv` that finds bytes returns. -/
theorem exists_download_of_buffered {receiving : Receiving} (located : s.pc = .inRecv receiving)
    (nonempty : s.buffered ≠ []) : ∃ t, s.download order version = .some t := by
  unfold Downloading.download
  rw [located]
  dsimp only
  rw [if_neg nonempty]
  split
  · exact ⟨_, rfl⟩
  · exact ⟨_, rfl⟩

/-- Unless `Download` waits for the server, the worker gets the mutex. -/
theorem canResend_of_not_blocked (locked : Locked s) (manned : Manned s)
    (outside : ∀ seqId, s.task = .requesting seqId → ¬ Blocked s) :
    CanResend receiver version s := by
  intro seqId located alive
  obtain ⟨w, running⟩ := manned.running located
  cases held : s.mutex with
  | none => exact resends_of_free running located held
  | some side =>
    cases side with
    | receivePackets =>
      obtain ⟨_, _, _, sending⟩ := locked.receivePackets.mp held
      simp [located] at sending
    | download =>
      obtain ⟨receiving, inRecv⟩ := locked.download.mp held
      have unread : s.buffered ≠ [] := fun unread =>
        outside seqId located ⟨⟨receiving, inRecv⟩, unread, alive⟩
      -- `Download` reads what is there and gives the mutex back.
      obtain ⟨t, moved⟩ : ∃ t, s.download receiver.order version = some t :=
        exists_download_of_buffered inRecv unread
      cases recvStep_of_downloads (downloads_of_download moved) with
      | enters r elsewhere => simp [inRecv] at elsewhere
      | stays _ before => exact absurd inRecv (before receiving)
      | leaves r _ _ _ freed alike =>
        have running : t.pool.workers w = .running () := by rw [alike.workers, running]
        have resends : Resends receiver version t seqId :=
          resends_of_free running (alike.task.trans located) freed
        obtain ⟨moves, u, kept, run, resent⟩ := resends
        refine ⟨.download :: moves, u, ?_, ?_, resent.trans (by rw [alike.resent])⟩
        · exact List.forall_mem_cons.mpr ⟨trivial, kept⟩
        · exact Option.bind_eq_some_iff.mpr ⟨t, moved, run⟩

end Sends

/-! ### Runs -/

section Runs

variable {receiver : Receiver} {version : Version} {s t : Downloading n} {move : DownloadMove n}

/-- The worker is not about to call `RequestResend` while `Download` waits for
the server. -/
def Unblocked (s : Downloading n) : Prop := ∀ seqId, s.task = .requesting seqId → ¬ Blocked s

theorem canResend_iff (locked : Locked s) (manned : Manned s) :
    CanResend receiver version s ↔ Unblocked s :=
  ⟨fun resends _ located blocked => not_canResend_of_blocked locked blocked located resends,
    canResend_of_not_blocked locked manned⟩

/-- A step keeps the worker unblocked exactly when it spares it. -/
theorem unblocked_step_iff (unblocked : Unblocked s)
    (moved : (system receiver version).step s move = some t) :
    Unblocked t ↔ Spares receiver s move := by
  cases moves_of_step moved with
  | download _ next =>
    cases recvStep_of_downloads next with
    | enters receiving located free next =>
      subst next
      -- Entering `recv` blocks the worker that is about to call `RequestResend`.
      constructor
      · intro still alive unread seqId requesting r _
        exact still seqId requesting ⟨⟨receiving, rfl⟩, unread, alive⟩
      · intro spares seqId requesting blocked
        exact spares blocked.alive blocked.unread seqId requesting receiving located
    | leaves receiving located ready outside freed alike =>
      refine iff_of_true (fun _ _ blocked => ?_) fun _ _ _ _ r elsewhere => ?_
      · exact blocked.waits.elim outside
      · simp [located] at elsewhere
    | stays front before outside same alike =>
      exact iff_of_true (fun _ _ blocked => blocked.waits.elim outside) fun _ _ _ _ => front
  | handles message id located =>
    exact iff_of_true (fun _ _ blocked => blocked.waits.elim (by simp)) fun _ _ => trivial
  | undecodable failure =>
    obtain ⟨-, -, outside⟩ := alike_throws s failure
    exact iff_of_true (fun _ _ blocked => blocked.waits.elim outside) fun _ _ => trivial
  | worker w pool works waited =>
    refine iff_of_true (fun seqId located blocked => ?_) fun _ _ => trivial
    exact unblocked seqId located ⟨blocked.waits, blocked.unread, blocked.alive⟩
  | task w answer _ running received =>
    cases sendStep_of_receive received with
    | requests message seqId located judged next =>
      subst next
      -- Turning to `RequestResend` blocks while `Download` is in `recv`.
      constructor
      · intro still alive unread _ _ _ _ receiving inRecv
        exact still seqId rfl ⟨⟨receiving, inRecv⟩, unread, alive⟩
      · intro spares _ _ blocked
        obtain ⟨receiving, inRecv⟩ := blocked.waits
        exact spares blocked.alive blocked.unread message seqId located judged receiving inRecv
    | locks seqId frame located free next =>
      subst next
      exact iff_of_true (fun _ requesting => by cases requesting)
        fun _ _ _ _ handling => by simp [located] at handling
    | sends seqId frame bytesSent bytesSent' located next =>
      subst next
      exact iff_of_true (fun _ requesting => by cases requesting)
        fun _ _ _ _ handling => by simp [located] at handling
    | unlocks seqId frame bytesSent located freed outside other =>
      exact iff_of_true (fun seqId requesting => absurd requesting (other seqId))
        fun _ _ _ _ handling => by simp [located] at handling
    | stays before sound outside other same resent =>
      exact iff_of_true (fun seqId requesting => absurd requesting (other seqId))
        fun _ _ message seqId handling judged => absurd judged (sound message handling seqId)
  | arrives bytes =>
    refine iff_of_true (fun seqId located blocked => ?_) fun _ _ => trivial
    have unread : s.buffered = [] := List.append_eq_nil_iff.mp blocked.unread |>.1
    exact unblocked seqId located ⟨blocked.waits, unread, blocked.alive⟩
  | breaksDown what =>
    exact iff_of_true (fun _ _ blocked => by cases blocked.alive) fun _ _ => trivial

/-- Where a run is in which every step has spared the RESEND. -/
structure Spared (s : Downloading n) : Prop where
  locked : Locked s
  manned : Manned s
  unblocked : Unblocked s

theorem spared_start (receiver : Receiver) (working : UInt64) :
    Spared (start receiver working : Downloading n) where
  locked := locked_start receiver working
  manned := Or.inl rfl
  unblocked := fun _ requesting => by cases requesting

/-- In a run a RESEND can always be sent exactly when every step spares it. -/
theorem throughout_canResend_iff {working : UInt64} {moves : List (DownloadMove n)}
    (run : (system receiver version).exec (start receiver working) moves = some t) :
    (system receiver version).Throughout (CanResend receiver version) (start receiver working)
        moves ↔
      (system receiver version).Within (Spares receiver) (start receiver working) moves := by
  refine StepSystem.throughout_iff_within (spared_start receiver working) ?_
    (fun _ spared => (canResend_iff spared.locked spared.manned).mpr spared.unblocked) ?_ run
  · rintro s move u ⟨locked, manned, unblocked⟩ spares moved
    exact ⟨locked.step moved, manned.step moved, (unblocked_step_iff unblocked moved).mpr spares⟩
  · rintro s move u ⟨locked, manned, unblocked⟩ harms moved resends
    have still := (canResend_iff (locked.step moved) (manned.step moved)).mp resends
    exact harms ((unblocked_step_iff unblocked moved).mp still)

/-- A packet with another checksum. -/
def damagedBytes : List Byte :=
  [0, 0, 0, 0, 0, 1, 7, 0, 0, 0, 14, 0, 0, 0, 0, 0, 0, 0, 0, 0, 0, 0, 0, 0x65, 0xe4, 0, 0, 111, 98]

/-- The packet comes before `Download` calls `recv`, and the RESEND is sent. -/
def resentRun : List (DownloadMove 1) :=
  [.download, .worker onlyWorker, .task onlyWorker (.polled (.datagram damagedBytes)),
    .task onlyWorker .internal, .task onlyWorker .internal, .task onlyWorker .internal,
    .task onlyWorker (.sent (.ok 23)), .task onlyWorker .internal, .download]

theorem isSome_resentRun :
    ((system Receiver.twoBytesReceiver 1).exec (start Receiver.twoBytesReceiver 0)
      resentRun).isSome := by decide +kernel

/-- The theorem for this run. -/
theorem throughout_canResend_resent :
    (system Receiver.twoBytesReceiver 1).Throughout (CanResend Receiver.twoBytesReceiver 1)
        (start Receiver.twoBytesReceiver 0) resentRun ↔
      (system Receiver.twoBytesReceiver 1).Within (Spares Receiver.twoBytesReceiver)
        (start Receiver.twoBytesReceiver 0) resentRun :=
  throughout_canResend_iff (Option.some_get isSome_resentRun).symm

/-- `Download` is in `recv` when the packet comes. -/
def blockedRun : List (DownloadMove 1) :=
  [.download, .download, .worker onlyWorker, .task onlyWorker (.polled (.datagram damagedBytes)),
    .task onlyWorker .internal]

theorem isSome_blockedRun :
    ((system Receiver.twoBytesReceiver 1).exec (start Receiver.twoBytesReceiver 0)
      blockedRun).isSome := by decide +kernel

theorem not_throughout_canResend_blocked :
    ¬ (system Receiver.twoBytesReceiver 1).Throughout (CanResend Receiver.twoBytesReceiver 1)
      (start Receiver.twoBytesReceiver 0) blockedRun := by
  intro throughout
  set last := ((system Receiver.twoBytesReceiver 1).exec (start Receiver.twoBytesReceiver 0)
    blockedRun).get isSome_blockedRun
  have run : (system Receiver.twoBytesReceiver 1).exec (start Receiver.twoBytesReceiver 0)
      blockedRun = some last := (Option.some_get isSome_blockedRun).symm
  have located : last.task = .requesting 0 := by decide +kernel
  have waits : last.pc = .inRecv .start := by decide +kernel
  have blocked : Blocked last := ⟨⟨_, waits⟩, by decide +kernel, by decide +kernel⟩
  have locked : Locked last := locked_of_reachable ⟨_, blockedRun, ⟨0, rfl⟩, run⟩
  exact not_canResend_of_blocked locked blocked located
    (throughout blockedRun List.prefix_rfl last run)

end Runs

end Downloading

end Fup.Client
