/-
# The rounds of a download

In a download `ReceivePackets` runs on a worker of the pool, block by block, between the
blocks of `Download` that receive on the TCP connection and may give it its id. A round
is spread over many steps: the file is written in one block and the table in another,
and a RESEND waits for the socket. Yet what a download has stored, what it has asked
for and how the loop has ended is what whole rounds on the same datagrams leave, up to
the one round it is in.
-/

import Fup.Client.Download

namespace Fup.Client

open Threadpool (onlyWorker)

/-! ### Whole rounds -/

/-- What the loop leaves: the file and the table, how it goes on, and the RESENDs that
went out, the latest first. -/
structure Looping where
  received : Received
  flow : Flow
  resent : List SequenceId

/-- A round, with the id that the connection has in it. -/
structure Turn where
  connectionId : ConnectionId
  round : Round

namespace Receiver

variable (receiver : Receiver)

/-- The receiver on a connection with the id. -/
def identified (id : ConnectionId) : Receiver := { receiver with connectionId := id }

/-- The packet that a poll makes the loop ask for. -/
def asks (poll : Poll) : Option SequenceId :=
  match receiver.poll poll with
  | .ok (some message) =>
    match receiver.verdict message with
    | .request seqId => some seqId
    | _ => none
  | _ => none

/-- The RESEND that goes out in a round. -/
def goesOut (round : Round) : Option SequenceId :=
  match round.resend with
  | .ok _ => receiver.asks round.poll
  | .error _ => none

/-- `ReceivePackets` in whole rounds, on a connection that may change its id. -/
def turns : StepSystem Looping Turn where
  init a := a = ⟨.start receiver.packetCount, .running, []⟩
  step a turn :=
    match a.flow with
    | .running =>
      let receiver := receiver.identified turn.connectionId
      let after := receiver.loopBody a.received turn.round
      some ⟨after.1, after.2, (receiver.goesOut turn.round).toList ++ a.resent⟩
    | _ => none

variable {receiver} {a : Looping} {id : ConnectionId} {poll : Poll}
  {resend : Except Failure Unit} {stop : Bool}

/-- A round whose head throws. -/
theorem turns_of_error (running : a.flow = .running) {failure : Failure}
    (polled : receiver.poll poll = .error failure) :
    receiver.turns.step a ⟨id, ⟨poll, resend, stop⟩⟩ =
      some ⟨a.received, .threw failure, a.resent⟩ := by
  have polled : (receiver.identified id).poll poll = .error failure := polled
  simp only [turns, running, loopBody_eq_poll, goesOut, asks, polled]
  cases resend <;> rfl

/-- A round without a datagram. -/
theorem turns_of_quiet (running : a.flow = .running) (polled : receiver.poll poll = .ok none) :
    receiver.turns.step a ⟨id, ⟨poll, resend, stop⟩⟩ =
      some ⟨a.received, checkStop ⟨poll, resend, stop⟩, a.resent⟩ := by
  have polled : (receiver.identified id).poll poll = .ok none := polled
  simp only [turns, running, loopBody_eq_poll, goesOut, asks, polled]
  cases resend <;> rfl

/-- A round with a message executes the verdict on it. -/
theorem turns_of_verdict (running : a.flow = .running) {message : Message}
    (polled : receiver.poll poll = .ok (some message)) :
    receiver.turns.step a ⟨id, ⟨poll, resend, stop⟩⟩ =
      some ⟨(execute a.received ⟨poll, resend, stop⟩
          ((receiver.identified id).verdict message)).1,
        (execute a.received ⟨poll, resend, stop⟩ ((receiver.identified id).verdict message)).2,
        ((receiver.identified id).goesOut ⟨poll, resend, stop⟩).toList ++ a.resent⟩ := by
  have polled : (receiver.identified id).poll poll = .ok (some message) := polled
  simp only [turns, running, loopBody_eq_poll, polled]

/-- Only a verdict that requests a packet sends anything. -/
theorem turns_of_other (running : a.flow = .running) {message : Message} {verdict : Verdict}
    (polled : receiver.poll poll = .ok (some message))
    (judged : (receiver.identified id).verdict message = verdict)
    (other : ∀ seqId, verdict ≠ .request seqId) :
    receiver.turns.step a ⟨id, ⟨poll, resend, stop⟩⟩ =
      some ⟨(execute a.received ⟨poll, resend, stop⟩ verdict).1,
        (execute a.received ⟨poll, resend, stop⟩ verdict).2, a.resent⟩ := by
  have nothing : (receiver.identified id).goesOut ⟨poll, resend, stop⟩ = none := by
    have polled : (receiver.identified id).poll poll = .ok (some message) := polled
    simp only [goesOut, asks, polled, judged]
    cases resend with
    | error failure => rfl
    | ok _ =>
      cases verdict with
      | request seqId => exact absurd rfl (other seqId)
      | _ => rfl
  rw [turns_of_verdict running polled, judged, nothing]
  rfl

/-- A request that goes out. -/
theorem turns_of_sent (running : a.flow = .running) {message : Message} {seqId : SequenceId}
    (polled : receiver.poll poll = .ok (some message))
    (judged : (receiver.identified id).verdict message = .request seqId) :
    receiver.turns.step a ⟨id, ⟨poll, .ok (), stop⟩⟩ =
      some ⟨a.received, checkStop ⟨poll, .ok (), stop⟩, seqId :: a.resent⟩ := by
  have out : (receiver.identified id).goesOut ⟨poll, .ok (), stop⟩ = some seqId := by
    have polled : (receiver.identified id).poll poll = .ok (some message) := polled
    simp only [goesOut, asks, polled, judged]
  rw [turns_of_verdict running polled, judged, out]
  rfl

/-- A request that cannot be sent ends the loop. -/
theorem turns_of_unsent (running : a.flow = .running) {message : Message} {seqId : SequenceId}
    {failure : Failure} (polled : receiver.poll poll = .ok (some message))
    (judged : (receiver.identified id).verdict message = .request seqId) :
    receiver.turns.step a ⟨id, ⟨poll, .error failure, stop⟩⟩ =
      some ⟨a.received, .threw failure, a.resent⟩ := by
  have nothing : (receiver.identified id).goesOut ⟨poll, .error failure, stop⟩ = none := rfl
  rw [turns_of_verdict running polled, judged, nothing]
  rfl

/-- On a connection that keeps its id the rounds are those of `ReceivePackets`. -/
theorem receivePackets_of_turns {b : Looping} {turns : List Turn}
    (fixed : ∀ turn ∈ turns, turn.connectionId = receiver.connectionId)
    (run : receiver.turns.exec a turns = some b) :
    receiver.loop.exec (a.received, a.flow) (turns.map Turn.round) =
      some (b.received, b.flow) := by
  induction turns generalizing a with
  | nil =>
    rw [StepSystem.exec_nil, Option.some_inj] at run
    exact run ▸ rfl
  | cons turn turns ih =>
    obtain ⟨next, moved, rest⟩ := Option.bind_eq_some_iff.mp run
    have same : receiver.identified turn.connectionId = receiver := by
      rw [fixed turn List.mem_cons_self]
      rfl
    have later := ih (fun turn listed => fixed turn (List.mem_cons_of_mem _ listed)) rest
    have moved : receiver.turns.step a turn = some next := moved
    simp only [Receiver.turns, same] at moved
    cases running : a.flow with
    | running =>
      simp only [running, Option.some_inj] at moved
      subst moved
      exact later
    | left | threw failure => simp only [running, reduceCtorEq] at moved

end Receiver

/-! ### Within a round -/

/-- The packet that `ReceivePackets` is asking for. -/
def ReceivePc.asking : ReceivePc → Option SequenceId
  | .requesting seqId => some seqId
  | .locking seqId _ => some seqId
  | .sending seqId _ _ => some seqId
  | _ => none

/-- How the loop has ended. -/
def Flow.ofEnd : Option Failure → Flow
  | none => .left
  | some failure => .threw failure

/-- Where `ReceivePackets` is since the whole rounds have left `a`: what it has stored
and asked for, its next block, and what it has polled in this round. -/
inductive InRound (receiver : Receiver) (a : Looping) :
    Received → List SequenceId → ReceivePc → Option Poll → Prop
  | polling (running : a.flow = .running) : InRound receiver a a.received a.resent .polling none
  | handling (poll : Poll) (message : Message) (running : a.flow = .running)
    (polled : receiver.poll poll = .ok (some message)) :
    InRound receiver a a.received a.resent (.handling message) poll
  | storing (poll : Poll) (message : Message) (packet : Packet) (id : ConnectionId)
    (running : a.flow = .running) (polled : receiver.poll poll = .ok (some message))
    (fixed : receiver.connectionId ≠ 0 → id = receiver.connectionId)
    (judged : (receiver.identified id).verdict message = .store packet) :
    InRound receiver a a.received a.resent (.storing packet) poll
  | marking (poll : Poll) (message : Message) (packet : Packet) (id : ConnectionId)
    (running : a.flow = .running) (polled : receiver.poll poll = .ok (some message))
    (fixed : receiver.connectionId ≠ 0 → id = receiver.connectionId)
    (judged : (receiver.identified id).verdict message = .store packet) :
    InRound receiver a
      { a.received with fileStream := (a.received.put packet).fileStream } a.resent
      (.marking packet) poll
  | asking (poll : Poll) (message : Message) (seqId : SequenceId) (id : ConnectionId)
    (pc : ReceivePc) (running : a.flow = .running)
    (polled : receiver.poll poll = .ok (some message))
    (fixed : receiver.connectionId ≠ 0 → id = receiver.connectionId)
    (judged : (receiver.identified id).verdict message = .request seqId)
    (located : pc.asking = some seqId) :
    InRound receiver a a.received a.resent pc poll
  | checking (poll : Poll) (resend : Except Failure Unit) (id : ConnectionId)
    (received : Received) (resent : List SequenceId)
    (fixed : receiver.connectionId ≠ 0 → id = receiver.connectionId)
    (done : ∀ stop, receiver.turns.step a ⟨id, ⟨poll, resend, stop⟩⟩ =
      some ⟨received, Receiver.checkStop ⟨poll, resend, stop⟩, resent⟩) :
    InRound receiver a received resent .checkStop poll
  | ended (failure : Option Failure) (finished : a.flow = .ofEnd failure) :
    InRound receiver a a.received a.resent (.ended failure) none

/-- A round that is asking for a packet has found it damaged, and stores nothing. -/
theorem InRound.of_asking {receiver : Receiver} {a : Looping} {received : Received}
    {resent : List SequenceId} {pc : ReceivePc} {pending : Option Poll} {seqId : SequenceId}
    (inRound : InRound receiver a received resent pc pending) (asks : pc.asking = some seqId) :
    received = a.received ∧ resent = a.resent ∧ a.flow = .running ∧ ∃ poll message id,
      pending = some poll ∧ receiver.poll poll = .ok (some message) ∧
        (receiver.connectionId ≠ 0 → id = receiver.connectionId) ∧
          (receiver.identified id).verdict message = .request seqId := by
  cases inRound with
  | asking poll message other id pc running polled fixed judged located =>
    obtain rfl := Option.some.inj (located.symm.trans asks)
    exact ⟨rfl, rfl, running, poll, message, id, rfl, polled, fixed, judged⟩
  | _ => cases asks

/-- What a block of `ReceivePackets` polls. -/
def TaskAnswer.polls : TaskAnswer → Option Poll
  | .polled poll => some poll
  | _ => none

theorem TaskAnswer.polls_eq_none {answer : TaskAnswer} (silent : ∀ poll, answer ≠ .polled poll) :
    answer.polls = none := by
  cases answer with
  | polled poll => exact absurd rfl (silent poll)
  | internal | sent result => rfl

def DownloadMove.polls {n : ℕ} : DownloadMove n → Option Poll
  | .task _ answer => answer.polls
  | _ => none

/-- The block behind a verdict. -/
def ReceivePc.ofVerdict : Verdict → ReceivePc
  | .skip => .polling
  | .unexpected => .checkStop
  | .store packet => .storing packet
  | .request seqId => .requesting seqId
  | .threw failure => .ended (some failure)

namespace Downloading

variable {n : ℕ} {receiver : Receiver} {version : Version} {s t : Downloading n}

/-! ### What the blocks do -/

/-- What a block of `ReceivePackets` does, by the block. -/
inductive Receives (receiver : Receiver) (s : Downloading n) :
    TaskAnswer → Downloading n → Prop
  | throws (poll : Poll) (failure : Failure) (located : s.task = .polling)
    (polled : receiver.poll poll = .error failure) :
    Receives receiver s (.polled poll) { s with task := .ended (some failure) }
  | passes (poll : Poll) (located : s.task = .polling) (polled : receiver.poll poll = .ok none) :
    Receives receiver s (.polled poll) { s with task := .checkStop }
  | hears (poll : Poll) (message : Message) (located : s.task = .polling)
    (polled : receiver.poll poll = .ok (some message)) :
    Receives receiver s (.polled poll) { s with task := .handling message }
  | judges (message : Message) (located : s.task = .handling message) :
    Receives receiver s .internal { s with
      task := .ofVerdict ((receiver.identified s.connectionId).verdict message) }
  | stores (packet : Packet) (located : s.task = .storing packet) :
    Receives receiver s .internal { s with
      received := { s.received with fileStream := (s.received.put packet).fileStream }
      task := .marking packet }
  | marks (packet : Packet) (located : s.task = .marking packet) :
    Receives receiver s .internal { s with
      received := { s.received with packetsReceived := (s.received.put packet).packetsReceived }
      task := .checkStop }
  | asks (seqId : SequenceId) (answer : TaskAnswer) (mutex : Option Side) (pc : ReceivePc)
    (located : s.task.asking = some seqId) (silent : ∀ poll, answer ≠ .polled poll)
    (asking : pc.asking = some seqId) :
    Receives receiver s answer { s with mutex := mutex, task := pc }
  | fails (seqId : SequenceId) (answer : TaskAnswer) (mutex : Option Side) (failure : Failure)
    (located : s.task.asking = some seqId) (silent : ∀ poll, answer ≠ .polled poll) :
    Receives receiver s answer { s with mutex := mutex, task := .ended (some failure) }
  | sent (seqId : SequenceId) (located : s.task.asking = some seqId) :
    Receives receiver s .internal { s with
      mutex := none
      task := .checkStop
      resent := seqId :: s.resent }
  | checks (located : s.task = .checkStop) :
    Receives receiver s .internal { s with task := if s.stop then .ended none else .polling }

theorem receives_of_receive {answer : TaskAnswer}
    (moved : s.receive receiver version answer = some t) : Receives receiver s answer t := by
  unfold Downloading.receive at moved
  split at moved
  case h_1 poll located =>
    split at moved
    case h_1 failure polled => exact Option.some.inj moved ▸ .throws poll failure located polled
    case h_2 polled => exact Option.some.inj moved ▸ .passes poll located polled
    case h_3 message polled => exact Option.some.inj moved ▸ .hears poll message located polled
  case h_2 message located =>
    have judges : Receives receiver s _ _ := .judges message located
    rw [Receiver.identified] at judges
    split at moved
    all_goals
      rename_i judged
      rw [judged] at judges
      exact Option.some.inj moved ▸ judges
  case h_3 packet located => exact Option.some.inj moved ▸ .stores packet located
  case h_4 packet located => exact Option.some.inj moved ▸ .marks packet located
  case h_5 seqId located =>
    split at moved
    case h_1 buffer _ =>
      exact Option.some.inj moved ▸
        .asks seqId _ s.mutex (.locking seqId buffer.cells) (by rw [located]; rfl) (by simp) rfl
    case h_2 failure _ =>
      exact Option.some.inj moved ▸
        .fails seqId _ s.mutex failure (by rw [located]; rfl) (by simp)
  case h_6 seqId frame located =>
    split_ifs at moved
    exact Option.some.inj moved ▸
      .asks seqId _ _ (.sending seqId frame 0) (by rw [located]; rfl) (by simp) rfl
  case h_7 seqId frame bytesSent _ located =>
    split_ifs at moved
    exact Option.some.inj moved ▸
      .asks seqId _ s.mutex (.sending seqId frame _) (by rw [located]; rfl) (by simp) rfl
  case h_8 seqId frame bytesSent _ located =>
    split_ifs at moved
    exact Option.some.inj moved ▸ .fails seqId _ _ _ (by rw [located]; rfl) (by simp)
  case h_9 seqId frame bytesSent located =>
    split_ifs at moved
    · exact Option.some.inj moved ▸ .fails seqId _ _ _ (by rw [located]; rfl) (by simp)
    · exact Option.some.inj moved ▸ .sent seqId (by rw [located]; rfl)
  case h_10 located => exact Option.some.inj moved ▸ .checks located
  case h_11 => cases moved

/-- What a block does to the round with this poll: the round goes on, or it is whole. -/
inductive Proceeds (receiver : Receiver) (a : Looping) (poll : Poll) (t : Downloading n) : Prop
  | goesOn (inRound : InRound receiver a t.received t.resent t.task poll)
  | completes (turn : Turn) (b : Looping) (polled : turn.round.poll = poll)
    (fixed : receiver.connectionId ≠ 0 → turn.connectionId = receiver.connectionId)
    (moved : receiver.turns.step a turn = some b)
    (inRound : InRound receiver b t.received t.resent t.task none)

/-- A block of `ReceivePackets` keeps its place within a round. The round has polled one
datagram by then, in this block or before. -/
theorem proceeds_of_receives {a : Looping} {pending : Option Poll} {answer : TaskAnswer}
    (inRound : InRound receiver a s.received s.resent s.task pending)
    (fixed : receiver.connectionId ≠ 0 → s.connectionId = receiver.connectionId)
    (moved : Receives receiver s answer t) :
    ∃ poll, pending.toList ++ answer.polls.toList = [poll] ∧ Proceeds receiver a poll t := by
  generalize received : s.received = now at inRound
  generalize requested : s.resent = resent at inRound
  cases moved with
  | throws poll failure located polled =>
    rw [located] at inRound
    cases inRound with
    | asking _ _ _ _ _ _ _ _ _ elsewhere => cases elsewhere
    | polling running =>
      refine ⟨poll, rfl, .completes ⟨s.connectionId, ⟨poll, .ok (), false⟩⟩ _ rfl fixed
        (Receiver.turns_of_error running polled) ?_⟩
      rw [received, requested]
      exact .ended (some failure) rfl
  | passes poll located polled =>
    rw [located] at inRound
    cases inRound with
    | asking _ _ _ _ _ _ _ _ _ elsewhere => cases elsewhere
    | polling running =>
      refine ⟨poll, rfl, .goesOn ?_⟩
      rw [received, requested]
      exact .checking poll (.ok ()) s.connectionId _ _ fixed fun stop =>
        Receiver.turns_of_quiet running polled
  | hears poll message located polled =>
    rw [located] at inRound
    cases inRound with
    | asking _ _ _ _ _ _ _ _ _ elsewhere => cases elsewhere
    | polling running =>
      refine ⟨poll, rfl, .goesOn ?_⟩
      rw [received, requested]
      exact .handling poll message running polled
  | judges message located =>
    rw [located] at inRound
    cases inRound with
    | asking _ _ _ _ _ _ _ _ _ elsewhere => cases elsewhere
    | handling poll message running polled =>
      refine ⟨poll, rfl, ?_⟩
      cases judged : (receiver.identified s.connectionId).verdict message with
      | skip =>
        refine .completes ⟨s.connectionId, ⟨poll, .ok (), false⟩⟩ _ rfl fixed
          (Receiver.turns_of_other running polled judged (by simp)) ?_
        rw [received, requested]
        exact .polling rfl
      | unexpected =>
        refine .goesOn ?_
        rw [received, requested]
        exact .checking poll (.ok ()) s.connectionId _ _ fixed fun stop =>
          Receiver.turns_of_other running polled judged (by simp)
      | store packet =>
        refine .goesOn ?_
        rw [received, requested]
        exact .storing poll message packet s.connectionId running polled fixed judged
      | request seqId =>
        refine .goesOn ?_
        rw [received, requested]
        exact .asking poll message seqId s.connectionId _ running polled fixed judged rfl
      | threw failure =>
        refine .completes ⟨s.connectionId, ⟨poll, .ok (), false⟩⟩ _ rfl fixed
          (Receiver.turns_of_other running polled judged (by simp)) ?_
        rw [received, requested]
        exact .ended (some failure) rfl
  | stores packet located =>
    rw [located] at inRound
    cases inRound with
    | asking _ _ _ _ _ _ _ _ _ elsewhere => cases elsewhere
    | storing poll message packet id running polled fixed judged =>
      refine ⟨poll, rfl, .goesOn ?_⟩
      rw [received, requested]
      exact .marking poll message packet id running polled fixed judged
  | marks packet located =>
    rw [located] at inRound
    cases inRound with
    | asking _ _ _ _ _ _ _ _ _ elsewhere => cases elsewhere
    | marking poll message packet id running polled fixed judged =>
      -- The file has been written before, and the table is written now.
      refine ⟨poll, rfl, .goesOn ?_⟩
      rw [received, requested]
      exact .checking poll (.ok ()) id _ _ fixed fun stop =>
        Receiver.turns_of_other running polled judged (by simp)
  | asks seqId answer mutex pc located silent asking =>
    obtain ⟨rfl, rfl, running, poll, message, id, rfl, polled, fixed, judged⟩ :=
      inRound.of_asking located
    refine ⟨poll, by rw [TaskAnswer.polls_eq_none silent]; rfl, .goesOn ?_⟩
    rw [received, requested]
    exact .asking poll message seqId id pc running polled fixed judged asking
  | fails seqId answer mutex failure located silent =>
    obtain ⟨rfl, rfl, running, poll, message, id, rfl, polled, fixed, judged⟩ :=
      inRound.of_asking located
    refine ⟨poll, by rw [TaskAnswer.polls_eq_none silent]; rfl,
      .completes ⟨id, ⟨poll, .error failure, false⟩⟩ _ rfl fixed
        (Receiver.turns_of_unsent running polled judged) ?_⟩
    rw [received, requested]
    exact .ended (some failure) rfl
  | sent seqId located =>
    obtain ⟨rfl, rfl, running, poll, message, id, rfl, polled, fixed, judged⟩ :=
      inRound.of_asking located
    refine ⟨poll, rfl, .goesOn ?_⟩
    rw [received, requested]
    exact .checking poll (.ok ()) id _ _ fixed fun stop =>
      Receiver.turns_of_sent running polled judged
  | checks located =>
    rw [located] at inRound
    cases inRound with
    | asking _ _ _ _ _ _ _ _ _ elsewhere => cases elsewhere
    | checking poll resend id now resent fixed done =>
      refine ⟨poll, rfl, .completes ⟨id, ⟨poll, resend, s.stop⟩⟩ _ rfl fixed (done s.stop) ?_⟩
      rw [received, requested]
      cases s.stop with
      | true => exact .ended none rfl
      | false => exact .polling rfl

/-- The fields that only `ReceivePackets` changes. -/
structure Untouched (s t : Downloading n) : Prop where
  received : t.received = s.received
  resent : t.resent = s.resent
  task : t.task = s.task

theorem untouched_throws (s : Downloading n) (failure : Failure) :
    Untouched s (s.throws failure) ∧ (s.throws failure).connectionId = s.connectionId := by
  rcases throws_cases s failure with ⟨what, -, same⟩ | same
  all_goals
    rw [same]
    exact ⟨⟨rfl, rfl, rfl⟩, rfl⟩

theorem untouched_of_downloads (moved : Downloads s t) :
    Untouched s t ∧ t.connectionId = s.connectionId := by
  cases moved with
  | refused failure => exact untouched_throws s failure
  | fails receiving failure bytes =>
    obtain ⟨⟨received, resent, task⟩, same⟩ :=
      untouched_throws { s with mutex := none, buffered := bytes } failure
    exact ⟨⟨received, resent, task⟩, same⟩
  | _ => exact ⟨⟨rfl, rfl, rfl⟩, rfl⟩

/-- A connection that has an id keeps it. -/
theorem connectionId_of_step {id : ConnectionId} {move : DownloadMove n} (identified : id ≠ 0)
    (before : s.connectionId = id) (moved : (system receiver version).step s move = some t) :
    t.connectionId = id := by
  cases moves_of_step moved with
  | download _ next => exact (untouched_of_downloads next).2.trans before
  | undecodable failure => exact (untouched_throws s failure).2.trans before
  | worker | arrives | breaksDown => exact before
  | handles message next located =>
    have moved : s.decoded (.ok message) = _ := moved
    unfold Downloading.decoded at moved
    rw [located] at moved
    have same := congrArg Downloading.connectionId (Option.some.inj moved)
    rw [← before] at identified ⊢
    exact same.symm.trans (if_neg identified)
  | task w answer _ running received =>
    rw [← before]
    cases receives_of_receive received <;> rfl

/-! ### Runs -/

/-- What a run has received is what whole rounds on the datagrams it has polled leave,
with the one round it is in. -/
def Follows (receiver : Receiver) (moves : List (DownloadMove n)) (s : Downloading n) : Prop :=
  (receiver.connectionId ≠ 0 → s.connectionId = receiver.connectionId) ∧
    ∃ turns a pending,
      receiver.turns.exec ⟨.start receiver.packetCount, .running, []⟩ turns = some a ∧
        moves.filterMap DownloadMove.polls =
          turns.map (fun turn => turn.round.poll) ++ pending.toList ∧
        InRound receiver a s.received s.resent s.task pending ∧
          (receiver.connectionId ≠ 0 → ∀ turn ∈ turns, turn.connectionId = receiver.connectionId)

theorem follows_start (receiver : Receiver) (working : UInt64) :
    Follows receiver [] (start receiver working : Downloading n) := by
  refine ⟨fun _ => rfl, [], _, none, rfl, rfl, .polling rfl, ?_⟩
  intro _ turn listed
  exact absurd listed List.not_mem_nil

theorem Follows.step {moves : List (DownloadMove n)} {move : DownloadMove n}
    (follows : Follows receiver moves s)
    (moved : (system receiver version).step s move = some t) :
    Follows receiver (moves ++ [move]) t := by
  obtain ⟨fixed, turns, a, pending, run, polled, inRound, ids⟩ := follows
  refine ⟨fun identified => connectionId_of_step identified (fixed identified) moved, ?_⟩
  rw [List.filterMap_append, polled]
  -- A block of anybody else leaves the round where it is.
  have others (silent : move.polls = none) (untouched : Untouched s t) :
      ∃ turns' a' pending',
        receiver.turns.exec ⟨.start receiver.packetCount, .running, []⟩ turns' = some a' ∧
          turns.map (fun turn => turn.round.poll) ++ pending.toList ++
              [move].filterMap DownloadMove.polls =
            turns'.map (fun turn => turn.round.poll) ++ pending'.toList ∧
          InRound receiver a' t.received t.resent t.task pending' ∧
            (receiver.connectionId ≠ 0 →
              ∀ turn ∈ turns', turn.connectionId = receiver.connectionId) := by
    refine ⟨turns, a, pending, run, ?_, ?_, ids⟩
    · rw [List.filterMap_cons_none silent, List.filterMap_nil, List.append_nil]
    · rw [untouched.received, untouched.resent, untouched.task]
      exact inRound
  cases moves_of_step moved with
  | download _ next => exact others rfl (untouched_of_downloads next).1
  | undecodable failure => exact others rfl (untouched_throws s failure).1
  | handles | worker | arrives | breaksDown => exact others rfl ⟨rfl, rfl, rfl⟩
  | task w answer _ running received =>
    obtain ⟨poll, latest, proceeds⟩ := proceeds_of_receives inRound fixed (receives_of_receive received)
    have latest : pending.toList ++ [DownloadMove.task w answer].filterMap DownloadMove.polls =
        [poll] := by
      rw [← latest, List.filterMap_cons, List.filterMap_nil]
      rw [DownloadMove.polls]
      cases answer.polls <;> rfl
    rw [List.append_assoc, latest]
    cases proceeds with
    | goesOn inRound => exact ⟨turns, a, poll, run, rfl, inRound, ids⟩
    | completes turn b same known whole inRound =>
      refine ⟨turns ++ [turn], b, none, StepSystem.exec_snoc_eq_some.mpr ⟨a, run, whole⟩, ?_,
        inRound, fun identified other listed => ?_⟩
      · rw [List.map_append, List.map_singleton, same, Option.toList_none, List.append_nil]
      · rcases List.mem_append.mp listed with before | last
        · exact ids identified other before
        · exact List.mem_singleton.mp last ▸ known identified

theorem follows_of_exec {working : UInt64} {moves : List (DownloadMove n)}
    (run : (system receiver version).exec (start receiver working) moves = some s) :
    Follows receiver moves s := by
  refine StepSystem.exec_induction (follows_start receiver working) ?_ run
  intro moves s move t _ follows moved
  exact follows.step moved

/-- A run of a download and the whole rounds it amounts to. They have polled what the
run has polled, up to a round that is not over, and on a connection with an id they are
those of `ReceivePackets`. -/
structure Refines (receiver : Receiver) (moves : List (DownloadMove n)) (s : Downloading n)
    (turns : List Turn) (a : Looping) : Prop where
  run : receiver.turns.exec ⟨.start receiver.packetCount, .running, []⟩ turns = some a
  polled : ∃ pending, moves.filterMap DownloadMove.polls =
      turns.map (fun turn => turn.round.poll) ++ pending.toList ∧
    InRound receiver a s.received s.resent s.task pending
  whole : receiver.connectionId ≠ 0 →
    receiver.receivePackets (.start receiver.packetCount) (turns.map Turn.round) =
      (a.received, a.flow)

/-- In a download `ReceivePackets` does what its loop does in whole rounds. -/
theorem refines_of_exec {working : UInt64} {moves : List (DownloadMove n)}
    (run : (system receiver version).exec (start receiver working) moves = some s) :
    ∃ turns a, Refines receiver moves s turns a := by
  obtain ⟨-, turns, a, pending, whole, polled, inRound, ids⟩ := follows_of_exec run
  refine ⟨turns, a, whole, ⟨pending, polled, inRound⟩, fun identified => ?_⟩
  have loop := Receiver.receivePackets_of_turns (ids identified) whole
  exact Receiver.receivePackets_of_exec _ loop

/-- A packet is in the file and not in the table, with `Download` in `recv`. -/
def halfStored : List (DownloadMove 1) :=
  [.download, .worker onlyWorker, .task onlyWorker (.polled (.datagram Receiver.twoBytes)),
    .task onlyWorker .internal, .download, .task onlyWorker .internal]

theorem exec_halfStored :
    ((system Receiver.twoBytesReceiver 1).exec (start Receiver.twoBytesReceiver 0)
      halfStored).isSome := by decide +kernel

/-- The theorem for this run. -/
theorem refines_halfStored :
    ∃ s turns a, (system Receiver.twoBytesReceiver 1).exec (start Receiver.twoBytesReceiver 0)
        halfStored = some s ∧ Refines Receiver.twoBytesReceiver halfStored s turns a := by
  obtain ⟨s, run⟩ := Option.isSome_iff_exists.mp exec_halfStored
  obtain ⟨turns, a, refines⟩ := refines_of_exec run
  exact ⟨s, turns, a, run, refines⟩

end Downloading

end Fup.Client
