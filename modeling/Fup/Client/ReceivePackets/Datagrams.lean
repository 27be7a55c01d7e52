/-
# What a datagram does to the loop

`ReceivePackets` has no handler around its calls, so an exception of the decoder
leaves the loop like one of `select`. A message that decodes is judged by its
fields, and only a RESEND that cannot be sent ends the loop then. The loop
outlives a datagram exactly when the datagram is well formed and such a RESEND,
if it needs one, goes out.
-/

import Fup.Client.ReceivePackets
import Fup.Lib.StepSystem
import Fup.Message.WellFormed

namespace Fup.Client

/-! ### Verdicts -/

/-- What the branches of the loop make of a message. -/
inductive Verdict
  /-- Back to the head of the loop, past the check of the stop signal. -/
  | skip
  | unexpected
  | store (packet : Packet)
  | request (seqId : SequenceId)
  | threw (failure : Failure)
  deriving DecidableEq

namespace Receiver

variable (receiver : Receiver)

/-- The head of the loop: `select`, and `Receive` if the socket is readable. -/
def poll (poll : Poll) : Except Failure (Option Message) :=
  match poll with
  | .selectFailed errno => .error (.exception ("Error in select: " ++ errno ++ "\n"))
  | .quiet => .ok none
  | .recvFailed errno =>
    .error (.exception ("Socket::Receive: An error occured while receiving UDP message: " ++ errno))
  | .datagram bytes => (UdpWrapper.receive receiver.order bytes).map some

/-- The branches on a message. -/
def verdict (message : Message) : Verdict :=
  if message.header.connectionId ≠ receiver.connectionId then .skip
  else if message.header.keyword = .packet then
    match message.body with
    | some (.packet packet) =>
      if packet.seqId ≥ receiver.packetCount.toUInt64 then .skip
      else if validateChecksum receiver.crc32 packet.payload packet.checksum then .store packet
      else .request packet.seqId
    | none => .threw .nullPointer
    | some _ => .threw .outOfBounds
  else .unexpected

/-- What the round does after a verdict. -/
def execute (state : Received) (round : Round) : Verdict → Received × Flow
  | .skip => (state, .running)
  | .unexpected => (state, checkStop round)
  | .store packet => (state.put packet, checkStop round)
  | .request _ =>
    match round.resend with
    | .error failure => (state, .threw failure)
    | .ok () => (state, checkStop round)
  | .threw failure => (state, .threw failure)

/-- A round is its head and the verdict on what it has received. -/
theorem loopBody_eq_poll (state : Received) (round : Round) :
    receiver.loopBody state round =
      match receiver.poll round.poll with
      | .error failure => (state, .threw failure)
      | .ok none => (state, checkStop round)
      | .ok (some message) => execute state round (receiver.verdict message) := by
  rw [loopBody]
  cases round.poll with
  | datagram bytes =>
    dsimp only [poll]
    cases UdpWrapper.receive receiver.order bytes with
    | error failure => rfl
    | ok message =>
      dsimp only [Except.map, verdict]
      -- Both sides ask the same questions in the same order.
      cases message.body with
      | none => split_ifs <;> rfl
      | some body =>
        cases body with
        | packet packet =>
          dsimp only
          split_ifs <;> rfl
        | _ => split_ifs <;> rfl
  | _ => rfl

end Receiver

/-! ### One datagram -/

/-- The loop goes on after the round, or ends because of the stop signal. -/
def Flow.GoesOn (flow : Flow) (round : Round) : Prop :=
  flow = .running ∨ flow = .left ∧ round.stop = true

theorem Receiver.goesOn_checkStop (round : Round) : (Receiver.checkStop round).GoesOn round := by
  rw [Receiver.checkStop]
  split_ifs with stopped
  · exact Or.inr ⟨rfl, stopped⟩
  · exact Or.inl rfl

theorem Flow.not_goesOn_threw (failure : Failure) (round : Round) :
    ¬ (Flow.threw failure).GoesOn round := by
  rintro (impossible | ⟨impossible, -⟩) <;> cases impossible

namespace Receiver

variable (receiver : Receiver)

/-- The data is a packet of this transfer whose payload does not have the
checksum it comes with. -/
def Damaged (data : List Byte) : Prop :=
  let header := Header.read receiver.order data
  let packet := Packet.read receiver.order (data.drop Header.size)
  header.connectionId = receiver.connectionId ∧ header.keyword = .packet ∧
    packet.seqId.toNat < receiver.packetCount.toNat ∧
      receiver.crc32 packet.payload ≠ packet.checksum

/-- A datagram in this round is well formed, and a RESEND goes out if the packet
in it is damaged. -/
def Tolerable (round : Round) : Prop :=
  ∀ bytes, round.poll = .datagram bytes → bytes.length ≤ packetMessageSize →
    Message.WellFormed receiver.order bytes ∧ (receiver.Damaged bytes → round.resend = .ok ())

/-- A datagram in this round changes nothing unless its packet is accepted, and
the loop goes on after it. -/
def Withstands (s : Received × Flow) (round : Round) : Prop :=
  ∀ bytes, round.poll = .datagram bytes → bytes.length ≤ packetMessageSize →
    (receiver.accepted? round.poll = none → (receiver.loopBody s.1 round).1 = s.1) ∧
      (receiver.loopBody s.1 round).2.GoesOn round

section Decoded

variable {data : List Byte} {message : Message}
  (decoded : Message.ofData receiver.order data = .ok message)

include decoded

/-- A decoded message is a RESEND's cause exactly when its data is damaged. -/
theorem request_iff :
    (∃ seqId, receiver.verdict message = .request seqId) ↔ receiver.Damaged data := by
  obtain ⟨-, header, -⟩ := Message.ofData_eq_ok decoded
  rw [verdict, Damaged]
  split_ifs with foreign kind
  · exact iff_of_false (by simp) fun damaged => foreign (header ▸ damaged.1)
  · rw [Message.body_of_ofData decoded kind]
    have guard := receiver.seqId_guard (Packet.read receiver.order (data.drop Header.size))
    dsimp only
    rw [header, not_not] at foreign
    rw [header] at kind
    split_ifs with outside valid
    · exact iff_of_false (by simp) fun damaged => guard.mp outside damaged.2.2.1
    · exact iff_of_false (by simp) fun damaged => damaged.2.2.2 (beq_iff_eq.mp valid)
    · refine iff_of_true ⟨_, rfl⟩ ⟨foreign, kind, not_not.mp (mt guard.mpr outside), ?_⟩
      exact fun same => valid (beq_iff_eq.mpr same)
  · exact iff_of_false (by simp) fun damaged => kind (header ▸ damaged.2.1)

/-- The branches for a body of another kind are out of reach. -/
theorem verdict_ne_threw (failure : Failure) : receiver.verdict message ≠ .threw failure := by
  rw [verdict]
  split_ifs with foreign kind
  · simp
  · rw [Message.body_of_ofData decoded kind]
    dsimp only
    split_ifs <;> simp
  · simp

end Decoded

/-- The loop goes on after a datagram exactly when the round is tolerable. -/
theorem goesOn_iff (state : Received) {round : Round} {bytes : List Byte}
    (polled : round.poll = .datagram bytes) (short : bytes.length ≤ packetMessageSize) :
    (receiver.loopBody state round).2.GoesOn round ↔
      Message.WellFormed receiver.order bytes ∧
        (receiver.Damaged bytes → round.resend = .ok ()) := by
  have whole := UdpWrapper.returns_receive_iff receiver.order bytes
  rw [List.take_of_length_le short] at whole
  rw [← whole]
  cases received : UdpWrapper.receive receiver.order bytes with
  | error failure =>
    rw [loopBody_eq_poll, polled, poll, received]
    exact iff_of_false (Flow.not_goesOn_threw failure round)
      fun tolerable => not_returns_error failure tolerable.1
  | ok message =>
    -- A message was decoded, and the verdict on it decides.
    have decoded := UdpWrapper.ofData_of_receive received
    rw [List.take_of_length_le short] at decoded
    have requests := receiver.request_iff decoded
    rw [loopBody_eq_poll, polled, poll, received, ← requests, and_iff_right (returns_ok message)]
    dsimp only [Except.map]
    cases judged : receiver.verdict message with
    | threw failure => exact absurd judged (receiver.verdict_ne_threw decoded failure)
    | skip => exact iff_of_true (Or.inl rfl) (by simp)
    | unexpected => exact iff_of_true (goesOn_checkStop round) (by simp)
    | store packet => exact iff_of_true (goesOn_checkStop round) (by simp)
    | request seqId =>
      rw [execute]
      -- The RESEND may fail, and then the exception leaves the loop.
      cases round.resend with
      | ok _ => exact iff_of_true (goesOn_checkStop round) fun _ => rfl
      | error failure =>
        refine iff_of_false (Flow.not_goesOn_threw failure round) fun sent => ?_
        cases sent ⟨seqId, rfl⟩

/-- A datagram that is not accepted changes nothing anyway. -/
theorem withstands_iff (s : Received × Flow) (round : Round) :
    receiver.Withstands s round ↔ receiver.Tolerable round := by
  refine forall_congr' fun bytes => forall_congr' fun polled => forall_congr' fun short => ?_
  rw [goesOn_iff receiver s.1 polled short, and_iff_right_iff_imp]
  intro _ rejected
  rw [loopBody_eq, rejected, Option.elim_none]

/-! ### Runs -/

/-- The loop as a step system: what it has received, and how it goes on. -/
def loop : StepSystem (Received × Flow) Round where
  init s := s = (Received.start receiver.packetCount, .running)
  step s round :=
    match s.2 with
    | .running => some (receiver.loopBody s.1 round)
    | _ => none

/-- The rounds the loop executes are those of `ReceivePackets`. -/
theorem receivePackets_of_exec {state : Received} {rounds : List Round} {last : Received × Flow}
    (run : receiver.loop.exec (state, .running) rounds = some last) :
    receiver.receivePackets state rounds = last := by
  induction rounds generalizing state with
  | nil => exact Option.some.inj run
  | cons round rounds ih =>
    have run : receiver.loop.exec (receiver.loopBody state round) rounds = some last := run
    rw [receivePackets]
    generalize receiver.loopBody state round = after at run ⊢
    rcases after with ⟨next, running | left | failure⟩
    · exact ih run
    -- The loop has ended, so this was the last round.
    · cases rounds with
      | nil => exact Option.some.inj run
      | cons _ _ => cases run
    · cases rounds with
      | nil => exact Option.some.inj run
      | cons _ _ => cases run

/-- A run withstands its datagrams exactly when all of its rounds are tolerable. -/
theorem within_withstands_iff {rounds : List Round} {last : Received × Flow}
    (run : receiver.loop.exec (Received.start receiver.packetCount, .running) rounds =
      some last) :
    receiver.loop.Within receiver.Withstands (Received.start receiver.packetCount, .running)
        rounds ↔
      ∀ round ∈ rounds, receiver.Tolerable round := by
  rw [← StepSystem.within_label_iff run]
  simp only [StepSystem.Within, withstands_iff]

/-- A datagram with a packet, for the theorem. -/
theorem within_withstands_twoBytes :
    twoBytesReceiver.loop.Within twoBytesReceiver.Withstands (Received.start 1, .running)
      [⟨.datagram twoBytes, .ok (), false⟩] := by
  have run : twoBytesReceiver.loop.exec (Received.start 1, .running)
      [⟨.datagram twoBytes, .ok (), false⟩] =
        some (twoBytesReceiver.loopBody (Received.start 1) ⟨.datagram twoBytes, .ok (), false⟩) :=
    rfl
  refine (twoBytesReceiver.within_withstands_iff run).mpr fun round listed bytes polled _ => ?_
  obtain rfl := List.mem_singleton.mp listed
  obtain rfl := Poll.datagram.inj polled
  exact ⟨⟨by decide, by decide, by decide⟩, fun _ => rfl⟩

/-- The empty datagram ends the loop. -/
theorem not_within_withstands_empty :
    ¬ twoBytesReceiver.loop.Within twoBytesReceiver.Withstands (Received.start 1, .running)
      [⟨.datagram [], .ok (), false⟩] := by
  intro within
  have stands := within [] _ List.prefix_rfl _ rfl [] rfl (by decide)
  exact Flow.not_goesOn_threw _ _ stands.2

end Receiver

end Fup.Client
