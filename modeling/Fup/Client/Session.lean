/-
# Both ends of a transfer

The workers of an upload send datagrams, and `ReceivePackets` polls a socket on the
other host. The network in between may lose a datagram, deliver it late or often, and
deliver strays in between. What the receiving end finds damaged it asks for again over
the TCP connection, whose bytes go to the listener of the upload in whatever pieces
they arrive. Every block of a worker, of the listener and of the receiving end is a
step, and so is each `recv` of the listener.
-/

import Fup.Client.ReceivePackets.Datagrams
import Fup.Client.Transfer
import Fup.Client.Transmission
import Fup.TcpSend

namespace Fup.Client

open TcpWrapper (Receiving)

/-- Two hosts and a file that one of them sends to the other. -/
structure Ends where
  senderOrder : ByteOrder
  receiverOrder : ByteOrder
  crc32 : List Byte → Checksum
  version : Version
  connectionId : ConnectionId
  file : List Byte
  packetCount : PacketCount
  nonempty : 1 ≤ file.length
  describable : file.length ≤ maxFileSize
  counted : calculateTotalPacketCount (UInt64.ofNat file.length) = .ok packetCount

namespace Ends

variable (ends : Ends)

/-- The transfer of the file with every packet delivered once, in order. -/
def transfer : Transfer where
  senderOrder := ends.senderOrder
  receiverOrder := ends.receiverOrder
  crc32 := ends.crc32
  version := ends.version
  connectionId := ends.connectionId
  file := ends.file
  packetCount := ends.packetCount
  delivery := List.range ends.packetCount.toNat
  nonempty := ends.nonempty
  describable := ends.describable
  counted := ends.counted
  complete _ := List.mem_range

def sender : Sender := ends.transfer.sender

def receiver : Receiver := ends.transfer.receiver

/-- What a call passes to the socket, when it can make the vector. -/
def passed : Except Failure (Buffer Byte) → List Byte
  | .ok buffer => buffer.cells
  | .error _ => []

/-- The bytes that `RequestResend` passes to the socket. -/
def request (seqId : SequenceId) : List Byte :=
  passed do
    let resendMessage ← Message.ofBody ⟨ends.version, ends.connectionId, .resend, 0⟩
      (some (.resend ⟨seqId⟩))
    TcpWrapper.frame ends.receiverOrder ends.connectionId resendMessage

/-- The bytes of an answer without a body, such as an ACK or an ABORT. -/
def answer (keyword : Keyword) : List Byte :=
  passed (TcpWrapper.frame ends.receiverOrder ends.connectionId
    ⟨⟨ends.version, ends.connectionId, keyword, 0⟩, some .base⟩)

/-- The packet that `ReceivePackets` asks for again in a round. -/
def asks (round : Round) : Option SequenceId :=
  match ends.receiver.poll round.poll with
  | .ok (some message) =>
    match ends.receiver.verdict message with
    | .request seqId => some seqId
    | _ => none
  | _ => none

/-- The data of a send. -/
def datagram : Event → Option (List Byte)
  | .send i packet => some (passed (ends.sender.datagram i packet.payload))
  | .resend _ => none

/-- A datagram that does not pass for a packet of this connection. -/
def Stray (bytes : List Byte) : Prop :=
  Header.size ≤ bytes.length →
    (Header.read ends.receiverOrder bytes).connectionId ≠ ends.connectionId ∨
      (Header.read ends.receiverOrder bytes).keyword ≠ .packet

instance (bytes : List Byte) : Decidable (ends.Stray bytes) :=
  inferInstanceAs (Decidable (_ → _ ∨ _))

end Ends

/-- Both ends, the bytes of the TCP connection on their way to the listener and those
in its socket, the locals of a call of `Receive` with the bytes it has consumed, the
RESENDs that went out, and whether a send on the connection has failed. -/
structure Session (ι : Type) where
  transmission : Transmission ι
  received : Received
  flow : Flow
  inFlight : List Byte
  buffered : List Byte
  current : Option (Receiving × List Byte)
  requested : List SequenceId
  broken : Bool

/-- Who moves. -/
inductive SessionMove (ι : Type)
  | transmit (w : ι) (sendFault : Option Failure)
  /-- A block of the listener outside `Receive`. -/
  | listen (answer : Answer)
  /-- The listener finds its socket readable and calls `Receive`. -/
  | receive
  | recv
  /-- The end of `Receive`, behind its loops. -/
  | decode
  /-- The network brings the listener some bytes. -/
  | arrive (k : ℕ)
  /-- A round of `ReceivePackets`, with what gets onto the connection of a RESEND that
  fails. -/
  | poll (round : Round) (written : ℕ)
  /-- The receiving host sends an answer without a body. -/
  | reply (keyword : Keyword)

namespace Session

variable {ι : Type}

/-! ### Steps -/

section Steps

variable (ends : Ends) (s : Session ι)

/-- What the network may deliver. -/
def network : List (List Byte) := s.transmission.history.filterMap ends.datagram

/-- A round polls what the network may deliver, or a stray. -/
def Delivers (round : Round) : Prop :=
  match round.poll with
  | .datagram bytes => bytes ∈ s.network ends ∨ ends.Stray bytes
  | _ => True

instance (round : Round) : Decidable (s.Delivers ends round) := by
  unfold Delivers
  split <;> infer_instance

/-- A round of `ReceivePackets`. A RESEND that fails leaves a part of itself on the
connection, and nothing is sent there any more. -/
def poll (round : Round) (written : ℕ) : Option (Session ι) :=
  match s.flow with
  | .running =>
    if s.Delivers ends round then
      let after := ends.receiver.loopBody s.received round
      let next := { s with received := after.1, flow := after.2 }
      match ends.asks round, round.resend with
      | none, _ => some next
      | some seqId, .ok () =>
        if s.broken then none
        else some { next with
          inFlight := s.inFlight ++ ends.request seqId
          requested := s.requested ++ [seqId] }
      | some seqId, .error _ =>
        some { next with
          inFlight := if s.broken then s.inFlight
            else s.inFlight ++ (ends.request seqId).take written
          broken := true }
    else none
  | _ => none

/-- The receiving host sends an answer. -/
def reply (keyword : Keyword) : Option (Session ι) :=
  if s.broken then none else some { s with inFlight := s.inFlight ++ ends.answer keyword }

/-- The network makes the next bytes of the connection available. -/
def arrive (k : ℕ) : Option (Session ι) :=
  if 0 < k ∧ k ≤ s.inFlight.length then
    some { s with
      inFlight := s.inFlight.drop k
      buffered := s.buffered ++ s.inFlight.take k }
  else none

/-- A block of the listener outside `Receive`. While its socket is readable `select`
does not time out. -/
def listen (answer : Answer) : Option (Session ι) :=
  match s.current, answer with
  | some _, _ => none
  | none, .received _ => none
  | none, .quiet =>
    if s.buffered = [] then
      (s.transmission.listen .quiet).map fun transmission => { s with transmission := transmission }
    else none
  | none, answer =>
    (s.transmission.listen answer).map fun transmission => { s with transmission := transmission }

/-- `select` reports the socket readable, and `Receive` is called. -/
def receive : Option (Session ι) :=
  match s.current, s.transmission.listener with
  | none, .selecting =>
    if s.buffered = [] then none else some { s with current := some (.start, []) }
  | _, _ => none

/-- `Receive` returns to the listener or throws. -/
def heard (outcome : Except Failure Message) : Option (Session ι) :=
  (s.transmission.listen (.received outcome)).map fun transmission =>
    { s with transmission := transmission, current := none }

/-- The next `recv` of the listener, on a socket that does not block. -/
def recv : Option (Session ι) :=
  match s.current with
  | none => none
  | some (receiving, consumed) =>
    if receiving.wants = 0 then none
    else if s.buffered = [] then s.heard (.error (receiving.failed ListenResend.wouldBlock))
    else
      let chunk := receiving.recv s.buffered
      let rest := { s with buffered := s.buffered.drop chunk.length }
      match receiving.take ends.senderOrder chunk with
      | .error failure => rest.heard (.error failure)
      | .ok next => some { rest with current := some (next, consumed ++ chunk) }

/-- `Receive` decodes what it has read. -/
def decode : Option (Session ι) :=
  match s.current with
  | none => none
  | some (receiving, _) => (receiving.result ends.senderOrder).bind s.heard

end Steps

/-- Nothing is sent yet. -/
def start (ends : Ends) : Session ι where
  transmission := .start ends.file ends.packetCount.toNat
  received := .start ends.packetCount
  flow := .running
  inFlight := []
  buffered := []
  current := none
  requested := []
  broken := false

variable [DecidableEq ι]

/-- All interleavings of the two ends, under every behaviour of the network. -/
def system (ends : Ends) : StepSystem (Session ι) (SessionMove ι) where
  init s := s = start ends
  step s move :=
    match move with
    | .transmit w sendFault =>
      (s.transmission.transmit ends.sender w sendFault).map fun transmission =>
        { s with transmission := transmission }
    | .listen answer => s.listen answer
    | .receive => s.receive
    | .recv => s.recv ends
    | .decode => s.decode ends
    | .arrive k => s.arrive k
    | .poll round written => s.poll ends round written
    | .reply keyword => s.reply ends keyword

/-! ### What a step does -/

/-- What a round does: it asks for nothing, or its RESEND goes out, or that fails. -/
inductive Polls (ends : Ends) (s : Session ι) (round : Round) : Session ι → Prop
  | keeps (nothing : ends.asks round = none) :
    Polls ends s round { s with
      received := (ends.receiver.loopBody s.received round).1
      flow := (ends.receiver.loopBody s.received round).2 }
  | asks (seqId : SequenceId) (damaged : ends.asks round = some seqId)
    (sound : s.broken = false) :
    Polls ends s round { s with
      received := (ends.receiver.loopBody s.received round).1
      flow := (ends.receiver.loopBody s.received round).2
      inFlight := s.inFlight ++ ends.request seqId
      requested := s.requested ++ [seqId] }
  | fails (seqId : SequenceId) (bytes : List Byte) (damaged : ends.asks round = some seqId)
    (part : bytes <+: if s.broken then [] else ends.request seqId) :
    Polls ends s round { s with
      received := (ends.receiver.loopBody s.received round).1
      flow := (ends.receiver.loopBody s.received round).2
      inFlight := s.inFlight ++ bytes
      broken := true }

omit [DecidableEq ι] in
theorem polls_of_poll {ends : Ends} {s t : Session ι} {round : Round} {written : ℕ}
    (moved : s.poll ends round written = some t) :
    s.Delivers ends round ∧ Polls ends s round t := by
  unfold poll at moved
  split at moved
  case h_2 => cases moved
  case h_1 running =>
    by_cases delivers : s.Delivers ends round
    · rw [if_pos delivers] at moved
      refine ⟨delivers, ?_⟩
      split at moved
      case h_1 nothing => exact Option.some.inj moved ▸ .keeps nothing
      case h_2 seqId damaged sent =>
        by_cases broken : s.broken = true
        · rw [if_pos broken] at moved
          cases moved
        · rw [if_neg broken] at moved
          exact Option.some.inj moved ▸ .asks seqId damaged (Bool.eq_false_iff.mpr broken)
      case h_3 seqId failure damaged failed =>
        -- What is written is a part of the RESEND, and nothing on a broken connection.
        by_cases broken : s.broken = true
        · simp only [if_pos broken] at moved
          have next : Polls ends s round _ := .fails seqId [] damaged List.nil_prefix
          rw [List.append_nil] at next
          exact Option.some.inj moved ▸ next
        · simp only [if_neg broken] at moved
          refine Option.some.inj moved ▸ .fails seqId _ damaged ?_
          rw [if_neg broken]
          exact List.take_prefix written _
    · rw [if_neg delivers] at moved
      cases moved

omit [DecidableEq ι] in
theorem heard_eq_some {s t : Session ι} {outcome : Except Failure Message}
    (moved : s.heard outcome = some t) :
    ∃ transmission, s.transmission.listen (.received outcome) = some transmission ∧
      t = { s with transmission := transmission, current := none } := by
  obtain ⟨transmission, heard, rfl⟩ := Option.map_eq_some_iff.mp moved
  exact ⟨transmission, heard, rfl⟩

omit [DecidableEq ι] in
/-- Outside `Receive` the listener hears nothing. -/
theorem listen_eq_some {s t : Session ι} {answer : Answer} (moved : s.listen answer = some t) :
    s.current = none ∧ (∀ outcome, answer ≠ .received outcome) ∧
      ∃ transmission, s.transmission.listen answer = some transmission ∧
        t = { s with transmission := transmission } := by
  unfold listen at moved
  split at moved
  case h_1 => cases moved
  case h_2 => cases moved
  case h_3 idle =>
    split_ifs at moved
    obtain ⟨transmission, heard, rfl⟩ := Option.map_eq_some_iff.mp moved
    exact ⟨idle, fun outcome => Answer.noConfusion, transmission, heard, rfl⟩
  case h_4 idle other _ =>
    obtain ⟨transmission, heard, rfl⟩ := Option.map_eq_some_iff.mp moved
    exact ⟨idle, other, transmission, heard, rfl⟩

/-- What a step does, by who takes it. A `recv` that throws is heard by the listener
like the end of `Receive`. -/
inductive Moves (ends : Ends) (s : Session ι) : Session ι → Prop
  | transmits (w : ι) (sendFault : Option Failure) (transmission : Transmission ι)
    (sent : s.transmission.transmit ends.sender w sendFault = some transmission) :
    Moves ends s { s with transmission := transmission }
  | listens (answer : Answer) (transmission : Transmission ι) (idle : s.current = none)
    (other : ∀ outcome, answer ≠ .received outcome)
    (heard : s.transmission.listen answer = some transmission) :
    Moves ends s { s with transmission := transmission }
  | receives (idle : s.current = none) (located : s.transmission.listener = .selecting)
    (readable : s.buffered ≠ []) :
    Moves ends s { s with current := some (.start, []) }
  | takes (receiving next : Receiving) (consumed : List Byte)
    (current : s.current = some (receiving, consumed)) (asking : receiving.wants ≠ 0)
    (available : s.buffered ≠ [])
    (taken : receiving.take ends.senderOrder (receiving.recv s.buffered) = .ok next) :
    Moves ends s { s with
      buffered := s.buffered.drop (receiving.recv s.buffered).length
      current := some (next, consumed ++ receiving.recv s.buffered) }
  | throws (failure : Failure) (buffered : List Byte) (transmission : Transmission ι)
    (heard : s.transmission.listen (.received (.error failure)) = some transmission) :
    Moves ends s { s with
      transmission := transmission
      buffered := buffered
      current := none }
  | decodes (receiving : Receiving) (consumed : List Byte) (outcome : Except Failure Message)
    (transmission : Transmission ι) (current : s.current = some (receiving, consumed))
    (returned : receiving.result ends.senderOrder = some outcome)
    (heard : s.transmission.listen (.received outcome) = some transmission) :
    Moves ends s { s with transmission := transmission, current := none }
  | arrives (k : ℕ) :
    Moves ends s { s with
      inFlight := s.inFlight.drop k
      buffered := s.buffered ++ s.inFlight.take k }
  | polls (round : Round) (t : Session ι) (delivers : s.Delivers ends round)
    (polled : Polls ends s round t) : Moves ends s t
  | replies (keyword : Keyword) (sound : s.broken = false) :
    Moves ends s { s with inFlight := s.inFlight ++ ends.answer keyword }

theorem moves_of_recv {ends : Ends} {s t : Session ι} (moved : s.recv ends = some t) :
    Moves ends s t := by
  unfold recv at moved
  split at moved
  case h_1 => cases moved
  case h_2 receiving consumed current =>
    by_cases done : receiving.wants = 0
    · rw [if_pos done] at moved
      cases moved
    rw [if_neg done] at moved
    by_cases starved : s.buffered = []
    · rw [if_pos starved] at moved
      obtain ⟨transmission, heard, rfl⟩ := heard_eq_some moved
      exact .throws _ s.buffered transmission heard
    rw [if_neg starved] at moved
    dsimp only at moved
    split at moved
    case h_1 failure failed =>
      obtain ⟨transmission, heard, rfl⟩ := heard_eq_some moved
      exact .throws failure _ transmission heard
    case h_2 next taken =>
      exact Option.some.inj moved ▸ .takes receiving next consumed current done starved taken

theorem moves_of_step {ends : Ends} {s t : Session ι} {move : SessionMove ι}
    (moved : (system ends).step s move = some t) : Moves ends s t := by
  cases move with
  | transmit w sendFault =>
    obtain ⟨transmission, sent, rfl⟩ := Option.map_eq_some_iff.mp moved
    exact .transmits w sendFault transmission sent
  | listen answer =>
    obtain ⟨idle, other, transmission, heard, rfl⟩ := listen_eq_some moved
    exact .listens answer transmission idle other heard
  | receive =>
    have moved : s.receive = some t := moved
    unfold receive at moved
    split at moved
    case h_1 idle located =>
      split_ifs at moved with empty
      exact Option.some.inj moved ▸ .receives idle located empty
    case h_2 => cases moved
  | recv => exact moves_of_recv moved
  | decode =>
    have moved : s.decode ends = some t := moved
    unfold decode at moved
    split at moved
    case h_1 => cases moved
    case h_2 receiving consumed current =>
      obtain ⟨outcome, returned, moved⟩ := Option.bind_eq_some_iff.mp moved
      obtain ⟨transmission, heard, rfl⟩ := heard_eq_some moved
      exact .decodes receiving consumed outcome transmission current returned heard
  | arrive k =>
    have moved : s.arrive k = some t := moved
    unfold arrive at moved
    split_ifs at moved
    exact Option.some.inj moved ▸ .arrives k
  | poll round written =>
    obtain ⟨delivers, polled⟩ := polls_of_poll moved
    exact .polls round t delivers polled
  | reply keyword =>
    have moved : s.reply ends keyword = some t := moved
    unfold reply at moved
    split_ifs at moved with broken
    exact Option.some.inj moved ▸ .replies keyword (Bool.eq_false_iff.mpr broken)

/-! ### The upload's side -/

/-- The workers and the listener take the steps they take against any peer. -/
theorem Moves.transmission_step {ends : Ends} {s t : Session ι} (moved : Moves ends s t) :
    t.transmission = s.transmission ∨ ∃ move,
      (Transmission.system ends.sender ends.file ends.packetCount.toNat).step s.transmission move =
        some t.transmission := by
  cases moved with
  | transmits w sendFault transmission sent => exact Or.inr ⟨.transmit w sendFault, sent⟩
  | listens answer transmission _ _ heard => exact Or.inr ⟨.listen answer, heard⟩
  | throws failure _ transmission heard =>
    exact Or.inr ⟨.listen (.received (.error failure)), heard⟩
  | decodes _ _ outcome transmission _ _ heard =>
    exact Or.inr ⟨.listen (.received outcome), heard⟩
  | polls round t delivers polled => cases polled <;> exact Or.inl rfl
  | receives | takes | arrives | replies => exact Or.inl rfl

theorem transmission_of_reachable {ends : Ends} {s : Session ι}
    (reached : (system ends).Reachable s) :
    (Transmission.system ends.sender ends.file ends.packetCount.toNat).Reachable
      s.transmission := by
  apply reached.map _ fun s move t moved => (moves_of_step moved).transmission_step
  rintro _ rfl
  exact rfl

end Session

end Fup.Client
