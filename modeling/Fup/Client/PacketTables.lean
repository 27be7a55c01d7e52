/-
# Accesses to the packet tables

Three places access a table of packets at an index that a peer or a scan has
supplied. `ReceivePackets` compares the id of a packet with the packet count
first, and `TransmitPackets` marks what the scan of the same table returned.
`ListenResend` clears the entry of whatever id a RESEND names.
-/

import Fup.Client.ReceivePackets.Datagrams
import Fup.Client.Transmission

namespace Fup.Client

/-! ### The sending end -/

namespace Transmission

variable {ι : Type}

/-- The index a block uses on the table of packets to send. -/
def accesses (s : Transmission ι) : Move ι → Option ℕ
  | .transmit w _ =>
    match s.workers w with
    | .mark nextSeqId => some nextSeqId
    | _ => none
  | .listen _ =>
    match s.listener with
    | .handling message =>
      match dispatch message with
      | .resend seqId => some seqId.toNat
      | _ => none
    | _ => none

/-- The block is the one that handles this RESEND. -/
def Resends (s : Transmission ι) (move : Move ι) (resend : Resend) : Prop :=
  ∃ message answer, move = .listen answer ∧ s.listener = .handling message ∧
    message.header.keyword = .resend ∧ message.body = some (.resend resend)

/-- A RESEND handled in this block names one of the packets. -/
def ResendInTable (packetCount : ℕ) (s : Transmission ι) (move : Move ι) : Prop :=
  ∀ resend, Resends s move resend → resend.seqId.toNat < packetCount

/-- The listener's accesses are the ids of the RESENDs it handles. -/
theorem mem_accesses_listen {s : Transmission ι} {answer : Answer} {k : ℕ} :
    k ∈ s.accesses (.listen answer) ↔
      ∃ resend, Resends s (.listen answer) resend ∧ resend.seqId.toNat = k := by
  constructor
  · intro accessed
    rw [accesses] at accessed
    cases located : s.listener with
    | handling message =>
      simp only [located] at accessed
      cases kind : dispatch message with
      | resend seqId =>
        simp only [kind, Option.mem_some_iff] at accessed
        obtain ⟨keyword, carried⟩ := dispatch_eq_resend_iff.mp kind
        exact ⟨⟨seqId⟩, ⟨message, answer, rfl, located, keyword, carried⟩, accessed⟩
      | _ => simp only [kind, Option.not_mem_none] at accessed
    | _ => simp only [located, Option.not_mem_none] at accessed
  · rintro ⟨⟨seqId⟩, ⟨message, answer', -, located, keyword, carried⟩, rfl⟩
    have kind := dispatch_eq_resend_iff.mpr ⟨keyword, carried⟩
    simp only [accesses, located, kind, Option.mem_some_iff]

/-- A transmitter's access is at the packet it has chosen. -/
theorem mem_accesses_transmit {s : Transmission ι} {w : ι} {sendFault : Option Failure} {k : ℕ}
    (accessed : k ∈ s.accesses (.transmit w sendFault)) : k ∈ (s.workers w).chosen := by
  rw [accesses] at accessed
  cases located : s.workers w with
  | mark nextSeqId =>
    simp only [located] at accessed
    exact accessed
  | _ => simp only [located, Option.not_mem_none] at accessed

variable [DecidableEq ι]

/-- An access of this block is inside the table, and a RESEND of no packet
changes neither the table nor the file. -/
def AccessesInTable (sender : Sender) (file : List Byte) (packetCount : ℕ) (s : Transmission ι)
    (move : Move ι) : Prop :=
  (∀ k ∈ s.accesses move, k < s.packetsToSend.length) ∧
    ∀ resend t, Resends s move resend → packetCount ≤ resend.seqId.toNat →
      (system sender file packetCount).step s move = some t →
        t.packetsToSend = s.packetsToSend ∧ t.fileStream = s.fileStream

/-- While the table has its size and the chosen packets are in it, only a RESEND
of no packet leads outside. -/
theorem InTable.accesses_iff {sender : Sender} {file : List Byte} {packetCount : ℕ}
    {s : Transmission ι} (inTable : InTable packetCount s) (move : Move ι) :
    AccessesInTable sender file packetCount s move ↔ ResendInTable packetCount s move := by
  have size := inTable.size
  constructor
  · rintro ⟨inside, -⟩ resend ⟨message, answer, rfl, located⟩
    have accessed := mem_accesses_listen.mpr ⟨resend, ⟨message, answer, rfl, located⟩, rfl⟩
    exact size ▸ inside _ accessed
  · intro named
    refine ⟨fun k accessed => ?_, fun resend t handled beyond _ => ?_⟩
    · rw [size]
      cases move with
      | transmit w sendFault => exact inTable.chosen w k (mem_accesses_transmit accessed)
      | listen answer =>
        obtain ⟨resend, handled, rfl⟩ := mem_accesses_listen.mp accessed
        exact named resend handled
    · exact absurd beyond (Nat.not_le_of_lt (named resend handled))

theorem within_accesses_iff {sender : Sender} {file : List Byte} {packetCount : ℕ}
    (moves : List (Move ι)) :
    (system sender file packetCount).Within (AccessesInTable sender file packetCount)
        (start file packetCount) moves ↔
      (system sender file packetCount).Within (ResendInTable packetCount)
        (start file packetCount) moves := by
  refine forall_congr' fun before => forall_congr' fun move => forall_congr' fun _ =>
    forall_congr' fun s => forall_congr' fun run => InTable.accesses_iff ?_ move
  have reached : (system sender file packetCount).Reachable s := ⟨_, before, rfl, run⟩
  refine reached.invariant ?_ fun t move u inTable moved => inTable.step moved
  rintro _ rfl
  exact inTable_start file packetCount

end Transmission

/-! ### The receiving end -/

namespace Receiver

variable (receiver : Receiver)

/-- The index a round uses on the table of received packets. -/
def accesses (round : Round) : Option ℕ :=
  match round.poll with
  | .datagram bytes =>
    match UdpWrapper.receive receiver.order bytes with
    | .ok message =>
      match receiver.verdict message with
      | .store packet => some packet.seqId.toNat
      | _ => none
    | .error _ => none
  | _ => none

/-- An access of this round is inside the table, and a packet of no id in the
table changes nothing. -/
def AccessesInTable (s : Received × Flow) (round : Round) : Prop :=
  (∀ k ∈ receiver.accesses round, k < s.1.packetsReceived.length) ∧
    ∀ bytes message packet, round.poll = .datagram bytes →
      UdpWrapper.receive receiver.order bytes = .ok message →
        message.body = some (.packet packet) →
          receiver.packetCount.toNat ≤ packet.seqId.toNat →
            (receiver.loopBody s.1 round).1 = s.1

/-- The comparison comes in front of everything a packet is stored for. -/
theorem inRange_of_verdict {message : Message} {packet : Packet}
    (stored : receiver.verdict message = .store packet) :
    packet.seqId.toNat < receiver.packetCount.toNat := by
  unfold verdict at stored
  split_ifs at stored
  split at stored
  · have guard := receiver.seqId_guard packet
    split_ifs at stored with outside
    cases stored
    exact not_not.mp (mt guard.mpr outside)
  all_goals cases stored

/-- The table has an entry for every packet. -/
def Tabled (s : Received × Flow) : Prop :=
  s.1.packetsReceived.length = receiver.packetCount.toNat

theorem tabled_of_reachable {s : Received × Flow} (reached : receiver.loop.Reachable s) :
    receiver.Tabled s := by
  refine reached.invariant ?_ ?_
  · rintro _ rfl
    exact List.length_replicate
  · rintro ⟨state, flow⟩ round next size moved
    have moved : receiver.loop.step (state, flow) round = some next := moved
    cases flow with
    | running =>
      obtain rfl := Option.some.inj moved
      rw [loopBody_eq]
      cases receiver.accepted? round.poll with
      | none => exact size
      | some packet => exact List.length_set.trans size
    | left => cases moved
    | threw failure => cases moved

/-- Every access of the receiving end is inside its table. -/
theorem accessesInTable_of_reachable {s : Received × Flow} (reached : receiver.loop.Reachable s)
    (round : Round) : receiver.AccessesInTable s round := by
  refine ⟨fun k accessed => ?_, fun bytes message packet polled received carried beyond => ?_⟩
  · have tabled : s.1.packetsReceived.length = _ := receiver.tabled_of_reachable reached
    rw [tabled]
    unfold accesses at accessed
    split at accessed
    · split at accessed
      · split at accessed
        case h_1 packet stored =>
          obtain rfl := Option.some.inj accessed
          exact receiver.inRange_of_verdict stored
        case h_2 => cases accessed
      · cases accessed
    · cases accessed
  · rw [loopBody_eq]
    cases stored : receiver.accepted? round.poll with
    | none => rfl
    | some packet' =>
      -- An accepted packet is the one in the message, and its id is in range.
      obtain ⟨bytes', message', polled', received', accepts⟩ := receiver.accepted?_eq_some stored
      obtain rfl := Poll.datagram.inj (polled.symm.trans polled')
      obtain rfl := Except.ok.inj (received.symm.trans received')
      obtain ⟨-, -, carried', inRange, -⟩ := accepts
      rw [carried, Option.some_inj] at carried'
      obtain rfl := Body.packet.inj carried'
      exact absurd beyond (Nat.not_le_of_lt inRange)

end Receiver

/-! ### Both ends -/

/-- In a run of the sending end and a run of the receiving end every access is
inside its table exactly when no RESEND handled names a packet that is not in
the upload. -/
theorem accessesInTable_iff {ι : Type} [DecidableEq ι] (sender : Sender) (file : List Byte)
    (packetCount : ℕ) (moves : List (Move ι)) (receiver : Receiver) (rounds : List Round) :
    ((Transmission.system sender file packetCount).Within
        (Transmission.AccessesInTable sender file packetCount)
        (Transmission.start file packetCount) moves ∧
      receiver.loop.Within receiver.AccessesInTable
        (Received.start receiver.packetCount, .running) rounds) ↔
      (Transmission.system sender file packetCount).Within
        (Transmission.ResendInTable packetCount) (Transmission.start file packetCount) moves := by
  rw [Transmission.within_accesses_iff, and_iff_left]
  intro before round _ s run
  exact receiver.accessesInTable_of_reachable ⟨_, before, rfl, run⟩ round

/-- The listener is started and receives a RESEND of packet 5. -/
def resendBeyond : List (Move Unit) :=
  [.listen (.setup none), .listen (.received (.ok ⟨⟨1, 7, .resend, 8⟩, some (.resend ⟨5⟩)⟩)),
    .listen .internal]

/-- In an upload of one packet the listener clears the entry of packet 5. -/
theorem not_accessesInTable_resend :
    ¬ (Transmission.oneWorker.Within
        (Transmission.AccessesInTable ⟨.little, fun _ => 0, 1, 7⟩ [1] 1)
        (Transmission.start [1] 1) resendBeyond ∧
      Receiver.twoBytesReceiver.loop.Within Receiver.twoBytesReceiver.AccessesInTable
        (Received.start 1, .running) []) := by
  rintro ⟨within, -⟩
  have inside := (within [_, _] (.listen .internal) List.prefix_rfl _ rfl).1 5 rfl
  exact absurd inside (by decide)

end Fup.Client
