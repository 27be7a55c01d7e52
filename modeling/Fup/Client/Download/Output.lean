/-
# What a download leaves behind

A download can be cut short at any moment, and its output is then what it is. Suppose
that what `ReceivePackets` polls are datagrams of the packets of a file, lost, repeated
and reordered as the network likes, and strays. Then the output has the bytes of the
file where the front of a packet belongs whose flag is set, and zeros elsewhere; only
the packet that is written just now may be in the file before its flag is. The flags
are those of the packets that have come with their checksums, and what has been asked
for again has come without.
-/

import Fup.Client.Download.Rounds
import Fup.Client.Session.Arrival

namespace Fup.Client

open Threadpool (onlyWorker)

/-! ### Polls -/

namespace Ends

variable (ends : Ends)

/-- The poll brings a datagram of a packet of the file, or a stray, or nothing. -/
def Brings (poll : Poll) : Prop :=
  ∀ bytes, poll = .datagram bytes →
    (∃ i < ends.packetCount.toNat, bytes = ends.transfer.datagram i) ∨ ends.Stray bytes

/-- The polls have brought the packet, and its checksum survives. -/
def Recovers (polls : List Poll) (i : ℕ) : Prop :=
  i < ends.packetCount.toNat ∧ ends.Recoverable i ∧ .datagram (ends.transfer.datagram i) ∈ polls

/-- The polls have brought the packet, and its checksum does not survive. -/
def Damages (polls : List Poll) (i : ℕ) : Prop :=
  i < ends.packetCount.toNat ∧ ¬ ends.Recoverable i ∧
    .datagram (ends.transfer.datagram i) ∈ polls

variable {ends} {polls : List Poll} {poll : Poll} {i : ℕ}

theorem Recovers.append (recovers : ends.Recovers polls i) (later : List Poll) :
    ends.Recovers (polls ++ later) i :=
  ⟨recovers.1, recovers.2.1, List.mem_append_left later recovers.2.2⟩

theorem Damages.append (damages : ends.Damages polls i) (later : List Poll) :
    ends.Damages (polls ++ later) i :=
  ⟨damages.1, damages.2.1, List.mem_append_left later damages.2.2⟩

theorem recovers_snoc : ends.Recovers (polls ++ [poll]) i ↔
    ends.Recovers polls i ∨ ends.Recovers [poll] i := by
  simp only [Recovers, List.mem_append]
  tauto

theorem asks_eq (round : Round) : ends.asks round = ends.receiver.asks round.poll := rfl

/-- A datagram of the file is accepted or asked for. -/
theorem asks_datagram (below : i < ends.packetCount.toNat) :
    (ends.receiver.accepted? (.datagram (ends.transfer.datagram i)) =
          some (ends.transfer.delivered i) ∧
        ends.receiver.asks (.datagram (ends.transfer.datagram i)) = none ∧ ends.Recoverable i) ∨
      (ends.receiver.accepted? (.datagram (ends.transfer.datagram i)) = none ∧
        ends.receiver.asks (.datagram (ends.transfer.datagram i)) = some (UInt64.ofNat i) ∧
          ¬ ends.Recoverable i) := by
  let round : Round := ⟨.datagram (ends.transfer.datagram i), .ok (), false⟩
  have polled : round.poll = .datagram (ends.transfer.datagram i) := rfl
  have cases := Session.asks_datagram below polled
  rwa [asks_eq, polled] at cases

theorem asks_stray {bytes : List Byte} (stray : ends.Stray bytes) :
    ends.receiver.accepted? (.datagram bytes) = none ∧
      ends.receiver.asks (.datagram bytes) = none := by
  let round : Round := ⟨.datagram bytes, .ok (), false⟩
  have polled : round.poll = .datagram bytes := rfl
  have neither := Session.asks_stray polled stray
  rwa [asks_eq, polled] at neither

/-- What is accepted is a packet of the file, and its datagram brings no other. -/
theorem recovers_of_accepted (brings : ends.Brings poll) {packet : Packet}
    (accepted : ends.receiver.accepted? poll = some packet) :
    ∃ i, packet = ends.transfer.delivered i ∧ ∀ k, ends.Recovers [poll] k ↔ k = i := by
  obtain ⟨bytes, -, rfl, -⟩ := ends.receiver.accepted?_eq_some accepted
  rcases brings bytes rfl with ⟨i, below, same⟩ | stray
  · rw [same] at accepted ⊢
    rcases asks_datagram below with ⟨taken, -, recoverable⟩ | ⟨rejected, -⟩
    · refine ⟨i, Option.some.inj (accepted.symm.trans taken), fun k => ?_⟩
      constructor
      · rintro ⟨inside, -, same⟩
        have same := Poll.datagram.inj (List.mem_singleton.mp same)
        exact Session.eq_of_datagram_eq inside below same
      · rintro rfl
        exact ⟨below, recoverable, List.mem_singleton_self _⟩
    · cases accepted.symm.trans rejected
  · cases accepted.symm.trans (asks_stray stray).1

/-- What is not accepted brings nothing that could be recovered. -/
theorem not_recovers_of_rejected (rejected : ends.receiver.accepted? poll = none) (i : ℕ) :
    ¬ ends.Recovers [poll] i := by
  rintro ⟨below, recoverable, same⟩
  rw [← List.mem_singleton.mp same] at rejected
  rcases asks_datagram below with ⟨taken, -⟩ | ⟨-, -, damaged⟩
  · cases rejected.symm.trans taken
  · exact damaged recoverable

/-- What is asked for is a packet of the file that has come damaged. -/
theorem damages_of_asks (brings : ends.Brings poll) {seqId : SequenceId}
    (asks : ends.receiver.asks poll = some seqId) :
    ends.receiver.accepted? poll = none ∧ ends.Damages [poll] seqId.toNat := by
  cases poll with
  | datagram bytes =>
    rcases brings bytes rfl with ⟨i, below, same⟩ | stray
    · rw [same] at asks ⊢
      rcases asks_datagram below with ⟨-, nothing, -⟩ | ⟨rejected, asked, damaged⟩
      · cases nothing.symm.trans asks
      · obtain rfl := Option.some.inj (asked.symm.trans asks)
        rw [toNat_ofNat_of_lt below]
        exact ⟨rejected, below, damaged, List.mem_singleton_self _⟩
    · cases (asks_stray stray).2.symm.trans asks
  | _ => cases asks

/-! ### Whole rounds -/

variable (ends) in
/-- The packets that the polls have brought are stored, and nothing else. -/
def Stored (polls : List Poll) (received : Received) : Prop :=
  ∃ ids : List ℕ, (∀ i, i ∈ ids ↔ ends.Recovers polls i) ∧
    received = (ids.map ends.transfer.delivered).foldl Received.put (.start ends.packetCount)

theorem stored_start : ends.Stored [] (.start ends.packetCount) := by
  refine ⟨[], fun i => iff_of_false List.not_mem_nil ?_, rfl⟩
  rintro ⟨-, -, listed⟩
  cases listed

variable {received : Received}

theorem Stored.flag_iff (stored : ends.Stored polls received) (i : ℕ) :
    received.packetsReceived[i]? = some true ↔ ends.Recovers polls i := by
  obtain ⟨ids, each, rfl⟩ := stored
  rw [Session.flag_foldl_put_iff fun i listed => ((each i).mp listed).1]
  exact each i

theorem Stored.cellAt_eq (stored : ends.Stored polls received) (j : ℕ) :
    Piece.cellAt 0 received.fileStream j =
      if received.packetsReceived[j / packetPayloadSize]? = some true ∧
        j % packetPayloadSize < Packet.payloadRoom then Piece.cellAt 0 ends.file j else 0 := by
  obtain ⟨ids, each, rfl⟩ := stored
  have below : ∀ i ∈ ids, i < ends.packetCount.toNat := fun i listed => ((each i).mp listed).1
  simp only [Session.flag_foldl_put_iff below]
  exact Session.cellAt_foldl_put below j

/-- A round stores the packet it accepts. -/
theorem Stored.snoc (stored : ends.Stored polls received) (brings : ends.Brings poll) :
    ends.Stored (polls ++ [poll])
      ((ends.receiver.accepted? poll).elim received received.put) := by
  obtain ⟨ids, each, stored⟩ := stored
  cases accepted : ends.receiver.accepted? poll with
  | none =>
    refine ⟨ids, fun k => ?_, stored⟩
    rw [each, recovers_snoc, or_iff_left (not_recovers_of_rejected accepted k)]
  | some packet =>
    obtain ⟨i, rfl, only⟩ := recovers_of_accepted brings accepted
    refine ⟨ids ++ [i], fun k => ?_, ?_⟩
    · rw [List.mem_append, List.mem_singleton, each, recovers_snoc, only]
    · rw [Option.elim_some, stored, List.map_append, List.foldl_append]
      rfl

end Ends

namespace Receiver

variable {receiver : Receiver} {a b : Looping} {turn : Turn}

theorem asks_of_goesOut {round : Round} {seqId : SequenceId}
    (out : receiver.goesOut round = some seqId) : receiver.asks round.poll = some seqId := by
  rw [goesOut] at out
  cases resend : round.resend with
  | ok _ => rwa [resend] at out
  | error failure => rw [resend] at out; cases out

/-- A round on the connection's own id. -/
theorem turns_eq_some (same : turn.connectionId = receiver.connectionId)
    (moved : receiver.turns.step a turn = some b) :
    b.received = (receiver.accepted? turn.round.poll).elim a.received a.received.put ∧
      b.resent = (receiver.goesOut turn.round).toList ++ a.resent := by
  have own : receiver.identified turn.connectionId = receiver := by
    rw [same]
    rfl
  simp only [turns, own] at moved
  cases running : a.flow with
  | running =>
    simp only [running, Option.some_inj] at moved
    rw [← moved]
    exact ⟨congrArg Prod.fst (receiver.loopBody_eq a.received turn.round), rfl⟩
  | left | threw failure => simp only [running, reduceCtorEq] at moved

/-- A packet that is about to be stored is accepted. -/
theorem accepted?_of_store {poll : Poll} {message : Message} {packet : Packet}
    (polled : receiver.poll poll = .ok (some message))
    (judged : receiver.verdict message = .store packet) :
    receiver.accepted? poll = some packet := by
  cases poll with
  | datagram bytes =>
    obtain ⟨decoded, received, same⟩ := map_eq_ok.mp polled
    obtain rfl := Option.some.inj same
    unfold verdict at judged
    split_ifs at judged with foreign keyword
    split at judged
    case h_1 inside carried =>
      split_ifs at judged with outside valid
      obtain rfl := Verdict.store.inj judged
      have accepts : receiver.Accepts decoded inside :=
        ⟨not_not.mp foreign, keyword, carried, not_not.mp (mt (receiver.seqId_guard _).mpr outside),
          beq_iff_eq.mp valid⟩
      simp only [accepted?, received, carried, if_pos accepts]
    all_goals cases judged
  | quiet => cases polled
  | selectFailed | recvFailed => cases polled

end Receiver

/-! ### The output -/

/-- The polls that `ReceivePackets` has dealt with, all of them but one that it is still
handling. -/
def ReceivePc.settled (pc : ReceivePc) (polls : List Poll) : List Poll :=
  match pc with
  | .handling _ => polls.dropLast
  | .storing _ => polls.dropLast
  | .marking _ => polls.dropLast
  | _ => polls

/-- The packet that is in the file and not yet in the table. -/
def ReceivePc.written : ReceivePc → Option ℕ
  | .marking packet => some packet.seqId.toNat
  | _ => none

/-- What the file and the table are and what has gone out, after the polls. -/
structure Ends.Leaves (ends : Ends) (polls : List Poll) (received : Received)
    (resent : List SequenceId) (pc : ReceivePc) : Prop where
  table : ∀ i, received.packetsReceived[i]? = some true ↔ ends.Recovers (pc.settled polls) i
  written : ∀ i, pc.written = some i → ends.Recovers polls i
  output : ∀ j, Piece.cellAt 0 received.fileStream j =
    if (received.packetsReceived[j / packetPayloadSize]? = some true ∨
        pc.written = some (j / packetPayloadSize)) ∧
      j % packetPayloadSize < Packet.payloadRoom then Piece.cellAt 0 ends.file j else 0
  resent : ∀ seqId ∈ resent, ends.Damages polls seqId.toNat

namespace Ends

variable {ends : Ends} {polls : List Poll} {received : Received} {resent : List SequenceId}
  {pc : ReceivePc}

/-- Where nothing is half written. -/
theorem leaves_of_stored (stored : ends.Stored (pc.settled polls) received)
    (asked : ∀ seqId ∈ resent, ends.Damages polls seqId.toNat) (whole : pc.written = none) :
    ends.Leaves polls received resent pc where
  table := stored.flag_iff
  written i half := by cases whole.symm.trans half
  output j := by
    rw [stored.cellAt_eq j, whole]
    simp only [reduceCtorEq, or_false]
  resent := asked

/-- Where a packet is in the file and not yet in the table. -/
theorem leaves_of_marking {done : List Poll} {poll : Poll} {packet : Packet}
    (stored : ends.Stored done received) (brings : ends.Brings poll)
    (asked : ∀ seqId ∈ resent, ends.Damages done seqId.toNat)
    (accepted : ends.receiver.accepted? poll = some packet) :
    ends.Leaves (done ++ [poll]) { received with fileStream := (received.put packet).fileStream }
      resent (.marking packet) := by
  have next := stored.snoc brings
  rw [accepted, Option.elim_some] at next
  obtain ⟨i, rfl, only⟩ := recovers_of_accepted brings accepted
  have brought : ends.Recovers [poll] i := (only i).mpr rfl
  have number : (ends.transfer.delivered i).seqId.toNat = i :=
    ends.transfer.toNat_seqId_delivered brought.1
  have half (k : ℕ) : (ReceivePc.marking (ends.transfer.delivered i)).written = some k ↔
      ends.Recovers [poll] k := by
    rw [ReceivePc.written, number, only, Option.some_inj, eq_comm]
  refine ⟨fun k => ?_, fun k written => ?_, fun j => ?_, fun seqId listed => ?_⟩
  · rw [ReceivePc.settled, List.dropLast_concat]
    exact stored.flag_iff k
  · exact recovers_snoc.mpr (Or.inr ((half k).mp written))
  · -- Of the table only the flag of this packet is missing.
    have flags (k : ℕ) : (received.put (ends.transfer.delivered i)).packetsReceived[k]? = some true ↔
        received.packetsReceived[k]? = some true ∨
          (ReceivePc.marking (ends.transfer.delivered i)).written = some k := by
      rw [next.flag_iff, recovers_snoc, stored.flag_iff, half]
    simp only [← flags]
    exact next.cellAt_eq j
  · exact (asked seqId listed).append [poll]

/-- A whole round puts its packet or asks for it. -/
theorem holds_of_turn {a b : Looping} {turn : Turn} (stored : ends.Stored polls a.received)
    (asked : ∀ seqId ∈ a.resent, ends.Damages polls seqId.toNat)
    (same : turn.connectionId = ends.receiver.connectionId) (brings : ends.Brings turn.round.poll)
    (moved : ends.receiver.turns.step a turn = some b) :
    ends.Stored (polls ++ [turn.round.poll]) b.received ∧
      ∀ seqId ∈ b.resent, ends.Damages (polls ++ [turn.round.poll]) seqId.toNat := by
  obtain ⟨received, resent⟩ := Receiver.turns_eq_some same moved
  rw [received, resent]
  refine ⟨stored.snoc brings, fun seqId listed => ?_⟩
  rcases List.mem_append.mp listed with latest | before
  · have asks := Receiver.asks_of_goesOut (Option.mem_toList.mp latest)
    obtain ⟨below, damaged, brought⟩ := (damages_of_asks brings asks).2
    exact ⟨below, damaged, List.mem_append_right polls brought⟩
  · exact (asked seqId before).append _

/-- Whole rounds put their packets and ask for damaged ones. -/
theorem holds_of_turns {turns : List Turn} {a : Looping}
    (run : ends.receiver.turns.exec ⟨.start ends.packetCount, .running, []⟩ turns = some a)
    (ids : ∀ turn ∈ turns, turn.connectionId = ends.receiver.connectionId)
    (brings : ∀ turn ∈ turns, ends.Brings turn.round.poll) :
    ends.Stored (turns.map fun turn => turn.round.poll) a.received ∧
      ∀ seqId ∈ a.resent, ends.Damages (turns.map fun turn => turn.round.poll) seqId.toNat := by
  induction turns using List.reverseRecOn generalizing a with
  | nil =>
    rw [StepSystem.exec_nil, Option.some_inj] at run
    rw [← run]
    exact ⟨stored_start, fun seqId listed => absurd listed List.not_mem_nil⟩
  | append_singleton turns turn ih =>
    obtain ⟨r, before, moved⟩ := StepSystem.exec_snoc_eq_some.mp run
    obtain ⟨stored, asked⟩ := ih before (fun turn listed => ids turn (List.mem_append_left _ listed))
      fun turn listed => brings turn (List.mem_append_left _ listed)
    have last : turn ∈ turns ++ [turn] := List.mem_append_right _ (List.mem_singleton_self _)
    rw [List.map_append, List.map_singleton]
    exact holds_of_turn stored asked (ids turn last) (brings turn last) moved

/-- So much for the round that is not over. -/
theorem leaves_of_inRound {done : List Poll} {a : Looping} {pending : Option Poll}
    (identified : ends.connectionId ≠ 0) (stored : ends.Stored done a.received)
    (asked : ∀ seqId ∈ a.resent, ends.Damages done seqId.toNat)
    (brings : ∀ poll ∈ pending, ends.Brings poll)
    (inRound : InRound ends.receiver a received resent pc pending) :
    ends.Leaves (done ++ pending.toList) received resent pc := by
  have known {id : ConnectionId} (fixed : ends.receiver.connectionId ≠ 0 →
      id = ends.receiver.connectionId) : ends.receiver.identified id = ends.receiver := by
    rw [fixed identified]
    rfl
  have waits (poll : Poll) (seqId : SequenceId) (listed : seqId ∈ a.resent) :
      ends.Damages (done ++ [poll]) seqId.toNat := (asked seqId listed).append _
  cases inRound with
  | polling running | ended failure finished =>
    rw [Option.toList_none, List.append_nil]
    exact leaves_of_stored stored asked rfl
  | handling poll message running polled =>
    refine leaves_of_stored ?_ (waits poll) rfl
    rw [ReceivePc.settled, Option.toList_some, List.dropLast_concat]
    exact stored
  | storing poll message packet id running polled fixed judged =>
    refine leaves_of_stored ?_ (waits poll) rfl
    rw [ReceivePc.settled, Option.toList_some, List.dropLast_concat]
    exact stored
  | marking poll message packet id running polled fixed judged =>
    rw [known fixed] at judged
    exact leaves_of_marking stored (brings poll rfl) asked
      (Receiver.accepted?_of_store polled judged)
  | asking poll message seqId id pc running polled fixed judged located =>
    rw [known fixed] at judged
    have asks : ends.receiver.asks poll = some seqId := by
      simp only [Receiver.asks, polled, judged]
    -- A damaged packet has changed nothing.
    have next := stored.snoc (brings poll rfl)
    rw [(damages_of_asks (brings poll rfl) asks).1, Option.elim_none] at next
    cases pc with
    | requesting | locking | sending => exact leaves_of_stored next (waits poll) rfl
    | _ => cases located
  | checking poll resend id received resent fixed completes =>
    obtain ⟨next, out⟩ := holds_of_turn stored asked (fixed identified) (brings poll rfl)
      (completes false)
    exact leaves_of_stored next out rfl

end Ends

namespace Downloading

variable {n : ℕ} {ends : Ends} {version : Version} {s : Downloading n}

/-- At any moment of a download on a connection with an id, whatever the network brings
of the file, and with whatever else. -/
theorem leaves_of_exec {working : UInt64} {moves : List (DownloadMove n)}
    (identified : ends.connectionId ≠ 0)
    (brings : ∀ poll ∈ moves.filterMap DownloadMove.polls, ends.Brings poll)
    (run : (system ends.receiver version).exec (start ends.receiver working) moves = some s) :
    ends.Leaves (moves.filterMap DownloadMove.polls) s.received s.resent s.task := by
  obtain ⟨-, turns, a, pending, whole, polled, inRound, ids⟩ := follows_of_exec run
  rw [polled] at brings ⊢
  obtain ⟨stored, asked⟩ := Ends.holds_of_turns whole (ids identified) fun turn listed =>
    brings _ (List.mem_append_left _ (List.mem_map_of_mem listed))
  refine Ends.leaves_of_inRound identified stored asked (fun poll here => ?_) inRound
  exact brings poll (List.mem_append_right _ (Option.mem_toList.mpr here))

/-- The byte of a file of one byte is written, and its flag is not set yet. -/
def byteWritten : List (DownloadMove 1) :=
  [.download, .worker onlyWorker,
    .task onlyWorker (.polled (.datagram (Session.oneByteEnds.transfer.datagram 0))),
    .task onlyWorker .internal, .task onlyWorker .internal]

theorem written_byteWritten :
    ((system Session.oneByteEnds.receiver 1).exec (start Session.oneByteEnds.receiver 0)
      byteWritten).map (fun s => s.task.written) = some (some 0) := by decide +kernel

/-- The theorem for this run. -/
theorem leaves_byteWritten :
    ∃ s, (system Session.oneByteEnds.receiver 1).exec (start Session.oneByteEnds.receiver 0)
        byteWritten = some s ∧ s.task.written = some 0 ∧
      Session.oneByteEnds.Leaves (byteWritten.filterMap DownloadMove.polls) s.received s.resent
        s.task := by
  obtain ⟨s, run, written⟩ := Option.map_eq_some_iff.mp written_byteWritten
  refine ⟨s, run, written, leaves_of_exec (by decide) (fun poll listed bytes same => ?_) run⟩
  -- One datagram is polled, that of the only packet.
  have only : poll = .datagram (Session.oneByteEnds.transfer.datagram 0) :=
    List.mem_singleton.mp listed
  exact Or.inl ⟨0, by decide, Poll.datagram.inj (same.symm.trans only)⟩

end Downloading

end Fup.Client
