/-
# What a session delivers

Whatever the network does with the datagrams, the output has the bytes of the file
where the front of a received packet belongs and zeros everywhere else. Whether a
packet is received is decided before it is sent: the checksum that reaches the other
end is that of the front of its chunk or it is not, in every copy. So a packet that
has to be asked for again can never arrive, and a table that fills was filled without
a question.
-/

import Fup.Client.Session
import Fup.Client.Transmission.Chunks

namespace Fup.Client

/-- The checksum of the packet survives its way. -/
def Ends.Recoverable (ends : Ends) (i : ℕ) : Prop :=
  (ends.crc32 (ends.transfer.front i)).toNat = ends.transfer.checksumRead i

instance (ends : Ends) (i : ℕ) : Decidable (ends.Recoverable i) :=
  inferInstanceAs (Decidable (_ = _))

namespace Session

variable {ι : Type} {ends : Ends}

/-- A send of the packet was started. -/
def Sent (s : Session ι) (i : ℕ) : Prop := ∃ packet, .send i packet ∈ s.transmission.history

/-! ### Datagrams on the network -/

theorem chunk_eq_payloadBuffer (file : List Byte) (i : ℕ) :
    chunk file i = payloadBuffer (fileBytes file i) := by
  rw [chunk_eq, take_drop_eq_fileBytes]

/-- The data of a packet of the file is the datagram of its id. -/
theorem datagram_packetOf (ends : Ends) (i : ℕ) :
    ends.datagram (.send i (Transmission.packetOf ends.sender ends.file i)) =
      some (ends.transfer.datagram i) := by
  have buffer : (Transmission.packetOf ends.sender ends.file i).payload = chunk ends.file i := by
    rw [chunk_eq_payloadBuffer, Transmission.packetOf]
  rw [Ends.datagram, buffer, ends.sender.datagram_eq i (length_chunk ends.file i),
    ends.transfer.datagram_eq i]
  rfl

/-- What the network delivers was sent for a packet of the file. -/
theorem exists_of_mem_network {s : Session ι}
    (carries : Transmission.CarriesChunks ends.sender ends.file ends.packetCount.toNat
      s.transmission) {bytes : List Byte} (listed : bytes ∈ s.network ends) :
    ∃ i, s.Sent i ∧ i < ends.packetCount.toNat ∧ bytes = ends.transfer.datagram i := by
  obtain ⟨event, happened, sent⟩ := List.mem_filterMap.mp listed
  cases event with
  | resend i => cases sent
  | send i packet =>
    obtain ⟨below, rfl⟩ := carries.sent i packet happened
    rw [datagram_packetOf] at sent
    exact ⟨i, ⟨_, happened⟩, below, (Option.some.inj sent).symm⟩

/-- The verdict on a datagram of the file is that of its checksum. -/
theorem poll_datagram {i : ℕ} (below : i < ends.packetCount.toNat) :
    ∃ message, ends.receiver.poll (.datagram (ends.transfer.datagram i)) = .ok (some message) ∧
      (ends.Recoverable i → ends.receiver.verdict message = .store (ends.transfer.delivered i)) ∧
      (¬ ends.Recoverable i → ends.receiver.verdict message = .request (UInt64.ofNat i)) := by
  obtain ⟨header, mine, keyword, received⟩ := ends.transfer.receive_datagram i
  have foreign : ¬ header.connectionId ≠ ends.receiver.connectionId := not_not.mpr mine
  have inTable : ¬ (ends.transfer.delivered i).seqId ≥ ends.receiver.packetCount.toUInt64 := by
    rw [Receiver.seqId_guard, not_not, ends.transfer.toNat_seqId_delivered below]
    exact below
  have checks : validateChecksum ends.receiver.crc32 (ends.transfer.delivered i).payload
      (ends.transfer.delivered i).checksum = true ↔ ends.Recoverable i := by
    rw [validateChecksum, beq_iff_eq, ← UInt32.toNat_inj, ends.transfer.toNat_checksum_delivered,
      ends.transfer.payload_delivered]
    rfl
  have judged : ends.receiver.verdict ⟨header, some (.packet (ends.transfer.delivered i))⟩ =
      if validateChecksum ends.receiver.crc32 (ends.transfer.delivered i).payload
        (ends.transfer.delivered i).checksum then .store (ends.transfer.delivered i)
      else .request (ends.transfer.delivered i).seqId := by
    rw [Receiver.verdict]
    dsimp only
    rw [if_neg foreign, if_pos keyword, if_neg inTable]
  have order : ends.receiver.order = ends.transfer.receiverOrder := rfl
  refine ⟨⟨header, some (.packet (ends.transfer.delivered i))⟩, ?_, fun recoverable => ?_,
    fun damaged => ?_⟩
  · rw [Receiver.poll, order, received]
    rfl
  · rw [judged, if_pos (checks.mpr recoverable)]
  · rw [judged, if_neg (mt checks.mp damaged)]
    rfl

/-- A round that polls a datagram of the file accepts its packet or asks for it. -/
theorem asks_datagram {i : ℕ} (below : i < ends.packetCount.toNat) {round : Round}
    (polled : round.poll = .datagram (ends.transfer.datagram i)) :
    (ends.receiver.accepted? round.poll = some (ends.transfer.delivered i) ∧
        ends.asks round = none ∧ ends.Recoverable i) ∨
      (ends.receiver.accepted? round.poll = none ∧
        ends.asks round = some (UInt64.ofNat i) ∧ ¬ ends.Recoverable i) := by
  have accepts : ends.receiver.accepted? (.datagram (ends.transfer.datagram i)) =
      if ends.Recoverable i then some (ends.transfer.delivered i) else none :=
    ends.transfer.accepted?_datagram below
  obtain ⟨message, heads, stores, requests⟩ := poll_datagram below
  rw [Ends.asks, polled, heads, accepts]
  by_cases recoverable : ends.Recoverable i
  · left
    refine ⟨if_pos recoverable, ?_, recoverable⟩
    dsimp only
    rw [stores recoverable]
  · right
    refine ⟨if_neg recoverable, ?_, recoverable⟩
    dsimp only
    rw [requests recoverable]

/-- A stray is neither accepted nor asked for. -/
theorem asks_stray {round : Round} {bytes : List Byte} (polled : round.poll = .datagram bytes)
    (stray : ends.Stray bytes) :
    ends.receiver.accepted? round.poll = none ∧ ends.asks round = none := by
  rw [Ends.asks, polled, Receiver.poll, Receiver.accepted?]
  cases received : UdpWrapper.receive ends.receiver.order bytes with
  | error failure => exact ⟨rfl, rfl⟩
  | ok message =>
    -- The header is that of the whole datagram, which is longer than one.
    obtain ⟨enough, header, -⟩ :=
      Message.ofData_eq_ok (UdpWrapper.ofData_of_receive received)
    have whole : Header.size ≤ bytes.length :=
      enough.trans (List.length_take_le' packetMessageSize bytes)
    have same := Header.read_append ends.receiver.order enough (bytes.drop packetMessageSize)
    rw [List.take_append_drop] at same
    rw [← same] at header
    have other : message.header.connectionId ≠ ends.receiver.connectionId ∨
        message.header.keyword ≠ .packet := by
      rw [header]
      exact stray whole
    constructor
    · dsimp only
      split
      · refine if_neg fun accepts => ?_
        rcases other with foreign | keyword
        · exact foreign accepts.1
        · exact keyword accepts.2.1
      · rfl
    · dsimp only [Except.map]
      rw [Receiver.verdict]
      by_cases foreign : message.header.connectionId = ends.receiver.connectionId
      · rw [if_neg (not_not.mpr foreign), if_neg (other.resolve_left (not_not.mpr foreign))]
      · rw [if_pos foreign]

/-- So a round of a session accepts a packet of the file, asks for one, or does
neither. -/
theorem round_cases {s : Session ι}
    (carries : Transmission.CarriesChunks ends.sender ends.file ends.packetCount.toNat
      s.transmission) {round : Round} (delivers : s.Delivers ends round) :
    (∃ i, s.Sent i ∧ i < ends.packetCount.toNat ∧ ends.Recoverable i ∧
        ends.receiver.accepted? round.poll = some (ends.transfer.delivered i) ∧
          ends.asks round = none) ∨
      (∃ i, s.Sent i ∧ i < ends.packetCount.toNat ∧ ¬ ends.Recoverable i ∧
        ends.receiver.accepted? round.poll = none ∧
          ends.asks round = some (UInt64.ofNat i)) ∨
        ends.receiver.accepted? round.poll = none ∧ ends.asks round = none := by
  have kinds : (∃ bytes, round.poll = .datagram bytes ∧
      (bytes ∈ s.network ends ∨ ends.Stray bytes)) ∨
        ends.receiver.accepted? round.poll = none ∧ ends.asks round = none := by
    rw [Delivers] at delivers
    rw [Ends.asks]
    cases polled : round.poll with
    | datagram bytes => exact Or.inl ⟨bytes, rfl, by rwa [polled] at delivers⟩
    | selectFailed | quiet | recvFailed =>
      simp only [Receiver.accepted?, Receiver.poll, reduceCtorEq, false_and, exists_false, false_or,
        and_self]
  rcases kinds with ⟨bytes, polled, listed | stray⟩ | neither
  · obtain ⟨i, sent, below, same⟩ := exists_of_mem_network carries listed
    rcases asks_datagram below (polled.trans (congrArg Poll.datagram same)) with ⟨accepted, asks, recoverable⟩ |
      ⟨rejected, asks, damaged⟩
    · exact Or.inl ⟨i, sent, below, recoverable, accepted, asks⟩
    · exact Or.inr (Or.inl ⟨i, sent, below, damaged, rejected, asks⟩)
  · exact Or.inr (Or.inr (asks_stray polled stray))
  · exact Or.inr (Or.inr neither)

/-! ### What is stored and what is asked for -/

/-- What is stored was put there for packets of the file that were sent and whose
checksums survive, and what was asked for are others. -/
structure Accounts (ends : Ends) (s : Session ι) : Prop where
  stored : ∃ ids : List ℕ,
    (∀ i ∈ ids, s.Sent i ∧ i < ends.packetCount.toNat ∧ ends.Recoverable i) ∧
      s.received = (ids.map ends.transfer.delivered).foldl Received.put
        (.start ends.packetCount)
  asked : ∀ seqId ∈ s.requested, ∃ i < ends.packetCount.toNat,
    seqId = UInt64.ofNat i ∧ s.Sent i ∧ ¬ ends.Recoverable i

theorem accounts_start : Accounts ends (start ends : Session ι) where
  stored := ⟨[], fun _ listed => absurd listed List.not_mem_nil, rfl⟩
  asked _ listed := absurd listed List.not_mem_nil

/-- Sends add to the account, and nothing else than rounds changes it. -/
theorem Accounts.of_sent {s t : Session ι} (accounts : Accounts ends s)
    (sent : ∀ i, s.Sent i → t.Sent i) (received : t.received = s.received)
    (requested : t.requested = s.requested) : Accounts ends t := by
  obtain ⟨ids, each, stored⟩ := accounts.stored
  refine ⟨⟨ids, fun i listed => ?_, received.trans stored⟩, fun seqId listed => ?_⟩
  · obtain ⟨before, rest⟩ := each i listed
    exact ⟨sent i before, rest⟩
  · obtain ⟨i, below, same, before, damaged⟩ := accounts.asked seqId (requested ▸ listed)
    exact ⟨i, below, same, sent i before, damaged⟩

/-- A round puts the packet it accepts and notes the one it asks for. -/
theorem Accounts.polls {s t : Session ι} {round : Round} (accounts : Accounts ends s)
    (carries : Transmission.CarriesChunks ends.sender ends.file ends.packetCount.toNat
      s.transmission) (delivers : s.Delivers ends round) (moved : Polls ends s round t) :
    Accounts ends t := by
  obtain ⟨ids, each, stored⟩ := accounts.stored
  -- What the round leaves in the file and the table.
  have puts : ∃ ids : List ℕ,
      (∀ i ∈ ids, s.Sent i ∧ i < ends.packetCount.toNat ∧ ends.Recoverable i) ∧
        (ends.receiver.loopBody s.received round).1 =
          (ids.map ends.transfer.delivered).foldl Received.put (.start ends.packetCount) := by
    rw [Receiver.loopBody_eq]
    rcases round_cases carries delivers with ⟨i, sent, below, recoverable, accepted, -⟩ |
      ⟨i, -, -, -, rejected, -⟩ | ⟨rejected, -⟩
    · refine ⟨ids ++ [i], fun k listed => ?_, ?_⟩
      · rcases List.mem_append.mp listed with before | latest
        · exact each k before
        · exact List.mem_singleton.mp latest ▸ ⟨sent, below, recoverable⟩
      · rw [accepted, List.map_append, List.foldl_append, ← stored]
        rfl
    · exact ⟨ids, each, by rw [rejected]; exact stored⟩
    · exact ⟨ids, each, by rw [rejected]; exact stored⟩
  cases moved with
  | keeps nothing => exact ⟨puts, accounts.asked⟩
  | asks seqId damaged sound =>
    refine ⟨puts, fun other listed => ?_⟩
    rcases List.mem_append.mp listed with before | latest
    · exact accounts.asked other before
    · -- It is the id of a packet that was sent and did not survive.
      obtain rfl := List.mem_singleton.mp latest
      rcases round_cases carries delivers with ⟨-, -, -, -, -, nothing⟩ |
        ⟨i, sent, below, lost, -, asks⟩ | ⟨-, nothing⟩
      · cases nothing.symm.trans damaged
      · exact ⟨i, below, Option.some.inj (damaged.symm.trans asks), sent, lost⟩
      · cases nothing.symm.trans damaged
  | fails seqId bytes damaged part => exact ⟨puts, accounts.asked⟩

/-- No event is forgotten. -/
theorem mem_history_of_step [DecidableEq ι] {sender : Sender} {file : List Byte}
    {packetCount : ℕ} {s t : Transmission ι} {move : Move ι}
    (moved : (Transmission.system sender file packetCount).step s move = some t) {event : Event}
    (happened : event ∈ s.history) : event ∈ t.history := by
  cases move with
  | transmit w sendFault =>
    cases Transmission.transmits_of_transmit moved with
    | sends => exact List.mem_cons_of_mem _ happened
    | _ => exact happened
  | listen answer =>
    cases Transmission.listens_of_listen moved with
    | resends => exact List.mem_cons_of_mem _ happened
    | _ => exact happened

variable [DecidableEq ι]

theorem Sent.moves {s t : Session ι} (moved : Moves ends s t) {i : ℕ} (sent : s.Sent i) :
    t.Sent i := by
  obtain ⟨packet, happened⟩ := sent
  rcases moved.transmission_step with same | ⟨move, followed⟩
  · exact ⟨packet, same ▸ happened⟩
  · exact ⟨packet, mem_history_of_step followed happened⟩

theorem Accounts.moves {s t : Session ι} (accounts : Accounts ends s)
    (carries : Transmission.CarriesChunks ends.sender ends.file ends.packetCount.toNat
      s.transmission) (moved : Moves ends s t) : Accounts ends t := by
  have sent (i : ℕ) (before : s.Sent i) : t.Sent i := before.moves moved
  cases moved with
  | polls round t delivers polled => exact accounts.polls carries delivers polled
  | transmits | listens | receives | takes | throws | decodes | arrives | replies =>
    exact accounts.of_sent sent rfl rfl

theorem accounts_of_reachable {s : Session ι} (reached : (system ends).Reachable s) :
    Accounts ends s := by
  apply reached.induction
  · rintro _ rfl
    exact accounts_start
  · intro s move t before accounts moved
    have carries := Transmission.carriesChunks_of_reachable (transmission_of_reachable before)
    exact accounts.moves carries (moves_of_step moved)

/-! ### The output -/

section Stored

variable {ids : List ℕ} (below : ∀ i ∈ ids, i < ends.packetCount.toNat)

include below

/-- An entry of the table is set for the packets put there. -/
theorem flag_foldl_put_iff (i : ℕ) :
    ((ids.map ends.transfer.delivered).foldl Received.put
        (.start ends.packetCount)).packetsReceived[i]? = some true ↔ i ∈ ids := by
  have size : (Received.start ends.packetCount).packetsReceived.length =
      ends.packetCount.toNat := List.length_replicate
  have number {k : ℕ} (listed : k ∈ ids) : (ends.transfer.delivered k).seqId.toNat = k :=
    ends.transfer.toNat_seqId_delivered (below k listed)
  by_cases inside : i < ends.packetCount.toNat
  · have cleared : (Received.start ends.packetCount).packetsReceived[i]? ≠ some true := by
      rw [Received.start, List.getElem?_replicate, if_pos inside]
      decide
    rw [Received.packetsReceived_foldl_put _ _ (size ▸ inside), or_iff_right cleared]
    constructor
    · rintro ⟨packet, listed, same⟩
      obtain ⟨k, here, rfl⟩ := List.mem_map.mp listed
      exact (number here).symm.trans same ▸ here
    · intro listed
      exact ⟨_, List.mem_map_of_mem listed, number listed⟩
  · -- Beyond the table nothing is set and nothing was stored.
    have beyond : ((ids.map ends.transfer.delivered).foldl Received.put
        (.start ends.packetCount)).packetsReceived.length ≤ i := by
      rw [Received.length_packetsReceived_foldl_put, size]
      exact Nat.le_of_not_lt inside
    rw [List.getElem?_eq_none beyond]
    exact iff_of_false (by simp) fun listed => inside (below i listed)

/-- The output has the bytes of the file where the front of a packet put there reaches. -/
theorem cellAt_foldl_put (j : ℕ) :
    Piece.cellAt 0 ((ids.map ends.transfer.delivered).foldl Received.put
        (.start ends.packetCount)).fileStream j =
      if j / packetPayloadSize ∈ ids ∧ j % packetPayloadSize < Packet.payloadRoom then
        Piece.cellAt 0 ends.file j else 0 := by
  have file : ((ids.map ends.transfer.delivered).foldl Received.put
      (.start ends.packetCount)).fileStream =
        Piece.writeAll 0 [] (ids.map fun i => Received.piece (ends.transfer.delivered i)) := by
    rw [Received.fileStream_foldl_put, List.map_map]
    rfl
  have parts : ∀ p ∈ ids.map fun i => Received.piece (ends.transfer.delivered i),
      p.PartOf 0 ends.file := by
    intro p listed
    obtain ⟨i, here, rfl⟩ := List.mem_map.mp listed
    have delivered : i ∈ ends.transfer.delivery := List.mem_range.mpr (below i here)
    exact ends.transfer.partOf_file (List.mem_map_of_mem delivered)
  rw [file]
  by_cases covered : j / packetPayloadSize ∈ ids ∧ j % packetPayloadSize < Packet.payloadRoom
  · obtain ⟨listed, early⟩ := covered
    have covers := (ends.transfer.covers_delivered_iff (below _ listed)).mpr ⟨rfl, early⟩
    have here := List.mem_map_of_mem (f := fun i => Received.piece (ends.transfer.delivered i))
      listed
    rw [if_pos ⟨listed, early⟩,
      Piece.cellAt_writeAll_of_covers 0 [] (Piece.agreeing_of_partOf 0 parts) here covers]
    exact parts _ here j covers
  · rw [if_neg covered, Piece.cellAt_writeAll_of_uncovered]
    · exact Piece.cellAt_of_length_le 0 (Nat.zero_le j)
    · -- A piece covers positions of its own slot only, in front of the last two.
      intro p listed covers
      obtain ⟨i, here, rfl⟩ := List.mem_map.mp listed
      obtain ⟨slot, early⟩ := (ends.transfer.covers_delivered_iff (below i here)).mp covers
      exact covered ⟨slot ▸ here, early⟩

end Stored

omit [DecidableEq ι] in
/-- An entry of the table is set for the packets stored. -/
theorem flag_iff {s : Session ι} {ids : List ℕ}
    (each : ∀ i ∈ ids, s.Sent i ∧ i < ends.packetCount.toNat ∧ ends.Recoverable i)
    (stored : s.received = (ids.map ends.transfer.delivered).foldl Received.put
      (.start ends.packetCount)) (i : ℕ) :
    s.received.packetsReceived[i]? = some true ↔ i ∈ ids := by
  rw [stored]
  exact flag_foldl_put_iff (fun i listed => (each i listed).2.1) i

/-- What has arrived so far: an entry of the table stands for a packet that was sent
and whose checksum survives, and the output has the byte of the file where an entry is
set and the front of its packet reaches, and a zero everywhere else. -/
structure Conveys (ends : Ends) (s : Session ι) : Prop where
  flags : ∀ i, s.received.packetsReceived[i]? = some true → s.Sent i ∧ ends.Recoverable i
  output : ∀ j, Piece.cellAt 0 s.received.fileStream j =
    if s.received.packetsReceived[j / packetPayloadSize]? = some true ∧
      j % packetPayloadSize < Packet.payloadRoom then Piece.cellAt 0 ends.file j else 0

/-- In every session, however the network loses, repeats and reorders datagrams and
mixes strays among them. -/
theorem conveys_of_reachable {s : Session ι} (reached : (system ends).Reachable s) :
    Conveys ends s := by
  obtain ⟨ids, each, stored⟩ := (accounts_of_reachable reached).stored
  have flag := flag_iff each stored
  refine ⟨fun i set => ?_, fun j => ?_⟩
  · obtain ⟨sent, -, recoverable⟩ := each i ((flag i).mp set)
    exact ⟨sent, recoverable⟩
  · simp only [flag]
    rw [stored, cellAt_foldl_put fun i listed => (each i listed).2.1]

/-- A file of one byte, with a checksum function that never rejects. -/
def oneByteEnds : Ends where
  senderOrder := .little
  receiverOrder := .big
  crc32 := fun _ => 0
  version := 1
  connectionId := 7
  file := [1]
  packetCount := 1
  nonempty := Transfer.oneByte.nonempty
  describable := Transfer.oneByte.describable
  counted := Transfer.oneByte.counted

/-- One worker sends the byte, and the other end polls its datagram twice. -/
def oneByteSent : List (SessionMove Unit) :=
  [.transmit () none, .transmit () none, .transmit () none, .transmit () none,
    .poll ⟨.datagram (oneByteEnds.transfer.datagram 0), .ok (), false⟩ 0,
    .poll ⟨.datagram (oneByteEnds.transfer.datagram 0), .ok (), false⟩ 0]

theorem exec_oneByteSent :
    ((system oneByteEnds).exec (start oneByteEnds) oneByteSent).isSome := by decide +kernel

/-- The theorem for that run. -/
theorem conveys_oneByteSent :
    ∃ s, (system oneByteEnds).exec (start oneByteEnds) oneByteSent = some s ∧
      Conveys oneByteEnds s := by
  obtain ⟨s, run⟩ := Option.isSome_iff_exists.mp exec_oneByteSent
  exact ⟨s, run, conveys_of_reachable ⟨start oneByteEnds, oneByteSent, rfl, run⟩⟩

/-! ### Questions -/

/-- What the receiving end has asked for: packets that were sent and whose checksums
do not survive. A table that is full was filled without asking for anything. -/
structure Asks (ends : Ends) (s : Session ι) : Prop where
  damaged : ∀ seqId ∈ s.requested,
    seqId.toNat < ends.packetCount.toNat ∧ s.Sent seqId.toNat ∧ ¬ ends.Recoverable seqId.toNat
  unasked : (∀ flag ∈ s.received.packetsReceived, flag = true) → s.requested = []

/-- A packet that is asked for never arrives, and the table with it never fills. -/
theorem asks_of_reachable {s : Session ι} (reached : (system ends).Reachable s) :
    Asks ends s := by
  have accounts := accounts_of_reachable reached
  have damaged : ∀ seqId ∈ s.requested, seqId.toNat < ends.packetCount.toNat ∧
      s.Sent seqId.toNat ∧ ¬ ends.Recoverable seqId.toNat := by
    intro seqId listed
    obtain ⟨i, below, rfl, sent, lost⟩ := accounts.asked seqId listed
    have number : (UInt64.ofNat i).toNat = i := toNat_ofNat_of_lt below
    rw [number]
    exact ⟨below, sent, lost⟩
  refine ⟨damaged, fun full => ?_⟩
  by_contra asked
  obtain ⟨seqId, listed⟩ := List.exists_mem_of_ne_nil s.requested asked
  obtain ⟨below, -, lost⟩ := damaged seqId listed
  obtain ⟨ids, each, stored⟩ := accounts.stored
  have inside : seqId.toNat < s.received.packetsReceived.length := by
    rw [stored, Received.length_packetsReceived_foldl_put]
    exact List.length_replicate.symm ▸ below
  -- The entry of the packet would be set.
  have set : s.received.packetsReceived[seqId.toNat]? = some true := by
    rw [List.getElem?_eq_getElem inside, full _ (List.getElem_mem inside)]
  exact lost (each _ ((flag_iff each stored _).mp set)).2.2

/-- A file of one byte, with a checksum that does not fit half its field. -/
def damagedEnds : Ends where
  senderOrder := .little
  receiverOrder := .little
  crc32 := fun _ => 65536
  version := 1
  connectionId := 7
  file := [1]
  packetCount := 1
  nonempty := Transfer.oneByte.nonempty
  describable := Transfer.oneByte.describable
  counted := Transfer.oneByte.counted

/-- The other end asks for the only packet. -/
def damagedAsked : List (SessionMove Unit) :=
  [.transmit () none, .transmit () none, .transmit () none, .transmit () none,
    .poll ⟨.datagram (damagedEnds.transfer.datagram 0), .ok (), false⟩ 0]

theorem requested_damagedAsked :
    ((system damagedEnds).exec (start damagedEnds) damagedAsked).map Session.requested =
      some [0] := by decide +kernel

/-- The theorem for that run. -/
theorem asks_damagedAsked :
    ∃ s, (system damagedEnds).exec (start damagedEnds) damagedAsked = some s ∧
      s.requested = [0] ∧ Asks damagedEnds s := by
  obtain ⟨s, run, requested⟩ := Option.map_eq_some_iff.mp requested_damagedAsked
  exact ⟨s, run, requested,
    asks_of_reachable ⟨start damagedEnds, damagedAsked, rfl, run⟩⟩

end Session

end Fup.Client
