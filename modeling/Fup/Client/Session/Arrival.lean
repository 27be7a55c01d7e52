/-
# What is missing at the other end

Between a sender that has marked everything and a receiver that has everything is only
the network. A packet is marked after a send of it was started. An entry of the
receiver's table is set exactly when one datagram of its packet has come through, at
any time and in any copy, and its checksum survives; what else comes through, and in
which order, makes no difference. So the table fills exactly when every packet comes
through once and every checksum survives.
-/

import Fup.Client.Session.Delivery

namespace Fup.Client

namespace Transmission

variable {ι : Type}

/-- A send of the packet was started. -/
def Started (history : List Event) (i : ℕ) : Prop := ∃ packet, .send i packet ∈ history

theorem Started.cons {history : List Event} {i : ℕ} (before : Started history i) (event : Event) :
    Started (event :: history) i := by
  obtain ⟨packet, happened⟩ := before
  exact ⟨packet, List.mem_cons_of_mem _ happened⟩

/-- What is marked, or about to be, was sent. -/
structure MarksSent (s : Transmission ι) : Prop where
  marked : ∀ i, s.packetsToSend[i]? = some true → Started s.history i
  marking : ∀ w i, s.workers w = .mark i → Started s.history i

theorem marksSent_start (file : List Byte) (packetCount : ℕ) :
    MarksSent (start file packetCount : Transmission ι) where
  marked i set := by
    rw [start, List.getElem?_replicate] at set
    split_ifs at set
    cases set
  marking _ _ located := by cases located

section Workers

variable [DecidableEq ι] {sender : Sender} {s t : Transmission ι}

/-- A worker that goes elsewhere than to a mark, and leaves the table. -/
theorem MarksSent.goto (marks : MarksSent s) {w : ι} {pc : TransmitPc}
    (elsewhere : ∀ i, pc ≠ .mark i) (workers : t.workers = (s.goto w pc).workers)
    (table : t.packetsToSend = s.packetsToSend) (events : t.history = s.history) :
    MarksSent t where
  marked := by
    rw [table, events]
    exact marks.marked
  marking := by
    rw [workers, events]
    apply forall_workers_goto s w pc fun pc => ∀ i, pc = .mark i → Started s.history i
    · intro i located
      exact absurd located (elsewhere i)
    · intro v _
      exact marks.marking v

theorem MarksSent.transmits {w : ι} (marks : MarksSent s) (moved : Transmits sender s w t) :
    MarksSent t := by
  cases moved with
  | checks located =>
    refine marks.goto ?_ rfl rfl rfl
    intro i
    split_ifs <;> exact fun same => TransmitPc.noConfusion same
  | waits | chooses | runsDry | reads =>
    exact marks.goto (fun _ same => TransmitPc.noConfusion same) rfl rfl rfl
  | sends nextSeqId buffer pc located outcome =>
    refine ⟨fun i set => (marks.marked i set).cons _, ?_⟩
    apply forall_workers_goto s w pc fun pc => ∀ i, pc = .mark i → Started (_ :: s.history) i
    · -- The worker about to mark the packet has just started its send.
      intro i located
      rcases outcome with rfl | ⟨failure, rfl⟩
      · obtain rfl := TransmitPc.mark.inj located
        exact ⟨_, List.mem_cons_self⟩
      · cases located
    · intro v _ i located
      exact (marks.marking v i located).cons _
  | marks nextSeqId located =>
    refine ⟨fun i set => ?_, ?_⟩
    · by_cases same : nextSeqId = i
      · exact same ▸ marks.marking w nextSeqId located
      · have set : (s.packetsToSend.set nextSeqId true)[i]? = some true := set
        rw [List.getElem?_set_ne same] at set
        exact marks.marked i set
    · apply forall_workers_goto s w .checkStop fun pc => ∀ i, pc = .mark i → Started s.history i
      · intro i located
        cases located
      · intro v _
        exact marks.marking v

omit [DecidableEq ι] in
theorem MarksSent.listens (marks : MarksSent s) (moved : Listens s t) : MarksSent t := by
  cases moved with
  | goes | stops => exact ⟨marks.marked, marks.marking⟩
  | resends message seqId located kind inside =>
    refine ⟨fun i set => (marks.marked i ?_).cons _,
      fun w i here => (marks.marking w i here).cons _⟩
    -- Only the entry of the RESEND changes, and it is clear now.
    have set : (s.packetsToSend.set seqId.toNat false)[i]? = some true := set
    by_cases same : seqId.toNat = i
    · rw [← same, List.getElem?_set_self inside] at set
      cases set
    · rwa [List.getElem?_set_ne same] at set

theorem marksSent_of_reachable {file : List Byte} {packetCount : ℕ}
    (reached : (system sender file packetCount).Reachable s) : MarksSent s := by
  refine reached.invariant ?_ ?_
  · rintro _ rfl
    exact marksSent_start file packetCount
  · intro s move t marks moved
    cases move with
    | transmit w sendFault => exact marks.transmits (transmits_of_transmit moved)
    | listen answer => exact marks.listens (listens_of_listen moved)

end Workers

end Transmission

namespace Session

variable {ι : Type} {ends : Ends}

/-- A round of the run has polled a datagram of the packet. -/
def Delivered (ends : Ends) (moves : List (SessionMove ι)) (i : ℕ) : Prop :=
  ∃ round written, .poll round written ∈ moves ∧
    round.poll = .datagram (ends.transfer.datagram i)

theorem delivered_snoc {moves : List (SessionMove ι)} {move : SessionMove ι} {i : ℕ} :
    Delivered ends (moves ++ [move]) i ↔ Delivered ends moves i ∨
      ∃ round written, move = .poll round written ∧
        round.poll = .datagram (ends.transfer.datagram i) := by
  constructor
  · rintro ⟨round, written, listed, polled⟩
    rcases List.mem_append.mp listed with before | latest
    · exact Or.inl ⟨round, written, before, polled⟩
    · exact Or.inr ⟨round, written, (List.mem_singleton.mp latest).symm, polled⟩
  · rintro (⟨round, written, before, polled⟩ | ⟨round, written, rfl, polled⟩)
    · exact ⟨round, written, List.mem_append_left _ before, polled⟩
    · exact ⟨round, written, List.mem_append_right _ (List.mem_singleton_self _), polled⟩

/-! ### One round -/

/-- Different packets have different datagrams. -/
theorem eq_of_datagram_eq {i j : ℕ} (first : i < ends.packetCount.toNat)
    (second : j < ends.packetCount.toNat)
    (same : ends.transfer.datagram i = ends.transfer.datagram j) : i = j := by
  obtain ⟨header, -, -, received⟩ := ends.transfer.receive_datagram i
  obtain ⟨other, -, -, again⟩ := ends.transfer.receive_datagram j
  rw [same, again] at received
  -- The decoded packets are one, and carry the ids.
  obtain ⟨-, bodies⟩ := Message.mk.inj (Except.ok.inj received)
  have packets := Body.packet.inj (Option.some.inj bodies)
  rw [← ends.transfer.toNat_seqId_delivered first, ← packets,
    ends.transfer.toNat_seqId_delivered second]

/-- A round that polls a datagram of the file polls one that was sent. -/
theorem sent_of_polled {s : Session ι}
    (carries : Transmission.CarriesChunks ends.sender ends.file ends.packetCount.toNat
      s.transmission) {round : Round} (delivers : s.Delivers ends round) {i : ℕ}
    (below : i < ends.packetCount.toNat)
    (polled : round.poll = .datagram (ends.transfer.datagram i)) : s.Sent i := by
  rw [Delivers, polled] at delivers
  rcases delivers with listed | stray
  · obtain ⟨j, sent, inside, same⟩ := exists_of_mem_network carries listed
    exact eq_of_datagram_eq below inside same ▸ sent
  · -- A stray would be neither accepted nor asked for.
    obtain ⟨rejected, unasked⟩ := asks_stray polled stray
    rcases asks_datagram below polled with ⟨accepted, -, -⟩ | ⟨-, asked, -⟩
    · cases rejected.symm.trans accepted
    · cases unasked.symm.trans asked

/-- What a round accepts is a packet of the file. -/
theorem polled_of_accepted {s : Session ι}
    (carries : Transmission.CarriesChunks ends.sender ends.file ends.packetCount.toNat
      s.transmission) {round : Round} (delivers : s.Delivers ends round) {packet : Packet}
    (accepted : ends.receiver.accepted? round.poll = some packet) :
    ∃ i < ends.packetCount.toNat, round.poll = .datagram (ends.transfer.datagram i) := by
  rw [Delivers] at delivers
  cases polled : round.poll with
  | datagram bytes =>
    rw [polled] at delivers
    rcases delivers with listed | stray
    · obtain ⟨i, -, below, same⟩ := exists_of_mem_network carries listed
      exact ⟨i, below, congrArg Poll.datagram same⟩
    · cases (asks_stray polled stray).1.symm.trans accepted
  | selectFailed | quiet | recvFailed =>
    rw [polled] at accepted
    cases accepted

theorem Polls.received_eq {s t : Session ι} {round : Round} (moved : Polls ends s round t) :
    t.received = (ends.receiver.accepted? round.poll).elim s.received s.received.put := by
  have body := congrArg Prod.fst (ends.receiver.loopBody_eq s.received round)
  cases moved <;> exact body

/-! ### Runs -/

/-- What is stored is what has come through with its checksum. -/
def Stores (ends : Ends) (moves : List (SessionMove ι)) (s : Session ι) : Prop :=
  ∃ ids : List ℕ,
    (∀ i, i ∈ ids ↔ i < ends.packetCount.toNat ∧ ends.Recoverable i ∧ Delivered ends moves i) ∧
      s.received = (ids.map ends.transfer.delivered).foldl Received.put (.start ends.packetCount)

theorem stores_start : Stores ends [] (start ends : Session ι) := by
  refine ⟨[], fun i => iff_of_false List.not_mem_nil ?_, rfl⟩
  rintro ⟨-, -, round, written, listed, -⟩
  cases listed

/-- A move that is no round brings nothing. -/
theorem Stores.keeps {moves : List (SessionMove ι)} {s t : Session ι} {move : SessionMove ι}
    (stores : Stores ends moves s) (other : ∀ round written, move ≠ .poll round written)
    (same : t.received = s.received) : Stores ends (moves ++ [move]) t := by
  obtain ⟨ids, each, stored⟩ := stores
  refine ⟨ids, fun i => (each i).trans ?_, same.trans stored⟩
  rw [delivered_snoc, or_iff_left]
  rintro ⟨round, written, latest, -⟩
  exact other round written latest

theorem Stores.polls {moves : List (SessionMove ι)} {s t : Session ι} {round : Round}
    {written : ℕ} (stores : Stores ends moves s)
    (carries : Transmission.CarriesChunks ends.sender ends.file ends.packetCount.toNat
      s.transmission) (delivers : s.Delivers ends round) (moved : Polls ends s round t) :
    Stores ends (moves ++ [.poll round written]) t := by
  obtain ⟨ids, each, stored⟩ := stores
  have received := moved.received_eq
  -- What this round has polled.
  have now (i : ℕ) : Delivered ends (moves ++ [.poll round written]) i ↔
      Delivered ends moves i ∨ round.poll = .datagram (ends.transfer.datagram i) := by
    rw [delivered_snoc]
    refine or_congr_right ⟨?_, fun polled => ⟨round, written, rfl, polled⟩⟩
    rintro ⟨other, bytes, same, polled⟩
    obtain ⟨rfl, -⟩ := SessionMove.poll.inj same
    exact polled
  cases accepted : ends.receiver.accepted? round.poll with
  | none =>
    rw [accepted] at received
    refine ⟨ids, fun i => (each i).trans ?_, received.trans stored⟩
    refine and_congr_right fun below => and_congr_right fun recoverable => ?_
    rw [now, or_iff_left]
    intro polled
    -- A packet that can be recovered would have been accepted.
    rcases asks_datagram below polled with ⟨taken, -⟩ | ⟨-, -, lost⟩
    · cases accepted.symm.trans taken
    · exact lost recoverable
  | some packet =>
    obtain ⟨i, below, polled⟩ := polled_of_accepted carries delivers accepted
    have ⟨taken, recoverable⟩ : ends.receiver.accepted? round.poll =
        some (ends.transfer.delivered i) ∧ ends.Recoverable i := by
      rcases asks_datagram below polled with ⟨taken, -, recoverable⟩ | ⟨rejected, -⟩
      · exact ⟨taken, recoverable⟩
      · cases accepted.symm.trans rejected
    rw [taken] at received
    refine ⟨ids ++ [i], fun j => ?_, ?_⟩
    · rw [List.mem_append, List.mem_singleton, each, now]
      constructor
      · rintro (⟨inside, kept, before⟩ | rfl)
        · exact ⟨inside, kept, Or.inl before⟩
        · exact ⟨below, recoverable, Or.inr polled⟩
      · rintro ⟨inside, kept, before | latest⟩
        · exact Or.inl ⟨inside, kept, before⟩
        · have same := Poll.datagram.inj (latest.symm.trans polled)
          exact Or.inr (eq_of_datagram_eq inside below same)
    · rw [received, stored, List.map_append, List.foldl_append]
      rfl

variable [DecidableEq ι]

/-- Only rounds of `ReceivePackets` store anything, and beside the blocks of the workers
only those of the listener touch what the upload shares. -/
theorem apart_of_step {s t : Session ι} {move : SessionMove ι}
    (moved : (system ends).step s move = some t) :
    ((∀ round written, move ≠ .poll round written) → t.received = s.received) ∧
      ((∀ w sendFault, move ≠ .transmit w sendFault) → t.transmission = s.transmission ∨
        ∃ answer, s.transmission.listen answer = some t.transmission) := by
  cases move with
  | poll round written =>
    refine ⟨fun other => absurd rfl (other round written), fun _ => Or.inl ?_⟩
    cases (polls_of_poll moved).2 <;> rfl
  | transmit w sendFault =>
    obtain ⟨transmission, -, rfl⟩ := Option.map_eq_some_iff.mp moved
    exact ⟨fun _ => rfl, fun other => absurd rfl (other w sendFault)⟩
  | listen answer =>
    obtain ⟨-, -, transmission, heard, rfl⟩ := listen_eq_some moved
    exact ⟨fun _ => rfl, fun _ => Or.inr ⟨answer, heard⟩⟩
  | receive =>
    have moved : s.receive = some t := moved
    unfold receive at moved
    split at moved
    · split_ifs at moved
      exact Option.some.inj moved ▸ ⟨fun _ => rfl, fun _ => Or.inl rfl⟩
    · cases moved
  | recv =>
    have moved : s.recv ends = some t := moved
    unfold recv at moved
    split at moved
    · cases moved
    · split_ifs at moved
      · obtain ⟨transmission, heard, rfl⟩ := heard_eq_some moved
        exact ⟨fun _ => rfl, fun _ => Or.inr ⟨_, heard⟩⟩
      · dsimp only at moved
        split at moved
        · obtain ⟨transmission, heard, rfl⟩ := heard_eq_some moved
          exact ⟨fun _ => rfl, fun _ => Or.inr ⟨_, heard⟩⟩
        · exact Option.some.inj moved ▸ ⟨fun _ => rfl, fun _ => Or.inl rfl⟩
  | decode =>
    have moved : s.decode ends = some t := moved
    unfold decode at moved
    split at moved
    · cases moved
    · obtain ⟨outcome, -, moved⟩ := Option.bind_eq_some_iff.mp moved
      obtain ⟨transmission, heard, rfl⟩ := heard_eq_some moved
      exact ⟨fun _ => rfl, fun _ => Or.inr ⟨_, heard⟩⟩
  | arrive k =>
    have moved : s.arrive k = some t := moved
    unfold arrive at moved
    split_ifs at moved
    exact Option.some.inj moved ▸ ⟨fun _ => rfl, fun _ => Or.inl rfl⟩
  | reply keyword =>
    have moved : s.reply ends keyword = some t := moved
    unfold reply at moved
    split_ifs at moved
    exact Option.some.inj moved ▸ ⟨fun _ => rfl, fun _ => Or.inl rfl⟩

theorem carries_of_exec {s : Session ι} {moves : List (SessionMove ι)}
    (run : (system ends).exec (start ends) moves = some s) :
    Transmission.CarriesChunks ends.sender ends.file ends.packetCount.toNat s.transmission :=
  Transmission.carriesChunks_of_reachable (transmission_of_reachable ⟨_, moves, rfl, run⟩)

theorem stores_of_exec {s : Session ι} {moves : List (SessionMove ι)}
    (run : (system ends).exec (start ends) moves = some s) : Stores ends moves s := by
  refine StepSystem.exec_induction stores_start ?_ run
  intro moves s move t before stores moved
  by_cases round : ∃ round written, move = .poll round written
  · obtain ⟨round, written, rfl⟩ := round
    obtain ⟨delivers, polled⟩ := polls_of_poll moved
    exact stores.polls (carries_of_exec before) delivers polled
  · have other (next : Round) (written : ℕ) : move ≠ .poll next written :=
      fun same => round ⟨next, written, same⟩
    exact stores.keeps other ((apart_of_step moved).1 other)

theorem Sent.of_exec {s t : Session ι} {moves : List (SessionMove ι)} {i : ℕ} (sent : s.Sent i)
    (run : (system ends).exec s moves = some t) : t.Sent i := by
  induction moves generalizing s with
  | nil => exact Option.some.inj run ▸ sent
  | cons move moves ih =>
    obtain ⟨r, moved, rest⟩ := Option.bind_eq_some_iff.mp run
    exact ih (sent.moves (moves_of_step moved)) rest

/-- What comes through was sent before. -/
theorem sent_of_delivered {s : Session ι} {moves : List (SessionMove ι)}
    (run : (system ends).exec (start ends) moves = some s) {i : ℕ}
    (below : i < ends.packetCount.toNat) (delivered : Delivered ends moves i) : s.Sent i := by
  obtain ⟨round, written, listed, polled⟩ := delivered
  obtain ⟨before, after, rfl⟩ := List.append_of_mem listed
  obtain ⟨r, first, rest⟩ := StepSystem.exec_append_eq_some.mp run
  obtain ⟨t, moved, last⟩ := Option.bind_eq_some_iff.mp rest
  obtain ⟨delivers, -⟩ := polls_of_poll moved
  have sent := sent_of_polled (carries_of_exec first) delivers below polled
  -- What was sent then is in the history now.
  exact sent.of_exec rest

/-- What a run has brought to the other end. A packet is received when and only when a
datagram of it has come through and its checksum survives. What has come through was
sent, and so was what the sender has marked. -/
structure Arrived (ends : Ends) (moves : List (SessionMove ι)) (s : Session ι) : Prop where
  received : ∀ i, s.received.packetsReceived[i]? = some true ↔
    i < ends.packetCount.toNat ∧ ends.Recoverable i ∧ Delivered ends moves i
  full : (∀ flag ∈ s.received.packetsReceived, flag = true) ↔
    ∀ i < ends.packetCount.toNat, ends.Recoverable i ∧ Delivered ends moves i
  delivered : ∀ i < ends.packetCount.toNat, Delivered ends moves i → s.Sent i
  marked : ∀ i, s.transmission.packetsToSend[i]? = some true → s.Sent i

/-- In every run of a session the network alone decides what is missing. -/
theorem arrived_of_exec {s : Session ι} {moves : List (SessionMove ι)}
    (run : (system ends).exec (start ends) moves = some s) : Arrived ends moves s := by
  obtain ⟨ids, each, stored⟩ := stores_of_exec run
  have listed : ∀ i ∈ ids, s.Sent i ∧ i < ends.packetCount.toNat ∧ ends.Recoverable i := by
    intro i here
    obtain ⟨below, recoverable, delivered⟩ := (each i).mp here
    exact ⟨sent_of_delivered run below delivered, below, recoverable⟩
  have received (i : ℕ) := (flag_iff listed stored i).trans (each i)
  refine ⟨received, ?_, fun i below delivered => sent_of_delivered run below delivered, ?_⟩
  · have size : s.received.packetsReceived.length = ends.packetCount.toNat := by
      rw [stored, Received.length_packetsReceived_foldl_put]
      exact List.length_replicate
    constructor
    · intro full i below
      have inside : i < s.received.packetsReceived.length := size ▸ below
      have set : s.received.packetsReceived[i]? = some true := by
        rw [List.getElem?_eq_getElem inside, full _ (List.getElem_mem inside)]
      exact ((received i).mp set).2
    · intro complete flag listed
      obtain ⟨i, inside, same⟩ := List.getElem_of_mem listed
      have set := (received i).mpr ⟨size ▸ inside, complete i (size ▸ inside)⟩
      rw [List.getElem?_eq_getElem inside, same] at set
      exact Option.some.inj set
  · intro i set
    have reached := transmission_of_reachable ⟨_, moves, rfl, run⟩
    exact (Transmission.marksSent_of_reachable reached).marked i set

/-- The theorem for the run of one byte. -/
theorem arrived_oneByteSent :
    ∃ s, (system oneByteEnds).exec (start oneByteEnds) oneByteSent = some s ∧
      Arrived oneByteEnds oneByteSent s := by
  obtain ⟨s, run⟩ := Option.isSome_iff_exists.mp exec_oneByteSent
  exact ⟨s, run, arrived_of_exec run⟩

end Session

end Fup.Client
