/-
# Every packet carries its own chunk

A worker chooses an id in one block, reads into its buffer in another and sends
in a third, and the stream and its state bits are shared. A read that gets
nothing ends the worker, so the buffer that is sent always holds the chunk of
the id that was chosen.
-/

import Fup.Client.Transmission

namespace Fup.Client

/-- What the file holds for a sequence id, up to its end. -/
def fileBytes (file : List Byte) (i : ℕ) : List Byte :=
  file.extract (packetPayloadSize * i) (min (packetPayloadSize * (i + 1)) file.length)

/-- The packet carries the bytes of the file for its own sequence id, followed by
zeros, and the checksum of all of them. -/
structure OwnChunk (sender : Sender) (file : List Byte) (packet : Packet) : Prop where
  payload : packet.payload = fileBytes file packet.seqId.toNat ++
    List.replicate (packetPayloadSize - (fileBytes file packet.seqId.toNat).length) 0
  size : packet.payload.length = packetPayloadSize
  checksum : packet.checksum = sender.crc32 packet.payload

/-- A read at the position of a packet gets its bytes. -/
theorem take_drop_eq_fileBytes (file : List Byte) (i : ℕ) :
    (file.drop (i * packetPayloadSize)).take packetPayloadSize = fileBytes file i := by
  rw [fileBytes, List.extract_eq_take_drop, Nat.mul_comm i, List.take_eq_take_iff,
    List.length_drop]
  have next : packetPayloadSize * (i + 1) = packetPayloadSize * i + packetPayloadSize :=
    Nat.mul_succ packetPayloadSize i
  omega

theorem payloadBuffer_fileBytes (file : List Byte) (i : ℕ) :
    payloadBuffer (fileBytes file i) = fileBytes file i ++
      List.replicate (packetPayloadSize - (fileBytes file i).length) 0 := by
  apply payloadBuffer_eq
  rw [← take_drop_eq_fileBytes]
  exact List.length_take_le _ _

namespace Transmission

variable {ι : Type}

/-- The packet that a worker makes of a chunk read for an id. -/
def packetOf (sender : Sender) (file : List Byte) (i : ℕ) : Packet where
  seqId := UInt64.ofNat i
  checksum := sender.crc32 (payloadBuffer (fileBytes file i))
  payload := payloadBuffer (fileBytes file i)

/-- The packet of an id that a counter of packets bounds. -/
theorem ownChunk_packetOf (sender : Sender) (file : List Byte) {packetCount : PacketCount} {i : ℕ}
    (below : i < packetCount.toNat) : OwnChunk sender file (packetOf sender file i) := by
  have number : (UInt64.ofNat i).toNat = i := toNat_ofNat_of_lt below
  constructor
  · rw [packetOf]
    dsimp only
    rw [number, payloadBuffer_fileBytes]
  · rw [packetOf, length_payloadBuffer]
  · rw [packetOf]

/-- The ids are in the table, the stream is on the file, a worker in front of its
send has the chunk of its id, and all packets sent had theirs. -/
structure CarriesChunks (sender : Sender) (file : List Byte) (packetCount : ℕ)
    (s : Transmission ι) : Prop where
  inTable : InTable packetCount s
  content : s.fileStream.content = file
  buffered : ∀ w i buffer, s.workers w = .send i buffer → buffer = payloadBuffer (fileBytes file i)
  sent : ∀ i packet, .send i packet ∈ s.history →
    i < packetCount ∧ packet = packetOf sender file i

theorem carriesChunks_start (sender : Sender) (file : List Byte) (packetCount : ℕ) :
    CarriesChunks sender file packetCount (start file packetCount : Transmission ι) where
  inTable := inTable_start file packetCount
  content := rfl
  buffered := fun _ _ _ located => nomatch located
  sent := fun _ _ listed => absurd listed List.not_mem_nil

variable [DecidableEq ι]

/-- A worker that goes to another block, with the chunk of its id if that is a
send. -/
theorem CarriesChunks.goto {sender : Sender} {file : List Byte} {packetCount : ℕ}
    {s t : Transmission ι} (carries : CarriesChunks sender file packetCount s) {w : ι}
    {pc : TransmitPc} (inTable : InTable packetCount t)
    (workers : t.workers = (s.goto w pc).workers)
    (content : t.fileStream.content = s.fileStream.content) (history : t.history = s.history)
    (here : ∀ i buffer, pc = .send i buffer → buffer = payloadBuffer (fileBytes file i)) :
    CarriesChunks sender file packetCount t where
  inTable := inTable
  content := content.trans carries.content
  buffered := by
    rw [workers]
    apply forall_workers_goto s w pc
      (fun pc => ∀ i buffer, pc = .send i buffer → buffer = payloadBuffer (fileBytes file i)) here
    intro v _
    exact carries.buffered v
  sent := history ▸ carries.sent

theorem CarriesChunks.transmits {sender : Sender} {file : List Byte} {packetCount : ℕ}
    {s t : Transmission ι} {w : ι} (carries : CarriesChunks sender file packetCount s)
    (inTable : InTable packetCount t) (moved : Transmits sender s w t) :
    CarriesChunks sender file packetCount t := by
  cases moved with
  | checks located =>
    apply carries.goto inTable rfl rfl rfl
    intro i buffer same
    split_ifs at same
  | waits located marked => exact carries.goto inTable rfl rfl rfl nofun
  | chooses nextSeqId located unsent first => exact carries.goto inTable rfl rfl rfl nofun
  | runsDry nextSeqId located nothing =>
    exact carries.goto inTable rfl (InputStream.content_readAt _ _ _) rfl nofun
  | reads nextSeqId located something =>
    refine carries.goto inTable rfl (InputStream.content_readAt _ _ _) rfl ?_
    intro i buffer same
    obtain ⟨rfl, rfl⟩ := TransmitPc.send.inj same
    -- The stream has not failed, so it gets what the file holds.
    rw [InputStream.readAt_of_ne_nil something, carries.content, take_drop_eq_fileBytes]
  | sends nextSeqId buffer pc located outcome =>
    have chosen : nextSeqId ∈ (s.workers w).chosen := by
      rw [located]
      rfl
    -- The packet is built from the buffer, which the worker gives up.
    have elsewhere : ∀ i buffer, pc ≠ .send i buffer := by
      rcases outcome with rfl | ⟨failure, rfl⟩ <;> exact fun _ _ => nofun
    have before : CarriesChunks sender file packetCount (s.goto w pc) :=
      carries.goto ⟨inTable.size, inTable.chosen⟩ rfl rfl rfl
        (fun i buffer same => absurd same (elsewhere i buffer))
    refine ⟨inTable, before.content, before.buffered, ?_⟩
    intro i packet listed
    -- What is sent now has the bytes that were read for its id.
    rcases List.mem_cons.mp listed with latest | before
    · obtain ⟨rfl, rfl⟩ := Event.send.inj latest
      refine ⟨carries.inTable.chosen w i chosen, ?_⟩
      rw [carries.buffered w i buffer located, packetOf]
    · exact carries.sent i packet before
  | marks nextSeqId located => exact carries.goto inTable rfl rfl rfl nofun

omit [DecidableEq ι] in
theorem CarriesChunks.listens {sender : Sender} {file : List Byte} {packetCount : ℕ}
    {s t : Transmission ι} (carries : CarriesChunks sender file packetCount s)
    (inTable : InTable packetCount t) (moved : Listens s t) :
    CarriesChunks sender file packetCount t := by
  cases moved with
  | goes pc => exact ⟨inTable, carries.content, carries.buffered, carries.sent⟩
  | stops => exact ⟨inTable, carries.content, carries.buffered, carries.sent⟩
  | resends message seqId located kind inside =>
    refine ⟨inTable, carries.content, carries.buffered, fun i packet listed => ?_⟩
    rcases List.mem_cons.mp listed with latest | before
    · cases latest
    · exact carries.sent i packet before

theorem CarriesChunks.step {sender : Sender} {file : List Byte} {packetCount : ℕ}
    {s t : Transmission ι} {move : Move ι} (carries : CarriesChunks sender file packetCount s)
    (moved : (system sender file packetCount).step s move = some t) :
    CarriesChunks sender file packetCount t := by
  have inTable := carries.inTable.step moved
  cases move with
  | transmit w sendFault => exact carries.transmits inTable (transmits_of_transmit moved)
  | listen answer => exact carries.listens inTable (listens_of_listen moved)

/-- In every reachable state all packets sent had the chunk of their id. -/
theorem carriesChunks_of_reachable {sender : Sender} {file : List Byte} {packetCount : ℕ}
    {s : Transmission ι} (reached : (system sender file packetCount).Reachable s) :
    CarriesChunks sender file packetCount s := by
  refine reached.invariant ?_ fun _ _ _ carries moved => carries.step moved
  rintro _ rfl
  exact carriesChunks_start sender file packetCount

end Transmission

end Fup.Client
