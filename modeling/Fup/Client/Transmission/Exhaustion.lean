/-
# When the shared stream runs dry

The chunk of the last packet is short unless the chunks divide the file. Reading
a short chunk sets the failure bit of the stream, and no later seek clears it.
The packet is sent, but a RESEND of any packet after that finds a stream that
gives nothing, and the worker that chose the packet leaves.
-/

import Fup.Client.Transmission

namespace Fup.Client

namespace Transmission

variable {ι : Type}

/-- What the worker's read of a chosen packet returns. -/
def readOf (s : Transmission ι) (nextSeqId : ℕ) : InputStream Byte × List Byte :=
  s.fileStream.readAt (nextSeqId * packetPayloadSize) packetPayloadSize

/-- Every worker that is about to read gets something, and none has left for
want of data. -/
structure NeverDry (s : Transmission ι) : Prop where
  gets : ∀ w nextSeqId, s.workers w = .read nextSeqId → (readOf s nextSeqId).2 ≠ []
  stays : ∀ w, s.workers w ≠ .exited .noMoreData

/-- From a stream that has not failed, a read of a chunk that starts inside the
file gets something, and fails when the chunk is short. -/
theorem readOf_of_good {file : List Byte} {s : Transmission ι}
    (content : s.fileStream.content = file) (good : s.fileStream.failbit = false)
    {nextSeqId : ℕ} (inside : packetPayloadSize * nextSeqId < file.length) :
    (readOf s nextSeqId).2 ≠ [] ∧ (readOf s nextSeqId).1.failbit =
      decide (file.length < packetPayloadSize * (nextSeqId + 1)) := by
  have stride : packetPayloadSize = 1175 := rfl
  obtain ⟨cells, failed⟩ := InputStream.readAt_of_good good
    (nextSeqId * packetPayloadSize) packetPayloadSize
  rw [readOf, cells, failed, content, ← List.length_pos_iff, decide_eq_decide,
    List.length_take, List.length_drop]
  rw [stride] at inside ⊢
  constructor <;> omega

theorem readOf_of_failed {s : Transmission ι} (failed : s.fileStream.failbit = true)
    (nextSeqId : ℕ) : (readOf s nextSeqId).2 = [] :=
  (InputStream.readAt_of_failed failed _ _).1

/-- The file is cut into exactly `packetCount` chunks, the last one possibly
short. -/
structure Chunked (file : List Byte) (packetCount : ℕ) : Prop where
  positive : 0 < packetCount
  reaches : packetPayloadSize * (packetCount - 1) < file.length
  covers : file.length ≤ packetPayloadSize * packetCount

theorem Chunked.inside {file : List Byte} {packetCount : ℕ} (chunked : Chunked file packetCount)
    {i : ℕ} (below : i < packetCount) : packetPayloadSize * i < file.length :=
  (Nat.mul_le_mul_left packetPayloadSize (Nat.le_sub_one_of_lt below)).trans_lt chunked.reaches

/-- A file is cut into as many chunks as `calculateTotalPacketCount` says. -/
theorem Chunked.of_calculateTotalPacketCount {file : List Byte} {packetCount : PacketCount}
    (nonempty : 1 ≤ file.length) (describable : file.length ≤ maxFileSize)
    (counted : calculateTotalPacketCount (UInt64.ofNat file.length) = .ok packetCount) :
    Chunked file packetCount.toNat := by
  have limit : file.length ≤ 1175 * (2 ^ 32 - 1) := describable
  have size : (UInt64.ofNat file.length).toNat = file.length :=
    UInt64.toNat_ofNat_of_lt' (limit.trans_lt (by decide))
  obtain ⟨count, same, value⟩ :=
    calculateTotalPacketCount_eq (size.symm ▸ nonempty) (size.symm ▸ describable)
  obtain rfl := Except.ok.inj (counted.symm.trans same)
  rw [size] at value
  -- The number is that of the division, rounded up.
  have stride : packetPayloadSize = 1175 := rfl
  constructor <;> rw [value]
  · omega
  · rw [stride]
    omega
  · rw [stride]
    omega

/-- The last chunk is whole when the chunks divide the file. -/
theorem Chunked.whole_iff {file : List Byte} {packetCount : ℕ}
    (chunked : Chunked file packetCount) :
    packetPayloadSize ∣ file.length ↔ packetPayloadSize * packetCount ≤ file.length := by
  have stride : packetPayloadSize = 1175 := rfl
  obtain ⟨positive, reaches, covers⟩ := chunked
  rw [stride] at reaches covers ⊢
  constructor <;> omega

/-! ### Runs in which every read is in time -/

/-- The short chunk at the end is read while no other worker is about to read,
and no packet is chosen after that. -/
def ReadsInTime (file : List Byte) (s : Transmission ι) (move : Move ι) : Prop :=
  ∀ w sendFault, move = .transmit w sendFault →
    (s.workers w = .choose → s.fileStream.failbit = true → ∀ sent ∈ s.packetsToSend, sent = true) ∧
    (∀ i, s.workers w = .read i → file.length < packetPayloadSize * (i + 1) →
      ∀ v ≠ w, ∀ j, s.workers v ≠ .read j)

/-- The stream is on the file, nobody is about to read it once it has failed,
and nobody has left for want of data. -/
structure InTime (file : List Byte) (packetCount : ℕ) (s : Transmission ι) : Prop
    extends InTable packetCount s where
  content : s.fileStream.content = file
  untouched : s.fileStream.failbit = true → ∀ w i, s.workers w ≠ .read i
  stays : ∀ w, s.workers w ≠ .exited .noMoreData

theorem inTime_start (file : List Byte) (packetCount : ℕ) :
    InTime file packetCount (start file packetCount : Transmission ι) where
  toInTable := inTable_start file packetCount
  content := rfl
  untouched := fun failed => absurd failed Bool.false_ne_true
  stays := fun _ same => TransmitPc.noConfusion same

theorem InTime.good {file : List Byte} {packetCount : ℕ} {s : Transmission ι}
    (inTime : InTime file packetCount s) {w : ι} {i : ℕ} (located : s.workers w = .read i) :
    s.fileStream.failbit = false := by
  rw [← Bool.not_eq_true]
  intro failed
  exact inTime.untouched failed w i located

/-- What a worker about to read gets. -/
theorem InTime.chunk {file : List Byte} {packetCount : ℕ} (chunked : Chunked file packetCount)
    {s : Transmission ι} (inTime : InTime file packetCount s) {w : ι} {i : ℕ}
    (located : s.workers w = .read i) :
    (readOf s i).2 ≠ [] ∧ (readOf s i).1.failbit =
      decide (file.length < packetPayloadSize * (i + 1)) := by
  have below : i < packetCount := inTime.chosen w i (by rw [located]; rfl)
  exact readOf_of_good inTime.content (inTime.good located) (chunked.inside below)

theorem InTime.neverDry {file : List Byte} {packetCount : ℕ}
    (chunked : Chunked file packetCount) {s : Transmission ι}
    (inTime : InTime file packetCount s) : NeverDry s where
  gets := fun _ _ located => (inTime.chunk chunked located).1
  stays := inTime.stays

section Workers

variable [DecidableEq ι]

/-- A worker that leaves the stream alone, is not about to read and has not left
for want of data keeps the reads in time. -/
theorem InTime.goto {file : List Byte} {packetCount : ℕ} {s t : Transmission ι}
    (inTime : InTime file packetCount s) (inTable : InTable packetCount t) {w : ι}
    {pc : TransmitPc} (elsewhere : ∀ i, pc ≠ .read i) (stays : pc ≠ .exited .noMoreData)
    (workers : t.workers = (s.goto w pc).workers) (stream : t.fileStream = s.fileStream) :
    InTime file packetCount t := by
  refine ⟨inTable, stream ▸ inTime.content, ?_, ?_⟩
  · intro failed
    rw [workers]
    apply forall_workers_goto s w pc (fun pc => ∀ i, pc ≠ .read i) elsewhere
    intro v _
    exact inTime.untouched (stream ▸ failed) v
  · rw [workers]
    exact forall_workers_goto s w pc (· ≠ .exited .noMoreData) stays fun v _ => inTime.stays v

theorem InTime.step {sender : Sender} {file : List Byte} {packetCount : ℕ}
    (chunked : Chunked file packetCount) {s t : Transmission ι} {move : Move ι}
    (inTime : InTime file packetCount s) (guarded : ReadsInTime file s move)
    (moved : (system sender file packetCount).step s move = some t) :
    InTime file packetCount t := by
  have inTable := inTime.toInTable.step moved
  cases move with
  | listen answer =>
    cases listens_of_listen moved with
    | goes pc => exact ⟨inTable, inTime.content, inTime.untouched, inTime.stays⟩
    | stops => exact ⟨inTable, inTime.content, inTime.untouched, inTime.stays⟩
    | resends message seqId located kind inside =>
      exact ⟨inTable, inTime.content, inTime.untouched, inTime.stays⟩
  | transmit w sendFault =>
    obtain ⟨beforeFailure, alone⟩ := guarded w sendFault rfl
    cases transmits_of_transmit moved with
    | checks located =>
      refine inTime.goto inTable ?_ ?_ rfl rfl
      · intro i
        split_ifs <;> simp
      · split_ifs <;> simp
    | waits located marked => exact inTime.goto inTable (by simp) (by simp) rfl rfl
    | chooses nextSeqId located unsent first =>
      -- A packet is unmarked, so the guard says that the stream is good.
      have good : ¬ s.fileStream.failbit = true := by
        intro failed
        have marked := beforeFailure located failed false (List.mem_of_getElem? unsent)
        exact Bool.false_ne_true marked
      refine ⟨inTable, inTime.content, fun failed => absurd failed good, ?_⟩
      exact forall_workers_goto s w _ (· ≠ .exited .noMoreData) (by simp) fun v _ =>
        inTime.stays v
    | runsDry nextSeqId located nothing =>
      exact absurd nothing (inTime.chunk chunked located).1
    | reads nextSeqId located something =>
      refine ⟨inTable, (InputStream.content_readAt _ _ _).trans inTime.content, ?_, ?_⟩
      · -- The read fails only on the short chunk, and then nobody else reads.
        intro failed
        change (readOf s nextSeqId).1.failbit = true at failed
        rw [(inTime.chunk chunked located).2, decide_eq_true_iff] at failed
        apply forall_workers_goto s w _ (fun pc => ∀ i, pc ≠ .read i) (by simp)
        exact alone nextSeqId located failed
      · exact forall_workers_goto s w _ (· ≠ .exited .noMoreData) (by simp) fun v _ =>
          inTime.stays v
    | sends nextSeqId buffer pc located outcome =>
      refine inTime.goto inTable ?_ ?_ rfl rfl
      · rcases outcome with rfl | ⟨failure, rfl⟩ <;> simp
      · rcases outcome with rfl | ⟨failure, rfl⟩ <;> simp
    | marks nextSeqId located => exact inTime.goto inTable (by simp) (by simp) rfl rfl

/-- A step that is not in time leaves a worker about to read a stream that has
failed. -/
theorem InTime.dry_of_late {sender : Sender} {file : List Byte} {packetCount : ℕ}
    (chunked : Chunked file packetCount) {s t : Transmission ι} {move : Move ι}
    (inTime : InTime file packetCount s) (late : ¬ ReadsInTime file s move)
    (moved : (system sender file packetCount).step s move = some t) : ¬ NeverDry t := by
  simp only [ReadsInTime, not_forall, exists_prop] at late
  obtain ⟨w, sendFault, rfl, late⟩ := late
  rcases not_and_or.mp late with late | late
  · simp only [not_forall, exists_prop] at late
    -- A packet is chosen although the stream has failed.
    obtain ⟨located, failed, sent, listed, unsent⟩ := late
    cases transmits_of_transmit moved with
    | waits _ marked => exact absurd (marked sent listed) unsent
    | chooses nextSeqId =>
      intro neverDry
      refine neverDry.gets w nextSeqId ?_ (readOf_of_failed failed nextSeqId)
      rw [workers_goto, if_pos rfl]
    | _ => simp_all
  · simp only [not_forall, exists_prop, not_not] at late
    -- The short chunk is read while another worker is about to read.
    obtain ⟨i, located, short, v, other, j, reading⟩ := late
    have chunk := inTime.chunk chunked located
    have failed : (readOf s i).1.failbit = true := chunk.2.trans (decide_eq_true short)
    cases transmits_of_transmit moved with
    | runsDry nextSeqId here nothing =>
      obtain rfl := TransmitPc.read.inj (located.symm.trans here)
      exact absurd nothing chunk.1
    | reads nextSeqId here something =>
      obtain rfl := TransmitPc.read.inj (located.symm.trans here)
      intro neverDry
      refine neverDry.gets v j ?_ (readOf_of_failed failed j)
      exact (workers_goto s w _ v).trans ((if_neg other).trans reading)
    | _ => simp_all

/-- A run never lets a worker down exactly when its reads are in time. -/
theorem throughout_iff_readsInTime {sender : Sender} {file : List Byte} {packetCount : ℕ}
    (chunked : Chunked file packetCount) {moves : List (Move ι)} {t : Transmission ι}
    (run : (system sender file packetCount).exec (start file packetCount) moves = some t) :
    (system sender file packetCount).Throughout NeverDry (start file packetCount) moves ↔
      (system sender file packetCount).Within (ReadsInTime file) (start file packetCount)
        moves :=
  StepSystem.throughout_iff_within (inTime_start file packetCount)
    (fun _ _ _ inTime guarded moved => inTime.step chunked guarded moved)
    (fun _ inTime => inTime.neverDry chunked)
    (fun _ _ _ inTime late moved => inTime.dry_of_late chunked late moved) run

/-! ### Files of whole chunks -/

/-- The stream is on the file and has not failed. -/
structure Intact (file : List Byte) (packetCount : ℕ) (s : Transmission ι) : Prop
    extends InTable packetCount s where
  content : s.fileStream.content = file
  good : s.fileStream.failbit = false

/-- When all chunks are whole, no step spoils the stream. -/
theorem Intact.step {sender : Sender} {file : List Byte} {packetCount : ℕ}
    (chunked : Chunked file packetCount)
    (whole : packetPayloadSize * packetCount ≤ file.length) {s t : Transmission ι}
    {move : Move ι} (intact : Intact file packetCount s)
    (moved : (system sender file packetCount).step s move = some t) :
    Intact file packetCount t := by
  have inTable := intact.toInTable.step moved
  have afterRead {w : ι} {i : ℕ} (located : s.workers w = .read i) :
      (readOf s i).1.content = file ∧ (readOf s i).1.failbit = false := by
    have below : i < packetCount := intact.chosen w i (by rw [located]; rfl)
    -- The chunk of every chosen packet is whole.
    have long := (Nat.mul_le_mul_left packetPayloadSize below).trans whole
    have chunk := readOf_of_good intact.content intact.good (chunked.inside below)
    exact ⟨(InputStream.content_readAt _ _ _).trans intact.content,
      chunk.2.trans (decide_eq_false (Nat.not_lt.mpr long))⟩
  cases move with
  | listen answer =>
    cases listens_of_listen moved <;> exact ⟨inTable, intact.content, intact.good⟩
  | transmit w sendFault =>
    cases transmits_of_transmit moved with
    | runsDry nextSeqId located nothing =>
      exact ⟨inTable, (afterRead located).1, (afterRead located).2⟩
    | reads nextSeqId located something =>
      exact ⟨inTable, (afterRead located).1, (afterRead located).2⟩
    | _ => exact ⟨inTable, intact.content, intact.good⟩

/-- When all chunks are whole, the reads of every run are in time. -/
theorem within_readsInTime {sender : Sender} {file : List Byte} {packetCount : ℕ}
    (chunked : Chunked file packetCount)
    (whole : packetPayloadSize * packetCount ≤ file.length) (moves : List (Move ι)) :
    (system sender file packetCount).Within (ReadsInTime file) (start file packetCount)
      moves := by
  intro bs move part s reached w sendFault same
  -- With whole chunks no read fails, in any run.
  have intact : Intact file packetCount s := by
    refine StepSystem.Reachable.invariant ⟨_, bs, rfl, reached⟩ ?_ ?_
    · rintro s rfl
      exact ⟨inTable_start file packetCount, rfl, rfl⟩
    · intro s move t intact moved
      exact intact.step chunked whole moved
  constructor
  · intro located failed
    exact absurd (intact.good.symm.trans failed) Bool.false_ne_true
  · intro i located short
    have below : i < packetCount := intact.chosen w i (by rw [located]; rfl)
    exact absurd ((Nat.mul_le_mul_left packetPayloadSize below).trans whole) short.not_ge

/-! ### Files with a short last chunk -/

/-- A worker has sent and marked the first `k` packets, and the stream has
failed exactly when that is all of them. -/
structure SentUpTo (file : List Byte) (packetCount : ℕ) (w : ι) (k : ℕ)
    (s : Transmission ι) : Prop where
  table : ∀ j, s.packetsToSend[j]? =
    if j < k then some true else if j < packetCount then some false else none
  located : s.workers w = .checkStop
  running : s.stop = false
  entering : s.listener = .entering
  content : s.fileStream.content = file
  failed : s.fileStream.failbit = decide (k = packetCount)

/-- A worker at the stop check that finds a first unmarked packet comes to read
it, with everything else as it was. -/
theorem reach_read {sender : Sender} {file : List Byte} {packetCount : ℕ} {w : ι} {k : ℕ}
    {s : Transmission ι} (reached : (system sender file packetCount).Reachable s)
    (located : s.workers w = .checkStop) (running : s.stop = false)
    (unsent : s.packetsToSend[k]? = some false)
    (before : ∀ j < k, s.packetsToSend[j]? = some true) :
    (system sender file packetCount).Reachable ((s.goto w .choose).goto w (.read k)) := by
  -- Past the stop check, and to the choice of the packet.
  have checked : s.transmit sender w none = some (s.goto w .choose) := by
    simp only [transmit, located, running, Bool.false_eq_true, if_false]
  have chosen : (s.goto w .choose).transmit sender w none =
      some ((s.goto w .choose).goto w (.read k)) := by
    have next := getNextPossiblePacketId_eq unsent before
    have index : (k : ℤ) ≠ -1 := by omega
    simp only [transmit, workers_goto, if_true, packetsToSend_goto, next, if_neg index,
      Int.toNat_natCast]
  have first : (system sender file packetCount).step s (.transmit w none) = _ := checked
  have second : (system sender file packetCount).step (s.goto w .choose) (.transmit w none) = _ :=
    chosen
  exact (reached.step first).step second

/-- A read that gets something, the send and the mark. -/
theorem reach_marked {sender : Sender} {file : List Byte} {packetCount : ℕ} {w : ι} {k : ℕ}
    {s : Transmission ι} (reached : (system sender file packetCount).Reachable s)
    (located : s.workers w = .read k) (something : (readOf s k).2 ≠ []) :
    ∃ t, (system sender file packetCount).Reachable t ∧ t.workers w = .checkStop ∧
      t.packetsToSend = s.packetsToSend.set k true ∧ t.fileStream = (readOf s k).1 ∧
        t.stop = s.stop ∧ t.listener = s.listener := by
  have nonzero : (s.fileStream.readAt (k * packetPayloadSize) packetPayloadSize).2.length ≠ 0 :=
    mt List.length_eq_zero_iff.mp something
  -- The states behind the read, the send and the mark.
  set buffer := payloadBuffer (readOf s k).2 with bufferIs
  set s₁ : Transmission ι := { s.goto w (.send k buffer) with fileStream := (readOf s k).1 }
    with isRead
  set s₂ : Transmission ι := { s₁.goto w (.mark k) with
    history := .send k ⟨UInt64.ofNat k, sender.crc32 buffer, buffer⟩ :: s₁.history } with isSent
  set s₃ : Transmission ι := { s₂.goto w .checkStop with
    packetsToSend := s₂.packetsToSend.set k true } with isMarked
  have read : s.transmit sender w none = some s₁ := by
    simp only [transmit, located, if_neg nonzero]
    rfl
  have sending : s₁.workers w = .send k buffer :=
    (workers_goto s w _ w).trans (if_pos rfl)
  have sent : s₁.transmit sender w none = some s₂ := by
    simp only [transmit, sending]
    rfl
  have marking : s₂.workers w = .mark k := (workers_goto s₁ w _ w).trans (if_pos rfl)
  have marked : s₂.transmit sender w none = some s₃ := by
    simp only [transmit, marking]
    rfl
  -- Every step is the one of the worker.
  have move {s t : Transmission ι} (reached : (system sender file packetCount).Reachable s)
      (moved : s.transmit sender w none = some t) :
      (system sender file packetCount).Reachable t := by
    have step : (system sender file packetCount).step s (.transmit w none) = some t := moved
    exact reached.step step
  exact ⟨s₃, move (move (move reached read) sent) marked,
    (workers_goto s₂ w _ w).trans (if_pos rfl), rfl, rfl, rfl, rfl⟩

/-- One round of the worker sends and marks the next packet. -/
theorem SentUpTo.next {sender : Sender} {file : List Byte} {packetCount : ℕ} {w : ι} {k : ℕ}
    (chunked : Chunked file packetCount) (short : file.length < packetPayloadSize * packetCount)
    {s : Transmission ι} (reached : (system sender file packetCount).Reachable s)
    (sent : SentUpTo file packetCount w k s) (more : k < packetCount) :
    ∃ t, (system sender file packetCount).Reachable t ∧
      SentUpTo file packetCount w (k + 1) t := by
  -- The worker finds packet `k`, the first one not marked.
  have unsent : s.packetsToSend[k]? = some false := by
    rw [sent.table, if_neg (lt_irrefl k), if_pos more]
  have before : ∀ j < k, s.packetsToSend[j]? = some true := by
    intro j below
    rw [sent.table, if_pos below]
  have atRead := reach_read reached sent.located sent.running unsent before
  -- Only the read of the last chunk fails, and it still gets something.
  have good : s.fileStream.failbit = false := by
    rw [sent.failed, decide_eq_false more.ne]
  obtain ⟨something, failed⟩ := readOf_of_good sent.content good (chunked.inside more)
  obtain ⟨t, reachedT, checking, table, stream, stop, listener⟩ :=
    reach_marked atRead (by rw [workers_goto, if_pos rfl]) something
  change t.packetsToSend = s.packetsToSend.set k true at table
  change t.fileStream = (readOf s k).1 at stream
  refine ⟨t, reachedT, ?_, checking, stop.trans sent.running, listener.trans sent.entering,
    ?_, ?_⟩
  · intro j
    have inside : k < s.packetsToSend.length := (List.getElem?_eq_some_iff.mp unsent).1
    rw [table, List.getElem?_set, if_pos inside, sent.table]
    split_ifs <;> first | rfl | omega
  · rw [stream]
    exact (InputStream.content_readAt _ _ _).trans sent.content
  · have stride : packetPayloadSize = 1175 := rfl
    have reaches := chunked.reaches
    rw [stream, failed, decide_eq_decide]
    rw [stride] at reaches short ⊢
    omega

/-- A worker can send all packets. -/
theorem reach_all_sent (sender : Sender) {file : List Byte} {packetCount : ℕ} (w : ι)
    (chunked : Chunked file packetCount) (short : file.length < packetPayloadSize * packetCount)
    {k : ℕ} (few : k ≤ packetCount) :
    ∃ s, (system sender file packetCount).Reachable s ∧ SentUpTo file packetCount w k s := by
  induction k with
  | zero =>
    refine ⟨start file packetCount, ⟨_, [], rfl, rfl⟩, ?_, rfl, rfl, rfl, rfl, ?_⟩
    · intro j
      rw [start, List.getElem?_replicate, if_neg (Nat.not_lt_zero j)]
    · exact (decide_eq_false chunked.positive.ne).symm
  | succ k ih =>
    obtain ⟨s, reached, sent⟩ := ih (Nat.le_of_succ_le few)
    exact sent.next chunked short reached (Nat.lt_of_succ_le few)

/-- With all packets sent, a RESEND of the first one lets the worker read a
stream that has failed. -/
theorem reach_dry {sender : Sender} {file : List Byte} {packetCount : ℕ} {w : ι}
    {s : Transmission ι} (positive : 0 < packetCount)
    (reached : (system sender file packetCount).Reachable s)
    (sent : SentUpTo file packetCount w packetCount s) :
    ∃ t, (system sender file packetCount).Reachable t ∧ t.workers w = .read 0 ∧
      (readOf t 0).2 = [] := by
  -- The listener is set up, receives the RESEND and handles it.
  set message : Message := ⟨⟨0, 0, .resend, 8⟩, some (.resend ⟨0⟩)⟩ with messageIs
  set s₁ : Transmission ι := { s with listener := .selecting } with isSelecting
  set s₂ : Transmission ι := { s₁ with listener := .handling message } with isHandling
  set s₃ : Transmission ι := { s₂ with
    packetsToSend := s₂.packetsToSend.set 0 false
    listener := .checkStop
    history := .resend 0 :: s₂.history } with isHandled
  have entry : s.packetsToSend[0]? = some true := by rw [sent.table, if_pos positive]
  have inside : 0 < s.packetsToSend.length := (List.getElem?_eq_some_iff.mp entry).1
  have entered : s.listen (.setup none) = some s₁ := by
    simp only [listen, sent.entering, isSelecting]
  have received : s₁.listen (.received (.ok message)) = some s₂ := rfl
  have handled : s₂.listen .internal = some s₃ := by
    have kind : dispatch message = .resend 0 := rfl
    change some (s₂.handle message) = some s₃
    rw [handle, kind]
    exact congrArg some (if_pos inside)
  have move {s t : Transmission ι} {answer : Answer}
      (reached : (system sender file packetCount).Reachable s)
      (moved : s.listen answer = some t) : (system sender file packetCount).Reachable t := by
    have step : (system sender file packetCount).step s (.listen answer) = some t := moved
    exact reached.step step
  have clear : s₃.packetsToSend[0]? = some false := List.getElem?_set_self inside
  -- The worker comes round and chooses the packet again.
  have atRead := reach_read (move (move (move reached entered) received) handled) sent.located
    sent.running clear fun j below => absurd below (Nat.not_lt_zero j)
  refine ⟨_, atRead, (workers_goto _ w _ w).trans (if_pos rfl), ?_⟩
  have failed : s.fileStream.failbit = true := by rw [sent.failed, decide_eq_true rfl]
  exact readOf_of_failed failed 0

/-! ### Every run -/

/-- A worker is never let down, in any run, exactly when the chunks divide the
file. Otherwise the runs that let no worker down are those whose reads are in
time. -/
theorem neverDry_iff [Nonempty ι] (sender : Sender) {file : List Byte}
    {packetCount : PacketCount} (nonempty : 1 ≤ file.length)
    (describable : file.length ≤ maxFileSize)
    (counted : calculateTotalPacketCount (UInt64.ofNat file.length) = .ok packetCount) :
    ((∀ s : Transmission ι, (system sender file packetCount.toNat).Reachable s → NeverDry s) ↔
      packetPayloadSize ∣ file.length) ∧
    ∀ (moves : List (Move ι)) (t : Transmission ι),
      (system sender file packetCount.toNat).exec (start file packetCount.toNat) moves = some t →
        ((system sender file packetCount.toNat).Throughout NeverDry
            (start file packetCount.toNat) moves ↔
          (system sender file packetCount.toNat).Within (ReadsInTime file)
            (start file packetCount.toNat) moves) := by
  have chunked := Chunked.of_calculateTotalPacketCount nonempty describable counted
  refine ⟨?_, fun moves t run => throughout_iff_readsInTime chunked run⟩
  rw [chunked.whole_iff]
  constructor
  · intro never
    by_contra short
    -- One worker on its own runs into the failed stream.
    obtain ⟨w⟩ := ‹Nonempty ι›
    obtain ⟨s, reached, sent⟩ := reach_all_sent sender w chunked (not_le.mp short) le_rfl
    obtain ⟨t, late, reading, nothing⟩ := reach_dry chunked.positive reached sent
    exact (never t late).gets w 0 reading nothing
  · rintro whole s ⟨_, moves, rfl, run⟩
    exact (throughout_iff_readsInTime chunked run).mpr (within_readsInTime chunked whole moves)
      moves List.prefix_rfl s run

/-- The theorem for one worker and a file of one byte. -/
theorem neverDry_iff_oneByte :
    ((∀ s, oneWorker.Reachable s → NeverDry s) ↔ packetPayloadSize ∣ 1) ∧
    ∀ moves t, oneWorker.exec (start [1] 1) moves = some t →
      (oneWorker.Throughout NeverDry (start [1] 1) moves ↔
        oneWorker.Within (ReadsInTime [1]) (start [1] 1) moves) :=
  have counted : calculateTotalPacketCount (UInt64.ofNat [(1 : Byte)].length) = .ok 1 := by
    decide
  neverDry_iff _ le_rfl (by decide) counted

/-- The worker sends the one packet, a RESEND of it is handled, and the worker
chooses it again. -/
def resent : List (Move Unit) :=
  List.replicate 5 (.transmit () none) ++
    [.listen (.setup none), .listen (.received (.ok ⟨⟨1, 7, .resend, 8⟩, some (.resend ⟨0⟩)⟩)),
      .listen .internal, .transmit () none, .transmit () none]

/-- The second read of the one packet gets nothing. -/
theorem not_neverDry_resent : ¬ ∀ s, oneWorker.Reachable s → NeverDry s := by
  intro never
  have ends : (oneWorker.exec (start [1] 1) resent).map (fun s =>
      (s.workers (), (readOf s 0).2)) = some (.read 0, []) := by decide
  obtain ⟨last, run, values⟩ := Option.map_eq_some_iff.mp ends
  obtain ⟨reading, nothing⟩ := Prod.mk.inj values
  exact (never last ⟨_, resent, rfl, run⟩).gets () 0 reading nothing

end Workers

end Transmission

end Fup.Client
