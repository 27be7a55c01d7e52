/-
# How far a session has come

A worker takes the first packet that is not marked. While no RESEND is handled the
packets are therefore marked in order, and nobody is ahead of the first clear entry by
more than that one packet. A worker that gets back to the table finds its own packet
marked, so it takes every packet once at most, and the blocks it can execute before all
packets are marked are counted by the packets still in front of it.

A short read spoils the stream for everyone, but only the last chunk is short, and the
worker that has read it sends it and marks it. So long as no send fails, some worker can
go on until everything is marked.
-/

import Fup.Client.Session.Arrival
import Fup.Client.Session.Unheard
import Fup.Client.Transmission.Exhaustion
import Fup.Lib.ClearEntries
import Mathlib.Algebra.Order.BigOperators.Group.Finset
import Mathlib.Data.Fintype.Card

namespace Fup.Client

open ClearEntries (setBelow)

/-- The worker has the chunk of the packet in its buffer, or has just sent it. -/
def TransmitPc.HasRead (i : ℕ) : TransmitPc → Prop
  | .send j _ => j = i
  | .mark j => j = i
  | _ => False

/-- How many blocks a worker can execute before `packetCount` packets are marked, when
the first `k` are. -/
def TransmitPc.ahead (packetCount k : ℕ) : TransmitPc → ℕ
  | .checkStop => 5 * (packetCount - k)
  | .choose => 5 * (packetCount - k) - 1
  | .read i => 5 * (packetCount - (i + 1)) + 3
  | .send i _ => 5 * (packetCount - (i + 1)) + 2
  | .mark i => 5 * (packetCount - (i + 1)) + 1
  | .exited _ => 0

theorem TransmitPc.ahead_antitone (pc : TransmitPc) (packetCount : ℕ) {k l : ℕ} (later : k ≤ l) :
    pc.ahead packetCount l ≤ pc.ahead packetCount k := by
  have fewer := Nat.mul_le_mul_left 5 (Nat.sub_le_sub_left later packetCount)
  cases pc with
  | checkStop => exact fewer
  | choose => exact Nat.sub_le_sub_right fewer 1
  | _ => exact le_rfl

namespace Transmission

variable {ι : Type}

/-! ### Packets in order -/

/-- The first `k` packets are marked and no others. Nobody has chosen a packet behind
the next one, and none behind it was sent. -/
structure InOrder (packetCount k : ℕ) (s : Transmission ι) : Prop where
  below : k ≤ packetCount
  table : s.packetsToSend = setBelow packetCount k
  chosen : ∀ w, ∀ i ∈ (s.workers w).chosen, i ≤ k ∧ i < packetCount
  sent : ∀ i, Started s.history i → i ≤ k ∧ i < packetCount

theorem inOrder_start (file : List Byte) (packetCount : ℕ) :
    InOrder packetCount 0 (start file packetCount : Transmission ι) where
  below := Nat.zero_le _
  table := (ClearEntries.setBelow_zero packetCount).symm
  chosen _ _ held := absurd held (Option.not_mem_none _)
  sent := by
    rintro i ⟨packet, listed⟩
    exact absurd listed List.not_mem_nil

section Workers

variable {packetCount k : ℕ} {s t : Transmission ι}

theorem InOrder.marked_iff (inOrder : InOrder packetCount k s) {i : ℕ} :
    s.packetsToSend[i]? = some true ↔ i < k := by
  have below := inOrder.below
  rw [inOrder.table]
  by_cases inside : i < packetCount
  · rw [ClearEntries.getElem?_setBelow k inside, Option.some_inj, decide_eq_true_iff]
  · rw [List.getElem?_eq_none (by simpa using inside)]
    exact iff_of_false (by simp) (by omega)

/-- The blocks that all workers together can still execute. -/
def blocksAhead [Fintype ι] (packetCount k : ℕ) (s : Transmission ι) : ℕ :=
  ∑ w, (s.workers w).ahead packetCount k

theorem blocksAhead_start [Fintype ι] (file : List Byte) (packetCount : ℕ) :
    blocksAhead packetCount 0 (start file packetCount : Transmission ι) =
      5 * packetCount * Fintype.card ι := by
  have each (w : ι) : ((start file packetCount : Transmission ι).workers w).ahead packetCount 0 =
      5 * packetCount := rfl
  rw [blocksAhead, Finset.sum_const_nat fun w _ => each w, Finset.card_univ, Nat.mul_comm]

variable [DecidableEq ι] {sender : Sender} {w : ι} {pc : TransmitPc} {l : ℕ}

theorem InOrder.goto (inOrder : InOrder packetCount k s) (later : k ≤ l) (below : l ≤ packetCount)
    (workers : t.workers = (s.goto w pc).workers) (table : t.packetsToSend = setBelow packetCount l)
    (here : ∀ i ∈ pc.chosen, i ≤ l ∧ i < packetCount)
    (sent : ∀ i, Started t.history i → i ≤ l ∧ i < packetCount) : InOrder packetCount l t where
  below := below
  table := table
  chosen := by
    rw [workers]
    apply forall_workers_goto s w pc (fun pc => ∀ i ∈ pc.chosen, i ≤ l ∧ i < packetCount) here
    intro v _ i chosen
    obtain ⟨near, inside⟩ := inOrder.chosen v i chosen
    exact ⟨near.trans later, inside⟩
  sent := sent

theorem blocksAhead_goto_lt [Fintype ι] (later : k ≤ l)
    (workers : t.workers = (s.goto w pc).workers)
    (less : pc.ahead packetCount l < (s.workers w).ahead packetCount k) :
    blocksAhead packetCount l t < blocksAhead packetCount k s := by
  have each (v : ι) : (t.workers v).ahead packetCount l ≤ (s.workers v).ahead packetCount k := by
    rw [workers, workers_goto]
    split_ifs with same
    · exact same ▸ less.le
    · exact (s.workers v).ahead_antitone packetCount later
  refine Finset.sum_lt_sum (fun v _ => each v) ⟨w, Finset.mem_univ w, ?_⟩
  rwa [workers, workers_goto, if_pos rfl]

/-- What a block of a worker leaves: the front has not shrunk, and unless everything was
marked before, less is ahead. -/
structure Advances [Fintype ι] (packetCount k : ℕ) (s t : Transmission ι) (l : ℕ) : Prop where
  later : k ≤ l
  inOrder : InOrder packetCount l t
  fewer : k < packetCount → blocksAhead packetCount l t < blocksAhead packetCount k s

/-- A worker that leaves the table alone. -/
theorem InOrder.stays [Fintype ι] (inOrder : InOrder packetCount k s)
    (workers : t.workers = (s.goto w pc).workers) (table : t.packetsToSend = s.packetsToSend)
    (here : ∀ i ∈ pc.chosen, i ≤ k ∧ i < packetCount)
    (sent : ∀ i, Started t.history i → i ≤ k ∧ i < packetCount)
    (less : k < packetCount → pc.ahead packetCount k < (s.workers w).ahead packetCount k) :
    Advances packetCount k s t k where
  later := le_rfl
  inOrder := inOrder.goto le_rfl inOrder.below workers (table.trans inOrder.table) here sent
  fewer more := blocksAhead_goto_lt le_rfl workers (less more)

theorem InOrder.transmits [Fintype ι] (inOrder : InOrder packetCount k s)
    (moved : Transmits sender s w t) : ∃ l, Advances packetCount k s t l := by
  have held := inOrder.chosen w
  cases moved with
  | checks located =>
    refine ⟨k, inOrder.stays rfl rfl ?_ inOrder.sent ?_⟩
    · split_ifs <;> exact fun _ held => absurd held (Option.not_mem_none _)
    · intro more
      rw [located]
      split_ifs <;> simp only [TransmitPc.ahead] <;> omega
  | waits located marked =>
    refine ⟨k, inOrder.stays rfl rfl (fun _ held => absurd held (Option.not_mem_none _))
      inOrder.sent ?_⟩
    -- Then everything is marked.
    intro more
    have clear := ClearEntries.getElem?_setBelow k more
    rw [← inOrder.table, decide_eq_false (lt_irrefl k)] at clear
    cases marked _ (List.mem_of_getElem? clear)
  | chooses i located unsent first =>
    obtain ⟨inside, -⟩ := List.getElem?_eq_some_iff.mp unsent
    rw [inOrder.table, ClearEntries.length_setBelow] at inside
    -- The first clear entry is the one behind the front.
    have next : i = k := by
      have clear : ¬ i < k := by
        rw [← inOrder.marked_iff, unsent]
        simp
      by_contra apart
      have set := inOrder.marked_iff.mp (first k (by omega))
      exact lt_irrefl k set
    refine ⟨k, inOrder.stays rfl rfl ?_ inOrder.sent ?_⟩
    · intro j same
      obtain rfl := Option.some.inj same
      exact ⟨next.le, inside⟩
    · intro more
      rw [located, next]
      simp only [TransmitPc.ahead]
      omega
  | runsDry i located nothing =>
    refine ⟨k, inOrder.stays rfl rfl (fun _ held => absurd held (Option.not_mem_none _))
      inOrder.sent fun _ => ?_⟩
    rw [located]
    exact Nat.succ_pos _
  | reads i located something =>
    rw [located] at held
    refine ⟨k, inOrder.stays rfl rfl held inOrder.sent fun _ => ?_⟩
    rw [located]
    exact Nat.lt_succ_self _
  | sends i buffer pc located outcome =>
    rw [located] at held
    refine ⟨k, inOrder.stays rfl rfl ?_ ?_ ?_⟩
    · rcases outcome with rfl | ⟨failure, rfl⟩
      · exact held
      · exact fun _ held => absurd held (Option.not_mem_none _)
    · rintro j ⟨packet, listed⟩
      rcases List.mem_cons.mp listed with latest | before
      · obtain ⟨rfl, -⟩ := Event.send.inj latest
        exact held j rfl
      · exact inOrder.sent j ⟨packet, before⟩
    · intro _
      rw [located]
      rcases outcome with rfl | ⟨failure, rfl⟩
      · exact Nat.lt_succ_self _
      · exact Nat.succ_pos _
  | marks i located =>
    rw [located] at held
    obtain ⟨near, inside⟩ := held i rfl
    have later : k ≤ max k (i + 1) := le_max_left _ _
    have below : max k (i + 1) ≤ packetCount := max_le inOrder.below inside
    refine ⟨max k (i + 1), later, inOrder.goto later below rfl ?_
      (fun _ held => absurd held (Option.not_mem_none _)) fun j started => ?_, fun _ => ?_⟩
    · change s.packetsToSend.set i true = _
      rw [inOrder.table, ClearEntries.setBelow_set packetCount near]
    · obtain ⟨near, inside⟩ := inOrder.sent j started
      exact ⟨near.trans later, inside⟩
    · refine blocksAhead_goto_lt later rfl ?_
      rw [located]
      simp only [TransmitPc.ahead]
      omega

/-! ### The worker with the last packet -/

omit [DecidableEq ι] in
/-- A listener without a message in its hands touches nothing that the workers use. -/
theorem eq_of_listen {answer : Answer} (empty : ∀ message, s.listener ≠ .handling message)
    (moved : s.listen answer = some t) : ∃ pc, t = { s with listener := pc } := by
  cases hears_of_listen moved with
  | resends message _ located
  | resendsBeyond message _ located
  | handleFails message _ located => exact absurd located (empty message)
  | acks message located
  | aborts message located
  | ignores message located => exact absurd located (empty message)
  | _ => exact ⟨_, rfl⟩

/-- No worker was stopped or has thrown, one that has run dry has found the stream
failed, and a stream that has failed has given the last packet to a worker that still
has it, unless it is marked. -/
structure Tended (file : List Byte) (packetCount : ℕ) (s : Transmission ι) : Prop where
  content : s.fileStream.content = file
  running : s.stop = false
  stays : ∀ w, s.workers w ≠ .exited .stopped ∧ ∀ failure, s.workers w ≠ .exited (.threw failure)
  dry : ∀ w, s.workers w = .exited .noMoreData → s.fileStream.failbit = true
  held : s.fileStream.failbit = true → s.packetsToSend[packetCount - 1]? = some true ∨
    ∃ w, (s.workers w).HasRead (packetCount - 1)

omit [DecidableEq ι] in
theorem tended_start (file : List Byte) (packetCount : ℕ) :
    Tended file packetCount (start file packetCount : Transmission ι) where
  content := rfl
  running := rfl
  stays _ := ⟨TransmitPc.noConfusion, fun _ => TransmitPc.noConfusion⟩
  dry _ same := TransmitPc.noConfusion same
  held failed := absurd failed Bool.false_ne_true

omit [DecidableEq ι] in
theorem Tended.listens {file : List Byte} (tended : Tended file packetCount s) (pc : ListenPc) :
    Tended file packetCount { s with listener := pc } :=
  ⟨tended.content, tended.running, tended.stays, tended.dry, tended.held⟩

/-- A worker that leaves the stream alone, does not leave, and keeps the last packet until
it marks it. -/
theorem Tended.goto {file : List Byte} (tended : Tended file packetCount s)
    (workers : t.workers = (s.goto w pc).workers) (stream : t.fileStream = s.fileStream)
    (stop : t.stop = s.stop) (remains : ∀ exit, pc ≠ .exited exit)
    (marks : ∀ i : ℕ, s.packetsToSend[i]? = some true → t.packetsToSend[i]? = some true)
    (keeps : (s.workers w).HasRead (packetCount - 1) → pc.HasRead (packetCount - 1) ∨
      t.packetsToSend[packetCount - 1]? = some true) : Tended file packetCount t where
  content := stream ▸ tended.content
  running := stop.trans tended.running
  stays := by
    rw [workers]
    apply forall_workers_goto s w pc
      fun pc => pc ≠ .exited .stopped ∧ ∀ failure, pc ≠ .exited (.threw failure)
    · exact ⟨remains _, fun _ => remains _⟩
    · intro v _
      exact tended.stays v
  dry := by
    rw [workers, stream]
    apply forall_workers_goto s w pc fun pc => pc = .exited .noMoreData → s.fileStream.failbit = true
    · exact fun same => absurd same (remains _)
    · intro v _
      exact tended.dry v
  held failed := by
    rw [stream] at failed
    rcases tended.held failed with marked | ⟨v, read⟩
    · exact Or.inl (marks _ marked)
    · by_cases same : v = w
      · subst same
        refine (keeps read).symm.imp_right fun here => ⟨v, ?_⟩
        rwa [workers, workers_goto, if_pos rfl]
      · refine Or.inr ⟨v, ?_⟩
        rwa [workers, workers_goto, if_neg same]

/-- A send that returns is followed by the mark. -/
theorem ne_threw_of_transmit (moved : s.transmit sender w none = some t) (failure : Failure) :
    t.workers w ≠ .exited (.threw failure) := by
  rw [transmit] at moved
  cases located : s.workers w with
  | exited exit => simp only [located, reduceCtorEq] at moved
  | checkStop | choose | read i =>
    simp only [located, Option.some_inj] at moved
    subst moved
    change (s.goto w _).workers w ≠ _
    rw [workers_goto, if_pos rfl]
    split_ifs <;> simp
  | send i buffer | mark i =>
    simp only [located, Option.some_inj] at moved
    subst moved
    change (s.goto w _).workers w ≠ _
    rw [workers_goto, if_pos rfl]
    exact TransmitPc.noConfusion

theorem Tended.transmits {file : List Byte} (chunked : Chunked file packetCount)
    (tended : Tended file packetCount s) (inOrder : InOrder packetCount k s)
    (moved : s.transmit sender w none = some t) : Tended file packetCount t := by
  have unthrown := ne_threw_of_transmit moved
  have held := inOrder.chosen w
  cases transmits_of_transmit moved with
  | checks located =>
    refine tended.goto rfl rfl rfl ?_ (fun _ => id) fun read => ?_
    · rw [tended.running]
      exact fun _ => TransmitPc.noConfusion
    · rw [located] at read
      cases read
  | waits located | chooses _ located =>
    refine tended.goto rfl rfl rfl (fun _ => TransmitPc.noConfusion) (fun _ => id) fun read => ?_
    rw [located] at read
    cases read
  | runsDry i located nothing =>
    rw [located] at held
    have failed : s.fileStream.failbit = true := by
      by_contra good
      have inside := chunked.inside (held i rfl).2
      exact (readOf_of_good tended.content (Bool.eq_false_iff.mpr good) inside).1 nothing
    have fails := (InputStream.readAt_of_failed failed (i * packetPayloadSize)
      packetPayloadSize).2
    have others (pc : TransmitPc) (v : ι) (apart : v ≠ w) :
        (s.goto w pc).workers v = s.workers v := by
      rw [workers_goto, if_neg apart]
    refine ⟨(InputStream.content_readAt _ _ _).trans tended.content, tended.running, ?_,
      fun _ _ => fails, fun _ => (tended.held failed).imp_right ?_⟩
    · apply forall_workers_goto s w (.exited .noMoreData)
        fun pc => pc ≠ .exited .stopped ∧ ∀ failure, pc ≠ .exited (.threw failure)
      · exact ⟨by simp, by simp⟩
      · intro v _
        exact tended.stays v
    · -- The worker that has the packet is another one.
      rintro ⟨v, read⟩
      have apart : v ≠ w := by
        rintro rfl
        rw [located] at read
        cases read
      exact ⟨v, (others _ v apart).symm ▸ read⟩
  | reads i located something =>
    rw [located] at held
    have inside := (held i rfl).2
    have good : s.fileStream.failbit = false := by
      by_contra failed
      exact something (readOf_of_failed (Bool.not_eq_false _ ▸ failed) i)
    have short := (readOf_of_good tended.content good (chunked.inside inside)).2
    refine ⟨(InputStream.content_readAt _ _ _).trans tended.content, tended.running, ?_, ?_,
      fun fails => Or.inr ⟨w, ?_⟩⟩
    · apply forall_workers_goto s w (.send i _)
        fun pc => pc ≠ .exited .stopped ∧ ∀ failure, pc ≠ .exited (.threw failure)
      · exact ⟨by simp, by simp⟩
      · intro v _
        exact tended.stays v
    · -- Before the first short read nobody runs dry.
      apply forall_workers_goto s w (.send i _) fun pc => pc = .exited .noMoreData → _ = true
      · exact fun same => TransmitPc.noConfusion same
      · intro v _ same
        exact absurd (tended.dry v same) (good ▸ Bool.false_ne_true)
    · have fails : (readOf s i).1.failbit = true := fails
      rw [short, decide_eq_true_iff] at fails
      have last : i = packetCount - 1 := by
        by_contra early
        have next : i + 1 < packetCount := by omega
        exact absurd (chunked.inside next) (by omega)
      change ((s.goto w _).workers w).HasRead _
      rw [workers_goto, if_pos rfl]
      exact last
  | sends i buffer pc located outcome =>
    rcases outcome with rfl | ⟨failure, rfl⟩
    · refine tended.goto rfl rfl rfl (fun _ => TransmitPc.noConfusion) (fun _ => id) fun read => ?_
      rw [located] at read
      exact Or.inl read
    · refine absurd ?_ (unthrown failure)
      change (s.goto w _).workers w = _
      rw [workers_goto, if_pos rfl]
  | marks i located =>
    rw [located] at held
    have inside : i < s.packetsToSend.length := by
      rw [inOrder.table, ClearEntries.length_setBelow]
      exact (held i rfl).2
    refine tended.goto rfl rfl rfl (fun _ => TransmitPc.noConfusion) (fun j set => ?_) fun read => ?_
    · by_cases same : i = j
      · exact same ▸ List.getElem?_set_self inside
      · exact (List.getElem?_set_ne same).trans set
    · rw [located] at read
      have last : i = packetCount - 1 := read
      exact Or.inr (last ▸ List.getElem?_set_self inside)

omit [DecidableEq ι] in
/-- Unless everything is marked, somebody is still there. -/
theorem Tended.exists_worker [Nonempty ι] {file : List Byte}
    (tended : Tended file packetCount s) (inOrder : InOrder packetCount k s)
    (missing : k < packetCount) : ∃ w, ∀ exit, s.workers w ≠ .exited exit := by
  cases failed : s.fileStream.failbit with
  | true =>
    rcases tended.held failed with marked | ⟨w, read⟩
    · have last := inOrder.marked_iff.mp marked
      omega
    · refine ⟨w, fun exit left => ?_⟩
      rw [left] at read
      cases read
  | false =>
    obtain ⟨w⟩ := ‹Nonempty ι›
    refine ⟨w, fun exit left => ?_⟩
    cases exit with
    | stopped => exact (tended.stays w).1 left
    | threw failure => exact (tended.stays w).2 failure left
    | noMoreData => cases (tended.dry w left).symm.trans failed

theorem exists_transmit (sender : Sender) (here : ∀ exit, s.workers w ≠ .exited exit) :
    ∃ t, s.transmit sender w none = some t := by
  rw [transmit]
  cases located : s.workers w with
  | exited exit => exact absurd located (here exit)
  | checkStop | choose | read i | send i buffer | mark i => exact ⟨_, rfl⟩

end Workers

end Transmission

/-! ### Sessions -/

/-- A block of a worker. -/
def SessionMove.isTransmit {ι : Type} : SessionMove ι → Bool
  | .transmit _ _ => true
  | _ => false

namespace Session

open Transmission (InOrder Tended blocksAhead)

variable {ι : Type} [DecidableEq ι] {ends : Ends}

/-- In a session the others leave what the workers use. -/
theorem transmission_of_other {s t : Session ι} {move : SessionMove ι} (deaf : Deaf ends s)
    (moved : (system ends).step s move = some t)
    (other : ∀ w sendFault, move ≠ .transmit w sendFault) :
    ∃ pc, t.transmission = { s.transmission with listener := pc } := by
  rcases (apart_of_step moved).2 other with same | ⟨answer, heard⟩
  · exact ⟨s.transmission.listener, same⟩
  · exact Transmission.eq_of_listen deaf.empty heard

/-- The packets are in order, and the blocks that the workers have executed and can still
execute are bounded until everything is marked. -/
def Paced [Fintype ι] (ends : Ends) (moves : List (SessionMove ι)) (s : Session ι) : Prop :=
  ∃ k, InOrder ends.packetCount.toNat k s.transmission ∧
    (k < ends.packetCount.toNat →
      moves.countP SessionMove.isTransmit +
          blocksAhead ends.packetCount.toNat k s.transmission ≤
        5 * ends.packetCount.toNat * Fintype.card ι)

omit [DecidableEq ι] in
theorem paced_start [Fintype ι] : Paced ends [] (start ends : Session ι) := by
  refine ⟨0, Transmission.inOrder_start _ _, fun _ => ?_⟩
  rw [List.countP_nil, Nat.zero_add]
  exact (Transmission.blocksAhead_start _ _).le

theorem Paced.step [Fintype ι] {s t : Session ι} {moves : List (SessionMove ι)}
    {move : SessionMove ι} (paced : Paced ends moves s) (deaf : Deaf ends s)
    (moved : (system ends).step s move = some t) : Paced ends (moves ++ [move]) t := by
  obtain ⟨k, inOrder, counted⟩ := paced
  rw [Paced, List.countP_append, List.countP_singleton]
  by_cases works : ∃ w sendFault, move = .transmit w sendFault
  · obtain ⟨w, sendFault, rfl⟩ := works
    obtain ⟨transmission, sent, rfl⟩ := Option.map_eq_some_iff.mp moved
    obtain ⟨l, later, inOrder, fewer⟩ :=
      inOrder.transmits (Transmission.transmits_of_transmit sent)
    refine ⟨l, inOrder, fun missing => ?_⟩
    -- Something was missing before, so the block has made the rest smaller.
    have counted := counted (later.trans_lt missing)
    have fewer := fewer (later.trans_lt missing)
    rw [SessionMove.isTransmit, if_pos rfl]
    dsimp only
    omega
  · have other (w : ι) (sendFault : Option Failure) : move ≠ .transmit w sendFault :=
      fun same => works ⟨w, sendFault, same⟩
    obtain ⟨pc, same⟩ := transmission_of_other deaf moved other
    have idle : move.isTransmit = false := by
      cases move with
      | transmit w sendFault => exact absurd rfl (other w sendFault)
      | _ => rfl
    rw [same, idle]
    exact ⟨k, ⟨inOrder.below, inOrder.table, inOrder.chosen, inOrder.sent⟩, counted⟩

theorem paced_of_exec [Fintype ι] {s : Session ι} {moves : List (SessionMove ι)}
    (run : (system ends).exec (start ends) moves = some s) : Paced ends moves s := by
  refine StepSystem.exec_induction paced_start ?_ run
  intro moves s move t before paced moved
  exact paced.step (deaf_of_reachable ⟨_, moves, rfl, before⟩) moved

/-- No send of the run has failed. -/
def NoneFailed (moves : List (SessionMove ι)) : Prop :=
  ∀ w failure, .transmit w (some failure) ∉ moves

/-- Unless a send has failed, the last packet is tended. -/
def Unspoilt (ends : Ends) (moves : List (SessionMove ι)) (s : Session ι) : Prop :=
  NoneFailed moves → Tended ends.file ends.packetCount.toNat s.transmission

theorem unspoilt_of_exec [Fintype ι] {s : Session ι} {moves : List (SessionMove ι)}
    (run : (system ends).exec (start ends) moves = some s) : Unspoilt ends moves s := by
  refine StepSystem.exec_induction (fun _ => Transmission.tended_start _ _) ?_ run
  intro moves s move t before tended moved sound
  have tended := tended fun w failure listed => sound w failure (List.mem_append_left _ listed)
  by_cases works : ∃ w sendFault, move = .transmit w sendFault
  · obtain ⟨w, sendFault, rfl⟩ := works
    obtain ⟨transmission, sent, rfl⟩ := Option.map_eq_some_iff.mp moved
    obtain ⟨k, inOrder, -⟩ := paced_of_exec before
    cases sendFault with
    | some failure =>
      exact absurd (List.mem_append_right _ (List.mem_singleton_self _)) (sound w failure)
    | none =>
      have chunked := Transmission.Chunked.of_calculateTotalPacketCount ends.nonempty
        ends.describable ends.counted
      exact tended.transmits chunked inOrder sent
  · obtain ⟨pc, same⟩ := transmission_of_other (deaf_of_reachable ⟨_, moves, rfl, before⟩) moved
      fun w sendFault same => works ⟨w, sendFault, same⟩
    exact same ▸ tended.listens pc

/-- The packets are marked in order: the first `k` and no others. They were all sent,
nothing behind the next one was sent, and nobody holds anything behind it. -/
structure SentInOrder (ends : Ends) (s : Session ι) (k : ℕ) : Prop where
  below : k ≤ ends.packetCount.toNat
  marked : ∀ i : ℕ, s.transmission.packetsToSend[i]? = some true ↔ i < k
  earlier : ∀ i < k, s.Sent i
  latest : ∀ i, s.Sent i → i ≤ k
  held : ∀ w, ∀ i ∈ (s.transmission.workers w).chosen, i ≤ k

/-- A session sends its packets in order. -/
theorem sentInOrder_of_reachable [Fintype ι] {s : Session ι}
    (reached : (system ends).Reachable s) : ∃ k, SentInOrder ends s k := by
  obtain ⟨_, moves, rfl, run⟩ := id reached
  obtain ⟨k, inOrder, -⟩ := paced_of_exec run
  have marks := Transmission.marksSent_of_reachable (transmission_of_reachable reached)
  exact ⟨k, inOrder.below, fun _ => inOrder.marked_iff,
    fun i before => marks.marked i (inOrder.marked_iff.mpr before),
    fun i sent => (inOrder.sent i sent).1, fun w i chosen => (inOrder.chosen w i chosen).1⟩

/-- The theorem at the end of the run of one byte. -/
theorem sentInOrder_oneByteSent :
    ∃ s k, (system oneByteEnds).exec (start oneByteEnds) oneByteSent = some s ∧
      SentInOrder oneByteEnds s k := by
  obtain ⟨s, run⟩ := Option.isSome_iff_exists.mp exec_oneByteSent
  obtain ⟨k, sentInOrder⟩ := sentInOrder_of_reachable ⟨_, oneByteSent, rfl, run⟩
  exact ⟨s, k, run, sentInOrder⟩

/-- The workers get everything sent: after a number of their blocks that the file and
their number fix, however these interleave with each other and with the rest, everything
is marked and sent. Until then one of them can go on, unless a send has failed. -/
structure SendsAll [Fintype ι] (ends : Ends) (moves : List (SessionMove ι)) (s : Session ι) :
    Prop where
  sent : 5 * ends.packetCount.toNat * Fintype.card ι < moves.countP SessionMove.isTransmit →
    ∀ i < ends.packetCount.toNat, s.transmission.packetsToSend[i]? = some true ∧ s.Sent i
  goesOn : NoneFailed moves → (∃ sent ∈ s.transmission.packetsToSend, sent = false) →
    ∃ w t, (system ends).step s (.transmit w none) = some t

theorem sendsAll_of_exec [Fintype ι] [Nonempty ι] {s : Session ι} {moves : List (SessionMove ι)}
    (run : (system ends).exec (start ends) moves = some s) : SendsAll ends moves s := by
  obtain ⟨k, inOrder, counted⟩ := paced_of_exec run
  have marks := Transmission.marksSent_of_reachable
    (transmission_of_reachable ⟨_, moves, rfl, run⟩)
  constructor
  · intro many i inside
    have done : ¬ k < ends.packetCount.toNat := fun missing => by
      have counted := counted missing
      omega
    have marked := inOrder.marked_iff.mpr (by omega : i < k)
    exact ⟨marked, marks.marked i marked⟩
  · rintro sound ⟨sent, listed, rfl⟩
    have missing : k < ends.packetCount.toNat := by
      obtain ⟨i, clear⟩ := List.getElem?_of_mem listed
      have inside := (List.getElem?_eq_some_iff.mp clear).1
      rw [inOrder.table, ClearEntries.length_setBelow] at inside
      by_contra done
      have marked := inOrder.marked_iff.mpr (by omega : i < k)
      cases clear.symm.trans marked
    obtain ⟨w, here⟩ := (unspoilt_of_exec run sound).exists_worker inOrder missing
    obtain ⟨transmission, sent⟩ := Transmission.exists_transmit ends.sender here
    exact ⟨w, _, Option.map_eq_some_iff.mpr ⟨transmission, sent, rfl⟩⟩

/-- A run without a failed send, with its packets in order. -/
structure Underway (ends : Ends) (moves : List (SessionMove ι)) (s : Session ι) (k : ℕ) :
    Prop where
  run : (system ends).exec (start ends) moves = some s
  sound : NoneFailed moves
  inOrder : InOrder ends.packetCount.toNat k s.transmission

/-- Some worker has a block to execute, with less ahead after it. -/
theorem Underway.next [Fintype ι] [Nonempty ι] {moves : List (SessionMove ι)} {s : Session ι}
    {k : ℕ} (underway : Underway ends moves s k) (missing : k < ends.packetCount.toNat) :
    ∃ move t l, Underway ends (moves ++ [move]) t l ∧
      blocksAhead ends.packetCount.toNat l t.transmission <
        blocksAhead ends.packetCount.toNat k s.transmission := by
  obtain ⟨run, sound, inOrder⟩ := underway
  obtain ⟨w, here⟩ := (unspoilt_of_exec run sound).exists_worker inOrder missing
  obtain ⟨transmission, sent⟩ := Transmission.exists_transmit ends.sender here
  obtain ⟨l, -, inOrder, fewer⟩ := inOrder.transmits (Transmission.transmits_of_transmit sent)
  have moved : (system ends).step s (.transmit w none) =
      some { s with transmission := transmission } :=
    Option.map_eq_some_iff.mpr ⟨transmission, sent, rfl⟩
  refine ⟨.transmit w none, _, l, ⟨StepSystem.exec_snoc_eq_some.mpr ⟨s, run, moved⟩, ?_, inOrder⟩,
    fewer missing⟩
  intro v failure listed
  rcases List.mem_append.mp listed with before | latest
  · exact sound v failure before
  · cases List.mem_singleton.mp latest

/-- So the workers alone can send everything. -/
theorem exists_exec_sent [Fintype ι] [Nonempty ι] (ends : Ends) :
    ∃ moves, ∃ s : Session ι, (system ends).exec (start ends) moves = some s ∧
      ∀ i < ends.packetCount.toNat, s.Sent i := by
  have extend (r : ℕ) : ∀ moves s k, Underway (ι := ι) ends moves s k →
      blocksAhead ends.packetCount.toNat k s.transmission = r →
        ∃ moves, ∃ s : Session ι, (system ends).exec (start ends) moves = some s ∧
          ∀ i < ends.packetCount.toNat, s.Sent i := by
    -- The induction is on the blocks ahead.
    induction r using Nat.strong_induction_on with
    | h r ih =>
      intro moves s k underway ahead
      by_cases missing : k < ends.packetCount.toNat
      · obtain ⟨move, t, l, underway, less⟩ := underway.next missing
        exact ih _ (ahead ▸ less) _ t l underway rfl
      · obtain ⟨run, -, inOrder⟩ := underway
        have marks := Transmission.marksSent_of_reachable
          (transmission_of_reachable ⟨_, moves, rfl, run⟩)
        refine ⟨moves, s, run, fun i inside => marks.marked i ?_⟩
        exact inOrder.marked_iff.mpr (by omega)
  have begins : Underway ends [] (start ends : Session ι) 0 :=
    ⟨rfl, fun _ _ => List.not_mem_nil, Transmission.inOrder_start _ _⟩
  exact extend _ _ _ _ begins rfl

/-- The theorem for the run of one byte. -/
theorem sendsAll_oneByteSent :
    ∃ s, (system oneByteEnds).exec (start oneByteEnds) oneByteSent = some s ∧
      SendsAll oneByteEnds oneByteSent s := by
  obtain ⟨s, run⟩ := Option.isSome_iff_exists.mp exec_oneByteSent
  exact ⟨s, run, sendsAll_of_exec run⟩

end Session

end Fup.Client
