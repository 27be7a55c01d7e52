/-
# Packets chosen twice

A worker selects the first packet that is not marked and marks it only behind
its send, in another block. A worker that selects in between gets the same
packet. So does one that selects after a send has thrown, since its packet is
never marked.
-/

import Fup.Client.Transmission.Chunks
import Mathlib.Data.Fintype.Basic

namespace Fup.Client

/-- The sequence id of a packet that was passed to `Send`. -/
def Event.sentSeqId : Event → Option SequenceId
  | .resend _ => none
  | .send _ packet => some packet.seqId

/-- The step receives no RESEND. -/
def Move.Quiet {ι : Type} (move : Move ι) : Prop :=
  ∀ message, move = .listen (.received (.ok message)) → message.header.keyword ≠ .resend

/-- The places that no send leads to. -/
inductive TransmitPc.Unsent : TransmitPc → Prop
  | checkStop : Unsent .checkStop
  | choose : Unsent .choose
  | read {i : ℕ} : Unsent (.read i)
  | send {i : ℕ} {buffer : List Byte} : Unsent (.send i buffer)
  | stopped : Unsent (.exited .stopped)
  | ranDry : Unsent (.exited .noMoreData)

theorem TransmitPc.Unsent.ne_mark {pc : TransmitPc} (unsent : pc.Unsent) (i : ℕ) :
    pc ≠ .mark i := by
  rintro rfl
  cases unsent

theorem TransmitPc.Unsent.ne_threw {pc : TransmitPc} (unsent : pc.Unsent) (failure : Failure) :
    pc ≠ .exited (.threw failure) := by
  rintro rfl
  cases unsent

/-- The exception that a worker has ended with. -/
def TransmitPc.fault? : TransmitPc → Option Failure
  | .exited (.threw failure) => some failure
  | _ => none

/-- Whether the next block is a send. -/
def TransmitPc.sends : TransmitPc → Bool
  | .send _ _ => true
  | _ => false

namespace Transmission

variable {ι : Type}

/-- The sequence ids passed to `Send` so far, the latest first. -/
def sentIds (s : Transmission ι) : List SequenceId := s.history.filterMap Event.sentSeqId

/-- No sequence id was passed to `Send` twice, and no two workers are between
selecting and marking the same one. -/
structure NoDuplicates (s : Transmission ι) : Prop where
  once : s.sentIds.Nodup
  apart : ∀ v w, ∀ i ∈ (s.workers v).chosen, i ∈ (s.workers w).chosen → v = w

/-- A send has thrown. -/
def Thrown (s : Transmission ι) : Prop := ∃ w failure, s.workers w = .exited (.threw failure)

/-- A worker selects while no worker holds a packet, and sends while no send has
thrown. -/
def Alone (s : Transmission ι) (move : Move ι) : Prop :=
  ∀ w sendFault, move = .transmit w sendFault →
    (s.workers w = .choose → ∀ v, (s.workers v).chosen = none) ∧
      ∀ i buffer, s.workers w = .send i buffer → ¬ Thrown s

instance decidableThrown [Fintype ι] (s : Transmission ι) : Decidable (Thrown s) :=
  decidable_of_iff (∃ w, (s.workers w).fault?.isSome) (exists_congr fun w => by
    cases s.workers w with
    | exited exit => cases exit <;> simp [TransmitPc.fault?]
    | checkStop | choose | read | send | mark => simp [TransmitPc.fault?])

instance decidableAlone [Fintype ι] (s : Transmission ι) :
    (move : Move ι) → Decidable (Alone s move)
  | .listen _ => isTrue (by
      intro _ _ transmits
      cases transmits)
  | .transmit w sendFault =>
    decidable_of_iff ((s.workers w = .choose → ∀ v, (s.workers v).chosen = none) ∧
        ((s.workers w).sends → ¬ Thrown s)) (by
      constructor
      · rintro ⟨selects, sends⟩ _ _ ⟨⟩
        exact ⟨selects, fun i buffer located => sends (by rw [located]; rfl)⟩
      · intro alone
        obtain ⟨selects, sends⟩ := alone w sendFault rfl
        refine ⟨selects, fun sending => ?_⟩
        cases located : s.workers w with
        | send i buffer => exact sends i buffer located
        | checkStop | choose | read | mark | exited => simp [TransmitPc.sends, located] at sending)

/-! ### One packet at a time -/

/-- At most one worker holds a packet, the first one that is not marked. A packet
that was sent is marked, or it is that one, and then its worker is in front of
the mark or a send has thrown. -/
structure Single (sender : Sender) (file : List Byte) (packetCount : PacketCount)
    (s : Transmission ι) : Prop where
  carries : CarriesChunks sender file packetCount.toNat s
  quiet : ∀ message, s.listener = .handling message → message.header.keyword ≠ .resend
  next : ∀ w, ∀ i ∈ (s.workers w).chosen, getNextPossiblePacketId s.packetsToSend = i
  only : ∀ v w, (s.workers v).chosen ≠ none → (s.workers w).chosen ≠ none → v = w
  once : s.sentIds.Nodup
  marked : ∀ id ∈ s.sentIds, s.packetsToSend[id.toNat]? = some true ∨
    getNextPossiblePacketId s.packetsToSend = id.toNat ∧
      ((∃ w i, s.workers w = .mark i) ∨ Thrown s)
  thrown : Thrown s → (∃ id ∈ s.sentIds, getNextPossiblePacketId s.packetsToSend = id.toNat) ∧
    ∀ w i, s.workers w ≠ .mark i

theorem single_start (sender : Sender) (file : List Byte) (packetCount : PacketCount) :
    Single sender file packetCount (start file packetCount.toNat : Transmission ι) where
  carries := carriesChunks_start sender file packetCount.toNat
  quiet := fun _ located => nomatch located
  next := fun _ _ held => absurd held (Option.not_mem_none _)
  only := fun _ _ holds _ => absurd rfl holds
  once := List.nodup_nil
  marked := fun _ listed => absurd listed List.not_mem_nil
  thrown := fun ⟨_, _, located⟩ => nomatch located

theorem Single.noDuplicates {sender : Sender} {file : List Byte} {packetCount : PacketCount}
    {s : Transmission ι} (single : Single sender file packetCount s) : NoDuplicates s where
  once := single.once
  apart v w i here there := by
    apply single.only v w
    · rw [Option.mem_def.mp here]
      exact nofun
    · rw [Option.mem_def.mp there]
      exact nofun

/-- What the scan returns is not marked. -/
theorem unmarked_of_next {packetsToSend : List Bool} {i : ℕ}
    (next : getNextPossiblePacketId packetsToSend = i) : packetsToSend[i]? = some false := by
  rcases getNextPossiblePacketId_cases packetsToSend with ⟨minusOne, -⟩ | ⟨k, found, entry, -⟩
  · have negative : (i : ℤ) = -1 := next.symm.trans minusOne
    omega
  · have same : k = i := Nat.cast_inj.mp (found.symm.trans next)
    exact same ▸ entry

section Steps

variable [DecidableEq ι] {sender : Sender} {file : List Byte} {packetCount : PacketCount}
  {s t : Transmission ι} {w : ι} {pc : TransmitPc}

/-- A send has thrown after a step exactly when one had before, when neither of
the worker's blocks says so. -/
theorem thrown_goto_iff (workers : t.workers = (s.goto w pc).workers)
    (before : ∀ failure, s.workers w ≠ .exited (.threw failure))
    (after : ∀ failure, pc ≠ .exited (.threw failure)) : Thrown t ↔ Thrown s := by
  unfold Thrown
  rw [workers]
  -- Going on from `w` changes the place of nobody else.
  constructor
  · intro ⟨v, failure, located⟩
    rw [workers_goto] at located
    split_ifs at located with same
    · exact absurd located (after failure)
    · exact ⟨v, failure, located⟩
  · intro ⟨v, failure, located⟩
    have other : v ≠ w := fun same => before failure (same ▸ located)
    exact ⟨v, failure, by rw [workers_goto, if_neg other, located]⟩

/-- The same for a worker in front of its mark. -/
theorem marking_goto_iff (workers : t.workers = (s.goto w pc).workers)
    (before : ∀ i, s.workers w ≠ .mark i) (after : ∀ i, pc ≠ .mark i) :
    (∃ v i, t.workers v = .mark i) ↔ ∃ v i, s.workers v = .mark i := by
  rw [workers]
  constructor
  · intro ⟨v, i, located⟩
    rw [workers_goto] at located
    split_ifs at located with same
    · exact absurd located (after i)
    · exact ⟨v, i, located⟩
  · intro ⟨v, i, located⟩
    have other : v ≠ w := fun same => before i (same ▸ located)
    exact ⟨v, i, by rw [workers_goto, if_neg other, located]⟩

/-- A block that neither sends nor marks: a packet it leads to is the first one
not marked, and nobody else holds one. -/
theorem Single.goto (single : Single sender file packetCount s)
    (carries : CarriesChunks sender file packetCount.toNat t)
    (workers : t.workers = (s.goto w pc).workers) (table : t.packetsToSend = s.packetsToSend)
    (listener : t.listener = s.listener) (history : t.history = s.history)
    {here : TransmitPc} (located : s.workers w = here) (before : here.Unsent) (after : pc.Unsent)
    (next : ∀ i ∈ pc.chosen, getNextPossiblePacketId s.packetsToSend = i)
    (only : pc.chosen ≠ none → ∀ v ≠ w, (s.workers v).chosen = none) :
    Single sender file packetCount t := by
  -- The sends and the marks are those of before.
  have sent : t.sentIds = s.sentIds := congrArg (List.filterMap Event.sentSeqId) history
  subst located
  have thrown := thrown_goto_iff workers before.ne_threw after.ne_threw
  have marking := marking_goto_iff workers before.ne_mark after.ne_mark
  constructor
  · exact carries
  · exact listener ▸ single.quiet
  -- The packet of the worker is the first one not marked, as those of the others are.
  · rw [workers, table]
    apply forall_workers_goto s w pc
      (fun pc => ∀ i ∈ pc.chosen, getNextPossiblePacketId s.packetsToSend = i) next
    exact fun v _ => single.next v
  -- If it holds one now, nobody else does.
  · intro u v here there
    rw [workers, workers_goto] at here there
    split_ifs at here there with left right right
    · exact left.trans right.symm
    · exact absurd (only here v right) there
    · exact absurd (only there u left) here
    · exact single.only u v here there
  · exact sent ▸ single.once
  · rw [sent, table, marking, thrown]
    exact single.marked
  · rw [sent, table, thrown]
    intro threw
    refine ⟨(single.thrown threw).1, fun v i located => ?_⟩
    obtain ⟨u, j, marks⟩ := marking.mp ⟨v, i, located⟩
    exact (single.thrown threw).2 u j marks

/-- Such a block, when it leads to a place without a packet. -/
theorem Single.leaves (single : Single sender file packetCount s)
    (carries : CarriesChunks sender file packetCount.toNat t) (after : t = s.goto w pc)
    {here : TransmitPc} (located : s.workers w = here) (before : here.Unsent) (unsent : pc.Unsent)
    (free : pc.chosen = none) : Single sender file packetCount t := by
  subst after
  refine single.goto carries rfl rfl rfl rfl located before unsent ?_ ?_
  · intro i chosen
    cases free.symm.trans chosen
  · exact fun holds => absurd free holds

omit [DecidableEq ι] in
/-- The worker that holds a packet is the only one. -/
theorem Single.others (single : Single sender file packetCount s)
    (holds : (s.workers w).chosen ≠ none) : ∀ v ≠ w, (s.workers v).chosen = none := by
  intro v other
  by_contra there
  exact other (single.only v w there holds)

/-- A worker in front of its mark holds a packet. -/
theorem not_marking_goto (free : ∀ v ≠ w, (s.workers v).chosen = none) (here : ∀ i, pc ≠ .mark i)
    (v : ι) (i : ℕ) : (s.goto w pc).workers v ≠ .mark i := by
  rw [workers_goto]
  split_ifs with same
  · exact here i
  · intro located
    have held := free v same
    rw [located] at held
    cases held

omit [DecidableEq ι] in
/-- In front of a send all packets sent are marked, unless a send has thrown. -/
theorem Single.marked_of_send (single : Single sender file packetCount s) (calm : ¬ Thrown s)
    {i : ℕ} {buffer : List Byte} (located : s.workers w = .send i buffer) :
    ∀ id ∈ s.sentIds, s.packetsToSend[id.toNat]? = some true := by
  intro id sent
  rcases single.marked id sent with marked | ⟨-, ⟨v, j, marking⟩ | thrown⟩
  · exact marked
  · -- Whoever is in front of its mark would hold a packet as well.
    have same : v = w := by
      apply single.only v w
      · rw [marking]
        exact nofun
      · rw [located]
        exact nofun
    rw [same, located] at marking
    cases marking
  · exact absurd thrown calm

omit [DecidableEq ι] in
/-- The number of a packet that a worker holds is its sequence id. -/
theorem Single.toNat_ofNat (single : Single sender file packetCount s) {i : ℕ}
    (holds : i ∈ (s.workers w).chosen) : (UInt64.ofNat i).toNat = i :=
  toNat_ofNat_of_lt (single.carries.inTable.chosen w i holds)

omit [DecidableEq ι] in
/-- So the packet in front of a send is a new one. -/
theorem Single.fresh_of_send (single : Single sender file packetCount s) (calm : ¬ Thrown s)
    {i : ℕ} {buffer : List Byte} (located : s.workers w = .send i buffer) :
    UInt64.ofNat i ∉ s.sentIds := by
  have holds : i ∈ (s.workers w).chosen := by rw [located]; rfl
  intro again
  have entry := single.marked_of_send calm located _ again
  rw [single.toNat_ofNat holds, unmarked_of_next (single.next w i holds)] at entry
  cases entry

theorem Single.sends (single : Single sender file packetCount s) (calm : ¬ Thrown s) {i : ℕ}
    {buffer : List Byte} (located : s.workers w = .send i buffer)
    (outcome : pc = .mark i ∨ ∃ failure, pc = .exited (.threw failure))
    (carries : CarriesChunks sender file packetCount.toNat t)
    (after : t = { s.goto w pc with
      history := .send i ⟨UInt64.ofNat i, sender.crc32 buffer, buffer⟩ :: s.history }) :
    Single sender file packetCount t := by
  have holds : i ∈ (s.workers w).chosen := by rw [located]; rfl
  have held : (s.workers w).chosen ≠ none := by rw [located]; exact nofun
  have next := single.next w i holds
  -- No other worker holds a packet, and all packets sent before are marked.
  have others := single.others held
  have marked := single.marked_of_send calm located
  have number := single.toNat_ofNat holds
  have workers : t.workers = (s.goto w pc).workers := by rw [after]
  have table : t.packetsToSend = s.packetsToSend := by rw [after]; rfl
  have sent : t.sentIds = UInt64.ofNat i :: s.sentIds := by rw [after]; rfl
  constructor
  · exact carries
  · exact after ▸ single.quiet
  · rw [workers, table]
    apply forall_workers_goto s w pc
      (fun pc => ∀ j ∈ pc.chosen, getNextPossiblePacketId s.packetsToSend = j)
    · intro j chosen
      rcases outcome with rfl | ⟨failure, rfl⟩
      · exact Option.some.inj chosen ▸ next
      · exact absurd chosen (Option.not_mem_none j)
    · exact fun v _ => single.next v
  -- Only the sender can still hold a packet.
  · have here (v : ι) (holds : (t.workers v).chosen ≠ none) : v = w := by
      by_contra other
      rw [workers, workers_goto, if_neg other] at holds
      exact holds (others v other)
    exact fun u v first second => (here u first).trans (here v second).symm
  · rw [sent]
    exact List.nodup_cons.mpr ⟨single.fresh_of_send calm located, single.once⟩
  · rw [sent, table]
    intro id listed
    rcases List.mem_cons.mp listed with rfl | before
    · -- The packet just sent is not marked yet.
      refine Or.inr ⟨by rw [number, next], ?_⟩
      have here : t.workers w = pc := by rw [workers, workers_goto, if_pos rfl]
      rcases outcome with rfl | ⟨failure, rfl⟩
      · exact Or.inl ⟨w, i, here⟩
      · exact Or.inr ⟨w, failure, here⟩
    · exact Or.inl (marked id before)
  · intro threw
    rcases outcome with rfl | ⟨failure, rfl⟩
    -- A send that leads to its mark throws nothing.
    · have before : (s.workers w).Unsent := by
        rw [located]
        exact .send
      have same := thrown_goto_iff workers before.ne_threw fun _ => nofun
      exact absurd (same.mp threw) calm
    · rw [sent, table, workers]
      exact ⟨⟨_, List.mem_cons_self, by rw [number, next]⟩,
        not_marking_goto others fun _ => nofun⟩

theorem Single.marks (single : Single sender file packetCount s) {i : ℕ}
    (located : s.workers w = .mark i) (carries : CarriesChunks sender file packetCount.toNat t)
    (after : t = { s.goto w .checkStop with packetsToSend := s.packetsToSend.set i true }) :
    Single sender file packetCount t := by
  have holds : i ∈ (s.workers w).chosen := by rw [located]; rfl
  have held : (s.workers w).chosen ≠ none := by rw [located]; exact nofun
  have next := single.next w i holds
  have inside : i < s.packetsToSend.length :=
    (List.getElem?_eq_some_iff.mp (unmarked_of_next next)).1
  have workers : t.workers = (s.goto w .checkStop).workers := by rw [after]
  have sent : t.sentIds = s.sentIds := by rw [after]; rfl
  -- After the mark nobody holds a packet.
  have nobody (v : ι) : (t.workers v).chosen = none := by
    rw [workers]
    apply forall_workers_goto s w .checkStop (fun pc => pc.chosen = none) rfl
    exact single.others held
  constructor
  · exact carries
  · exact after ▸ single.quiet
  · intro v j chosen
    rw [nobody v] at chosen
    cases chosen
  · exact fun v _ here => absurd (nobody v) here
  · exact sent ▸ single.once
  · rw [sent, after]
    intro id listed
    left
    change (s.packetsToSend.set i true)[id.toNat]? = some true
    by_cases same : i = id.toNat
    · rw [← same, List.getElem?_set_self inside]
    · rw [List.getElem?_set_ne same]
      rcases single.marked id listed with marked | ⟨first, -⟩
      · exact marked
      · exact absurd (Nat.cast_inj.mp (next.symm.trans first)) same
  -- Behind a send that has thrown no worker marks.
  · intro threw
    have same := thrown_goto_iff workers (by rw [located]; exact fun _ => nofun) fun _ => nofun
    exact absurd located ((single.thrown (same.mp threw)).2 w i)

/-- What a guarded step of a worker preserves, by the block. -/
theorem Single.transmits (single : Single sender file packetCount s) {sendFault : Option Failure}
    (alone : Alone s (.transmit w sendFault))
    (carries : CarriesChunks sender file packetCount.toNat t) (moved : Transmits sender s w t) :
    Single sender file packetCount t := by
  obtain ⟨choosing, sending⟩ := alone w sendFault rfl
  cases moved with
  | checks located =>
    by_cases stopping : s.stop = true
    · rw [if_pos stopping] at carries ⊢
      exact single.leaves carries rfl located .checkStop .stopped rfl
    · rw [if_neg stopping] at carries ⊢
      exact single.leaves carries rfl located .checkStop .choose rfl
  | waits located marked => exact single.leaves carries rfl located .choose .checkStop rfl
  | chooses nextSeqId located unsent first =>
    refine single.goto carries rfl rfl rfl rfl located .choose .read ?_ ?_
    · intro i chosen
      obtain rfl := Option.some.inj chosen
      exact getNextPossiblePacketId_eq unsent first
    · exact fun _ v _ => choosing located v
  | runsDry nextSeqId located nothing =>
    exact single.goto carries rfl rfl rfl rfl located .read .ranDry
      (fun _ chosen => absurd chosen (Option.not_mem_none _)) fun holds => absurd rfl holds
  | reads nextSeqId located something =>
    have held : (s.workers w).chosen ≠ none := by rw [located]; exact nofun
    refine single.goto carries rfl rfl rfl rfl located .read .send ?_ ?_
    · intro i chosen
      exact single.next w i (located ▸ chosen)
    · exact fun _ => single.others held
  | sends nextSeqId buffer pc located outcome =>
    exact single.sends (sending nextSeqId buffer located) located outcome carries rfl
  | marks nextSeqId located => exact single.marks located carries rfl

omit [DecidableEq ι] in
/-- Without RESENDs the listener leaves all of it alone. -/
theorem Single.hears (single : Single sender file packetCount s) {answer : Answer}
    (quiet : (Move.listen answer : Move ι).Quiet)
    (carries : CarriesChunks sender file packetCount.toNat t) (heard : Hears s answer t) :
    Single sender file packetCount t := by
  -- A block that leads to another one, perhaps with a message that is not a RESEND.
  have goes {t : Transmission ι} (carries : CarriesChunks sender file packetCount.toNat t)
      (same : t = { s with listener := t.listener, stop := t.stop })
      (quiet : ∀ message, t.listener = .handling message → message.header.keyword ≠ .resend) :
      Single sender file packetCount t := by
    rw [same] at carries quiet ⊢
    exact ⟨carries, quiet, single.next, single.only, single.once, single.marked, single.thrown⟩
  cases heard with
  | receives message =>
    refine goes carries rfl fun other located => ?_
    obtain rfl := ListenPc.handling.inj located
    exact quiet message rfl
  | resends message seqId located kind inside =>
    exact absurd (dispatch_eq_resend_iff.mp kind).1 (single.quiet message located)
  | checks located =>
    refine goes carries rfl fun message located => ?_
    change (if s.stop then ListenPc.ended none else .selecting) = _ at located
    split_ifs at located
  | _ => exact goes carries rfl fun _ located => nomatch located

theorem Single.step {move : Move ι} (single : Single sender file packetCount s)
    (quiet : move.Quiet) (alone : Alone s move)
    (moved : (system sender file packetCount.toNat).step s move = some t) :
    Single sender file packetCount t := by
  have carries := single.carries.step moved
  cases move with
  | transmit w sendFault =>
    exact single.transmits alone carries (transmits_of_transmit moved)
  | listen answer => exact single.hears quiet carries (hears_of_listen moved)

/-- A step outside the guard chooses or sends a packet a second time. -/
theorem Single.not_noDuplicates {move : Move ι} (single : Single sender file packetCount s)
    (crowded : ¬ Alone s move)
    (moved : (system sender file packetCount.toNat).step s move = some t) : ¬ NoDuplicates t := by
  intro clean
  apply crowded
  rintro w sendFault rfl
  have moved : s.transmit sender w sendFault = some t := moved
  constructor
  · intro located v
    by_contra held
    obtain ⟨i, holds⟩ := Option.ne_none_iff_exists'.mp held
    have next := single.next v i holds
    have other : v ≠ w := by
      rintro rfl
      rw [located] at holds
      cases holds
    -- The scan returns the packet that the other worker holds.
    have chooses : s.transmit sender w sendFault = some (s.goto w (.read i)) := by
      have index : (i : ℤ) ≠ -1 := by omega
      unfold transmit
      rw [located]
      dsimp only
      rw [next, if_neg index, Int.toNat_natCast]
    obtain rfl := Option.some.inj (chooses.symm.trans moved)
    refine other (clean.apart v w i ?_ ?_)
    · rw [workers_goto, if_neg other]
      exact holds
    · rw [workers_goto, if_pos rfl]
      rfl
  -- A send behind a send that has thrown is of the same packet.
  · intro i buffer located threw
    obtain ⟨⟨id, sent, first⟩, -⟩ := single.thrown threw
    have next := single.next w i (by rw [located]; rfl)
    have same : id.toNat = i := Nat.cast_inj.mp (first.symm.trans next)
    have again : t.sentIds = id :: s.sentIds := by
      unfold transmit at moved
      rw [located] at moved
      rw [← Option.some.inj moved, ← UInt64.ofNat_toNat (x := id), same]
      rfl
    have once := clean.once
    rw [again] at once
    exact (List.nodup_cons.mp once).1 sent

end Steps

/-! ### Every run -/

variable [DecidableEq ι]

/-- A run without RESENDs sends no packet twice and has no two workers on the
same one, exactly when every worker selects while no other one holds a packet,
and none sends after a send has thrown. -/
theorem noDuplicates_iff {sender : Sender} {file : List Byte} {packetCount : PacketCount}
    {moves : List (Move ι)} {s : Transmission ι} (quiet : ∀ move ∈ moves, move.Quiet)
    (run : (system sender file packetCount.toNat).exec (start file packetCount.toNat) moves =
      some s) :
    (system sender file packetCount.toNat).Throughout NoDuplicates
        (start file packetCount.toNat) moves ↔
      (system sender file packetCount.toNat).Within Alone (start file packetCount.toNat) moves :=
  StepSystem.throughout_iff_within_assuming (single_start sender file packetCount)
    (fun _ _ _ single quiet alone moved => single.step quiet alone moved)
    (fun _ single => single.noDuplicates)
    (fun _ _ _ single _ crowded moved => single.not_noDuplicates crowded moved)
    ((StepSystem.within_label_iff run).mpr quiet) run

/-- Two workers that take turns on the two packets of a file, the last of which is one
byte long. -/
def turns : List (Move Bool) :=
  List.replicate 5 (.transmit true none) ++ List.replicate 5 (.transmit false none)

/-- The theorem for them. -/
theorem noDuplicates_iff_turns :
    (∃ s : Transmission Bool, (system ⟨.little, fun _ => 0, 1, 7⟩ (List.replicate 1176 1) 2).exec
        (start (List.replicate 1176 1) 2) turns = some s ∧ s.sentIds = [1, 0]) ∧
      (system ⟨.little, fun _ => 0, 1, 7⟩ (List.replicate 1176 1) 2).Throughout NoDuplicates
        (start (List.replicate 1176 1) 2) turns := by
  have ends : ((system ⟨.little, fun _ => 0, 1, 7⟩ (List.replicate 1176 1)
      (2 : PacketCount).toNat).exec (start (List.replicate 1176 1) (2 : PacketCount).toNat)
        turns).map sentIds = some [1, 0] := by decide +kernel
  obtain ⟨s, run, sent⟩ := Option.map_eq_some_iff.mp ends
  have quiet : ∀ move ∈ turns, move.Quiet := by
    intro move listed
    rcases List.mem_append.mp listed with first | second
    · rw [List.eq_of_mem_replicate first]
      exact fun _ => nofun
    · rw [List.eq_of_mem_replicate second]
      exact fun _ => nofun
  have alone : (system ⟨.little, fun _ => 0, 1, 7⟩ (List.replicate 1176 1)
      (2 : PacketCount).toNat).Within Alone (start (List.replicate 1176 1) (2 : PacketCount).toNat)
        turns := by decide +kernel
  exact ⟨⟨s, run, sent⟩, (noDuplicates_iff quiet run).mpr alone⟩

/-- Two workers that choose before either of them marks. -/
def bothChoose : List (Move Bool) :=
  [.transmit true none, .transmit false none, .transmit true none, .transmit false none]

theorem not_noDuplicates_bothChoose :
    ¬ ∀ (moves : List (Move Bool)) (s : Transmission Bool), (∀ move ∈ moves, move.Quiet) →
      (system ⟨.little, fun _ => 0, 1, 7⟩ [1] 1).exec (start [1] 1) moves = some s →
        NoDuplicates s := by
  intro clean
  have quiet : ∀ move ∈ bothChoose, move.Quiet := by
    intro move listed message
    simp only [bothChoose, List.mem_cons, List.not_mem_nil, or_false] at listed
    rcases listed with rfl | rfl | rfl | rfl <;> exact nofun
  have ends : ((system ⟨.little, fun _ => 0, 1, 7⟩ [1] 1).exec (start [1] 1) bothChoose).map
      (fun s => ((s.workers true).chosen, (s.workers false).chosen)) = some (some 0, some 0) := by
    decide
  obtain ⟨s, run, same⟩ := Option.map_eq_some_iff.mp ends
  obtain ⟨here, there⟩ := Prod.mk.inj same
  exact absurd ((clean bothChoose s quiet run).apart true false 0 here there) (by decide)

end Transmission

end Fup.Client
