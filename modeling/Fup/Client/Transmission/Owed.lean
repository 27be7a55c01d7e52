/-
# Packets owed after a RESEND

A packet is owed from the moment a RESEND of it is handled until its next send
starts. While it is owed its entry in the table should be clear, so that some
worker chooses it. The one step that can set the entry of an owed packet is the
mark of a worker that had sent it before the RESEND: with the RESEND between a
send and its mark, nobody sends the packet again.
-/

import Fup.Client.Transmission
import Mathlib.Data.Fintype.Basic

namespace Fup.Client

namespace Transmission

variable {ι : Type}

/-- The latest event about the packet is a RESEND. -/
def Owed (i : ℕ) : List Event → Prop
  | [] => False
  | .resend j :: history => j = i ∨ Owed i history
  | .send j _ :: history => j ≠ i ∧ Owed i history

instance decidableOwed (i : ℕ) : (history : List Event) → Decidable (Owed i history)
  | [] => inferInstanceAs (Decidable False)
  | .resend j :: history =>
    have := decidableOwed i history
    inferInstanceAs (Decidable (j = i ∨ Owed i history))
  | .send j _ :: history =>
    have := decidableOwed i history
    inferInstanceAs (Decidable (j ≠ i ∧ Owed i history))

/-- Every owed packet can still be chosen. -/
def NoneLost (s : Transmission ι) : Prop :=
  ∀ i, Owed i s.history → s.packetsToSend[i]? = some false

/-- The listener does not handle a RESEND of a packet that a worker has sent and
not marked yet. -/
def NotUnmarked (s : Transmission ι) (move : Move ι) : Prop :=
  ∀ answer message seqId, move = .listen answer → s.listener = .handling message →
    dispatch message = .resend seqId → ∀ w, s.workers w ≠ .mark seqId.toNat

/-- The packet that the listener handles a RESEND of in its next block. -/
def asked (s : Transmission ι) : Option SequenceId :=
  match s.listener with
  | .handling message =>
    match dispatch message with
    | .resend seqId => some seqId
    | _ => none
  | _ => none

theorem asked_eq_some_iff {s : Transmission ι} {seqId : SequenceId} :
    s.asked = some seqId ↔
      ∃ message, s.listener = .handling message ∧ dispatch message = .resend seqId := by
  cases located : s.listener with
  | handling message =>
    simp only [asked, located, ListenPc.handling.injEq, exists_eq_left']
    cases dispatch message <;> simp
  | entering | selecting | checkStop | ended => simp [asked, located]

instance decidableNotUnmarked [Fintype ι] (s : Transmission ι) :
    (move : Move ι) → Decidable (NotUnmarked s move)
  | .transmit _ _ => isTrue (by
      intro _ _ _ listens
      cases listens)
  | .listen answer =>
    match handles : s.asked with
    | none => isTrue (by
        intro _ message seqId _ located kind
        cases handles.symm.trans (asked_eq_some_iff.mpr ⟨message, located, kind⟩))
    | some seqId => decidable_of_iff (∀ w, s.workers w ≠ .mark seqId.toNat) (by
        constructor
        · intro free _ message seqId' _ located kind
          obtain rfl := Option.some.inj
            (handles.symm.trans (asked_eq_some_iff.mpr ⟨message, located, kind⟩))
          exact free
        · intro free
          obtain ⟨message, located, kind⟩ := asked_eq_some_iff.mp handles
          exact free answer message seqId rfl located kind)

/-- No owed packet is lost, and no worker is about to mark one. -/
structure Answerable (s : Transmission ι) : Prop where
  noneLost : NoneLost s
  unmarked : ∀ w i, s.workers w = .mark i → ¬ Owed i s.history

theorem answerable_start (file : List Byte) (packetCount : ℕ) :
    Answerable (start file packetCount : Transmission ι) where
  noneLost := fun _ owed => owed.elim
  unmarked := fun _ _ _ owed => owed.elim

section Workers

variable [DecidableEq ι]

/-- A worker that changes neither the table nor the history and does not go to a
mark keeps everything answerable. -/
theorem Answerable.goto {s t : Transmission ι} (answerable : Answerable s) {w : ι}
    {pc : TransmitPc} (elsewhere : ∀ i, pc ≠ .mark i) (workers : t.workers = (s.goto w pc).workers)
    (table : t.packetsToSend = s.packetsToSend) (events : t.history = s.history) :
    Answerable t := by
  refine ⟨?_, ?_⟩
  · intro i owed
    rw [table]
    exact answerable.noneLost i (events ▸ owed)
  · rw [workers, events]
    apply forall_workers_goto s w pc (fun pc => ∀ i, pc = .mark i → ¬ Owed i s.history)
    · intro i located
      exact absurd located (elsewhere i)
    · intro v _
      exact answerable.unmarked v

/-- A worker's block keeps everything answerable. -/
theorem Answerable.transmits {sender : Sender} {s t : Transmission ι} {w : ι}
    (answerable : Answerable s) (moved : Transmits sender s w t) : Answerable t := by
  cases moved with
  | checks located =>
    refine answerable.goto ?_ rfl rfl rfl
    intro i
    split_ifs <;> exact fun same => TransmitPc.noConfusion same
  | waits located marked => exact answerable.goto (by simp) rfl rfl rfl
  | chooses nextSeqId located unsent first => exact answerable.goto (by simp) rfl rfl rfl
  | runsDry nextSeqId located nothing => exact answerable.goto (by simp) rfl rfl rfl
  | reads nextSeqId located something => exact answerable.goto (by simp) rfl rfl rfl
  | sends nextSeqId buffer pc located outcome =>
    -- A send that starts only takes its packet off the list of those owed.
    refine ⟨fun i owed => answerable.noneLost i owed.2, ?_⟩
    apply forall_workers_goto s w pc fun pc => ∀ i, pc = .mark i → ¬ Owed i (_ :: s.history)
    · -- The worker about to mark the packet has just started its send.
      intro i marking owed
      rcases outcome with rfl | ⟨failure, rfl⟩
      · exact owed.1 (TransmitPc.mark.inj marking)
      · cases marking
    · intro v _ i marking owed
      exact answerable.unmarked v i marking owed.2
  | marks nextSeqId located =>
    -- The packet marked is not owed, and no other entry changes.
    have settled := answerable.unmarked w nextSeqId located
    refine ⟨?_, ?_⟩
    · intro i owed
      have other : nextSeqId ≠ i := by
        rintro rfl
        exact settled owed
      change (s.packetsToSend.set nextSeqId true)[i]? = some false
      rw [List.getElem?_set_ne other]
      exact answerable.noneLost i owed
    · apply forall_workers_goto s w .checkStop fun pc => ∀ i, pc = .mark i → ¬ Owed i s.history
      · intro i marking
        cases marking
      · intro v _
        exact answerable.unmarked v

end Workers

/-- A RESEND of a packet that nobody is about to mark keeps everything
answerable. -/
theorem Answerable.listens {s t : Transmission ι} {answer : Answer}
    (answerable : Answerable s) (free : NotUnmarked s (.listen answer)) (moved : Listens s t) :
    Answerable t := by
  cases moved with
  | goes pc => exact ⟨answerable.noneLost, answerable.unmarked⟩
  | stops => exact ⟨answerable.noneLost, answerable.unmarked⟩
  | resends message seqId located kind inside =>
    refine ⟨?_, ?_⟩
    · intro i owed
      change (s.packetsToSend.set seqId.toNat false)[i]? = some false
      -- The entry of the packet is cleared, the others are as they were.
      by_cases same : seqId.toNat = i
      · rw [← same, List.getElem?_set_self inside]
      · rw [List.getElem?_set_ne same]
        exact answerable.noneLost i (owed.resolve_left same)
    · intro w i marking owed
      rcases owed with rfl | owed
      · exact free answer message seqId rfl located kind w marking
      · exact answerable.unmarked w i marking owed

variable [DecidableEq ι]

/-- When a RESEND finds a worker between the send and the mark of its packet,
the mark loses it. -/
theorem lost_by_mark {sender : Sender} {s t : Transmission ι} {message : Message}
    {seqId : SequenceId} {w : ι} {answer : Answer} (located : s.listener = .handling message)
    (kind : dispatch message = .resend seqId) (inside : seqId.toNat < s.packetsToSend.length)
    (marking : s.workers w = .mark seqId.toNat) (moved : s.listen answer = some t) :
    ∃ u, t.transmit sender w none = some u ∧ ¬ NoneLost u := by
  have handled : t = { s with
      packetsToSend := s.packetsToSend.set seqId.toNat false
      listener := .checkStop
      history := .resend seqId.toNat :: s.history } := by
    cases answer with
    | internal =>
      simp only [listen, located, Option.some_inj, handle, kind, if_pos inside] at moved
      exact moved.symm
    | _ => simp only [listen, located, reduceCtorEq] at moved
  rw [handled]
  -- The mark sets the entry that the RESEND has just cleared.
  refine ⟨_, by simp only [transmit, marking]; rfl, ?_⟩
  intro noneLost
  have clear := noneLost seqId.toNat (Or.inl rfl)
  have size : seqId.toNat < (s.packetsToSend.set seqId.toNat false).length :=
    inside.trans_eq List.length_set.symm
  change ((s.packetsToSend.set seqId.toNat false).set seqId.toNat true)[seqId.toNat]? = _ at clear
  rw [List.getElem?_set_self size] at clear
  exact absurd clear (by simp)

/-- In a run whose RESENDs find no worker between the send and the mark of their
packet no RESEND is ever lost. One that does is lost by that worker's mark. -/
theorem noneLost_throughout (sender : Sender) (file : List Byte) (packetCount : ℕ)
    {moves : List (Move ι)} {t : Transmission ι}
    (run : (system sender file packetCount).exec (start file packetCount) moves = some t) :
    ((system sender file packetCount).Within NotUnmarked (start file packetCount) moves →
      (system sender file packetCount).Throughout NoneLost (start file packetCount) moves) ∧
    (∀ answer u, ¬ NotUnmarked t (.listen answer) → t.listen answer = some u →
      ∃ w v, u.transmit sender w none = some v ∧ ¬ NoneLost v) := by
  constructor
  · intro free bs part s reached
    have answerable := StepSystem.Throughout.of_within (answerable_start file packetCount) ?_ free
    · exact (answerable bs part s reached).noneLost
    · intro s move u answerable guarded moved
      cases move with
      | transmit w sendFault => exact answerable.transmits (transmits_of_transmit moved)
      | listen answer => exact answerable.listens guarded (listens_of_listen moved)
  · intro answer u unmarked moved
    -- The packet about to be marked is in the table, so the RESEND clears its entry.
    have inTable : InTable packetCount t :=
      StepSystem.Reachable.invariant ⟨_, moves, rfl, run⟩
        (fun _ started => started ▸ inTable_start file packetCount)
        (fun _ _ _ inTable moved => inTable.step moved)
    simp only [NotUnmarked, not_forall, not_not] at unmarked
    obtain ⟨_, message, seqId, -, located, kind, w, marking⟩ := unmarked
    have inside : seqId.toNat < t.packetsToSend.length := by
      rw [inTable.size]
      exact inTable.chosen w _ (by rw [marking]; rfl)
    exact ⟨w, lost_by_mark located kind inside marking moved⟩

/-- The answer of a server that asks for packet zero. -/
def resendZero : Answer := .received (.ok ⟨⟨1, 7, .resend, 8⟩, some (.resend ⟨0⟩)⟩)

/-- One worker on a file of one byte up to the mark of its packet, and the
listener about to handle a RESEND of it. -/
def overtaken : List (Move Unit) :=
  List.replicate 4 (.transmit () none) ++ [.listen (.setup none), .listen resendZero]

/-- The RESEND comes when the packet is marked, and the worker chooses it again. -/
def answered : List (Move Unit) :=
  List.replicate 5 (.transmit () none) ++
    [.listen (.setup none), .listen resendZero, .listen .internal] ++
      List.replicate 2 (.transmit () none)

/-- The theorem for both runs. -/
theorem noneLost_throughout_answered :
    (∃ s, oneWorker.exec (start [1] 1) answered = some s ∧ Owed 0 s.history ∧
      s.workers () = .read 0 ∧ oneWorker.Throughout NoneLost (start [1] 1) answered) ∧
    ∃ s t, oneWorker.exec (start [1] 1) (overtaken ++ [.listen .internal]) = some s ∧
      s.transmit ⟨.little, fun _ => 0, 1, 7⟩ () none = some t ∧ ¬ NoneLost t := by
  constructor
  · have ends : (oneWorker.exec (start [1] 1) answered).map
        (fun s => (decide (Owed 0 s.history), s.workers ())) = some (true, .read 0) := by decide
    obtain ⟨s, run, values⟩ := Option.map_eq_some_iff.mp ends
    obtain ⟨owed, chosen⟩ := Prod.mk.inj values
    have within : oneWorker.Within NotUnmarked (start [1] 1) answered := by decide +kernel
    exact ⟨s, run, of_decide_eq_true owed, chosen, (noneLost_throughout _ [1] 1 run).1 within⟩
  · have ends : (oneWorker.exec (start [1] 1) overtaken).map
        (fun s => (decide (NotUnmarked s (.listen .internal)), (s.listen .internal).isSome)) =
          some (false, true) := by decide +kernel
    obtain ⟨s, run, values⟩ := Option.map_eq_some_iff.mp ends
    obtain ⟨unmarked, handles⟩ := Prod.mk.inj values
    obtain ⟨u, moved⟩ := Option.isSome_iff_exists.mp handles
    obtain ⟨w, v, marks, lost⟩ := (noneLost_throughout _ [1] 1 run).2 .internal u
      (of_decide_eq_false unmarked) moved
    exact ⟨u, v, StepSystem.exec_snoc_eq_some.mpr ⟨s, run, moved⟩, marks, lost⟩

/-- The RESEND is handled and then overwritten by the mark. -/
theorem not_noneLost_overtaken :
    ¬ oneWorker.Throughout NoneLost (start [1] 1)
      (overtaken ++ [.listen .internal, .transmit () none]) := by
  intro throughout
  have ends : ((oneWorker.exec (start [1] 1)
      (overtaken ++ [.listen .internal, .transmit () none])).map fun s =>
        (decide (Owed 0 s.history), s.packetsToSend)) = some (true, [true]) := by decide
  obtain ⟨last, run, values⟩ := Option.map_eq_some_iff.mp ends
  obtain ⟨owed, table⟩ := Prod.mk.inj values
  have clear := throughout _ List.prefix_rfl last run 0 (of_decide_eq_true owed)
  rw [table] at clear
  exact absurd clear (by decide)

end Transmission

end Fup.Client
