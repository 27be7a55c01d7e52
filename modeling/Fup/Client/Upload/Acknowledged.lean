/-
# An upload ends with the server's ACK

`Upload` leaves its loop when the stop signal is set or when the pool counts
more workers than it has. From zero on the counter is the number of busy
workers, so the second never happens. The signal is set in one place, and the
listener gets there with an ACK it has received and has not been cut short
before.
-/

import Fup.Client.Upload

namespace Fup.Client

namespace Transmission

variable {ι : Type}

/-! ### What the listener has heard -/

/-- One of the moves delivers an ACK to the listener. -/
def Acknowledged (moves : List (Move ι)) : Prop :=
  ∃ message, .listen (.received (.ok message)) ∈ moves ∧ message.header.keyword = .ack

theorem keyword_of_dispatch_ack {message : Message} (kind : dispatch message = .ack) :
    message.header.keyword = .ack := by
  unfold dispatch at kind
  split_ifs at kind with resend ack
  · split at kind <;> cases kind
  · exact ack

/-- The listener handles what it has just received. -/
theorem received_of_listen {s t : Transmission ι} {answer : Answer} {message : Message}
    (moved : s.listen answer = some t) (located : t.listener = .handling message) :
    answer = .received (.ok message) := by
  cases hears_of_listen moved with
  | receives received => exact congrArg _ (congrArg _ (ListenPc.handling.inj located))
  | checks => split_ifs at located
  | _ => cases located

theorem eq_ended {pc : ListenPc} (ended : Ended pc) : ∃ failure, pc = .ended failure := by
  cases pc with
  | ended failure => exact ⟨failure, rfl⟩
  | _ => exact ended.elim

/-- Only the branch for an ACK sets the signal. -/
theorem ack_of_listen {s t : Transmission ι} {answer : Answer} (running : s.stop = false)
    (moved : s.listen answer = some t) (stopped : t.stop = true) :
    ∃ message, s.listener = .handling message ∧ message.header.keyword = .ack := by
  cases hears_of_listen moved with
  | acks message located kind => exact ⟨message, located, keyword_of_dispatch_ack kind⟩
  | _ => exact absurd (running.symm.trans stopped) Bool.false_ne_true

variable [DecidableEq ι] {sender : Sender} {file : List Byte} {packetCount : ℕ}

/-- A transmitter leaves the listener and the signal as they are. -/
theorem Transmits.keeps {s t : Transmission ι} {w : ι} (moved : Transmits sender s w t) :
    t.listener = s.listener ∧ t.stop = s.stop := by
  cases moved <;> exact ⟨rfl, rfl⟩

variable (sender file packetCount) in
/-- What a run says of the listener: it handles what it has received, it ended
with the ACK if the signal is set, and until then no step has cut it short. -/
structure Heard (moves : List (Move ι)) (s : Transmission ι) : Prop where
  handled : ∀ message, s.listener = .handling message →
    .listen (.received (.ok message)) ∈ moves
  byListener : s.stop = true → s.listener = .ended none
  acknowledged : s.stop = true → Acknowledged moves
  runsOn : s.stop = true ∨ (∀ failure, s.listener ≠ .ended failure) →
    (system sender file packetCount).Within RunsOn (start file packetCount) moves

theorem heard_start : Heard sender file packetCount [] (start file packetCount : Transmission ι)
    where
  handled := fun message located => by cases located
  byListener := fun stopped => absurd stopped Bool.false_ne_true
  acknowledged := fun stopped => absurd stopped Bool.false_ne_true
  runsOn := fun _ before move part =>
    absurd (List.prefix_nil.mp part) (List.concat_ne_nil move before)

omit [DecidableEq ι] in
theorem Acknowledged.snoc {moves : List (Move ι)} (acknowledged : Acknowledged moves)
    (move : Move ι) : Acknowledged (moves ++ [move]) := by
  obtain ⟨message, listed, keyword⟩ := acknowledged
  exact ⟨message, List.mem_append_left _ listed, keyword⟩

theorem Heard.step {moves : List (Move ι)} {s t : Transmission ι} {move : Move ι}
    (run : (system sender file packetCount).exec (start file packetCount) moves = some s)
    (heard : Heard sender file packetCount moves s)
    (moved : (system sender file packetCount).step s move = some t) :
    Heard sender file packetCount (moves ++ [move]) t := by
  cases move with
  | transmit w sendFault =>
    obtain ⟨listener, stop⟩ := (transmits_of_transmit moved).keeps
    refine ⟨fun message located => ?_, fun stopped => ?_, fun stopped => ?_, fun before => ?_⟩
    · exact List.mem_append_left _ (heard.handled message (listener ▸ located))
    · exact listener.trans (heard.byListener (stop ▸ stopped))
    · exact (heard.acknowledged (stop ▸ stopped)).snoc _
    · rw [listener, stop] at before
      exact (heard.runsOn before).snoc run fun answer impossible => by cases impossible
  | listen answer =>
    have moved : s.listen answer = some t := moved
    -- A listener that has ended does not move.
    have goesOn : ∀ failure, s.listener ≠ .ended failure := by
      intro failure ended
      simp only [listen, ended, reduceCtorEq] at moved
    have running : s.stop = false := by
      rw [← Bool.not_eq_true]
      exact fun stopped => goesOn none (heard.byListener stopped)
    have cases := listen_cases running moved
    have soFar := heard.runsOn (Or.inr goesOn)
    have last (on : ¬ CutsShort s answer) := soFar.snoc (a := .listen answer) run
      fun other same => Move.listen.inj same ▸ on
    refine ⟨fun message located => ?_, fun stopped => ?_, fun stopped => ?_, fun before => ?_⟩
    · rw [received_of_listen moved located]
      exact List.mem_append_right _ (List.mem_singleton_self _)
    · rcases cases with ⟨-, ended, -⟩ | ⟨clear, -⟩
      · exact ended
      · exact absurd (clear.symm.trans stopped) Bool.false_ne_true
    · obtain ⟨message, located, keyword⟩ := ack_of_listen running moved stopped
      exact ⟨message, List.mem_append_left _ (heard.handled message located), keyword⟩
    · refine last ?_
      rcases cases with ⟨-, -, on⟩ | ⟨clear, ends⟩
      · exact on
      · -- Cut short, the listener would have ended with the signal clear.
        intro short
        rcases before with stopped | going
        · exact absurd (clear.symm.trans stopped) Bool.false_ne_true
        · obtain ⟨failure, ended⟩ := eq_ended (ends.mpr short)
          exact going failure ended

theorem heard_of_run {moves : List (Move ι)} {s : Transmission ι}
    (run : (system sender file packetCount).exec (start file packetCount) moves = some s) :
    Heard sender file packetCount moves s :=
  StepSystem.exec_induction heard_start (fun _ _ _ _ run heard moved => heard.step run moved) run

/-- A signal that is set stays set. -/
theorem stop_of_step {s t : Transmission ι} {move : Move ι}
    (moved : (system sender file packetCount).step s move = some t) (stopped : s.stop = true) :
    t.stop = true := by
  cases move with
  | transmit w sendFault => exact (transmits_of_transmit moved).keeps.2.trans stopped
  | listen answer => cases listens_of_listen moved <;> first | exact stopped | rfl

end Transmission

/-! ### The loop of the upload -/

/-- The blocks behind the loop. -/
def UploadPc.Behind : UploadPc → Prop
  | .waitAll => True
  | .join _ => True
  | .acknowledge => True
  | .ended _ => True
  | _ => False

namespace Uploading

variable {n : ℕ} {sender : Sender} {file : List Byte} {packetCount : ℕ}

/-- The pool is open as long as the loop runs. -/
def Opened (s : Uploading n) : Prop := ¬ s.pc.Behind → s.pool.stop = false

theorem Opened.upload {s t : Uploading n} (opened : Opened s) (moved : s.upload sender = some t) :
    Opened t := by
  have still {pc : UploadPc} (located : s.pc = pc) (before : ¬ pc.Behind) :
      s.pool.stop = false := opened (located ▸ before)
  cases uploads_of_upload moved with
  | enqueuesListener located =>
    rw [enqueue_of_open (still located id)]
    exact fun _ => still located id
  | enqueuesTransmitter located =>
    rw [enqueue_of_open (still located id)]
    exact fun _ => still located id
  | guards located => exact fun _ => still located id
  | checks located => exact fun _ => still located id
  -- Only `WaitAll` stops the pool, and from there on the loop is over.
  | closes | joins | joined | acknowledges => exact fun ahead => absurd trivial ahead

theorem Opened.step {s t : Uploading n} {move : UploadMove n} (opened : Opened s)
    (moved : (system sender file packetCount).step s move = some t) : Opened t := by
  cases move with
  | upload =>
    have moved : s.upload sender = some t := moved
    exact opened.upload moved
  | worker w =>
    obtain ⟨pool, works, rfl⟩ := works_of_worker moved
    exact fun before => works.stop_eq.trans (opened before)
  | task w move =>
    obtain ⟨pc, pool⟩ := keeps_of_task moved
    rw [Opened, pc, pool]
    exact opened

/-- The counter is right, the pool is open as long as the loop runs, and behind
the loop the signal is set. -/
structure InLoop (s : Uploading n) : Prop where
  counts : s.pool.Counts
  opened : ¬ s.pc.Behind → s.pool.stop = false
  stopped : s.pc.Behind → s.transmission.stop = true

theorem inLoop_start : InLoop (start file packetCount 0 : Uploading n) where
  counts := Threadpool.counts_start
  opened := fun _ => rfl
  stopped := fun behind => behind.elim

/-- In the loop a task is accepted. -/
theorem InLoop.enqueue {s : Uploading n} (inLoop : InLoop s) (before : ¬ s.pc.Behind)
    (task : Task) {pc : UploadPc} (after : ¬ pc.Behind) : InLoop (s.enqueue task pc) := by
  have opened := inLoop.opened before
  rw [Uploading.enqueue, Threadpool.enqueue, if_neg (Bool.not_eq_true _ ▸ opened)]
  exact ⟨inLoop.counts, fun _ => opened, fun behind => absurd behind after⟩

theorem InLoop.upload {s t : Uploading n} (inLoop : InLoop s)
    (moved : s.upload sender = some t) : InLoop t := by
  have opened : Opened t := Opened.upload inLoop.opened moved
  have behind {pc : UploadPc} (located : s.pc = pc) (past : pc.Behind) :
      s.transmission.stop = true := inLoop.stopped (located ▸ past)
  cases uploads_of_upload moved with
  | enqueuesListener located => exact inLoop.enqueue (by simp [located, UploadPc.Behind]) _ id
  | guards located =>
    -- There are no more busy workers than workers.
    have bound := inLoop.counts.working_le
    rw [Fintype.card_fin] at bound
    rw [Threadpool.getWorkingThreadsCount, if_pos bound] at opened ⊢
    exact ⟨inLoop.counts, opened, fun past => past.elim⟩
  | enqueuesTransmitter located =>
    have enqueued : InLoop (s.enqueue (.transmitPackets s.transmitters) .checkStop) :=
      inLoop.enqueue (by simp [located, UploadPc.Behind]) _ id
    exact ⟨enqueued.counts, enqueued.opened, enqueued.stopped⟩
  | checks located =>
    refine ⟨inLoop.counts, opened, fun past => ?_⟩
    -- The loop is left at the check only with the signal set.
    simp only at past
    split_ifs at past with stopped
    · exact stopped
    · exact past.elim
  | closes located | joins _ located | joined _ located | acknowledges _ located =>
    exact ⟨inLoop.counts, opened, fun _ => behind located trivial⟩

theorem InLoop.step {s t : Uploading n} {move : UploadMove n} (few : n < 2 ^ 64)
    (inLoop : InLoop s) (moved : (system sender file packetCount).step s move = some t) :
    InLoop t := by
  have opened : Opened t := Opened.step inLoop.opened moved
  cases move with
  | upload =>
    have moved : s.upload sender = some t := moved
    exact inLoop.upload moved
  | worker w =>
    obtain ⟨pool, works, rfl⟩ := works_of_worker moved
    have counts := inLoop.counts.works (by rwa [Fintype.card_fin]) works
    exact ⟨counts, opened, inLoop.stopped⟩
  | task w move =>
    obtain ⟨pc, pool⟩ := keeps_of_task moved
    have shared : (Transmission.system sender file packetCount).step s.transmission move =
        some t.transmission := transmission_task moved
    refine ⟨pool ▸ inLoop.counts, opened, fun behind => ?_⟩
    exact Transmission.stop_of_step shared (inLoop.stopped (pc ▸ behind))

/-- When `Upload` is past `WaitAll`, the listener has received an ACK, and it
ended with it: the signal is set and no step has cut the listener short. -/
theorem acknowledged_of_past {maxThreadPoolSize : UInt16}
    {moves : List (UploadMove maxThreadPoolSize.toNat)} {t : Uploading maxThreadPoolSize.toNat}
    (run : (system sender file packetCount).exec (start file packetCount 0) moves = some t)
    (past : t.pc = .acknowledge ∨ ∃ failure, t.pc = .ended failure) :
    (∃ w message, .task w (.listen (.received (.ok message))) ∈ moves ∧
        message.header.keyword = .ack) ∧
      t.transmission.listener = .ended none ∧ t.transmission.stop = true ∧
      (system sender file packetCount).Within RunsOn (start file packetCount 0) moves := by
  let projection := toTransmission (n := maxThreadPoolSize.toNat) sender file packetCount
  have few : maxThreadPoolSize.toNat < 2 ^ 64 := maxThreadPoolSize.toNat_lt.trans (by decide)
  have inLoop : InLoop t := by
    refine StepSystem.exec_invariant inLoop_start ?_ run
    exact fun _ _ _ inLoop moved => inLoop.step few moved
  have stopped : t.transmission.stop = true := by
    apply inLoop.stopped
    rcases past with located | ⟨failure, located⟩ <;> rw [located] <;> trivial
  have heard := Transmission.heard_of_run (projection.exec run)
  refine ⟨?_, heard.byListener stopped, stopped, ?_⟩
  · obtain ⟨message, listed, keyword⟩ := heard.acknowledged stopped
    obtain ⟨move, taken, labelled⟩ := List.mem_filterMap.mp listed
    -- The message came in as a step of the worker that runs the listener.
    cases move with
    | task w move =>
      obtain rfl := Option.some.inj labelled
      exact ⟨w, message, taken, keyword⟩
    | _ => cases labelled
  · exact (projection.within_iff run).mpr (heard.runsOn (Or.inl stopped))

/-- The server acknowledges before anything is sent, and the one worker of the
pool goes through its two tasks. -/
def acknowledgedEarly : List (UploadMove (1 : UInt16).toNat) :=
  let w : Fin (1 : UInt16).toNat := ⟨0, by decide⟩
  [.upload, .worker w, .task w (.listen (.setup none)),
    .task w (.listen (.received (.ok ⟨⟨1, 7, .ack, 0⟩, some .base⟩))), .task w (.listen .internal),
    .upload, .upload, .upload, .upload, .worker w, .worker w, .worker w,
    .task w (.transmit 0 none), .worker w, .worker w, .worker w, .upload, .upload]

/-- The theorem for that upload. -/
theorem acknowledged_early :
    ∃ t, (system ⟨.little, fun _ => 0, 1, 7⟩ [1] 1).exec (start [1] 1 0) acknowledgedEarly =
        some t ∧ t.pc = .acknowledge ∧ t.transmission.stop = true := by
  have ends : ((system ⟨.little, fun _ => 0, 1, 7⟩ [1] 1).exec (start [1] 1 0)
      acknowledgedEarly).map Uploading.pc = some .acknowledge := by decide
  obtain ⟨t, run, past⟩ := Option.map_eq_some_iff.mp ends
  exact ⟨t, run, past, (acknowledged_of_past run (Or.inl past)).2.2.1⟩

end Uploading

end Fup.Client
