/-
# The thread of the listener

`Upload` enqueues the listener first and the pool takes its tasks in order, so the
listener has a worker of its own until it ends. The transmitters share the others.
With one worker there are no others: while the listener goes on no transmitter gets
beyond the queue. When the listener ends with the ACK of the server, the transmitters
behind it find the signal set and return at once. An upload on one worker that is
acknowledged has not sent a single packet.
-/

import Fup.Client.Upload.Acknowledged
import Mathlib.Data.Fintype.Card

namespace Fup.Client

/-- The transmitter is behind its check of the signal and has not returned. -/
def TransmitPc.atWork : TransmitPc → Bool
  | .checkStop => false
  | .exited _ => false
  | _ => true

/-- The event is no send. -/
def Event.isResend : Event → Bool
  | .resend _ => true
  | .send _ _ => false

namespace Transmission

variable {ι : Type}

/-- No packet was sent. -/
def Silent (s : Transmission ι) : Prop := ∀ event ∈ s.history, event.isResend = true

/-- The listener goes on: it has neither returned nor thrown. -/
def Listening (s : Transmission ι) : Prop := ∀ failure, s.listener ≠ .ended failure

/-- A listener that has ended does not move. -/
theorem listening_of_listen {s t : Transmission ι} {answer : Answer}
    (moved : s.listen answer = some t) : s.Listening := by
  intro failure ended
  simp only [listen, ended, reduceCtorEq] at moved

/-- A block of the listener moves no transmitter. -/
theorem Listens.workers_eq {s t : Transmission ι} (moved : Listens s t) :
    t.workers = s.workers := by
  cases moved <;> rfl

/-- It adds no send. -/
theorem Listens.silent {s t : Transmission ι} (moved : Listens s t) (silent : s.Silent) :
    t.Silent := by
  cases moved with
  | resends =>
    intro event listed
    rcases List.mem_cons.mp listed with rfl | listed
    · rfl
    · exact silent event listed
  | goes | stops => exact silent

/-- A block of a transmitter moves no other. -/
theorem Transmits.others [DecidableEq ι] {sender : Sender} {s t : Transmission ι} {w v : ι}
    (moved : Transmits sender s w t) (other : v ≠ w) : t.workers v = s.workers v := by
  cases moved <;> exact Function.update_of_ne other _ _

end Transmission

namespace Uploading

variable {n : ℕ} {sender : Sender} {file : List Byte} {packetCount : ℕ}

/-! ### What the workers run -/

/-- A task that a worker leaves has returned. -/
theorem returned_of_worker {s t : Uploading n} {w : Fin n} {task : Task}
    (moved : s.worker w = some t) (located : s.pool.workers w = .running task) :
    s.returned task = true := by
  rw [worker, located] at moved
  dsimp only at moved
  split_ifs at moved with ended
  exact ended

/-- Only a listener that has ended has returned. -/
theorem not_listening_of_returned {s : Uploading n} (ended : s.returned .listenResend = true) :
    ¬ s.transmission.Listening := by
  intro listening
  rw [returned] at ended
  split at ended
  · rename_i failure located
    exact listening failure located
  · cases ended

/-- The listener is the next task, and no worker runs anything yet. -/
structure Queued (s : Uploading n) : Prop where
  next : (s.pc = .enqueueListener ∧ s.pool.tasks = []) ∨
    ∃ tasks, s.pool.tasks = .listenResend :: tasks
  nobody : ∀ w task, s.pool.workers w ≠ .running task

/-- Every transmitter at work has its worker, and the listener has one until it ends,
once it is taken. -/
structure Staffed (s : Uploading n) : Prop where
  opened : Opened s
  transmitters : ∀ k, (s.transmission.workers k).atWork = true →
    ∃ w, s.pool.workers w = .running (.transmitPackets k)
  listener : s.transmission.Listening →
    Queued s ∨ ∃ w, s.pool.workers w = .running .listenResend

theorem staffed_start (file : List Byte) (packetCount : ℕ) (working : UInt64) :
    Staffed (start file packetCount working : Uploading n) where
  opened := fun _ => rfl
  transmitters := fun _ atWork => absurd atWork Bool.false_ne_true
  listener := fun _ => Or.inl ⟨Or.inl ⟨rfl, rfl⟩, fun _ _ same => by cases same⟩

theorem Staffed.upload {s t : Uploading n} (staffed : Staffed s)
    (moved : (system sender file packetCount).step s .upload = some t) : Staffed t := by
  have moved : s.upload sender = some t := moved
  have opened : Opened t := Opened.upload staffed.opened moved
  have shared : t.transmission = s.transmission := transmission_upload moved
  have still {pc : UploadPc} (located : s.pc = pc) (before : ¬ pc.Behind) :
      s.pool.stop = false := staffed.opened (located ▸ before)
  -- `Upload` moves no worker, and adds tasks at the end.
  have ⟨workers, queued⟩ : t.pool.workers = s.pool.workers ∧ (Queued s → Queued t) := by
    cases uploads_of_upload moved with
    | enqueuesListener located =>
      rw [enqueue_of_open (still located id)]
      refine ⟨rfl, fun queued => ⟨Or.inr ?_, queued.nobody⟩⟩
      rcases queued.next with ⟨-, queueless⟩ | ⟨tasks, first⟩
      · exact ⟨[], by rw [queueless, List.nil_append]⟩
      · exact ⟨tasks ++ [.listenResend], by rw [first, List.cons_append]⟩
    | enqueuesTransmitter located =>
      rw [enqueue_of_open (still located id)]
      refine ⟨rfl, fun queued => ⟨Or.inr ?_, queued.nobody⟩⟩
      rcases queued.next with ⟨first, -⟩ | ⟨tasks, first⟩
      · exact UploadPc.noConfusion (located.symm.trans first)
      · exact ⟨tasks ++ [.transmitPackets s.transmitters], by rw [first, List.cons_append]⟩
    | guards located | checks located | closes located | joins _ located | joined _ located
    | acknowledges _ located =>
      refine ⟨rfl, fun queued => ⟨Or.inr ?_, queued.nobody⟩⟩
      rcases queued.next with ⟨first, -⟩ | after
      · exact UploadPc.noConfusion (located.symm.trans first)
      · exact after
  refine ⟨opened, ?_, ?_⟩
  · rw [shared, workers]
    exact staffed.transmitters
  · rw [shared, workers]
    intro listening
    exact (staffed.listener listening).imp_left queued

/-- A worker that runs a task which goes on stays with it. -/
theorem keeps_of_worker {s t : Uploading n} {v w : Fin n} {task : Task}
    (moved : s.worker v = some t) (runs : s.pool.workers w = .running task)
    (goesOn : s.returned task = false) : t.pool.workers w = .running task := by
  have other : w ≠ v := by
    rintro rfl
    exact Bool.false_ne_true (goesOn.symm.trans (returned_of_worker moved runs))
  obtain ⟨pool, works, rfl⟩ := works_of_worker moved
  exact (works.others other).trans runs

theorem returned_of_atWork {s : Uploading n} {k : ℕ}
    (atWork : (s.transmission.workers k).atWork = true) :
    s.returned (.transmitPackets k) = false := by
  rw [returned]
  split
  · rename_i located
    rw [located] at atWork
    cases atWork
  · rfl

theorem returned_of_listening {s : Uploading n} (listening : s.transmission.Listening) :
    s.returned .listenResend = false := by
  cases ended : s.returned .listenResend with
  | false => rfl
  | true => exact absurd listening (not_listening_of_returned ended)

theorem Staffed.worker {s t : Uploading n} {v : Fin n} (staffed : Staffed s)
    (moved : s.worker v = some t) : Staffed t := by
  have keeps {w : Fin n} {task : Task} (runs : s.pool.workers w = .running task)
      (goesOn : s.returned task = false) := keeps_of_worker moved runs goesOn
  obtain ⟨pool, works, rfl⟩ := works_of_worker moved
  refine ⟨fun before => works.stop_eq.trans (staffed.opened before), ?_, ?_⟩
  · intro k atWork
    obtain ⟨w, runs⟩ := staffed.transmitters k atWork
    exact ⟨w, keeps runs (returned_of_atWork atWork)⟩
  · intro listening
    rcases staffed.listener listening with queued | ⟨w, runs⟩
    · -- The listener is the first task that is taken.
      have others (u : Fin n) (other : u ≠ v) (task : Task) : pool.workers u ≠ .running task := by
        rw [works.others other]
        exact queued.nobody u task
      cases works with
      | exits located stopped drained =>
        refine Or.inl ⟨queued.next, fun u task runs => ?_⟩
        by_cases same : u = v
        · rw [same, Threadpool.workers_goto, if_pos rfl] at runs
          cases runs
        · exact others u same task runs
      | starts task tasks located next =>
        refine Or.inr ⟨v, ?_⟩
        rcases queued.next with ⟨-, queueless⟩ | ⟨rest, first⟩
        · cases next.symm.trans queueless
        · obtain ⟨rfl, -⟩ := List.cons.inj (next.symm.trans first)
          exact Function.update_self v _ s.pool.workers
      | returns task located => exact absurd located (queued.nobody v task)
      | counts located =>
        refine Or.inl ⟨queued.next, fun u task runs => ?_⟩
        by_cases same : u = v
        · have runs : (s.pool.goto v .waiting).workers v = .running task := same ▸ runs
          rw [Threadpool.workers_goto, if_pos rfl] at runs
          cases runs
        · exact others u same task runs
    · exact Or.inr ⟨w, keeps runs (returned_of_listening listening)⟩

/-- A block of a task is that of a worker that runs it. -/
theorem runs_of_task {s t : Uploading n} {w : Fin n} {move : Move ℕ}
    (moved : s.task sender w move = some t) : s.pool.workers w = .running move.task := by
  unfold task at moved
  split_ifs at moved with runs
  exact runs

theorem Staffed.task {s t : Uploading n} {v : Fin n} {move : Move ℕ} (staffed : Staffed s)
    (moved : (system sender file packetCount).step s (.task v move) = some t) : Staffed t := by
  have moved : s.task sender v move = some t := moved
  obtain ⟨pc, pool⟩ := keeps_of_task moved
  have runs := runs_of_task moved
  have shared : (Transmission.system sender file packetCount).step s.transmission move =
      some t.transmission := transmission_task moved
  have opened : Opened t := by
    rw [Opened, pc, pool]
    exact staffed.opened
  have queued : Queued s → Queued t := by
    intro queued
    refine ⟨?_, ?_⟩
    · rw [pc, pool]
      exact queued.next
    · rw [pool]
      exact queued.nobody
  cases move with
  | transmit j sendFault =>
    have moved := Transmission.transmits_of_transmit shared
    refine ⟨opened, fun k atWork => ?_, fun listening => ?_⟩ <;> rw [pool]
    · by_cases same : k = j
      · exact ⟨v, same ▸ runs⟩
      · rw [moved.others same] at atWork
        exact staffed.transmitters k atWork
    · rw [Transmission.Listening, moved.keeps.1] at listening
      exact (staffed.listener listening).imp_left queued
  | listen answer =>
    refine ⟨opened, fun k atWork => ?_, fun _ => ?_⟩ <;> rw [pool]
    · have workers := (Transmission.listens_of_listen shared).workers_eq
      rw [workers] at atWork
      exact staffed.transmitters k atWork
    · exact Or.inr ⟨v, runs⟩

theorem staffed_of_reachable {s : Uploading n}
    (reached : (system sender file packetCount).Reachable s) : Staffed s := by
  refine reached.invariant ?_ ?_
  · rintro _ ⟨working, rfl⟩
    exact staffed_start file packetCount working
  · intro s move t staffed moved
    cases move with
    | upload => exact staffed.upload moved
    | worker v => exact staffed.worker moved
    | task v move => exact staffed.task moved

/-! ### Room beside the listener -/

/-- While the listener goes on, the transmitters at work have the other workers. -/
theorem Staffed.card_lt {s : Uploading n} (manned : 1 ≤ n) (staffed : Staffed s)
    (listening : s.transmission.Listening) {transmitters : Finset ℕ}
    (atWork : ∀ k ∈ transmitters, (s.transmission.workers k).atWork = true) :
    transmitters.card < n := by
  have placed (k : ℕ) (listed : k ∈ transmitters) := staffed.transmitters k (atWork k listed)
  rcases staffed.listener listening with queued | ⟨v, runs⟩
  · have nobody : transmitters = ∅ := by
      refine Finset.eq_empty_of_forall_notMem fun k listed => ?_
      obtain ⟨w, taken⟩ := placed k listed
      exact queued.nobody w _ taken
    rw [nobody, Finset.card_empty]
    exact manned
  · have inhabited : Nonempty (Fin n) := ⟨v⟩
    choose! worker taken using placed
    -- Different transmitters have different workers, and none has that of the listener.
    have others : ∀ k ∈ transmitters, worker k ∈ Finset.univ.erase v := by
      intro k listed
      refine Finset.mem_erase.mpr ⟨?_, Finset.mem_univ _⟩
      intro same
      cases runs.symm.trans (same ▸ taken k listed)
    have apart : Set.InjOn worker transmitters := by
      intro j first k second same
      have both := (taken j first).symm.trans (same ▸ taken k second)
      exact Task.transmitPackets.inj (WorkerPc.running.inj both)
    have few := Finset.card_le_card_of_injOn worker others apart
    rw [Finset.card_erase_of_mem (Finset.mem_univ v), Finset.card_univ, Fintype.card_fin] at few
    omega

/-- On one worker, nothing is sent while the listener goes on, and once it has set the
signal no transmitter is at work. -/
structure Mute (s : Uploading n) : Prop where
  silent : s.transmission.Listening ∨ s.transmission.stop = true → s.transmission.Silent
  idle : s.transmission.stop = true → ∀ k, (s.transmission.workers k).atWork = false

theorem mute_start (file : List Byte) (packetCount : ℕ) (working : UInt64) :
    Mute (start file packetCount working : Uploading n) where
  silent := fun _ _ listed => absurd listed List.not_mem_nil
  idle := fun stopped => absurd stopped Bool.false_ne_true

theorem Mute.transmit {s t : Uploading n} {v : Fin n} {k : ℕ} {sendFault : Option Failure}
    (single : n = 1) (staffed : Staffed s) (mute : Mute s)
    (moved : s.task sender v (.transmit k sendFault) = some t)
    (shared : s.transmission.transmit sender k sendFault = some t.transmission) : Mute t := by
  have moved := runs_of_task moved
  have transmits := Transmission.transmits_of_transmit shared
  obtain ⟨listener, stop⟩ := transmits.keeps
  -- The one worker runs a transmitter, so the listener has ended.
  have ended : ¬ s.transmission.Listening := by
    intro listening
    rcases staffed.listener listening with queued | ⟨w, runs⟩
    · exact queued.nobody v _ moved
    · subst single
      rw [Subsingleton.elim w v] at runs
      cases runs.symm.trans moved
  have ends : t.transmission.stop = true →
      t.transmission.history = s.transmission.history ∧
        (t.transmission.workers k).atWork = false := by
    intro stopped
    have idle := mute.idle (stop ▸ stopped) k
    generalize t.transmission = u at transmits stop stopped
    cases transmits with
    | checks located =>
      rw [if_pos (stop ▸ stopped)]
      refine ⟨rfl, ?_⟩
      rw [Transmission.workers_goto, if_pos rfl]
      rfl
    | waits located | chooses _ located | runsDry _ located | reads _ located
    | sends _ _ _ located | marks _ located =>
      rw [located] at idle
      cases idle
  refine ⟨fun cause => ?_, fun stopped j => ?_⟩
  · have stopped : t.transmission.stop = true := by
      refine cause.resolve_left fun listening => ended ?_
      rwa [Transmission.Listening, listener] at listening
    rw [Transmission.Silent, (ends stopped).1]
    exact mute.silent (Or.inr (stop ▸ stopped))
  · by_cases same : j = k
    · exact same ▸ (ends stopped).2
    · rw [transmits.others same]
      exact mute.idle (stop ▸ stopped) j

theorem Mute.listen {s t : Uploading n} {answer : Answer} (single : n = 1) (staffed : Staffed s)
    (mute : Mute s) (shared : s.transmission.listen answer = some t.transmission) : Mute t := by
  have listening := Transmission.listening_of_listen shared
  have listens := Transmission.listens_of_listen shared
  refine ⟨fun _ => listens.silent (mute.silent (Or.inl listening)), fun _ k => ?_⟩
  rw [listens.workers_eq, ← Bool.not_eq_true]
  intro atWork
  have one : ∀ j ∈ ({k} : Finset ℕ), (s.transmission.workers j).atWork = true := by
    intro j listed
    exact Finset.mem_singleton.mp listed ▸ atWork
  have few := staffed.card_lt single.ge listening one
  rw [Finset.card_singleton] at few
  omega

theorem Mute.step {s t : Uploading n} {move : UploadMove n} (single : n = 1)
    (staffed : Staffed s) (mute : Mute s)
    (moved : (system sender file packetCount).step s move = some t) : Mute t := by
  have keeps (same : t.transmission = s.transmission) : Mute t := by
    constructor <;> rw [same]
    · exact mute.silent
    · exact mute.idle
  cases move with
  | upload =>
    have moved : s.upload sender = some t := moved
    exact keeps (transmission_upload moved)
  | worker v => exact keeps (transmission_worker moved)
  | task v move =>
    have shared : (Transmission.system sender file packetCount).step s.transmission move =
        some t.transmission := transmission_task moved
    cases move with
    | transmit k sendFault => exact mute.transmit single staffed moved shared
    | listen answer => exact mute.listen single staffed shared

/-- While the listener goes on it leaves the transmitters one worker less than the pool
has; and on one worker nothing is sent before it ends, nor after it has ended with an
ACK. -/
structure ListenerFirst (s : Uploading n) : Prop where
  room : s.transmission.Listening → ∀ transmitters : Finset ℕ,
    (∀ k ∈ transmitters, (s.transmission.workers k).atWork = true) → transmitters.card < n
  silent : n = 1 → s.transmission.Listening ∨ s.transmission.stop = true → s.transmission.Silent

/-- The listener comes first in every upload. -/
theorem listenerFirst_of_reachable {s : Uploading n} (manned : 1 ≤ n)
    (reached : (system sender file packetCount).Reachable s) : ListenerFirst s where
  room listening _ atWork := (staffed_of_reachable reached).card_lt manned listening atWork
  silent single := by
    have mute : Mute s := by
      refine reached.induction ?_ ?_
      · rintro _ ⟨working, rfl⟩
        exact mute_start file packetCount working
      · intro s move t came mute moved
        exact mute.step single (staffed_of_reachable came) moved
    exact mute.silent

/-- The theorem where the server acknowledges an upload on one worker. -/
theorem silent_acknowledgedEarly :
    ∃ t, (system ⟨.little, fun _ => 0, 1, 7⟩ [1] 1).exec (start [1] 1 0) acknowledgedEarly =
        some t ∧ t.pc = .acknowledge ∧ t.transmission.Silent := by
  have ends : ((system ⟨.little, fun _ => 0, 1, 7⟩ [1] 1).exec (start [1] 1 0)
      acknowledgedEarly).map (fun t => (t.pc, t.transmission.stop)) =
        some (.acknowledge, true) := by decide
  obtain ⟨t, run, same⟩ := Option.map_eq_some_iff.mp ends
  obtain ⟨past, stopped⟩ := Prod.mk.inj same
  have reached : (system ⟨.little, fun _ => 0, 1, 7⟩ [1] 1).Reachable t :=
    ⟨_, acknowledgedEarly, ⟨0, rfl⟩, run⟩
  have first : ListenerFirst t := listenerFirst_of_reachable (by decide) reached
  exact ⟨t, run, past, first.silent rfl (Or.inr stopped)⟩

end Uploading

end Fup.Client
