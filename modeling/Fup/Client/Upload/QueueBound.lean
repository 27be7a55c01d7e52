/-
# How long the task queue of an upload gets

`Upload` enqueues transmitters while `GetWorkingThreadsCount` is at most the size
of the pool. That is a count of workers, not of queued tasks, and there are never
more workers than the pool has. So once the counter starts at most at the size of
the pool the guard never stops the loop, and the queue grows until the signal is
set, however slowly the workers come to their tasks.

The counter starts at whatever is in its place. A first value above the size of
the pool makes the guard fail at once, and then no transmitter is enqueued at all.
-/

import Fup.Client.Upload.Acknowledged

namespace Fup.Client

namespace Uploading

variable {n : ℕ} {sender : Sender} {file : List Byte} {packetCount : ℕ}

/-! ### Statements -/

/-- There are at most as many unfinished tasks as workers and one more, and the
guard ends the loop when every worker runs a task. -/
structure QueueBounded (sender : Sender) (s : Uploading n) : Prop where
  bounded : s.pool.unfinished ≤ n + 1
  stops : s.pc = .loopGuard → (∀ w, (s.pool.workers w).runs = 1) →
    ∀ t, s.upload sender = some t → t.pc = .waitAll

/-- The loop is at its guard while every worker runs a task. -/
def GuardsFull (s : Uploading n) : Prop := s.pc = .loopGuard ∧ ∀ w, (s.pool.workers w).runs = 1

/-- A transmitter is enqueued only while every queued task has an idle worker. -/
def HasRoom (s : Uploading n) (move : UploadMove n) : Prop :=
  move = .upload → s.pc = .enqueueTransmitter → s.pool.tasks.length ≤ s.pool.idle

/-! ### Enqueueing -/

theorem unfinished_enqueue (pool : Threadpool (Fin n) Task) (task : Task) :
    Threadpool.unfinished { pool with tasks := pool.tasks ++ [task] } = pool.unfinished + 1 := by
  simp only [Threadpool.unfinished, List.length_append, List.length_singleton]
  omega

theorem room_iff {s : Uploading n} :
    s.pool.tasks.length ≤ s.pool.idle ↔ s.pool.unfinished ≤ n := by
  have all := s.pool.idle_add_runs
  rw [Fintype.card_fin] at all
  rw [Threadpool.unfinished]
  omega

/-! ### One run -/

/-- The pool is open in front of the end of the loop, nothing is enqueued before
the listener, and the unfinished tasks are within the bound. -/
structure InBounds (s : Uploading n) : Prop where
  opened : ¬ s.pc.Behind → s.pool.stop = false
  fresh : s.pc = .enqueueListener → s.pool.unfinished = 0
  bounded : s.pool.unfinished ≤ n + 1

theorem inBounds_start (file : List Byte) (packetCount : ℕ) (working : UInt64) :
    InBounds (start file packetCount working : Uploading n) := by
  have zero : (start file packetCount working : Uploading n).pool.unfinished = 0 :=
    Threadpool.unfinished_start working
  exact ⟨fun _ => rfl, fun _ => zero, zero.trans_le (Nat.zero_le _)⟩

theorem InBounds.upload {s t : Uploading n} (inBounds : InBounds s) (room : HasRoom s .upload)
    (moved : s.upload sender = some t) : InBounds t := by
  have opened : Opened t := Opened.upload inBounds.opened moved
  have still {pc : UploadPc} (located : s.pc = pc) (before : ¬ pc.Behind) :
      s.pool.stop = false := inBounds.opened (located ▸ before)
  have bounded := inBounds.bounded
  cases uploads_of_upload moved with
  | enqueuesListener located =>
    rw [enqueue_of_open (still located id)] at opened ⊢
    refine ⟨opened, fun same => UploadPc.noConfusion same, ?_⟩
    rw [unfinished_enqueue, inBounds.fresh located]
    exact Nat.le_add_left 1 n
  | enqueuesTransmitter located =>
    rw [enqueue_of_open (still located id)] at opened ⊢
    refine ⟨opened, fun same => UploadPc.noConfusion same, ?_⟩
    -- Room for one more: the new task is the last one within the bound.
    have few := room_iff.mp (room rfl located)
    exact (unfinished_enqueue s.pool _).trans_le (Nat.succ_le_succ few)
  | guards | checks =>
    refine ⟨opened, fun same => ?_, bounded⟩
    simp only at same
    split_ifs at same
  | closes | joins | joined | acknowledges =>
    exact ⟨opened, fun same => UploadPc.noConfusion same, bounded⟩

theorem InBounds.step {s t : Uploading n} {move : UploadMove n} (inBounds : InBounds s)
    (room : HasRoom s move) (moved : (system sender file packetCount).step s move = some t) :
    InBounds t := by
  have opened : Opened t := Opened.step inBounds.opened moved
  cases move with
  | upload =>
    have moved : s.upload sender = some t := moved
    exact inBounds.upload room moved
  | worker w =>
    obtain ⟨pool, works, rfl⟩ := works_of_worker moved
    have fewer := works.unfinished_le
    refine ⟨opened, fun same => ?_, fewer.trans inBounds.bounded⟩
    exact Nat.le_zero.mp (fewer.trans_eq (inBounds.fresh same))
  | task w move =>
    obtain ⟨pc, pool⟩ := keeps_of_task moved
    refine ⟨opened, fun same => ?_, ?_⟩ <;> rw [pool]
    · exact inBounds.fresh (pc ▸ same)
    · exact inBounds.bounded

/-- A transmitter that finds every idle worker spoken for is one too many. -/
theorem InBounds.exceeds {s t : Uploading n} {move : UploadMove n} (inBounds : InBounds s)
    (full : ¬ HasRoom s move) (moved : (system sender file packetCount).step s move = some t) :
    ¬ t.pool.unfinished ≤ n + 1 := by
  simp only [HasRoom, not_forall] at full
  obtain ⟨rfl, located, full⟩ := full
  have moved : s.upload sender = some t := moved
  have opened : s.pool.stop = false := inBounds.opened (by rw [located]; exact id)
  cases uploads_of_upload moved with
  | enqueuesTransmitter =>
    rw [room_iff] at full
    rw [enqueue_of_open opened]
    change ¬ Threadpool.unfinished { s.pool with tasks := s.pool.tasks ++ [_] } ≤ n + 1
    rw [unfinished_enqueue]
    omega
  | _ => simp_all

/-- A run keeps within the bound exactly when every transmitter is enqueued with
room. -/
theorem throughout_unfinished_iff {working : UInt64} {moves : List (UploadMove n)}
    {t : Uploading n}
    (run : (system sender file packetCount).exec (start file packetCount working) moves = some t) :
    (system sender file packetCount).Throughout (fun s => s.pool.unfinished ≤ n + 1)
        (start file packetCount working) moves ↔
      (system sender file packetCount).Within HasRoom (start file packetCount working) moves :=
  StepSystem.throughout_iff_within (inBounds_start file packetCount working)
    (fun _ _ _ inBounds room moved => inBounds.step room moved)
    (fun _ inBounds => inBounds.bounded)
    (fun _ _ _ inBounds full moved => inBounds.exceeds full moved) run

/-! ### The guard of a full pool -/

theorem countsFrom_enqueue {working : UInt64} {s : Uploading n}
    (counts : s.pool.CountsFrom working) (task : Task) (pc : UploadPc) :
    (s.enqueue task pc).pool.CountsFrom working := by
  rw [enqueue, Threadpool.enqueue]
  split_ifs <;> exact counts

/-- `Upload` does not count, and a worker counts itself. -/
theorem countsFrom_step {working : UInt64} {s t : Uploading n} {move : UploadMove n}
    (counts : s.pool.CountsFrom working)
    (moved : (system sender file packetCount).step s move = some t) :
    t.pool.CountsFrom working := by
  cases move with
  | upload =>
    have moved : s.upload sender = some t := moved
    cases uploads_of_upload moved with
    | enqueuesListener => exact countsFrom_enqueue counts _ _
    | enqueuesTransmitter => exact countsFrom_enqueue counts _ _
    | _ => exact counts
  | worker w =>
    obtain ⟨pool, works, rfl⟩ := works_of_worker moved
    exact counts.works works
  | task w move =>
    obtain ⟨-, pool⟩ := keeps_of_task moved
    exact pool ▸ counts

/-- When every worker runs a task, every worker is counted. -/
theorem sum_busy_of_full {pool : Threadpool (Fin n) Task}
    (full : ∀ w, (pool.workers w).runs = 1) : ∑ w, (pool.workers w).busy = n := by
  have each (w : Fin n) : (pool.workers w).busy = 1 := by
    have runs := full w
    cases located : pool.workers w <;> simp_all [WorkerPc.runs, WorkerPc.busy]
  calc ∑ w, (pool.workers w).busy = ∑ _ : Fin n, 1 := Finset.sum_congr rfl fun w _ => each w
    _ = Finset.univ.card := (Finset.card_eq_sum_ones _).symm
    _ = n := Finset.card_fin n

/-- The count of a full pool is above its size when the counter has started above zero
and has not wrapped. -/
theorem lt_working_iff (few : n < 2 ^ 64) {working : UInt64} {s : Uploading n}
    (counts : s.pool.CountsFrom working) (full : ∀ w, (s.pool.workers w).runs = 1) :
    n < s.pool.getWorkingThreadsCount.toNat ↔
      0 < working.toNat ∧ working.toNat + n < 2 ^ 64 := by
  have counted : s.pool.working = working + UInt64.ofNat (∑ w, (s.pool.workers w).busy) := counts
  have limit := working.toNat_lt
  rw [Threadpool.getWorkingThreadsCount, counted, sum_busy_of_full full, UInt64.toNat_add,
    UInt64.toNat_ofNat_of_lt' few]
  omega

/-- The guard ends the loop when its count is above the size of the pool. -/
theorem stops_iff {s : Uploading n} (located : s.pc = .loopGuard) :
    (∀ t, s.upload sender = some t → t.pc = .waitAll) ↔
      n < s.pool.getWorkingThreadsCount.toNat := by
  simp only [Uploading.upload, located, Option.some.injEq, forall_eq']
  split_ifs with passes
  · exact iff_of_false id (Nat.not_lt.mpr passes)
  · exact iff_of_true rfl (Nat.lt_of_not_le passes)

/-- A run keeps both parts exactly when every transmitter is enqueued with room, and
the counter has started above zero and far enough from its end, or the pool is never
full at the guard. -/
theorem throughout_queueBounded_iff (few : n < 2 ^ 64) {working : UInt64}
    {moves : List (UploadMove n)} {t : Uploading n}
    (run : (system sender file packetCount).exec (start file packetCount working) moves = some t) :
    (system sender file packetCount).Throughout (QueueBounded sender)
        (start file packetCount working) moves ↔
      (system sender file packetCount).Within HasRoom (start file packetCount working) moves ∧
        (0 < working.toNat ∧ working.toNat + n < 2 ^ 64 ∨
          (system sender file packetCount).Throughout (fun s => ¬ GuardsFull s)
            (start file packetCount working) moves) := by
  have counts {bs : List (UploadMove n)} {s : Uploading n}
      (reached : (system sender file packetCount).exec (start file packetCount working) bs =
        some s) : s.pool.CountsFrom working := by
    have begins := Threadpool.countsFrom_start (ι := Fin n) (τ := Task) working
    exact @StepSystem.exec_invariant _ _ (system sender file packetCount)
      (fun s => s.pool.CountsFrom working) (start file packetCount working) s bs begins
      (fun _ _ _ counts moved => countsFrom_step counts moved) reached
  rw [← throughout_unfinished_iff run]
  constructor
  · intro bounded
    refine ⟨fun bs part s reached => (bounded bs part s reached).bounded, ?_⟩
    rw [or_iff_not_imp_left]
    rintro low bs part s reached ⟨located, full⟩
    have stops := (bounded bs part s reached).stops located full
    exact low ((lt_working_iff few (counts reached) full).mp ((stops_iff located).mp stops))
  · rintro ⟨bounded, guarded⟩ bs part s reached
    refine ⟨bounded bs part s reached, fun located full => ?_⟩
    rcases guarded with high | never
    · exact (stops_iff located).mpr ((lt_working_iff few (counts reached) full).mpr high)
    · exact absurd ⟨located, full⟩ (never bs part s reached)

/-! ### A counter that starts above the size of the pool -/

/-- The counter has only counted since the start, the listener is the one task at
most, and the loop is never entered. -/
structure Barred (working : UInt64) (s : Uploading n) : Prop where
  opened : ¬ s.pc.Behind → s.pool.stop = false
  counts : s.pool.CountsFrom working
  fresh : s.pc = .enqueueListener → s.pool.occupied = 0
  alone : s.pool.occupied ≤ 1
  outside : s.pc ≠ .enqueueTransmitter ∧ s.pc ≠ .checkStop

theorem barred_start (file : List Byte) (packetCount : ℕ) (working : UInt64) :
    Barred working (start file packetCount working : Uploading n) := by
  have zero : (start file packetCount working : Uploading n).pool.occupied = 0 :=
    Threadpool.occupied_start working
  exact ⟨fun _ => rfl, Threadpool.countsFrom_start working, fun _ => zero,
    zero.trans_le (Nat.zero_le 1), by simp [start]⟩

section Above

variable {working : UInt64} (above : n < working.toNat) (below : working.toNat < 2 ^ 64 - 1)

include above below

/-- One task more does not wrap the counter, so the guard fails. -/
theorem Barred.guard_fails {s : Uploading n} (barred : Barred working s) :
    ¬ s.pool.getWorkingThreadsCount.toNat ≤ n := by
  have counted : s.pool.working = working + UInt64.ofNat (∑ w, (s.pool.workers w).busy) :=
    barred.counts
  have alone : s.pool.tasks.length + ∑ w, (s.pool.workers w).busy ≤ 1 := barred.alone
  -- At most one worker is counted, which the type of the counter holds.
  have size : (UInt64.ofNat (∑ w, (s.pool.workers w).busy)).toNat =
      ∑ w, (s.pool.workers w).busy :=
    UInt64.toNat_ofNat_of_lt' (((Nat.le_add_left _ _).trans alone).trans_lt (by decide))
  rw [Threadpool.getWorkingThreadsCount, counted, UInt64.toNat_add, size,
    Nat.mod_eq_of_lt (by omega)]
  omega

theorem Barred.upload {s t : Uploading n} (barred : Barred working s)
    (moved : s.upload sender = some t) : Barred working t := by
  have opened : Opened t := Opened.upload barred.opened moved
  have fails := barred.guard_fails above below
  have counts := barred.counts
  have alone := barred.alone
  cases uploads_of_upload moved with
  | enqueuesListener located =>
    have still : s.pool.stop = false := barred.opened (by rw [located]; exact id)
    -- So far there was no task at all.
    have zero : s.pool.tasks.length + ∑ w, (s.pool.workers w).busy = 0 := barred.fresh located
    rw [enqueue_of_open still] at opened ⊢
    refine ⟨opened, counts, fun same => UploadPc.noConfusion same, ?_, by simp⟩
    simp only [Threadpool.occupied, List.length_append, List.length_singleton]
    omega
  | guards located =>
    rw [if_neg fails] at opened ⊢
    exact ⟨opened, counts, fun same => UploadPc.noConfusion same, alone, by simp⟩
  | enqueuesTransmitter located => exact absurd located barred.outside.1
  | checks located => exact absurd located barred.outside.2
  | closes | joins | joined | acknowledges =>
    exact ⟨opened, counts, fun same => UploadPc.noConfusion same, alone, by simp⟩

theorem Barred.step {s t : Uploading n} {move : UploadMove n} (barred : Barred working s)
    (moved : (system sender file packetCount).step s move = some t) : Barred working t := by
  have opened : Opened t := Opened.step barred.opened moved
  cases move with
  | upload =>
    have moved : s.upload sender = some t := moved
    exact barred.upload above below moved
  | worker w =>
    obtain ⟨pool, works, rfl⟩ := works_of_worker moved
    have fewer := works.occupied_le
    refine ⟨opened, barred.counts.works works, fun same => ?_, fewer.trans barred.alone,
      barred.outside⟩
    exact Nat.le_zero.mp (fewer.trans_eq (barred.fresh same))
  | task w move =>
    obtain ⟨pc, pool⟩ := keeps_of_task moved
    refine ⟨opened, pool ▸ barred.counts, fun same => ?_, pool ▸ barred.alone,
      pc ▸ barred.outside⟩
    rw [pool]
    exact barred.fresh (pc ▸ same)

theorem Barred.queueBounded {s : Uploading n} (barred : Barred working s) :
    QueueBounded sender s where
  bounded := s.pool.unfinished_le_occupied.trans (barred.alone.trans (Nat.le_add_left 1 n))
  stops := by
    intro located _ t moved
    cases uploads_of_upload moved with
    | guards => exact if_neg (barred.guard_fails above below)
    | _ => simp_all

end Above

/-! ### A counter that lets the loop go on -/

/-- `Upload` is in front of the guard, which will not stop it, and there are `k`
unfinished tasks. -/
structure Looping (k : ℕ) (s : Uploading n) : Prop where
  located : s.pc = .loopGuard
  passes : s.pool.getWorkingThreadsCount.toNat ≤ n
  opened : s.pool.stop = false
  unsignalled : s.transmission.stop = false
  unfinished : s.pool.unfinished = k

/-- A turn of the loop in which nobody else moves. -/
theorem Looping.next {k : ℕ} {s : Uploading n} (looping : Looping k s) :
    ∃ t, (system sender file packetCount).exec s [.upload, .upload, .upload] = some t ∧
      Looping (k + 1) t := by
  obtain ⟨located, passes, opened, unsignalled, unfinished⟩ := looping
  -- The states behind the guard and behind the enqueueing.
  let r : Uploading n := { s with pc := .enqueueTransmitter }
  let q : Uploading n := { r with
    pc := .checkStop
    pool := { s.pool with tasks := s.pool.tasks ++ [.transmitPackets s.transmitters] }
    transmitters := s.transmitters + 1 }
  have guards : s.upload sender = some r := by
    simp only [Uploading.upload, located, if_pos passes, r]
  have enqueues : r.upload sender = some q := by
    have still : r.pool.stop = false := opened
    change some { r.enqueue _ _ with transmitters := s.transmitters + 1 } = some q
    rw [enqueue_of_open still]
  have checks : q.upload sender = some { q with pc := .loopGuard } := by
    change some { q with pc := if s.transmission.stop then _ else _ } = _
    rw [unsignalled]
    rfl
  refine ⟨{ q with pc := .loopGuard }, ?_, ⟨rfl, passes, opened, unsignalled, ?_⟩⟩
  · change (s.upload sender).bind (fun r => (r.upload sender).bind fun q =>
      (q.upload sender).bind some) = _
    rw [guards, Option.bind_some, enqueues, Option.bind_some, checks, Option.bind_some]
  · rw [← unfinished]
    exact unfinished_enqueue s.pool _

/-- From a state in which the guard passes, the loop goes on as long as nobody
else moves. -/
theorem Looping.grows {k : ℕ} {s : Uploading n} (looping : Looping k s) (more : ℕ) :
    ∃ moves t, (system sender file packetCount).exec s moves = some t ∧ Looping (k + more) t := by
  induction more with
  | zero => exact ⟨[], s, rfl, looping⟩
  | succ more ih =>
    obtain ⟨moves, t, run, here⟩ := ih
    obtain ⟨u, turn, next⟩ := here.next
    exact ⟨moves ++ _, u, StepSystem.exec_append_eq_some.mpr ⟨t, run, turn⟩, next⟩

/-- `Upload` has enqueued the listener. -/
def listenerEnqueued (file : List Byte) (packetCount : ℕ) (working : UInt64) : Uploading n :=
  { (start file packetCount working : Uploading n) with
    pc := .loopGuard
    pool := { (Threadpool.start working : Threadpool (Fin n) Task) with tasks := [.listenResend] } }

theorem unfinished_listenerEnqueued (working : UInt64) :
    (listenerEnqueued file packetCount working : Uploading n).pool.unfinished = 1 := by
  have zero := Threadpool.unfinished_start (ι := Fin n) (τ := Task) working
  exact (unfinished_enqueue (.start working) .listenResend).trans (congrArg (· + 1) zero)

/-- A counter that starts at most at the size of the pool, or wraps to zero with
the listener, lets the loop go on. -/
theorem reach_looping {working : UInt64} (manned : 1 ≤ n)
    (passes : working.toNat ≤ n ∨ working.toNat = 2 ^ 64 - 1) :
    ∃ moves s, (system sender file packetCount).exec (start file packetCount working) moves =
        some s ∧ Looping (n := n) 1 s := by
  rcases passes with low | last
  · exact ⟨[.upload], listenerEnqueued file packetCount working, rfl, rfl, low, rfl, rfl,
      unfinished_listenerEnqueued working⟩
  · -- The first worker takes the listener, and the counter wraps.
    let w : Fin n := ⟨0, manned⟩
    let s : Uploading n := listenerEnqueued file packetCount working
    let pool : Threadpool (Fin n) Task :=
      { s.pool.goto w (.running .listenResend) with tasks := [], working := s.pool.working + 1 }
    have wrapped : (working + 1).toNat = 0 := by
      rw [UInt64.toNat_add, last]
      rfl
    refine ⟨[.upload, .worker w], { s with pool := pool }, rfl, rfl, ?_, rfl, rfl, ?_⟩
    · exact wrapped.trans_le (Nat.zero_le n)
    -- The listener has moved from the queue to the worker.
    · have sum := s.pool.sum_goto WorkerPc.runs w (.running .listenResend)
      have one : 1 + ∑ v, (s.pool.workers v).runs = 1 := unfinished_listenerEnqueued working
      change 0 + ∑ v, ((s.pool.goto w (.running .listenResend)).workers v).runs = 1
      change _ + 0 = _ + 1 at sum
      omega

/-! ### Every run -/

/-- In all runs the queue stays bounded exactly when the counter starts above the
size of the pool and one more does not wrap it, so that the loop is never entered.
A single run keeps within the bound exactly when every transmitter is enqueued
with room, and keeps the guard as well exactly when the pool is never full at it or
the counter has started above zero and a full pool does not wrap it. -/
theorem queueBounded_iff {maxThreadPoolSize : UInt16} (manned : 1 ≤ maxThreadPoolSize.toNat)
    (sender : Sender) (file : List Byte) (packetCount : ℕ) (working : UInt64) :
    ((∀ moves (s : Uploading maxThreadPoolSize.toNat),
        (system sender file packetCount).exec (start file packetCount working) moves = some s →
          QueueBounded sender s) ↔
      maxThreadPoolSize.toNat < working.toNat ∧ working.toNat < 2 ^ 64 - 1) ∧
    ∀ moves (s : Uploading maxThreadPoolSize.toNat),
      (system sender file packetCount).exec (start file packetCount working) moves = some s →
        ((system sender file packetCount).Throughout
            (fun s => s.pool.unfinished ≤ maxThreadPoolSize.toNat + 1)
            (start file packetCount working) moves ↔
          (system sender file packetCount).Within HasRoom (start file packetCount working)
            moves) ∧
        ((system sender file packetCount).Throughout (QueueBounded sender)
            (start file packetCount working) moves ↔
          (system sender file packetCount).Within HasRoom (start file packetCount working) moves ∧
            (0 < working.toNat ∧ working.toNat + maxThreadPoolSize.toNat < 2 ^ 64 ∨
              (system sender file packetCount).Throughout (fun s => ¬ GuardsFull s)
                (start file packetCount working) moves)) := by
  have few : maxThreadPoolSize.toNat < 2 ^ 64 := maxThreadPoolSize.toNat_lt.trans (by decide)
  refine ⟨⟨?_, ?_⟩, fun moves s run =>
    ⟨throughout_unfinished_iff run, throughout_queueBounded_iff few run⟩⟩
  · intro bounded
    by_contra outside
    have limit := working.toNat_lt
    have passes : working.toNat ≤ maxThreadPoolSize.toNat ∨ working.toNat = 2 ^ 64 - 1 := by
      omega
    -- The loop is entered, and then turns until there are too many tasks.
    obtain ⟨moves, s, run, looping⟩ := reach_looping manned passes
    obtain ⟨turns, t, rest, full⟩ := looping.grows (maxThreadPoolSize.toNat + 1)
    have few := (bounded (moves ++ turns) t
      (StepSystem.exec_append_eq_some.mpr ⟨s, run, rest⟩)).bounded
    have many := full.unfinished
    omega
  · rintro ⟨above, below⟩ moves s run
    have barred := StepSystem.exec_invariant (barred_start file packetCount working)
      (fun _ _ _ barred moved => Barred.step above below barred moved) run
    exact barred.queueBounded above below

/-- The theorem for a pool of one worker. -/
theorem queueBounded_iff_oneWorker :
    ((∀ moves (s : Uploading (1 : UInt16).toNat),
        (system ⟨.little, fun _ => 0, 1, 7⟩ [1] 1).exec (start [1] 1 0) moves = some s →
          QueueBounded ⟨.little, fun _ => 0, 1, 7⟩ s) ↔
      (1 : UInt16).toNat < (0 : UInt64).toNat ∧ (0 : UInt64).toNat < 2 ^ 64 - 1) ∧
    ∀ moves (s : Uploading (1 : UInt16).toNat),
      (system ⟨.little, fun _ => 0, 1, 7⟩ [1] 1).exec (start [1] 1 0) moves = some s →
        ((system ⟨.little, fun _ => 0, 1, 7⟩ [1] 1).Throughout
            (fun s => s.pool.unfinished ≤ (1 : UInt16).toNat + 1) (start [1] 1 0) moves ↔
          (system ⟨.little, fun _ => 0, 1, 7⟩ [1] 1).Within HasRoom (start [1] 1 0) moves) ∧
        ((system ⟨.little, fun _ => 0, 1, 7⟩ [1] 1).Throughout
            (QueueBounded ⟨.little, fun _ => 0, 1, 7⟩) (start [1] 1 0) moves ↔
          (system ⟨.little, fun _ => 0, 1, 7⟩ [1] 1).Within HasRoom (start [1] 1 0) moves ∧
            (0 < (0 : UInt64).toNat ∧ (0 : UInt64).toNat + (1 : UInt16).toNat < 2 ^ 64 ∨
              (system ⟨.little, fun _ => 0, 1, 7⟩ [1] 1).Throughout (fun s => ¬ GuardsFull s)
                (start [1] 1 0) moves)) :=
  queueBounded_iff le_rfl _ [1] 1 0

/-- Before the only worker moves, `Upload` enqueues the listener and two
transmitters. -/
theorem not_queueBounded_oneThread :
    ¬ ∀ s, oneThread.Reachable s → QueueBounded ⟨.little, fun _ => 0, 1, 7⟩ s := by
  intro bounded
  have ends : (oneThread.exec (start [1] 1 0) (List.replicate 6 .upload)).map
      (fun s => s.pool.unfinished) = some 3 := by decide
  obtain ⟨s, run, three⟩ := Option.map_eq_some_iff.mp ends
  have few := (bounded s ⟨_, _, ⟨0, rfl⟩, run⟩).bounded
  rw [three] at few
  exact absurd few (by decide)

end Uploading

end Fup.Client
