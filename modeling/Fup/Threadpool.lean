/-
# The thread pool

A queue of tasks, a stop flag and a counter of busy workers, all behind one
mutex. A worker alternates between blocks that hold the mutex and the task
itself, which runs outside it. Tasks are wrapped so that their exceptions go
nowhere, and for the pool a task just returns.

The counter is declared without an initializer, so a pool may start with any
value in it.
-/

import Fup.Common
import Mathlib.Algebra.BigOperators.Group.Finset.Basic
import Mathlib.Algebra.BigOperators.Group.Finset.Piecewise
import Mathlib.Algebra.Order.BigOperators.Group.Finset
import Mathlib.Logic.Function.Basic

namespace Fup

/-- Where a worker of the pool is. -/
inductive WorkerPc (τ : Type)
  /-- Waiting on the condition variable for a task or the stop flag. -/
  | waiting
  | running (task : τ)
  /-- The task has returned and is still counted. -/
  | finishing
  | exited
  deriving DecidableEq

/-- Whether the worker has taken a task and is counted for it. -/
def WorkerPc.busy {τ : Type} : WorkerPc τ → ℕ
  | .waiting => 0
  | .running _ => 1
  | .finishing => 1
  | .exited => 0

/-- Whether the worker runs a task. -/
def WorkerPc.runs {τ : Type} : WorkerPc τ → ℕ
  | .running _ => 1
  | _ => 0

/-- The queue, the flag and the counter of a pool, and its workers. -/
structure Threadpool (ι τ : Type) where
  tasks : List τ
  stop : Bool
  working : UInt64
  workers : ι → WorkerPc τ

namespace Threadpool

variable {ι τ : Type}

/-- The worker of a pool of one. -/
def onlyWorker : Fin 1 := Fin.last 0

/-- A pool just constructed, with what happens to be in the counter. -/
def start (working : UInt64) : Threadpool ι τ := ⟨[], false, working, fun _ => .waiting⟩

/-- `Threadpool::Enqueue`. -/
def enqueue (pool : Threadpool ι τ) (task : τ) : Except Failure (Threadpool ι τ) :=
  if pool.stop then .error (.exception "enqueue on stopped Threadpool")
  else .ok { pool with tasks := pool.tasks ++ [task] }

/-- `Threadpool::GetWorkingThreadsCount`. -/
def getWorkingThreadsCount (pool : Threadpool ι τ) : UInt64 := pool.working

/-- The first block of `Threadpool::WaitAll`. The joins follow it. -/
def close (pool : Threadpool ι τ) : Threadpool ι τ := { pool with stop := true }

/-- The next block of a worker. While there is neither a task nor the stop flag
it waits. -/
def work [DecidableEq ι] (pool : Threadpool ι τ) (w : ι) : Option (Threadpool ι τ) :=
  match pool.workers w, pool.tasks with
  | .waiting, [] =>
    if pool.stop then some { pool with workers := Function.update pool.workers w .exited }
    else none
  | .waiting, task :: tasks =>
    some { pool with
      tasks := tasks
      working := pool.working + 1
      workers := Function.update pool.workers w (.running task) }
  | .running _, _ =>
    some { pool with workers := Function.update pool.workers w .finishing }
  | .finishing, _ =>
    some { pool with
      working := pool.working - 1
      workers := Function.update pool.workers w .waiting }
  | .exited, _ => none

/-! ### What a worker does -/

variable [DecidableEq ι] {pool next : Threadpool ι τ} {w : ι}

/-- A worker goes on to another block. -/
def goto (pool : Threadpool ι τ) (w : ι) (pc : WorkerPc τ) : Threadpool ι τ :=
  { pool with workers := Function.update pool.workers w pc }

theorem workers_goto (pc : WorkerPc τ) (v : ι) :
    (pool.goto w pc).workers v = if v = w then pc else pool.workers v :=
  Function.update_apply pool.workers w pc v

/-- What a worker's block does, by the block. -/
inductive Works (pool : Threadpool ι τ) (w : ι) : Threadpool ι τ → Prop
  | exits (located : pool.workers w = .waiting) (stopped : pool.stop = true)
    (drained : pool.tasks = []) : Works pool w (pool.goto w .exited)
  | starts (task : τ) (tasks : List τ) (located : pool.workers w = .waiting)
    (next : pool.tasks = task :: tasks) :
    Works pool w { pool.goto w (.running task) with
      tasks := tasks
      working := pool.working + 1 }
  | returns (task : τ) (located : pool.workers w = .running task) :
    Works pool w (pool.goto w .finishing)
  | counts (located : pool.workers w = .finishing) :
    Works pool w { pool.goto w .waiting with working := pool.working - 1 }

theorem works_of_work (moved : pool.work w = some next) : Works pool w next := by
  unfold work at moved
  split at moved
  case h_1 located drained =>
    split_ifs at moved with stopped
    exact Option.some.inj moved ▸ .exits located stopped drained
  case h_2 task tasks located queued =>
    exact Option.some.inj moved ▸ .starts task tasks located queued
  case h_3 task located => exact Option.some.inj moved ▸ .returns task located
  case h_4 located => exact Option.some.inj moved ▸ .counts located
  case h_5 => cases moved

/-- No worker touches the stop flag. -/
theorem Works.stop_eq (moved : Works pool w next) : next.stop = pool.stop := by
  cases moved <;> rfl

/-- The other workers stay where they are. -/
theorem Works.others (moved : Works pool w next) {v : ι} (other : v ≠ w) :
    next.workers v = pool.workers v := by
  cases moved <;> exact Function.update_of_ne other _ _

omit [DecidableEq ι] in
/-- An accepted task is the last in the queue. -/
theorem enqueue_eq_ok {task : τ} (accepted : pool.enqueue task = .ok next) :
    pool.stop = false ∧ next = { pool with tasks := pool.tasks ++ [task] } := by
  rw [enqueue] at accepted
  split_ifs at accepted with stopped
  exact ⟨Bool.not_eq_true _ ▸ stopped, (Except.ok.inj accepted).symm⟩

/-! ### The end of the workers -/

/-- A worker leaves the pool only when it is stopped and drained, and then it
stays so. -/
def Drained (pool : Threadpool ι τ) : Prop :=
  ∀ w, pool.workers w = .exited → pool.stop = true ∧ pool.tasks = []

omit [DecidableEq ι] in
theorem drained_start (working : UInt64) : (start working : Threadpool ι τ).Drained :=
  fun _ exited => by cases exited

omit [DecidableEq ι] in
theorem Drained.enqueue {task : τ} (drained : pool.Drained)
    (accepted : pool.enqueue task = .ok next) : next.Drained := by
  obtain ⟨running, rfl⟩ := enqueue_eq_ok accepted
  intro w exited
  exact absurd (running.symm.trans (drained w exited).1) Bool.false_ne_true

omit [DecidableEq ι] in
theorem Drained.close (drained : pool.Drained) : pool.close.Drained :=
  fun w exited => ⟨rfl, (drained w exited).2⟩

/-- A worker that goes to another block has not left. -/
theorem exited_of_goto {pc : WorkerPc τ} (stays : pc ≠ .exited) {v : ι}
    (exited : (pool.goto w pc).workers v = .exited) : pool.workers v = .exited := by
  rw [workers_goto] at exited
  split_ifs at exited with same
  · exact absurd exited stays
  · exact exited

theorem Drained.works (drained : pool.Drained) (moved : Works pool w next) : next.Drained := by
  intro v exited
  cases moved with
  | exits located stopped empty => exact ⟨stopped, empty⟩
  | starts task tasks located queued =>
    -- While there is a task no worker has left.
    have before : pool.workers v = .exited :=
      exited_of_goto (by simp) exited
    exact absurd (queued.symm.trans (drained v before).2) (List.cons_ne_nil task tasks)
  | returns task located => exact drained v (exited_of_goto (by simp) exited)
  | counts located => exact drained v (exited_of_goto (by simp) exited)

/-! ### The counter -/

variable [Fintype ι]

/-- The counter is the number of workers counted. -/
def Counts (pool : Threadpool ι τ) : Prop :=
  pool.working.toNat = ∑ w, (pool.workers w).busy

/-- The counter has gone up from its first value by the number of workers
counted, in the arithmetic of its type. -/
def CountsFrom (initial : UInt64) (pool : Threadpool ι τ) : Prop :=
  pool.working = initial + UInt64.ofNat (∑ w, (pool.workers w).busy)

omit [DecidableEq ι] in
theorem countsFrom_start (initial : UInt64) :
    (start initial : Threadpool ι τ).CountsFrom initial := by
  have zero : ∑ w : ι, ((start initial : Threadpool ι τ).workers w).busy = 0 :=
    Finset.sum_const_zero
  rw [CountsFrom, zero]
  exact (UInt64.add_zero initial).symm

omit [DecidableEq ι] in
theorem counts_start : (start 0 : Threadpool ι τ).Counts := by
  rw [Counts, start]
  exact (Finset.sum_const_zero).symm

omit [DecidableEq ι] in
theorem sum_busy_le (pool : Threadpool ι τ) :
    ∑ w, (pool.workers w).busy ≤ Fintype.card ι := by
  have each : ∀ w ∈ Finset.univ, (pool.workers w).busy ≤ 1 := by
    intro w _
    cases pool.workers w <;> simp [WorkerPc.busy]
  simpa using Finset.sum_le_card_nsmul Finset.univ _ 1 each

omit [DecidableEq ι] in
/-- The counter never passes the number of workers. -/
theorem Counts.working_le (counts : pool.Counts) : pool.working.toNat ≤ Fintype.card ι :=
  le_of_eq_of_le counts pool.sum_busy_le

/-- One worker's block changes one term of a sum over the workers. -/
theorem sum_goto (weight : WorkerPc τ → ℕ) (pool : Threadpool ι τ) (w : ι) (pc : WorkerPc τ) :
    (∑ v, weight ((pool.goto w pc).workers v)) + weight (pool.workers w) =
      (∑ v, weight (pool.workers v)) + weight pc := by
  -- The other workers weigh what they did.
  have others : ∑ v ∈ Finset.univ.erase w, weight ((pool.goto w pc).workers v) =
      ∑ v ∈ Finset.univ.erase w, weight (pool.workers v) := by
    refine Finset.sum_congr rfl fun v listed => ?_
    rw [workers_goto, if_neg (Finset.ne_of_mem_erase listed)]
  rw [← Finset.add_sum_erase Finset.univ _ (Finset.mem_univ w), others, workers_goto, if_pos rfl,
    ← Finset.add_sum_erase Finset.univ (fun v => weight (pool.workers v)) (Finset.mem_univ w)]
  ring

theorem sum_busy_goto (pool : Threadpool ι τ) (w : ι) (pc : WorkerPc τ) :
    (∑ v, ((pool.goto w pc).workers v).busy) + (pool.workers w).busy =
      (∑ v, (pool.workers v).busy) + pc.busy :=
  sum_goto WorkerPc.busy pool w pc

theorem CountsFrom.works {initial : UInt64} (counts : pool.CountsFrom initial)
    (moved : Works pool w next) : next.CountsFrom initial := by
  have counted : pool.working = initial + UInt64.ofNat (∑ w, (pool.workers w).busy) := counts
  cases moved with
  | exits located stopped drained =>
    have sum := pool.sum_busy_goto w .exited
    rw [located] at sum
    rw [CountsFrom, Nat.add_right_cancel sum]
    exact counted
  | starts task tasks located queued =>
    have sum := pool.sum_busy_goto w (.running task)
    rw [located] at sum
    have sum : ∑ v, ((pool.goto w (.running task)).workers v).busy =
      (∑ v, (pool.workers v).busy) + 1 := sum
    change pool.working + 1 =
      initial + UInt64.ofNat (∑ v, ((pool.goto w (.running task)).workers v).busy)
    -- One more worker is counted, and the counter goes up.
    rw [sum, counted, UInt64.ofNat_add, UInt64.add_assoc]
    rfl
  | returns task located =>
    have sum := pool.sum_busy_goto w .finishing
    rw [located] at sum
    rw [CountsFrom, Nat.add_right_cancel sum]
    exact counted
  | counts located =>
    have sum := pool.sum_busy_goto w .waiting
    rw [located] at sum
    change pool.working - 1 =
      initial + UInt64.ofNat (∑ v, ((pool.goto w .waiting).workers v).busy)
    have sum : (∑ v, ((pool.goto w .waiting).workers v).busy) + 1 =
      ∑ v, (pool.workers v).busy := sum
    rw [counted, ← sum, UInt64.ofNat_add, ← UInt64.add_assoc]
    exact UInt64.add_sub_cancel _ _

omit [DecidableEq ι] in
/-- The counter is right exactly when it started at zero. -/
theorem CountsFrom.counts_iff (few : Fintype.card ι < 2 ^ 64) {initial : UInt64}
    (counts : pool.CountsFrom initial) : pool.Counts ↔ initial = 0 := by
  have small : ∑ w, (pool.workers w).busy < 2 ^ 64 := pool.sum_busy_le.trans_lt few
  -- Workers are too few to wrap the counter.
  have size : (UInt64.ofNat (∑ w, (pool.workers w).busy)).toNat = ∑ w, (pool.workers w).busy :=
    UInt64.toNat_ofNat_of_lt' small
  rw [Counts, counts]
  constructor
  · intro same
    rw [← size, UInt64.toNat_inj, size] at same
    exact UInt64.add_eq_right.mp same
  · rintro rfl
    rw [UInt64.zero_add, size]

omit [DecidableEq ι] in
theorem Counts.countsFrom (counts : pool.Counts) : pool.CountsFrom 0 := by
  rw [CountsFrom, UInt64.zero_add, ← counts, UInt64.ofNat_toNat]

theorem Counts.works (few : Fintype.card ι < 2 ^ 64) (counts : pool.Counts)
    (moved : Works pool w next) : next.Counts :=
  ((counts.countsFrom.works moved).counts_iff few).mpr rfl

/-! ### Unfinished tasks -/

/-- The number of tasks queued or running. -/
def unfinished (pool : Threadpool ι τ) : ℕ := pool.tasks.length + ∑ w, (pool.workers w).runs

/-- The number of tasks queued or counted. -/
def occupied (pool : Threadpool ι τ) : ℕ := pool.tasks.length + ∑ w, (pool.workers w).busy

/-- The number of workers that run no task. -/
def idle (pool : Threadpool ι τ) : ℕ :=
  (Finset.univ.filter fun w => (pool.workers w).runs = 0).card

omit [DecidableEq ι] in
theorem occupied_start (working : UInt64) : (start working : Threadpool ι τ).occupied = 0 :=
  (Nat.zero_add _).trans Finset.sum_const_zero

omit [DecidableEq ι] in
theorem unfinished_start (working : UInt64) : (start working : Threadpool ι τ).unfinished = 0 :=
  (Nat.zero_add _).trans Finset.sum_const_zero

omit [DecidableEq ι] in
theorem unfinished_le_occupied (pool : Threadpool ι τ) : pool.unfinished ≤ pool.occupied := by
  refine Nat.add_le_add_left (Finset.sum_le_sum fun w _ => ?_) _
  cases pool.workers w <;> simp [WorkerPc.runs, WorkerPc.busy]

omit [DecidableEq ι] in
/-- A worker runs a task or is idle. -/
theorem idle_add_runs (pool : Threadpool ι τ) :
    pool.idle + ∑ w, (pool.workers w).runs = Fintype.card ι := by
  rw [idle, Finset.card_filter, ← Finset.sum_add_distrib, ← Finset.card_univ,
    Finset.card_eq_sum_ones]
  refine Finset.sum_congr rfl fun w _ => ?_
  cases pool.workers w <;> simp [WorkerPc.runs]

/-- Workers take tasks off the queue to run them, and finish them. -/
theorem Works.weighs_le (weight : WorkerPc τ → ℕ) (waiting : weight .waiting = 0)
    (running : ∀ task, weight (.running task) = 1) (finishing : weight .finishing ≤ 1)
    (exited : weight .exited = 0) (moved : Works pool w next) :
    next.tasks.length + ∑ v, weight (next.workers v) ≤
      pool.tasks.length + ∑ v, weight (pool.workers v) := by
  cases moved with
  | exits located stopped drained =>
    have sum := pool.sum_goto weight w .exited
    rw [located, waiting, exited] at sum
    exact Nat.add_le_add_left sum.le _
  | starts task tasks located queued =>
    have sum := pool.sum_goto weight w (.running task)
    rw [located, waiting, running] at sum
    have one : pool.tasks.length = tasks.length + 1 := by rw [queued, List.length_cons]
    change tasks.length + ∑ v, weight ((pool.goto w (.running task)).workers v) ≤ _
    omega
  | returns task located =>
    have sum := pool.sum_goto weight w .finishing
    rw [located, running] at sum
    change pool.tasks.length + ∑ v, weight ((pool.goto w .finishing).workers v) ≤ _
    omega
  | counts located =>
    have sum := pool.sum_goto weight w .waiting
    rw [located, waiting] at sum
    change pool.tasks.length + ∑ v, weight ((pool.goto w .waiting).workers v) ≤ _
    omega

theorem Works.unfinished_le (moved : Works pool w next) : next.unfinished ≤ pool.unfinished :=
  moved.weighs_le WorkerPc.runs rfl (fun _ => rfl) (Nat.zero_le _) rfl

theorem Works.occupied_le (moved : Works pool w next) : next.occupied ≤ pool.occupied :=
  moved.weighs_le WorkerPc.busy rfl (fun _ => rfl) le_rfl rfl

end Threadpool

end Fup
