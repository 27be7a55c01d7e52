/-
# Every accepted task runs once

A pool with its callers: threads that call `Enqueue` whenever they like, one
that calls `WaitAll`, and the workers. Each block that holds the mutex is one
step, and a task that returns is one. A task is known by the number of its
acceptance, so that equal tasks are told apart.

The tasks taken so far, in order, followed by the queue are the tasks accepted.
What a worker has taken it has completed, but for the one it runs. Once all
workers have left, nothing is queued and nothing runs.
-/

import Fup.Lib.StepSystem
import Fup.Threadpool
import Mathlib.Data.List.Count

namespace Fup

/-- A task and the number of tasks accepted before it. -/
abbrev Accepted (τ : Type) := τ × ℕ

/-- Where the thread is that calls `WaitAll`. -/
inductive Waiter
  | working
  | join (k : ℕ)
  | returned
  deriving DecidableEq

/-- A pool of `n` workers, with everything that was accepted, taken and
completed so far, in order. -/
structure Serving (n : ℕ) (τ : Type) where
  pool : Threadpool (Fin n) (Accepted τ)
  waiter : Waiter
  accepted : List τ
  refused : List τ
  taken : List (Fin n × Accepted τ)
  completed : List (Fin n × Accepted τ)

/-- Who moves: a thread of `κ` that calls `Enqueue`, the one that calls
`WaitAll`, or a worker. -/
inductive ServingMove (n : ℕ) (κ τ : Type)
  | enqueue (caller : κ) (task : τ)
  | waitAll
  | worker (w : Fin n)

namespace Serving

variable {n : ℕ} {κ τ : Type}

/-! ### Steps -/

/-- `Enqueue` adds the task or throws. -/
def enqueue (s : Serving n τ) (task : τ) : Serving n τ :=
  match s.pool.enqueue (task, s.accepted.length) with
  | .ok pool => { s with pool := pool, accepted := s.accepted ++ [task] }
  | .error _ => { s with refused := s.refused ++ [task] }

/-- The next block of `WaitAll`. -/
def waitAll (s : Serving n τ) : Option (Serving n τ) :=
  match s.waiter with
  | .working => some { s with pool := s.pool.close, waiter := .join 0 }
  | .join k =>
    if below : k < n then
      match s.pool.workers ⟨k, below⟩ with
      | .exited => some { s with waiter := .join (k + 1) }
      | _ => none
    else some { s with waiter := .returned }
  | .returned => none

/-- What a worker takes in its next block. -/
def takes (s : Serving n τ) (w : Fin n) : Option (Accepted τ) :=
  match s.pool.workers w with
  | .waiting => s.pool.tasks.head?
  | _ => none

/-- What a worker completes in its next block. -/
def completes (s : Serving n τ) (w : Fin n) : Option (Accepted τ) :=
  match s.pool.workers w with
  | .running task => some task
  | _ => none

/-- The next block of a worker. -/
def worker (s : Serving n τ) (w : Fin n) : Option (Serving n τ) :=
  (s.pool.work w).map fun pool => { s with
    pool := pool
    taken := s.taken ++ (s.takes w).toList.map fun task => (w, task)
    completed := s.completed ++ (s.completes w).toList.map fun task => (w, task) }

def start (working : UInt64) : Serving n τ where
  pool := .start working
  waiter := .working
  accepted := []
  refused := []
  taken := []
  completed := []

/-- All interleavings of the callers and the workers. -/
def system (n : ℕ) (κ τ : Type) : StepSystem (Serving n τ) (ServingMove n κ τ) where
  init s := ∃ working, s = start working
  step s move :=
    match move with
    | .enqueue _ task => some (s.enqueue task)
    | .waitAll => s.waitAll
    | .worker w => s.worker w

/-! ### The invariant -/

/-- The task a worker runs. -/
def running (pool : Threadpool (Fin n) (Accepted τ)) (w : Fin n) : List (Fin n × Accepted τ) :=
  match pool.workers w with
  | .running task => [(w, task)]
  | _ => []

/-- The entries of one worker. -/
def byWorker (w : Fin n) (entries : List (Fin n × Accepted τ)) : List (Fin n × Accepted τ) :=
  entries.filter fun entry => entry.1 = w

/-- Nothing is lost: what was accepted was taken in order or is queued, and what
a worker has taken it has completed or runs. Workers leave a stopped and drained
pool only, and `WaitAll` passes those that have left. -/
structure Kept (s : Serving n τ) : Prop where
  inOrder : s.taken.map Prod.snd ++ s.pool.tasks = s.accepted.zipIdx
  byWorkers : ∀ w, byWorker w s.taken = byWorker w s.completed ++ running s.pool w
  drained : s.pool.Drained
  joined : ∀ w : Fin n, (∃ k, s.waiter = .join k ∧ w.val < k) ∨ s.waiter = .returned →
    s.pool.workers w = .exited

theorem kept_start (working : UInt64) : Kept (start working : Serving n τ) where
  inOrder := rfl
  byWorkers := fun _ => rfl
  drained := Threadpool.drained_start working
  joined := by
    rintro w (⟨k, impossible, -⟩ | impossible) <;> cases impossible

theorem Kept.enqueue {s : Serving n τ} (kept : Kept s) (task : τ) : Kept (s.enqueue task) := by
  rw [Serving.enqueue]
  cases result : s.pool.enqueue (task, s.accepted.length) with
  | error failure => exact ⟨kept.inOrder, kept.byWorkers, kept.drained, kept.joined⟩
  | ok pool =>
    have drained := kept.drained.enqueue result
    obtain ⟨-, rfl⟩ := Threadpool.enqueue_eq_ok result
    refine ⟨?_, kept.byWorkers, drained, kept.joined⟩
    change s.taken.map Prod.snd ++ (s.pool.tasks ++ [(task, s.accepted.length)]) = _
    rw [← List.append_assoc, kept.inOrder, List.zipIdx_append]
    simp

theorem Kept.waitAll {s t : Serving n τ} (kept : Kept s) (moved : s.waitAll = some t) :
    Kept t := by
  unfold Serving.waitAll at moved
  split at moved
  · obtain rfl := Option.some.inj moved
    refine ⟨kept.inOrder, kept.byWorkers, kept.drained.close, ?_⟩
    rintro w (⟨k, same, below⟩ | impossible)
    · obtain rfl := Waiter.join.inj same
      exact absurd below (Nat.not_lt_zero _)
    · cases impossible
  · next k located =>
    split_ifs at moved with below
    · split at moved
      · next exited =>
        obtain rfl := Option.some.inj moved
        refine ⟨kept.inOrder, kept.byWorkers, kept.drained, ?_⟩
        rintro w (⟨k', same, before⟩ | impossible)
        · obtain rfl := Waiter.join.inj same
          -- The worker just joined, or one of those before it.
          rcases Nat.lt_succ_iff_lt_or_eq.mp before with earlier | here
          · exact kept.joined w (Or.inl ⟨k, located, earlier⟩)
          · rw [show w = ⟨k, below⟩ from Fin.ext here, exited]
        · cases impossible
      · cases moved
    · obtain rfl := Option.some.inj moved
      refine ⟨kept.inOrder, kept.byWorkers, kept.drained, ?_⟩
      rintro w -
      exact kept.joined w (Or.inl ⟨k, located, w.isLt.trans_le (Nat.le_of_not_lt below)⟩)
  · cases moved

@[simp] theorem byWorker_append (w : Fin n) (front back : List (Fin n × Accepted τ)) :
    byWorker w (front ++ back) = byWorker w front ++ byWorker w back :=
  List.filter_append front back

/-- What one worker adds to the entries of another. -/
theorem byWorker_map (v w : Fin n) (tasks : List (Accepted τ)) :
    byWorker v (tasks.map fun task => (w, task)) =
      if v = w then tasks.map fun task => (w, task) else [] := by
  rw [byWorker]
  split_ifs with same
  · refine List.filter_eq_self.mpr fun entry listed => ?_
    obtain ⟨task, -, rfl⟩ := List.mem_map.mp listed
    exact decide_eq_true same.symm
  · refine List.filter_eq_nil_iff.mpr fun entry listed => ?_
    obtain ⟨task, -, rfl⟩ := List.mem_map.mp listed
    simpa using Ne.symm same

/-- A worker takes the first task of the queue, runs what it took last and
completes what it runs. -/
theorem worker_balance {s : Serving n τ} {w : Fin n} {pool : Threadpool (Fin n) (Accepted τ)}
    (works : Threadpool.Works s.pool w pool) :
    (s.takes w).toList ++ pool.tasks = s.pool.tasks ∧
      running s.pool w ++ (s.takes w).toList.map (fun task => (w, task)) =
        (s.completes w).toList.map (fun task => (w, task)) ++ running pool w := by
  cases works with
  | exits located stopped drained =>
    simp [takes, completes, running, located, drained, Threadpool.goto]
  | starts task tasks located queued =>
    simp [takes, completes, running, located, queued, Threadpool.goto]
  | returns task located => simp [takes, completes, running, located, Threadpool.goto]
  | counts located => simp [takes, completes, running, located, Threadpool.goto]

theorem Kept.worker {s t : Serving n τ} {w : Fin n} (kept : Kept s)
    (moved : s.worker w = some t) : Kept t := by
  obtain ⟨pool, worked, rfl⟩ := Option.map_eq_some_iff.mp moved
  have works := Threadpool.works_of_work worked
  obtain ⟨front, here⟩ := worker_balance works
  refine ⟨?_, fun v => ?_, kept.drained.works works, fun v passed => ?_⟩
  -- The task taken off the queue is noted as taken.
  · have tasks : ((s.takes w).toList.map fun task => (w, task)).map Prod.snd =
        (s.takes w).toList := by simp
    change (s.taken ++ (s.takes w).toList.map fun task => (w, task)).map Prod.snd ++ pool.tasks = _
    rw [List.map_append, tasks, List.append_assoc, front, kept.inOrder]
  · have before := kept.byWorkers v
    simp only [byWorker_append, byWorker_map, before]
    split_ifs with same
    · rw [same, List.append_assoc, here, List.append_assoc]
    · -- Another worker's entries and its task are as before.
      rw [List.append_nil, List.append_nil, running, running, works.others same]
  · have left := kept.joined v passed
    by_cases same : v = w
    · -- A worker that has left does not move.
      rw [same] at left
      cases works <;> simp_all
    · exact (works.others same).trans left

theorem Kept.step {s t : Serving n τ} {move : ServingMove n κ τ} (kept : Kept s)
    (moved : (system n κ τ).step s move = some t) : Kept t := by
  cases move with
  | enqueue caller task => exact Option.some.inj moved ▸ kept.enqueue task
  | waitAll => exact kept.waitAll moved
  | worker w => exact kept.worker moved

theorem kept_of_reachable {s : Serving n τ} (reached : (system n κ τ).Reachable s) : Kept s := by
  refine reached.invariant ?_ fun t move u kept moved => kept.step moved
  rintro _ ⟨working, rfl⟩
  exact kept_start working

/-! ### Once -/

/-- Lists with the same entries of every worker have the same entries. -/
theorem perm_of_byWorker {first second : List (Fin n × Accepted τ)}
    (same : ∀ w, byWorker w first = byWorker w second) : first.Perm second := by
  classical
  have counted (entry : Fin n × Accepted τ) (entries : List (Fin n × Accepted τ)) :
      (byWorker entry.1 entries).count entry = entries.count entry :=
    List.count_filter (decide_eq_true rfl)
  refine List.perm_iff_count.mpr fun entry => ?_
  rw [← counted entry first, same, counted]

/-- Tasks are taken in the order of their acceptance, each at most once. An
`Enqueue` behind the stop flag throws and leaves the pool alone. When `WaitAll`
has returned, the queue is empty and the tasks completed are the tasks accepted,
each of them once. -/
structure RunsEachOnce (κ : Type) (s : Serving n τ) : Prop where
  inOrder : s.taken.map Prod.snd <+: s.accepted.zipIdx
  once : (s.taken.map Prod.snd).Nodup
  refuses : s.pool.stop = true → ∀ (caller : κ) task,
    s.pool.enqueue task = .error (.exception "enqueue on stopped Threadpool") ∧
      (system n κ τ).step s (.enqueue caller task.1) =
        some { s with refused := s.refused ++ [task.1] }
  complete : s.waiter = .returned → s.pool.tasks = [] ∧
    (s.completed.map Prod.snd).Perm s.accepted.zipIdx

theorem runsEachOnce_of_reachable {s : Serving n τ} (manned : 1 ≤ n)
    (reached : (system n κ τ).Reachable s) : RunsEachOnce κ s := by
  have kept := kept_of_reachable reached
  have once : (s.accepted.zipIdx.map Prod.snd).Nodup := by
    rw [List.zipIdx_map_snd]
    exact List.nodup_range'
  have inOrder : s.taken.map Prod.snd <+: s.accepted.zipIdx :=
    kept.inOrder ▸ List.prefix_append _ _
  refine ⟨inOrder, (List.Nodup.of_map _ once).sublist inOrder.sublist, ?_, ?_⟩
  · intro stopped caller task
    have throws (task : Accepted τ) :
        s.pool.enqueue task = .error (.exception "enqueue on stopped Threadpool") :=
      if_pos stopped
    refine ⟨throws task, ?_⟩
    change some (s.enqueue task.1) = _
    rw [Serving.enqueue, throws]
  · intro returned
    have left (w : Fin n) := kept.joined w (Or.inr returned)
    -- Any one worker has left a drained pool.
    have drained := (kept.drained ⟨0, manned⟩ (left ⟨0, manned⟩)).2
    have all := kept.inOrder
    rw [drained, List.append_nil] at all
    have same : s.completed.Perm s.taken := perm_of_byWorker fun w => by
      rw [kept.byWorkers w, running, left w, List.append_nil]
    exact ⟨drained, all ▸ same.map Prod.snd⟩

/-- Two threads give two workers a task each. The second task is over first, and the
`Enqueue` behind the stop flag comes too late. -/
def twoTasks : List (ServingMove 2 Bool ℕ) :=
  [.enqueue true 5, .enqueue false 6, .worker 0, .worker 1, .worker 1, .waitAll,
    .enqueue true 7, .worker 0, .worker 1, .worker 0, .worker 1, .worker 0, .waitAll, .waitAll,
    .waitAll]

/-- The theorem where `WaitAll` has returned. -/
theorem runsEachOnce_twoTasks :
    ∃ s, (system 2 Bool ℕ).exec (start 0) twoTasks = some s ∧ s.waiter = .returned ∧
      s.completed = [(1, (6, 1)), (0, (5, 0))] ∧ s.refused = [7] ∧ RunsEachOnce Bool s := by
  have ends : ((system 2 Bool ℕ).exec (start 0) twoTasks).map
      (fun s => (s.waiter, s.completed, s.refused)) =
        some (.returned, [(1, (6, 1)), (0, (5, 0))], [7]) := by decide
  obtain ⟨s, run, values⟩ := Option.map_eq_some_iff.mp ends
  obtain ⟨returned, values⟩ := Prod.mk.inj values
  obtain ⟨completed, refused⟩ := Prod.mk.inj values
  exact ⟨s, run, returned, completed, refused,
    runsEachOnce_of_reachable (by decide) ⟨start 0, twoTasks, ⟨0, rfl⟩, run⟩⟩

end Serving

end Fup
