/-
# What the counter of busy workers says

Every worker adds one to the counter when it takes a task and takes one off after
the task has returned. So at any time the counter has gone up from its first value
by the number of workers in between. The constructor gives it no first value, and
`GetWorkingThreadsCount` is right exactly when what was in its place was a zero.
-/

import Fup.Threadpool.Serving

namespace Fup

namespace Serving

open Threadpool (onlyWorker)

variable {n : ℕ} {κ τ : Type}

/-- `GetWorkingThreadsCount` returns the number of workers that have taken a task
and have not taken it off the counter yet. So it returns no more than there are
workers, and a worker that takes its task off finds something to take it off. -/
structure WorkingCountExact (s : Serving n τ) : Prop where
  counts : s.pool.getWorkingThreadsCount.toNat = ∑ w, (s.pool.workers w).busy
  bounded : s.pool.getWorkingThreadsCount.toNat ≤ n
  noWrap : ∀ w, s.pool.workers w = .finishing → 1 ≤ s.pool.working.toNat

/-- The bound and the missing wrap follow from the count. -/
theorem workingCountExact_iff_counts {s : Serving n τ} :
    WorkingCountExact s ↔ s.pool.Counts := by
  refine ⟨WorkingCountExact.counts, fun counts => ⟨counts, ?_, ?_⟩⟩
  · have bound := counts.working_le
    rwa [Fintype.card_fin] at bound
  · intro w finishing
    have counted : s.pool.working.toNat = ∑ v, (s.pool.workers v).busy := counts
    have one : (s.pool.workers w).busy = 1 := by
      rw [finishing]
      rfl
    rw [counted, ← one]
    exact Finset.single_le_sum (f := fun v => (s.pool.workers v).busy)
      (fun _ _ => Nat.zero_le _) (Finset.mem_univ w)

/-- The counter of the pool started at a value and has counted since. -/
def CountsFrom (initial : UInt64) (s : Serving n τ) : Prop := s.pool.CountsFrom initial

/-- Callers leave the counter and the workers alone. -/
theorem CountsFrom.step {initial : UInt64} {s t : Serving n τ} {move : ServingMove n κ τ}
    (counts : CountsFrom initial s) (moved : (system n κ τ).step s move = some t) :
    CountsFrom initial t := by
  cases move with
  | enqueue caller task =>
    obtain rfl := Option.some.inj moved
    rw [Serving.enqueue]
    -- A refused task changes nothing.
    cases result : s.pool.enqueue (task, s.accepted.length) with
    | error failure => exact counts
    | ok pool =>
      obtain ⟨-, rfl⟩ := Threadpool.enqueue_eq_ok result
      exact counts
  | waitAll =>
    have moved : s.waitAll = some t := moved
    unfold Serving.waitAll at moved
    split at moved
    · exact Option.some.inj moved ▸ counts
    · split_ifs at moved
      · split at moved <;> cases moved
        exact counts
      · exact Option.some.inj moved ▸ counts
    · cases moved
  | worker w =>
    obtain ⟨pool, worked, rfl⟩ := Option.map_eq_some_iff.mp moved
    exact Threadpool.CountsFrom.works counts (Threadpool.works_of_work worked)

/-- In a state of any run the count is exact exactly when the counter was zero at
the start. -/
theorem workingCountExact_iff {threads : UInt16} {working : UInt64}
    {moves : List (ServingMove threads.toNat κ τ)} {s : Serving threads.toNat τ}
    (run : (system threads.toNat κ τ).exec (start working) moves = some s) :
    WorkingCountExact s ↔ working = 0 := by
  -- The number of threads fits the counter, so only its first value can be wrong.
  have few : Fintype.card (Fin threads.toNat) < 2 ^ 64 := by
    rw [Fintype.card_fin]
    exact threads.toNat_lt.trans (by decide)
  have begins : CountsFrom working (start working : Serving threads.toNat τ) :=
    Threadpool.countsFrom_start working
  have counts := StepSystem.exec_invariant begins
    (fun _ _ _ counts moved => CountsFrom.step counts moved) run
  rw [workingCountExact_iff_counts, Threadpool.CountsFrom.counts_iff few counts]

/-- One worker is given one task, and `WaitAll` waits for it. -/
def oneTask : List (ServingMove 1 Unit Unit) :=
  [.enqueue () (), .worker onlyWorker, .waitAll, .worker onlyWorker, .worker onlyWorker,
    .worker onlyWorker, .waitAll, .waitAll]

/-- The theorem where a pool of one worker with a zero in the counter has run one
task. -/
theorem workingCountExact_oneTask :
    ∃ s : Serving (1 : UInt16).toNat Unit,
      (system (1 : UInt16).toNat Unit Unit).exec (start 0) oneTask = some s ∧
        WorkingCountExact s := by
  have runs : ((system (1 : UInt16).toNat Unit Unit).exec (start 0) oneTask).isSome := by decide
  obtain ⟨s, run⟩ := Option.isSome_iff_exists.mp runs
  exact ⟨s, run, (workingCountExact_iff run).mpr rfl⟩

/-- A new pool of one worker that counts one although the worker waits. -/
theorem not_workingCountExact_one :
    ¬ ∀ s, (system 1 Unit Unit).Reachable s → WorkingCountExact s := by
  intro exact
  have counts := (exact (start 1) ⟨_, [], ⟨1, rfl⟩, rfl⟩).counts
  exact absurd counts (by decide)

end Serving

end Fup
