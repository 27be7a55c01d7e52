/-
# No wakeup is lost

The pool at the level of its condition variable. A worker that finds neither a task
nor the stop flag falls asleep, and only a notification or a chance waking brings it
back to look again. `Enqueue` notifies after it has left its block, and `WaitAll`
notifies everybody after it has set the flag. In between anything may happen.

Nothing is lost by this. While a worker sleeps, the queued tasks are covered by the
callers that have yet to notify and the workers awake to look for one. So whenever a
task is queued, or `WaitAll` is in its loop, some thread inside the pool can go on.
And once the flag is set each of their steps brings `WaitAll` nearer to its end.
-/

import Fup.Lib.ConditionVariable
import Fup.Threadpool.Serving

namespace Fup

/-- A pool with its callers and its condition variable. A caller stands in
`notifying` between its block and its `notify_one`, and `announced` says that
`WaitAll` has called `notify_all`. -/
structure Waking (n : ℕ) (κ τ : Type) where
  serving : Serving n τ
  condition : ConditionVariable (Fin n)
  notifying : Finset κ
  announced : Bool

/-- Who moves. A notification comes with the worker it wakes. -/
inductive WakingMove (n : ℕ) (κ τ : Type)
  | enqueue (caller : κ) (task : τ)
  | notify (caller : κ) (choice : Option (Fin n))
  | waitAll
  | worker (w : Fin n)
  /-- A sleeper wakes without being notified. -/
  | wake (w : Fin n)

/-- Whether the move is one of `WaitAll`, of a worker or of a caller that has yet to
notify. Calls of `Enqueue` and chance wakings may stay out for ever. -/
def WakingMove.ongoing {n : ℕ} {κ τ : Type} : WakingMove n κ τ → Bool
  | .enqueue .. => false
  | .notify .. => true
  | .waitAll => true
  | .worker _ => true
  | .wake _ => false

/-- How many workers stand at the condition variable for this one. -/
def WorkerPc.waits {τ : Type} : WorkerPc τ → ℕ
  | .waiting => 1
  | _ => 0

/-- How many blocks this worker has before it, but for the tasks still queued. -/
def WorkerPc.ahead {τ : Type} : WorkerPc τ → ℕ
  | .waiting => 1
  | .running _ => 3
  | .finishing => 2
  | .exited => 0

namespace Waking

open Threadpool (onlyWorker)

variable {n : ℕ} {κ τ : Type} [DecidableEq κ]

/-! ### Steps -/

/-- The block of `Enqueue`. A caller that is refused has nothing to notify. -/
def enqueue (s : Waking n κ τ) (caller : κ) (task : τ) : Option (Waking n κ τ) :=
  if caller ∈ s.notifying then none
  else
    let serving := s.serving.enqueue task
    if s.serving.pool.stop then some { s with serving := serving }
    else some { s with serving := serving, notifying := insert caller s.notifying }

/-- `condition.notify_one()` at the end of `Enqueue`. -/
def notify (s : Waking n κ τ) (caller : κ) (choice : Option (Fin n)) :
    Option (Waking n κ τ) :=
  if caller ∈ s.notifying then
    (s.condition.notifyOne choice).map fun condition => { s with
      condition := condition
      notifying := s.notifying.erase caller }
  else none

/-- The next step of `WaitAll`: its block, `condition.notify_all()` and the joins. -/
def waitAll (s : Waking n κ τ) : Option (Waking n κ τ) :=
  if s.serving.waiter = .working ∨ s.announced then
    s.serving.waitAll.map fun serving => { s with serving := serving }
  else some { s with condition := .empty, announced := true }

/-- The next block of a worker. When `condition.wait` finds its predicate false the
worker falls asleep. -/
def worker (s : Waking n κ τ) (w : Fin n) : Option (Waking n κ τ) :=
  if w ∈ s.condition.asleep then none
  else
    match s.serving.worker w, s.serving.pool.workers w with
    | some serving, _ => some { s with serving := serving }
    | none, .waiting => some { s with condition := s.condition.wait w }
    | none, _ => none

/-- A sleeper wakes by chance. -/
def wake (s : Waking n κ τ) (w : Fin n) : Option (Waking n κ τ) :=
  if w ∈ s.condition.asleep then some { s with condition := s.condition.wake w } else none

def start (working : UInt64) : Waking n κ τ where
  serving := .start working
  condition := .empty
  notifying := ∅
  announced := false

/-- All interleavings of the callers, the workers and the wakings. -/
def system (n : ℕ) (κ τ : Type) [DecidableEq κ] :
    StepSystem (Waking n κ τ) (WakingMove n κ τ) where
  init s := ∃ working, s = start working
  step s move :=
    match move with
    | .enqueue caller task => s.enqueue caller task
    | .notify caller choice => s.notify caller choice
    | .waitAll => s.waitAll
    | .worker w => s.worker w
    | .wake w => s.wake w

/-- The number of workers at the condition variable, asleep or awake. -/
def waiting (s : Waking n κ τ) : ℕ := ∑ w, (s.serving.pool.workers w).waits

/-! ### What the steps do -/

/-- A worker that cannot move has left, or there is nothing for it to do. -/
theorem work_eq_none {ι τ : Type} [DecidableEq ι] {pool : Threadpool ι τ} {w : ι}
    (stuck : pool.work w = none) :
    pool.workers w = .exited ∨
      (pool.workers w = .waiting ∧ pool.tasks = [] ∧ pool.stop = false) := by
  unfold Threadpool.work at stuck
  split at stuck
  case h_1 located drained =>
    split_ifs at stuck with stopped
    exact Or.inr ⟨located, drained, Bool.not_eq_true _ ▸ stopped⟩
  case h_2 => cases stuck
  case h_3 => cases stuck
  case h_4 => cases stuck
  case h_5 located => exact Or.inl located

omit [DecidableEq κ] in
/-- A worker's step is a block of the pool, or it falls asleep over nothing to do. -/
theorem worker_eq_some {s t : Waking n κ τ} {w : Fin n} (moved : s.worker w = some t) :
    w ∉ s.condition.asleep ∧
      ((∃ serving, s.serving.worker w = some serving ∧ t = { s with serving := serving }) ∨
        (s.serving.pool.workers w = .waiting ∧ s.serving.pool.tasks = [] ∧
          s.serving.pool.stop = false ∧ t = { s with condition := s.condition.wait w })) := by
  unfold worker at moved
  split_ifs at moved with sleeps
  refine ⟨sleeps, ?_⟩
  split at moved
  case h_1 serving worked => exact Or.inl ⟨serving, worked, (Option.some.inj moved).symm⟩
  case h_2 stuck located =>
    rcases work_eq_none (Option.map_eq_none_iff.mp stuck) with exited | ⟨-, drained, running⟩
    · cases exited.symm.trans located
    · exact Or.inr ⟨located, drained, running, (Option.some.inj moved).symm⟩
  case h_3 => cases moved

/-- An accepted task leaves its caller with a notification to make. -/
theorem enqueue_eq_some {s t : Waking n κ τ} {caller : κ} {task : τ}
    (moved : s.enqueue caller task = some t) :
    caller ∉ s.notifying ∧
      ((s.serving.pool.stop = true ∧ t = { s with serving := s.serving.enqueue task }) ∨
        (s.serving.pool.stop = false ∧ t = { s with
          serving := s.serving.enqueue task
          notifying := insert caller s.notifying })) := by
  unfold enqueue at moved
  split_ifs at moved with busy stopped
  · exact ⟨busy, Or.inl ⟨stopped, (Option.some.inj moved).symm⟩⟩
  · exact ⟨busy, Or.inr ⟨Bool.not_eq_true _ ▸ stopped, (Option.some.inj moved).symm⟩⟩

theorem notify_eq_some {s t : Waking n κ τ} {caller : κ} {choice : Option (Fin n)}
    (moved : s.notify caller choice = some t) :
    caller ∈ s.notifying ∧ ∃ condition, s.condition.notifyOne choice = some condition ∧
      t = { s with condition := condition, notifying := s.notifying.erase caller } := by
  unfold notify at moved
  split_ifs at moved with pending
  obtain ⟨condition, notified, rfl⟩ := Option.map_eq_some_iff.mp moved
  exact ⟨pending, condition, notified, rfl⟩

omit [DecidableEq κ] in
/-- `WaitAll` goes on as the pool does, but for its `notify_all`. -/
theorem waitAll_eq_some {s t : Waking n κ τ} (moved : s.waitAll = some t) :
    ((s.serving.waiter = .working ∨ s.announced = true) ∧
        ∃ serving, s.serving.waitAll = some serving ∧ t = { s with serving := serving }) ∨
      (s.serving.waiter ≠ .working ∧ s.announced = false ∧
        t = { s with condition := .empty, announced := true }) := by
  unfold waitAll at moved
  split_ifs at moved with before
  · obtain ⟨serving, waited, rfl⟩ := Option.map_eq_some_iff.mp moved
    exact Or.inl ⟨before, serving, waited, rfl⟩
  · obtain ⟨called, silent⟩ := not_or.mp before
    exact Or.inr ⟨called, Bool.not_eq_true _ ▸ silent, (Option.some.inj moved).symm⟩

omit [DecidableEq κ] in
theorem wake_eq_some {s t : Waking n κ τ} {w : Fin n} (moved : s.wake w = some t) :
    w ∈ s.condition.asleep ∧ t = { s with condition := s.condition.wake w } := by
  unfold wake at moved
  split_ifs at moved with sleeps
  exact ⟨sleeps, (Option.some.inj moved).symm⟩

/-! ### The pool without its condition variable -/

/-- With its sleepers forgotten, a step is a step of the pool or none. -/
theorem serving_step {s t : Waking n κ τ} {move : WakingMove n κ τ}
    (moved : (system n κ τ).step s move = some t) :
    t.serving = s.serving ∨
      ∃ move, (Serving.system n κ τ).step s.serving move = some t.serving := by
  cases move with
  | enqueue caller task =>
    rcases enqueue_eq_some moved with ⟨-, ⟨-, rfl⟩ | ⟨-, rfl⟩⟩
    · exact Or.inr ⟨.enqueue caller task, rfl⟩
    · exact Or.inr ⟨.enqueue caller task, rfl⟩
  | notify caller choice =>
    obtain ⟨-, condition, -, rfl⟩ := notify_eq_some moved
    exact Or.inl rfl
  | waitAll =>
    rcases waitAll_eq_some moved with ⟨-, serving, waited, rfl⟩ | ⟨-, -, rfl⟩
    · exact Or.inr ⟨.waitAll, waited⟩
    · exact Or.inl rfl
  | worker w =>
    rcases worker_eq_some moved with ⟨-, ⟨serving, worked, rfl⟩ | ⟨-, -, -, rfl⟩⟩
    · exact Or.inr ⟨.worker w, worked⟩
    · exact Or.inl rfl
  | wake w =>
    obtain ⟨-, rfl⟩ := wake_eq_some moved
    exact Or.inl rfl

/-- So whatever holds of the pool in all its runs holds here. -/
theorem serving_of_reachable {s : Waking n κ τ} (reached : (system n κ τ).Reachable s) :
    (Serving.system n κ τ).Reachable s.serving := by
  apply reached.map _ fun s move t moved => serving_step moved
  rintro _ ⟨working, rfl⟩
  exact ⟨working, rfl⟩

/-! ### Who is awake -/

/-- Sleepers are at the condition variable, and the queue is covered by those who
have yet to notify and those awake. Behind the `notify_all` nobody sleeps. -/
structure Alert (s : Waking n κ τ) : Prop where
  atWait : ∀ w ∈ s.condition.asleep, s.serving.pool.workers w = .waiting
  covers : s.condition.Covers s.notifying.card s.waiting s.serving.pool.tasks.length
  stopped : s.serving.pool.stop = true ↔ s.serving.waiter ≠ .working
  silent : s.announced = true → s.condition.asleep = ∅ ∧ s.serving.waiter ≠ .working
  within : ∀ k, s.serving.waiter = .join k → k ≤ n

omit [DecidableEq κ] in
theorem alert_start (working : UInt64) : Alert (start working : Waking n κ τ) where
  atWait w sleeps := absurd sleeps (Finset.notMem_empty w)
  covers := ConditionVariable.covers_of_nobody rfl
  stopped := iff_of_false Bool.false_ne_true (not_not_intro rfl)
  silent announced := by cases announced
  within k joining := by cases joining

/-- Sleepers are among the workers at the condition variable. -/
theorem card_asleep_le {condition : ConditionVariable (Fin n)}
    {pool : Threadpool (Fin n) (Accepted τ)}
    (atWait : ∀ w ∈ condition.asleep, pool.workers w = .waiting) :
    condition.asleep.card ≤ ∑ w, (pool.workers w).waits := by
  rw [Finset.card_eq_sum_ones]
  calc ∑ w ∈ condition.asleep, 1
      = ∑ w ∈ condition.asleep, (pool.workers w).waits :=
        Finset.sum_congr rfl fun w sleeps => by rw [atWait w sleeps]; rfl
    _ ≤ ∑ w, (pool.workers w).waits :=
        Finset.sum_le_sum_of_subset (Finset.subset_univ condition.asleep)

theorem Alert.enqueue {s t : Waking n κ τ} {caller : κ} {task : τ} (alert : Alert s)
    (moved : s.enqueue caller task = some t) : Alert t := by
  obtain ⟨idle, ⟨stopped, rfl⟩ | ⟨running, rfl⟩⟩ := enqueue_eq_some moved
  · have refused : s.serving.enqueue task =
        { s.serving with refused := s.serving.refused ++ [task] } := by
      rw [Serving.enqueue, Threadpool.enqueue, if_pos stopped]
    rw [refused]
    exact ⟨alert.atWait, alert.covers, alert.stopped, alert.silent, alert.within⟩
  · have accepted : s.serving.enqueue task = { s.serving with
        pool := { s.serving.pool with
          tasks := s.serving.pool.tasks ++ [(task, s.serving.accepted.length)] }
        accepted := s.serving.accepted ++ [task] } := by
      rw [Serving.enqueue, Threadpool.enqueue, if_neg (Bool.eq_false_iff.mp running)]
    rw [accepted]
    refine ⟨alert.atWait, ?_, alert.stopped, alert.silent, alert.within⟩
    -- The task comes with its caller's notification.
    have more := alert.covers.announce
    rw [← Finset.card_insert_of_notMem idle] at more
    exact List.length_append ▸ more

theorem Alert.notify {s t : Waking n κ τ} {caller : κ} {choice : Option (Fin n)}
    (alert : Alert s) (moved : s.notify caller choice = some t) : Alert t := by
  obtain ⟨pending, condition, notified, rfl⟩ := notify_eq_some moved
  have fewer : condition.asleep ⊆ s.condition.asleep := by
    rcases ConditionVariable.notifyOne_eq_some notified with ⟨w, -, -, rfl⟩ | ⟨-, rfl⟩
    · exact Finset.erase_subset w s.condition.asleep
    · exact Finset.Subset.rfl
  refine ⟨fun w sleeps => alert.atWait w (fewer sleeps), ?_, alert.stopped, ?_, alert.within⟩
  · have one := Finset.card_erase_add_one pending
    have before := alert.covers
    rw [← one] at before
    exact before.notifyOne notified
  · intro announced
    obtain ⟨nobody, called⟩ := alert.silent announced
    exact ⟨Finset.subset_empty.mp (nobody ▸ fewer), called⟩

/-- What a step of `WaitAll` does: it sets the flag, or it joins a worker that has
left, or it has joined them all. -/
theorem serving_waitAll_eq_some {s t : Serving n τ} (moved : s.waitAll = some t) :
    (s.waiter = .working ∧ t = { s with pool := s.pool.close, waiter := .join 0 }) ∨
      (∃ k, s.waiter = .join k ∧ k < n ∧ t = { s with waiter := .join (k + 1) }) ∨
      (∃ k, s.waiter = .join k ∧ n ≤ k ∧ t = { s with waiter := .returned }) := by
  unfold Serving.waitAll at moved
  split at moved
  case h_1 located => exact Or.inl ⟨located, (Option.some.inj moved).symm⟩
  case h_2 k located =>
    split_ifs at moved with below
    · split at moved
      case h_1 => exact Or.inr (Or.inl ⟨k, located, below, (Option.some.inj moved).symm⟩)
      case h_2 => cases moved
    · exact Or.inr (Or.inr ⟨k, located, Nat.le_of_not_lt below, (Option.some.inj moved).symm⟩)
  case h_3 => cases moved

omit [DecidableEq κ] in
theorem Alert.waitAll {s t : Waking n κ τ} (alert : Alert s) (moved : s.waitAll = some t) :
    Alert t := by
  rcases waitAll_eq_some moved with ⟨-, serving, waited, rfl⟩ | ⟨called, -, rfl⟩
  · -- The queue, the workers and the sleepers are as before.
    have silent (called : serving.waiter ≠ .working) (announced : s.announced = true) :
        s.condition.asleep = ∅ ∧ serving.waiter ≠ .working :=
      ⟨(alert.silent announced).1, called⟩
    rcases serving_waitAll_eq_some waited with
      ⟨-, rfl⟩ | ⟨k, joining, below, rfl⟩ | ⟨k, joining, -, rfl⟩
    · refine ⟨alert.atWait, alert.covers, iff_of_true rfl Waiter.noConfusion,
        silent Waiter.noConfusion, fun k same => ?_⟩
      exact Waiter.join.inj same ▸ Nat.zero_le n
    · have called : s.serving.waiter ≠ .working := fun same => by cases joining.symm.trans same
      refine ⟨alert.atWait, alert.covers, iff_of_true (alert.stopped.mpr called)
        Waiter.noConfusion, silent Waiter.noConfusion, fun j same => ?_⟩
      exact Waiter.join.inj same ▸ below
    · have called : s.serving.waiter ≠ .working := fun same => by cases joining.symm.trans same
      exact ⟨alert.atWait, alert.covers, iff_of_true (alert.stopped.mpr called)
        Waiter.noConfusion, silent Waiter.noConfusion, fun j same => by cases same⟩
  · exact ⟨fun w sleeps => absurd sleeps (Finset.notMem_empty w),
      ConditionVariable.covers_of_nobody rfl, alert.stopped, fun _ => ⟨rfl, called⟩,
      alert.within⟩

/-- A worker's block leaves the queue covered when it leaves the sleepers where they
are. -/
theorem covers_works {condition : ConditionVariable (Fin n)} {signals : ℕ}
    {pool next : Threadpool (Fin n) (Accepted τ)} {w : Fin n}
    (atWait : ∀ v ∈ condition.asleep, next.workers v = .waiting)
    (covers : condition.Covers signals (∑ v, (pool.workers v).waits) pool.tasks.length)
    (moved : Threadpool.Works pool w next) :
    condition.Covers signals (∑ v, (next.workers v).waits) next.tasks.length := by
  cases moved with
  | exits located stopped drained =>
    have nothing : (pool.goto w .exited).tasks.length = 0 := List.length_eq_zero_iff.mpr drained
    rw [nothing]
    exact ConditionVariable.covers_of_none (card_asleep_le atWait)
  | starts task tasks located queued =>
    -- One task less, and one worker less at the variable.
    have sum := Threadpool.sum_goto WorkerPc.waits pool w (.running task)
    rw [located] at sum
    have one : (∑ v, ((pool.goto w (.running task)).workers v).waits) + 1 =
      ∑ v, (pool.workers v).waits := sum
    rw [← one, queued, List.length_cons] at covers
    exact covers.take
  | returns task located =>
    have sum := Threadpool.sum_goto WorkerPc.waits pool w .finishing
    rw [located] at sum
    exact covers.of_le (Nat.add_right_cancel sum).ge
  | counts located =>
    have sum := Threadpool.sum_goto WorkerPc.waits pool w .waiting
    rw [located] at sum
    have one : ∑ v, ((pool.goto w .waiting).workers v).waits =
      (∑ v, (pool.workers v).waits) + 1 := sum
    exact covers.of_le ((Nat.le_succ _).trans one.ge)

omit [DecidableEq κ] in
theorem Alert.worker {s t : Waking n κ τ} {w : Fin n} (alert : Alert s)
    (moved : s.worker w = some t) : Alert t := by
  rcases worker_eq_some moved with ⟨awake, ⟨serving, worked, rfl⟩ | ⟨located, drained, running, rfl⟩⟩
  · obtain ⟨pool, blocked, rfl⟩ := Option.map_eq_some_iff.mp worked
    have works := Threadpool.works_of_work blocked
    -- The worker that moves is awake, so the sleepers are where they were.
    have atWait : ∀ v ∈ s.condition.asleep, pool.workers v = .waiting := fun v sleeps =>
      (works.others (ne_of_mem_of_not_mem sleeps awake)).trans (alert.atWait v sleeps)
    exact ⟨atWait, covers_works atWait alert.covers works,
      works.stop_eq ▸ alert.stopped, alert.silent, alert.within⟩
  · have atWait : ∀ v ∈ (s.condition.wait w).asleep, s.serving.pool.workers v = .waiting := by
      intro v sleeps
      rcases Finset.mem_insert.mp sleeps with rfl | before
      · exact located
      · exact alert.atWait v before
    refine ⟨atWait, ?_, alert.stopped, fun announced => ?_, alert.within⟩
    · -- It falls asleep over an empty queue.
      rw [drained]
      exact ConditionVariable.covers_of_none (card_asleep_le atWait)
    · -- Behind the `notify_all` the flag is set, and nobody falls asleep.
      have stopped := alert.stopped.mpr (alert.silent announced).2
      exact absurd (running.symm.trans stopped) Bool.false_ne_true

theorem Alert.step {s t : Waking n κ τ} {move : WakingMove n κ τ} (alert : Alert s)
    (moved : (system n κ τ).step s move = some t) : Alert t := by
  cases move with
  | enqueue caller task => exact alert.enqueue moved
  | notify caller choice => exact alert.notify moved
  | waitAll => exact alert.waitAll moved
  | worker w => exact alert.worker moved
  | wake w =>
    obtain ⟨sleeps, rfl⟩ := wake_eq_some moved
    refine ⟨fun v asleep => alert.atWait v (Finset.mem_of_mem_erase asleep),
      alert.covers.wake sleeps, alert.stopped, fun announced => ?_, alert.within⟩
    -- Behind the `notify_all` there is nobody to wake.
    exact absurd ((alert.silent announced).1 ▸ sleeps) (Finset.notMem_empty w)

theorem alert_of_reachable {s : Waking n κ τ} (reached : (system n κ τ).Reachable s) :
    Alert s := by
  refine reached.invariant ?_ fun t move u alert moved => alert.step moved
  rintro _ ⟨working, rfl⟩
  exact alert_start working

/-! ### Somebody can go on -/

/-- The thread that moves is inside the pool: a worker, a caller that has yet to notify,
or a `WaitAll` that has been called. -/
def UnderWay (s : Waking n κ τ) (move : WakingMove n κ τ) : Prop :=
  move.ongoing = true ∧ (move = .waitAll → s.serving.waiter ≠ .working)

/-- Some thread inside the pool can make its next step. -/
def GoesOn (s : Waking n κ τ) : Prop :=
  ∃ move, UnderWay s move ∧ ((system n κ τ).step s move).isSome

/-- A worker that is awake and finds something to do goes on. -/
theorem goesOn_of_worker {s : Waking n κ τ} {w : Fin n} (awake : w ∉ s.condition.asleep)
    (works : (s.serving.pool.work w).isSome) : GoesOn s := by
  obtain ⟨pool, worked⟩ := Option.isSome_iff_exists.mp works
  refine ⟨.worker w, ⟨rfl, nofun⟩, ?_⟩
  change (s.worker w).isSome
  rw [worker, if_neg awake, Serving.worker, worked]
  rfl

/-- A caller that has yet to notify goes on. -/
theorem goesOn_of_notifying {s : Waking n κ τ} {caller : κ} (pending : caller ∈ s.notifying) :
    GoesOn s := by
  obtain ⟨choice, notified⟩ := s.condition.exists_notifyOne
  refine ⟨.notify caller choice, ⟨rfl, nofun⟩, ?_⟩
  change (s.notify caller choice).isSome
  rw [notify, if_pos pending, Option.isSome_map]
  exact notified

/-- A worker at the condition variable finds a queued task or the stop flag. -/
theorem work_isSome {ι τ : Type} [DecidableEq ι] {pool : Threadpool ι τ} {w : ι}
    (stays : pool.workers w ≠ .exited) (something : pool.tasks ≠ [] ∨ pool.stop = true) :
    (pool.work w).isSome := by
  by_contra stuck
  rcases work_eq_none (Option.not_isSome_iff_eq_none.mp stuck) with exited | ⟨-, drained, running⟩
  · exact stays exited
  · rcases something with queued | stopped
    · exact queued drained
    · exact absurd (running.symm.trans stopped) Bool.false_ne_true

/-- While a task is queued, a caller has yet to notify or a worker is awake. -/
theorem goesOn_of_queued {s : Waking n κ τ} (manned : 1 ≤ n) (alert : Alert s)
    (drained : s.serving.pool.Drained) (queued : s.serving.pool.tasks ≠ []) : GoesOn s := by
  by_cases pending : s.notifying = ∅
  · -- Nobody has left, so a worker awake goes on.
    have stays (w : Fin n) : s.serving.pool.workers w ≠ .exited :=
      fun exited => queued (drained w exited).2
    suffices awake : ∃ w, w ∉ s.condition.asleep by
      obtain ⟨w, awake⟩ := awake
      exact goesOn_of_worker awake (work_isSome (stays w) (Or.inl queued))
    by_contra all
    push Not at all
    have covered := alert.covers ⟨⟨0, manned⟩, all ⟨0, manned⟩⟩
    -- All of them asleep would leave the task uncovered.
    have most : s.waiting ≤ s.condition.asleep.card := by
      rw [waiting, Finset.eq_univ_iff_forall.mpr all, Finset.card_eq_sum_ones]
      refine Finset.sum_le_sum fun w _ => ?_
      cases s.serving.pool.workers w <;> simp [WorkerPc.waits]
    have positive := List.length_pos_iff.mpr queued
    rw [pending, Finset.card_empty] at covered
    omega
  · obtain ⟨caller, pending⟩ := Finset.nonempty_of_ne_empty pending
    exact goesOn_of_notifying pending

/-- `WaitAll` in its loop goes on, or the worker it waits for does. -/
theorem goesOn_of_joining {s : Waking n κ τ} (alert : Alert s) {k : ℕ}
    (joining : s.serving.waiter = .join k) : GoesOn s := by
  have called : s.serving.waiter ≠ .working := fun same => by cases joining.symm.trans same
  have waits (isSome : s.waitAll.isSome) : GoesOn s := ⟨.waitAll, ⟨rfl, fun _ => called⟩, isSome⟩
  by_cases announced : s.announced = true
  · have goes (serving : s.serving.waitAll.isSome) : GoesOn s := by
      refine waits ?_
      rw [waitAll, if_pos (Or.inr announced), Option.isSome_map]
      exact serving
    by_cases below : k < n
    · by_cases left : s.serving.pool.workers ⟨k, below⟩ = .exited
      · exact goes (by simp [Serving.waitAll, joining, below, left])
      · -- The worker has been woken and finds the flag.
        have awake : (⟨k, below⟩ : Fin n) ∉ s.condition.asleep := by
          rw [(alert.silent announced).1]
          exact Finset.notMem_empty _
        exact goesOn_of_worker awake (work_isSome left (Or.inr (alert.stopped.mpr called)))
    · exact goes (by simp [Serving.waitAll, joining, below])
  · refine waits ?_
    rw [waitAll, if_neg (not_or.mpr ⟨called, announced⟩)]
    rfl

omit [DecidableEq κ] in
/-- The workers awake at the condition variable. -/
def looking (s : Waking n κ τ) : Finset (Fin n) :=
  Finset.univ.filter fun w => (s.serving.pool.workers w).waits = 1 ∧ w ∉ s.condition.asleep

omit [DecidableEq κ] in
/-- A worker at the condition variable sleeps or is awake. -/
theorem waiting_eq {s : Waking n κ τ} (alert : Alert s) :
    s.waiting = s.condition.asleep.card + s.looking.card := by
  have sleepers : (Finset.univ.filter fun w => w ∈ s.condition.asleep) = s.condition.asleep :=
    Finset.filter_univ_mem s.condition.asleep
  rw [← sleepers, looking, Finset.card_filter, Finset.card_filter, ← Finset.sum_add_distrib,
    waiting]
  refine Finset.sum_congr rfl fun w _ => ?_
  by_cases sleeps : w ∈ s.condition.asleep
  · simp [sleeps, alert.atWait w sleeps, WorkerPc.waits]
  · cases s.serving.pool.workers w <;> simp [sleeps, WorkerPc.waits]

/-- While a worker sleeps, the queued tasks are no more than the callers that have yet
to notify and the workers awake to look for them. Behind `notify_all` nobody sleeps. As
long as a task is queued or `WaitAll` is in its loop, a thread inside the pool can go
on without a new call and without a chance waking. -/
structure NoneForgotten (s : Waking n κ τ) : Prop where
  covered : s.condition.asleep.Nonempty →
    s.serving.pool.tasks.length ≤ s.notifying.card + s.looking.card
  silent : s.announced = true → s.condition.asleep = ∅
  queued : s.serving.pool.tasks ≠ [] → GoesOn s
  joining : ∀ k, s.serving.waiter = .join k → GoesOn s

theorem noneForgotten_of_reachable {s : Waking n κ τ} (manned : 1 ≤ n)
    (reached : (system n κ τ).Reachable s) : NoneForgotten s := by
  have alert := alert_of_reachable reached
  have drained := (Serving.kept_of_reachable (serving_of_reachable reached)).drained
  refine ⟨fun somebody => ?_, fun announced => (alert.silent announced).1,
    goesOn_of_queued manned alert drained, fun k joining => goesOn_of_joining alert joining⟩
  have covered := alert.covers somebody
  rw [waiting_eq alert] at covered
  omega

/-- A worker falls asleep before the first task is queued, and its caller has yet to
notify. -/
def sleeping : List (WakingMove 1 Unit Unit) := [.worker onlyWorker, .enqueue () ()]

/-- The theorem for that run. -/
theorem noneForgotten_sleeping :
    ∃ s, (system 1 Unit Unit).exec (start 0) sleeping = some s ∧ NoneForgotten s := by
  have runs : ((system 1 Unit Unit).exec (start 0) sleeping).isSome := by decide
  obtain ⟨s, run⟩ := Option.isSome_iff_exists.mp runs
  exact ⟨s, run, noneForgotten_of_reachable le_rfl ⟨start 0, sleeping, ⟨0, rfl⟩, run⟩⟩

/-! ### `WaitAll` returns -/

/-- How many blocks `WaitAll` has before it, but for its `notify_all`. -/
def waiterAhead (n : ℕ) : Waiter → ℕ
  | .working => n + 2
  | .join k => n + 1 - k
  | .returned => 0

/-- How many steps the pool has before it once it is stopped. -/
def remaining (s : Waking n κ τ) : ℕ :=
  3 * s.serving.pool.tasks.length + (∑ w, (s.serving.pool.workers w).ahead) +
    s.condition.asleep.card + s.notifying.card + waiterAhead n s.serving.waiter +
    (if s.announced then 0 else 1)

/-- Each block of a worker brings the pool one step on. -/
theorem ahead_works {pool next : Threadpool (Fin n) (Accepted τ)} {w : Fin n}
    (moved : Threadpool.Works pool w next) :
    1 + (3 * next.tasks.length + ∑ v, (next.workers v).ahead) =
      3 * pool.tasks.length + ∑ v, (pool.workers v).ahead := by
  cases moved with
  | exits located stopped drained =>
    have sum := Threadpool.sum_goto WorkerPc.ahead pool w .exited
    rw [located] at sum
    have one : (∑ v, ((pool.goto w .exited).workers v).ahead) + 1 =
      (∑ v, (pool.workers v).ahead) + 0 := sum
    change 1 + (3 * pool.tasks.length + ∑ v, ((pool.goto w .exited).workers v).ahead) = _
    omega
  | starts task tasks located queued =>
    have sum := Threadpool.sum_goto WorkerPc.ahead pool w (.running task)
    rw [located] at sum
    have two : (∑ v, ((pool.goto w (.running task)).workers v).ahead) + 1 =
      (∑ v, (pool.workers v).ahead) + 3 := sum
    change 1 + (3 * tasks.length + ∑ v, ((pool.goto w (.running task)).workers v).ahead) = _
    rw [queued, List.length_cons]
    omega
  | returns task located =>
    have sum := Threadpool.sum_goto WorkerPc.ahead pool w .finishing
    rw [located] at sum
    have one : (∑ v, ((pool.goto w .finishing).workers v).ahead) + 3 =
      (∑ v, (pool.workers v).ahead) + 2 := sum
    change 1 + (3 * pool.tasks.length + ∑ v, ((pool.goto w .finishing).workers v).ahead) = _
    omega
  | counts located =>
    have sum := Threadpool.sum_goto WorkerPc.ahead pool w .waiting
    rw [located] at sum
    have one : (∑ v, ((pool.goto w .waiting).workers v).ahead) + 2 =
      (∑ v, (pool.workers v).ahead) + 1 := sum
    change 1 + (3 * pool.tasks.length + ∑ v, ((pool.goto w .waiting).workers v).ahead) = _
    omega

/-- What a pool keeps once it is stopped. -/
structure Closing (s : Waking n κ τ) : Prop where
  alert : Alert s
  stopped : s.serving.pool.stop = true

/-- A refused `Enqueue` changes nothing inside the pool. -/
theorem enqueue_of_stopped {s t : Waking n κ τ} {caller : κ} {task : τ}
    (stopped : s.serving.pool.stop = true) (moved : s.enqueue caller task = some t) :
    t = { s with serving := { s.serving with refused := s.serving.refused ++ [task] } } := by
  have refused : s.serving.enqueue task =
      { s.serving with refused := s.serving.refused ++ [task] } := by
    rw [Serving.enqueue, Threadpool.enqueue, if_pos stopped]
  obtain ⟨-, ⟨-, rfl⟩ | ⟨running, -⟩⟩ := enqueue_eq_some moved
  · rw [refused]
  · exact absurd (running.symm.trans stopped) Bool.false_ne_true

/-- Nobody takes the flag back. -/
theorem Closing.step {s t : Waking n κ τ} {move : WakingMove n κ τ} (closing : Closing s)
    (moved : (system n κ τ).step s move = some t) : Closing t := by
  refine ⟨closing.alert.step moved, ?_⟩
  cases move with
  | enqueue caller task =>
    obtain rfl := enqueue_of_stopped closing.stopped moved
    exact closing.stopped
  | notify caller choice =>
    obtain ⟨-, condition, -, rfl⟩ := notify_eq_some moved
    exact closing.stopped
  | waitAll =>
    rcases waitAll_eq_some moved with ⟨-, serving, waited, rfl⟩ | ⟨-, -, rfl⟩
    · rcases serving_waitAll_eq_some waited with ⟨-, rfl⟩ | ⟨k, -, -, rfl⟩ | ⟨k, -, -, rfl⟩
      · rfl
      · exact closing.stopped
      · exact closing.stopped
    · exact closing.stopped
  | worker w =>
    rcases worker_eq_some moved with ⟨-, ⟨serving, worked, rfl⟩ | ⟨-, -, -, rfl⟩⟩
    · obtain ⟨pool, blocked, rfl⟩ := Option.map_eq_some_iff.mp worked
      exact (Threadpool.works_of_work blocked).stop_eq.trans closing.stopped
    · exact closing.stopped
  | wake w =>
    obtain ⟨-, rfl⟩ := wake_eq_some moved
    exact closing.stopped

/-- Behind the flag every step under way brings the pool nearer to its end, and none
takes it back. -/
theorem Closing.falls {s t : Waking n κ τ} {move : WakingMove n κ τ} (closing : Closing s)
    (moved : (system n κ τ).step s move = some t) :
    (if move.ongoing then 1 else 0) + t.remaining ≤ s.remaining := by
  cases move with
  | enqueue caller task =>
    obtain rfl := enqueue_of_stopped closing.stopped moved
    exact (Nat.zero_add _).le
  | notify caller choice =>
    obtain ⟨pending, condition, notified, rfl⟩ := notify_eq_some moved
    have one := Finset.card_erase_add_one pending
    have fewer : condition.asleep.card ≤ s.condition.asleep.card := by
      rcases ConditionVariable.notifyOne_eq_some notified with ⟨w, -, -, rfl⟩ | ⟨-, rfl⟩
      · exact Finset.card_erase_le
      · exact le_rfl
    simp only [WakingMove.ongoing, remaining, if_true]
    omega
  | waitAll =>
    rcases waitAll_eq_some moved with ⟨-, serving, waited, rfl⟩ | ⟨-, silent, rfl⟩
    · rcases serving_waitAll_eq_some waited with
        ⟨located, rfl⟩ | ⟨k, located, below, rfl⟩ | ⟨k, located, above, rfl⟩
      · simp only [WakingMove.ongoing, remaining, if_true, located, waiterAhead, Threadpool.close]
        omega
      · simp only [WakingMove.ongoing, remaining, if_true, located, waiterAhead]
        omega
      · have within := closing.alert.within k located
        simp only [WakingMove.ongoing, remaining, if_true, located, waiterAhead]
        omega
    · simp only [WakingMove.ongoing, remaining, if_true, silent, ConditionVariable.empty,
        Finset.card_empty, Bool.false_eq_true, if_false]
      omega
  | worker w =>
    rcases worker_eq_some moved with ⟨-, ⟨serving, worked, rfl⟩ | ⟨-, -, running, -⟩⟩
    · obtain ⟨pool, blocked, rfl⟩ := Option.map_eq_some_iff.mp worked
      have one := ahead_works (Threadpool.works_of_work blocked)
      simp only [WakingMove.ongoing, remaining, if_true]
      omega
    · -- A stopped pool gives no reason to fall asleep.
      exact absurd (running.symm.trans closing.stopped) Bool.false_ne_true
  | wake w =>
    obtain ⟨sleeps, rfl⟩ := wake_eq_some moved
    have one := ConditionVariable.card_wake sleeps
    simp only [WakingMove.ongoing, remaining, Bool.false_eq_true, if_false]
    omega

/-- A `WaitAll` that has returned leaves no task behind. -/
theorem emptied_of_returned {s : Serving n τ} (kept : Serving.Kept s) (manned : 1 ≤ n)
    (returned : s.waiter = .returned) :
    s.pool.tasks = [] ∧ (s.completed.map Prod.snd).Perm s.accepted.zipIdx := by
  have left (w : Fin n) := kept.joined w (Or.inr returned)
  have drained := (kept.drained ⟨0, manned⟩ (left ⟨0, manned⟩)).2
  have taken := kept.inOrder
  rw [drained, List.append_nil] at taken
  -- Nobody runs a task any more.
  have completed : s.completed.Perm s.taken := Serving.perm_of_byWorker fun w => by
    rw [kept.byWorkers w, Serving.running, left w, List.append_nil]
  exact ⟨drained, taken ▸ completed.map Prod.snd⟩

/-- From the moment the flag is set, a run makes at most so many steps of the calls and
workers under way, whatever else happens in between. Where none of them can go on any
more, `WaitAll` has returned and every accepted task was completed once. -/
theorem returns_of_stopped {s t : Waking n κ τ} {moves : List (WakingMove n κ τ)}
    (manned : 1 ≤ n) (reached : (system n κ τ).Reachable s)
    (stopped : s.serving.pool.stop = true) (run : (system n κ τ).exec s moves = some t) :
    moves.countP WakingMove.ongoing ≤ s.remaining ∧
      (¬ GoesOn t → t.serving.waiter = .returned ∧ t.serving.pool.tasks = [] ∧
        (t.serving.completed.map Prod.snd).Perm t.serving.accepted.zipIdx) := by
  have closing : Closing s := ⟨alert_of_reachable reached, stopped⟩
  have bound := StepSystem.countP_add_rank_le closing (fun _ _ _ closing moved => closing.step moved)
    (fun _ _ _ closing moved => Closing.falls closing moved) run
  refine ⟨(Nat.le_add_right _ _).trans bound, fun settled => ?_⟩
  have ends := reached.exec run
  have closed : Closing t := StepSystem.exec_invariant closing
    (fun _ _ _ closing moved => closing.step moved) run
  -- Only a `WaitAll` that has returned has nothing left to do.
  have returned : t.serving.waiter = .returned := by
    cases located : t.serving.waiter with
    | working => exact absurd located (closed.alert.stopped.mp closed.stopped)
    | join k => exact absurd (goesOn_of_joining closed.alert located) settled
    | returned => rfl
  have kept := Serving.kept_of_reachable (serving_of_reachable ends)
  exact ⟨returned, emptied_of_returned kept manned returned⟩

/-- `WaitAll` sets the flag while the worker sleeps and a caller has yet to notify. -/
def flagged : List (WakingMove 1 Unit Unit) := sleeping ++ [.waitAll]

/-- The worker is woken, runs the task and leaves. -/
def finished : List (WakingMove 1 Unit Unit) :=
  [.waitAll, .worker onlyWorker, .worker onlyWorker, .notify () none, .worker onlyWorker,
    .worker onlyWorker, .waitAll, .waitAll]

/-- The theorem for that end. -/
theorem returns_finished :
    ∃ s t : Waking 1 Unit Unit, (system 1 Unit Unit).exec (start 0) flagged = some s ∧
      (system 1 Unit Unit).exec s finished = some t ∧
      finished.countP WakingMove.ongoing ≤ s.remaining ∧
      (¬ GoesOn t → t.serving.waiter = .returned ∧ t.serving.pool.tasks = [] ∧
        (t.serving.completed.map Prod.snd).Perm t.serving.accepted.zipIdx) := by
  have stops : ((system 1 Unit Unit).exec (start 0) flagged).map
      (fun s => s.serving.pool.stop) = some true := by decide
  have ends : ((system 1 Unit Unit).exec (start 0) (flagged ++ finished)).isSome := by decide
  obtain ⟨s, run, stopped⟩ := Option.map_eq_some_iff.mp stops
  obtain ⟨t, whole⟩ := Option.isSome_iff_exists.mp ends
  obtain ⟨r, first, rest⟩ := StepSystem.exec_append_eq_some.mp whole
  obtain rfl := Option.some.inj (run.symm.trans first)
  exact ⟨s, t, run, rest,
    returns_of_stopped le_rfl ⟨start 0, flagged, ⟨0, rfl⟩, run⟩ stopped rest⟩

end Waking

end Fup
