/-
# Joining the workers of a pool

`WaitAll` and the destructor both set the stop flag and join every worker in turn.
A join waits for a worker to leave and makes its thread non-joinable, and a join
of a thread that is not joinable throws. Neither loop asks, so the second of two
shutdowns throws at its first worker. What leaves a destructor ends the program.

A lifetime is any number of calls by the thread that owns the pool, interleaved
with the blocks of the workers.
-/

import Fup.Lib.StepSystem
import Fup.Threadpool

namespace Fup

/-- The two functions that join the workers. -/
inductive Shutdown
  | waitAll
  | destructor
  deriving DecidableEq

/-- Where the owner of a pool is. -/
inductive OwnerPc
  /-- Between two calls. -/
  | idle
  /-- In front of the worker with a number, in the loop of a shutdown. -/
  | joining (call : Shutdown) (k : ℕ)
  | destroyed
  /-- An exception has left the destructor. -/
  | terminated
  deriving DecidableEq

/-- Where the owner is when a shutdown has returned. -/
def Shutdown.returned : Shutdown → OwnerPc
  | .waitAll => .idle
  | .destructor => .destroyed

/-- Where the owner is when a shutdown has thrown. -/
def Shutdown.threw : Shutdown → OwnerPc
  | .waitAll => .idle
  | .destructor => .terminated

/-- A pool of `n` workers and its owner, with the joinability of every thread, how
often `join` was called on it, and what `WaitAll` and the destructor threw. -/
structure Lifetime (n : ℕ) (τ : Type) where
  pool : Threadpool (Fin n) τ
  owner : OwnerPc
  joinable : Fin n → Bool
  joins : Fin n → ℕ
  thrown : List Failure

/-- What happens next: the owner calls a function or goes on with its loop, or a
worker goes on. -/
inductive LifetimeMove (n : ℕ) (τ : Type)
  | enqueue (task : τ)
  | waitAll
  | destroy
  | join
  | worker (w : Fin n)

namespace Lifetime

variable {n : ℕ} {τ : Type}

/-! ### Steps -/

/-- `Enqueue`, which throws on a stopped pool and then leaves it alone. -/
def enqueue (s : Lifetime n τ) (task : τ) : Option (Lifetime n τ) :=
  match s.owner with
  | .idle =>
    match s.pool.enqueue task with
    | .ok pool => some { s with pool := pool }
    | .error _ => some s
  | _ => none

/-- The first block of `WaitAll` or of the destructor. -/
def shutdown (s : Lifetime n τ) (call : Shutdown) : Option (Lifetime n τ) :=
  match s.owner with
  | .idle => some { s with pool := s.pool.close, owner := .joining call 0 }
  | _ => none

/-- What `std::thread::join` throws on a thread that is not joinable. -/
def notJoinable : Failure := .exception "Invalid argument"

/-- `worker.join()` in a shutdown. -/
def joinWorker (s : Lifetime n τ) (call : Shutdown) (w : Fin n) : Option (Lifetime n τ) :=
  let joins := Function.update s.joins w (s.joins w + 1)
  if s.joinable w then
    match s.pool.workers w with
    | .exited => some { s with
        owner := .joining call (w + 1)
        joinable := Function.update s.joinable w false
        joins := joins }
    | _ => none
  else some { s with
    owner := call.threw
    joins := joins
    thrown := s.thrown ++ [notJoinable] }

/-- The owner's next `join`, or the end of its loop. -/
def join (s : Lifetime n τ) : Option (Lifetime n τ) :=
  match s.owner with
  | .joining call k =>
    if below : k < n then s.joinWorker call ⟨k, below⟩
    else some { s with owner := call.returned }
  | _ => none

def start (working : UInt64) : Lifetime n τ where
  pool := .start working
  owner := .idle
  joinable := fun _ => true
  joins := fun _ => 0
  thrown := []

/-- All lifetimes of a pool. -/
def system (n : ℕ) (τ : Type) : StepSystem (Lifetime n τ) (LifetimeMove n τ) where
  init s := ∃ working, s = start working
  step s move :=
    match move with
    | .enqueue task => s.enqueue task
    | .waitAll => s.shutdown .waitAll
    | .destroy => s.shutdown .destructor
    | .join => s.join
    | .worker w => (s.pool.work w).map fun pool => { s with pool := pool }

/-- The pool is destroyed, or the program has ended in the attempt. -/
def Over (s : Lifetime n τ) : Prop := s.owner = .destroyed ∨ s.owner = .terminated

/-- Every worker was joined once, and neither `WaitAll` nor the destructor threw. -/
structure JoinedOnce (s : Lifetime n τ) : Prop where
  once : ∀ w, s.joins w = 1
  calm : s.thrown = []
  survives : s.owner ≠ .terminated

/-! ### What the owner does -/

/-- What a turn of the owner's loop does, by how it ends. -/
inductive Joins (s : Lifetime n τ) : Lifetime n τ → Prop
  | joins (call : Shutdown) (w : Fin n) (located : s.owner = .joining call w)
    (joinable : s.joinable w = true) (left : s.pool.workers w = .exited) :
    Joins s { s with
      owner := .joining call (w + 1)
      joinable := Function.update s.joinable w false
      joins := Function.update s.joins w (s.joins w + 1) }
  | throws (call : Shutdown) (w : Fin n) (located : s.owner = .joining call w)
    (joined : s.joinable w = false) :
    Joins s { s with
      owner := call.threw
      joins := Function.update s.joins w (s.joins w + 1)
      thrown := s.thrown ++ [notJoinable] }
  | ends (call : Shutdown) (k : ℕ) (located : s.owner = .joining call k) (all : n ≤ k) :
    Joins s { s with owner := call.returned }

theorem joins_of_join {s t : Lifetime n τ} (moved : s.join = some t) : Joins s t := by
  unfold join at moved
  split at moved
  case h_1 call k located =>
    split_ifs at moved with below
    · unfold joinWorker at moved
      dsimp only at moved
      split_ifs at moved with joinable
      · split at moved
        case h_1 left => exact Option.some.inj moved ▸ .joins call ⟨k, below⟩ located joinable left
        case h_2 => cases moved
      · rw [Bool.not_eq_true] at joinable
        exact Option.some.inj moved ▸ .throws call ⟨k, below⟩ located joinable
    · exact Option.some.inj moved ▸ .ends call k located (Nat.le_of_not_lt below)
  case h_2 => cases moved

/-- Only an idle owner starts a shutdown. -/
theorem shutdown_eq_some {s t : Lifetime n τ} {call : Shutdown}
    (moved : s.shutdown call = some t) :
    s.owner = .idle ∧ t = { s with pool := s.pool.close, owner := .joining call 0 } := by
  unfold shutdown at moved
  split at moved
  case h_1 idle => exact ⟨idle, (Option.some.inj moved).symm⟩
  case h_2 => cases moved

/-- `Enqueue` and the workers leave the owner and the threads alone. -/
theorem eq_of_enqueue {s t : Lifetime n τ} {task : τ} (moved : s.enqueue task = some t) :
    ∃ pool, t = { s with pool := pool } := by
  unfold enqueue at moved
  split at moved
  case h_1 =>
    split at moved
    case h_1 pool _ => exact ⟨pool, (Option.some.inj moved).symm⟩
    case h_2 => exact ⟨s.pool, (Option.some.inj moved).symm⟩
  case h_2 => cases moved

/-! ### Where a lifetime stands -/

/-- The workers below `k` are joined once, the others not at all. -/
structure JoinedBelow (k : ℕ) (s : Lifetime n τ) : Prop where
  joinable : ∀ w : Fin n, s.joinable w = decide (k ≤ w.val)
  joins : ∀ w : Fin n, s.joins w = if w.val < k then 1 else 0
  calm : s.thrown = []

/-- Where a lifetime stands, by whether `WaitAll` has been called. -/
inductive Stands (waited : Prop) (s : Lifetime n τ) : Prop
  | fresh (never : ¬ waited) (idle : s.owner = .idle) (below : JoinedBelow 0 s)
  | closing (call : Shutdown) (k : ℕ) (located : s.owner = .joining call k) (within : k ≤ n)
    (called : call = .waitAll ↔ waited) (below : JoinedBelow k s)
  | destroyed (never : ¬ waited) (located : s.owner = .destroyed) (all : JoinedBelow n s)
  /-- After the first `WaitAll` no thread is joinable any more. -/
  | joined (before : waited) (left : ∀ w, s.joinable w = false)
    (located : s.owner = .idle ∨ (∃ call, s.owner = .joining call 0) ∨ s.owner = .terminated)

theorem stands_start (working : UInt64) : Stands False (start working : Lifetime n τ) :=
  .fresh id rfl ⟨fun _ => rfl, fun _ => rfl, rfl⟩

/-- A call that starts a shutdown. -/
theorem Stands.shutdown {waited : Prop} {s t : Lifetime n τ} {call : Shutdown}
    (stands : Stands waited s) (moved : s.shutdown call = some t) :
    Stands (waited ∨ call = .waitAll) t := by
  obtain ⟨idle, rfl⟩ := shutdown_eq_some moved
  cases stands with
  | fresh never _ below =>
    refine .closing call 0 rfl (Nat.zero_le n) ?_ ⟨below.joinable, below.joins, below.calm⟩
    rw [or_iff_right never]
  | closing _ k located => cases idle.symm.trans located
  | destroyed never located => cases idle.symm.trans located
  | joined before left located => exact .joined (Or.inl before) left (Or.inr (Or.inl ⟨call, rfl⟩))

/-- One worker more is joined. -/
theorem JoinedBelow.next {s : Lifetime n τ} {w : Fin n} (below : JoinedBelow w s)
    (owner : OwnerPc) :
    JoinedBelow (w + 1) { s with
      owner := owner
      joinable := Function.update s.joinable w false
      joins := Function.update s.joins w (s.joins w + 1) } := by
  refine ⟨fun v => ?_, fun v => ?_, below.calm⟩
  · change Function.update s.joinable w false v = _
    rw [Function.update_apply, below.joinable v]
    split_ifs with same
    -- The thread joined just now.
    · rw [same]
      exact (decide_eq_false (Nat.not_succ_le_self w)).symm
    · have other : v.val ≠ w.val := fun equal => same (Fin.ext equal)
      exact decide_eq_decide.mpr (by omega)
  · change Function.update s.joins w (s.joins w + 1) v = _
    rw [Function.update_apply, below.joins w, below.joins v, if_neg (lt_irrefl _)]
    by_cases same : v = w
    · rw [if_pos same, same, if_pos (Nat.lt_succ_self _)]
    · have other : v.val ≠ w.val := fun equal => same (Fin.ext equal)
      rw [if_neg same]
      exact if_congr (by omega) rfl rfl

/-- The loop of a shutdown has joined the workers it has passed, or it comes behind
the first `WaitAll` and is still in front of the first worker. -/
theorem Stands.of_joining {waited : Prop} {s : Lifetime n τ} (stands : Stands waited s)
    {call : Shutdown} {k : ℕ} (located : s.owner = .joining call k) :
    (k ≤ n ∧ (call = .waitAll ↔ waited) ∧ JoinedBelow k s) ∨
      (waited ∧ (∀ w, s.joinable w = false) ∧ k = 0) := by
  cases stands with
  | fresh never idle => cases idle.symm.trans located
  | closing call' k' located' within called below =>
    obtain ⟨rfl, rfl⟩ := OwnerPc.joining.inj (located'.symm.trans located)
    exact Or.inl ⟨within, called, below⟩
  | destroyed never located' => cases located'.symm.trans located
  | joined before left located' =>
    rcases located' with idle | ⟨call', begun⟩ | terminated
    · cases idle.symm.trans located
    · obtain ⟨-, rfl⟩ := OwnerPc.joining.inj (begun.symm.trans located)
      exact Or.inr ⟨before, left, rfl⟩
    · cases terminated.symm.trans located

/-- What a turn of the loop preserves, by how it ends. -/
theorem Stands.join {waited : Prop} {s t : Lifetime n τ} (manned : 1 ≤ n)
    (stands : Stands waited s) (moved : s.join = some t) : Stands waited t := by
  cases joins_of_join moved with
  | joins call w located joinable left =>
    rcases stands.of_joining located with ⟨-, called, below⟩ | ⟨-, nobody, -⟩
    · exact .closing call (w + 1) rfl w.isLt called (below.next _)
    · exact absurd ((nobody w).symm.trans joinable) Bool.false_ne_true
  | throws call w located joined =>
    rcases stands.of_joining located with ⟨-, -, below⟩ | ⟨before, nobody, -⟩
    · -- The worker it is in front of is not joined yet.
      have joinable := below.joinable w
      rw [joined, decide_eq_true le_rfl] at joinable
      cases joinable
    · refine .joined before nobody ?_
      cases call with
      | waitAll => exact Or.inl rfl
      | destructor => exact Or.inr (Or.inr rfl)
  | ends call k located all =>
    rcases stands.of_joining located with ⟨within, called, below⟩ | ⟨-, -, rfl⟩
    · obtain rfl := Nat.le_antisymm within all
      cases call with
      | waitAll =>
        refine .joined (called.mp rfl) (fun w => ?_) (Or.inl rfl)
        exact (below.joinable w).trans (decide_eq_false (Nat.not_le_of_lt w.isLt))
      | destructor =>
        have never : ¬ waited := fun waited => Shutdown.noConfusion (called.mpr waited)
        exact .destroyed never rfl ⟨below.joinable, below.joins, below.calm⟩
    · -- There is a worker, and the loop has not passed it.
      omega

/-- A step moves a lifetime on, and a call of `WaitAll` is remembered. -/
theorem Stands.step {waited : Prop} {s t : Lifetime n τ} {move : LifetimeMove n τ}
    (manned : 1 ≤ n) (stands : Stands waited s) (moved : (system n τ).step s move = some t) :
    Stands (waited ∨ LifetimeMove.waitAll = move) t := by
  -- Nothing here is about the tasks.
  have alone (pool : Threadpool (Fin n) τ) : Stands waited { s with pool := pool } := by
    cases stands with
    | fresh never idle below => exact .fresh never idle ⟨below.joinable, below.joins, below.calm⟩
    | closing call k located within called below =>
      exact .closing call k located within called ⟨below.joinable, below.joins, below.calm⟩
    | destroyed never located all =>
      exact .destroyed never located ⟨all.joinable, all.joins, all.calm⟩
    | joined before left located => exact .joined before left located
  cases move with
  | waitAll =>
    have moved : s.shutdown .waitAll = some t := moved
    simpa using stands.shutdown moved
  | destroy =>
    have moved : s.shutdown .destructor = some t := moved
    simpa using stands.shutdown moved
  | enqueue task =>
    obtain ⟨pool, rfl⟩ := eq_of_enqueue moved
    simpa using alone pool
  | join => simpa using stands.join manned moved
  | worker w =>
    obtain ⟨pool, -, rfl⟩ := Option.map_eq_some_iff.mp moved
    simpa using alone pool

theorem stands_of_exec {working : UInt64} {moves : List (LifetimeMove n τ)} {s : Lifetime n τ}
    (manned : 1 ≤ n) (run : (system n τ).exec (start working) moves = some s) :
    Stands (.waitAll ∈ moves) s := by
  let holds (moves : List (LifetimeMove n τ)) (s : Lifetime n τ) : Prop :=
    Stands (.waitAll ∈ moves) s
  have begins : holds [] (start working) := by simpa [holds] using stands_start working
  have goes (moves : List (LifetimeMove n τ)) (s : Lifetime n τ) (move : LifetimeMove n τ)
      (t : Lifetime n τ) (_ : (system n τ).exec (start working) moves = some s)
      (stands : holds moves s) (moved : (system n τ).step s move = some t) :
      holds (moves ++ [move]) t := by
    have next := stands.step manned moved
    simpa [holds] using next
  exact StepSystem.exec_induction begins goes run

/-- A lifetime that is over joined every worker once exactly when `WaitAll` was
never called. -/
theorem joinedOnce_iff {threads : UInt16} (manned : 1 ≤ threads.toNat) {working : UInt64}
    {moves : List (LifetimeMove threads.toNat τ)} {s : Lifetime threads.toNat τ}
    (run : (system threads.toNat τ).exec (start working) moves = some s) (done : Over s) :
    JoinedOnce s ↔ .waitAll ∉ moves := by
  cases stands_of_exec manned run with
  | fresh never idle => rcases done with same | same <;> cases idle.symm.trans same
  | closing call k located => rcases done with same | same <;> cases located.symm.trans same
  | destroyed never located all =>
    refine iff_of_true ⟨fun w => ?_, all.calm, ?_⟩ never
    · exact (all.joins w).trans (if_pos w.isLt)
    · rw [located]
      exact OwnerPc.noConfusion
  | joined before left located =>
    refine iff_of_false (fun once => once.survives ?_) (not_not_intro before)
    rcases done with same | same
    -- Of the places that come after a `WaitAll`, only the terminated one is the end.
    · rcases located with idle | ⟨call, begun⟩ | terminated
      · cases idle.symm.trans same
      · cases begun.symm.trans same
      · exact terminated
    · exact same

/-- The one worker of a pool has nothing to do and is joined by the destructor. -/
def destroyedOnly : List (LifetimeMove 1 Unit) :=
  [.destroy, .worker Threadpool.onlyWorker, .join, .join]

/-- The theorem for that lifetime. -/
theorem joinedOnce_destroyedOnly :
    ∃ s, (system (1 : UInt16).toNat Unit).exec (start 0) destroyedOnly = some s ∧
      JoinedOnce s := by
  have ends : ((system (1 : UInt16).toNat Unit).exec (start 0) destroyedOnly).map
      Lifetime.owner = some .destroyed := by decide
  obtain ⟨s, run, done⟩ := Option.map_eq_some_iff.mp ends
  have never : LifetimeMove.waitAll ∉ destroyedOnly := by simp [destroyedOnly]
  exact ⟨s, run, (joinedOnce_iff le_rfl run (Or.inl done)).mpr never⟩

/-- `WaitAll` joins the worker, and the destructor joins it again. -/
def waitedFirst : List (LifetimeMove 1 Unit) :=
  [.waitAll, .worker Threadpool.onlyWorker, .join, .join, .destroy, .join]

/-- The second join throws out of the destructor. -/
theorem not_joinedOnce_waitedFirst :
    ¬ ∀ moves s, (system 1 Unit).exec (start 0) moves = some s → Over s → JoinedOnce s := by
  intro once
  have ends : ((system 1 Unit).exec (start 0) waitedFirst).map Lifetime.owner =
      some .terminated := by decide
  obtain ⟨s, run, terminated⟩ := Option.map_eq_some_iff.mp ends
  exact (once waitedFirst s run (Or.inr terminated)).survives terminated

/-! ### No shutdown hangs -/

/-- During a shutdown the pool is stopped. -/
def Stopped (s : Lifetime n τ) : Prop :=
  ∀ call k, s.owner = .joining call k → s.pool.stop = true

theorem Stopped.step {s t : Lifetime n τ} {move : LifetimeMove n τ} (stopped : Stopped s)
    (moved : (system n τ).step s move = some t) : Stopped t := by
  -- A shutdown stops the pool first.
  have shut {call : Shutdown} (moved : s.shutdown call = some t) : Stopped t := by
    obtain ⟨-, rfl⟩ := shutdown_eq_some moved
    exact fun _ _ _ => rfl
  cases move with
  | waitAll => exact shut moved
  | destroy => exact shut moved
  | enqueue task =>
    -- `Enqueue` belongs to an idle owner, which is not in a loop.
    have moved : s.enqueue task = some t := moved
    unfold enqueue at moved
    split at moved
    case h_1 idle =>
      intro call k located
      split at moved
      all_goals
        obtain rfl := Option.some.inj moved
        cases idle.symm.trans located
    case h_2 => cases moved
  | join =>
    cases joins_of_join moved with
    | joins call w located => exact fun _ _ _ => stopped call w located
    | throws call w => cases call <;> exact fun _ _ same => OwnerPc.noConfusion same
    | ends call k => cases call <;> exact fun _ _ same => OwnerPc.noConfusion same
  | worker w =>
    obtain ⟨pool, worked, rfl⟩ := Option.map_eq_some_iff.mp moved
    intro call k located
    exact (Threadpool.works_of_work worked).stop_eq.trans (stopped call k located)

/-- As long as a shutdown is not over, its owner or the worker it waits for can go
on. -/
theorem exists_step_of_joining {s : Lifetime n τ} (reached : (system n τ).Reachable s)
    {call : Shutdown} {k : ℕ} (located : s.owner = .joining call k) :
    ∃ move, (move = .join ∨ ∃ w, move = .worker w) ∧ ((system n τ).step s move).isSome := by
  -- The worker has been told to leave, so it does not wait for tasks.
  have stopped : Stopped s := by
    refine reached.invariant ?_ fun _ _ _ stopped moved => Stopped.step stopped moved
    rintro _ ⟨working, rfl⟩ call k idle
    cases idle
  have joins (isSome : s.join.isSome) :
      ∃ move, (move = .join ∨ ∃ w, move = .worker w) ∧ ((system n τ).step s move).isSome :=
    ⟨.join, Or.inl rfl, isSome⟩
  have works (w : Fin n) (isSome : (s.pool.work w).isSome) :
      ∃ move, (move = .join ∨ ∃ w, move = .worker w) ∧ ((system n τ).step s move).isSome :=
    ⟨.worker w, Or.inr ⟨w, rfl⟩, Option.isSome_map.trans isSome⟩
  by_cases below : k < n
  · by_cases joinable : s.joinable ⟨k, below⟩ = true
    · -- The owner waits for this worker.
      cases place : s.pool.workers ⟨k, below⟩ with
      | waiting =>
        refine works ⟨k, below⟩ ?_
        cases queue : s.pool.tasks with
        | nil => simp [Threadpool.work, place, queue, stopped call k located]
        | cons task tasks => simp [Threadpool.work, place, queue]
      | running task => exact works ⟨k, below⟩ (by simp [Threadpool.work, place])
      | finishing => exact works ⟨k, below⟩ (by simp [Threadpool.work, place])
      | exited => exact joins (by simp [join, joinWorker, located, below, joinable, place])
    · exact joins (by simp [join, joinWorker, located, below, joinable])
  · exact joins (by simp [join, located, below])

end Lifetime

end Fup
