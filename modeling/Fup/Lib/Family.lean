/-
# Systems side by side

A family of systems of which one at a time takes a step. The members may share more than
their steps show, so that a step is possible for the family and not for the member
alone. Where that never happens, a run of the family is nothing but a run of each
member, in any order.
-/

import Fup.Lib.StepSystem
import Mathlib.Logic.Function.Basic

namespace StepSystem

variable {κ σ α : Type*} [DecidableEq κ]

/-- A label as a label of one member. -/
def own (k : κ) (move : κ × α) : Option α := if move.1 = k then some move.2 else none

@[simp] theorem own_self (k : κ) (a : α) : own k (k, a) = some a := if_pos rfl

theorem own_of_ne {j k : κ} (apart : j ≠ k) (a : α) : own k (j, a) = none := if_neg apart

variable {M : StepSystem (κ → σ) (κ × α)} {N : κ → StepSystem σ α} {s t : κ → σ}

/-- Runs of the members make a run of the family. -/
theorem exec_of_own {moves : List (κ × α)}
    (joins : ∀ u k a next, (N k).step (u k) a = some next →
      M.step u (k, a) = some (Function.update u k next))
    (each : ∀ k, (N k).exec (s k) (moves.filterMap (own k)) = some (t k)) :
    M.exec s moves = some t := by
  induction moves generalizing s with
  | nil =>
    have same : s = t := funext fun k => Option.some.inj (each k)
    exact congrArg some same
  | cons move moves ih =>
    obtain ⟨j, a⟩ := move
    have first := each j
    rw [List.filterMap_cons_some (own_self j a)] at first
    obtain ⟨next, moved, rest⟩ := Option.bind_eq_some_iff.mp first
    rw [exec_cons, joins s j a next moved]
    refine ih fun k => ?_
    by_cases same : k = j
    · subst same
      rw [Function.update_self]
      exact rest
    · have later := each k
      rw [List.filterMap_cons_none (own_of_ne (Ne.symm same) a)] at later
      rw [Function.update_of_ne same]
      exact later

/-- Where the steps of a member within the family are its own, a run of the family is a
run of each member. -/
theorem exec_own {moves : List (κ × α)}
    (leaves : ∀ (before : List (κ × α)) (u : κ → σ) (k : κ) (a : α) (v : κ → σ),
      (∀ j, (N j).exec (s j) (before.filterMap (own j)) = some (u j)) →
      M.step u (k, a) = some v →
        ∃ next, (N k).step (u k) a = some next ∧ v = Function.update u k next)
    (run : M.exec s moves = some t) (k : κ) :
    (N k).exec (s k) (moves.filterMap (own k)) = some (t k) := by
  induction moves using List.reverseRecOn generalizing t k with
  | nil =>
    rw [exec_nil, Option.some_inj] at run
    exact run ▸ rfl
  | append_singleton moves move ih =>
    obtain ⟨j, a⟩ := move
    obtain ⟨u, before, moved⟩ := exec_snoc_eq_some.mp run
    obtain ⟨next, step, rfl⟩ := leaves moves u j a t (fun i => ih before i) moved
    rw [List.filterMap_append]
    by_cases same : k = j
    · subst same
      rw [List.filterMap_cons_some (own_self k a), List.filterMap_nil, Function.update_self]
      exact exec_snoc_eq_some.mpr ⟨u k, ih before k, step⟩
    · rw [List.filterMap_cons_none (own_of_ne (Ne.symm same) a), List.filterMap_nil,
        List.append_nil, Function.update_of_ne same]
      exact ih before k

end StepSystem
