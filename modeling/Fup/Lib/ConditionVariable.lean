/-
# Condition variables

A thread that finds nothing to do falls asleep on the variable. `notify_one` wakes
one sleeper, whichever it likes, and is lost when nobody sleeps. `notify_all` wakes
them all, and a sleeper may also wake by itself.

Where each piece of work is followed by a signal, the account to keep is: while
somebody sleeps, the pieces of work and the sleepers together are no more than the
signals still to come and the threads at the variable, asleep or awake. So work left
lying is always somebody's, a signal's that is on its way or a thread's that is about
to look.
-/

import Mathlib.Data.Finset.Card

/-- The threads asleep on a condition variable. -/
structure ConditionVariable (ι : Type*) where
  asleep : Finset ι

namespace ConditionVariable

variable {ι : Type*} [DecidableEq ι]

/-- Nobody sleeps. -/
def empty : ConditionVariable ι := ⟨∅⟩

/-- A thread falls asleep. -/
def wait (cv : ConditionVariable ι) (w : ι) : ConditionVariable ι := ⟨insert w cv.asleep⟩

/-- A sleeper wakes. -/
def wake (cv : ConditionVariable ι) (w : ι) : ConditionVariable ι := ⟨cv.asleep.erase w⟩

/-- `notify_one`, with the sleeper it wakes, or with none when nobody sleeps. -/
def notifyOne (cv : ConditionVariable ι) : Option ι → Option (ConditionVariable ι)
  | some w => if w ∈ cv.asleep then some (cv.wake w) else none
  | none => if cv.asleep = ∅ then some cv else none

/-- What `notify_one` does: it wakes a sleeper or is lost. -/
theorem notifyOne_eq_some {cv next : ConditionVariable ι} {choice : Option ι}
    (notified : cv.notifyOne choice = some next) :
    (∃ w ∈ cv.asleep, choice = some w ∧ next = cv.wake w) ∨ (cv.asleep = ∅ ∧ next = cv) := by
  cases choice with
  | some w =>
    rw [notifyOne] at notified
    split_ifs at notified with sleeps
    exact Or.inl ⟨w, sleeps, rfl, (Option.some.inj notified).symm⟩
  | none =>
    rw [notifyOne] at notified
    split_ifs at notified with nobody
    exact Or.inr ⟨nobody, (Option.some.inj notified).symm⟩

/-- `notify_one` always finds what to do. -/
theorem exists_notifyOne (cv : ConditionVariable ι) :
    ∃ choice, (cv.notifyOne choice).isSome := by
  by_cases nobody : cv.asleep = ∅
  · exact ⟨none, by rw [notifyOne, if_pos nobody]; rfl⟩
  · obtain ⟨w, sleeps⟩ := Finset.nonempty_of_ne_empty nobody
    exact ⟨some w, by rw [notifyOne, if_pos sleeps]; rfl⟩

theorem card_wake {cv : ConditionVariable ι} {w : ι} (sleeps : w ∈ cv.asleep) :
    (cv.wake w).asleep.card + 1 = cv.asleep.card :=
  Finset.card_erase_add_one sleeps

omit [DecidableEq ι] in
theorem nonempty_of_mem {cv : ConditionVariable ι} {w : ι} (sleeps : w ∈ cv.asleep) :
    cv.asleep.Nonempty := ⟨w, sleeps⟩

/-! ### The account of work -/

/-- While somebody sleeps, the work and the sleepers are covered by the signals to
come and the threads at the variable. -/
def Covers (cv : ConditionVariable ι) (signals waiting work : ℕ) : Prop :=
  cv.asleep.Nonempty → work + cv.asleep.card ≤ signals + waiting

variable {cv next : ConditionVariable ι} {signals waiting work : ℕ}

omit [DecidableEq ι] in
/-- Where nobody sleeps there is nothing to account for. -/
theorem covers_of_nobody (nobody : cv.asleep = ∅) : cv.Covers signals waiting work :=
  fun somebody => absurd nobody somebody.ne_empty

omit [DecidableEq ι] in
/-- Sleepers are threads at the variable, so no work is covered by nothing. -/
theorem covers_of_none (within : cv.asleep.card ≤ waiting) : cv.Covers signals waiting 0 :=
  fun _ => (Nat.zero_add _).le.trans (within.trans (Nat.le_add_left waiting signals))

omit [DecidableEq ι] in
/-- A piece of work comes with a signal. -/
theorem Covers.announce (covers : cv.Covers signals waiting work) :
    cv.Covers (signals + 1) waiting (work + 1) := by
  intro somebody
  have before := covers somebody
  omega

/-- The signal goes out. It wakes a sleeper, who is at the variable as before, or
nobody sleeps. -/
theorem Covers.notifyOne {choice : Option ι} (covers : cv.Covers (signals + 1) waiting work)
    (notified : cv.notifyOne choice = some next) : next.Covers signals waiting work := by
  rcases notifyOne_eq_some notified with ⟨w, sleeps, -, rfl⟩ | ⟨nobody, rfl⟩
  · intro _
    have before := covers (nonempty_of_mem sleeps)
    have one := card_wake sleeps
    omega
  · exact covers_of_nobody nobody

/-- A sleeper who wakes by itself is one more to look for work. -/
theorem Covers.wake {w : ι} (covers : cv.Covers signals waiting work) (sleeps : w ∈ cv.asleep) :
    (cv.wake w).Covers signals waiting work := by
  intro _
  have before := covers (nonempty_of_mem sleeps)
  have one := card_wake sleeps
  omega

omit [DecidableEq ι] in
/-- A thread takes a piece of work away from the variable. -/
theorem Covers.take (covers : cv.Covers signals (waiting + 1) (work + 1)) :
    cv.Covers signals waiting work := by
  intro somebody
  have before := covers somebody
  omega

omit [DecidableEq ι] in
/-- More threads at the variable cover as much. -/
theorem Covers.of_le {more : ℕ} (covers : cv.Covers signals waiting work)
    (atLeast : waiting ≤ more) : cv.Covers signals more work := by
  intro somebody
  have before := covers somebody
  omega

end ConditionVariable
