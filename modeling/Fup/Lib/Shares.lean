/-
# Shares of a table

Holders of resources each keep a table of what they hold, and one table says what
there is. It is shared out when every resource is in exactly one share, as the
share has it. An operation that changes one entry for one holder then has to
change that share alone, whatever it does: it acquires the resource, returns it,
alters it or takes it over.
-/

import Mathlib.Logic.Function.Basic
import Mathlib.Tactic.SplitIfs

/-- What there is under each name is in the share of exactly one holder, and what a
holder has is there. -/
structure SharedOut {ν ρ η : Type*} (table : ν → Option ρ) (share : η → ν → Option ρ) : Prop where
  counted : ∀ name r, table name = some r ↔ ∃ holder, share holder name = some r
  apart : ∀ {holder other name r q}, share holder name = some r → share other name = some q →
    holder = other

namespace SharedOut

variable {ν ρ η : Type*} {table : ν → Option ρ} {share : η → ν → Option ρ}

section

variable (shared : SharedOut table share)
include shared

theorem there {holder : η} {name : ν} {r : ρ} (held : share holder name = some r) :
    table name = some r :=
  (shared.counted name r).mpr ⟨holder, held⟩

/-- A name under which there is nothing is in no share. -/
theorem free {name : ν} (nothing : table name = none) (holder : η) :
    share holder name = none := by
  cases held : share holder name with
  | none => rfl
  | some r => cases nothing.symm.trans (shared.there held)

/-- What one holder has is in no other share. -/
theorem others {holder other : η} {name : ν} {r : ρ} (held : share holder name = some r)
    (different : other ≠ holder) : share other name = none := by
  cases found : share other name with
  | none => rfl
  | some q => exact absurd (shared.apart found held) different

/-- Changing an entry together with the one share it is in. -/
theorem set [DecidableEq ν] [DecidableEq η] {share' : η → ν → Option ρ} {holder : η} {name : ν}
    {entry : Option ρ} (here : ∀ other, share' other name = if other = holder then entry else none)
    (elsewhere : ∀ other n, n ≠ name → share' other n = share other n) :
    SharedOut (Function.update table name entry) share' where
  counted n r := by
    by_cases same : n = name
    · subst same
      rw [Function.update_self]
      constructor
      · intro there
        exact ⟨holder, by rw [here, if_pos rfl, there]⟩
      · rintro ⟨other, held⟩
        rw [here] at held
        split_ifs at held
        exact held
    · rw [Function.update_of_ne same, shared.counted]
      exact exists_congr fun other => by rw [elsewhere other n same]
  apart {one other n r q} held found := by
    by_cases same : n = name
    · subst same
      rw [here] at held found
      split_ifs at held found with first second
      exact first.trans second.symm
    · rw [elsewhere _ n same] at held found
      exact shared.apart held found

/-- Taking over what another holder had. -/
theorem pass [DecidableEq ν] [DecidableEq η] {share' : η → ν → Option ρ} {holder : η} {name : ν}
    {r : ρ} (here : ∀ other, share' other name = if other = holder then some r else none)
    (elsewhere : ∀ other n, n ≠ name → share' other n = share other n)
    (there : table name = some r) : SharedOut table share' := by
  have changed := shared.set here elsewhere
  rwa [← there, Function.update_eq_self] at changed

end

end SharedOut
