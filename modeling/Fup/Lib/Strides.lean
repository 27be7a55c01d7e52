/-
# Cutting a range at a fixed stride

The stretches of a range start at the multiples of a stride, and the last one
ends with the range. A position lies in the stretch that its quotient by the
stride numbers, so stretches are disjoint, and the first ones tile the range when
the last of them starts inside it and all of them together reach its end. The
contents of a list, read stretch by stretch, are then the list.
-/

import Mathlib.Data.List.Basic
import Mathlib.Data.Set.Lattice
import Mathlib.Order.CompletePartialOrder
import Mathlib.Order.Interval.Set.Basic
import Mathlib.Order.MinMax

namespace Strides

/-- The stretch with a number, in a range of a size. -/
def stretch (stride size i : ℕ) : Set ℕ := Set.Ico (stride * i) (min (stride * (i + 1)) size)

/-- The first stretches are not empty, pairwise disjoint, and together the range. -/
structure Tiles (stride size count : ℕ) : Prop where
  nonempty : ∀ i < count, (stretch stride size i).Nonempty
  disjoint : ∀ i < count, ∀ j < count, i ≠ j →
    Disjoint (stretch stride size i) (stretch stride size j)
  covers : ⋃ i < count, stretch stride size i = Set.Iio size

section Positions

variable {stride size count : ℕ} (positive : 0 < stride)

include positive

theorem mem_stretch {i x : ℕ} : x ∈ stretch stride size i ↔ x / stride = i ∧ x < size := by
  rw [stretch, Set.mem_Ico, lt_min_iff, ← and_assoc]
  apply and_congr_left'
  rw [Nat.div_eq_iff positive, Nat.mul_comm, Nat.mul_comm stride (i + 1), Nat.add_one_mul]
  omega

theorem nonempty_stretch {i : ℕ} : (stretch stride size i).Nonempty ↔ stride * i < size := by
  rw [stretch, Set.nonempty_Ico, lt_min_iff, Nat.mul_succ]
  exact and_iff_right (Nat.lt_add_of_pos_right positive)

theorem disjoint_stretch {i j : ℕ} (other : i ≠ j) :
    Disjoint (stretch stride size i) (stretch stride size j) := by
  rw [Set.disjoint_left]
  intro x here there
  rw [mem_stretch positive] at here there
  exact other (here.1.symm.trans there.1)

theorem iUnion_stretch :
    ⋃ i < count, stretch stride size i = Set.Iio (min (stride * count) size) := by
  ext x
  have number : x < stride * count ↔ x / stride < count := by
    rw [Nat.div_lt_iff_lt_mul positive, Nat.mul_comm]
  simp only [Set.mem_iUnion, mem_stretch positive, Set.mem_Iio, lt_min_iff, exists_prop, number]
  constructor
  · rintro ⟨_, below, rfl, inside⟩
    exact ⟨below, inside⟩
  · rintro ⟨below, inside⟩
    exact ⟨x / stride, below, rfl, inside⟩

/-- The first stretches tile a range when all of them start inside it and reach
its end. -/
theorem tiles_of_bounds (starts : ∀ i < count, stride * i < size)
    (reaches : size ≤ stride * count) : Tiles stride size count where
  nonempty i listed := (nonempty_stretch positive).mpr (starts i listed)
  disjoint _ _ _ _ other := disjoint_stretch positive other
  covers := by rw [iUnion_stretch positive, min_eq_right reaches]

end Positions

/-! ### Lists -/

section Lists

variable {α : Type*}

theorem flatten_stretches (l : List α) (stride count : ℕ) :
    ((List.range count).map fun i => (l.drop (stride * i)).take stride).flatten =
      l.take (stride * count) := by
  induction count with
  | zero => rfl
  | succ count ih =>
    rw [List.range_succ, List.map_append, List.flatten_append, ih, Nat.mul_succ, List.take_add,
      List.map_singleton, List.flatten_singleton]

/-- Stretches that reach the end of a list have all of it. -/
theorem flatten_stretches_of_le {l : List α} {stride count : ℕ}
    (reaches : l.length ≤ stride * count) :
    ((List.range count).map fun i => (l.drop (stride * i)).take stride).flatten = l := by
  rw [flatten_stretches, List.take_of_length_le reaches]

end Lists

end Strides
