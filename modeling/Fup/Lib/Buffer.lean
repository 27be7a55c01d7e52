/-
# Buffers of a fixed size

A buffer has as many cells as it was made with. Copying into it changes the
cells of the target range and no others. A copy whose range leaves the buffer
has no meaning in the languages that allow it; here its part inside the buffer
takes effect, the part outside is lost, and the buffer records that a copy went
out of bounds. What holds of the cells is then a statement about runs on which
the lost part was harmless, and what holds of the record is a statement about
all of them.

Two copies at adjacent ranges are one copy. A buffer filled from the front by
any number of copies is therefore the buffer after one copy of everything.
-/

import Mathlib.Data.List.Basic

/-- The cells of a buffer, and whether every copy so far stayed inside. -/
@[ext] structure Buffer (α : Type*) where
  /-- The cells. -/
  cells : List α
  /-- No copy into the buffer has left it. -/
  inBounds : Bool
  deriving DecidableEq, Repr

namespace Buffer

variable {α : Type*}

/-- A new buffer of `n` equal cells. -/
def fill (n : ℕ) (x : α) : Buffer α := ⟨List.replicate n x, true⟩

/-- Copy `source` to the range that starts at `offset`. -/
def memcpy (buf : Buffer α) (offset : ℕ) (source : List α) : Buffer α where
  cells := (buf.cells.take offset ++ source ++ buf.cells.drop (offset + source.length)).take
    buf.cells.length
  inBounds := buf.inBounds && decide (offset + source.length ≤ buf.cells.length)

/-- Copy `length` cells from an object that holds `source`. Reading past the
object is out of bounds as well, and what is read there is not copied. -/
def memcpyObject (buf : Buffer α) (offset : ℕ) (source : List α) (length : ℕ) : Buffer α where
  cells := (buf.memcpy offset (source.take length)).cells
  inBounds := buf.inBounds && decide (offset + length ≤ buf.cells.length) &&
    decide (length ≤ source.length)

/-- The cells of a range, when the range is inside. -/
def slice? (cells : List α) (offset length : ℕ) : Option (List α) :=
  if offset + length ≤ cells.length then some ((cells.drop offset).take length) else none

@[simp] theorem cells_fill (n : ℕ) (x : α) : (fill n x).cells = List.replicate n x := rfl

@[simp] theorem inBounds_fill (n : ℕ) (x : α) : (fill n x).inBounds = true := rfl

@[simp] theorem length_cells_memcpy (buf : Buffer α) (offset : ℕ) (source : List α) :
    (buf.memcpy offset source).cells.length = buf.cells.length := by
  simp only [memcpy, List.length_take, List.length_append, List.length_drop]
  omega

/-- A copy into a buffer already out of bounds does not bring it back. -/
theorem inBounds_memcpy (buf : Buffer α) (offset : ℕ) (source : List α) :
    (buf.memcpy offset source).inBounds = true ↔
      buf.inBounds = true ∧ offset + source.length ≤ buf.cells.length := by
  simp [memcpy]

/-- A copy inside the buffer replaces its range. -/
theorem cells_memcpy (buf : Buffer α) {offset : ℕ} {source : List α}
    (inside : offset + source.length ≤ buf.cells.length) :
    (buf.memcpy offset source).cells =
      buf.cells.take offset ++ source ++ buf.cells.drop (offset + source.length) := by
  refine List.take_of_length_le ?_
  simp only [List.length_append, List.length_take, List.length_drop]
  omega

/-- A copy changes exactly the cells of its range. -/
theorem getElem?_memcpy (buf : Buffer α) (offset : ℕ) (source : List α) {j : ℕ}
    (inside : j < buf.cells.length) :
    (buf.memcpy offset source).cells[j]? =
      if offset ≤ j ∧ j < offset + source.length then source[j - offset]? else buf.cells[j]? := by
  have cut : (buf.cells.take offset).length = min offset buf.cells.length := List.length_take
  rw [memcpy, List.getElem?_take_of_lt inside, List.append_assoc]
  -- In front of the range, inside it, behind it.
  by_cases before : j < offset
  · rw [List.getElem?_append_left (by omega), List.getElem?_take_of_lt before,
      if_neg (by omega)]
  · rw [List.getElem?_append_right (by omega), cut,
      show j - min offset buf.cells.length = j - offset by omega]
    by_cases covered : j < offset + source.length
    · rw [List.getElem?_append_left (by omega), if_pos (by omega)]
    · rw [List.getElem?_append_right (by omega), List.getElem?_drop, if_neg (by omega),
        show offset + source.length + (j - offset - source.length) = j by omega]

/-- Copies at adjacent ranges are one copy. -/
theorem memcpy_memcpy (buf : Buffer α) (offset : ℕ) (first second : List α) :
    (buf.memcpy offset first).memcpy (offset + first.length) second =
      buf.memcpy offset (first ++ second) := by
  ext1
  · apply List.ext_getElem?
    intro j
    by_cases inside : j < buf.cells.length
    · rw [getElem?_memcpy _ _ _ (by rwa [length_cells_memcpy]), getElem?_memcpy _ _ _ inside,
        getElem?_memcpy _ _ _ inside, List.length_append]
      -- Inside the first range, inside the second, elsewhere.
      by_cases left : offset ≤ j ∧ j < offset + first.length
      · rw [if_neg (by omega), if_pos left, if_pos (by omega),
          List.getElem?_append_left (by omega)]
      · by_cases right : offset + first.length ≤ j ∧ j < offset + first.length + second.length
        · rw [if_pos right, if_pos (by omega), List.getElem?_append_right (by omega), Nat.sub_sub]
        · rw [if_neg right, if_neg left, if_neg (by omega)]
    · rw [List.getElem?_eq_none (by simpa using inside),
        List.getElem?_eq_none (by simpa using inside)]
  · rw [Bool.eq_iff_iff]
    simp only [inBounds_memcpy, length_cells_memcpy, List.length_append, and_assoc]
    exact and_congr_right fun _ => by omega

/-- The second of two copies, at an offset known to be the end of the first. -/
theorem memcpy_next (buf : Buffer α) (offset : ℕ) (first second : List α) {k : ℕ}
    (follows : offset + first.length = k) :
    (buf.memcpy offset first).memcpy k second = buf.memcpy offset (first ++ second) :=
  follows ▸ memcpy_memcpy buf offset first second

/-- Filling from the front: what was copied, then the cells not reached. -/
theorem fill_memcpy_zero (n : ℕ) (x : α) (source : List α) :
    (fill n x).memcpy 0 source =
      ⟨source.take n ++ List.replicate (n - source.length) x, decide (source.length ≤ n)⟩ := by
  ext1
  · simp only [memcpy, cells_fill, List.take_zero, List.nil_append, Nat.zero_add,
      List.drop_replicate, List.length_replicate]
    rcases Nat.le_total source.length n with fits | long
    · rw [List.take_of_length_le (by simp; omega), List.take_of_length_le fits]
    · rw [Nat.sub_eq_zero_of_le long, List.replicate_zero, List.append_nil, List.append_nil]
  · simp [memcpy]

theorem inBounds_memcpyObject (buf : Buffer α) (offset : ℕ) (source : List α) (length : ℕ) :
    (buf.memcpyObject offset source length).inBounds = true ↔
      buf.inBounds = true ∧ offset + length ≤ buf.cells.length ∧ length ≤ source.length := by
  simp [memcpyObject, and_assoc]

theorem inBounds_of_memcpy {buf : Buffer α} {offset : ℕ} {source : List α}
    (inside : (buf.memcpy offset source).inBounds = true) : buf.inBounds = true :=
  ((inBounds_memcpy buf offset source).mp inside).1

theorem inBounds_of_memcpyObject {buf : Buffer α} {offset length : ℕ} {source : List α}
    (inside : (buf.memcpyObject offset source length).inBounds = true) : buf.inBounds = true :=
  ((inBounds_memcpyObject buf offset source length).mp inside).1

theorem slice?_eq_some (cells : List α) {offset length : ℕ}
    (inside : offset + length ≤ cells.length) :
    slice? cells offset length = some ((cells.drop offset).take length) := if_pos inside

theorem slice?_eq_none (cells : List α) {offset length : ℕ}
    (outside : cells.length < offset + length) : slice? cells offset length = none :=
  if_neg (Nat.not_le_of_lt outside)

end Buffer
