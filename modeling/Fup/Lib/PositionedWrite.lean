/-
# Positioned writes to a growing file

A write at a position beyond the end of a file fills the gap with a blank cell,
and a write of nothing does not move the end. Reading past the end as blank
makes the gap invisible: after a write, the cells it covers are its data and
every other cell is what it was.

Pieces that agree wherever they overlap can be written in any order and any
number of times. Every cell of the result, and its length, is determined by the
set of pieces.
-/

import Mathlib.Data.List.Basic
import Mathlib.Order.Lattice

/-- Data for one position of a file. -/
@[ext] structure Piece (α : Type*) where
  /-- Where the data starts. -/
  offset : ℕ
  /-- The cells to write there. -/
  data : List α
  deriving DecidableEq, Repr

namespace Piece

variable {α : Type*} (blank : α)

/-- The cell `j` of a file, blank past its end. -/
def cellAt (cells : List α) (j : ℕ) : α := cells[j]?.getD blank

/-- The cells of a range of the file that the piece provides. -/
def Covers (p : Piece α) (j : ℕ) : Prop := p.offset ≤ j ∧ j < p.offset + p.data.length

instance (p : Piece α) (j : ℕ) : Decidable (p.Covers j) :=
  inferInstanceAs (Decidable (_ ∧ _))

/-- The cell the piece provides at position `j` of the file. -/
def cell (p : Piece α) (j : ℕ) : α := cellAt blank p.data (j - p.offset)

/-- Seek to the piece's position and write its data. -/
def write (cells : List α) (p : Piece α) : List α :=
  if p.data.isEmpty then cells
  else (cells ++ List.replicate (p.offset - cells.length) blank).take p.offset ++ p.data ++
    cells.drop (p.offset + p.data.length)

/-- Write pieces in order. -/
def writeAll (cells : List α) (pieces : List (Piece α)) : List α :=
  pieces.foldl (write blank) cells

/-- Pieces that provide the same cell wherever two of them overlap. -/
def Agreeing (pieces : List (Piece α)) : Prop :=
  ∀ p ∈ pieces, ∀ q ∈ pieces, ∀ j, p.Covers j → q.Covers j → p.cell blank j = q.cell blank j

@[simp] theorem writeAll_nil (cells : List α) : writeAll blank cells [] = cells := rfl

@[simp] theorem writeAll_cons (cells : List α) (p : Piece α) (pieces : List (Piece α)) :
    writeAll blank cells (p :: pieces) = writeAll blank (write blank cells p) pieces := rfl

/-! ### One write -/

theorem cellAt_of_length_le {cells : List α} {j : ℕ} (past : cells.length ≤ j) :
    cellAt blank cells j = blank := by
  rw [cellAt, List.getElem?_eq_none past, Option.getD_none]

theorem cellAt_of_lt {cells : List α} {j : ℕ} (inside : j < cells.length) :
    cellAt blank cells j = cells[j] := by
  rw [cellAt, List.getElem?_eq_getElem inside, Option.getD_some]

/-- Files of one length with the same cells are equal. -/
theorem ext_cellAt {first second : List α} (size : first.length = second.length)
    (same : ∀ j < first.length, cellAt blank first j = cellAt blank second j) :
    first = second := by
  refine List.ext_getElem size fun j left right => ?_
  have cell := same j left
  rwa [cellAt_of_lt blank left, cellAt_of_lt blank right] at cell

theorem length_write (cells : List α) (p : Piece α) :
    (write blank cells p).length =
      if p.data = [] then cells.length else max cells.length (p.offset + p.data.length) := by
  by_cases nothing : p.data = []
  · rw [write, if_pos (by simpa using nothing), if_pos nothing]
  · rw [write, if_neg (by simpa using nothing), if_neg nothing]
    simp only [List.length_append, List.length_take, List.length_replicate, List.length_drop]
    omega

/-- The cells in front of the written data: the old ones, then the filled gap. -/
private theorem cellAt_front (cells : List α) {offset j : ℕ} (before : j < offset) :
    ((cells ++ List.replicate (offset - cells.length) blank).take offset)[j]?.getD blank =
      cellAt blank cells j := by
  rw [List.getElem?_take_of_lt before]
  by_cases old : j < cells.length
  · rw [List.getElem?_append_left old, cellAt]
  · rw [List.getElem?_append_right (by omega), List.getElem?_replicate, if_pos (by omega),
      Option.getD_some, cellAt_of_length_le blank (by omega)]

/-- After a write the covered cells are the data and the others are unchanged. -/
theorem cellAt_write (cells : List α) (p : Piece α) (j : ℕ) :
    cellAt blank (write blank cells p) j =
      if p.Covers j then p.cell blank j else cellAt blank cells j := by
  by_cases nothing : p.data = []
  · have uncovered : ¬ p.Covers j := by simp [Covers, nothing]
    rw [write, if_pos (by simpa using nothing), if_neg uncovered]
  · have front : ((cells ++ List.replicate (p.offset - cells.length) blank).take p.offset).length =
        p.offset := by
      simp only [List.length_take, List.length_append, List.length_replicate]
      omega
    rw [write, if_neg (by simpa using nothing), cellAt, List.append_assoc]
    -- In front of the data, inside it, behind it.
    by_cases before : j < p.offset
    · rw [List.getElem?_append_left (by omega), cellAt_front blank cells before,
        if_neg fun covers => by have := covers.1; omega]
    · rw [List.getElem?_append_right (by omega), front]
      by_cases covers : p.Covers j
      · have inside := covers.2
        rw [List.getElem?_append_left (by omega), if_pos covers, cell, cellAt]
      · have after : p.offset + p.data.length ≤ j := by
          unfold Covers at covers
          omega
        rw [List.getElem?_append_right (by omega), List.getElem?_drop, if_neg covers,
          show p.offset + p.data.length + (j - p.offset - p.data.length) = j by omega, cellAt]

/-! ### Many writes -/

/-- A position is inside the result when it was inside before or in front of
the end of some piece that provides anything. -/
theorem lt_length_writeAll (cells : List α) (pieces : List (Piece α)) (n : ℕ) :
    n < (writeAll blank cells pieces).length ↔
      n < cells.length ∨ ∃ p ∈ pieces, p.data ≠ [] ∧ n < p.offset + p.data.length := by
  induction pieces generalizing cells with
  | nil => simp
  | cons p pieces ih =>
    rw [writeAll_cons, ih, length_write]
    by_cases nothing : p.data = []
    · simp [nothing]
    · simp [nothing, or_assoc]

/-- Cells that no piece covers keep what they held. -/
theorem cellAt_writeAll_of_uncovered (cells : List α) (pieces : List (Piece α)) {j : ℕ}
    (uncovered : ∀ p ∈ pieces, ¬ p.Covers j) :
    cellAt blank (writeAll blank cells pieces) j = cellAt blank cells j := by
  induction pieces generalizing cells with
  | nil => rfl
  | cons p pieces ih =>
    rw [writeAll_cons, ih _ fun q listed => uncovered q (List.mem_cons_of_mem p listed),
      cellAt_write, if_neg (uncovered p List.mem_cons_self)]

/-- A covered cell ends as the last piece that covers it has it. -/
theorem exists_cell_writeAll (cells : List α) {pieces : List (Piece α)} {j : ℕ}
    (covered : ∃ p ∈ pieces, p.Covers j) :
    ∃ p ∈ pieces, p.Covers j ∧ cellAt blank (writeAll blank cells pieces) j = p.cell blank j := by
  induction pieces generalizing cells with
  | nil =>
    obtain ⟨p, listed, -⟩ := covered
    exact absurd listed List.not_mem_nil
  | cons q pieces ih =>
    rw [writeAll_cons]
    by_cases later : ∃ r ∈ pieces, r.Covers j
    · obtain ⟨p, inside, covers, cell⟩ := ih (write blank cells q) later
      exact ⟨p, List.mem_cons_of_mem q inside, covers, cell⟩
    · have uncovered : ∀ r ∈ pieces, ¬ r.Covers j := fun r inside covers =>
        later ⟨r, inside, covers⟩
      -- Nobody writes behind the first piece, so that is the one.
      obtain ⟨p, listed, covers⟩ := covered
      obtain rfl : p = q :=
        (List.mem_cons.mp listed).resolve_right fun inside => uncovered p inside covers
      refine ⟨p, List.mem_cons_self, covers, ?_⟩
      rw [cellAt_writeAll_of_uncovered blank _ pieces uncovered, cellAt_write, if_pos covers]

/-- A covered cell ends as any agreeing piece that covers it has it. -/
theorem cellAt_writeAll_of_covers (cells : List α) {pieces : List (Piece α)}
    (agreeing : Agreeing blank pieces) {p : Piece α} (listed : p ∈ pieces) {j : ℕ}
    (covers : p.Covers j) : cellAt blank (writeAll blank cells pieces) j = p.cell blank j := by
  obtain ⟨q, inside, covered, cell⟩ := exists_cell_writeAll blank cells ⟨p, listed, covers⟩
  rw [cell]
  exact agreeing q inside p listed j covered covers

/-- The set of agreeing pieces determines the file: neither their order nor
their number of occurrences matters. -/
theorem writeAll_eq_of_mem_iff (cells : List α) {first second : List (Piece α)}
    (agreeing : Agreeing blank first) (same : ∀ p, p ∈ first ↔ p ∈ second) :
    writeAll blank cells first = writeAll blank cells second := by
  have agreeing' : Agreeing blank second := fun p hp q hq =>
    agreeing p ((same p).mpr hp) q ((same q).mpr hq)
  -- Both end where the farthest piece ends.
  have size (n : ℕ) :
      n < (writeAll blank cells first).length ↔ n < (writeAll blank cells second).length := by
    simp only [lt_length_writeAll, same]
  refine ext_cellAt blank (eq_of_forall_lt_iff size) fun j _ => ?_
  by_cases covered : ∃ p ∈ first, p.Covers j
  · obtain ⟨p, listed, covers⟩ := covered
    rw [cellAt_writeAll_of_covers blank cells agreeing listed covers,
      cellAt_writeAll_of_covers blank cells agreeing' ((same p).mp listed) covers]
  · have uncovered : ∀ p ∈ first, ¬ p.Covers j := fun p listed covers =>
      covered ⟨p, listed, covers⟩
    rw [cellAt_writeAll_of_uncovered blank cells first uncovered,
      cellAt_writeAll_of_uncovered blank cells second fun p listed =>
        uncovered p ((same p).mpr listed)]

/-! ### Pieces of one file -/

/-- The piece repeats what a file holds at its position. -/
def PartOf (content : List α) (p : Piece α) : Prop :=
  ∀ j, p.Covers j → p.cell blank j = cellAt blank content j

theorem agreeing_of_partOf {content : List α} {pieces : List (Piece α)}
    (parts : ∀ p ∈ pieces, p.PartOf blank content) : Agreeing blank pieces := by
  intro p pListed q qListed j pCovers qCovers
  rw [parts p pListed j pCovers, parts q qListed j qCovers]

/-- Parts of a file rebuild it exactly when they end where it ends and hold
everything in it that is not blank. -/
theorem writeAll_nil_eq_iff {content : List α} {pieces : List (Piece α)}
    (parts : ∀ p ∈ pieces, p.PartOf blank content) :
    writeAll blank [] pieces = content ↔
      (writeAll blank [] pieces).length = content.length ∧
        ∀ j < content.length, (∀ p ∈ pieces, ¬ p.Covers j) → cellAt blank content j = blank := by
  constructor
  · intro rebuilt
    refine ⟨congrArg List.length rebuilt, ?_⟩
    intro j _ uncovered
    -- Nobody has written there, so the output is blank.
    have cell := cellAt_writeAll_of_uncovered blank [] pieces uncovered
    rw [rebuilt] at cell
    rw [cell, cellAt_of_length_le blank (Nat.zero_le j)]
  · rintro ⟨size, blanks⟩
    apply ext_cellAt blank size
    intro j inside
    -- A covered cell is as in the file, another one is blank in both.
    by_cases covered : ∃ p ∈ pieces, p.Covers j
    · obtain ⟨p, listed, covers⟩ := covered
      rw [cellAt_writeAll_of_covers blank [] (agreeing_of_partOf blank parts) listed covers,
        parts p listed j covers]
    · have uncovered : ∀ p ∈ pieces, ¬ p.Covers j := fun p listed covers =>
        covered ⟨p, listed, covers⟩
      rw [cellAt_writeAll_of_uncovered blank [] pieces uncovered,
        blanks j (size ▸ inside) uncovered, cellAt_of_length_le blank (Nat.zero_le j)]

end Piece
