/-
# Reading a file through a stream with state bits

An input stream keeps a position and two bits. A read that gets fewer cells than
it asked for sets both bits. Seeking clears the end-of-file bit alone, and while
the failure bit is set neither seeking nor reading has any effect. A stream is
therefore as good as new until its first short read, and of no use after it.
-/

import Mathlib.Data.List.Basic

/-- A stream on a file that does not change. -/
structure InputStream (α : Type*) where
  content : List α
  position : ℕ
  eofbit : Bool
  failbit : Bool
  deriving DecidableEq

namespace InputStream

variable {α : Type*}

/-- A stream just opened, at the start of the file. -/
def ofFile (content : List α) : InputStream α := ⟨content, 0, false, false⟩

/-- Seek to a position from the start of the file. -/
def seekg (stream : InputStream α) (position : ℕ) : InputStream α :=
  if stream.failbit then { stream with eofbit := false }
  else { stream with eofbit := false, position := position }

/-- Read up to `n` cells. Their number is what `gcount` returns. -/
def read (stream : InputStream α) (n : ℕ) : InputStream α × List α :=
  if stream.eofbit || stream.failbit then ({ stream with failbit := true }, [])
  else
    let cells := (stream.content.drop stream.position).take n
    let short := decide (cells.length < n)
    ({ stream with
      position := stream.position + cells.length
      eofbit := short
      failbit := short }, cells)

/-- Seek and read. -/
def readAt (stream : InputStream α) (position n : ℕ) : InputStream α × List α :=
  (stream.seekg position).read n

@[simp] theorem content_readAt (stream : InputStream α) (position n : ℕ) :
    (stream.readAt position n).1.content = stream.content := by
  simp only [readAt, read, seekg]
  split_ifs <;> rfl

/-- Until the first failure a read gets what the file holds at the position. -/
theorem readAt_of_good {stream : InputStream α} (good : stream.failbit = false)
    (position n : ℕ) :
    (stream.readAt position n).2 = (stream.content.drop position).take n ∧
      (stream.readAt position n).1.failbit =
        decide (stream.content.length < position + n ∧ 0 < n) := by
  simp only [readAt, read, seekg, good, Bool.false_eq_true, if_false, Bool.or_self]
  refine ⟨trivial, ?_⟩
  rw [decide_eq_decide, List.length_take, List.length_drop]
  omega

/-- After a failure a read gets nothing, and the failure stays. -/
theorem readAt_of_failed {stream : InputStream α} (failed : stream.failbit = true)
    (position n : ℕ) :
    (stream.readAt position n).2 = [] ∧ (stream.readAt position n).1.failbit = true := by
  simp only [readAt, read, seekg, failed, if_true, Bool.or_true, and_self]

/-- So a read that gets something gets what the file holds at the position. -/
theorem readAt_of_ne_nil {stream : InputStream α} {position n : ℕ}
    (something : (stream.readAt position n).2 ≠ []) :
    (stream.readAt position n).2 = (stream.content.drop position).take n := by
  cases failed : stream.failbit with
  | false => exact (readAt_of_good failed position n).1
  | true => exact absurd (readAt_of_failed failed position n).1 something

end InputStream
