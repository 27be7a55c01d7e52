/-
# Families of queues

One queue for each key. The queue of a key is what the operations on that key
leave of its first contents, so operations on other keys do not enter into it.
An answer is that of the queue of the key at the time of the operation.
-/

import Mathlib.Data.List.Basic

namespace QueueFamily

/-- An operation on the queue of one key. -/
inductive Operation (κ α : Type*)
  | push (key : κ) (item : α)
  | pop (key : κ)
  | isEmpty (key : κ)
  /-- Give the queue up. The key starts over with an empty one. -/
  | remove (key : κ)

/-- What an operation returns when it succeeds. -/
inductive Answer (α : Type*)
  | done
  | item (item : α)
  | empty (empty : Bool)
  deriving DecidableEq

variable {κ α : Type*}

namespace Operation

def key : Operation κ α → κ
  | push key _ => key
  | pop key => key
  | isEmpty key => key
  | remove key => key

/-- The operation gives its queue up. -/
def removes : Operation κ α → Bool
  | remove _ => true
  | _ => false

/-- The queue of the key after the operation. -/
def apply (items : List α) : Operation κ α → List α
  | push _ item => items ++ [item]
  | pop _ => items.tail
  | isEmpty _ => items
  | remove _ => []

/-- The answer, `none` when there is nothing to pop. -/
def answer (items : List α) : Operation κ α → Option (Answer α)
  | push _ _ => some .done
  | pop _ => items.head?.map .item
  | isEmpty _ => some (.empty items.isEmpty)
  | remove _ => some .done

theorem answer_of_removes {op : Operation κ α} (gone : op.removes = true) (items : List α) :
    op.answer items = some .done := by
  cases op with
  | remove key => rfl
  | _ => cases gone

end Operation

variable [DecidableEq κ] (start : κ → List α) (k : κ)

/-- The queue of a key after some operations: the items pushed since the key was
last removed and not popped since, the oldest first. -/
def waiting (ops : List (Operation κ α)) : List α :=
  (ops.filter fun op => op.key = k).foldl Operation.apply (start k)

@[simp] theorem waiting_nil : waiting start k [] = start k := rfl

theorem waiting_snoc (ops : List (Operation κ α)) (op : Operation κ α) :
    waiting start k (ops ++ [op]) =
      if op.key = k then op.apply (waiting start k ops) else waiting start k ops := by
  rw [waiting, List.filter_append, List.foldl_append]
  by_cases same : op.key = k
  · rw [if_pos same, List.filter_singleton, decide_eq_true same]
    rfl
  · rw [if_neg same, List.filter_singleton, decide_eq_false same]
    rfl

end QueueFamily
