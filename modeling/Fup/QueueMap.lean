/-
# The map of packet queues

A `QueueMap` maps a connection id to a shared pointer to a `PacketQueue`.
Looking up an id that is not there inserts a pointer, and the pointer is null:
no member of the map makes a queue. An operation on the queue of an id works as
on a queue of its own where the map holds one, and the map never comes to hold
one.
-/

import Fup.Lib.QueueFamily
import Fup.Message
import Mathlib.Data.List.Induction
import Mathlib.Logic.Function.Basic

namespace Fup

open QueueFamily

/-! ### Queues -/

/-- The messages behind the pointers of a `PacketQueue`, the oldest first. -/
structure PacketQueue where
  packetQueue : List Message
  deriving DecidableEq

namespace PacketQueue

/-- `PacketQueue::Push`. -/
def push (queue : PacketQueue) (packet : Message) : PacketQueue :=
  ⟨queue.packetQueue ++ [packet]⟩

/-- `PacketQueue::Pop`, and the queue it leaves. -/
def pop (queue : PacketQueue) : Except Failure Message × PacketQueue :=
  match queue.packetQueue with
  | [] => (.error (.exception "Packet queue is empty"), queue)
  | message :: packetQueue => (.ok message, ⟨packetQueue⟩)

/-- `PacketQueue::IsEmpty`. -/
def isEmpty (queue : PacketQueue) : Bool := queue.packetQueue.isEmpty

/-- A pop that throws changes nothing. -/
theorem pop_snd (queue : PacketQueue) : queue.pop.2 = ⟨queue.packetQueue.tail⟩ := by
  rcases queue with ⟨_ | ⟨message, packetQueue⟩⟩ <;> rfl

end PacketQueue

/-! ### The map -/

/-- The entries of the unordered map: no entry, a null pointer, or a queue. -/
structure QueueMap where
  qMap : ConnectionId → Option (Option PacketQueue)

namespace QueueMap

/-- The map of the constructor. -/
def empty : QueueMap := ⟨fun _ => none⟩

/-- `QueueMap::operator[]`. The lookup inserts a null pointer for an id that is
not there. -/
def get (map : QueueMap) (id : ConnectionId) : Option PacketQueue × QueueMap :=
  match map.qMap id with
  | some queue => (queue, map)
  | none => (none, ⟨Function.update map.qMap id (some none)⟩)

/-- `QueueMap::Remove`. -/
def remove (map : QueueMap) (id : ConnectionId) : QueueMap :=
  ⟨Function.update map.qMap id none⟩

/-- The queue behind the pointer of an id is now another. -/
def assign (map : QueueMap) (id : ConnectionId) (queue : PacketQueue) : QueueMap :=
  ⟨Function.update map.qMap id (some (some queue))⟩

/-- Evaluate `queueMap[id]->Push(m)`, `queueMap[id]->Pop()`,
`queueMap[id]->IsEmpty()` or `queueMap.Remove(id)`. -/
def perform (map : QueueMap) :
    Operation ConnectionId Message → Except Failure (Answer Message) × QueueMap
  | .push id packet =>
    match map.get id with
    | (some queue, map) => (.ok .done, map.assign id (queue.push packet))
    | (none, map) => (.error .nullPointer, map)
  | .pop id =>
    match map.get id with
    | (some queue, map) => ((queue.pop).1.map .item, map.assign id (queue.pop).2)
    | (none, map) => (.error .nullPointer, map)
  | .isEmpty id =>
    match map.get id with
    | (some queue, map) => (.ok (.empty queue.isEmpty), map)
    | (none, map) => (.error .nullPointer, map)
  | .remove id => (.ok .done, map.remove id)

/-- The map after some operations. -/
def performAll (map : QueueMap) (ops : List (Operation ConnectionId Message)) : QueueMap :=
  ops.foldl (fun map op => (map.perform op).2) map

/-! ### A family of queues -/

/-- What an operation of the map makes of the answer of a queue. -/
def outcome (answer : Option (Answer Message)) : Except Failure (Answer Message) :=
  match answer with
  | some answer => .ok answer
  | none => .error (.exception "Packet queue is empty")

/-- Every operation of the sequence answers as the queue of its id, which the
operations on that id alone have made from `start`. -/
def IsFamily (map : QueueMap) (start : ConnectionId → List Message)
    (ops : List (Operation ConnectionId Message)) : Prop :=
  ∀ before op, before ++ [op] <+: ops →
    ((map.performAll before).perform op).1 =
      outcome (op.answer (waiting start op.key before))

/-- The queue the map holds for an id. -/
def queue? (map : QueueMap) (id : ConnectionId) : Option PacketQueue := (map.qMap id).join

/-- The messages in the queues the map holds. -/
def contents (map : QueueMap) (id : ConnectionId) : List Message :=
  (map.queue? id).elim [] PacketQueue.packetQueue

/-- Whenever an operation needs the queue of its id, the map held one at first
and has not removed it. -/
def Keeps (map : QueueMap) (ops : List (Operation ConnectionId Message)) : Prop :=
  ∀ before op, before ++ [op] <+: ops → op.removes = false →
    (map.queue? op.key).isSome ∧ ∀ gone ∈ before, gone.removes = true → gone.key ≠ op.key

/-! ### One operation -/

section Perform

variable (map : QueueMap) (id k : ConnectionId)

theorem queue?_update (entry : Option (Option PacketQueue)) :
    queue? ⟨Function.update map.qMap id entry⟩ k =
      if id = k then entry.join else map.queue? k := by
  change (Function.update map.qMap id entry k).join = _
  rw [Function.update_apply, apply_ite Option.join]
  simp only [eq_comm, queue?]

/-- A lookup returns the queue of the id, and what it inserts is none. -/
theorem get_fst : (map.get id).1 = map.queue? id := by
  rw [get, queue?]
  cases map.qMap id <;> rfl

theorem queue?_get : (map.get id).2.queue? k = map.queue? k := by
  rw [get]
  cases entry : map.qMap id with
  | some queue => rfl
  | none =>
    change queue? ⟨Function.update map.qMap id (some none)⟩ k = _
    rw [queue?_update]
    split_ifs with same
    · rw [← same, queue?, entry]
      rfl
    · rfl

theorem queue?_assign (queue : PacketQueue) :
    (map.assign id queue).queue? k = if id = k then some queue else map.queue? k :=
  map.queue?_update id k (some (some queue))

theorem queue?_remove :
    (map.remove id).queue? k = if id = k then none else map.queue? k :=
  map.queue?_update id k none

variable (op : Operation ConnectionId Message)

/-- An operation answers as the queue of its id, when the map holds one. -/
theorem perform_fst :
    (map.perform op).1 = if op.removes then .ok .done else
      match map.queue? op.key with
      | some queue => outcome (op.answer queue.packetQueue)
      | none => .error .nullPointer := by
  cases op with
  | remove id => rfl
  | push id packet =>
    rw [perform, Operation.key, ← get_fst]
    rcases map.get id with ⟨_ | queue, next⟩ <;> rfl
  | isEmpty id =>
    rw [perform, Operation.key, ← get_fst]
    rcases map.get id with ⟨_ | queue, next⟩ <;> rfl
  | pop id =>
    rw [perform, Operation.key, ← get_fst]
    rcases map.get id with ⟨_ | ⟨_ | ⟨message, packetQueue⟩⟩, next⟩ <;> rfl

/-- Where no queue is found, no queue is changed. -/
theorem queue?_of_get_none {next : QueueMap} (found : map.get id = (none, next))
    (change : PacketQueue → PacketQueue) :
    next.queue? k = if id = k then (map.queue? k).map change else map.queue? k := by
  have absent := map.get_fst id
  have looked := map.queue?_get id k
  rw [found] at absent looked
  split_ifs with same
  · rw [looked, ← same, ← absent, Option.map_none]
  · exact looked

/-- Where a queue is found, it alone is changed. -/
theorem queue?_of_get_some {queue : PacketQueue} {next : QueueMap}
    (found : map.get id = (some queue, next)) (change : PacketQueue → PacketQueue) :
    (next.assign id (change queue)).queue? k =
      if id = k then (map.queue? k).map change else map.queue? k := by
  have present := map.get_fst id
  have looked := map.queue?_get id k
  rw [found] at present looked
  rw [queue?_assign]
  split_ifs with same
  · rw [← same, ← present, Option.map_some]
  · exact looked

/-- An operation changes the queue of its id as that queue would, and no other. -/
theorem queue?_perform :
    (map.perform op).2.queue? k = if op.key = k then
        if op.removes then none else (map.queue? k).map fun queue => ⟨op.apply queue.packetQueue⟩
      else map.queue? k := by
  cases op with
  | remove id => exact map.queue?_remove id k
  | push id packet =>
    rw [perform]
    rcases found : map.get id with ⟨_ | queue, next⟩
    · exact map.queue?_of_get_none id k found _
    · exact map.queue?_of_get_some id k found fun queue => queue.push packet
  | isEmpty id =>
    rw [perform]
    rcases found : map.get id with ⟨_ | queue, next⟩
    · exact map.queue?_of_get_none id k found _
    · -- Nothing is assigned, so the queues are those of the lookup.
      have looked := map.queue?_get id k
      rw [found] at looked
      change next.queue? k =
        if id = k then (map.queue? k).map fun queue => queue else map.queue? k
      rw [looked, Option.map_id', ite_self]
  | pop id =>
    rw [perform]
    rcases found : map.get id with ⟨_ | queue, next⟩
    · exact map.queue?_of_get_none id k found _
    -- What `Pop` leaves is the tail, also of an empty queue.
    · have assigned :=
        map.queue?_of_get_some id k found fun queue => ⟨queue.packetQueue.tail⟩
      rw [← PacketQueue.pop_snd] at assigned
      exact assigned

end Perform

/-! ### A sequence of operations -/

section Sequence

variable (map : QueueMap) (ops : List (Operation ConnectionId Message))

theorem performAll_snoc (op : Operation ConnectionId Message) :
    map.performAll (ops ++ [op]) = ((map.performAll ops).perform op).2 := by
  rw [performAll, List.foldl_append]
  rfl

/-- A queue that no operation removes holds the messages waiting for its id, and
a queue that one removes does not come back. -/
theorem queue?_performAll (k : ConnectionId) :
    (map.performAll ops).queue? k =
      if ∃ gone ∈ ops, gone.removes = true ∧ gone.key = k then none
      else (map.queue? k).map fun _ => ⟨waiting map.contents k ops⟩ := by
  induction ops using List.reverseRecOn with
  | nil =>
    simp only [List.not_mem_nil, false_and, exists_false, if_false, waiting_nil, contents]
    change map.queue? k = _
    cases map.queue? k <;> rfl
  | append_singleton ops op ih =>
    rw [performAll_snoc, queue?_perform, ih, waiting_snoc]
    simp only [List.mem_append, List.mem_singleton, or_and_right, exists_or, exists_eq_left]
    -- Once removed, the queue is gone for good.
    by_cases removed : ∃ gone ∈ ops, gone.removes = true ∧ gone.key = k
    · simp only [if_pos removed, if_pos (Or.inl removed), Option.map_none, ite_self]
    · simp only [removed, false_or, if_false]
      by_cases here : op.key = k
      · simp only [here, and_true, if_true, Option.map_map]
        rfl
      · simp only [here, and_false, if_false]

theorem outcome_ne_nullPointer (answer : Option (Answer Message)) :
    outcome answer ≠ .error .nullPointer := by
  cases answer <;> simp [outcome]

/-- An operation answers as the queue of its id exactly when it needs none or
there is still one. -/
theorem answers_iff (op : Operation ConnectionId Message) :
    ((map.performAll ops).perform op).1 =
        outcome (op.answer (waiting map.contents op.key ops)) ↔
      (op.removes = false → (map.queue? op.key).isSome ∧
        ∀ gone ∈ ops, gone.removes = true → gone.key ≠ op.key) := by
  rw [perform_fst, queue?_performAll]
  cases removes : op.removes with
  | true =>
    rw [if_pos rfl, Operation.answer_of_removes removes]
    exact iff_of_true rfl fun clear => absurd clear (by decide)
  | false =>
    rw [if_neg Bool.false_ne_true]
    by_cases removed : ∃ gone ∈ ops, gone.removes = true ∧ gone.key = op.key
    · -- The id was removed, and what the lookup returns is null.
      rw [if_pos removed]
      obtain ⟨gone, listed, clears, same⟩ := removed
      refine iff_of_false (outcome_ne_nullPointer _).symm fun kept => ?_
      exact (kept rfl).2 gone listed clears same
    · rw [if_neg removed]
      -- A queue that was there at first and never removed is still there.
      have untouched : ∀ gone ∈ ops, gone.removes = true → gone.key ≠ op.key :=
        fun gone listed clears same => removed ⟨gone, listed, clears, same⟩
      cases held : map.queue? op.key with
      | none =>
        refine iff_of_false (outcome_ne_nullPointer _).symm fun kept => ?_
        exact absurd (kept rfl).1 (by decide)
      | some queue => exact iff_of_true rfl fun _ => ⟨rfl, untouched⟩

/-- The map works as a family of queues, started with what it holds, exactly
when it keeps a queue for every id that needs one. -/
theorem isFamily_iff : map.IsFamily map.contents ops ↔ map.Keeps ops := by
  simp only [IsFamily, Keeps, answers_iff]

end Sequence

/-- A map just constructed holds no queue, so it is a family of queues for the
sequences that need none. -/
theorem isFamily_empty_iff (ops : List (Operation ConnectionId Message)) :
    empty.IsFamily (fun _ => []) ops ↔ ∀ op ∈ ops, op.removes = true := by
  have held : empty.contents = fun _ => [] := rfl
  rw [← held, isFamily_iff]
  constructor
  · intro keeps op listed
    obtain ⟨before, after, rfl⟩ := List.append_of_mem listed
    rw [← Bool.not_eq_false]
    intro needs
    have part : before ++ [op] <+: before ++ op :: after := ⟨after, by simp⟩
    exact absurd (keeps before op part needs).1 Bool.false_ne_true
  · intro removing before op part needs
    have listed : op ∈ ops := part.subset (List.mem_append_right _ (List.mem_singleton_self op))
    exact absurd (removing op listed) (by simp [needs])

/-- The first push for an id goes through the null pointer. -/
theorem not_isFamily_push :
    ¬ empty.IsFamily (fun _ => []) [.push 1 ⟨⟨1, 1, .ack, 0⟩, some .base⟩] := by
  intro family
  exact absurd (family [] _ List.prefix_rfl) (by decide)

end QueueMap

end Fup
