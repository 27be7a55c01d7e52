/-
# The clear entries of a table

A table of Booleans and the indices of its clear entries, in increasing order.
Setting the entry at an index takes that index off the list and nothing else, so
setting the first one leaves the others. A table that is always set at its first clear entry has
its set entries in front.
-/

import Mathlib.Data.List.Range

namespace ClearEntries

/-- The indices of the clear entries. -/
def clear (table : List Bool) : List ℕ :=
  (List.range table.length).filter fun i => table[i]? = some false

theorem mem_clear {table : List Bool} {i : ℕ} : i ∈ clear table ↔ table[i]? = some false := by
  rw [clear, List.mem_filter, List.mem_range, decide_eq_true_iff]
  constructor
  · exact And.right
  · intro entry
    exact ⟨(List.getElem?_eq_some_iff.mp entry).1, entry⟩

theorem pairwise_clear (table : List Bool) : (clear table).Pairwise (· < ·) :=
  List.pairwise_lt_range.filter _

theorem clear_eq_nil_iff {table : List Bool} :
    clear table = [] ↔ ∀ entry ∈ table, entry = true := by
  rw [List.eq_nil_iff_forall_not_mem]
  constructor
  · intro empty entry listed
    obtain ⟨i, found⟩ := List.getElem?_of_mem listed
    rw [← Bool.not_eq_false]
    rintro rfl
    exact empty i (mem_clear.mpr found)
  · intro all i listed
    exact Bool.false_ne_true (all false (List.mem_of_getElem? (mem_clear.mp listed)))

/-- The first clear entry, with everything in front of it set. -/
theorem exists_clear_eq_cons {table : List Bool} {k : ℕ} (entry : table[k]? = some false)
    (before : ∀ j < k, table[j]? = some true) : ∃ rest, clear table = k :: rest := by
  have listed : k ∈ clear table := mem_clear.mpr entry
  have sorted := pairwise_clear table
  cases first : clear table with
  | nil =>
    rw [first] at listed
    exact absurd listed List.not_mem_nil
  | cons i rest =>
    refine ⟨rest, ?_⟩
    have found : table[i]? = some false := mem_clear.mp (first ▸ List.mem_cons_self)
    rw [first] at listed sorted
    rcases List.mem_cons.mp listed with rfl | later
    · rfl
    · -- Then `i` is clear in front of `k`.
      have early : i < k := List.rel_of_pairwise_cons sorted later
      exact absurd (found.symm.trans (before i early)) (by simp)

/-- Setting an entry takes its index off the list. -/
theorem clear_set (table : List Bool) (k : ℕ) :
    clear (table.set k true) = (clear table).filter (· ≠ k) := by
  rw [clear, clear, List.filter_filter, List.length_set]
  apply List.filter_congr
  intro i inside
  have below : i < table.length := List.mem_range.mp inside
  by_cases here : k = i
  · rw [here, List.getElem?_set_self below]
    simp
  · rw [List.getElem?_set_ne here]
    simp [Ne.symm here]

theorem clear_set_of_cons {table : List Bool} {k : ℕ} {rest : List ℕ}
    (first : clear table = k :: rest) : clear (table.set k true) = rest := by
  have sorted := pairwise_clear table
  rw [first] at sorted
  rw [clear_set, first, List.filter_cons_of_neg (by simp), List.filter_eq_self]
  intro i later
  simpa using (List.rel_of_pairwise_cons sorted later).ne'

/-! ### Set in front -/

/-- The table of `n` entries whose first `k` are set. -/
def setBelow (n k : ℕ) : List Bool := (List.range n).map fun i => decide (i < k)

@[simp] theorem length_setBelow (n k : ℕ) : (setBelow n k).length = n := by
  rw [setBelow, List.length_map, List.length_range]

theorem getElem?_setBelow {n i : ℕ} (k : ℕ) (inside : i < n) :
    (setBelow n k)[i]? = some (decide (i < k)) := by
  rw [setBelow, List.getElem?_map, List.getElem?_range inside, Option.map_some]

theorem setBelow_zero (n : ℕ) : setBelow n 0 = List.replicate n false := by
  simp [setBelow]

/-- Nothing behind the first clear entry has to be set for the front to grow. -/
theorem setBelow_set {k i : ℕ} (n : ℕ) (near : i ≤ k) :
    (setBelow n k).set i true = setBelow n (max k (i + 1)) := by
  apply List.ext_getElem?
  intro j
  by_cases inside : j < n
  · rw [getElem?_setBelow _ inside]
    by_cases same : i = j
    · subst same
      have reached : i < max k (i + 1) := by omega
      rw [List.getElem?_set_self ((length_setBelow n k).symm ▸ inside), decide_eq_true reached]
    · rw [List.getElem?_set_ne same, getElem?_setBelow _ inside, Option.some_inj,
        decide_eq_decide]
      omega
  · have past : n ≤ j := Nat.le_of_not_lt inside
    rw [List.getElem?_eq_none (by simpa using past), List.getElem?_eq_none (by simpa using past)]

end ClearEntries
