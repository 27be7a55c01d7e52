/-
# Step systems and their runs

A step system is a partial step function over labels. The label says who moves
and what the environment answers, so every interleaving and every outcome is a
list of labels, and executing a list is a computation.

Two rules carry the developments over such systems. An invariant of the steps
that meet a guard holds at the end of every run whose steps all meet it. When
moreover a step outside the guard leaves the property at once, the runs that
keep the property in every state are exactly the runs within the guard.

A system simulates another one when each of its labels makes a step of the other
or leaves it alone, and a relation between their states is kept. A system that
contains another one projects to it in this way. Properties and guards of the
projected runs are those of the runs themselves.
-/

import Mathlib.Data.List.Basic
import Mathlib.Data.List.Infix
import Mathlib.Logic.Basic

/-- A partial step function over labels, with its initial states. -/
structure StepSystem (σ : Type*) (α : Type*) where
  /-- Where runs may start. -/
  init : σ → Prop
  /-- The state after one labelled step, `none` when the label is not enabled. -/
  step : σ → α → Option σ

namespace StepSystem

variable {σ α τ β : Type*} (M : StepSystem σ α)

/-- The state after executing every label of a run, in order. -/
def exec : σ → List α → Option σ
  | s, [] => some s
  | s, a :: as => (M.step s a).bind fun t => exec t as

@[simp] theorem exec_nil (s : σ) : M.exec s [] = some s := rfl

@[simp] theorem exec_cons (s : σ) (a : α) (as : List α) :
    M.exec s (a :: as) = (M.step s a).bind fun t => M.exec t as := rfl

theorem exec_append (s : σ) (as bs : List α) :
    M.exec s (as ++ bs) = (M.exec s as).bind fun t => M.exec t bs := by
  induction as generalizing s with
  | nil => rfl
  | cons a as ih =>
    simp only [List.cons_append, exec_cons, Option.bind_assoc, ih]

variable {M}

theorem exec_append_eq_some {s u : σ} {as bs : List α} :
    M.exec s (as ++ bs) = some u ↔ ∃ t, M.exec s as = some t ∧ M.exec t bs = some u := by
  rw [exec_append, Option.bind_eq_some_iff]

theorem exec_snoc_eq_some {s u : σ} {as : List α} {a : α} :
    M.exec s (as ++ [a]) = some u ↔ ∃ t, M.exec s as = some t ∧ M.step t a = some u := by
  rw [exec_append_eq_some]
  simp only [exec_cons, exec_nil, Option.bind_fun_some]

/-- What holds of the empty run and of every run with one step more holds of a
run and the state it ends in. -/
theorem exec_induction {holds : List α → σ → Prop} {s t : σ} {as : List α} (start : holds [] s)
    (preserved : ∀ as t a u, M.exec s as = some t → holds as t → M.step t a = some u →
      holds (as ++ [a]) u)
    (run : M.exec s as = some t) : holds as t := by
  induction as using List.reverseRecOn generalizing t with
  | nil =>
    rw [exec_nil, Option.some_inj] at run
    exact run ▸ start
  | append_singleton as a ih =>
    obtain ⟨r, before, moved⟩ := exec_snoc_eq_some.mp run
    exact preserved as r a t before (ih before) moved

variable (M) in
/-- States reached by some run from an initial state. -/
def Reachable (t : σ) : Prop :=
  ∃ s as, M.init s ∧ M.exec s as = some t

theorem Reachable.step {t u : σ} {a : α} (reached : M.Reachable t)
    (moved : M.step t a = some u) : M.Reachable u := by
  obtain ⟨s, as, started, run⟩ := reached
  exact ⟨s, as ++ [a], started, exec_snoc_eq_some.mpr ⟨t, run, moved⟩⟩

theorem Reachable.exec {t u : σ} {as : List α} (reached : M.Reachable t)
    (run : M.exec t as = some u) : M.Reachable u := by
  obtain ⟨s, before, started, came⟩ := reached
  exact ⟨s, before ++ as, started, exec_append_eq_some.mpr ⟨t, came, run⟩⟩

variable (M) in
/-- The property holds in every state the run passes through, both ends included. -/
def Throughout (property : σ → Prop) (s : σ) (as : List α) : Prop :=
  ∀ bs, bs <+: as → ∀ t, M.exec s bs = some t → property t

variable (M) in
/-- Every step the run takes meets the guard in the state it is taken from. -/
def Within (guard : σ → α → Prop) (s : σ) (as : List α) : Prop :=
  ∀ bs a, bs ++ [a] <+: as → ∀ t, M.exec s bs = some t → guard t a

theorem Within.of_isPrefix {guard : σ → α → Prop} {s : σ} {as bs : List α}
    (within : M.Within guard s as) (part : bs <+: as) : M.Within guard s bs :=
  fun cs a before => within cs a (before.trans part)

theorem Within.last {guard : σ → α → Prop} {s t : σ} {as : List α} {a : α}
    (within : M.Within guard s (as ++ [a])) (run : M.exec s as = some t) : guard t a :=
  within as a List.prefix_rfl t run

theorem Within.snoc {guard : σ → α → Prop} {s t : σ} {as : List α} {a : α}
    (within : M.Within guard s as) (run : M.exec s as = some t) (last : guard t a) :
    M.Within guard s (as ++ [a]) := by
  intro bs b part r reached
  rcases List.prefix_concat_iff.mp part with whole | part
  · obtain ⟨rfl, same⟩ := List.append_inj' whole rfl
    obtain rfl := List.singleton_inj.mp same
    rw [run, Option.some_inj] at reached
    exact reached ▸ last
  · exact within bs b part r reached

theorem within_nil {guard : σ → α → Prop} {s : σ} : M.Within guard s [] :=
  fun bs a part => absurd (List.prefix_nil.mp part) (List.concat_ne_nil a bs)

/-- The first step meets the guard, and so do those behind it. -/
theorem within_cons_iff {guard : σ → α → Prop} {s : σ} {a : α} {as : List α} :
    M.Within guard s (a :: as) ↔ guard s a ∧ ∀ t ∈ M.step s a, M.Within guard t as := by
  constructor
  · intro within
    refine ⟨within [] a ⟨as, rfl⟩ s rfl, fun t moved bs b part r reached => ?_⟩
    refine within (a :: bs) b ((List.prefix_cons_inj a).mpr part) r ?_
    rw [exec_cons, moved, Option.bind_some]
    exact reached
  · rintro ⟨first, later⟩ bs b part r reached
    cases bs with
    | nil =>
      obtain rfl := (List.cons_prefix_cons.mp part).1
      exact Option.some.inj reached ▸ first
    | cons c bs =>
      obtain ⟨rfl, rest⟩ := List.cons_prefix_cons.mp part
      obtain ⟨t, moved, reached⟩ := Option.bind_eq_some_iff.mp reached
      exact later t moved bs b rest r reached

/-- A guard that can be evaluated can be evaluated along a run. -/
instance decidableWithin {guard : σ → α → Prop} [∀ s a, Decidable (guard s a)] (s : σ) :
    (as : List α) → Decidable (M.Within guard s as)
  | [] => isTrue within_nil
  | a :: as =>
    have (t : σ) : Decidable (M.Within guard t as) := decidableWithin t as
    decidable_of_iff (guard s a ∧ ∀ t ∈ M.step s a, M.Within guard t as) within_cons_iff.symm

/-- A guard on the labels alone is a condition on every label of the run. -/
theorem within_label_iff {accepts : α → Prop} {s t : σ} {as : List α}
    (run : M.exec s as = some t) :
    M.Within (fun _ a => accepts a) s as ↔ ∀ a ∈ as, accepts a := by
  constructor
  · intro within a listed
    obtain ⟨bs, cs, rfl⟩ := List.append_of_mem listed
    obtain ⟨r, before, -⟩ := exec_append_eq_some.mp run
    have part : bs ++ [a] <+: bs ++ a :: cs := ⟨cs, by rw [List.append_assoc]; rfl⟩
    exact within bs a part r before
  · intro each bs a part _ _
    exact each a (part.subset (List.mem_append_right bs (List.mem_singleton_self a)))

section InvariantRules

variable {guard : σ → α → Prop} {holds property : σ → Prop}

/-- A property that every guarded step preserves holds at the end of every
guarded run. -/
theorem invariant_of_within {s t : σ} {as : List α} (start : holds s)
    (preserved : ∀ t a u, holds t → guard t a → M.step t a = some u → holds u)
    (within : M.Within guard s as) (run : M.exec s as = some t) : holds t := by
  induction as using List.reverseRecOn generalizing t with
  | nil =>
    rw [exec_nil, Option.some_inj] at run
    exact run ▸ start
  | append_singleton as a ih =>
    obtain ⟨r, before, moved⟩ := exec_snoc_eq_some.mp run
    exact preserved r a t (ih (within.of_isPrefix (List.prefix_append as [a])) before)
      (within.last before) moved

/-- A property that every step preserves holds at the end of every run. -/
theorem exec_invariant {s t : σ} {as : List α} (start : holds s)
    (preserved : ∀ t a u, holds t → M.step t a = some u → holds u)
    (run : M.exec s as = some t) : holds t :=
  invariant_of_within start (fun t a u before _ moved => preserved t a u before moved)
    (fun _ _ _ _ _ => trivial) run

/-- An invariant holds in every reachable state. -/
theorem Reachable.invariant {t : σ} (reached : M.Reachable t)
    (start : ∀ s, M.init s → holds s)
    (preserved : ∀ t a u, holds t → M.step t a = some u → holds u) : holds t := by
  obtain ⟨s, as, started, run⟩ := reached
  exact exec_invariant (start s started) preserved run

/-- An invariant whose steps may use that their state is reachable. -/
theorem Reachable.induction {t : σ} (reached : M.Reachable t)
    (start : ∀ s, M.init s → holds s)
    (preserved : ∀ t a u, M.Reachable t → holds t → M.step t a = some u → holds u) :
    holds t := by
  have both : M.Reachable t ∧ holds t := by
    have begins (s : σ) (started : M.init s) : M.Reachable s ∧ holds s :=
      ⟨⟨s, [], started, rfl⟩, start s started⟩
    have goes (t : σ) (a : α) (u : σ) (kept : M.Reachable t ∧ holds t)
        (moved : M.step t a = some u) : M.Reachable u ∧ holds u :=
      ⟨kept.1.step moved, preserved t a u kept.1 kept.2 moved⟩
    exact reached.invariant begins goes
  exact both.2

/-- A view of the state that each step moves in another system or leaves alone is
reachable there. -/
theorem Reachable.map {N : StepSystem τ β} {view : σ → τ} {t : σ} (reached : M.Reachable t)
    (init : ∀ s, M.init s → N.init (view s))
    (follows : ∀ s a t, M.step s a = some t →
      view t = view s ∨ ∃ b, N.step (view s) b = some (view t)) : N.Reachable (view t) := by
  obtain ⟨s, as, started, run⟩ := reached
  induction as using List.reverseRecOn generalizing t with
  | nil =>
    rw [exec_nil, Option.some_inj] at run
    exact run ▸ ⟨view s, [], init s started, rfl⟩
  | append_singleton as a ih =>
    obtain ⟨r, before, moved⟩ := exec_snoc_eq_some.mp run
    rcases follows r a t moved with same | ⟨b, moved⟩
    · exact same ▸ ih before
    · exact (ih before).step moved

/-- A guarded run keeps the invariant in every state it passes through. -/
theorem Throughout.of_within {s : σ} {as : List α} (start : holds s)
    (preserved : ∀ t a u, holds t → guard t a → M.step t a = some u → holds u)
    (within : M.Within guard s as) : M.Throughout holds s as :=
  fun _ part _ run => invariant_of_within start preserved (within.of_isPrefix part) run

/-- On runs with an assumption about their steps: when a step outside the guard
leaves the property at once, such a run keeps the property in every state exactly
when it stays within the guard. -/
theorem throughout_iff_within_assuming {assumes : σ → α → Prop} {s t : σ} {as : List α}
    (start : holds s)
    (preserved : ∀ t a u, holds t → assumes t a → guard t a → M.step t a = some u → holds u)
    (sound : ∀ t, holds t → property t)
    (exact_guard : ∀ t a u, holds t → assumes t a → ¬ guard t a → M.step t a = some u →
      ¬ property u)
    (assumed : M.Within assumes s as) (run : M.exec s as = some t) :
    M.Throughout property s as ↔ M.Within guard s as := by
  -- The guard within the assumption preserves the invariant.
  have keeps {bs : List α} {u : σ} (assumed : M.Within assumes s bs)
      (within : M.Within guard s bs) (run : M.exec s bs = some u) : holds u := by
    have both : M.Within (fun t a => assumes t a ∧ guard t a) s bs :=
      fun cs a part r reached => ⟨assumed cs a part r reached, within cs a part r reached⟩
    exact invariant_of_within start
      (fun t a u before both moved => preserved t a u before both.1 both.2 moved) both run
  constructor
  · intro throughout
    induction as using List.reverseRecOn generalizing t with
    | nil => exact within_nil
    | append_singleton as a ih =>
      obtain ⟨r, before, moved⟩ := exec_snoc_eq_some.mp run
      have earlier := assumed.of_isPrefix (List.prefix_append as [a])
      -- Up to the last step the run keeps the property, so it is within the guard.
      have within := ih earlier before fun bs part =>
        throughout bs (part.trans (List.prefix_append as [a]))
      refine within.snoc before ?_
      -- Leaving the guard in the last step would have left the property.
      by_contra outside
      exact exact_guard r a t (keeps earlier within before) (assumed.last before) outside moved
        (throughout _ List.prefix_rfl t run)
  · intro within bs part u reached
    exact sound u (keeps (assumed.of_isPrefix part) (within.of_isPrefix part) reached)

/-- When a step outside the guard leaves the property at once, a run keeps the
property in every state exactly when it stays within the guard. -/
theorem throughout_iff_within {s t : σ} {as : List α} (start : holds s)
    (preserved : ∀ t a u, holds t → guard t a → M.step t a = some u → holds u)
    (sound : ∀ t, holds t → property t)
    (exact_guard : ∀ t a u, holds t → ¬ guard t a → M.step t a = some u → ¬ property u)
    (run : M.exec s as = some t) :
    M.Throughout property s as ↔ M.Within guard s as :=
  have assumed : M.Within (fun _ _ => True) s as := fun _ _ _ _ _ => trivial
  throughout_iff_within_assuming start
    (fun t a u before _ within moved => preserved t a u before within moved) sound
    (fun t a u before _ outside moved => exact_guard t a u before outside moved) assumed run

end InvariantRules

/-! ### Ranks -/

/-- A rank that no step raises and every step of a kind lowers bounds how many steps
of the kind a run takes. -/
theorem countP_add_rank_le {holds : σ → Prop} {kind : α → Bool} {rank : σ → ℕ} {s t : σ}
    {as : List α} (start : holds s)
    (preserved : ∀ t a u, holds t → M.step t a = some u → holds u)
    (falls : ∀ t a u, holds t → M.step t a = some u →
      (if kind a then 1 else 0) + rank u ≤ rank t)
    (run : M.exec s as = some t) : as.countP kind + rank t ≤ rank s := by
  induction as generalizing s with
  | nil =>
    rw [exec_nil, Option.some_inj] at run
    rw [run, List.countP_nil, Nat.zero_add]
  | cons a as ih =>
    obtain ⟨r, moved, rest⟩ := Option.bind_eq_some_iff.mp run
    have first := falls s a r start moved
    have later := ih (preserved s a r start moved) rest
    rw [List.countP_cons]
    omega

/-! ### Simulations -/

/-- A relation under which one system follows another: each of its labels makes a
step of the other or leaves it alone. -/
structure Simulation (M : StepSystem σ α) (N : StepSystem τ β) where
  Related : σ → τ → Prop
  label : α → Option β
  init : ∀ s, M.init s → ∃ u, N.init u ∧ Related s u
  stays : ∀ {s u a t}, Related s u → M.step s a = some t → label a = none → Related t u
  moves : ∀ {s u a t b}, Related s u → M.step s a = some t → label a = some b →
    ∃ v, N.step u b = some v ∧ Related t v

namespace Simulation

variable {N : StepSystem τ β} (sim : Simulation M N)

/-- A run is followed by a run. -/
theorem exec {s t : σ} {u : τ} {as : List α} (related : sim.Related s u)
    (run : M.exec s as = some t) :
    ∃ v, N.exec u (as.filterMap sim.label) = some v ∧ sim.Related t v := by
  induction as generalizing s u with
  | nil =>
    rw [exec_nil, Option.some_inj] at run
    exact ⟨u, rfl, run ▸ related⟩
  | cons a as ih =>
    obtain ⟨r, moved, rest⟩ := Option.bind_eq_some_iff.mp run
    cases labelled : sim.label a with
    | none =>
      rw [List.filterMap_cons_none labelled]
      exact ih (sim.stays related moved labelled) rest
    | some b =>
      obtain ⟨w, moved', related'⟩ := sim.moves related moved labelled
      rw [List.filterMap_cons_some labelled, exec_cons, moved']
      exact ih related' rest

/-- Every reachable state is related to a reachable state. -/
theorem reachable {t : σ} (reached : M.Reachable t) :
    ∃ v, N.Reachable v ∧ sim.Related t v := by
  obtain ⟨s, as, started, run⟩ := reached
  obtain ⟨u, begun, related⟩ := sim.init s started
  obtain ⟨v, followed, related⟩ := sim.exec related run
  exact ⟨v, ⟨u, as.filterMap sim.label, begun, followed⟩, related⟩

end Simulation

/-! ### Projections -/

/-- A view of one system as another, whose steps some of its labels make. -/
structure Projection (M : StepSystem σ α) (N : StepSystem τ β) where
  state : σ → τ
  label : α → Option β
  init : ∀ s, M.init s → N.init (state s)
  stays : ∀ {s a t}, M.step s a = some t → label a = none → state t = state s
  moves : ∀ {s a t b}, M.step s a = some t → label a = some b →
    N.step (state s) b = some (state t)

namespace Projection

variable {N : StepSystem τ β} (p : Projection M N)

/-- A projection relates each state to its view. -/
def toSimulation : Simulation M N where
  Related s u := u = p.state s
  label := p.label
  init s started := ⟨p.state s, p.init s started, rfl⟩
  stays related moved labelled := related.trans (p.stays moved labelled).symm
  moves related moved labelled := ⟨_, related ▸ p.moves moved labelled, rfl⟩

/-- A run projects to a run. -/
theorem exec {s t : σ} {as : List α} (run : M.exec s as = some t) :
    N.exec (p.state s) (as.filterMap p.label) = some (p.state t) := by
  obtain ⟨v, followed, rfl⟩ := p.toSimulation.exec rfl run
  exact followed

theorem reachable {t : σ} (reached : M.Reachable t) : N.Reachable (p.state t) := by
  obtain ⟨s, as, started, run⟩ := reached
  exact ⟨p.state s, as.filterMap p.label, p.init s started, p.exec run⟩

/-- A prefix of a projected run that ends with a label is the projection of a
prefix that ends with a label for it. -/
theorem exists_isPrefix {as : List α} {cs : List β} {b : β}
    (part : cs ++ [b] <+: as.filterMap p.label) :
    ∃ bs a, bs ++ [a] <+: as ∧ bs.filterMap p.label = cs ∧ p.label a = some b := by
  obtain ⟨ds, whole⟩ := part
  rw [List.append_assoc] at whole
  -- The labels behind the front that make no step come first.
  obtain ⟨front, back, rfl, rfl, later⟩ := List.filterMap_eq_append_iff.mp whole.symm
  obtain ⟨silent, a, rest, rfl, unlabelled, labelled, -⟩ := List.filterMap_eq_cons_iff.mp later
  refine ⟨front ++ silent, a, ⟨rest, ?_⟩, ?_, labelled⟩
  · simp only [List.append_assoc, List.cons_append, List.nil_append]
  · rw [List.filterMap_append, List.filterMap_eq_nil_iff.mpr unlabelled, List.append_nil]

/-- A run keeps a property of the projection exactly when the projected run
does. -/
theorem throughout_iff {property : τ → Prop} {s t : σ} {as : List α}
    (run : M.exec s as = some t) :
    M.Throughout (fun u => property (p.state u)) s as ↔
      N.Throughout property (p.state s) (as.filterMap p.label) := by
  constructor
  · intro throughout cs part u reached
    obtain ⟨ds, whole⟩ := part
    obtain ⟨bs, rest, rfl, rfl, -⟩ := List.filterMap_eq_append_iff.mp whole.symm
    obtain ⟨r, before, -⟩ := exec_append_eq_some.mp run
    rw [p.exec before, Option.some_inj] at reached
    exact reached ▸ throughout bs (List.prefix_append bs rest) r before
  · intro throughout bs part r reached
    exact throughout _ (part.filterMap p.label) _ (p.exec reached)

/-- The steps of a run meet a guard of the projection exactly when those of the
projected run do. -/
theorem within_iff {guard : τ → β → Prop} {s t : σ} {as : List α}
    (run : M.exec s as = some t) :
    M.Within (fun u a => ∀ b, p.label a = some b → guard (p.state u) b) s as ↔
      N.Within guard (p.state s) (as.filterMap p.label) := by
  constructor
  · intro within cs b part u reached
    obtain ⟨bs, a, before, rfl, labelled⟩ := p.exists_isPrefix part
    obtain ⟨rest, rfl⟩ := before
    rw [List.append_assoc] at run
    obtain ⟨r, first, -⟩ := exec_append_eq_some.mp run
    rw [p.exec first, Option.some_inj] at reached
    exact reached ▸ within bs a (List.prefix_append (bs ++ [a]) rest) r first b labelled
  · intro within bs a part r reached b labelled
    refine within _ b ?_ _ (p.exec reached)
    have projected := part.filterMap p.label
    rwa [List.filterMap_append, List.filterMap_cons_some labelled] at projected

end Projection

end StepSystem
