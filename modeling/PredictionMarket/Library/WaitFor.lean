/- PredictionMarket/Library/WaitFor
   digest: Exclusive locks held by tasks, and wait-for graphs whose edges climb a rank. -/

import Mathlib.Data.Set.Finite.Lemmas
import Mathlib.Data.Fintype.Order
import Mathlib.Order.Preorder.Finite

set_option autoImplicit false
set_option relaxedAutoImplicit false

namespace PredictionMarket.Library

universe u v w

variable {κ : Type u} {τ : Type v}

abbrev Locks (κ : Type u) (τ : Type v) := κ → Option τ

namespace Locks

variable [DecidableEq τ] {l l' : Locks κ τ} {k j : κ} {t u : τ}

def release (l : Locks κ τ) (t : τ) : Locks κ τ := fun k => if l k = some t then none else l k

theorem release_get : l.release t j = some u ↔ u ≠ t ∧ l j = some u := by
  unfold release
  split
  · next own =>
    constructor
    · intro held
      cases held
    · rintro ⟨other, held⟩
      rw [own] at held
      exact absurd (Option.some.inj held).symm other
  · next other =>
    constructor
    · intro held
      refine ⟨?_, held⟩
      rintro rfl
      exact other held
    · exact And.right

variable [DecidableEq κ]

/-- Take a key that is free or one's own; `none` is a wait. -/
def take? (l : Locks κ τ) (k : κ) (t : τ) : Option (Locks κ τ) :=
  if l k = none ∨ l k = some t then some (Function.update l k (some t)) else none

theorem take?_eq_some (took : l.take? k t = some l') :
    (l k = none ∨ l k = some t) ∧ l' = Function.update l k (some t) := by
  unfold take? at took
  split at took
  · next free => exact ⟨free, (Option.some.inj took).symm⟩
  · cases took

theorem take?_get (took : l.take? k t = some l') :
    l' j = some u ↔ (j = k ∧ u = t) ∨ (j ≠ k ∧ l j = some u) := by
  obtain ⟨_, rfl⟩ := take?_eq_some took
  by_cases here : j = k
  · subst here
    simp [eq_comm]
  · simp [here]

theorem take?_own (took : l.take? k t = some l') : l' k = some t :=
  (take?_get took).mpr (Or.inl ⟨rfl, rfl⟩)

theorem take?_keeps (took : l.take? k t = some l') (held : l j = some u) : l' j = some u := by
  rw [take?_get took]
  by_cases here : j = k
  · subst here
    rcases (take?_eq_some took).1 with free | own
    · rw [free] at held
      cases held
    · rw [own] at held
      exact Or.inl ⟨rfl, (Option.some.inj held).symm⟩
  · exact Or.inr ⟨here, held⟩

theorem take?_other (took : l.take? k t = some l') (other : u ≠ t) :
    l' j = some u ↔ l j = some u :=
  ⟨fun held => (((take?_get took).mp held).resolve_left (fun own => other own.2)).2,
    take?_keeps took⟩

end Locks

/-- Every live task waits for another live task, and there is one. -/
def Deadlocked (live : τ → Prop) (waits : τ → τ → Prop) : Prop :=
  (∃ t, live t) ∧ ∀ t, live t → ∃ u, live u ∧ waits t u

/-- Finitely many tasks cannot all wait when every wait goes up in a rank. -/
theorem not_deadlocked_of_climbs {β : Type w} [Preorder β] [Finite τ] {live : τ → Prop}
    {waits : τ → τ → Prop} (rank : τ → β)
    (climbs : ∀ t u, live t → live u → waits t u → rank t < rank u) :
    ¬ Deadlocked live waits := by
  rintro ⟨nonempty, waiting⟩
  obtain ⟨top, alive, highest⟩ :=
    Set.Finite.exists_maximalFor rank {t | live t} (Set.toFinite _) nonempty
  obtain ⟨u, other, above⟩ := waiting top alive
  have higher := climbs top u alive other above
  exact higher.not_ge (highest other higher.le)

end PredictionMarket.Library
