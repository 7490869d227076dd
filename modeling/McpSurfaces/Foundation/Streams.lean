import McpSurfaces.Foundation.Calls

/-!
Systems that answer calls without end.

* `state`: the state behind the first calls of a stream. `invariant_state`: what every call of the
  stream keeps.
* **`eventually_of_measure`**: where a measure never grows until a goal is reached, and cannot stay
  the same for ever, the goal is reached.
-/

namespace McpSurfaces

namespace Streams

variable {σ γ : Type*} (after : σ → γ → σ) (s : σ) (calls : ℕ → γ)

/-- The state behind the first calls of a stream. -/
def state : ℕ → σ
  | 0 => s
  | i + 1 => after (state i) (calls i)

variable {after s calls} {inv : σ → Prop} {P : σ → γ → Prop}

/-- What every call of a stream keeps holds behind all of them. -/
lemma invariant_state (hstep : ∀ s c, inv s → P s c → inv (after s c)) (hs : inv s)
    (h : ∀ i, P (state after s calls i) (calls i)) (i : ℕ) : inv (state after s calls i) := by
  induction i with
  | zero => exact hs
  | succ i ih => exact hstep _ _ ih (h i)

/-- **A goal is reached** where a measure never grows before it, and does not stay the same. -/
theorem eventually_of_measure {goal : ℕ → Prop} (measure : ℕ → ℕ)
    (hmono : ∀ i, ¬ goal i → ¬ goal (i + 1) → measure (i + 1) ≤ measure i)
    (hmoves : ∀ i, (∀ j, ¬ goal j) → (∀ j, i ≤ j → measure j = measure i) → False) :
    ∃ i, goal i := by
  by_contra hnone
  rw [not_exists] at hnone
  -- From a place where the measure is least on, it is the same.
  obtain ⟨_, ⟨i, rfl⟩, hleast⟩ := WellFounded.has_min Nat.lt_wfRel.wf (Set.range measure) ⟨_, 0, rfl⟩
  refine hmoves i hnone fun j hij => le_antisymm ?_ (not_lt.mp (hleast _ ⟨j, rfl⟩))
  induction j, hij using Nat.le_induction with
  | base => exact le_rfl
  | succ j _ ih => exact (hmono j (hnone j) (hnone (j + 1))).trans ih

end Streams

end McpSurfaces
