import Mathlib.Logic.Relation

/-!
State machines and their runs: what holds at the beginning and is kept by every step
holds in every reachable state.
-/

namespace McpSurfaces

/-- A state machine: the states it starts in and its steps. -/
structure Machine (σ : Type*) where
  init : σ → Prop
  step : σ → σ → Prop

namespace Machine

variable {σ : Type*} (m : Machine σ)

/-- The states of some run. -/
inductive Reachable : σ → Prop
  | init {s : σ} (h : m.init s) : Reachable s
  | step {s t : σ} (hs : Reachable s) (h : m.step s t) : Reachable t

/-- An invariant holds at the beginning and is kept by every step. -/
structure Invariant (inv : σ → Prop) : Prop where
  init : ∀ s, m.init s → inv s
  step : ∀ s t, inv s → m.step s t → inv t

variable {m}

/-- **An invariant holds in every reachable state.** -/
theorem Reachable.invariant {inv : σ → Prop} (hinv : m.Invariant inv) {s : σ}
    (h : m.Reachable s) : inv s := by
  induction h with
  | init h => exact hinv.init _ h
  | step _ h ih => exact hinv.step _ _ ih h

/-- A further invariant may rely on one that is known. -/
lemma Invariant.and {inv other : σ → Prop} (hinv : m.Invariant inv)
    (hinit : ∀ s, m.init s → other s)
    (hstep : ∀ s t, inv s → other s → m.step s t → other t) :
    m.Invariant fun s => inv s ∧ other s where
  init s h := ⟨hinv.init s h, hinit s h⟩
  step s t hs h := ⟨hinv.step s t hs.1 h, hstep s t hs.1 hs.2 h⟩

end Machine

end McpSurfaces
