import Mathlib.Tactic

/-!
Partial assignments of values to variables, and their extensions over a set of
variables.

* `Extends σ τ xs`: `τ` keeps the values of `σ` and is defined on the variables of `xs`
  besides those of `σ`.
* `Extends.trans` and `Extends.split`: extensions over two sets in a row are the
  extensions over their union, so that a conjunction can be solved one conjunct at a
  time.
-/

namespace McpSurfaces

/-- A partial assignment of values to variables. -/
abbrev Assignment (κ ν : Type*) := κ → Option ν

namespace Assignment

variable {κ ν : Type*} {σ ρ τ : Assignment κ ν} {xs ys : Set κ}

open Classical in
/-- The assignment on the variables of a set only. -/
noncomputable def restrict (τ : Assignment κ ν) (xs : Set κ) : Assignment κ ν :=
  fun x => if x ∈ xs then τ x else none

lemma restrict_of_mem {x : κ} (hx : x ∈ xs) : restrict τ xs x = τ x := if_pos hx

lemma restrict_of_notMem {x : κ} (hx : x ∉ xs) : restrict τ xs x = none := if_neg hx

/-- `τ` extends `σ` over the variables of `xs`, and no others. -/
structure Extends (σ τ : Assignment κ ν) (xs : Set κ) : Prop where
  keeps : ∀ x v, σ x = some v → τ x = some v
  domain : ∀ x, (τ x).isSome ↔ (σ x).isSome ∨ x ∈ xs

namespace Extends

lemma refl (σ : Assignment κ ν) : Extends σ σ ∅ where
  keeps _ _ h := h
  domain x := by simp

/-- On a variable of `σ` an extension has the value of `σ`. -/
lemma agree (h : Extends σ τ xs) {x : κ} (hx : (σ x).isSome) : τ x = σ x := by
  obtain ⟨v, hv⟩ := Option.isSome_iff_exists.mp hx
  rw [h.keeps x v hv, hv]

/-- An extension over variables that have values is none. -/
lemma eq_of_subset (h : Extends σ τ xs) (hxs : ∀ x ∈ xs, (σ x).isSome) : τ = σ := by
  funext x
  by_cases hx : (σ x).isSome
  · exact h.agree hx
  · have hτ : ¬ (τ x).isSome := by
      rw [h.domain]
      rintro (hσ | hmem)
      · exact hx hσ
      · exact hx (hxs x hmem)
    rw [Option.not_isSome_iff_eq_none.mp hτ, Option.not_isSome_iff_eq_none.mp hx]

/-- Variables that have values may be left out. -/
lemma congr (h : Extends σ τ xs) (hxy : ∀ x, (σ x).isSome ∨ x ∈ xs ↔ (σ x).isSome ∨ x ∈ ys) :
    Extends σ τ ys where
  keeps := h.keeps
  domain x := by rw [h.domain, hxy]

lemma trans (h₁ : Extends σ ρ xs) (h₂ : Extends ρ τ ys) : Extends σ τ (xs ∪ ys) where
  keeps x v hv := h₂.keeps x v (h₁.keeps x v hv)
  domain x := by rw [h₂.domain, h₁.domain, Set.mem_union, or_assoc]

/-- An extension over two sets of variables passes through the one over the first. -/
lemma split (h : Extends σ τ (xs ∪ ys)) : ∃ ρ, Extends σ ρ xs ∧ Extends ρ τ ys := by
  set known : Set κ := {x | (σ x).isSome ∨ x ∈ xs} with hknown
  have hdefined : ∀ x ∈ known, (τ x).isSome := fun x hx => by
    rw [h.domain, Set.mem_union]
    exact hx.imp id Or.inl
  have hdomain : ∀ x, (restrict τ known x).isSome ↔ x ∈ known := by
    intro x
    by_cases hx : x ∈ known
    · rw [restrict_of_mem hx]
      exact ⟨fun _ => hx, hdefined x⟩
    · rw [restrict_of_notMem hx]
      exact ⟨fun hfalse => absurd hfalse (by simp), fun hmem => absurd hmem hx⟩
  refine ⟨restrict τ known, ⟨fun x v hv => ?_, hdomain⟩, ⟨fun x v hv => ?_, fun x => ?_⟩⟩
  · have hx : x ∈ known := Or.inl (by rw [hv]; rfl)
    rw [restrict_of_mem hx]
    exact h.keeps x v hv
  · have hx : x ∈ known := by rw [← hdomain, hv]; rfl
    rwa [restrict_of_mem hx] at hv
  · rw [hdomain, h.domain, Set.mem_union, ← or_assoc]
    rfl

end Extends

/-- Extensions over a union are extensions in a row. -/
theorem extends_union_iff :
    Extends σ τ (xs ∪ ys) ↔ ∃ ρ, Extends σ ρ xs ∧ Extends ρ τ ys :=
  ⟨Extends.split, fun ⟨_, h₁, h₂⟩ => h₁.trans h₂⟩

end Assignment

end McpSurfaces
