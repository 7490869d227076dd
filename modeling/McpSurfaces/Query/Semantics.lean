import McpSurfaces.Foundation.Assignment
import McpSurfaces.Foundation.BoundedSearch
import McpSurfaces.Query.Index

/-!
What a query means: the declarative reading of clauses over a set of datoms, with no
order of evaluation and no budget.

* `Clause.Holds datoms c σ`: the clause is true under an assignment that gives its
  variables values. A nested predicate quantifies over the extensions of the assignment
  to the variables its own clauses bind.
* `Solution datoms base clauses σ`: `σ` extends `base` over the variables the clauses
  bind, and every clause holds.
* `solution_append_iff` is the rule the planner works by: **solving some clauses after
  others is solving all of them**, whatever the order, as long as the variables of the
  first ones have values and nothing is bound after a nested predicate.
-/

namespace McpSurfaces

namespace Query

open Assignment BoundedSearch

/-- The value of a term under an assignment; `one_of` has none. -/
def Term.denote (σ : Assignment String Value) : Term → Option Value
  | .var name => σ name
  | .value v => some v
  | .oneOf _ => none

/-- The values a term stands for under an assignment. -/
def Term.Is (σ : Assignment String Value) (t : Term) (v : Value) : Prop :=
  match t with
  | .var name => σ name = some v
  | .value w => w = v
  | .oneOf values => v ∈ values

/-- An edge of an attribute: a datom from a subject to a string. -/
def Edge (datoms : List Datom) (attr u v : String) : Prop :=
  ∃ d ∈ datoms, d.subject = u ∧ d.attr = attr ∧ d.value = .string v

/-- The variables a list of clauses binds. -/
def bound (clauses : List Clause) : Set String := {x | ∃ c ∈ clauses, x ∈ c.binds}

mutual

/-- The truth of a clause under an assignment. -/
def Clause.Holds (datoms : List Datom) : Clause → Assignment String Value → Prop
  | .triple s a o, σ =>
      ∃ d ∈ datoms, s.Is σ (.string d.subject) ∧ a.Is σ (.string d.attr) ∧ o.Is σ d.value
  | .compare op l r, σ =>
      ∃ v w, l.denote σ = some v ∧ r.denote σ = some w ∧ compareHolds op v w
  | .reachable f attr t depth, σ =>
      ∃ start target, f.denote σ = some (.string start) ∧ t.Is σ (.string target) ∧
        target ≠ start ∧ ∃ k ≤ depth, Walk (Edge datoms attr) start target k
  | .exists_ clauses, σ => ∃ τ, Extends σ τ (bound clauses) ∧ AllHold datoms clauses τ
  | .notExists clauses, σ => ¬ ∃ τ, Extends σ τ (bound clauses) ∧ AllHold datoms clauses τ

/-- The truth of a list of clauses. -/
def AllHold (datoms : List Datom) : List Clause → Assignment String Value → Prop
  | [], _ => True
  | c :: rest, σ => c.Holds datoms σ ∧ AllHold datoms rest σ

end

/-- `σ` answers the clauses: it extends `base` over the variables they bind and all of
them hold. -/
def Solution (datoms : List Datom) (base : Assignment String Value) (clauses : List Clause)
    (σ : Assignment String Value) : Prop :=
  Extends base σ (bound clauses) ∧ ∀ c ∈ clauses, c.Holds datoms σ

lemma allHold_iff {datoms : List Datom} {clauses : List Clause} {σ : Assignment String Value} :
    AllHold datoms clauses σ ↔ ∀ c ∈ clauses, c.Holds datoms σ := by
  induction clauses with
  | nil => simp [AllHold]
  | cons c rest ih => simp [AllHold, ih]

/-- `exists` holds where its clauses have a solution. -/
lemma holds_exists_iff {datoms : List Datom} {clauses : List Clause}
    {σ : Assignment String Value} :
    (Clause.exists_ clauses).Holds datoms σ ↔ ∃ τ, Solution datoms σ clauses τ := by
  simp only [Clause.Holds, Solution, allHold_iff]

/-- `not_exists` holds where its clauses have none. -/
lemma holds_notExists_iff {datoms : List Datom} {clauses : List Clause}
    {σ : Assignment String Value} :
    (Clause.notExists clauses).Holds datoms σ ↔ ¬ ∃ τ, Solution datoms σ clauses τ := by
  simp only [Clause.Holds, Solution, allHold_iff]

/-! ### What a clause depends on -/

/-- The variables of a clause outside nested predicates. -/
def Clause.vars : Clause → List String
  | .compare _ l r => l.vars ++ r.vars
  | c => c.binds

variable {datoms : List Datom} {base σ τ : Assignment String Value}

lemma Term.denote_congr {t : Term} (h : ∀ x ∈ t.vars, σ x = τ x) :
    t.denote σ = t.denote τ := by
  cases t with
  | var name => exact h name List.mem_cons_self
  | value v => rfl
  | oneOf values => rfl

lemma Term.is_congr {t : Term} {v : Value} (h : ∀ x ∈ t.vars, σ x = τ x) :
    t.Is σ v ↔ t.Is τ v := by
  cases t with
  | var name =>
      have hname : σ name = τ name := h name List.mem_cons_self
      simp only [Term.Is, hname]
  | value w => exact Iff.rfl
  | oneOf values => exact Iff.rfl

/-- A clause that is no nested predicate depends on its variables only. -/
lemma holds_congr {c : Clause} (hc : c.isNested = false) (h : ∀ x ∈ c.vars, σ x = τ x) :
    c.Holds datoms σ ↔ c.Holds datoms τ := by
  cases c with
  | triple s a o =>
      have hs : ∀ x ∈ s.vars, σ x = τ x := fun x hx => h x (by simp [Clause.vars, Clause.binds, hx])
      have ha : ∀ x ∈ a.vars, σ x = τ x := fun x hx => h x (by simp [Clause.vars, Clause.binds, hx])
      have ho : ∀ x ∈ o.vars, σ x = τ x := fun x hx => h x (by simp [Clause.vars, Clause.binds, hx])
      simp only [Clause.Holds, Term.is_congr hs, Term.is_congr ha, Term.is_congr ho]
  | compare op l r =>
      have hl : ∀ x ∈ l.vars, σ x = τ x := fun x hx => h x (by simp [Clause.vars, hx])
      have hr : ∀ x ∈ r.vars, σ x = τ x := fun x hx => h x (by simp [Clause.vars, hx])
      simp only [Clause.Holds, Term.denote_congr hl, Term.denote_congr hr]
  | reachable f attr t depth =>
      have hf : ∀ x ∈ f.vars, σ x = τ x := fun x hx => h x (by simp [Clause.vars, Clause.binds, hx])
      have ht : ∀ x ∈ t.vars, σ x = τ x := fun x hx => h x (by simp [Clause.vars, Clause.binds, hx])
      simp only [Clause.Holds, Term.denote_congr hf, Term.is_congr ht]
  | exists_ clauses => cases hc
  | notExists clauses => cases hc

lemma bound_append (cs ds : List Clause) : bound (cs ++ ds) = bound cs ∪ bound ds := by
  ext x
  simp only [bound, Set.mem_ofPred_eq, Set.mem_union, List.mem_append]
  constructor
  · rintro ⟨c, hc | hc, hx⟩
    · exact Or.inl ⟨c, hc, hx⟩
    · exact Or.inr ⟨c, hc, hx⟩
  · rintro (⟨c, hc, hx⟩ | ⟨c, hc, hx⟩)
    · exact ⟨c, Or.inl hc, hx⟩
    · exact ⟨c, Or.inr hc, hx⟩

lemma bound_singleton (c : Clause) : bound [c] = {x | x ∈ c.binds} := by
  simp [bound]

/-- Nested predicates bind nothing. -/
lemma bound_eq_empty {cs : List Clause} (h : ∀ c ∈ cs, c.isNested) : bound cs = ∅ := by
  ext x
  simp only [bound, Set.mem_ofPred_eq, Set.mem_empty_iff_false, iff_false, not_exists, not_and]
  intro c hc hx
  have hn := h c hc
  cases c <;> simp_all [Clause.isNested, Clause.binds]

/-- The order of the clauses does not matter. -/
lemma solution_congr {cs ds : List Clause} (h : ∀ c, c ∈ cs ↔ c ∈ ds) :
    Solution datoms base cs σ ↔ Solution datoms base ds σ := by
  simp only [Solution, bound, h]

/-! ### Solving in a row -/

/-- What the planner keeps of the clauses it has applied: the variables of the plain
ones have values, and after a nested predicate only nested predicates follow. -/
structure Settled (base : Assignment String Value) (applied rest : List Clause) : Prop where
  vars : ∀ c ∈ applied, c.isNested = false → ∀ x ∈ c.vars, (base x).isSome ∨ x ∈ bound applied
  nested : (∃ c ∈ applied, c.isNested) → ∀ c ∈ rest, c.isNested

/-- Settled clauses hold of a solution exactly when they hold of its extensions. -/
private lemma holds_iff_of_settled {applied rest : List Clause}
    (hsettled : Settled base applied rest) (hσ : Extends base σ (bound applied))
    (hτ : Extends σ τ (bound rest)) {c : Clause} (hc : c ∈ applied) :
    c.Holds datoms σ ↔ c.Holds datoms τ := by
  by_cases hn : c.isNested
  · have hempty := bound_eq_empty (hsettled.nested ⟨c, hc, hn⟩)
    rw [hempty] at hτ
    rw [hτ.eq_of_subset (by simp)]
  · refine holds_congr (by simpa using hn) fun x hx => ?_
    have hdefined : (σ x).isSome := by
      rw [hσ.domain]
      exact hsettled.vars c hc (by simpa using hn) x hx
    exact (hτ.agree hdefined).symm

/-- **Solving in a row**: the solutions of settled clauses and further ones are the
solutions of the further ones over those of the settled. -/
theorem solution_append_iff {applied rest : List Clause} (hsettled : Settled base applied rest) :
    Solution datoms base (applied ++ rest) τ ↔
      ∃ σ, Solution datoms base applied σ ∧ Solution datoms σ rest τ := by
  constructor
  · rintro ⟨hextends, hholds⟩
    rw [bound_append] at hextends
    obtain ⟨σ, hσ, hτ⟩ := hextends.split
    refine ⟨σ, ⟨hσ, fun c hc => ?_⟩, hτ, fun c hc => hholds c (List.mem_append_right _ hc)⟩
    rw [holds_iff_of_settled hsettled hσ hτ hc]
    exact hholds c (List.mem_append_left _ hc)
  · rintro ⟨σ, ⟨hσ, hholdsσ⟩, hτ, hholdsτ⟩
    refine ⟨by rw [bound_append]; exact hσ.trans hτ, fun c hc => ?_⟩
    rcases List.mem_append.mp hc with hc | hc
    · rw [← holds_iff_of_settled hsettled hσ hτ hc]
      exact hholdsσ c hc
    · exact hholdsτ c hc

end Query

end McpSurfaces
