import Mathlib.Tactic

/-!
Systems that answer calls one after another: what holds of every call of a run, and how many
of its calls are of a kind.

* `run`, `Each`: the state behind a run of calls, and a condition on every call in the state
  in which it is made.
* **`invariant_run`**: what every such call keeps, the run keeps.
* **`count_le_potential`**: calls that cost from a potential are no more than there was of it.
-/

namespace McpSurfaces

namespace Calls

variable {σ γ : Type*} (after : σ → γ → σ)

/-- The state behind a run of calls. -/
def run (s : σ) (calls : List γ) : σ := calls.foldl after s

/-- Every call of a run meets a condition, in the state in which it is made. -/
def Each (P : σ → γ → Prop) : σ → List γ → Prop
  | _, [] => True
  | s, c :: rest => P s c ∧ Each P (after s c) rest

/-- How many calls of a run are of a kind. -/
def count (p : σ → γ → Prop) [∀ s c, Decidable (p s c)] : σ → List γ → ℕ
  | _, [] => 0
  | s, c :: rest => (if p s c then 1 else 0) + count p (after s c) rest

variable {after} {P Q : σ → γ → Prop} {inv : σ → Prop} {s : σ} {calls : List γ}

@[simp] lemma run_nil : run after s [] = s := rfl

@[simp] lemma run_cons (c : γ) : run after s (c :: calls) = run after (after s c) calls := rfl

lemma run_append (more : List γ) :
    run after s (calls ++ more) = run after (run after s calls) more := List.foldl_append

lemma Each.of_forall (h : ∀ s c, P s c) : Each after P s calls := by
  induction calls generalizing s with
  | nil => trivial
  | cons c rest ih => exact ⟨h s c, ih⟩

lemma Each.mono (h : Each after P s calls) (hPQ : ∀ s c, P s c → Q s c) :
    Each after Q s calls := by
  induction calls generalizing s with
  | nil => trivial
  | cons c rest ih => exact ⟨hPQ s c h.1, ih h.2⟩

lemma Each.and (hP : Each after P s calls) (hQ : Each after Q s calls) :
    Each after (fun s c => P s c ∧ Q s c) s calls := by
  induction calls generalizing s with
  | nil => trivial
  | cons c rest ih => exact ⟨⟨hP.1, hQ.1⟩, ih hP.2 hQ.2⟩

instance Each.decidable [∀ s c, Decidable (P s c)] :
    (s : σ) → (calls : List γ) → Decidable (Each after P s calls)
  | _, [] => isTrue trivial
  | s, c :: rest => @instDecidableAnd _ _ _ (Each.decidable (after s c) rest)

lemma Each.append {more : List γ} (h : Each after P s (calls ++ more)) :
    Each after P s calls ∧ Each after P (run after s calls) more := by
  induction calls generalizing s with
  | nil => exact ⟨trivial, h⟩
  | cons c rest ih =>
      obtain ⟨hrest, hmore⟩ := ih h.2
      exact ⟨⟨h.1, hrest⟩, hmore⟩

/-- **What every call of a run keeps, the run keeps.** -/
theorem invariant_run (hstep : ∀ s c, inv s → P s c → inv (after s c)) (hs : inv s)
    (h : Each after P s calls) : inv (run after s calls) := by
  induction calls generalizing s with
  | nil => exact hs
  | cons c rest ih => exact ih (hstep s c hs h.1) h.2

/-- What any call keeps, any run keeps. -/
lemma invariant_all (hstep : ∀ s c, inv s → inv (after s c)) (hs : inv s) (calls : List γ) :
    inv (run after s calls) :=
  invariant_run (P := fun _ _ => True) (fun s c h _ => hstep s c h) hs (.of_forall fun _ _ => trivial)

/-- A run goes as far as its calls go, one after another. -/
lemma trans_run {R : σ → σ → Prop} (hrefl : ∀ s, R s s) (htrans : ∀ {s t u}, R s t → R t u → R s u)
    (hstep : ∀ s c, R s (after s c)) (s : σ) (calls : List γ) : R s (run after s calls) :=
  @invariant_all _ _ after (R s) s (fun _ c h => htrans h (hstep _ c)) (hrefl s) calls

/-- What every call brings that keeps an invariant. -/
lemma Each.of_invariant (hstep : ∀ s c, inv s → P s c → inv (after s c))
    (hcall : ∀ s c, inv s → P s c → Q s c) (hs : inv s) (h : Each after P s calls) :
    Each after Q s calls := by
  induction calls generalizing s with
  | nil => trivial
  | cons c rest ih => exact ⟨hcall s c hs h.1, ih (hstep s c hs h.1) h.2⟩

/-- Conditions that agree wherever an invariant holds agree on runs. -/
lemma each_iff_of_invariant (hstep : ∀ s c, inv s → inv (after s c))
    (hiff : ∀ s c, inv s → (P s c ↔ Q s c)) (hs : inv s) :
    Each after P s calls ↔ Each after Q s calls := by
  induction calls generalizing s with
  | nil => exact Iff.rfl
  | cons c rest ih => exact and_congr (hiff s c hs) (ih (hstep s c hs))

/-- What every state of a run is, exactly when each of its calls leaves the next state so. -/
lemma each_after_iff (good : σ → Prop) (hstep : ∀ s c, inv s → inv (after s c))
    (hiff : ∀ s c, inv s → good s → (good (after s c) ↔ Q s c)) (hs : inv s) (hgood : good s) :
    Each after (fun s c => good (after s c)) s calls ↔ Each after Q s calls := by
  induction calls generalizing s with
  | nil => exact Iff.rfl
  | cons c rest ih =>
      have hfirst := hiff s c hs hgood
      constructor
      · rintro ⟨hnext, hrest⟩
        exact ⟨hfirst.mp hnext, (ih (hstep s c hs) hnext).mp hrest⟩
      · rintro ⟨hcall, hrest⟩
        have hnext := hfirst.mpr hcall
        exact ⟨hnext, (ih (hstep s c hs) hnext).mpr hrest⟩

/-- **Calls that are paid from a potential** are no more than it held at the beginning. -/
theorem count_le_potential {p : σ → γ → Prop} [∀ s c, Decidable (p s c)] (potential : σ → ℕ)
    (hinv : ∀ s c, inv s → P s c → inv (after s c))
    (hcost : ∀ s c, inv s → P s c → (if p s c then 1 else 0) + potential (after s c) ≤ potential s)
    (hs : inv s) (h : Each after P s calls) : count after p s calls ≤ potential s := by
  induction calls generalizing s with
  | nil => exact Nat.zero_le _
  | cons c rest ih =>
      have hrest := ih (hinv s c hs h.1) h.2
      have hfirst := hcost s c hs h.1
      rw [count]
      omega

end Calls

end McpSurfaces
