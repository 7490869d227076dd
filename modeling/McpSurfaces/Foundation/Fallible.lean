import Mathlib.Tactic

/-!
How a computation fails: `Fails P x` says that an error of `x` satisfies `P`, with a rule
for each way in which computations are put together. `guard_ok` reads a check off a computation
that does not fail.
-/

namespace McpSurfaces

universe u

variable {ε : Type*} {α β : Type u}

/-- If the computation fails, then with an error that satisfies `P`. -/
def Fails (P : ε → Prop) (x : Except ε α) : Prop := ∀ e, x = .error e → P e

namespace Fails

variable {P : ε → Prop}

lemma ok (a : α) : Fails P (.ok a) := fun _ h => by cases h

lemma error {e : ε} (h : P e) : Fails P (.error e : Except ε α) := fun _ he => by
  cases he
  exact h

lemma bind {x : Except ε α} {f : α → Except ε β} (hx : Fails P x) (hf : ∀ a, Fails P (f a)) :
    Fails P (x >>= f) := by
  intro e he
  cases x with
  | error e' =>
      cases he
      exact hx _ rfl
  | ok a => exact hf a e he

lemma ite {c : Prop} [Decidable c] {x y : Except ε α} (hx : Fails P x) (hy : Fails P y) :
    Fails P (if c then x else y) := by
  split_ifs
  · exact hx
  · exact hy

/-- A computation that runs on a condition, before the rest. -/
lemma when {c : Prop} [Decidable c] {x : Except ε PUnit} {k : PUnit → Except ε β}
    (hx : Fails P x) (hk : ∀ u, Fails P (k u)) :
    Fails P (if c then x >>= k else k ⟨⟩) :=
  .ite (.bind hx hk) (hk ⟨⟩)

/-- A check of every element of a list. -/
lemma forM {γ : Type*} {xs : List γ} {check : γ → Except ε PUnit}
    (h : ∀ x ∈ xs, Fails P (check x)) : Fails P (xs.forM check) := by
  induction xs with
  | nil => exact ok _
  | cons x rest ih =>
      rw [List.forM_eq_forM, List.forM_cons]
      exact bind (h x List.mem_cons_self) fun _ => ih fun y hy => h y (List.mem_cons_of_mem _ hy)

lemma of_bind {x : Except ε α} {f : α → Except ε β} (h : Fails P (x >>= f)) : Fails P x := by
  rintro e rfl
  exact h e rfl

/-- What runs behind a computation that fails with `P` only. -/
lemma bind_iff {x : Except ε α} {f : α → Except ε β} (hx : Fails P x) :
    Fails P (x >>= f) ↔ ∀ a, x = .ok a → Fails P (f a) := by
  cases x with
  | error e => exact ⟨fun _ a ha => (by cases ha), fun _ => error (hx e rfl)⟩
  | ok a => exact ⟨fun h b hb => Except.ok.inj hb ▸ h, fun h => h a rfl⟩

lemma guard_iff {c : Prop} [Decidable c] {e : ε} {k : PUnit → Except ε β} (he : P e) :
    Fails P (if c then throw e >>= k else k ⟨⟩) ↔ (¬ c → Fails P (k ⟨⟩)) := by
  split_ifs with hc
  · exact ⟨fun _ hnot => absurd hc hnot, fun _ => error he⟩
  · exact ⟨fun h _ => h, fun h => h hc⟩

/-- A run over a list fails where one of its steps does. -/
lemma foldlM_iff {γ : Type*} {xs : List γ} {f : β → γ → Except ε β} {b : β} :
    Fails P (xs.foldlM f b) ↔ ∀ before x rest acc, xs = before ++ x :: rest →
      before.foldlM f b = .ok acc → Fails P (f acc x) := by
  induction xs generalizing b with
  | nil =>
      refine ⟨fun _ before x rest acc hsplit => ?_, fun _ => ok b⟩
      exact absurd hsplit (by simp)
  | cons first others ih =>
      rw [List.foldlM_cons]
      constructor
      · intro h before x rest acc hsplit hbefore
        cases before with
        | nil =>
            obtain ⟨rfl, rfl⟩ := List.cons.inj hsplit
            obtain rfl := Except.ok.inj hbefore
            exact of_bind h
        | cons y before =>
            obtain ⟨rfl, rfl⟩ := List.cons.inj hsplit
            rw [List.foldlM_cons] at hbefore
            cases hfirst : f b first with
            | error e =>
                rw [hfirst] at hbefore
                cases hbefore
            | ok next =>
                rw [hfirst] at h hbefore
                exact ih.mp h before x rest acc rfl hbefore
      · intro h
        refine (bind_iff (h [] first others b rfl rfl)).mpr fun next hnext => ih.mpr ?_
        intro before x rest acc hsplit hbefore
        refine h (first :: before) x rest acc (by rw [hsplit]; rfl) ?_
        rw [List.foldlM_cons, hnext]
        exact hbefore

end Fails

/-- A computation behind one that succeeds. -/
lemma bind_of_ok {x : Except ε α} {a : α} (h : x = .ok a) (f : α → Except ε β) :
    (x >>= f) = f a := by
  rw [h]
  rfl

lemma exists_bind_ok {x : Except ε α} {a : α} (h : x = .ok a) {f : α → Except ε β}
    (hf : ∃ b, f a = .ok b) : ∃ b, (x >>= f) = .ok b := by
  rwa [bind_of_ok h]

/-- A check that is passed. -/
lemma guard_ok {c : Prop} [Decidable c] {e : ε} {k : PUnit → Except ε β} {b : β}
    (h : (if c then throw e >>= k else k ⟨⟩) = .ok b) : ¬ c ∧ k ⟨⟩ = .ok b := by
  split_ifs at h with hc
  · cases h
  · exact ⟨hc, h⟩

/-- A check that is passed, before the rest. -/
lemma guard_of_not {c : Prop} [Decidable c] {e : ε} {k : PUnit → Except ε β} (hc : ¬ c) :
    (if c then throw e >>= k else k ⟨⟩) = k ⟨⟩ := if_neg hc

lemma exists_guard_ok {c : Prop} [Decidable c] {e : ε} {k : PUnit → Except ε β} (hc : ¬ c)
    (hk : ∃ b, k ⟨⟩ = .ok b) : ∃ b, (if c then throw e >>= k else k ⟨⟩) = .ok b := by
  rwa [guard_of_not hc]

end McpSurfaces
