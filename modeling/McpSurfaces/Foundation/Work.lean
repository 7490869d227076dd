import Mathlib.Tactic

/-!
Work on a store: computations that read and write a store and may stop. A stop keeps what was
written before it; only a transaction takes it back.

* `transaction`: work that is undone as a whole when it stops.
* **`Guarantees R x`**: whatever `x` does, it relates the store before it to the store behind
  it by `R`, with a rule for each way in which work is put together. A caught stop is no
  exception, as what was written before it stays.
* `bind_ok` and `ofExcept_ok` take work apart that did not stop.
-/

namespace McpSurfaces

/-- Work on a store `σ`. -/
abbrev Work (σ ε α : Type) := ExceptT ε (StateM σ) α

namespace Work

variable {σ ε α β γ : Type}

/-- What work does on a store: its result, and the store behind it. -/
def exec (x : Work σ ε α) (s : σ) : Except ε α × σ := x.run.run s

/-- The store. -/
def store : Work σ ε σ := ExceptT.mk fun s => (.ok s, s)

/-- Write the store. -/
def write (f : σ → σ) : Work σ ε Unit := ExceptT.mk fun s => (.ok (), f s)

/-- A result that may be a stop. -/
def ofExcept (r : Except ε α) : Work σ ε α := ExceptT.mk fun s => (r, s)

/-- Work whose stop is handled, on the store that it left. -/
def handle (x : Work σ ε α) (h : ε → Work σ ε α) : Work σ ε α :=
  ExceptT.mk fun s => match x.exec s with
    | (.ok a, t) => (.ok a, t)
    | (.error e, t) => (h e).exec t

/-- Work that is undone when it stops. -/
def transaction (x : Work σ ε α) (s : σ) : Except ε α × σ :=
  match x.exec s with
  | (.ok a, t) => (.ok a, t)
  | (.error e, _) => (.error e, s)

/-! ### Work that was done -/

@[simp] lemma exec_pure (a : α) (s : σ) : exec (pure a : Work σ ε α) s = (.ok a, s) := rfl

@[simp] lemma exec_throw (e : ε) (s : σ) : exec (throw e : Work σ ε α) s = (.error e, s) := rfl

@[simp] lemma exec_store (s : σ) : exec (store : Work σ ε σ) s = (.ok s, s) := rfl

@[simp] lemma exec_write (f : σ → σ) (s : σ) : exec (write f : Work σ ε Unit) s = (.ok (), f s) := rfl

@[simp] lemma exec_ofExcept (r : Except ε α) (s : σ) : exec (ofExcept r : Work σ ε α) s = (r, s) := rfl

lemma exec_bind (x : Work σ ε α) (f : α → Work σ ε β) (s : σ) :
    exec (x >>= f) s = match exec x s with
      | (.ok a, t) => exec (f a) t
      | (.error e, t) => (.error e, t) := by
  change (do let r ← x.run; ExceptT.bindCont f r : StateM σ (Except ε β)).run s = _
  simp only [StateT.run_bind, exec]
  cases hx : x.run.run s with
  | mk r t =>
    cases r with
    | ok a => rfl
    | error e => rfl

lemma exec_handle (x : Work σ ε α) (h : ε → Work σ ε α) (s : σ) :
    exec (handle x h) s = match exec x s with
      | (.ok a, t) => (.ok a, t)
      | (.error e, t) => exec (h e) t := rfl

/-- Work in two parts that did not stop. -/
lemma bind_ok {x : Work σ ε α} {f : α → Work σ ε β} {s t : σ} {b : β}
    (h : exec (x >>= f) s = (.ok b, t)) :
    ∃ a u, exec x s = (.ok a, u) ∧ exec (f a) u = (.ok b, t) := by
  rw [exec_bind] at h
  cases hx : exec x s with
  | mk r u =>
    rw [hx] at h
    cases r with
    | ok a => exact ⟨a, u, rfl, h⟩
    | error e => cases h

/-- A read result that is no stop. -/
lemma ofExcept_ok {r : Except ε α} {s t : σ} {a : α} (h : exec (ofExcept r : Work σ ε α) s = (.ok a, t)) :
    r = .ok a ∧ t = s := by
  rw [exec_ofExcept] at h
  cases h
  exact ⟨rfl, rfl⟩

/-- A result before the rest, neither of which stopped. -/
lemma ofExcept_bind_ok {r : Except ε α} {f : α → Work σ ε β} {s t : σ} {b : β}
    (h : exec (ofExcept r >>= f) s = (.ok b, t)) : ∃ a, r = .ok a ∧ exec (f a) s = (.ok b, t) := by
  cases r with
  | ok a => exact ⟨a, rfl, h⟩
  | error e => cases h

/-- The store before the rest, which did not stop. -/
lemma store_bind_ok {f : σ → Work σ ε β} {s t : σ} {b : β}
    (h : exec (store >>= f) s = (.ok b, t)) : exec (f s) s = (.ok b, t) := h

/-- A write before the rest, which did not stop. -/
lemma write_bind_ok {w : σ → σ} {f : Unit → Work σ ε β} {s t : σ} {b : β}
    (h : exec (write w >>= f) s = (.ok b, t)) : exec (f ()) (w s) = (.ok b, t) := h

/-- A check that is passed. -/
lemma guard_ok {c : Prop} [Decidable c] {e : ε} {k : PUnit → Work σ ε β} {s t : σ} {b : β}
    (h : exec (if c then throw e >>= k else k ⟨⟩) s = (.ok b, t)) :
    ¬ c ∧ exec (k ⟨⟩) s = (.ok b, t) := by
  split_ifs at h with hc
  · rw [exec_bind, exec_throw] at h
    cases h
  · exact ⟨hc, h⟩

lemma transaction_ok {x : Work σ ε α} {s t : σ} {a : α} (h : transaction x s = (.ok a, t)) :
    exec x s = (.ok a, t) := by
  unfold transaction at h
  cases hx : exec x s with
  | mk r u =>
    rw [hx] at h
    cases r with
    | ok b => exact h
    | error e => cases h

lemma transaction_error {x : Work σ ε α} {s t : σ} {e : ε} (h : transaction x s = (.error e, t)) :
    t = s := by
  unfold transaction at h
  cases hx : exec x s with
  | mk r u =>
    rw [hx] at h
    cases r with
    | ok b => cases h
    | error e' => cases h; rfl

/-! ### Guarantees -/

/-- Whether it stops or not, the work relates the store before it to the store behind it. -/
def Guarantees (R : σ → σ → Prop) (x : Work σ ε α) : Prop := ∀ s, R s (exec x s).2

/-- Nothing is written, or what is written relates the stores. -/
def MayDo (P : σ → σ → Prop) (s t : σ) : Prop := t = s ∨ P s t

instance (P : σ → σ → Prop) : Std.Refl (MayDo P) := ⟨fun _ => .inl rfl⟩

namespace Guarantees

variable {R : σ → σ → Prop}

lemma of_exec {x : Work σ ε α} (h : Guarantees R x) {s t : σ} {r : Except ε α}
    (hx : exec x s = (r, t)) : R s t := by
  have hrel := h s
  rwa [hx] at hrel

section Refl

variable [Std.Refl R]

lemma of_mayDo {P : σ → σ → Prop} {x : Work σ ε α} (h : Guarantees (MayDo P) x)
    (hR : ∀ s t, P s t → R s t) : Guarantees R x := fun s => by
  rcases h s with hsame | hdone
  · rw [hsame]
    exact refl_of R s
  · exact hR s _ hdone

lemma pure (a : α) : Guarantees R (Pure.pure a : Work σ ε α) := fun s => refl_of R s

lemma throw (e : ε) : Guarantees R (MonadExcept.throw e : Work σ ε α) := fun s => refl_of R s

lemma store : Guarantees R (Work.store : Work σ ε σ) := fun s => refl_of R s

lemma ofExcept (r : Except ε α) : Guarantees R (Work.ofExcept r : Work σ ε α) := fun s => refl_of R s

/-- A check before the rest, which may count on it. -/
lemma guard {c : Prop} [Decidable c] {e : ε} {k : PUnit → Work σ ε α}
    (hk : ¬ c → Guarantees R (k ⟨⟩)) :
    Guarantees R (if c then MonadExcept.throw e >>= k else k ⟨⟩) := by
  split_ifs with hc
  · intro s
    rw [exec_bind]
    exact refl_of R s
  · exact hk hc

/-- A result before the rest, which may count on it. -/
lemma ofExcept_bind {r : Except ε α} {f : α → Work σ ε β}
    (h : ∀ a, r = .ok a → Guarantees R (f a)) : Guarantees R (Work.ofExcept r >>= f) := by
  intro s
  rw [exec_bind, exec_ofExcept]
  cases r with
  | ok a => exact h a rfl s
  | error e => exact refl_of R s

end Refl

/-- The store before the rest. -/
lemma store_bind {f : σ → Work σ ε β} (h : ∀ s, R s (exec (f s) s).2) :
    Guarantees R (Work.store >>= f) := by
  intro s
  rw [exec_bind, exec_store]
  exact h s

lemma write {f : σ → σ} (h : ∀ s, R s (f s)) : Guarantees R (Work.write f : Work σ ε Unit) := h

lemma ite {c : Prop} [Decidable c] {x y : Work σ ε α} (hx : Guarantees R x) (hy : Guarantees R y) :
    Guarantees R (if c then x else y) := by
  split_ifs
  · exact hx
  · exact hy

/-- What comes behind the work only reads. -/
lemma bind_read {x : Work σ ε α} {f : α → Work σ ε β} (hx : Guarantees R x)
    (hf : ∀ a, Guarantees Eq (f a)) : Guarantees R (x >>= f) := by
  intro s
  have hfirst := hx s
  rw [exec_bind]
  cases hrun : exec x s with
  | mk r t =>
    rw [hrun] at hfirst
    cases r with
    | ok a => exact hf a t ▸ hfirst
    | error e => exact hfirst

/-- A stop is caught by work that only reads. -/
lemma handle_read {x : Work σ ε α} {h : ε → Work σ ε α} (hx : Guarantees R x)
    (hh : ∀ e, Guarantees Eq (h e)) : Guarantees R (Work.handle x h) := by
  intro s
  have hfirst := hx s
  rw [exec_handle]
  cases hrun : exec x s with
  | mk r t =>
    rw [hrun] at hfirst
    cases r with
    | ok a => exact hfirst
    | error e => exact hh e t ▸ hfirst

variable [IsTrans σ R]

lemma bind {x : Work σ ε α} {f : α → Work σ ε β} (hx : Guarantees R x)
    (hf : ∀ a, Guarantees R (f a)) : Guarantees R (x >>= f) := by
  intro s
  have hfirst := hx s
  rw [exec_bind]
  cases hrun : exec x s with
  | mk r t =>
    rw [hrun] at hfirst
    cases r with
    | ok a => exact trans_of R hfirst (hf a t)
    | error e => exact hfirst

/-- A stop that is caught: what was written before it stays. -/
lemma handle {x : Work σ ε α} {h : ε → Work σ ε α} (hx : Guarantees R x)
    (hh : ∀ e, Guarantees R (h e)) : Guarantees R (Work.handle x h) := by
  intro s
  have hfirst := hx s
  rw [exec_handle]
  cases hrun : exec x s with
  | mk r t =>
    rw [hrun] at hfirst
    cases r with
    | ok a => exact hfirst
    | error e => exact trans_of R hfirst (hh e t)

/-- Work on every element of a list, one after the other. -/
lemma foldlM [Std.Refl R] {f : β → γ → Work σ ε β} (hf : ∀ b c, Guarantees R (f b c)) (xs : List γ)
    (b : β) : Guarantees R (xs.foldlM f b) := by
  induction xs generalizing b with
  | nil => exact .pure b
  | cons x rest ih =>
      rw [List.foldlM_cons]
      exact .bind (hf b x) ih

end Guarantees

end Work

end McpSurfaces
