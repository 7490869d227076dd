import McpSurfaces.Foundation.Calls

/-!
Programs that work on one state, in atomic operations.

* `Program σ κ α`: a computation on a state `σ` in operations `κ`. It goes on with the state that
  an operation found.
* `Meets`: what a program does that runs alone, with a rule for each way to put programs together.
* `Config.after`: the machine on which any number of programs run, one operation at a time.
-/

namespace McpSurfaces

open Calls (run Each)

/-- A computation on a state `σ` in atomic operations `κ`, which goes on with the state that an
operation found. -/
inductive Program (σ κ α : Type) : Type where
  | done (a : α)
  | step (op : κ) (next : σ → Program σ κ α)

namespace Program

variable {σ κ α β : Type}

def bind : Program σ κ α → (α → Program σ κ β) → Program σ κ β
  | done a, f => f a
  | step op next, f => step op fun s => (next s).bind f

instance : Monad (Program σ κ) where
  pure := done
  bind := bind

/-- A program on a part of a state. -/
def through {τ : Type} (view : τ → σ) : Program σ κ α → Program τ κ α
  | done a => done a
  | step op next => step op fun t => (next (view t)).through view

/-- The operation that a program carries out next. -/
def head : Program σ κ α → Option κ
  | done _ => none
  | step op _ => some op

/-! ### A program alone -/

section Alone

variable (effect : κ → σ → σ)

/-- The answer of a program that runs alone, and the state behind it. -/
def alone : Program σ κ α → σ → α × σ
  | done a, s => (a, s)
  | step op next, s => (next s).alone (effect op s)

/-- A program that runs alone carries out each operation in a state where it meets `P`, and ends
with an answer and a state that meet `Q`. -/
def Meets (P : σ → κ → Prop) (Q : α → σ → Prop) : Program σ κ α → σ → Prop
  | done a, s => Q a s
  | step op next, s => P s op ∧ (next s).Meets P Q (effect op s)

variable {effect} {P P' : σ → κ → Prop} {Q Q' : α → σ → Prop}

lemma meets_bind {p : Program σ κ α} {f : α → Program σ κ β} {Q : β → σ → Prop} {s : σ} :
    (p.bind f).Meets effect P Q s ↔ p.Meets effect P (fun a t => (f a).Meets effect P Q t) s := by
  induction p generalizing s with
  | done a => rfl
  | step op next ih => exact and_congr_right' (ih s)

lemma Meets.mono {p : Program σ κ α} {s : σ} (h : p.Meets effect P Q s)
    (hP : ∀ s op, P s op → P' s op) (hQ : ∀ a s, Q a s → Q' a s) : p.Meets effect P' Q' s := by
  induction p generalizing s with
  | done a => exact hQ a s h
  | step op next ih => exact ⟨hP s op h.1, ih s h.2⟩

lemma alone_bind (p : Program σ κ α) (f : α → Program σ κ β) (s : σ) :
    (p.bind f).alone effect s = (f (p.alone effect s).1).alone effect (p.alone effect s).2 := by
  induction p generalizing s with
  | done a => rfl
  | step op next ih => exact ih s (effect op s)

/-- What a program does on its way, and what it ends with. -/
lemma meets_iff_alone {p : Program σ κ α} {s : σ} : p.Meets effect P Q s ↔
    p.Meets effect P (fun _ _ => True) s ∧ Q (p.alone effect s).1 (p.alone effect s).2 := by
  induction p generalizing s with
  | done a => exact (true_and _).symm ▸ Iff.rfl
  | step op next ih =>
      constructor
      · intro h
        exact ⟨⟨h.1, ((ih s).mp h.2).1⟩, ((ih s).mp h.2).2⟩
      · intro h
        exact ⟨h.1.1, (ih s).mpr ⟨h.1.2, h.2⟩⟩

/-- What every operation keeps, a program that runs alone keeps. -/
lemma invariant_alone {inv : σ → Prop} (hstep : ∀ s op, inv s → inv (effect op s))
    {p : Program σ κ α} {s : σ} (h : inv s) : inv (p.alone effect s).2 := by
  induction p generalizing s with
  | done a => exact h
  | step op next ih => exact ih s (hstep s op h)

end Alone

/-! ### What a program looks at -/

section Watching

variable (R : σ → κ → Prop)

/-- The operation that follows one is only carried out when the state that the one found is as
`R` asks for it. -/
def Watches : Program σ κ α → Prop
  | done _ => True
  | step _ next => ∀ s, (∀ op ∈ (next s).head, R s op) ∧ (next s).Watches

/-- A program that watches and does not begin with an operation that asks for anything. -/
structure Careful (p : Program σ κ α) : Prop where
  first : ∀ op ∈ p.head, ∀ s, R s op
  watches : p.Watches R

variable {R}

lemma careful_done (a : α) : Careful R (done a : Program σ κ α) :=
  ⟨fun op h => by simp [head] at h, trivial⟩

lemma Watches.bind {p : Program σ κ α} {f : α → Program σ κ β} (hp : p.Watches R)
    (hf : ∀ a, Careful R (f a)) : (p.bind f).Watches R := by
  induction p with
  | done a => exact (hf a).watches
  | step op next ih =>
      refine fun s => ⟨fun op' (hop : op' ∈ ((next s).bind f).head) => ?_, ih s (hp s).2⟩
      cases hnext : next s with
      | done a =>
          rw [hnext] at hop
          exact (hf a).first op' hop s
      | step op'' next'' =>
          have hlook : op' ∈ (next s).head := by
            rw [hnext] at hop ⊢
            exact hop
          exact (hp s).1 op' hlook

lemma Careful.bind {p : Program σ κ α} {f : α → Program σ κ β} (hp : Careful R p)
    (hf : ∀ a, Careful R (f a)) : Careful R (p.bind f) where
  first op hop s := by
    cases p with
    | done a => exact (hf a).first op hop s
    | step op' next => exact hp.first op hop s
  watches := hp.watches.bind hf

end Watching

end Program

/-! ### The machine -/

/-- A program under way, and the state that its last operation found. -/
structure Thread (σ κ α : Type) where
  program : Program σ κ α
  seen : Option σ

/-- The programs under way, and the state on which they work. -/
structure Config (σ κ α : Type) where
  state : σ
  threads : List (Thread σ κ α)

/-- A program starts, or one of those under way carries out its next operation. -/
inductive Event (γ : Type) where
  | start (call : γ)
  | tick (thread : ℕ)

variable {σ κ α γ : Type}

/-- A thread after its next operation, which finds a state. -/
def Thread.tick (t : Thread σ κ α) (s : σ) : Thread σ κ α :=
  match t.program with
  | .done _ => t
  | .step _ next => ⟨next s, some s⟩

namespace Config

/-- The operation of an event. -/
def operation (c : Config σ κ α) : Event γ → Option κ
  | .start _ => none
  | .tick i => c.threads[i]?.bind fun t => t.program.head

section Machine

variable (effect : κ → σ → σ) (program : γ → Program σ κ α)

def after (c : Config σ κ α) : Event γ → Config σ κ α
  | .start call => { c with threads := c.threads ++ [⟨program call, none⟩] }
  | .tick i =>
      { state := ((c.threads[i]?.bind fun t => t.program.head).map (effect · c.state)).getD c.state
        threads := c.threads.modify i (Thread.tick · c.state) }

variable {effect program}

lemma state_after (c : Config σ κ α) (e : Event γ) :
    (c.after effect program e).state = ((c.operation e).map (effect · c.state)).getD c.state := by
  cases e <;> rfl

/-- A thread has just looked at what its next operation asks for. -/
structure Watched (R : σ → κ → Prop) (t : Thread σ κ α) : Prop where
  watches : t.program.Watches R
  seen : ∀ op ∈ t.program.head, ∀ s, (∀ found ∈ t.seen, found = s) → R s op

lemma Watched.tick {R : σ → κ → Prop} {t : Thread σ κ α} (h : Watched R t) (s : σ) :
    Watched R (t.tick s) := by
  obtain ⟨p, found⟩ := t
  cases p with
  | done a => exact h
  | step op next =>
      refine ⟨(h.watches s).2, fun op' hop s' hs' => ?_⟩
      rw [← hs' s rfl]
      exact (h.watches s).1 op' hop

variable {R : σ → κ → Prop} {c : Config σ κ α}

lemma watched_after (hprogram : ∀ call, (program call).Careful R)
    (hc : ∀ t ∈ c.threads, Watched R t) (e : Event γ) :
    ∀ t ∈ (c.after effect program e).threads, Watched R t := by
  intro t ht
  cases e with
  | start call =>
      rcases List.mem_append.mp ht with ht | ht
      · exact hc t ht
      · obtain rfl := List.mem_singleton.mp ht
        exact ⟨(hprogram call).watches, fun op hop s _ => (hprogram call).first op hop s⟩
  | tick i =>
      obtain ⟨j, hj⟩ := List.mem_iff_getElem?.mp ht
      simp only [after, List.getElem?_modify] at hj
      obtain ⟨t', ht', rfl⟩ := Option.map_eq_some_iff.mp hj
      have hwatched : Watched R t' := hc t' (List.mem_of_getElem? ht')
      split
      · exact hwatched.tick c.state
      · exact hwatched

end Machine

end Config

end McpSurfaces
