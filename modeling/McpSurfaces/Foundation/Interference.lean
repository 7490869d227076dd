import McpSurfaces.Foundation.Interleaving

/-!
Programs that work on one state among others, whose changes they rely on.

* `Within`: what a program does on any states that meet `W`, with a rule for each way to put
  programs together.
* `Secure`: what it does where the others change the state only as it relies on.
  **`secure_of_within`** proves it of a program that relies on `W` being kept.
* `Config.act`: the machine of programs, on which changes are also made from outside.
* **`operations_of_spared`**: in a run in which every program is spared by the others, each
  operation is carried out where it may be.
-/

namespace McpSurfaces

open Calls (run Each)

namespace Program

variable {σ κ α β : Type}

/-! ### On any states -/

/-- A program that finds states which meet `W` carries out each operation where it meets `P`, and
answers what meets `Q`. -/
def Within (W : σ → Prop) (P : σ → κ → Prop) (Q : α → Prop) : Program σ κ α → Prop
  | done a => Q a
  | step op next => ∀ s, W s → P s op ∧ (next s).Within W P Q

section Within

variable {W W' : σ → Prop} {P P' : σ → κ → Prop} {Q Q' : α → Prop}

lemma within_bind {p : Program σ κ α} {f : α → Program σ κ β} {Q : β → Prop} :
    (p.bind f).Within W P Q ↔ p.Within W P fun a => (f a).Within W P Q := by
  induction p with
  | done a => rfl
  | step op next ih => exact forall₂_congr fun s _ => and_congr_right' (ih s)

lemma Within.mono {p : Program σ κ α} (h : p.Within W P Q) (hW : ∀ s, W' s → W s)
    (hP : ∀ s op, W' s → P s op → P' s op) (hQ : ∀ a, Q a → Q' a) : p.Within W' P' Q' := by
  induction p with
  | done a => exact hQ a h
  | step op next ih =>
      intro s hs
      obtain ⟨hop, hnext⟩ := h s (hW s hs)
      exact ⟨hP s op hs hop, ih s hnext⟩

end Within

/-! ### Among others -/

section Secure

variable (effect : κ → σ → σ) (rely : Program σ κ α → σ → σ → Prop) (P : σ → κ → Prop)

/-- A program carries out each operation where it meets `P`, as long as the others change the
state only as the program relies on. -/
def Secure : Program σ κ α → σ → Prop
  | done _, _ => True
  | step op next, s => ∀ t, rely (step op next) s t → P t op ∧ (next t).Secure (effect op t)

variable {effect rely P}

lemma Secure.of_rely {p : Program σ κ α} {s t : σ} (h : p.Secure effect rely P s)
    (htrans : ∀ u, rely p t u → rely p s u) : p.Secure effect rely P t := by
  cases p with
  | done a => trivial
  | step op next => exact fun u hu => h u (htrans u hu)

/-- What comes before, where it does nothing that asks for others to be careful. -/
lemma secure_bind {p : Program σ κ β} {f : β → Program σ κ α} {s : σ}
    (hp : p.Within (fun _ => True) P fun b => ∀ s, (f b).Secure effect rely P s) :
    (p.bind f).Secure effect rely P s := by
  induction p generalizing s with
  | done b => exact hp s
  | step op next ih => exact fun t _ => ⟨(hp t trivial).1, ih t (hp t trivial).2⟩

lemma secure_of_everywhere {p : Program σ κ α} {Q : α → Prop} {s : σ}
    (h : p.Within (fun _ => True) P Q) : p.Secure effect rely P s := by
  induction p generalizing s with
  | done a => trivial
  | step op next ih => exact fun t _ => ⟨(h t trivial).1, ih t (h t trivial).2⟩

/-- **A program that relies on `W` being kept**, and keeps it, from a state that meets `W`. The
programs that it goes on as are in `E`. -/
theorem secure_of_within {W : σ → Prop} {P' : σ → κ → Prop} {E : Program σ κ α → Prop}
    {Q : α → Prop} (hnext : ∀ op next s, E (step op next) → E (next s))
    (hrely : ∀ op next s t, E (step op next) → rely (step op next) s t → W s → W t)
    (hP : ∀ s op, P' s op → P s op) (heffect : ∀ s op, W s → P' s op → W (effect op s))
    {p : Program σ κ α} (hp : E p) {s : σ} (hs : W s) (h : p.Within W P' Q) :
    p.Secure effect rely P s := by
  induction p generalizing s with
  | done a => trivial
  | step op next ih =>
      intro t ht
      have hkept : W t := hrely op next s t hp ht hs
      obtain ⟨hop, hwithin⟩ := h t hkept
      exact ⟨hP t op hop, ih t (hnext op next t hp) (heffect t op hkept hop) hwithin⟩

end Secure

end Program

/-! ### The machine, with changes from outside -/

/-- An event of the machine, or a change from outside. -/
inductive Act (γ ε : Type) where
  | event (e : Event γ)
  | edit (change : ε)

variable {σ κ α γ ε : Type}

namespace Config

/-- The operation that a program carries out in an act. -/
def performed (c : Config σ κ α) : Act γ ε → Option κ
  | .event e => c.operation e
  | .edit _ => none

/-- Whether an act is an operation of a thread. -/
def Acts (i : ℕ) : Act γ ε → Prop
  | .event (.tick j) => i = j
  | _ => False

section Machine

variable (effect : κ → σ → σ) (program : γ → Program σ κ α) (write : ε → σ → σ)

def act (c : Config σ κ α) : Act γ ε → Config σ κ α
  | .event e => c.after effect program e
  | .edit change => { c with state := write change c.state }

variable (rely : Program σ κ α → σ → σ → Prop)

/-- An act changes the state only as the programs of the other threads rely on. -/
def Spared (c : Config σ κ α) (a : Act γ ε) : Prop :=
  ∀ i t, c.threads[i]? = some t → ¬ Acts i a →
    rely t.program c.state (c.act effect program write a).state

variable {effect program write rely} {P : σ → κ → Prop}

/-- Every program under way is secure. -/
def AllSecure (effect : κ → σ → σ) (rely : Program σ κ α → σ → σ → Prop) (P : σ → κ → Prop)
    (c : Config σ κ α) : Prop := ∀ t ∈ c.threads, t.program.Secure effect rely P c.state

lemma state_tick (c : Config σ κ α) {i : ℕ} {t : Thread σ κ α} {op : κ} {next}
    (ht : c.threads[i]? = some t) (hp : t.program = .step op next) :
    (c.after effect program (.tick i)).state = effect op c.state := by
  rw [state_after, operation, ht, Option.bind_some, hp]
  rfl

lemma allSecure_act (hprogram : ∀ call s, (program call).Secure effect rely P s)
    (hrefl : ∀ p s, rely p s s) (htrans : ∀ p s t u, rely p s t → rely p t u → rely p s u)
    {c : Config σ κ α} {a : Act γ ε} (hc : AllSecure effect rely P c)
    (hspared : c.Spared effect program write rely a) :
    AllSecure effect rely P (c.act effect program write a) := by
  have hkept : ∀ i t, c.threads[i]? = some t → ¬ Acts i a →
      t.program.Secure effect rely P (c.act effect program write a).state := by
    intro i t ht hacts
    exact (hc t (List.mem_of_getElem? ht)).of_rely fun u hu =>
      htrans _ _ _ _ (hspared i t ht hacts) hu
  intro t ht
  cases a with
  | edit change =>
      obtain ⟨i, hi⟩ := List.mem_iff_getElem?.mp ht
      exact hkept i t hi id
  | event e =>
      cases e with
      | start call =>
          rcases List.mem_append.mp ht with ht | ht
          · obtain ⟨i, hi⟩ := List.mem_iff_getElem?.mp ht
            exact hkept i t hi id
          · obtain rfl := List.mem_singleton.mp ht
            exact hprogram call _
      | tick j =>
          obtain ⟨i, hi⟩ := List.mem_iff_getElem?.mp ht
          simp only [act, after, List.getElem?_modify] at hi
          obtain ⟨t', ht', rfl⟩ := Option.map_eq_some_iff.mp hi
          split
          · rename_i hij
            subst hij
            have hsecure : t'.program.Secure effect rely P c.state :=
              hc t' (List.mem_of_getElem? ht')
            cases hp : t'.program with
            | done a =>
                rw [Thread.tick, hp, hp]
                trivial
            | step op next =>
                rw [hp] at hsecure
                show (t'.tick c.state).program.Secure effect rely P
                  (c.after effect program (.tick j)).state
                rw [state_tick c ht' hp, Thread.tick, hp]
                exact (hsecure c.state (hrefl _ _)).2
          · rename_i hij
            exact hkept i t' ht' fun h => hij h.symm

/-- The next operation of a secure program is carried out where it may be. -/
lemma AllSecure.performed (hrefl : ∀ p s, rely p s s) {c : Config σ κ α}
    (hc : AllSecure effect rely P c) (a : Act γ ε) : ∀ op ∈ c.performed a, P c.state op := by
  intro op hop
  cases a with
  | edit change => cases hop
  | event e =>
      cases e with
      | start call => cases hop
      | tick i =>
          obtain ⟨t, ht, hhead⟩ := Option.bind_eq_some_iff.mp hop
          have hsecure := hc t (List.mem_of_getElem? ht)
          cases hp : t.program with
          | done a =>
              rw [hp] at hhead
              cases hhead
          | step op' next =>
              rw [hp] at hhead hsecure
              cases hhead
              exact (hsecure c.state (hrefl _ _)).1

/-- **In a run in which every program is spared by the others**, each operation is carried out
where it may be. -/
theorem operations_of_spared (hprogram : ∀ call s, (program call).Secure effect rely P s)
    (hrefl : ∀ p s, rely p s s) (htrans : ∀ p s t u, rely p s t → rely p t u → rely p s u)
    {acts : List (Act γ ε)} {c : Config σ κ α} (hc : AllSecure effect rely P c)
    (hspared : Each (act effect program write)
      (fun c a => c.Spared effect program write rely a) c acts) :
    Each (act effect program write) (fun c a => ∀ op ∈ c.performed a, P c.state op) c acts := by
  induction acts generalizing c with
  | nil => trivial
  | cons a rest ih =>
      exact ⟨hc.performed hrefl a,
        ih (allSecure_act hprogram hrefl htrans hc hspared.1) hspared.2⟩

end Machine

end Config

end McpSurfaces
