import McpSurfaces.Foundation.Calls

/-!
The lock of a synchronisation (`SyncLock`): a directory that `create_dir` makes, that its holder
removes when it is dropped, and that a waiter removes when it is older than an hour.

* `State`, `after`: any number of processes, one file operation at a time. Makings of the
  directory are numbered, which the code cannot see.
* `Timely`: what a waiter removes is the directory that it looked at.
* **`excludes_of_timely`**: in a run of which every step is timely no two processes hold the lock,
  and each drop removes the lock that its process made.
* `two_holders`: two waiters look at one stale directory, and the second removes the first's lock.
-/

namespace McpSurfaces

namespace Mailbox

namespace SyncLock

open Calls (run Each)

/-- The directory `state/sync.lock`. -/
structure LockDir where
  birth : ℕ
  made : ℕ
  modified : ℕ
  deriving DecidableEq

/-- Where a process is: before `acquire`, in its loop, in the write of `meta.json`, or holding
the lock. -/
inductive Phase where
  | idle
  | creating
  | judging
  | waiting
  | removing (judged : ℕ)
  | ensuring (own : ℕ)
  | drafting (own : ℕ)
  | installing (own : ℕ)
  | withdrawing (own : ℕ)
  | holding (own : ℕ)
  | crashed
  deriving DecidableEq

/-- The making of the directory that a process takes for its own. -/
def Phase.own : Phase → Option ℕ
  | .ensuring b | .drafting b | .installing b | .withdrawing b | .holding b => some b
  | _ => none

/-- The making of the directory that a waiter judged stale. -/
def Phase.judged : Phase → Option ℕ
  | .removing b => some b
  | _ => none

/-- Between the `Ok` of `acquire` and the drop. -/
def Phase.Holding : Phase → Prop
  | .holding _ => True
  | _ => False

instance : DecidablePred Phase.Holding
  | .holding _ => isTrue trivial
  | .idle | .creating | .judging | .waiting | .removing _ | .ensuring _ | .drafting _
  | .installing _ | .withdrawing _ | .crashed => isFalse id

/-- The file system and the processes, and the time in milliseconds. -/
structure State (n : ℕ) where
  now : ℕ
  births : ℕ
  lock : Option LockDir
  phase : Fin n → Phase

variable {n : ℕ} {s : State n} {p q : Fin n} {b : ℕ}

def State.start (n : ℕ) : State n := ⟨0, 0, none, fun _ => .idle⟩

def State.goTo (s : State n) (p : Fin n) (phase : Phase) : State n :=
  { s with phase := Function.update s.phase p phase }

/-- `create_dir`, where there is no directory. -/
def State.make (s : State n) : State n :=
  { s with births := s.births + 1, lock := some ⟨s.births, s.now, s.now⟩ }

/-- A file is put into the directory. -/
def State.touch (s : State n) : State n :=
  { s with lock := s.lock.map fun l => { l with modified := s.now } }

/-- `remove_dir_all`, whose error is ignored. -/
def State.remove (s : State n) : State n := { s with lock := none }

def hour : ℕ := 3600000

/-- The age at which a waiter takes a directory for left behind. -/
def LockDir.Stale (l : LockDir) (now : ℕ) : Prop := now - l.modified > hour

instance (l : LockDir) (now : ℕ) : Decidable (l.Stale now) := inferInstanceAs (Decidable (_ > _))

/-- The next operation of a process. With `fails` an operation ends in an error of the disk, and a
waiter has waited for its whole time. -/
def go (s : State n) (p : Fin n) (fails : Bool) : State n :=
  match s.phase p with
  | .idle => s.goTo p .creating
  | .creating =>
      if fails then s.goTo p .idle else
      match s.lock with
      | none => s.make.goTo p (.ensuring s.births)
      | some _ => s.goTo p .judging
  | .judging =>
      match s.lock with
      | none => s.goTo p .waiting
      | some l => if l.Stale s.now then s.goTo p (.removing l.birth) else s.goTo p .waiting
  | .waiting => s.goTo p (if fails then .idle else .creating)
  | .removing _ => s.remove.goTo p .creating
  -- `atomic_write` makes the directory once more, in case it is gone
  | .ensuring own =>
      if fails then s.goTo p (.withdrawing own) else
      match s.lock with
      | none => s.make.goTo p (.drafting s.births)
      | some _ => s.goTo p (.drafting own)
  | .drafting own =>
      if fails ∨ s.lock = none then s.goTo p (.withdrawing own)
      else s.touch.goTo p (.installing own)
  | .installing own =>
      if fails ∨ s.lock = none then s.goTo p (.withdrawing own) else s.touch.goTo p (.holding own)
  | .withdrawing _ => s.remove.goTo p .idle
  | .holding _ => s.remove.goTo p .idle
  | .crashed => s

inductive Action (n : ℕ) where
  | tick (ms : ℕ)
  | go (p : Fin n) (fails : Bool)
  | crash (p : Fin n)

def after (s : State n) : Action n → State n
  | .tick ms => { s with now := s.now + ms }
  | .go p fails => go s p fails
  | .crash p => s.goTo p .crashed

/-! ### What is promised, and under what -/

/-- No live process holds the directory for longer than an hour. -/
def Brief (s : State n) : Prop :=
  ∀ p, ∀ l ∈ s.lock, (s.phase p).own = some l.birth → s.now ≤ l.made + hour

/-- A drop finds the lock that its process made, or none. -/
def DropsOwn (s : State n) : Action n → Prop
  | .go p _ => (s.phase p).Holding → ∀ l ∈ s.lock, (s.phase p).own = some l.birth
  | _ => True

/-- What a waiter removes as stale is the directory that it looked at. -/
def Timely (s : State n) : Action n → Prop
  | .go p _ => ∀ b ∈ (s.phase p).judged, ∀ l ∈ s.lock, l.birth = b
  | _ => True

instance : Decidable (Brief s) := inferInstanceAs (Decidable (∀ _, _))

instance : ∀ a : Action n, Decidable (Timely s a)
  | .go _ _ => inferInstanceAs (Decidable (∀ _, _))
  | .tick _ | .crash _ => inferInstanceAs (Decidable True)

instance : ∀ a : Action n, Decidable (DropsOwn s a)
  | .go _ _ => inferInstanceAs (Decidable (_ → _))
  | .tick _ | .crash _ => inferInstanceAs (Decidable True)

/-! ### The invariant -/

/-- Whoever takes a directory for its own is the only one, and has the directory that is there.
Nobody has a directory that a waiter is about to remove. -/
structure Sound (s : State n) : Prop where
  owned : ∀ p b, (s.phase p).own = some b → ∃ l ∈ s.lock, l.birth = b
  alone : ∀ p q b c, (s.phase p).own = some b → (s.phase q).own = some c → p = q
  fresh : ∀ l ∈ s.lock, l.birth < s.births ∧ l.made ≤ l.modified ∧ l.modified ≤ s.now
  judged : ∀ p, ∀ b ∈ (s.phase p).judged, b < s.births ∧ ∀ q, (s.phase q).own ≠ some b

lemma sound_start : Sound (State.start n) where
  owned _ _ h := nomatch h
  alone _ _ _ _ h := nomatch h
  fresh _ h := nomatch h
  judged _ _ h := nomatch h

/-- A process goes on, with what it had or with nothing. -/
lemma Sound.goTo (h : Sound s) {next : Phase} (hown : ∀ b ∈ next.own, (s.phase p).own = some b)
    (hnext : ∀ b ∈ next.judged, b < s.births ∧ ∀ q, (s.phase q).own ≠ some b) :
    Sound (s.goTo p next) := by
  have hphase : ∀ q b, ((s.goTo p next).phase q).own = some b → (s.phase q).own = some b := by
    intro q b hq
    by_cases hqp : q = p
    · subst hqp
      exact hown b (by simpa [State.goTo] using hq)
    · simpa [State.goTo, hqp] using hq
  refine ⟨fun q b hq => h.owned q b (hphase q b hq),
    fun q r b c hq hr => h.alone q r b c (hphase q b hq) (hphase r c hr), h.fresh, ?_⟩
  intro q b hq
  by_cases hqp : q = p
  · subst hqp
    obtain ⟨hb, hall⟩ := hnext b (by simpa [State.goTo] using hq)
    exact ⟨hb, fun r hr => hall r (hphase r b hr)⟩
  · obtain ⟨hb, hall⟩ := h.judged q b (by simpa [State.goTo, hqp] using hq)
    exact ⟨hb, fun r hr => hall r (hphase r b hr)⟩

/-- A process makes the directory, where nobody has one. -/
lemma Sound.make (h : Sound s) (hnone : s.lock = none) {next : Phase}
    (hnext : next.own = some s.births) : Sound (s.make.goTo p next) := by
  have hfree : ∀ q b, (s.phase q).own ≠ some b := by
    intro q b hq
    obtain ⟨l, hl, -⟩ := h.owned q b hq
    rw [hnone] at hl
    exact nomatch hl
  have hphase : ∀ q b, ((s.make.goTo p next).phase q).own = some b → q = p ∧ b = s.births := by
    intro q b hq
    by_cases hqp : q = p
    · subst hqp
      have hb : next.own = some b := by simpa [State.goTo] using hq
      exact ⟨rfl, (Option.some.inj (hnext.symm.trans hb)).symm⟩
    · exact absurd (by simpa [State.goTo, State.make, hqp] using hq) (hfree q b)
  refine ⟨?_, ?_, ?_, ?_⟩
  · intro q b hq
    exact ⟨_, rfl, (hphase q b hq).2.symm⟩
  · intro q r b c hq hr
    exact (hphase q b hq).1.trans (hphase r c hr).1.symm
  · intro l hl
    obtain rfl := Option.some.inj hl
    exact ⟨Nat.lt_succ_self _, le_rfl, le_rfl⟩
  · intro q b hq
    have hold : (s.phase q).judged = some b := by
      by_cases hqp : q = p
      · subst hqp
        have hb : next.judged = some b := by simpa [State.goTo] using hq
        cases next <;> simp [Phase.own, Phase.judged] at hb hnext
      · simpa [State.goTo, State.make, hqp] using hq
    have hb := (h.judged q b hold).1
    refine ⟨Nat.lt_succ_of_lt hb, fun r hr => ?_⟩
    have hbirth := (hphase r b hr).2
    omega

lemma Sound.touch (h : Sound s) : Sound s.touch := by
  refine ⟨?_, h.alone, ?_, h.judged⟩
  · intro p b hp
    obtain ⟨l, hl, hb⟩ := h.owned p b hp
    exact ⟨_, Option.mem_map_of_mem _ hl, hb⟩
  · intro l hl
    obtain ⟨l', hl', rfl⟩ := Option.mem_map.mp hl
    obtain ⟨hb, hmade, hmod⟩ := h.fresh l' hl'
    exact ⟨hb, hmade.trans hmod, le_rfl⟩

/-- The directory is removed, where nobody else has it. -/
lemma Sound.remove (h : Sound s) {next : Phase} (hnext : next = .idle ∨ next = .creating)
    (hfree : ∀ q b, q ≠ p → (s.phase q).own ≠ some b) : Sound (s.remove.goTo p next) := by
  have hphase : ∀ q b, ((s.remove.goTo p next).phase q).own ≠ some b := by
    intro q b hq
    by_cases hqp : q = p
    · subst hqp
      rcases hnext with rfl | rfl <;> simp [State.goTo, Phase.own] at hq
    · exact hfree q b hqp (by simpa [State.goTo, State.remove, hqp] using hq)
  refine ⟨fun q b hq => absurd hq (hphase q b), fun q _ b _ hq => absurd hq (hphase q b),
    fun _ hl => (nomatch hl), ?_⟩
  intro q b hq
  have hold : (s.phase q).judged = some b := by
    by_cases hqp : q = p
    · subst hqp
      rcases hnext with rfl | rfl <;> simp [State.goTo, Phase.judged] at hq
    · simpa [State.goTo, State.remove, hqp] using hq
  exact ⟨(h.judged q b hold).1, fun r => hphase r b⟩

/-- Whoever has a directory of its own has the one that is there, and nobody else has one. -/
lemma Sound.others (h : Sound s) (hp : (s.phase p).own = some b) :
    ∀ q c, q ≠ p → (s.phase q).own ≠ some c :=
  fun q c hqp hq => hqp (h.alone q p c b hq hp)

lemma Sound.exists_lock (h : Sound s) (hp : (s.phase p).own = some b) :
    s.lock ≠ none := by
  obtain ⟨l, hl, -⟩ := h.owned p b hp
  rw [hl]
  exact Option.some_ne_none l

/-- A directory that is stale is nobody's, as long as nobody keeps it for longer than an hour. -/
lemma Sound.notMine_of_stale (h : Sound s) (hbrief : Brief s) {l : LockDir} (hl : l ∈ s.lock)
    (hstale : l.Stale s.now) : (s.phase q).own ≠ some l.birth := by
  intro hq
  have hage := hbrief q l hl hq
  have hmade := (h.fresh l hl).2.1
  rw [LockDir.Stale] at hstale
  omega

/-- **One operation of a process**, while nobody keeps the lock too long. -/
lemma Sound.go (h : Sound s) (hbrief : Brief s) {fails : Bool} (htime : Timely s (.go p fails)) :
    Sound (go s p fails) := by
  have hkeep : ∀ next : Phase, next.own = none → next.judged = none → Sound (s.goTo p next) := by
    intro next hown hjudged
    refine h.goTo ?_ ?_
    · intro b hb
      rw [hown] at hb
      exact nomatch hb
    · intro b hb
      rw [hjudged] at hb
      exact nomatch hb
  have hgrow : ∀ {t : State n} {next : Phase} {own : ℕ}, Sound t → t.phase p = s.phase p →
      (s.phase p).own = some own → next.own = some own → Sound (t.goTo p next) := by
    intro t next own ht hphase hown hnext
    refine ht.goTo ?_ ?_
    · intro b hb
      rw [hphase, hown, ← hnext]
      exact hb
    · intro b hb
      cases next <;> simp [Phase.own, Phase.judged] at hnext hb
  rw [SyncLock.go]
  cases hp : s.phase p with
  | idle => exact hkeep _ rfl rfl
  | creating =>
      cases fails with
      | true => exact hkeep _ rfl rfl
      | false =>
          cases hl : s.lock with
          | none => exact h.make hl rfl
          | some l => exact hkeep _ rfl rfl
  | judging =>
      cases hl : s.lock with
      | none => exact hkeep _ rfl rfl
      | some l =>
          by_cases hstale : l.Stale s.now
          · simp only [if_pos hstale]
            refine h.goTo (fun b hb => nomatch hb) ?_
            intro b hb
            obtain rfl := Option.some.inj hb
            exact ⟨(h.fresh l hl).1, fun q => h.notMine_of_stale hbrief hl hstale⟩
          · simp only [if_neg hstale]
            exact hkeep _ rfl rfl
  | waiting =>
      cases fails with
      | true => exact hkeep _ rfl rfl
      | false => exact hkeep _ rfl rfl
  | removing judged =>
      -- what is there is what was looked at, and that is nobody's
      refine h.remove (.inr rfl) ?_
      intro q b _ hq
      have hjudged : (s.phase p).judged = some judged := by rw [hp]; rfl
      obtain ⟨l, hl, rfl⟩ := h.owned q b hq
      have hbirth := htime judged hjudged l hl
      exact (h.judged p judged hjudged).2 q (hbirth ▸ hq)
  | ensuring own =>
      have hown : (s.phase p).own = some own := by rw [hp]; rfl
      cases fails with
      | true => exact hgrow h rfl hown rfl
      | false =>
          cases hl : s.lock with
          | none => exact absurd hl (h.exists_lock hown)
          | some l => exact hgrow h rfl hown rfl
  | drafting own =>
      have hown : (s.phase p).own = some own := by rw [hp]; rfl
      by_cases hfail : fails ∨ s.lock = none
      · simp only [if_pos hfail]
        exact hgrow h rfl hown rfl
      · simp only [if_neg hfail]
        exact hgrow h.touch rfl hown rfl
  | installing own =>
      have hown : (s.phase p).own = some own := by rw [hp]; rfl
      by_cases hfail : fails ∨ s.lock = none
      · simp only [if_pos hfail]
        exact hgrow h rfl hown rfl
      · simp only [if_neg hfail]
        exact hgrow h.touch rfl hown rfl
  | withdrawing own =>
      have hown : (s.phase p).own = some own := by rw [hp]; rfl
      exact h.remove (.inl rfl) (h.others hown)
  | holding own =>
      have hown : (s.phase p).own = some own := by rw [hp]; rfl
      exact h.remove (.inl rfl) (h.others hown)
  | crashed => exact h

/-- **One step of a run.** -/
lemma Sound.after (h : Sound s) {a : Action n} (ha : Brief s ∧ Timely s a) :
    Sound (after s a) := by
  cases a with
  | tick ms =>
      refine ⟨h.owned, h.alone, ?_, h.judged⟩
      intro l hl
      obtain ⟨hb, hmade, hmod⟩ := h.fresh l hl
      exact ⟨hb, hmade, hmod.trans (Nat.le_add_right _ _)⟩
  | go p fails => exact h.go ha.1 ha.2
  | crash p => exact h.goTo (fun b hb => nomatch hb) (fun b hb => nomatch hb)

lemma own_of_holding (hp : (s.phase p).Holding) : ∃ b, (s.phase p).own = some b := by
  cases hphase : s.phase p with
  | holding own => exact ⟨own, rfl⟩
  | _ =>
      rw [hphase] at hp
      exact hp.elim

/-- **The lock excludes**, in a run in which every waiter removes the directory that it looked at:
no two processes hold it at its end, and each drop on the way removed the lock of its own
process. -/
theorem excludes_of_timely {actions : List (Action n)}
    (hbrief : Each after (fun s _ => Brief s) (State.start n) actions)
    (htimely : Each after Timely (State.start n) actions) :
    (∀ p q, ((run after (State.start n) actions).phase p).Holding →
      ((run after (State.start n) actions).phase q).Holding → p = q) ∧
    Each after DropsOwn (State.start n) actions := by
  have hstep : ∀ (s : State n) a, Sound s → Brief s ∧ Timely s a → Sound (after s a) :=
    fun s a h ha => h.after ha
  constructor
  · intro p q hp hq
    have hs := Calls.invariant_run hstep sound_start (hbrief.and htimely)
    obtain ⟨b, hb⟩ := own_of_holding hp
    obtain ⟨c, hc⟩ := own_of_holding hq
    exact hs.alone p q b c hb hc
  · refine Each.of_invariant hstep ?_ sound_start (hbrief.and htimely)
    intro s a hs _
    cases a with
    | go p fails =>
        intro hp l hl
        obtain ⟨b, hb⟩ := own_of_holding hp
        obtain ⟨l', hl', hbirth⟩ := hs.owned p b hb
        obtain rfl := Option.mem_unique hl hl'
        rw [hb, hbirth]
    | tick ms => trivial
    | crash p => trivial

/-- The next operations of a process. -/
def steps (p : Fin n) (k : ℕ) : List (Action n) := List.replicate k (.go p false)

/-- A process crashes with the lock, and an hour later another removes its directory. -/
theorem excludes_behind_crash :
    let actions : List (Action 2) :=
      steps 0 5 ++ [.crash 0, .tick 3600001] ++ steps 1 8 ++ [.go 1 false]
    (∀ p q, ((run after (State.start 2) actions).phase p).Holding →
      ((run after (State.start 2) actions).phase q).Holding → p = q) ∧
    Each after DropsOwn (State.start 2) actions :=
  excludes_of_timely (by decide) (by decide)

/-- Two waiters find one directory stale. The first removes it, makes its own and holds it; then
the second removes that one. Both hold the lock, and the first that drops it removes the lock of
the other. -/
theorem two_holders :
    ¬ ∀ (n : ℕ) (actions : List (Action n)),
      Each after (fun s _ => Brief s) (State.start n) actions →
      (∀ p q, ((run after (State.start n) actions).phase p).Holding →
        ((run after (State.start n) actions).phase q).Holding → p = q) ∧
      Each after DropsOwn (State.start n) actions := by
  intro h
  have hrun := (h 3 (steps 0 5 ++ [.crash 0, .tick 3600001] ++ steps 1 3 ++ steps 2 3 ++
    steps 1 5 ++ steps 2 5) (by decide)).1 1 2
  exact absurd (hrun (by decide) (by decide)) (by decide)

end SyncLock

end Mailbox

end McpSurfaces
