import McpSurfaces.Executability.Store
import McpSurfaces.Foundation.Interference

/-!
Overrides of the executability of a task, and the dispatches that they authorize.

* `Statement`: the statements of `executability_override` and `executability_dispatch_check`, each of
  them atomic. `Call.program`: the calls, in these statements.
* `Consumes`: a dispatch check consumes an override that is still open for it.
* **`dispatched_le_admitted`**: in a run in which every check does, no more dispatches go by an
  override than overrides were admitted.
* `override_dispatches_twice`: two checks that select the same override both go by it.
-/

namespace McpSurfaces

namespace Executability

open EventLedger (Digest)
open TaskLifecycle (stringArg requiredString requiredI64 optionText)
open Table (updateWhere)
open Calls (run Each)

/-! ### Statements -/

inductive Statement where
  | query
  | upsert (o : Override)
  | consume (overrideId now : String)

/-- What an upsert of an override leaves: the row of its id is replaced where it stands. -/
def Db.upsert (o : Override) (db : Db) : Db :=
  let overrides :=
    if ∃ q ∈ db.overrides, q.overrideId = o.overrideId then
      updateWhere (fun q => q.overrideId = o.overrideId) (fun _ => o) db.overrides
    else db.overrides ++ [o]
  { db with overrides }

/-- `set consumed_at=?1 where override_id=?2 and consumed_at is null`. -/
def Db.consume (overrideId now : String) (db : Db) : Db :=
  let overrides :=
    updateWhere (fun o => o.overrideId = overrideId ∧ o.consumedAt = none)
      (fun o => { o with consumedAt := some now }) db.overrides
  { db with overrides }

def Statement.exec : Statement → Db → Db
  | query, db => db
  | upsert o, db => db.upsert o
  | consume overrideId now, db => db.consume overrideId now

/-! ### Answers -/

inductive Basis where
  | assessment
  | override
  | none
deriving DecidableEq, Repr

/-- The answer to a dispatch check. -/
structure Dispatch where
  basis : Basis
  assessmentId : Option String
  purpose : Purpose
  environmentDigest : String

/-- The answer to a call that admits an override. -/
structure Admitted where
  number : ℤ
  override : Override
  environmentDigest : String

inductive Answer where
  | dispatch (d : Dispatch)
  | admitted (a : Admitted)

/-! ### Calls -/

abbrev Surface (α : Type) := ExceptT String (Program Db Statement) α

def query {α : Type} (f : Db → α) : Surface α :=
  ExceptT.mk (.step .query fun db => .done (.ok (f db)))

def execute (st : Statement) : Surface Unit := ExceptT.mk (.step st fun _ => .done (.ok ()))

/-- An ending that the call does not decide. -/
def ending {α : Type} (r : Except String α) : Surface α := ExceptT.mk (.done r)

section Calls

variable [FloatText] [Digest]

structure OverrideRequest where
  number : ℤ
  actor : String
  reason : String
  kind : String
  summary : String
  fingerprint : Option String

section

omit [FloatText] [Digest]

/-- A text that is not blank. -/
def filledArg (v : Value) (key : String) : Option String :=
  (stringArg v key).filter fun s => Str.trim s ≠ ""

/-- The arguments of `task_executability_override`. -/
def overrideRequest (args : Value) : Except String OverrideRequest := do
  let number ← requiredI64 args "task_number"
  let actor ← requiredString args "agent_id"
  let reason ← requiredString args "reason"
  match (args.get "authority_basis").filter fun v => v.asObject.isSome with
  | none => throw "override_authority_basis_required"
  | some basis =>
      match filledArg basis "kind", filledArg basis "summary" with
      | some kind, some summary =>
          return { number, actor, reason, kind, summary
                   fingerprint := stringArg args "dispatch_fingerprint" }
      | _, _ => throw "override_authority_basis_requires_kind_and_summary"

end

/-- What an override or a dispatch is for. -/
def Context.purpose (c : Context) (fingerprint : Option String) : Purpose where
  taskId := c.taskId
  specDigest := c.specDigest
  fingerprint :=
    fingerprint.getD (dispatchFingerprint c.taskId c.specDigest c.environmentDigest ".")

/-- The row of an override. -/
def OverrideRequest.override (r : OverrideRequest) (c : Context) (now : String) : Override where
  overrideId := overrideIdOf c.taskId (c.purpose r.fingerprint).fingerprint r.actor now
  purpose := c.purpose r.fingerprint
  actor := r.actor
  reason := r.reason
  authorityBasis := .object [("kind", .string r.kind), ("summary", .string r.summary)]
  createdAt := now
  consumedAt := none

/-- `task_executability_override`. -/
def executabilityOverride (env : CallEnv) (args : Value) : Surface Answer := do
  let r ← ending (overrideRequest args)
  let c ← ending (← query (·.context env r.number))
  let o := r.override c (env.now 0)
  execute (.upsert o)
  return .admitted { number := r.number, override := o, environmentDigest := c.environmentDigest }

section

omit [FloatText] [Digest]

/-- The assessment of a task's latest request. -/
def latestAssessment (taskId : String) : Surface (Option Assessment) := do
  let latest ← query (·.latest taskId)
  match latest.bind fun r => if r.supersededBy.isSome then none else r.assessmentId with
  | none => return none
  | some assessmentId => query (·.assessment assessmentId)

/-- An assessment says that a task is executable as it stands. -/
def Assessment.Clears (a : Assessment) (c : Context) : Prop :=
  a.specDigest = c.specDigest ∧ a.environmentDigest = c.environmentDigest ∧
    a.verdict = .executable

end

instance (a : Assessment) (c : Context) : Decidable (a.Clears c) :=
  inferInstanceAs (Decidable (_ ∧ _))

/-- `task_executability_dispatch_check`. -/
def dispatchCheck (env : CallEnv) (args : Value) : Surface Answer := do
  let number ← ending (requiredI64 args "task_number")
  let c ← ending (← query (·.context env number))
  let purpose := c.purpose (stringArg args "dispatch_fingerprint")
  let assessment ← latestAssessment c.taskId
  let answer (basis : Basis) : Answer := .dispatch
    { basis, assessmentId := assessment.map Assessment.assessmentId, purpose
      environmentDigest := c.environmentDigest }
  if ∃ a ∈ assessment, a.Clears c then return answer .assessment
  match ← query (·.unconsumed purpose) with
  | some o => do
      execute (.consume o.overrideId (env.now 0))
      return answer .override
  | none => return answer .none

inductive Call where
  | override (env : CallEnv) (args : Value)
  | dispatchCheck (env : CallEnv) (args : Value)

/-- The statements of a call. -/
def Call.program : Call → Program Db Statement (Except String Answer)
  | override env args => (executabilityOverride env args).run
  | dispatchCheck env args => (Executability.dispatchCheck env args).run

end Calls

/-! ### What is answered -/

/-- The purpose of a dispatch that has gone by an override. -/
def spent : Program Db Statement (Except String Answer) → Option Purpose
  | .done (.ok (.dispatch d)) => if d.basis = .override then some d.purpose else none
  | _ => none

/-- The purpose of an override that has been admitted. -/
def granted : Program Db Statement (Except String Answer) → Option Purpose
  | .done (.ok (.admitted a)) => some a.override.purpose
  | _ => none

@[simp] lemma spent_step (st : Statement) (next : Db → Program Db Statement (Except String Answer)) :
    spent (.step st next) = none := rfl

@[simp] lemma granted_step (st : Statement)
    (next : Db → Program Db Statement (Except String Answer)) : granted (.step st next) = none := rfl

/-- Nothing has been answered about overrides. -/
def Unanswered (p : Program Db Statement (Except String Answer)) : Prop :=
  spent p = none ∧ granted p = none

/-- A call answers that an override is admitted, or that a dispatch goes by one, behind the
statement that writes it. -/
def Answered : Program Db Statement (Except String Answer) → Prop
  | .done _ => True
  | .step .query next => ∀ db, Unanswered (next db) ∧ Answered (next db)
  | .step (.upsert o) next => ∀ db,
      (spent (next db) = none ∧ granted (next db) = some o.purpose) ∧ Answered (next db)
  | .step (.consume _ _) next => ∀ db,
      ((spent (next db)).isSome ∧ granted (next db) = none) ∧ Answered (next db)

/-- A call that has answered nothing yet. -/
def Fresh (p : Surface Answer) : Prop := Unanswered p.run ∧ Answered p.run

section Answers

variable {α : Type}

lemma fresh_query {f : Db → α} {next : α → Surface Answer} (h : ∀ a, Fresh (next a)) :
    Fresh (query f >>= next) :=
  ⟨⟨rfl, rfl⟩, fun db => h (f db)⟩

lemma fresh_ending {r : Except String α} {next : α → Surface Answer} (h : ∀ a, Fresh (next a)) :
    Fresh (ending r >>= next) := by
  cases r with
  | error e => exact ⟨⟨rfl, rfl⟩, trivial⟩
  | ok a => exact h a

lemma fresh_dispatch {d : Dispatch} (h : d.basis ≠ .override) :
    Fresh (return .dispatch d) :=
  ⟨⟨if_neg h, rfl⟩, trivial⟩

variable [FloatText] [Digest]

lemma fresh_executabilityOverride (env : CallEnv) (args : Value) :
    Fresh (executabilityOverride env args) :=
  fresh_ending fun _ => fresh_query fun _ => fresh_ending fun _ =>
    ⟨⟨rfl, rfl⟩, fun _ => ⟨⟨rfl, rfl⟩, trivial⟩⟩

omit [FloatText] [Digest] in
lemma fresh_latestAssessment {taskId : String} {next : Option Assessment → Surface Answer}
    (h : ∀ a, Fresh (next a)) : Fresh (latestAssessment taskId >>= next) := by
  show Fresh (query (·.latest taskId) >>= fun latest =>
    (match latest.bind fun r => if r.supersededBy.isSome then none else r.assessmentId with
      | none => return none
      | some assessmentId => query (·.assessment assessmentId)) >>= next)
  refine fresh_query fun latest => ?_
  split
  · exact h none
  · exact fresh_query h

lemma fresh_dispatchCheck (env : CallEnv) (args : Value) : Fresh (dispatchCheck env args) := by
  refine fresh_ending fun number => fresh_query fun found => fresh_ending fun c =>
    fresh_latestAssessment fun assessment => ?_
  dsimp only
  split
  · exact fresh_dispatch nofun
  · refine fresh_query fun selected => ?_
    cases selected with
    | none => exact fresh_dispatch nofun
    | some o => exact ⟨⟨rfl, rfl⟩, fun _ => ⟨⟨rfl, rfl⟩, trivial⟩⟩

lemma fresh_program (call : Call) : Unanswered call.program ∧ Answered call.program := by
  cases call with
  | override env args => exact fresh_executabilityOverride env args
  | dispatchCheck env args => exact fresh_dispatchCheck env args

end Answers

/-! ### The machine -/

/-- What others write beside the overrides. -/
structure Beside where
  specs : List TaskSpec
  requests : List Request
  attempts : List Attempt
  assessments : List Assessment

def Beside.apply (b : Beside) (db : Db) : Db :=
  { db with
    specs := b.specs
    requests := b.requests
    attempts := b.attempts
    assessments := b.assessments }

/-- Calls under way on a database. -/
abbrev Checks : Type := Config Db Statement (Except String Answer)

namespace Checks

abbrev Act : Type := McpSurfaces.Act Call Beside

variable [FloatText] [Digest]

def act (c : Checks) (a : Act) : Checks :=
  Config.act Statement.exec Call.program Beside.apply c a

/-- A database with no call under way. -/
def idle (db : Db) : Checks := ⟨db, []⟩

end Checks

/-- How many dispatches have gone by an override for a purpose. -/
def dispatched (c : Checks) (k : Purpose) : ℕ :=
  c.threads.countP fun t => spent t.program = some k

/-- How many overrides have been admitted for a purpose. -/
def admitted (c : Checks) (k : Purpose) : ℕ :=
  c.threads.countP fun t => granted t.program = some k

/-- How many overrides are open for a purpose. -/
def Db.openCount (db : Db) (k : Purpose) : ℕ := db.overrides.countP fun o => Db.Open k o

/-- The override that an act consumes, with the purpose of the dispatch that goes by it. -/
def consumption (c : Checks) : Checks.Act → Option (String × Purpose)
  | .event (.tick i) => c.threads[i]?.bind fun t =>
      match t.program with
      | .step (.consume overrideId _) next => (spent (next c.state)).map fun k => (overrideId, k)
      | _ => none
  | _ => none

/-- A dispatch check that consumes an override finds it as it has selected it: open for the purpose
of the check. -/
def Consumes (c : Checks) (a : Checks.Act) : Prop :=
  ∀ x ∈ consumption c a, ∃ o ∈ c.state.overrides, o.overrideId = x.1 ∧ Db.Open x.2 o

instance (c : Checks) (a : Checks.Act) : Decidable (Consumes c a) :=
  inferInstanceAs (Decidable (∀ x ∈ consumption c a, _))

/-! ### Counting -/

/-- A count behind the change of one element. -/
lemma countP_modify {α : Type} (p : α → Prop) [DecidablePred p] {xs : List α} {i : ℕ} {x : α}
    (f : α → α) (hx : xs[i]? = some x) :
    (xs.modify i f).countP (fun x => p x) + (if p x then 1 else 0) =
      xs.countP (fun x => p x) + (if p (f x) then 1 else 0) := by
  induction xs generalizing i with
  | nil => cases hx
  | cons y rest ih =>
      cases i with
      | zero =>
          obtain rfl : y = x := by simpa using hx
          simp only [List.modify_zero_cons, List.countP_cons, decide_eq_true_eq]
          omega
      | succ i =>
          have hrest := ih (i := i) (by simpa using hx)
          simp only [List.modify_succ_cons, List.countP_cons, decide_eq_true_eq]
          omega

/-- A count behind an update that leaves none of its rows counted. -/
lemma countP_updateWhere_le {ρ : Type} (p : ρ → Prop) [DecidablePred p] (sel : ρ → Prop)
    [DecidablePred sel] {set : ρ → ρ} {rows : List ρ} (hset : ∀ r ∈ rows, sel r → ¬ p (set r)) :
    (updateWhere sel set rows).countP (fun r => p r) ≤ rows.countP fun r => p r := by
  rw [updateWhere, List.countP_map]
  refine List.countP_mono_left fun r hr hcounted => ?_
  by_cases hsel : sel r
  · simp [hsel, hset r hr hsel] at hcounted
  · simpa [hsel] using hcounted

/-- A count behind an update of the rows that meet a condition, of which one was counted and none is
counted any more. -/
lemma countP_updateWhere_lt {ρ : Type} (p : ρ → Prop) [DecidablePred p] (sel : ρ → Prop)
    [DecidablePred sel] {set : ρ → ρ} {rows : List ρ} (hset : ∀ r ∈ rows, sel r → ¬ p (set r))
    {r : ρ} (hr : r ∈ rows) (hsel : sel r) (hp : p r) :
    (updateWhere sel set rows).countP (fun r => p r) + 1 ≤ rows.countP fun r => p r := by
  induction rows with
  | nil => cases hr
  | cons q rest ih =>
      have hle := countP_updateWhere_le p sel fun r hr => hset r (List.mem_cons_of_mem _ hr)
      have hcons : updateWhere sel set (q :: rest) =
          (if sel q then set q else q) :: updateWhere sel set rest := rfl
      rw [hcons, List.countP_cons, List.countP_cons]
      rcases List.mem_cons.mp hr with rfl | hr
      · rw [if_pos hsel]
        have hgone := hset r (List.mem_cons_self ..) hsel
        simp only [hgone, hp, decide_true, decide_false, if_true, Bool.false_eq_true, if_false]
        omega
      · have hrest := ih (fun r hr => hset r (List.mem_cons_of_mem _ hr)) hr
        by_cases hq : sel q
        · have hgone := hset q (List.mem_cons_self ..) hq
          simp only [if_pos hq, hgone, decide_false, Bool.false_eq_true, if_false]
          omega
        · simp only [if_neg hq]
          omega

/-- A count behind the replacement of one row. -/
lemma countP_replace_le {ρ κ : Type} [DecidableEq κ] (key : ρ → κ) (p : ρ → Prop)
    [DecidablePred p] {rows : List ρ} (hnodup : (rows.map key).Nodup) (k : κ) (new : ρ) :
    (updateWhere (fun r => key r = k) (fun _ => new) rows).countP (fun r => p r) ≤
      rows.countP (fun r => p r) + if p new then 1 else 0 := by
  induction rows with
  | nil => exact Nat.zero_le _
  | cons q rest ih =>
      rw [List.map_cons, List.nodup_cons] at hnodup
      have hcons : updateWhere (fun r => key r = k) (fun _ => new) (q :: rest) =
          (if key q = k then new else q) :: updateWhere (fun r => key r = k) (fun _ => new) rest :=
        rfl
      rw [hcons, List.countP_cons, List.countP_cons]
      by_cases hq : key q = k
      · -- no other row has the key
        have hrest : updateWhere (fun r => key r = k) (fun _ => new) rest = rest := by
          refine (List.map_congr_left fun r hr => if_neg fun hkey => hnodup.1 ?_).trans
            (List.map_id rest)
          exact hq.trans hkey.symm ▸ List.mem_map_of_mem hr
        rw [if_pos hq, hrest]
        simp only [decide_eq_true_eq]
        omega
      · have hrest := ih hnodup.2
        rw [if_neg hq]
        omega

lemma ids_upsert {db : Db} (h : (db.overrides.map Override.overrideId).Nodup) (o : Override) :
    ((db.upsert o).overrides.map Override.overrideId).Nodup := by
  unfold Db.upsert
  dsimp only
  split
  · rw [Table.keys_updateWhere fun q hq => hq.symm]
    exact h
  · next hnew =>
      refine Table.nodup_append_singleton h (Table.row_eq_none_iff.mpr fun hmem => hnew ?_)
      obtain ⟨q, hq, hid⟩ := List.mem_map.mp hmem
      exact ⟨q, hq, hid⟩

lemma openCount_upsert {db : Db} (h : (db.overrides.map Override.overrideId).Nodup) (o : Override)
    (k : Purpose) : (db.upsert o).openCount k ≤ db.openCount k + if o.purpose = k then 1 else 0 := by
  have hopen : (if Db.Open k o then 1 else 0) ≤ if o.purpose = k then 1 else 0 := by
    split
    · next hk => rw [if_pos hk.1]
    · exact Nat.zero_le _
  unfold Db.upsert Db.openCount
  dsimp only
  split
  · have hreplaced := countP_replace_le Override.overrideId (Db.Open k) h o.overrideId o
    omega
  · rw [List.countP_append, List.countP_singleton]
    simp only [decide_eq_true_eq]
    omega

lemma ids_consume (db : Db) (overrideId now : String) :
    (db.consume overrideId now).overrides.map Override.overrideId =
      db.overrides.map Override.overrideId :=
  Table.keys_updateWhere fun _ _ => rfl

lemma not_open_consumed (k : Purpose) (o : Override) (now : String) :
    ¬ Db.Open k { o with consumedAt := some now } := fun h => nomatch h.2

lemma openCount_consume_le (db : Db) (overrideId now : String) (k : Purpose) :
    (db.consume overrideId now).openCount k ≤ db.openCount k :=
  countP_updateWhere_le (Db.Open k) _ fun o _ _ => not_open_consumed k o now

lemma openCount_consume_lt {db : Db} {overrideId : String} {k : Purpose} {o : Override}
    (ho : o ∈ db.overrides) (hid : o.overrideId = overrideId) (hopen : Db.Open k o) (now : String) :
    (db.consume overrideId now).openCount k + 1 ≤ db.openCount k :=
  countP_updateWhere_lt (Db.Open k) _ (fun o _ _ => not_open_consumed k o now) ho ⟨hid, hopen.2⟩
    hopen

/-! ### The balance -/

/-- Dispatches that have gone by an override, and overrides that are open, are no more together than
overrides were admitted. -/
structure Balanced (c : Checks) : Prop where
  ids : (c.state.overrides.map Override.overrideId).Nodup
  answered : ∀ t ∈ c.threads, Answered t.program
  balance : ∀ k, dispatched c k + c.state.openCount k ≤ admitted c k

section Runs

variable [FloatText] [Digest]

omit [FloatText] [Digest] in
/-- A thread that goes on as its statement says. -/
lemma answered_tick {t : Thread Db Statement (Except String Answer)} (h : Answered t.program)
    (db : Db) : Answered (t.tick db).program := by
  obtain ⟨p, seen⟩ := t
  cases p with
  | done a => exact h
  | step op next =>
      cases op with
      | query => exact (h db).2
      | upsert o => exact (h db).2
      | consume overrideId now => exact (h db).2

lemma answered_threads {c : Checks} (h : ∀ t ∈ c.threads, Answered t.program) (i : ℕ) :
    ∀ t ∈ (c.act (.event (.tick i))).threads, Answered t.program := by
  intro t ht
  obtain ⟨j, hj⟩ := List.mem_iff_getElem?.mp ht
  have hj : (c.threads.modify i (Thread.tick · c.state))[j]? = some t := hj
  rw [List.getElem?_modify] at hj
  obtain ⟨old, hold, rfl⟩ := Option.map_eq_some_iff.mp hj
  have hbefore := h old (List.mem_of_getElem? hold)
  split
  · exact answered_tick hbefore c.state
  · exact hbefore

/-- The state behind a statement. -/
lemma state_tick {c : Checks} {i : ℕ} {t : Thread Db Statement (Except String Answer)}
    (ht : c.threads[i]? = some t) : (c.act (.event (.tick i))).state =
      (t.program.head.map (Statement.exec · c.state)).getD c.state := by
  show ((c.threads[i]?.bind fun t => t.program.head).map _).getD c.state = _
  rw [ht]
  rfl

lemma dispatched_tick {c : Checks} {i : ℕ} {t : Thread Db Statement (Except String Answer)}
    (ht : c.threads[i]? = some t) (k : Purpose) :
    dispatched (c.act (.event (.tick i))) k + (if spent t.program = some k then 1 else 0) =
      dispatched c k + if spent (t.tick c.state).program = some k then 1 else 0 :=
  countP_modify (fun t : Thread Db Statement (Except String Answer) => spent t.program = some k)
    (Thread.tick · c.state) ht

lemma admitted_tick {c : Checks} {i : ℕ} {t : Thread Db Statement (Except String Answer)}
    (ht : c.threads[i]? = some t) (k : Purpose) :
    admitted (c.act (.event (.tick i))) k + (if granted t.program = some k then 1 else 0) =
      admitted c k + if granted (t.tick c.state).program = some k then 1 else 0 :=
  countP_modify (fun t : Thread Db Statement (Except String Answer) => granted t.program = some k)
    (Thread.tick · c.state) ht

/-- The statement of a thread keeps the balance. -/
lemma balanced_tick {c : Checks} {i : ℕ} (h : Balanced c)
    (hconsumes : Consumes c (.event (.tick i)))
    {t : Thread Db Statement (Except String Answer)} (ht : c.threads[i]? = some t) :
    Balanced (c.act (.event (.tick i))) := by
  have hthread := h.answered t (List.mem_of_getElem? ht)
  have hanswered := answered_threads h.answered i
  have hspent := dispatched_tick ht
  have hgranted := admitted_tick ht
  have hstate := state_tick ht
  have hbalance := h.balance
  simp only [Consumes, consumption, ht, Option.bind_some] at hconsumes
  obtain ⟨p, seen⟩ := t
  cases p with
  | done a =>
      replace hstate : (c.act (.event (.tick i))).state = c.state := hstate
      refine ⟨hstate ▸ h.ids, hanswered, fun k => ?_⟩
      have hs : dispatched (c.act (.event (.tick i))) k = dispatched c k :=
        Nat.add_right_cancel (hspent k)
      have hg : admitted (c.act (.event (.tick i))) k = admitted c k :=
        Nat.add_right_cancel (hgranted k)
      rw [hs, hg, hstate]
      exact hbalance k
  | step op next =>
      cases op with
      | query =>
          obtain ⟨⟨hs, hg⟩, -⟩ := hthread c.state
          replace hstate : (c.act (.event (.tick i))).state = c.state := hstate
          refine ⟨hstate ▸ h.ids, hanswered, fun k => ?_⟩
          have hs : dispatched (c.act (.event (.tick i))) k = dispatched c k := by
            simpa [Thread.tick, hs] using hspent k
          have hg : admitted (c.act (.event (.tick i))) k = admitted c k := by
            simpa [Thread.tick, hg] using hgranted k
          rw [hs, hg, hstate]
          exact hbalance k
      | upsert o =>
          obtain ⟨⟨hs, hg⟩, -⟩ := hthread c.state
          replace hstate : (c.act (.event (.tick i))).state = c.state.upsert o := hstate
          refine ⟨hstate ▸ ids_upsert h.ids o, hanswered, fun k => ?_⟩
          have hs : dispatched (c.act (.event (.tick i))) k = dispatched c k := by
            simpa [Thread.tick, hs] using hspent k
          have hg : admitted (c.act (.event (.tick i))) k =
              admitted c k + if o.purpose = k then 1 else 0 := by
            simpa [Thread.tick, hg] using hgranted k
          have hopen := openCount_upsert h.ids o k
          have hb := hbalance k
          rw [hs, hg, hstate]
          omega
      | consume overrideId now =>
          obtain ⟨⟨hs, hg⟩, -⟩ := hthread c.state
          obtain ⟨k₀, hs⟩ := Option.isSome_iff_exists.mp hs
          replace hstate : (c.act (.event (.tick i))).state = c.state.consume overrideId now :=
            hstate
          refine ⟨hstate ▸ (ids_consume c.state overrideId now).symm ▸ h.ids, hanswered,
            fun k => ?_⟩
          have hs' : dispatched (c.act (.event (.tick i))) k =
              dispatched c k + if k₀ = k then 1 else 0 := by
            simpa [Thread.tick, hs] using hspent k
          have hg : admitted (c.act (.event (.tick i))) k = admitted c k := by
            simpa [Thread.tick, hg] using hgranted k
          have hb := hbalance k
          rw [hs', hg, hstate]
          by_cases hk : k₀ = k
          · subst hk
            have hmem : (overrideId, k₀) ∈ (spent (next c.state)).map fun k => (overrideId, k) := by
              rw [hs]
              rfl
            obtain ⟨o, ho, hid, hopen⟩ := hconsumes (overrideId, k₀) hmem
            have hlt : (c.state.consume overrideId now).openCount k₀ + 1 ≤ c.state.openCount k₀ :=
              openCount_consume_lt ho hid hopen now
            rw [if_pos rfl]
            omega
          · have hle := openCount_consume_le c.state overrideId now k
            rw [if_neg hk]
            omega

/-- **An act that consumes what it has selected keeps the balance.** -/
theorem balanced_act {c : Checks} {a : Checks.Act} (h : Balanced c) (ha : Consumes c a) :
    Balanced (c.act a) := by
  cases a with
  | edit b => exact ⟨h.ids, h.answered, h.balance⟩
  | event e =>
      cases e with
      | start call =>
          obtain ⟨⟨hspent, hgranted⟩, hanswered⟩ := fresh_program call
          refine ⟨h.ids, fun t ht => ?_, fun k => ?_⟩
          · rcases List.mem_append.mp ht with ht | ht
            · exact h.answered t ht
            · rw [List.mem_singleton.mp ht]
              exact hanswered
          · have hbalance := h.balance k
            show (c.threads ++ [_]).countP _ + c.state.openCount k ≤ (c.threads ++ [_]).countP _
            rw [List.countP_append, List.countP_append, List.countP_singleton,
              List.countP_singleton]
            simpa [hspent, hgranted, dispatched, admitted] using hbalance
      | tick i =>
          cases ht : c.threads[i]? with
          | none =>
              have hsame : c.act (.event (.tick i)) = c := by
                have hlength : c.threads.length ≤ i := List.getElem?_eq_none_iff.mp ht
                show (⟨_, _⟩ : Checks) = c
                rw [ht, List.modify_eq_self hlength]
                rfl
              rw [hsame]
              exact h
          | some t => exact balanced_tick h ha ht

/-- **No more dispatches go by an override than overrides were admitted**, for every purpose and in
every state of a run whose checks consume what they have selected. -/
theorem dispatched_le_admitted (db : Db) (acts : List Checks.Act)
    (hconsumes : Each Checks.act Consumes (.idle { db with overrides := [] }) acts) (k : Purpose) :
    Each Checks.act (fun c a => dispatched (c.act a) k ≤ admitted (c.act a) k)
      (.idle { db with overrides := [] }) acts := by
  have hstart : Balanced (.idle { db with overrides := [] }) :=
    ⟨List.nodup_nil, nofun, fun _ => le_rfl⟩
  have hstep : ∀ (c : Checks) (a : Checks.Act), Balanced c → Consumes c a → Balanced (c.act a) :=
    fun _ _ h ha => balanced_act h ha
  refine hconsumes.of_invariant hstep (fun c a h ha => ?_) hstart
  exact (Nat.le_add_right _ _).trans ((balanced_act h ha).balance k)

end Runs

/-! ### One override, two dispatches -/

/-- A task in a site. -/
def sampleDb : Db where
  specs := [⟨"task-1", 1, "Report", none, none, none, none, .array [], .array []⟩]

def sampleEnv : CallEnv where
  now _ := "2026-01-01T00:00:00Z"
  expiry _ _ := "2026-01-01T00:10:00Z"
  environment := ⟨"site", "linux", none⟩
  policy := .ok ("shoshin-v1", .object [])

def sampleOverride : Call :=
  .override sampleEnv (.object [("task_number", .ofInt 1), ("agent_id", .string "alice"),
    ("reason", .string "urgent"), ("dispatch_fingerprint", .string "texd"),
    ("authority_basis", .object [("kind", .string "operator"), ("summary", .string "approved")])])

def sampleCheck : Call :=
  .dispatchCheck sampleEnv (.object [("task_number", .ofInt 1),
    ("dispatch_fingerprint", .string "texd")])

/-- An override is admitted. -/
def overridden : List Checks.Act :=
  [.event (.start sampleOverride), .event (.tick 0), .event (.tick 0)]

/-- A check goes by it: it reads the task, its latest request and the override, and consumes this. -/
def checked : List Checks.Act :=
  overridden ++ [.event (.start sampleCheck), .event (.tick 1), .event (.tick 1), .event (.tick 1),
    .event (.tick 1)]

/-- Two checks select the override, and then consume it. -/
def checkedTwice : List Checks.Act :=
  overridden ++ [.event (.start sampleCheck), .event (.start sampleCheck), .event (.tick 1),
    .event (.tick 1), .event (.tick 1), .event (.tick 2), .event (.tick 2), .event (.tick 2),
    .event (.tick 1), .event (.tick 2)]

/-- What the override and the checks are for. -/
def samplePurpose [FloatText] [Digest] : Purpose :=
  ⟨"task-1", TaskSpec.digest ⟨"task-1", 1, "Report", none, none, none, none, .array [], .array []⟩,
    "texd"⟩

/-- A check alone consumes what it has selected. -/
theorem dispatched_once :
    letI := FloatText.fields
    letI : Digest := ⟨id⟩
    dispatched (run Checks.act (.idle { sampleDb with overrides := [] }) checked) samplePurpose = 1 ∧
      Each Checks.act
        (fun c a => dispatched (c.act a) samplePurpose ≤ admitted (c.act a) samplePurpose)
        (.idle { sampleDb with overrides := [] }) checked := by
  let _ : FloatText := FloatText.fields
  let _ : Digest := ⟨id⟩
  have hconsumes : Each Checks.act Consumes (.idle { sampleDb with overrides := [] }) checked := by
    decide +kernel
  exact ⟨by decide +kernel, dispatched_le_admitted sampleDb checked hconsumes samplePurpose⟩

/-- Two checks go by one override. -/
theorem override_dispatches_twice :
    letI := FloatText.fields
    letI : Digest := ⟨id⟩
    ¬ ∀ (db : Db) (acts : List Checks.Act) (k : Purpose),
      Each Checks.act (fun c a => dispatched (c.act a) k ≤ admitted (c.act a) k)
        (.idle { db with overrides := [] }) acts := by
  let _ : FloatText := FloatText.fields
  let _ : Digest := ⟨id⟩
  have htwice : ¬ Each Checks.act
      (fun c a => dispatched (c.act a) samplePurpose ≤ admitted (c.act a) samplePurpose)
      (.idle { sampleDb with overrides := [] }) checkedTwice := by
    decide +kernel
  exact fun h => htwice (h _ _ _)

end Executability

end McpSurfaces
