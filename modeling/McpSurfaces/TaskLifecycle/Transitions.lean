import McpSurfaces.TaskLifecycle.Ownership

/-!
Whether the statuses of tasks follow the table of `task_transition`.

* `Along`: every task keeps its status or goes along an edge of the table.
* `ClaimKeeps`, `FinishKeeps`, `CloseoutKeeps`, `ReportBlockedKeeps`, `SubmitKeeps`: when a call
  follows the table. Only `task_transition` and `task_unclaim` always do.
* **`follows_table_iff`**: the calls of a run follow the table exactly when each of them meets its
  condition on the database that it finds.
* `claimed_from_deferred`: a deferred task that is claimed.
-/

namespace McpSurfaces

namespace TaskLifecycle

open EventLedger (Digest)
open Table (row updateWhere)
open Program (Meets)
open Calls (run Each)

/-! ### Changes of statuses -/

/-- The status of a task. -/
def Db.statusOf (db : Db) (taskId : String) : Option Status := (db.task taskId).map TaskRow.status

/-- Every task keeps its status or goes along an edge of the table. -/
def Along (db db' : Db) : Prop :=
  ∀ taskId, ∀ a ∈ db.statusOf taskId, ∀ b ∈ db'.statusOf taskId, a = b ∨ Status.Edge a b

/-- The ids and the numbers of tasks are unique, as their table has it. -/
structure Db.Keyed (db : Db) : Prop where
  ids : (db.tasks.map TaskRow.taskId).Nodup
  numbers : (db.tasks.map TaskRow.number).Nodup

lemma Along.refl (db : Db) : Along db db := fun _ _ ha _ hb =>
  .inl (Option.some.inj (ha.symm.trans hb))

lemma along_of_tasks {db db' : Db} (h : db'.tasks = db.tasks) : Along db db' := by
  have hstatus : db'.statusOf = db.statusOf := by
    funext taskId
    rw [Db.statusOf, Db.task, h, Db.statusOf, Db.task]
  intro taskId a ha b hb
  rw [hstatus] at hb
  exact Along.refl db taskId a ha b hb

lemma Along.congr_right {db db' db'' : Db} (h : Along db db') (htasks : db''.tasks = db'.tasks) :
    Along db db'' := by
  intro taskId a ha b hb
  rw [Db.statusOf, Db.task, htasks] at hb
  exact h taskId a ha b hb

lemma along_congr_left {db db' db'' : Db} (htasks : db'.tasks = db.tasks) :
    Along db' db'' ↔ Along db db'' := by
  unfold Along Db.statusOf Db.task
  rw [htasks]

namespace Db

variable {db : Db} {task : TaskRow} {number : ℤ}

lemma task_of_mem (h : db.Keyed) (ht : task ∈ db.tasks) : db.task task.taskId = some task :=
  Table.row_of_mem h.ids ht

lemma mem_of_taskNumbered (h : db.taskNumbered number = some task) : task ∈ db.tasks :=
  Table.mem_of_row h

lemma number_of_taskNumbered (h : db.taskNumbered number = some task) : task.number = number :=
  Table.key_of_row h

end Db

/-- A change of one task's status goes along the table exactly when it is an edge. -/
lemma along_iff_of_updates {db db' : Db} {task : TaskRow} {status : Status}
    (htask : db.task task.taskId = some task)
    (hstatus : db'.statusOf task.taskId = some status)
    (hothers : ∀ taskId, taskId ≠ task.taskId → ∀ a ∈ db.statusOf taskId,
      ∀ b ∈ db'.statusOf taskId, a = b) :
    Along db db' ↔ task.status = status ∨ Status.Edge task.status status := by
  have hold : db.statusOf task.taskId = some task.status := by rw [Db.statusOf, htask]; rfl
  constructor
  · intro h
    exact h task.taskId _ hold _ hstatus
  · intro h taskId a ha b hb
    by_cases hid : taskId = task.taskId
    · subst hid
      obtain rfl := Option.some.inj (hold.symm.trans ha)
      obtain rfl := Option.some.inj (hstatus.symm.trans hb)
      exact h
    · exact .inl (hothers taskId hid a ha b hb)

/-- An update of one task goes along the table exactly when its change of status is an edge. -/
lemma along_updateTask {db : Db} {task : TaskRow} {set : TaskRow → TaskRow}
    (htask : db.task task.taskId = some task) (hset : ∀ t, (set t).taskId = t.taskId) :
    Along db (db.updateTask task.taskId set) ↔
      task.status = (set task).status ∨ Status.Edge task.status (set task).status := by
  have hrow (taskId : String) : (db.updateTask task.taskId set).task taskId =
      (db.task taskId).map fun t => if t.taskId = task.taskId then set t else t :=
    Table.row_updateWhere (fun t _ => hset t) taskId
  refine along_iff_of_updates htask ?_ fun taskId hid a ha b hb => ?_
  · rw [Db.statusOf, hrow, htask]
    simp
  · rw [Db.statusOf, hrow, Option.map_map] at hb
    obtain ⟨t, ht, rfl⟩ := Option.map_eq_some_iff.mp ha
    rw [ht] at hb
    have hother : t.taskId ≠ task.taskId := by rwa [Table.key_of_row ht]
    simpa [hother] using hb

/-- An update goes along the table where it moves each task that it meets along an edge. -/
lemma along_updateWhere {db db' : Db} {p : TaskRow → Prop} [DecidablePred p]
    {set : TaskRow → TaskRow} (htasks : db'.tasks = updateWhere p set db.tasks)
    (hset : ∀ t, (set t).taskId = t.taskId)
    (hedge : ∀ t ∈ db.tasks, p t →
      t.status = (set t).status ∨ Status.Edge t.status (set t).status) :
    Along db db' := by
  intro taskId a ha b hb
  have hrow : db'.task taskId = (db.task taskId).map fun t => if p t then set t else t := by
    rw [Db.task, htasks]
    exact Table.row_updateWhere (fun t _ => hset t) taskId
  obtain ⟨t, ht, rfl⟩ := Option.map_eq_some_iff.mp ha
  rw [Db.statusOf, hrow, ht, Option.map_some] at hb
  obtain rfl := Option.some.inj hb
  by_cases hp : p t
  · simpa [hp] using hedge t (Table.mem_of_row ht) hp
  · simp [hp]

/-! ### Where the writes may start -/

namespace Status

/-- The statuses from which a claim goes along the table. -/
def Claimable (s : Status) : Prop := s ∈ [opened, claimed, needsContinuation]

/-- The statuses from which a report of blocked work goes along the table. -/
def Deferrable (s : Status) : Prop :=
  s ∈ [opened, claimed, needsContinuation, inReview, awaitingDependencies, deferred]

/-- The statuses from which a closing goes along the table. -/
def Closable (s : Status) : Prop := s ∈ [opened, claimed, inReview, awaitingDependencies, closed]

/-- The statuses from which a task may go to its review. -/
def Reviewable (s : Status) : Prop := s ∈ [claimed, inReview, closed, confirmed]

/-- The statuses from which a task may wait for its dependencies. -/
def Awaitable (s : Status) : Prop := s ∈ [claimed, inReview, awaitingDependencies]

variable (s : Status)

lemma claimable_iff : s.Claimable ↔ s = claimed ∨ Edge s claimed := by
  cases s <;> simp [Claimable, Edge, transitions]

lemma deferrable_iff : s.Deferrable ↔ s = deferred ∨ Edge s deferred := by
  cases s <;> simp [Deferrable, Edge, transitions]

lemma closable_iff : s.Closable ↔ s = closed ∨ Edge s closed := by
  cases s <;> simp [Closable, Edge, transitions]

lemma reviewable_iff : s.Reviewable ↔ s = inReview ∨ Edge s inReview := by
  cases s <;> simp [Reviewable, Edge, transitions]

lemma awaitable_iff : s.Awaitable ↔ s = awaitingDependencies ∨ Edge s awaitingDependencies := by
  cases s <;> simp [Awaitable, Edge, transitions]

end Status

section Statements

variable [FloatText] {db : Db} {task : TaskRow}

lemma along_claim {assignmentId agent timestamp : String}
    (htask : db.task task.taskId = some task) :
    Along db ((Statement.claim assignmentId task.taskId agent timestamp).apply db) ↔
      (db.Accepts assignmentId task.taskId → task.status.Claimable) := by
  by_cases haccepts : db.Accepts assignmentId task.taskId
  · have hupdate : Along db (db.updateTask task.taskId (Db.setStatus .claimed timestamp)) ↔ _ :=
      along_updateTask htask fun _ => rfl
    simp only [Statement.apply, Statement.exec, Db.claim_of_accepts agent timestamp haccepts,
      Except.map, haccepts, forall_const, Status.claimable_iff]
    exact hupdate
  · obtain ⟨e, he⟩ := Db.claim_of_not_accepts agent timestamp haccepts
    simp only [Statement.apply, Statement.exec, he, Except.map, haccepts, false_implies, iff_true]
    exact Along.refl db

/-- A release of a claimed task is an edge. -/
lemma along_reopenClaimed (taskId timestamp : String) :
    Along db ((Statement.reopenClaimed taskId timestamp).apply db) := by
  refine along_updateWhere rfl (fun _ => rfl) fun t _ ht => .inr ?_
  rw [ht.2]
  show Status.Edge .claimed .opened
  decide

lemma along_transition (hkeyed : db.Keyed) (htask : task ∈ db.tasks) {status : Status}
    (hedge : Status.Edge task.status status) (timestamp : String) (agent : Option String) :
    Along db ((Statement.transition task.number status timestamp agent).apply db) := by
  refine along_updateWhere rfl (fun _ => rfl) fun t ht hnumber => .inr ?_
  obtain rfl := List.inj_on_of_nodup_map hkeyed.numbers ht htask hnumber
  exact hedge

lemma along_defer (htask : db.task task.taskId = some task) (timestamp : String) :
    Along db ((Statement.defer task.taskId timestamp).apply db) ↔ task.status.Deferrable := by
  rw [Status.deferrable_iff]
  exact along_updateTask htask fun _ => rfl

lemma along_closeout (htask : db.task task.taskId = some task) (status : Status)
    (timestamp agent mode : String) :
    Along db ((Statement.closeout task.taskId status timestamp agent mode).apply db) ↔
      task.status = status ∨ Status.Edge task.status status :=
  along_updateTask htask fun _ => rfl

/-! ### A finish -/

/-- The status that a finish gives its task. -/
def Submission.target (s : Submission) : Status :=
  if s.reviewer.isSome then .awaitingDependencies
  else if s.outcome.isSome then .closed
  else .inReview

section

omit [FloatText]

lemma newStatus_outcomeRow (s : Submission) (contractId : String) (created : Bool) :
    s.newStatus (s.outcomeRow contractId created) = s.target := by
  by_cases hreviewer : s.reviewer.isSome
  · rw [Submission.newStatus, Submission.target, if_pos hreviewer, if_pos hreviewer]
  · by_cases houtcome : s.outcome.isSome <;>
      simp [Submission.newStatus, Submission.target, Submission.outcomeRow, hreviewer, houtcome]

lemma status_finished (s : Submission) (outcome : Option OutcomeRow) (t : TaskRow) :
    (s.finished outcome t).status = s.newStatus outcome := by
  rw [Submission.finished]
  split
  · next h => rw [h]; rfl
  · rfl

lemma taskId_finished (s : Submission) (outcome : Option OutcomeRow) (t : TaskRow) :
    (s.finished outcome t).taskId = t.taskId := by
  rw [Submission.finished]
  split <;> rfl

/-- The tasks behind a finish: its own, and that of a review that is new. -/
lemma tasks_settle {s : Submission} {db db' : Db} {outcome : Option OutcomeRow}
    (h : s.settle db outcome = .ok db') :
    ∃ new : List TaskRow, (∀ t ∈ new, db.task t.taskId = none ∧ db.taskNumbered t.number = none ∧
        t.status = .opened) ∧
      (new.map TaskRow.taskId).Nodup ∧ (new.map TaskRow.number).Nodup ∧
      db'.tasks =
        updateWhere (fun t => t.taskId = s.taskId) (s.finished outcome) (db.tasks ++ new) := by
  unfold Submission.settle at h
  split at h
  · next reviewer _ =>
      simp only [Submission.requestReview] at h
      split at h
      · cases h
      next hid =>
      split at h
      · cases h
      next hnumber =>
      split at h
      · cases h
      · cases h
        refine ⟨[s.reviewTask reviewer (db.lastAllocated + 1)], ?_, by simp, by simp, rfl⟩
        intro t ht
        obtain rfl := List.mem_singleton.mp ht
        exact ⟨Option.not_isSome_iff_eq_none.mp hid, Option.not_isSome_iff_eq_none.mp hnumber, rfl⟩
  · cases h
    exact ⟨[], by simp, by simp, by simp, by rw [List.append_nil]; rfl⟩

end

lemma tasks_transact {s : Submission} {db db' : Db} {answer : Value}
    (h : s.transact db = .ok (db', answer)) :
    ∃ (new : List TaskRow) (outcome : Option OutcomeRow), s.newStatus outcome = s.target ∧
      (∀ t ∈ new, db.task t.taskId = none ∧ db.taskNumbered t.number = none ∧
        t.status = .opened) ∧
      (new.map TaskRow.taskId).Nodup ∧ (new.map TaskRow.number).Nodup ∧
      db'.tasks =
        updateWhere (fun t => t.taskId = s.taskId) (s.finished outcome) (db.tasks ++ new) := by
  unfold Submission.transact at h
  obtain ⟨-, h⟩ := guard_ok h
  obtain ⟨-, h⟩ := guard_ok h
  obtain ⟨settled, hsettled, h⟩ := Lists.bind_eq_ok h
  obtain ⟨-, h⟩ := guard_ok h
  obtain ⟨new, hnew⟩ := tasks_settle hsettled
  cases h
  exact ⟨new, _, newStatus_outcomeRow s _ _, hnew⟩

/-- The statuses from which a finish goes along the table. -/
def Submission.Starts (s : Submission) (status : Status) : Prop :=
  if s.reviewer.isSome then status.Awaitable
  else if s.outcome.isSome then status.Closable
  else status.Reviewable

omit [FloatText] in
lemma starts_iff (s : Submission) (status : Status) :
    s.Starts status ↔ status = s.target ∨ Status.Edge status s.target := by
  unfold Submission.Starts Submission.target
  split
  · exact status.awaitable_iff
  split
  · exact status.closable_iff
  · exact status.reviewable_iff

lemma along_finish {s : Submission} (htask : db.task task.taskId = some task)
    (hid : s.taskId = task.taskId) :
    Along db ((Statement.finish s).apply db) ↔
      ((∃ r, s.transact db = .ok r) → s.Starts task.status) := by
  cases htransact : s.transact db with
  | error e =>
      have happly : (Statement.finish s).apply db = db := by
        simp only [Statement.apply, Statement.exec, htransact]
      rw [happly]
      refine iff_of_true (Along.refl db) ?_
      rintro ⟨r, hr⟩
      cases hr
  | ok r =>
      obtain ⟨db', answer⟩ := r
      have happly : (Statement.finish s).apply db = db' := by
        simp only [Statement.apply, Statement.exec, htransact]
      obtain ⟨new, outcome, hstatus, hnew, -, -, htasks⟩ := tasks_transact htransact
      have hrow (taskId : String) (t : TaskRow) (ht : db.task taskId = some t) :
          db'.task taskId = some (if t.taskId = s.taskId then s.finished outcome t else t) := by
        rw [Db.task, htasks, Table.row_updateWhere fun t _ => taskId_finished s outcome t,
          Table.row_append_of_some new ht, Option.map_some]
      rw [happly, starts_iff, ← hstatus, ← status_finished s outcome task]
      have hstatus' : db'.statusOf task.taskId = some (s.finished outcome task).status := by
        rw [Db.statusOf, hrow _ _ htask, if_pos hid.symm, Option.map_some]
      rw [along_iff_of_updates htask hstatus']
      · simp
      · intro taskId hother a ha b hb
        obtain ⟨t, ht, rfl⟩ := Option.map_eq_some_iff.mp ha
        have hkey : t.taskId ≠ s.taskId := by rwa [Table.key_of_row ht, hid]
        rw [Db.statusOf, hrow _ _ ht, if_neg hkey, Option.map_some] at hb
        exact Option.some.inj hb

end Statements

/-! ### What a server does alone -/

section Servers

variable [FloatText] {α β : Type} {R : Db → Prop} {db : Db}

/-- A server that works alone moves every task along the table at each write, and ends with an
answer and a database that meet `Q`. -/
def Serves (Q : Except String α → Db → Prop) (x : Server α) (db : Db) : Prop :=
  x.run.Meets Statement.apply (fun db st => Along db (st.apply db)) Q db

/-- A server that works alone moves every task along the table at each write, and leaves a
database that meets `R`. -/
def Follows (R : Db → Prop) (x : Server α) (db : Db) : Prop := Serves (fun _ => R) x db

/-- What follows an ending: the rest of the work, or nothing after a refusal. -/
def After (Q : Except String β → Db → Prop) (f : α → Server β) (r : Except String α) (db : Db) :
    Prop :=
  match r with
  | .ok a => Serves Q (f a) db
  | .error e => Q (.error e) db

lemma serves_bind {Q : Except String β → Db → Prop} {x : Server α} {f : α → Server β} :
    Serves Q (x >>= f) db ↔ Serves (After Q f) x db := by
  refine Program.meets_bind.trans ?_
  have hpost : (fun (r : Except String α) t => ((ExceptT.bindCont f r).Meets Statement.apply
      (fun db st => Along db (st.apply db)) Q t)) = After Q f := by
    funext r t
    cases r <;> rfl
  rw [← hpost]
  rfl

lemma serves_query_bind {Q : Except String β → Db → Prop} {g : Db → α} {f : α → Server β} :
    Serves Q (query g >>= f) db ↔ Serves Q (f (g db)) db := by
  rw [serves_bind]
  exact and_iff_right (Along.refl db)

lemma follows_ending_bind (hR : R db) {r : Except String α} {f : α → Server β} :
    Follows R (ending r >>= f) db ↔ ∀ a, r = .ok a → Follows R (f a) db := by
  rw [Follows, serves_bind]
  show After _ f r db ↔ _
  cases r with
  | error e => exact iff_of_true hR fun a h => by cases h
  | ok a => exact ⟨fun h b hb => by cases hb; exact h, fun h => h a rfl⟩

/-- An ending that has no answer. -/
lemma follows_check_bind (hR : R db) {r : Except String Unit} {f : Unit → Server β} :
    Follows R (ending r >>= f) db ↔ (r = .ok () → Follows R (f ()) db) :=
  (follows_ending_bind hR).trans ⟨fun h => h (), fun h _ => h⟩

lemma follows_query_bind {g : Db → α} {f : α → Server β} :
    Follows R (query g >>= f) db ↔ Follows R (f (g db)) db := serves_query_bind

lemma follows_execute_bind {st : Statement} {f : Value → Server β} :
    Follows R (execute st >>= f) db ↔
      Along db (st.apply db) ∧ After (fun _ => R) f (st.answer db) (st.apply db) := serves_bind

/-- A check that ends a call, before what it does otherwise. -/
lemma follows_ite {c : Prop} [Decidable c] {x y : Server α} (hx : Follows R x db) :
    Follows R (if c then x else y) db ↔ (¬ c → Follows R y db) := by
  by_cases hc : c
  · rw [if_pos hc]
    exact iff_of_true hx fun h => absurd hc h
  · rw [if_neg hc]
    exact ⟨fun h _ => h, fun h => h hc⟩

lemma follows_findTask_bind (hR : R db) {number : ℤ} {f : TaskRow → Server β} :
    Follows R (findTask number >>= f) db ↔
      ∀ task, db.taskNumbered number = some task → Follows R (f task) db := by
  rw [Follows, serves_bind, findTask, serves_query_bind]
  cases db.taskNumbered number with
  | none => exact iff_of_true hR fun task h => by cases h
  | some task => exact ⟨fun h t ht => by cases ht; exact h, fun h => h task rfl⟩

/-! ### Claims -/

/-- The routing of a task admits an agent. -/
def Db.Routes (db : Db) (taskId agent : String) : Prop :=
  ∀ r, row Routing.taskId db.routing taskId = some r →
    (∀ preferred ∈ r.preferredAgentId, preferred = agent) ∧
      ∀ required, r.requiredRole = some required → ∀ actual ∈ db.role agent, actual = required

omit [FloatText] in
lemma not_exists_ne {o : Option String} {s : String} :
    (¬ ∃ a ∈ o, a ≠ s) ↔ ∀ a ∈ o, a = s := by
  simp only [not_exists, not_and, not_not]

lemma follows_claimGuard_bind (hR : R db) {taskId agent : String} {f : Unit → Server β} :
    Follows R (claimGuard taskId agent >>= f) db ↔
      (db.Routes taskId agent → Follows R (f ()) db) := by
  rw [Follows, serves_bind, claimGuard, serves_query_bind]
  cases hrow : row Routing.taskId db.routing taskId with
  | none =>
      have hroutes : db.Routes taskId agent := fun r hr => by rw [hrow] at hr; cases hr
      exact ⟨fun h _ => h, fun h => h hroutes⟩
  | some r =>
      have hroutes : db.Routes taskId agent ↔
          (∀ preferred ∈ r.preferredAgentId, preferred = agent) ∧
            ∀ required, r.requiredRole = some required →
              ∀ actual ∈ db.role agent, actual = required := by
        refine ⟨fun h => h r hrow, fun h r' hr' => ?_⟩
        obtain rfl := Option.some.inj (hrow.symm.trans hr')
        exact h
      rw [hroutes]
      by_cases hagent : ∃ preferred ∈ r.preferredAgentId, preferred ≠ agent
      · rw [← not_exists_ne]
        simp only [hagent, if_true, not_true_eq_false, false_and, false_implies, iff_true]
        exact hR
      · rw [← not_exists_ne]
        simp only [hagent, if_false, not_false_eq_true, true_and]
        cases r.requiredRole with
        | none => exact ⟨fun h _ => h, fun h => h fun required hr => by cases hr⟩
        | some required =>
            show Serves _ (roleGuard required agent) db ↔ _
            rw [roleGuard, serves_query_bind]
            by_cases hactual : ∃ actual ∈ db.role agent, actual ≠ required
            · rw [if_pos hactual]
              refine iff_of_true hR fun h => ?_
              exact absurd hactual (not_exists_ne.mpr (h required rfl))
            · rw [if_neg hactual]
              refine ⟨fun h _ => h, fun h => h fun required' hr => ?_⟩
              obtain rfl := Option.some.inj hr
              exact not_exists_ne.mp hactual

/-- A write and what follows it, where that writes nothing more. -/
lemma follows_write (hR : ∀ db', Along db db' → R db') {st : Statement} {f : Value → Server β}
    (hf : ∀ v db', R db' → Follows R (f v) db') :
    Follows R (execute st >>= f) db ↔ Along db (st.apply db) := by
  rw [follows_execute_bind]
  refine ⟨And.left, fun h => ⟨h, ?_⟩⟩
  cases st.answer db with
  | error e => exact hR _ h
  | ok v => exact hf v _ (hR _ h)

/-- An ending and an answer write nothing. -/
lemma follows_ending_pure {db' : Db} (hR : R db') (r : Except String α) (f : α → β) :
    Follows R (ending r >>= fun a => (pure (f a) : Server β)) db' :=
  (follows_ending_bind hR).mpr fun _ _ => hR

/-- When a claim follows the table. -/
def ClaimKeeps (env : Env) (args : Value) (db : Db) : Prop :=
  ∀ number, requiredI64 args "task_number" = .ok number →
    ∀ agent, requiredString args "agent_id" = .ok agent →
      ∀ task, db.taskNumbered number = some task → ¬ task.status.Ended →
        db.Routes task.taskId agent → db.openAssignments task.taskId = [] →
          db.Accepts ("assignment-" ++ env.uuid 0) task.taskId → task.status.Claimable

lemma follows_claimUnassigned (hR : ∀ db', Along db db' → R db') (env : Env) {task : TaskRow}
    (agent : String)
    (htask : db.task task.taskId = some task) :
    Follows R (claimUnassigned env task agent) db ↔
      (db.openAssignments task.taskId = [] →
        db.Accepts ("assignment-" ++ env.uuid 0) task.taskId → task.status.Claimable) := by
  rw [claimUnassigned, follows_query_bind, ← activeAssignment_eq_none_iff]
  cases db.activeAssignment task.taskId with
  | some active =>
      refine iff_of_true ?_ fun h => by cases h
      show Follows _ (if active.agentId = agent then _ else _) db
      split <;> exact hR db (Along.refl db)
  | none =>
      have htake : Follows R (takeClaim env task agent) db ↔ _ :=
        follows_write hR fun v db' h => follows_ending_pure h _ _
      exact htake.trans ((along_claim htask).trans ⟨fun h _ => h, fun h => h rfl⟩)

theorem follows_taskClaim (hkeyed : db.Keyed) (hR : ∀ db', Along db db' → R db')
    (env : Env) (args : Value) :
    Follows R (taskClaim env args) db ↔ ClaimKeeps env args db := by
  have hdb := hR db (Along.refl db)
  refine (follows_ending_bind hdb).trans (forall₂_congr fun number _ => ?_)
  refine (follows_ending_bind hdb).trans (forall₂_congr fun agent _ => ?_)
  refine (follows_findTask_bind hdb).trans (forall₂_congr fun task htask => ?_)
  refine (follows_ite (by exact hdb)).trans (forall_congr' fun _ => ?_)
  refine (follows_claimGuard_bind hdb).trans (forall_congr' fun _ => ?_)
  exact follows_claimUnassigned hR env agent (Db.task_of_mem hkeyed (Db.mem_of_taskNumbered htask))

/-! ### The other calls on statuses -/

theorem follows_taskUnclaim (hR : ∀ db', Along db db' → R db') (env : Env) (args : Value) :
    Follows R (taskUnclaim env args) db := by
  have hdb := hR db (Along.refl db)
  refine (follows_ending_bind hdb).mpr fun number _ => (follows_findTask_bind hdb).mpr ?_
  refine fun task _ => follows_query_bind.mpr ?_
  cases db.activeAssignment task.taskId with
  | none => exact hdb
  | some active =>
      refine (follows_ite (by exact hdb)).mpr fun _ => ?_
      refine follows_execute_bind.mpr ⟨along_of_tasks rfl, ?_⟩
      refine follows_execute_bind.mpr ⟨along_reopenClaimed _ _, ?_⟩
      have halong : Along db ((Statement.reopenClaimed task.taskId (env.now 0)).apply
          (db.release active.assignmentId (env.now 0)
            ((stringArg args "reason").getD "mcp_unclaim"))) :=
        (along_reopenClaimed _ _).congr_right rfl
      exact follows_ending_pure (hR _ halong) _ _

theorem follows_taskTransition (hkeyed : db.Keyed) (hR : ∀ db', Along db db' → R db')
    (env : Env) (args : Value) (status : Status) :
    Follows R (taskTransition env args status) db := by
  have hdb := hR db (Along.refl db)
  refine (follows_ending_bind hdb).mpr fun number _ => (follows_findTask_bind hdb).mpr ?_
  refine fun task htask => (follows_ite (by exact hdb)).mpr fun hedge => ?_
  obtain rfl := Db.number_of_taskNumbered htask
  have halong := along_transition hkeyed (Db.mem_of_taskNumbered htask) (not_not.mp hedge)
    (env.now 0) (stringArg args "agent_id")
  refine (follows_write hR fun v db' h => ?_).mpr halong
  exact (follows_ite (by exact h)).mpr fun _ => follows_ending_pure h _ _

/-- When a report of blocked work follows the table. -/
def ReportBlockedKeeps (args : Value) (db : Db) : Prop :=
  ∀ number, requiredI64 args "task_number" = .ok number →
    ∀ agent, requiredString args "agent_id" = .ok agent →
      ∀ reason, requiredString args "reason" = .ok reason →
        ∀ task, db.taskNumbered number = some task → boolArg args "defer" ≠ some false →
          task.status.Deferrable

theorem follows_taskReportBlocked (hkeyed : db.Keyed) (hR : ∀ db', Along db db' → R db')
    (env : Env) (args : Value) :
    Follows R (taskReportBlocked env args) db ↔ ReportBlockedKeeps args db := by
  have hdb := hR db (Along.refl db)
  refine (follows_ending_bind hdb).trans (forall₂_congr fun number _ => ?_)
  refine (follows_ending_bind hdb).trans (forall₂_congr fun agent _ => ?_)
  refine (follows_ending_bind hdb).trans (forall₂_congr fun reason _ => ?_)
  refine (follows_findTask_bind hdb).trans (forall₂_congr fun task htask => ?_)
  have htask' := Db.task_of_mem hkeyed (Db.mem_of_taskNumbered htask)
  refine follows_execute_bind.trans ((and_iff_right (along_of_tasks rfl)).trans ?_)
  by_cases hdefer : boolArg args "defer" ≠ some false
  · rw [forall_prop_of_true hdefer, ← along_defer htask' (env.now 1)]
    show Follows _ (if boolArg args "defer" ≠ some false then _ else _) _ ↔ _
    rw [if_pos hdefer, follows_execute_bind]
    refine ⟨fun h => (along_congr_left rfl).mp h.1, fun h => ?_⟩
    exact ⟨(along_congr_left rfl).mpr h, hR _ h⟩
  · refine iff_of_true ?_ fun h => absurd h hdefer
    show Follows _ (if boolArg args "defer" ≠ some false then _ else _) _
    rw [if_neg hdefer]
    exact hR _ (along_of_tasks rfl)

/-! ### Closeouts -/

/-- The state of a dependency. -/
def Db.dependencyState (db : Db) (dependency : Dependency) : DependencyState where
  dependency := dependency
  latest := db.latestOutcome dependency.requiredTaskId
  blocking := ((db.outcomeContract dependency.requiredTaskId).map fun c =>
    parseList c.blockingOutcomes).getD []
  disposition := (db.latestOutcome dependency.requiredTaskId).bind fun o =>
    db.disposition dependency.dependencyId o.outcomeId

/-- A task may be closed: evidence has been admitted, and its dependencies are satisfied. -/
def Db.ReadyToClose (db : Db) (taskId : String) : Prop :=
  db.admissionCount taskId ≠ 0 ∧ AllSatisfied ((db.dependenciesOf taskId).map db.dependencyState)

lemma serves_dependencyStates {Q : Except String (List DependencyState) → Db → Prop}
    (dependencies : List Dependency) :
    Serves Q (dependencyStates dependencies) db ↔
      Q (.ok (dependencies.map db.dependencyState)) db := by
  induction dependencies generalizing Q with
  | nil => rfl
  | cons d rest ih =>
      have hstate {Q : Except String DependencyState → Db → Prop} :
          Serves Q (dependencyState d) db ↔ Q (.ok (db.dependencyState d)) db := by
        rw [dependencyState, serves_query_bind, serves_query_bind, Db.dependencyState]
        cases db.latestOutcome d.requiredTaskId with
        | none => rfl
        | some outcome => exact serves_query_bind
      rw [dependencyStates, serves_bind, hstate]
      show Serves Q (dependencyStates rest >>= _) db ↔ _
      rw [serves_bind, ih]
      rfl

lemma follows_closeBlockers_bind {env : Env} {task : TaskRow}
    {f : Option Value → Server β} (hstop : ∀ v, Follows R (f (some v)) db) :
    Follows R (closeBlockers env task >>= f) db ↔
      (db.ReadyToClose task.taskId → Follows R (f none) db) := by
  rw [Follows, serves_bind, closeBlockers, serves_query_bind]
  by_cases hcount : db.admissionCount task.taskId = 0
  · rw [if_pos hcount]
    exact iff_of_true (hstop _) fun h => absurd hcount h.1
  · rw [if_neg hcount, serves_bind, taskDependencySatisfaction, serves_query_bind,
      serves_dependencyStates]
    show Serves _ (if AllSatisfied _ then _ else _) db ↔ _
    by_cases hall : AllSatisfied ((db.dependenciesOf task.taskId).map db.dependencyState)
    · rw [if_pos hall]
      exact ⟨fun h _ => h, fun h => h ⟨hcount, hall⟩⟩
    · rw [if_neg hall]
      exact iff_of_true (hstop _) fun h => absurd h.2 hall

/-- When a closeout follows the table. -/
def CloseoutKeeps (env : Env) (args : Value) (db : Db) : Prop :=
  ∀ number, requiredI64 args "task_number" = .ok number →
    ∀ agent, requiredString args "agent_id" = .ok agent → ¬ boolArg args "dry_run" = some true →
      ∀ task, db.taskNumbered number = some task →
        ((closeMode args).isSome → db.ReadyToClose task.taskId) →
          ((stringArg args "summary").isSome → env.append = .ok ()) → ¬ DispositionOnly args →
            if (closeMode args).isSome then task.status.Closable else task.status.Reviewable

lemma follows_finishCloseout (hR : ∀ db', Along db db' → R db') (env : Env) (args : Value)
    {task : TaskRow} (agent : String) (htask : db.task task.taskId = some task) :
    Follows R (finishCloseout env args task agent) db ↔
      (((stringArg args "summary").isSome → env.append = .ok ()) → ¬ DispositionOnly args →
        if (closeMode args).isSome then task.status.Closable else task.status.Reviewable) := by
  have hdb := hR db (Along.refl db)
  have hsettle : Follows R (settleCloseout env args task agent) db ↔
      (¬ DispositionOnly args →
        if (closeMode args).isSome then task.status.Closable else task.status.Reviewable) := by
    refine (follows_ite (by exact hdb)).trans (forall_congr' fun _ => ?_)
    refine (follows_write hR fun v db' h => by exact h).trans ?_
    refine (along_closeout htask _ _ _ _).trans ?_
    unfold closeoutStatus
    split
    · exact (Status.closable_iff _).symm
    · exact (Status.reviewable_iff _).symm
  unfold finishCloseout
  by_cases hsummary : (stringArg args "summary").isSome
  · rw [if_pos hsummary]
    rw [forall_prop_of_true hsummary, ← hsettle]
    exact follows_check_bind hdb
  · rw [if_neg hsummary, ← hsettle]
    exact ⟨fun h _ => h, fun h => h fun hsome => absurd hsome hsummary⟩

theorem follows_taskCloseout (hkeyed : db.Keyed) (hR : ∀ db', Along db db' → R db')
    (env : Env) (args : Value) :
    Follows R (taskCloseout env args) db ↔ CloseoutKeeps env args db := by
  have hdb := hR db (Along.refl db)
  refine (follows_ending_bind hdb).trans (forall₂_congr fun number _ => ?_)
  refine (follows_ending_bind hdb).trans (forall₂_congr fun agent _ => ?_)
  refine (follows_ite (by exact hdb)).trans (forall_congr' fun _ => ?_)
  refine (follows_findTask_bind hdb).trans (forall₂_congr fun task htask => ?_)
  have hfinish := follows_finishCloseout hR env args agent
    (Db.task_of_mem hkeyed (Db.mem_of_taskNumbered htask))
  by_cases hmode : (closeMode args).isSome
  · have hsome : (closeMode args).isNone = false := by simpa using hmode
    simp only [hsome, Bool.false_eq_true, if_false]
    refine (follows_closeBlockers_bind fun v => by exact hdb).trans ?_
    rw [forall_prop_of_true hmode]
    exact forall_congr' fun _ => hfinish
  · have hnone : (closeMode args).isNone = true := by simpa using hmode
    simp only [hnone, if_true]
    refine hfinish.trans ⟨fun h _ => h, fun h => h fun hsome => absurd hsome hmode⟩

/-! ### Finishes and submitted work -/

variable [Digest]

/-- When a finish follows the table. -/
def FinishKeeps (env : Env) (args : Value) (db : Db) : Prop :=
  ∀ a, finishArgs args = .ok a → ∀ task, db.taskNumbered a.number = some task →
    task.status.Finishable → (db.agentAssignment task.taskId a.agentId).isSome →
      let contract := row ResultContract.taskId db.resultContracts task.taskId
      ∀ validation, validateResult args contract = .ok validation →
        let s := submission env args a task contract validation
        db.operation s.operationKey = none → (∃ r, s.transact db = .ok r) → s.Starts task.status

omit [Digest] in
lemma follows_submit (hR : ∀ db', Along db db' → R db') (env : Env) {s : Submission}
    {task : TaskRow} (htask : db.task task.taskId = some task) (hid : s.taskId = task.taskId) :
    Follows R (submit env s) db ↔
      (db.operation s.operationKey = none → (∃ r, s.transact db = .ok r) →
        s.Starts task.status) := by
  rw [submit, follows_query_bind]
  cases db.operation s.operationKey with
  | some stored => exact iff_of_true (hR db (Along.refl db)) fun h => by cases h
  | none =>
      have hfinish : ∀ v db', R db' → Follows R (if s.reviewer.isSome then
          ending env.reviewFile >>= fun _ => (pure v : Server Value) else pure v) db' := by
        intro v db' h
        split
        · exact follows_ending_pure h _ _
        · exact h
      refine (follows_write hR hfinish).trans ((along_finish htask hid).trans ?_)
      exact ⟨fun h _ => h, fun h => h rfl⟩

theorem follows_taskFinish (hkeyed : db.Keyed) (hR : ∀ db', Along db db' → R db') (env : Env)
    (args : Value) : Follows R (taskFinish env args) db ↔ FinishKeeps env args db := by
  have hdb := hR db (Along.refl db)
  refine (follows_ending_bind hdb).trans (forall₂_congr fun a _ => ?_)
  refine (follows_findTask_bind hdb).trans (forall₂_congr fun task htask => ?_)
  refine follows_query_bind.trans (follows_query_bind.trans ?_)
  refine (follows_ite (by exact hdb)).trans ?_
  rw [not_not]
  refine forall_congr' fun _ => (follows_ite (by exact hdb)).trans ?_
  rw [Option.isNone_iff_eq_none, ← ne_eq, Option.ne_none_iff_isSome]
  refine forall_congr' fun _ => (follows_ending_bind hdb).trans (forall₂_congr fun v _ => ?_)
  exact follows_submit hR env (Db.task_of_mem hkeyed (Db.mem_of_taskNumbered htask)) rfl

/-- A part of a call that leaves the tasks. -/
def Steady (x : Server α) : Prop := ∀ db, Serves (fun _ db' => db'.tasks = db.tasks) x db

section

omit [Digest]

lemma Serves.mono {Q Q' : Except String α → Db → Prop} {x : Server α} (h : Serves Q x db)
    (hQ : ∀ r db', Q r db' → Q' r db') : Serves Q' x db :=
  Meets.mono h (fun _ _ h => h) hQ

lemma Steady.bind {x : Server α} {f : α → Server β} (hx : Steady x) (hf : ∀ a, Steady (f a)) :
    Steady (x >>= f) := by
  intro db
  rw [serves_bind]
  refine (hx db).mono fun r db' htasks => ?_
  cases r with
  | error e => exact htasks
  | ok a => exact (hf a db').mono fun _ _ h => h.trans htasks

lemma steady_pure (a : α) : Steady (pure a : Server α) := fun _ => rfl

lemma steady_throw (e : String) : Steady (throw e : Server α) := fun _ => rfl

lemma steady_ending (r : Except String α) : Steady (ending r) := fun _ => rfl

lemma steady_query (f : Db → α) : Steady (query f) := fun db => ⟨Along.refl db, rfl⟩

lemma steady_execute {st : Statement} (h : ∀ db, (st.apply db).tasks = db.tasks) :
    Steady (execute st) := fun db => ⟨along_of_tasks (h db), h db⟩

lemma Steady.ite {c : Prop} [Decidable c] {x y : Server α} (hx : Steady x) (hy : Steady y) :
    Steady (if c then x else y) := by
  split
  · exact hx
  · exact hy

lemma steady_findTask (number : ℤ) : Steady (findTask number) := by
  refine (steady_query _).bind fun task => ?_
  cases task with
  | none => exact steady_throw _
  | some task => exact steady_pure _

lemma steady_taskAdmitEvidence (env : Env) (args : Value) :
    Steady (taskAdmitEvidence env args) := by
  refine (steady_ending _).bind fun number => (steady_ending _).bind fun agent => ?_
  refine (steady_findTask number).bind fun task => (steady_query _).bind fun reportIds => ?_
  refine (steady_query _).bind fun proofIds => (steady_ending _).bind fun methods => ?_
  exact .ite (steady_pure _) ((steady_execute fun _ => by rfl).bind fun _ => steady_pure _)

lemma steady_taskProveCriteria (env admitting : Env) (args : Value) :
    Steady (taskProveCriteria env admitting args) := by
  refine (steady_ending _).bind fun number => (steady_ending _).bind fun agent => ?_
  refine (steady_query _).bind fun spec => ?_
  cases spec with
  | none => exact steady_throw _
  | some spec =>
      refine (steady_ending _).bind fun changed => .ite (steady_pure _) ?_
      refine (steady_execute fun _ => by rfl).bind fun _ => ?_
      exact (steady_taskAdmitEvidence _ _).bind fun _ => steady_pure _

/-- The part of submitted work between its claim and its finish. -/
lemma steady_notes (env : SubmitEnv) (args : Value) (task : TaskRow) (agent : String)
    (resume : Bool) (f : List Value → List Value → List Value → β) : Steady (do
      let noted ← writeNotes env task resume
      let proved ← proveForSubmit env args task agent resume
      let admitted ← admitForSubmit env args task agent resume
      return f noted proved admitted) := by
  have hnotes : Steady (writeNotes env task resume) :=
    .ite (steady_pure _)
      ((steady_ending _).bind fun _ => (steady_ending _).bind fun _ => steady_pure _)
  have hprove : Steady (proveForSubmit env args task agent resume) :=
    .ite (steady_pure _) ((steady_taskProveCriteria _ _ _).bind fun _ => steady_pure _)
  have hadmit : Steady (admitForSubmit env args task agent resume) :=
    .ite (steady_pure _) ((steady_taskAdmitEvidence _ _).bind fun _ => steady_pure _)
  exact hnotes.bind fun noted => hprove.bind fun proved => hadmit.bind fun _ => steady_pure _

end

/-- The report that resumed work needs is there. -/
def Resumable (db : Db) (taskId agent : String) (resume : Bool) : Prop :=
  resume = true → ∃ r ∈ db.reports, r.taskId = taskId ∧ r.agentId = agent

/-- When the claim of submitted work follows the table. -/
def SubmitClaimKeeps (env : SubmitEnv) (args : Value) (task : TaskRow) (agent : String)
    (resume : Bool) (db : Db) : Prop :=
  Resumable db task.taskId agent resume → ClaimsFirst args task →
    ClaimKeeps env.claiming (claimArgsOf args task.number agent) db

section

omit [Digest]

lemma follows_summaryForSubmit_bind (hR : R db) {args : Value} {task : TaskRow} {agent : String}
    {resume : Bool} {f : Option String × List Value → Server β} {K : Prop}
    (hf : ∀ x, Follows R (f x) db ↔ K) :
    Follows R (summaryForSubmit args task agent resume >>= f) db ↔
      (Resumable db task.taskId agent resume → K) := by
  rw [Follows, serves_bind, summaryForSubmit]
  by_cases hresume : resume = false
  · rw [if_pos hresume]
    refine (hf _).trans ⟨fun h _ => h, fun h => h fun htrue => ?_⟩
    rw [hresume] at htrue
    cases htrue
  · rw [if_neg hresume, serves_bind, previousReport, serves_query_bind]
    cases hreport : Table.firstBy (fun r : Report => r.taskId = task.taskId ∧ r.agentId = agent)
        (descending Report.submittedAt) db.reports.reverse with
    | none =>
        refine iff_of_true hR fun h => ?_
        obtain ⟨r, hr, hkey⟩ := h (Bool.not_eq_false _ ▸ hresume)
        exact absurd hkey (Table.firstBy_eq_none_iff.mp hreport r (List.mem_reverse.mpr hr))
    | some report =>
        obtain ⟨hmem, hkey⟩ := Table.firstBy_mem hreport
        have hresumable : Resumable db task.taskId agent resume :=
          fun _ => ⟨report, List.mem_reverse.mp hmem, hkey⟩
        exact (hf _).trans ⟨fun h _ => h, fun h => h hresumable⟩

lemma Steady.follows {x : Server α} (hx : Steady x) {db' : Db} (h : Along db db')
    (hR : ∀ db', Along db db' → R db') : Follows R x db' :=
  (hx db').mono fun _ _ htasks => hR _ (h.congr_right htasks)

/-- A part of a call of which it is known when it follows the table, whatever comes after it. -/
lemma serves_iff {Q : Except String α → Db → Prop} {x : Server α} {K : Prop}
    (hx : ∀ R, (∀ db', Along db db' → R db') → (Follows R x db ↔ K))
    (hQ : ∀ r db', Along db db' → Q r db') : Serves Q x db ↔ K := by
  constructor
  · intro h
    exact (hx (fun _ => True) fun _ _ => trivial).mp (h.mono fun _ _ _ => trivial)
  · intro h
    exact Serves.mono ((hx (Along db) fun _ h => h).mpr h) hQ

lemma follows_claimForSubmit_bind (hkeyed : db.Keyed) (hR : ∀ db', Along db db' → R db')
    (env : SubmitEnv) (args : Value) (task : TaskRow) (agent : String)
    {f : List Value → Server β} (hf : ∀ claimed, Steady (f claimed)) :
    Follows R (claimForSubmit env args task agent >>= f) db ↔
      (ClaimsFirst args task →
        ClaimKeeps env.claiming (claimArgsOf args task.number agent) db) := by
  rw [Follows, serves_bind, claimForSubmit]
  by_cases hclaims : ClaimsFirst args task
  · rw [if_neg (not_not.mpr hclaims), forall_prop_of_true hclaims, serves_bind]
    refine serves_iff (fun R hR => follows_taskClaim hkeyed hR _ _) fun r db' h => ?_
    cases r with
    | error e => exact hR db' h
    | ok v => exact (hf _).follows h hR
  · rw [if_pos hclaims]
    exact iff_of_true ((hf _).follows (Along.refl db) hR) fun h => absurd h hclaims

lemma follows_prepareSubmit (hkeyed : db.Keyed) (hR : ∀ db', Along db db' → R db')
    (env : SubmitEnv) (args : Value) (task : TaskRow) (agent : String) (resume : Bool) :
    Follows R (prepareSubmit env args task agent resume) db ↔
      SubmitClaimKeeps env args task agent resume db := by
  refine follows_summaryForSubmit_bind (hR db (Along.refl db)) fun x => ?_
  refine follows_claimForSubmit_bind hkeyed hR env args task agent fun claimed => ?_
  exact steady_notes env args task agent resume fun noted proved admitted =>
    (x.1, x.2 ++ claimed ++ noted ++ proved ++ admitted)

end

/-! ### The tables stay keyed -/

section

omit [FloatText] [Digest]

lemma Db.Keyed.of_tasks {db' : Db} (h : db.Keyed) (htasks : db'.tasks = db.tasks) : db'.Keyed := by
  constructor <;> rw [htasks]
  · exact h.ids
  · exact h.numbers

lemma Db.Keyed.update {db' : Db} {p : TaskRow → Prop} [DecidablePred p]
    {set : TaskRow → TaskRow} (h : db.Keyed) (htasks : db'.tasks = updateWhere p set db.tasks)
    (hid : ∀ t, (set t).taskId = t.taskId) (hnumber : ∀ t, (set t).number = t.number) :
    db'.Keyed := by
  constructor <;> rw [htasks]
  · rw [Table.keys_updateWhere fun t _ => hid t]
    exact h.ids
  · rw [Table.keys_updateWhere fun t _ => hnumber t]
    exact h.numbers

lemma nodup_append_new {κ : Type} [DecidableEq κ] {key : TaskRow → κ} {tasks new : List TaskRow}
    (h : (tasks.map key).Nodup) (hnew : (new.map key).Nodup)
    (hunknown : ∀ t ∈ new, row key tasks (key t) = none) : ((tasks ++ new).map key).Nodup := by
  rw [List.map_append]
  refine h.append hnew fun k hold hk => ?_
  obtain ⟨t, ht, rfl⟩ := List.mem_map.mp hk
  exact Table.row_eq_none_iff.mp (hunknown t ht) hold

end

omit [Digest] in
/-- **Every statement leaves ids and numbers unique.** -/
lemma Db.Keyed.apply (h : db.Keyed) (st : Statement) : (st.apply db).Keyed := by
  cases st with
  | claim assignmentId taskId agentId timestamp =>
      by_cases haccepts : db.Accepts assignmentId taskId
      · exact h.update (tasks_claim haccepts) (fun _ => rfl) fun _ => rfl
      · rwa [apply_claim_of_not_accepts haccepts]
  | reopenClaimed => exact h.update rfl (fun _ => rfl) fun _ => rfl
  | transition => exact h.update rfl (fun _ => rfl) fun _ => rfl
  | defer => exact h.update rfl (fun _ => rfl) fun _ => rfl
  | closeout => exact h.update rfl (fun _ => rfl) fun _ => rfl
  | finish s =>
      cases htransact : s.transact db with
      | error e => simpa only [Statement.apply, Statement.exec, htransact] using h
      | ok r =>
          obtain ⟨db', answer⟩ := r
          obtain ⟨new, outcome, -, hnew, hids, hnumbers, htasks⟩ := tasks_transact htransact
          have hkeyed : Db.Keyed { db with tasks := db.tasks ++ new } :=
            ⟨nodup_append_new h.ids hids fun t ht => (hnew t ht).1,
              nodup_append_new h.numbers hnumbers fun t ht => (hnew t ht).2.1⟩
          simp only [Statement.apply, Statement.exec, htransact]
          refine hkeyed.update htasks (taskId_finished s outcome) fun t => ?_
          rw [Submission.finished]
          split <;> rfl
  | query => exact h
  | release => exact h.of_tasks rfl
  | report => exact h.of_tasks rfl
  | proof => exact h.of_tasks rfl
  | admission => exact h.of_tasks rfl

/-! ### Calls -/

/-- When submitted work follows the table. -/
def SubmitKeeps (env : SubmitEnv) (args : Value) (db : Db) : Prop :=
  ∀ number, requiredI64 args "task_number" = .ok number →
    ∀ agent, requiredString args "agent_id" = .ok agent →
      let resume : Bool := boolArg args "resume_existing_work" = some true
      submitChecks args resume = .ok () → ∀ task, db.taskNumbered number = some task →
        db.Rostered agent → ∀ payload, payloadSource env.toEnv args = .ok payload →
          SubmitClaimKeeps env args task agent resume db ∧
            ∀ summary made behind,
              (prepareSubmit env args task agent resume).run.alone Statement.apply db =
                (.ok (some summary, made), behind) →
              boolArg args "finish" ≠ some false →
                FinishKeeps env.finishing (finishArgsOf args task.number agent summary) behind

/-- What a whole call may do to the statuses: go along the table, or, for submitted work, along
it with its claim and then with its finish. -/
def Tool.Net (tool : Tool) (db db' : Db) : Prop :=
  match tool with
  | submitWork _ => ∃ between, Along db between ∧ Along between db'
  | _ => Along db db'

/-- The finish of submitted work. -/
lemma follows_finishForSubmit (hkeyed : db.Keyed) (hR : ∀ db', Along db db' → R db')
    (env : SubmitEnv) (args : Value) (task : TaskRow) (agent : String) (summary : Option String)
    (f : String × List Value → β) :
    Follows R (finishForSubmit env args task agent summary >>= fun x =>
        (pure (f x) : Server β)) db ↔
      ∀ text, summary = some text → boolArg args "finish" ≠ some false →
        FinishKeeps env.finishing (finishArgsOf args task.number agent text) db := by
  have hdb := hR db (Along.refl db)
  rw [Follows, serves_bind]
  unfold finishForSubmit
  by_cases hfinish : boolArg args "finish" = some false
  · rw [if_pos hfinish]
    exact iff_of_true hdb fun text _ hne => absurd hfinish hne
  · rw [if_neg hfinish]
    cases summary with
    | none => exact iff_of_true hdb fun text htext => by cases htext
    | some text =>
        refine (serves_bind.trans (serves_iff
          (fun R hR => follows_taskFinish hkeyed hR _ _) fun r db' h => ?_)).trans ?_
        · cases r with
          | error e => exact hR db' h
          | ok v => exact hR db' h
        · refine ⟨fun h text' htext _ => ?_, fun h => h text rfl hfinish⟩
          obtain rfl := Option.some.inj htext
          exact h

lemma follows_submitRostered (hkeyed : db.Keyed) (env : SubmitEnv) (args : Value) (task : TaskRow)
    (agent : String) (resume : Bool) :
    Follows (Tool.Net (.submitWork env) db) (submitRostered env args task agent resume) db ↔
      ∀ payload, payloadSource env.toEnv args = .ok payload →
        SubmitClaimKeeps env args task agent resume db ∧
          ∀ summary made behind,
            (prepareSubmit env args task agent resume).run.alone Statement.apply db =
              (.ok (some summary, made), behind) →
            boolArg args "finish" ≠ some false →
              FinishKeeps env.finishing (finishArgsOf args task.number agent summary) behind := by
  have hdb : Tool.Net (.submitWork env) db db := ⟨db, Along.refl db, Along.refl db⟩
  refine (follows_ending_bind hdb).trans (forall₂_congr fun payload _ => ?_)
  rw [Follows, serves_bind]
  have hprepare := @follows_prepareSubmit _ (fun _ => True) db hkeyed (fun _ _ => trivial) env args
    task agent resume
  refine Program.meets_iff_alone.trans ?_
  refine (and_congr_left' hprepare).trans (and_congr_right fun hclaim => ?_)
  have hbehind : Along db ((prepareSubmit env args task agent resume).run.alone
      Statement.apply db).2 := by
    have hkeeps := follows_prepareSubmit hkeyed (fun _ h => h) env args task agent resume
    exact (Program.meets_iff_alone.mp (hkeeps.mpr hclaim)).2
  have hkeyed' : ((prepareSubmit env args task agent resume).run.alone
      Statement.apply db).2.Keyed :=
    Program.invariant_alone (fun _ st h => h.apply st) hkeyed
  generalize (prepareSubmit env args task agent resume).run.alone Statement.apply db = result
    at hbehind hkeyed'
  obtain ⟨r, behind⟩ := result
  have hR (db' : Db) (h : Along behind db') : Tool.Net (.submitWork env) db db' :=
    ⟨behind, hbehind, h⟩
  cases r with
  | error e =>
      refine iff_of_true (hR behind (Along.refl behind)) fun summary made behind' heq => ?_
      cases (Prod.mk.inj heq).1
  | ok x =>
      obtain ⟨summary, made⟩ := x
      refine (follows_finishForSubmit hkeyed' hR env args task agent summary _).trans ?_
      constructor
      · intro h text made' behind' heq hfinish
        obtain ⟨hr, rfl⟩ := Prod.mk.inj heq
        obtain ⟨rfl, -⟩ := Prod.mk.inj (Except.ok.inj hr)
        exact h text rfl hfinish
      · intro h text htext hfinish
        subst htext
        exact h text made behind rfl hfinish

theorem follows_taskSubmitWork (hkeyed : db.Keyed) (env : SubmitEnv) (args : Value) :
    Follows (Tool.Net (.submitWork env) db) (taskSubmitWork env args) db ↔
      SubmitKeeps env args db := by
  have hdb : Tool.Net (.submitWork env) db db := ⟨db, Along.refl db, Along.refl db⟩
  refine (follows_ending_bind hdb).trans (forall₂_congr fun number _ => ?_)
  refine (follows_ending_bind hdb).trans (forall₂_congr fun agent _ => ?_)
  refine (follows_check_bind hdb).trans (forall_congr' fun _ => ?_)
  refine (follows_findTask_bind hdb).trans (forall₂_congr fun task _ => ?_)
  refine follows_query_bind.trans ((follows_ite (by exact hdb)).trans ?_)
  rw [Bool.not_eq_false, decide_eq_true_iff]
  exact forall_congr' fun _ => follows_submitRostered hkeyed env args task agent _

/-- When a call follows the table, its checks of revisions apart. -/
def Tool.Keeps (tool : Tool) (args : Value) (db : Db) : Prop :=
  match tool with
  | claim env => ClaimKeeps env args db
  | submitWork env => SubmitKeeps env args db
  | finish env => FinishKeeps env args db
  | closeout env => CloseoutKeeps env args db
  | reportBlocked _ => ReportBlockedKeeps args db
  | unclaim _ | defer _ | unDefer _ | reopen _ => True

lemma follows_tool (hkeyed : db.Keyed) (tool : Tool) (args : Value) :
    Follows (tool.Net db) (tool.program args) db ↔ tool.Keeps args db := by
  have htransition (env : Env) (status : Status) :
      Follows (Along db) (taskTransition env args status) db :=
    follows_taskTransition hkeyed (fun _ h => h) env args status
  cases tool with
  | claim env => exact follows_taskClaim hkeyed (fun _ h => h) env args
  | unclaim env => exact iff_of_true (follows_taskUnclaim (fun _ h => h) env args) trivial
  | submitWork env => exact follows_taskSubmitWork hkeyed env args
  | finish env => exact follows_taskFinish hkeyed (fun _ h => h) env args
  | closeout env => exact follows_taskCloseout hkeyed (fun _ h => h) env args
  | defer env => exact iff_of_true (htransition env _) trivial
  | unDefer env => exact iff_of_true (htransition env _) trivial
  | reopen env => exact iff_of_true (htransition env _) trivial
  | reportBlocked env => exact follows_taskReportBlocked hkeyed (fun _ h => h) env args

/-- A revision that the arguments of a call name is that of its task. -/
def RevisionMatches (args : Value) (numberKey revisionKey : String) (db : Db) : Prop :=
  ∀ number, (args.get numberKey).bind Value.asI64 = some number →
    ∃ expected, requiredI64 args revisionKey = .ok expected ∧
      ∃ task, db.taskNumbered number = some task ∧ task.revision = expected

/-- The checks of the work surface let a call through. -/
def RevisionsMatch (args : Value) (db : Db) : Prop :=
  RevisionMatches args "task_number" "expected_revision" db ∧
    RevisionMatches args "parent_task_number" "expected_parent_revision" db ∧
      RevisionMatches args "required_task_number" "expected_required_revision" db

omit [Digest] in
lemma serves_checkWorkRevision {Q : Except String Unit → Db → Prop} (hQ : ∀ e, Q (.error e) db)
    {args : Value} {numberKey revisionKey : String} :
    Serves Q (checkWorkRevision args numberKey revisionKey) db ↔
      (RevisionMatches args numberKey revisionKey db → Q (.ok ()) db) := by
  unfold checkWorkRevision RevisionMatches
  cases (args.get numberKey).bind Value.asI64 with
  | none => exact ⟨fun h _ => h, fun h => h fun number hnumber => by cases hnumber⟩
  | some number =>
      show Serves Q (ending (requiredI64 args revisionKey) >>= _) db ↔ _
      rw [serves_bind]
      show After Q _ (requiredI64 args revisionKey) db ↔ _
      cases requiredI64 args revisionKey with
      | error e =>
          refine iff_of_true (hQ e) fun h => ?_
          obtain ⟨expected, hexpected, -⟩ := h number rfl
          cases hexpected
      | ok expected =>
          show Serves Q (query _ >>= _) db ↔ _
          rw [serves_query_bind]
          cases htask : db.taskNumbered number with
          | none =>
              refine iff_of_true (hQ _) fun h => ?_
              obtain ⟨_, _, task, hfound, -⟩ := h number rfl
              rw [htask] at hfound
              cases hfound
          | some task =>
              show Serves Q (if task.revision ≠ expected then _ else _) db ↔ _
              by_cases hrevision : task.revision = expected
              · rw [if_neg (not_not.mpr hrevision)]
                refine ⟨fun h _ => h, fun h => h fun number' hnumber => ?_⟩
                obtain rfl := Option.some.inj hnumber
                exact ⟨expected, rfl, task, htask, hrevision⟩
              · rw [if_pos hrevision]
                refine iff_of_true (hQ _) fun h => ?_
                obtain ⟨expected', hexpected, task', hfound, heq⟩ := h number rfl
                obtain rfl := Except.ok.inj hexpected
                obtain rfl := Option.some.inj (htask.symm.trans hfound)
                exact absurd heq hrevision

omit [Digest] in
lemma serves_checkRevisions {Q : Except String Unit → Db → Prop} (hQ : ∀ e, Q (.error e) db)
    {args : Value} :
    Serves Q (checkRevisions args) db ↔ (RevisionsMatch args db → Q (.ok ()) db) := by
  unfold checkRevisions RevisionsMatch
  rw [and_imp, and_imp, serves_bind]
  refine (serves_checkWorkRevision fun e => by exact hQ e).trans (forall_congr' fun _ => ?_)
  refine serves_bind.trans ?_
  refine (serves_checkWorkRevision fun e => by exact hQ e).trans (forall_congr' fun _ => ?_)
  exact serves_checkWorkRevision hQ

/-- When a call follows the table. -/
def Call.Keeps (c : Call) (db : Db) : Prop :=
  (c.surface = .work → RevisionsMatch c.args db) → c.tool.Keeps c.args db

/-- A call moves every task along the table at each of its writes, and as a whole. -/
def Call.FollowsTable (c : Call) (db : Db) : Prop := Follows (c.tool.Net db) c.program db

lemma followsTable_iff (hkeyed : db.Keyed) (c : Call) : c.FollowsTable db ↔ c.Keeps db := by
  have htool := follows_tool hkeyed c.tool c.args
  have hdb : c.tool.Net db db := by
    cases c.tool with
    | submitWork env => exact ⟨db, Along.refl db, Along.refl db⟩
    | _ => exact Along.refl db
  unfold Call.FollowsTable Call.Keeps Call.program
  by_cases hsurface : c.surface = .work
  · rw [if_pos hsurface, forall_prop_of_true hsurface, ← htool, Follows, serves_bind]
    exact serves_checkRevisions fun _ => hdb
  · rw [if_neg hsurface, ← htool]
    exact ⟨fun h _ => h, fun h => h fun hwork => absurd hwork hsurface⟩

/-- The database behind a call. -/
def Db.after (db : Db) (c : Call) : Db := (c.program.run.alone Statement.apply db).2

end Servers

/-! ### Deferred work that is claimed -/

/-- A call that defers the first task, or takes that back. -/
def deferCall (tool : Tool) : Call where
  surface := .task
  tool := tool
  args := agentArgs 1 "alice"

/-- The database of one task as `task_create` makes it. -/
def createdDb : Db := { tasks := [createdTask "task-1" 1], lastAllocated := 1 }

lemma keyed_createdDb : createdDb.Keyed := ⟨by decide, by decide⟩

/-- A report that the first task is blocked, which defers it. -/
def blockedBy (agent : String) : Call where
  surface := .task
  tool := .reportBlocked (orderlyEnv "1")
  args := .object [("task_number", .ofInt 1), ("agent_id", .string agent),
    ("reason", .string "waiting for access")]

end TaskLifecycle

end McpSurfaces
