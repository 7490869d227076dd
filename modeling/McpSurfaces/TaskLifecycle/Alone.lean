import McpSurfaces.TaskLifecycle.Transitions

/-!
What a server does that works alone.

* `Server.alone`: what it answers, and the database behind it, with an equation for each way in
  which the programs of calls are put together.
* `Leaves`: what it leaves, with a rule for each way.
* **`leaves_taskClaim`**, **`leaves_taskUnclaim`**, **`leaves_taskTransition`**,
  **`leaves_taskReportBlocked`**, **`leaves_taskCloseout`**, **`leaves_taskFinish`**: the write of
  each call, and when it is made.
* `Preserves`: what a server keeps, with **`preserves_taskSubmitWork`** for submitted work.
-/

namespace McpSurfaces

namespace TaskLifecycle

open EventLedger (Digest)
open Table (row)

section Alone

variable [FloatText] {α β : Type} {db : Db}

/-- What a server that works alone answers, and the database behind it. -/
def Server.alone (x : Server α) (db : Db) : Except String α × Db := x.run.alone Statement.apply db

lemma alone_ending (r : Except String α) : Server.alone (ending r) db = (r, db) := rfl

lemma alone_query (f : Db → α) : Server.alone (query f) db = (.ok (f db), db) := rfl

lemma alone_execute (st : Statement) :
    Server.alone (execute st) db = (st.answer db, st.apply db) := rfl

lemma alone_bind (x : Server α) (f : α → Server β) :
    Server.alone (x >>= f) db =
      match Server.alone x db with
      | (.ok a, behind) => Server.alone (f a) behind
      | (.error e, behind) => (.error e, behind) := by
  refine (Program.alone_bind x.run (ExceptT.bindCont f) db).trans ?_
  show _ = match x.run.alone Statement.apply db with
    | (.ok a, behind) => Server.alone (f a) behind
    | (.error e, behind) => (.error e, behind)
  generalize x.run.alone Statement.apply db = result
  obtain ⟨r, behind⟩ := result
  cases r <;> rfl

lemma alone_ending_bind_ok {r : Except String α} {a : α} (h : r = .ok a) (f : α → Server β) :
    Server.alone (ending r >>= f) db = Server.alone (f a) db := by
  rw [alone_bind, alone_ending, h]

lemma alone_ending_bind_error {r : Except String α} {e : String} (h : r = .error e)
    (f : α → Server β) : Server.alone (ending r >>= f) db = (.error e, db) := by
  rw [alone_bind, alone_ending, h]

lemma alone_query_bind (g : Db → α) (f : α → Server β) :
    Server.alone (query g >>= f) db = Server.alone (f (g db)) db := by
  rw [alone_bind, alone_query]

lemma alone_findTask_bind_some {number : ℤ} {task : TaskRow}
    (h : db.taskNumbered number = some task) (f : TaskRow → Server β) :
    Server.alone (findTask number >>= f) db = Server.alone (f task) db := by
  rw [alone_bind, findTask, alone_query_bind, h]
  rfl

lemma alone_findTask_bind_none {number : ℤ} (h : db.taskNumbered number = none)
    (f : TaskRow → Server β) :
    Server.alone (findTask number >>= f) db =
      (.error ("task_not_found: " ++ toString number), db) := by
  rw [alone_bind, findTask, alone_query_bind, h]
  rfl

/-! ### What a server leaves -/

variable {R : Db → Prop}

/-- A server that works alone leaves a database that meets `R`. -/
def Leaves (R : Db → Prop) (x : Server α) (db : Db) : Prop := R (Server.alone x db).2

lemma leaves_ending_bind (hR : R db) {r : Except String α} {f : α → Server β} :
    Leaves R (ending r >>= f) db ↔ ∀ a, r = .ok a → Leaves R (f a) db := by
  cases r with
  | error e =>
      refine iff_of_true ?_ fun a h => by cases h
      rw [Leaves, alone_ending_bind_error rfl]
      exact hR
  | ok a =>
      rw [Leaves, alone_ending_bind_ok rfl]
      exact ⟨fun h b hb => by cases hb; exact h, fun h => h a rfl⟩

lemma leaves_query_bind {g : Db → α} {f : α → Server β} :
    Leaves R (query g >>= f) db ↔ Leaves R (f (g db)) db := by
  rw [Leaves, alone_query_bind, Leaves]

/-- What follows a write leaves the database alone. -/
lemma leaves_execute_bind {st : Statement} {f : Value → Server β}
    (hf : ∀ v, Leaves R (f v) (st.apply db) ↔ R (st.apply db)) :
    Leaves R (execute st >>= f) db ↔ R (st.apply db) := by
  rw [Leaves, alone_bind, alone_execute]
  cases st.answer db with
  | error e => rfl
  | ok v => exact hf v

/-- The database behind a write, where what follows it leaves the database alone. -/
lemma behind_of_write {st : Statement} {f : Value → Server β} {r : Except String β} {behind : Db}
    (h : Server.alone (execute st >>= f) db = (r, behind))
    (hf : ∀ v, (Server.alone (f v) (st.apply db)).2 = st.apply db) : behind = st.apply db := by
  rw [alone_bind, alone_execute] at h
  cases hanswer : st.answer db with
  | error e =>
      rw [hanswer] at h
      exact (Prod.mk.inj h).2.symm
  | ok v =>
      rw [hanswer] at h
      rw [← hf v]
      exact (congrArg Prod.snd h).symm

lemma leaves_ending_pure (r : Except String α) (f : α → β) :
    Leaves R (ending r >>= fun a => (pure (f a) : Server β)) db ↔ R db := by
  rw [Leaves, alone_bind, alone_ending]
  cases r <;> rfl

lemma alone_ending_pure_snd (r : Except String α) (f : α → β) :
    (Server.alone (ending r >>= fun a => (pure (f a) : Server β)) db).2 = db := by
  rw [alone_bind, alone_ending]
  cases r <;> rfl

/-- A check that ends a call, before what it does otherwise. -/
lemma leaves_ite {c : Prop} [Decidable c] {x y : Server α} (hx : Leaves R x db) :
    Leaves R (if c then x else y) db ↔ (¬ c → Leaves R y db) := by
  by_cases hc : c
  · rw [if_pos hc]
    exact iff_of_true hx fun h => absurd hc h
  · rw [if_neg hc]
    exact ⟨fun h _ => h, fun h => h hc⟩

lemma leaves_findTask_bind (hR : R db) {number : ℤ} {f : TaskRow → Server β} :
    Leaves R (findTask number >>= f) db ↔
      ∀ task, db.taskNumbered number = some task → Leaves R (f task) db := by
  cases h : db.taskNumbered number with
  | none =>
      refine iff_of_true ?_ fun task htask => by cases htask
      rw [Leaves, alone_findTask_bind_none h]
      exact hR
  | some task =>
      rw [Leaves, alone_findTask_bind_some h]
      exact ⟨fun hleaves t ht => by cases ht; exact hleaves, fun hleaves => hleaves task rfl⟩

/-! ### The guard of a claim -/

lemma alone_roleGuard {required agent : String}
    (h : ∀ actual ∈ db.role agent, actual = required) :
    Server.alone (roleGuard required agent) db = (.ok (), db) := by
  rw [roleGuard, alone_query_bind, if_neg (not_exists_ne.mpr h)]
  rfl

lemma alone_roleGuard_of_not {required agent : String}
    (h : ¬ ∀ actual ∈ db.role agent, actual = required) :
    ∃ e, Server.alone (roleGuard required agent) db = (.error e, db) := by
  rw [← not_exists_ne, not_not] at h
  rw [roleGuard, alone_query_bind, if_pos h]
  exact ⟨_, rfl⟩

/-- The guard of a claim lets an agent pass whom the routing of the task admits. -/
lemma alone_claimGuard {taskId agent : String} (h : db.Routes taskId agent) :
    Server.alone (claimGuard taskId agent) db = (.ok (), db) := by
  rw [claimGuard, alone_query_bind]
  cases hrow : row Routing.taskId db.routing taskId with
  | none => rfl
  | some r =>
      obtain ⟨hagent, hrole⟩ := h r hrow
      simp only [not_exists_ne.mpr hagent, if_false]
      cases hrequired : r.requiredRole with
      | none => rfl
      | some required =>
          exact alone_roleGuard (hrole required hrequired)

/-- It refuses all others. -/
lemma alone_claimGuard_of_not {taskId agent : String} (h : ¬ db.Routes taskId agent) :
    ∃ e, Server.alone (claimGuard taskId agent) db = (.error e, db) := by
  rw [claimGuard, alone_query_bind]
  cases hrow : row Routing.taskId db.routing taskId with
  | none => exact absurd (fun r hr => by rw [hrow] at hr; cases hr) h
  | some r =>
      by_cases hagent : ∃ preferred ∈ r.preferredAgentId, preferred ≠ agent
      · simp only [hagent, if_true]
        exact ⟨_, rfl⟩
      simp only [hagent, if_false]
      cases hrequired : r.requiredRole with
      | none =>
          refine absurd (fun r' hr' => ?_) h
          obtain rfl := Option.some.inj (hrow.symm.trans hr')
          refine ⟨not_exists_ne.mp hagent, fun required hr => ?_⟩
          rw [hrequired] at hr
          cases hr
      | some required =>
          refine alone_roleGuard_of_not fun hrole => h fun r' hr' => ?_
          obtain rfl := Option.some.inj (hrow.symm.trans hr')
          refine ⟨not_exists_ne.mp hagent, fun required' hr => ?_⟩
          obtain rfl := Option.some.inj (hrequired.symm.trans hr)
          exact hrole

lemma leaves_claimGuard_bind (hR : R db) {taskId agent : String} {f : Unit → Server β} :
    Leaves R (claimGuard taskId agent >>= f) db ↔
      (db.Routes taskId agent → Leaves R (f ()) db) := by
  by_cases hroutes : db.Routes taskId agent
  · rw [forall_prop_of_true hroutes, Leaves, Leaves, alone_bind, alone_claimGuard hroutes]
  · obtain ⟨e, he⟩ := alone_claimGuard_of_not hroutes
    refine iff_of_true ?_ fun h => absurd h hroutes
    rw [Leaves, alone_bind, he]
    exact hR

/-! ### The checks of revisions -/

lemma alone_checkWorkRevision {args : Value} {numberKey revisionKey : String}
    (h : RevisionMatches args numberKey revisionKey db) :
    Server.alone (checkWorkRevision args numberKey revisionKey) db = (.ok (), db) := by
  unfold checkWorkRevision
  cases hnumber : (args.get numberKey).bind Value.asI64 with
  | none => rfl
  | some number =>
      obtain ⟨expected, hexpected, task, htask, hrevision⟩ := h number hnumber
      show Server.alone (ending (requiredI64 args revisionKey) >>= _) db = _
      rw [alone_ending_bind_ok hexpected, alone_query_bind, htask]
      show Server.alone (if task.revision ≠ expected then _ else _) db = _
      rw [if_neg (not_not.mpr hrevision)]
      rfl

lemma alone_checkWorkRevision_of_not {args : Value} {numberKey revisionKey : String}
    (h : ¬ RevisionMatches args numberKey revisionKey db) :
    ∃ e, Server.alone (checkWorkRevision args numberKey revisionKey) db = (.error e, db) := by
  unfold checkWorkRevision
  cases hnumber : (args.get numberKey).bind Value.asI64 with
  | none => exact absurd (fun number hn => by rw [hnumber] at hn; cases hn) h
  | some number =>
      show ∃ e, Server.alone (ending (requiredI64 args revisionKey) >>= _) db = _
      cases hexpected : requiredI64 args revisionKey with
      | error e => exact ⟨e, alone_ending_bind_error rfl _⟩
      | ok expected =>
          rw [alone_ending_bind_ok rfl, alone_query_bind]
          cases htask : db.taskNumbered number with
          | none => exact ⟨_, rfl⟩
          | some task =>
              show ∃ e, Server.alone (if task.revision ≠ expected then _ else _) db = _
              by_cases hrevision : task.revision = expected
              · refine absurd (fun number' hnumber' => ?_) h
                obtain rfl := Option.some.inj (hnumber.symm.trans hnumber')
                exact ⟨expected, hexpected, task, htask, hrevision⟩
              · rw [if_pos hrevision]
                exact ⟨_, rfl⟩

/-- The checks of the work surface let a call through whose revisions match. -/
lemma alone_checkRevisions {args : Value} (h : RevisionsMatch args db) :
    Server.alone (checkRevisions args) db = (.ok (), db) := by
  obtain ⟨hnumber, hparent, hrequired⟩ := h
  rw [checkRevisions, alone_bind, alone_checkWorkRevision hnumber]
  show Server.alone (checkWorkRevision _ _ _ >>= _) db = _
  rw [alone_bind, alone_checkWorkRevision hparent]
  exact alone_checkWorkRevision hrequired

/-- They refuse all others. -/
lemma alone_checkRevisions_of_not {args : Value} (h : ¬ RevisionsMatch args db) :
    ∃ e, Server.alone (checkRevisions args) db = (.error e, db) := by
  rw [checkRevisions, alone_bind]
  by_cases hnumber : RevisionMatches args "task_number" "expected_revision" db
  · rw [alone_checkWorkRevision hnumber]
    show ∃ e, Server.alone (checkWorkRevision _ _ _ >>= _) db = _
    rw [alone_bind]
    by_cases hparent : RevisionMatches args "parent_task_number" "expected_parent_revision" db
    · rw [alone_checkWorkRevision hparent]
      exact alone_checkWorkRevision_of_not fun hrequired => h ⟨hnumber, hparent, hrequired⟩
    · obtain ⟨e, he⟩ := alone_checkWorkRevision_of_not hparent
      rw [he]
      exact ⟨e, rfl⟩
  · obtain ⟨e, he⟩ := alone_checkWorkRevision_of_not hnumber
    rw [he]
    exact ⟨e, rfl⟩

/-! ### The check of a closing -/

lemma alone_dependencyState (d : Dependency) :
    Server.alone (dependencyState d) db = (.ok (db.dependencyState d), db) := by
  rw [dependencyState, alone_query_bind, alone_query_bind, Db.dependencyState]
  cases db.latestOutcome d.requiredTaskId with
  | none => rfl
  | some outcome => exact alone_query_bind _ _

/-- A server that works alone sees all dependencies of a task in one database. -/
lemma alone_dependencyStates (dependencies : List Dependency) :
    Server.alone (dependencyStates dependencies) db =
      (.ok (dependencies.map db.dependencyState), db) := by
  induction dependencies with
  | nil => rfl
  | cons d rest ih =>
      rw [dependencyStates, alone_bind, alone_dependencyState]
      show Server.alone (dependencyStates rest >>= _) db = _
      rw [alone_bind, ih]
      rfl

/-- Nothing stands in the way of a closing that is ready. -/
lemma alone_closeBlockers {task : TaskRow} (env : Env) (h : db.ReadyToClose task.taskId) :
    Server.alone (closeBlockers env task) db = (.ok none, db) := by
  rw [closeBlockers, alone_query_bind, if_neg h.1, alone_bind, taskDependencySatisfaction,
    alone_query_bind, alone_dependencyStates]
  show Server.alone (if AllSatisfied _ then _ else _) db = _
  rw [if_pos h.2]
  rfl

lemma alone_closeBlockers_of_not {task : TaskRow} (env : Env)
    (h : ¬ db.ReadyToClose task.taskId) :
    ∃ v, Server.alone (closeBlockers env task) db = (.ok (some v), db) := by
  rw [closeBlockers, alone_query_bind]
  by_cases hcount : db.admissionCount task.taskId = 0
  · rw [if_pos hcount]
    exact ⟨_, rfl⟩
  · rw [if_neg hcount, alone_bind, taskDependencySatisfaction, alone_query_bind,
      alone_dependencyStates]
    show ∃ v, Server.alone (if AllSatisfied _ then _ else _) db = _
    rw [if_neg fun hall => h ⟨hcount, hall⟩]
    exact ⟨_, rfl⟩

/-! ### The write of each call -/

/-- The report of blocked work. -/
def blockedReport (env : Env) (task : TaskRow) (agent reason : String) : Report where
  reportId := "report-" ++ env.uuid 0
  taskId := task.taskId
  agentId := agent
  summary := reason
  changedFiles := .array []
  verification := .object []
  submittedAt := env.now 0

variable (hR : R db)
include hR

/-- **A claim** writes where its guards let it and no assignment is open. -/
theorem leaves_taskClaim (env : Env) (args : Value) :
    Leaves R (taskClaim env args) db ↔
      ∀ number, requiredI64 args "task_number" = .ok number →
        ∀ agent, requiredString args "agent_id" = .ok agent →
          ∀ task, db.taskNumbered number = some task → ¬ task.status.Ended →
            db.Routes task.taskId agent → db.openAssignments task.taskId = [] →
              R ((Statement.claim ("assignment-" ++ env.uuid 0) task.taskId agent
                (env.now 0)).apply db) := by
  refine (leaves_ending_bind hR).trans (forall₂_congr fun number _ => ?_)
  refine (leaves_ending_bind hR).trans (forall₂_congr fun agent _ => ?_)
  refine (leaves_findTask_bind hR).trans (forall₂_congr fun task _ => ?_)
  refine (leaves_ite (by exact hR)).trans (forall_congr' fun _ => ?_)
  refine (leaves_claimGuard_bind hR).trans (forall_congr' fun _ => ?_)
  rw [claimUnassigned, leaves_query_bind, ← activeAssignment_eq_none_iff]
  cases db.activeAssignment task.taskId with
  | some active =>
      refine iff_of_true ?_ fun h => by cases h
      show Leaves _ (if active.agentId = agent then _ else _) db
      split <;> exact hR
  | none =>
      have htake : Leaves R (takeClaim env task agent) db ↔ _ :=
        leaves_execute_bind fun _ => leaves_ending_pure _ _
      exact htake.trans ⟨fun h _ => h, fun h => h rfl⟩

/-- **An unclaim** writes where an assignment is open that is not another agent's. -/
theorem leaves_taskUnclaim (env : Env) (args : Value) :
    Leaves R (taskUnclaim env args) db ↔
      ∀ number, requiredI64 args "task_number" = .ok number →
        ∀ task, db.taskNumbered number = some task →
          ∀ active, db.activeAssignment task.taskId = some active →
            (∀ agent ∈ stringArg args "agent_id", agent = active.agentId) →
              R ((Statement.reopenClaimed task.taskId (env.now 0)).apply
                (db.release active.assignmentId (env.now 0)
                  ((stringArg args "reason").getD "mcp_unclaim"))) := by
  refine (leaves_ending_bind hR).trans (forall₂_congr fun number _ => ?_)
  refine (leaves_findTask_bind hR).trans (forall₂_congr fun task _ => ?_)
  rw [leaves_query_bind]
  cases db.activeAssignment task.taskId with
  | none => exact iff_of_true hR fun active h => by cases h
  | some active =>
      refine (leaves_ite (by exact hR)).trans ?_
      rw [not_exists_ne]
      have hrelease : Leaves R (releaseActive env args task active) db ↔
          R ((Statement.reopenClaimed task.taskId (env.now 0)).apply
            (db.release active.assignmentId (env.now 0)
              ((stringArg args "reason").getD "mcp_unclaim"))) := by
        rw [Leaves, releaseActive, alone_bind, alone_execute]
        exact leaves_execute_bind fun _ => leaves_ending_pure _ _
      rw [hrelease]
      exact ⟨fun h active' heq => by cases heq; exact h, fun h => h active rfl⟩

/-- **A transition** writes along an edge of the table. -/
theorem leaves_taskTransition (env : Env) (args : Value) (status : Status) :
    Leaves R (taskTransition env args status) db ↔
      ∀ number, requiredI64 args "task_number" = .ok number →
        ∀ task, db.taskNumbered number = some task → Status.Edge task.status status →
          R ((Statement.transition number status (env.now 0)
            (stringArg args "agent_id")).apply db) := by
  refine (leaves_ending_bind hR).trans (forall₂_congr fun number _ => ?_)
  refine (leaves_findTask_bind hR).trans (forall₂_congr fun task _ => ?_)
  refine (leaves_ite (by exact hR)).trans ?_
  rw [not_not]
  refine forall_congr' fun _ => leaves_execute_bind fun v => ?_
  by_cases hnone : v = .ofNat 0
  · rw [if_pos hnone]
    rfl
  · rw [if_neg hnone]
    exact leaves_ending_pure _ _

/-- **A report of blocked work** writes the report, and defers the task unless it is told not
to. -/
theorem leaves_taskReportBlocked (env : Env) (args : Value) :
    Leaves R (taskReportBlocked env args) db ↔
      ∀ number, requiredI64 args "task_number" = .ok number →
        ∀ agent, requiredString args "agent_id" = .ok agent →
          ∀ reason, requiredString args "reason" = .ok reason →
            ∀ task, db.taskNumbered number = some task →
              let reported := (Statement.report (blockedReport env task agent reason)).apply db
              if boolArg args "defer" ≠ some false then
                R ((Statement.defer task.taskId (env.now 1)).apply reported)
              else R reported := by
  refine (leaves_ending_bind hR).trans (forall₂_congr fun number _ => ?_)
  refine (leaves_ending_bind hR).trans (forall₂_congr fun agent _ => ?_)
  refine (leaves_ending_bind hR).trans (forall₂_congr fun reason _ => ?_)
  refine (leaves_findTask_bind hR).trans (forall₂_congr fun task _ => ?_)
  rw [Leaves, alone_bind, alone_execute]
  by_cases hdefer : boolArg args "defer" ≠ some false
  · rw [if_pos hdefer, if_pos hdefer]
    rfl
  · rw [if_neg hdefer, if_neg hdefer]
    rfl

lemma leaves_finishCloseout (env : Env) (args : Value) (task : TaskRow) (agent : String) :
    Leaves R (finishCloseout env args task agent) db ↔
      (((stringArg args "summary").isSome → env.append = .ok ()) → ¬ DispositionOnly args →
        R ((Statement.closeout task.taskId (closeoutStatus args) (env.now 1) agent
          ((closeMode args).getD "prepared")).apply db)) := by
  have hsettle : Leaves R (settleCloseout env args task agent) db ↔
      (¬ DispositionOnly args →
        R ((Statement.closeout task.taskId (closeoutStatus args) (env.now 1) agent
          ((closeMode args).getD "prepared")).apply db)) :=
    (leaves_ite (by exact hR)).trans
      (forall_congr' fun _ => leaves_execute_bind fun v => by rfl)
  unfold finishCloseout
  by_cases hsummary : (stringArg args "summary").isSome
  · rw [if_pos hsummary, forall_prop_of_true hsummary, ← hsettle]
    exact (leaves_ending_bind hR).trans ⟨fun h => h (), fun h _ => h⟩
  · rw [if_neg hsummary, ← hsettle]
    exact ⟨fun h _ => h, fun h => h fun hsome => absurd hsome hsummary⟩

/-- **A closeout** writes where nothing blocks it. -/
theorem leaves_taskCloseout (env : Env) (args : Value) :
    Leaves R (taskCloseout env args) db ↔
      ∀ number, requiredI64 args "task_number" = .ok number →
        ∀ agent, requiredString args "agent_id" = .ok agent → ¬ boolArg args "dry_run" = some true →
          ∀ task, db.taskNumbered number = some task →
            ((closeMode args).isSome → db.ReadyToClose task.taskId) →
              ((stringArg args "summary").isSome → env.append = .ok ()) → ¬ DispositionOnly args →
                R ((Statement.closeout task.taskId (closeoutStatus args) (env.now 1) agent
                  ((closeMode args).getD "prepared")).apply db) := by
  refine (leaves_ending_bind hR).trans (forall₂_congr fun number _ => ?_)
  refine (leaves_ending_bind hR).trans (forall₂_congr fun agent _ => ?_)
  refine (leaves_ite (by exact hR)).trans (forall_congr' fun _ => ?_)
  refine (leaves_findTask_bind hR).trans (forall₂_congr fun task _ => ?_)
  have hfinish := leaves_finishCloseout hR env args task agent
  by_cases hmode : (closeMode args).isSome
  · have hsome : (closeMode args).isNone = false := by simpa using hmode
    rw [forall_prop_of_true hmode, if_neg (by rw [hsome]; exact Bool.false_ne_true)]
    by_cases hready : db.ReadyToClose task.taskId
    · rw [forall_prop_of_true hready, ← hfinish, Leaves, alone_bind, alone_closeBlockers env hready]
      rfl
    · obtain ⟨v, hv⟩ := alone_closeBlockers_of_not env hready
      refine iff_of_true ?_ fun h => absurd h hready
      rw [Leaves, alone_bind, hv]
      exact hR
  · have hnone : (closeMode args).isNone = true := by simpa using hmode
    rw [if_pos hnone]
    exact hfinish.trans ⟨fun h _ => h, fun h => h fun hsome => absurd hsome hmode⟩

/-! ### Finishes -/

omit hR in
/-- A finish of which the result is stored answers it. -/
lemma alone_submit_stored {env : Env} {s : Submission} {stored : Operation}
    (h : db.operation s.operationKey = some stored) :
    Server.alone (submit env s) db = (.ok stored.result, db) := by
  rw [submit, alone_query_bind, h]
  rfl

lemma leaves_submit (env : Env) (s : Submission) :
    Leaves R (submit env s) db ↔
      (db.operation s.operationKey = none → R ((Statement.finish s).apply db)) := by
  rw [submit, leaves_query_bind]
  cases db.operation s.operationKey with
  | some stored => exact iff_of_true hR fun h => by cases h
  | none =>
      rw [forall_prop_of_true rfl]
      refine leaves_execute_bind fun v => ?_
      by_cases hreviewer : s.reviewer.isSome
      · rw [if_pos hreviewer]
        exact leaves_ending_pure _ _
      · rw [if_neg hreviewer]
        rfl

variable [Digest]

/-- **A finish** writes where its checks let it and no result is stored under its key. -/
theorem leaves_taskFinish (env : Env) (args : Value) :
    Leaves R (taskFinish env args) db ↔
      ∀ a, finishArgs args = .ok a → ∀ task, db.taskNumbered a.number = some task →
        task.status.Finishable → (db.agentAssignment task.taskId a.agentId).isSome →
          let contract := row ResultContract.taskId db.resultContracts task.taskId
          ∀ validation, validateResult args contract = .ok validation →
            let s := submission env args a task contract validation
            db.operation s.operationKey = none → R ((Statement.finish s).apply db) := by
  refine (leaves_ending_bind hR).trans (forall₂_congr fun a _ => ?_)
  refine (leaves_findTask_bind hR).trans (forall₂_congr fun task _ => ?_)
  refine leaves_query_bind.trans (leaves_query_bind.trans ?_)
  refine (leaves_ite (by exact hR)).trans ?_
  rw [not_not]
  refine forall_congr' fun _ => (leaves_ite (by exact hR)).trans ?_
  rw [Option.isNone_iff_eq_none, ← ne_eq, Option.ne_none_iff_isSome]
  refine forall_congr' fun _ => (leaves_ending_bind hR).trans (forall₂_congr fun v _ => ?_)
  exact leaves_submit hR env _

omit hR in
/-- A call whose revisions match is carried out. -/
lemma alone_program_of_match {c : Call} (h : c.surface = .work → RevisionsMatch c.args db) :
    Server.alone c.program db = Server.alone (c.tool.program c.args) db := by
  unfold Call.program
  by_cases hsurface : c.surface = .work
  · rw [if_pos hsurface, alone_bind, alone_checkRevisions (h hsurface)]
  · rw [if_neg hsurface]

omit hR in
lemma alone_program_of_not_match {c : Call}
    (h : ¬ (c.surface = .work → RevisionsMatch c.args db)) :
    ∃ e, Server.alone c.program db = (.error e, db) := by
  obtain ⟨hsurface, hmatch⟩ := Classical.not_imp.mp h
  obtain ⟨e, he⟩ := alone_checkRevisions_of_not hmatch
  refine ⟨e, ?_⟩
  rw [Call.program, if_pos hsurface, alone_bind, he]

/-- What a call leaves, its checks of revisions before it. -/
theorem leaves_program (c : Call) :
    Leaves R c.program db ↔
      ((c.surface = .work → RevisionsMatch c.args db) → Leaves R (c.tool.program c.args) db) := by
  by_cases hmatch : c.surface = .work → RevisionsMatch c.args db
  · rw [forall_prop_of_true hmatch, Leaves, alone_program_of_match hmatch, Leaves]
  · obtain ⟨e, he⟩ := alone_program_of_not_match hmatch
    rw [Leaves, he]
    exact iff_of_true hR fun h => absurd h hmatch

end Alone

/-! ### What a server keeps -/

section Preserves

/-- Submitted work is finished without an outcome of its own. -/
lemma outcome_finishArgsOf (args : Value) (number : ℤ) (agent summary : String) :
    stringArg (finishArgsOf args number agent summary) "outcome" = none := by
  have hhanded (keys : List String) (h : "outcome" ∉ keys) :
      OrderedMap.get (handedOn args keys) "outcome" = none := by
    rw [OrderedMap.get_eq_none_iff]
    intro hmem
    obtain ⟨e, he, heq⟩ := List.mem_map.mp hmem
    obtain ⟨key, hkey, hget⟩ := List.mem_filterMap.mp he
    obtain ⟨v, -, rfl⟩ := Option.map_eq_some_iff.mp hget
    exact h (heq ▸ hkey)
  have hget : (finishArgsOf args number agent summary).get "outcome" = none := by
    show OrderedMap.get (_ ++ handedOn args _) "outcome" = none
    rw [OrderedMap.get_append, hhanded _ (by decide)]
    rfl
  rw [stringArg, hget]
  rfl

variable [FloatText] {α β : Type} {inv : Db → Prop}

/-- A server that works alone keeps an invariant. -/
def Preserves (inv : Db → Prop) (x : Server α) : Prop := ∀ db, inv db → Leaves inv x db

lemma Preserves.bind {x : Server α} {f : α → Server β} (hx : Preserves inv x)
    (hf : ∀ a, Preserves inv (f a)) : Preserves inv (x >>= f) := by
  intro db h
  have hbehind : inv (Server.alone x db).2 := hx db h
  rw [Leaves, alone_bind]
  generalize Server.alone x db = result at hbehind
  obtain ⟨r, behind⟩ := result
  cases r with
  | error e => exact hbehind
  | ok a => exact hf a behind hbehind

lemma preserves_pure (a : α) : Preserves inv (pure a : Server α) := fun _ h => h

lemma preserves_throw (e : String) : Preserves inv (throw e : Server α) := fun _ h => h

lemma preserves_ending (r : Except String α) : Preserves inv (ending r) := fun _ h => h

lemma preserves_query (f : Db → α) : Preserves inv (query f) := fun _ h => h

lemma preserves_execute {st : Statement} (h : ∀ db, inv db → inv (st.apply db)) :
    Preserves inv (execute st) := h

lemma Preserves.ite {c : Prop} [Decidable c] {x y : Server α} (hx : Preserves inv x)
    (hy : Preserves inv y) : Preserves inv (if c then x else y) := by
  split
  · exact hx
  · exact hy

lemma preserves_findTask (number : ℤ) : Preserves inv (findTask number) := by
  refine (preserves_query _).bind fun task => ?_
  cases task with
  | none => exact preserves_throw _
  | some task => exact preserves_pure _

variable (hadmission : ∀ a db, inv db → inv ((Statement.admission a).apply db))
include hadmission

lemma preserves_taskAdmitEvidence (env : Env) (args : Value) :
    Preserves inv (taskAdmitEvidence env args) := by
  refine (preserves_ending _).bind fun number => (preserves_ending _).bind fun agent => ?_
  refine (preserves_findTask number).bind fun task => (preserves_query _).bind fun reportIds => ?_
  refine (preserves_query _).bind fun proofIds => (preserves_ending _).bind fun methods => ?_
  exact .ite (preserves_pure _)
    ((preserves_execute (hadmission _)).bind fun _ => preserves_pure _)

variable (hproof : ∀ p db, inv db → inv ((Statement.proof p).apply db))
include hproof

lemma preserves_taskProveCriteria (env admitting : Env) (args : Value) :
    Preserves inv (taskProveCriteria env admitting args) := by
  refine (preserves_ending _).bind fun number => (preserves_ending _).bind fun agent => ?_
  refine (preserves_query _).bind fun spec => ?_
  cases spec with
  | none => exact preserves_throw _
  | some spec =>
      refine (preserves_ending _).bind fun changed => .ite (preserves_pure _) ?_
      refine (preserves_execute (hproof _)).bind fun _ => ?_
      exact (preserves_taskAdmitEvidence hadmission _ _).bind fun _ => preserves_pure _

variable (hclaim : ∀ env args, Preserves inv (taskClaim env args))
include hclaim

lemma preserves_prepareSubmit (env : SubmitEnv) (args : Value) (task : TaskRow) (agent : String)
    (resume : Bool) : Preserves inv (prepareSubmit env args task agent resume) := by
  have hreport : Preserves inv (previousReport task.taskId agent) := by
    refine (preserves_query _).bind fun report => ?_
    cases report with
    | none => exact preserves_throw _
    | some report => exact preserves_pure _
  have hsummary : Preserves inv (summaryForSubmit args task agent resume) :=
    .ite (preserves_pure _) (hreport.bind fun _ => preserves_pure _)
  have hclaimed : Preserves inv (claimForSubmit env args task agent) :=
    .ite (preserves_pure _) ((hclaim _ _).bind fun _ => preserves_pure _)
  have hnotes : Preserves inv (writeNotes env task resume) :=
    .ite (preserves_pure _) ((preserves_ending _).bind fun _ =>
      (preserves_ending _).bind fun _ => preserves_pure _)
  have hprove : Preserves inv (proveForSubmit env args task agent resume) :=
    .ite (preserves_pure _)
      ((preserves_taskProveCriteria hadmission hproof _ _ _).bind fun _ => preserves_pure _)
  have hadmit : Preserves inv (admitForSubmit env args task agent resume) :=
    .ite (preserves_pure _)
      ((preserves_taskAdmitEvidence hadmission _ _).bind fun _ => preserves_pure _)
  refine hsummary.bind fun summary => hclaimed.bind fun claimed => hnotes.bind fun noted => ?_
  exact hprove.bind fun proved => hadmit.bind fun admitted => preserves_pure _

variable [Digest]

/-- **Submitted work** keeps what its claim, its proof, its admission and a finish without an
outcome keep. -/
theorem preserves_taskSubmitWork
    (hfinish : ∀ env args, stringArg args "outcome" = none → Preserves inv (taskFinish env args))
    (env : SubmitEnv) (args : Value) : Preserves inv (taskSubmitWork env args) := by
  have hfinished (task : TaskRow) (agent : String) (summary : Option String) :
      Preserves inv (finishForSubmit env args task agent summary) := by
    refine .ite (preserves_pure _) ?_
    cases summary with
    | none => exact preserves_throw _
    | some summary =>
        exact (hfinish _ _ (outcome_finishArgsOf args _ _ _)).bind fun _ => preserves_pure _
  refine (preserves_ending _).bind fun number => (preserves_ending _).bind fun agent => ?_
  refine (preserves_ending _).bind fun _ => (preserves_findTask number).bind fun task => ?_
  refine (preserves_query _).bind fun rostered => .ite (preserves_pure _) ?_
  refine (preserves_ending _).bind fun payload => ?_
  refine (preserves_prepareSubmit hadmission hproof hclaim env args task agent _).bind fun made => ?_
  exact (hfinished task agent made.1).bind fun final => preserves_pure _

end Preserves

end TaskLifecycle

end McpSurfaces
