import McpSurfaces.TaskLifecycle.Records

/-!
Whether the status of a task agrees with its assignments.

* `Agrees`: a claimed task has an open assignment; one that is opened, deferred, closed or
  confirmed has none.
* `Orderly`: what the tables keep in any sequence of calls.
* `Turn.Spares`: when a call leaves the agreement: a deferral, a reopening or a closing finds no
  assignment open, for it releases none.
* **`agrees_iff`**: in a sequence of calls the agreement holds behind each call, and a task that was
  opened again can be claimed, exactly when every call meets its condition.
* `deferred_while_assigned`: a claimed task that is deferred.
-/

namespace McpSurfaces

namespace TaskLifecycle

open EventLedger (Digest)
open Table (row updateWhere)
open Calls (run Each)

/-! ### The agreement -/

/-- A status agrees with the open assignments of its task. -/
def Status.Fits (s : Status) (assigned : List Assignment) : Prop :=
  (s = .claimed → assigned ≠ []) ∧
    (s ∈ [.opened, .deferred, .closed, .confirmed] → assigned = [])

/-- The status of every task agrees with its assignments. -/
def Agrees (db : Db) : Prop := ∀ t ∈ db.tasks, t.status.Fits (db.openAssignments t.taskId)

/-- What the tables keep in any sequence of calls: unique keys, one open assignment of a task at
most, and no assignment of a task that is not there. -/
structure Orderly (db : Db) : Prop where
  keyed : db.Keyed
  ids : (db.assignments.map Assignment.assignmentId).Nodup
  owned : OneOwner db
  assigned : ∀ a ∈ db.assignments, db.task a.taskId ≠ none

lemma fits_of_free {s : Status} (h : s ∈ [.opened, .deferred, .closed, .confirmed])
    (assigned : List Assignment) : s.Fits assigned ↔ assigned = [] := by
  refine ⟨fun hfits => hfits.2 h, fun hnone => ⟨?_, fun _ => hnone⟩⟩
  rintro rfl
  simp at h

/-- A task of which an assignment is open may be in any status but those of free tasks. -/
lemma fits_of_ne_nil {s : Status} {assigned assigned' : List Assignment} (h : s.Fits assigned)
    (hne : assigned ≠ []) (hs : s ≠ .claimed) : s.Fits assigned' :=
  ⟨fun heq => absurd heq hs, fun hfree => absurd (h.2 hfree) hne⟩

/-! ### What a change of a task's status does -/

section Updates

variable {db db' : Db} {p : TaskRow → Prop} [DecidablePred p] {set : TaskRow → TaskRow}

/-- An update leaves the agreement where each new status agrees with the assignments. -/
lemma agrees_iff_of_update (h : Agrees db) (htasks : db'.tasks = updateWhere p set db.tasks)
    (hset : ∀ t, (set t).taskId = t.taskId)
    (hopen : ∀ taskId, db'.openAssignments taskId = db.openAssignments taskId) :
    Agrees db' ↔ ∀ t ∈ db.tasks, p t → (set t).status.Fits (db.openAssignments t.taskId) := by
  unfold Agrees
  rw [htasks]
  constructor
  · intro hagrees t ht hp
    have hfits := hagrees (set t) (Table.mem_updateWhere.mpr ⟨t, ht, if_pos hp⟩)
    rwa [hset, hopen] at hfits
  · intro hfits t ht
    obtain ⟨old, hold, rfl⟩ := Table.mem_updateWhere.mp ht
    by_cases hp : p old
    · rw [if_pos hp, hset, hopen]
      exact hfits old hold hp
    · rw [if_neg hp, hopen]
      exact h old hold

/-- An update of one task. -/
lemma agrees_iff_of_updateTask (h : Agrees db) {task : TaskRow} (htask : task ∈ db.tasks)
    (hp : ∀ t ∈ db.tasks, p t ↔ t = task)
    (htasks : db'.tasks = updateWhere p set db.tasks) (hset : ∀ t, (set t).taskId = t.taskId)
    (hassignments : db'.assignments = db.assignments) :
    Agrees db' ↔ (set task).status.Fits (db.openAssignments task.taskId) := by
  rw [agrees_iff_of_update h htasks hset (openAssignments_of_assignments hassignments)]
  refine ⟨fun hall => hall task htask ((hp task htask).mpr rfl), fun hfits t ht hpt => ?_⟩
  obtain rfl := (hp t ht).mp hpt
  exact hfits

/-- The status behind an update that meets the task. -/
lemma statusOf_of_update {task : TaskRow} (htask : db.task task.taskId = some task)
    (htasks : db'.tasks = updateWhere p set db.tasks) (hset : ∀ t, (set t).taskId = t.taskId)
    (hp : p task) : db'.statusOf task.taskId = some (set task).status := by
  rw [Db.statusOf, Db.task, htasks, Table.row_updateWhere fun t _ => hset t, ← Db.task, htask,
    Option.map_some, if_pos hp, Option.map_some]

lemma agrees_of_eq (h : Agrees db) (htasks : db'.tasks = db.tasks)
    (hassignments : db'.assignments = db.assignments) : Agrees db' := by
  intro t ht
  rw [htasks] at ht
  rw [openAssignments_of_assignments hassignments]
  exact h t ht

/-- New tasks that are opened, and to which nothing is assigned. -/
lemma agrees_of_append (h : Agrees db) {new : List TaskRow} (htasks : db'.tasks = db.tasks ++ new)
    (hassignments : db'.assignments = db.assignments)
    (hnew : ∀ t ∈ new, t.status = .opened ∧ db.openAssignments t.taskId = []) : Agrees db' := by
  intro t ht
  rw [htasks] at ht
  rw [openAssignments_of_assignments hassignments]
  rcases List.mem_append.mp ht with ht | ht
  · exact h t ht
  · obtain ⟨hstatus, hnone⟩ := hnew t ht
    rw [hstatus, hnone]
    exact (fits_of_free (by simp) _).mpr rfl

end Updates

namespace Orderly

variable {db db' : Db} (h : Orderly db)
include h

lemma openAssignments_of_unknown {taskId : String} (hunknown : db.task taskId = none) :
    db.openAssignments taskId = [] := by
  refine List.eq_nil_iff_forall_not_mem.mpr fun a ha => ?_
  obtain ⟨hmem, rfl, -⟩ := mem_openAssignments.mp ha
  exact h.assigned a hmem hunknown

lemma eq_of_taskId {t task : TaskRow} (ht : t ∈ db.tasks) (htask : task ∈ db.tasks) :
    t.taskId = task.taskId ↔ t = task :=
  ⟨fun heq => List.inj_on_of_nodup_map h.keyed.ids ht htask heq, fun heq => by rw [heq]⟩

lemma eq_of_number {t task : TaskRow} (ht : t ∈ db.tasks) (htask : task ∈ db.tasks) :
    t.number = task.number ↔ t = task :=
  ⟨fun heq => List.inj_on_of_nodup_map h.keyed.numbers ht htask heq, fun heq => by rw [heq]⟩

/-- A task has one open assignment at most. -/
lemma eq_of_open {taskId : String} {a b : Assignment} (ha : a ∈ db.openAssignments taskId)
    (hb : b ∈ db.openAssignments taskId) : b = a := by
  obtain ⟨c, hc⟩ := List.length_eq_one_iff.mp
    (le_antisymm (h.owned taskId) (List.length_pos_of_mem ha))
  rw [hc] at ha hb
  rw [List.mem_singleton.mp ha, List.mem_singleton.mp hb]

/-- Tasks that stay, and assignments that do. -/
lemma of_tasks (hkeyed : db'.Keyed) (hassignments : db'.assignments = db.assignments)
    (htasks : ∀ taskId, db.task taskId ≠ none → db'.task taskId ≠ none) : Orderly db' where
  keyed := hkeyed
  ids := by
    rw [hassignments]
    exact h.ids
  owned taskId := by
    rw [openAssignments_of_assignments hassignments]
    exact h.owned taskId
  assigned a ha := by
    rw [hassignments] at ha
    exact htasks _ (h.assigned a ha)

end Orderly

section Statements

variable [FloatText] {db : Db}

/-- No statement takes a task away. -/
lemma task_apply_ne_none {taskId : String} (h : db.task taskId ≠ none) (st : Statement) :
    (st.apply db).task taskId ≠ none := by
  have hupdate {p : TaskRow → Prop} [DecidablePred p] {set : TaskRow → TaskRow} {db' : Db}
      (htasks : db'.tasks = updateWhere p set db.tasks) (hset : ∀ t, (set t).taskId = t.taskId) :
      db'.task taskId ≠ none := by
    rw [Db.task, htasks, Table.row_updateWhere fun t _ => hset t, ne_eq, Option.map_eq_none_iff]
    exact h
  cases st with
  | claim assignmentId claimed agentId timestamp =>
      by_cases haccepts : db.Accepts assignmentId claimed
      · exact hupdate (tasks_claim haccepts) fun _ => rfl
      · rwa [apply_claim_of_not_accepts haccepts]
  | reopenClaimed => exact hupdate rfl fun _ => rfl
  | transition => exact hupdate rfl fun _ => rfl
  | defer => exact hupdate rfl fun _ => rfl
  | closeout => exact hupdate rfl fun _ => rfl
  | finish s =>
      cases htransact : s.transact db with
      | error e => simpa only [Statement.apply, Statement.exec, htransact] using h
      | ok r =>
          obtain ⟨db', answer⟩ := r
          obtain ⟨new, outcome, -, -, -, -, htasks⟩ := tasks_transact htransact
          obtain ⟨t, ht⟩ := Option.ne_none_iff_exists'.mp h
          simp only [Statement.apply, Statement.exec, htransact]
          rw [Db.task, htasks, Table.row_updateWhere fun t _ => taskId_finished s outcome t,
            Table.row_append_of_some new ht]
          simp
  | query => exact h
  | release => exact h
  | report => exact h
  | proof => exact h
  | admission => exact h

/-- **Every statement leaves the tables orderly**, a claim where no assignment of its task is
open. -/
lemma Orderly.apply (h : Orderly db) {st : Statement} (hlooked : Looked db st) :
    Orderly (st.apply db) where
  keyed := h.keyed.apply st
  ids := by
    rcases assignments_apply st db with heq | ⟨assignmentId, _, _, _, rfl, haccepts, heq⟩ |
      ⟨assignmentId, timestamp, reason, rfl, heq⟩
    · rw [heq]
      exact h.ids
    · rw [heq]
      refine Table.nodup_append_singleton h.ids (Table.row_eq_none_iff.mpr fun hmem => ?_)
      obtain ⟨a, ha, hid⟩ := List.mem_map.mp hmem
      exact haccepts.1 a ha hid
    · rw [heq]
      have hkeys : (db.release assignmentId timestamp reason).assignments.map
          Assignment.assignmentId = db.assignments.map Assignment.assignmentId :=
        Table.keys_updateWhere fun _ _ => rfl
      rw [hkeys]
      exact h.ids
  owned taskId := by
    rcases assignments_apply st db with heq | ⟨_, claimed, _, _, rfl, haccepts, -⟩ |
      ⟨_, _, _, rfl, heq⟩
    · rw [openAssignments_of_assignments heq]
      exact h.owned taskId
    · rw [openAssignments_claim haccepts]
      by_cases hother : taskId = claimed
      · subst hother
        have hnone : db.openAssignments taskId = [] := hlooked
        rw [if_pos rfl, hnone]
        exact le_refl 1
      · rw [if_neg hother, List.append_nil]
        exact h.owned taskId
    · rw [heq, openAssignments_release]
      exact (List.length_filter_le _ _).trans (h.owned taskId)
  assigned a ha := by
    refine task_apply_ne_none ?_ st
    rcases assignments_apply st db with heq | ⟨_, claimed, _, _, rfl, haccepts, heq⟩ |
      ⟨_, _, _, rfl, heq⟩
    · rw [heq] at ha
      exact h.assigned a ha
    · rw [heq] at ha
      rcases List.mem_append.mp ha with ha | ha
      · exact h.assigned a ha
      · obtain rfl := List.mem_singleton.mp ha
        exact haccepts.2
    · rw [heq, Db.release] at ha
      obtain ⟨old, hold, rfl⟩ := Table.mem_updateWhere.mp ha
      have hid := h.assigned old hold
      split <;> exact hid

/-! ### The statements -/

/-- A claim that goes through agrees with its assignment. -/
lemma Agrees.claim (h : Agrees db) {assignmentId taskId agentId timestamp : String} :
    Agrees ((Statement.claim assignmentId taskId agentId timestamp).apply db) := by
  by_cases haccepts : db.Accepts assignmentId taskId
  · intro t ht
    rw [tasks_claim haccepts] at ht
    obtain ⟨old, hold, rfl⟩ := Table.mem_updateWhere.mp ht
    rw [openAssignments_claim haccepts]
    by_cases hid : old.taskId = taskId
    · rw [if_pos hid]
      refine ⟨fun _ => ?_, fun hfree => by simp [Db.setStatus] at hfree⟩
      show _ ++ (if old.taskId = taskId then _ else _) ≠ []
      rw [if_pos hid]
      simp
    · rw [if_neg hid, if_neg hid, List.append_nil]
      exact h old hold
  · rwa [apply_claim_of_not_accepts haccepts]

omit [FloatText] in
/-- The release of an open assignment closes it, and no other. -/
lemma Orderly.openAssignments_release (h : Orderly db) {taskId : String} {a : Assignment}
    (ha : a ∈ db.openAssignments taskId) (timestamp reason other : String) :
    (db.release a.assignmentId timestamp reason).openAssignments other =
      if other = taskId then [] else db.openAssignments other := by
  rw [TaskLifecycle.openAssignments_release]
  split
  · next hother =>
      subst hother
      rw [List.filter_eq_nil_iff]
      intro b hb
      rw [h.eq_of_open ha hb]
      simp
  · next hother =>
      rw [List.filter_eq_self]
      intro b hb
      rw [decide_eq_true_iff]
      intro hid
      obtain ⟨hmem, htask, -⟩ := mem_openAssignments.mp hb
      obtain ⟨hmem', htask', -⟩ := mem_openAssignments.mp ha
      obtain rfl := List.inj_on_of_nodup_map h.ids hmem hmem' hid
      exact hother (htask.symm.trans htask')

/-- The release of the only open assignment of a task, and its reopening. -/
lemma Agrees.unclaim (horderly : Orderly db) (h : Agrees db) {taskId : String} {a : Assignment}
    (ha : a ∈ db.openAssignments taskId) (timestamp reason : String) :
    Agrees ((Statement.reopenClaimed taskId timestamp).apply
      (db.release a.assignmentId timestamp reason)) := by
  have hopen (other : String) : ((Statement.reopenClaimed taskId timestamp).apply
      (db.release a.assignmentId timestamp reason)).openAssignments other =
        if other = taskId then [] else db.openAssignments other :=
    horderly.openAssignments_release ha timestamp reason other
  intro t ht
  obtain ⟨old, hold, rfl⟩ := Table.mem_updateWhere.mp ht
  have hfits := h old hold
  by_cases hid : old.taskId = taskId
  · by_cases hclaimed : old.status = .claimed
    · rw [if_pos ⟨hid, hclaimed⟩, hopen]
      exact (fits_of_free (by simp [Db.setStatus]) _).mpr (if_pos hid)
    · rw [if_neg fun hboth => hclaimed hboth.2]
      exact fits_of_ne_nil hfits (by rw [hid]; exact List.ne_nil_of_mem ha) hclaimed
  · rw [if_neg fun hboth => hid hboth.1, hopen, if_neg hid]
    exact hfits

variable {task : TaskRow} (horderly : Orderly db) (h : Agrees db) (htask : task ∈ db.tasks)
include horderly h htask

/-- A transition to a status of free tasks asks for a task that is free. -/
lemma agrees_transition {status : Status} (hfree : status ∈ [.opened, .deferred])
    (timestamp : String) (agent : Option String) :
    Agrees ((Statement.transition task.number status timestamp agent).apply db) ↔
      db.openAssignments task.taskId = [] := by
  refine Iff.trans (agrees_iff_of_updateTask h htask
    (fun t ht => horderly.eq_of_number ht htask) rfl (fun _ => rfl) rfl) (fits_of_free ?_ _)
  simp only [List.mem_cons, List.not_mem_nil, or_false] at hfree ⊢
  tauto

lemma agrees_defer (timestamp : String) :
    Agrees ((Statement.defer task.taskId timestamp).apply db) ↔
      db.openAssignments task.taskId = [] :=
  Iff.trans (agrees_iff_of_updateTask h htask (fun t ht => horderly.eq_of_taskId ht htask) rfl
    (fun _ => rfl) rfl) (fits_of_free (by simp) _)

/-- A closeout asks for a free task only where it closes it. -/
lemma agrees_closeout (args : Value) (timestamp agent mode : String) :
    Agrees ((Statement.closeout task.taskId (closeoutStatus args) timestamp agent mode).apply db) ↔
      ((closeMode args).isSome → db.openAssignments task.taskId = []) := by
  refine Iff.trans (agrees_iff_of_updateTask h htask
    (fun t ht => horderly.eq_of_taskId ht htask) rfl (fun _ => rfl) rfl) ?_
  show Status.Fits (closeoutStatus args) _ ↔ _
  unfold closeoutStatus
  by_cases hmode : (closeMode args).isSome
  · rw [if_pos hmode, forall_prop_of_true hmode]
    exact fits_of_free (by simp) _
  · rw [if_neg hmode]
    exact iff_of_true ⟨by simp, by simp⟩ fun hsome => absurd hsome hmode

/-- A finish that goes through leaves an assignment open. -/
lemma agrees_finish {s : Submission} (hid : s.taskId = task.taskId)
    (hassigned : db.openAssignments task.taskId ≠ []) :
    Agrees ((Statement.finish s).apply db) ↔
      ((∃ r, s.transact db = .ok r) → s.target ≠ .closed) := by
  cases htransact : s.transact db with
  | error e =>
      have happly : (Statement.finish s).apply db = db := by
        simp only [Statement.apply, Statement.exec, htransact]
      rw [happly]
      refine iff_of_true h ?_
      rintro ⟨r, hr⟩
      cases hr
  | ok r =>
      obtain ⟨db', answer⟩ := r
      have happly : (Statement.finish s).apply db = db' := by
        simp only [Statement.apply, Statement.exec, htransact]
      obtain ⟨new, outcome, hstatus, hnew, -, -, htasks⟩ := tasks_transact htransact
      have hassignments := assignments_transact htransact
      have hmem : task ∈ db.tasks ++ new := List.mem_append_left _ htask
      -- the tasks that are new are no update of the task of the finish
      have hp : ∀ t ∈ db.tasks ++ new, t.taskId = s.taskId ↔ t = task := by
        intro t ht
        rw [hid]
        rcases List.mem_append.mp ht with ht | ht
        · exact horderly.eq_of_taskId ht htask
        · have hknown := Db.task_of_mem horderly.keyed htask
          refine iff_of_false (fun heq => ?_) fun heq => ?_
          · rw [← heq, (hnew t ht).1] at hknown
            cases hknown
          · rw [← heq, (hnew t ht).1] at hknown
            cases hknown
      have hagrees : Agrees { db with tasks := db.tasks ++ new } :=
        agrees_of_append h rfl rfl fun t ht =>
          ⟨(hnew t ht).2.2, horderly.openAssignments_of_unknown (hnew t ht).1⟩
      rw [happly]
      refine (agrees_iff_of_updateTask hagrees hmem hp htasks (taskId_finished s outcome)
        hassignments).trans ?_
      rw [status_finished, hstatus]
      show s.target.Fits (db.openAssignments task.taskId) ↔ _
      rw [forall_prop_of_true ⟨_, rfl⟩]
      unfold Submission.target
      split
      · exact iff_of_true ⟨by simp, by simp⟩ (by simp)
      split
      · exact iff_of_false (fun hfits => hassigned (hfits.2 (by simp))) (by simp)
      · exact iff_of_true ⟨by simp, by simp⟩ (by simp)

end Statements

/-! ### Calls -/

section Calls

variable [FloatText] {db : Db}

/-- The tables are orderly, and the statuses agree with the assignments. -/
def Sound (db : Db) : Prop := Orderly db ∧ Agrees db

/-- When a transition leaves the agreement. -/
def TransitionSpares (args : Value) (status : Status) (db : Db) : Prop :=
  ∀ number, requiredI64 args "task_number" = .ok number →
    ∀ task, db.taskNumbered number = some task → Status.Edge task.status status →
      db.openAssignments task.taskId = []

/-- When a report of blocked work leaves the agreement. -/
def ReportBlockedSpares (args : Value) (db : Db) : Prop :=
  ∀ number, requiredI64 args "task_number" = .ok number →
    ∀ agent, requiredString args "agent_id" = .ok agent →
      ∀ reason, requiredString args "reason" = .ok reason →
        ∀ task, db.taskNumbered number = some task → boolArg args "defer" ≠ some false →
          db.openAssignments task.taskId = []

/-- When a closeout leaves the agreement. -/
def CloseoutSpares (env : Env) (args : Value) (db : Db) : Prop :=
  ∀ number, requiredI64 args "task_number" = .ok number →
    ∀ agent, requiredString args "agent_id" = .ok agent → ¬ boolArg args "dry_run" = some true →
      ∀ task, db.taskNumbered number = some task →
        ((closeMode args).isSome → db.ReadyToClose task.taskId) →
          ((stringArg args "summary").isSome → env.append = .ok ()) → ¬ DispositionOnly args →
            (closeMode args).isSome → db.openAssignments task.taskId = []

omit [FloatText] in
lemma activeAssignment_mem {taskId : String} {active : Assignment}
    (h : db.activeAssignment taskId = some active) : active ∈ db.openAssignments taskId := by
  obtain ⟨hmem, hkey⟩ := Table.firstBy_mem h
  exact mem_openAssignments.mpr ⟨hmem, hkey⟩

omit [FloatText] in
/-- The assignment that a finish asks for is an open one of its task. -/
lemma openAssignments_ne_nil_of_agent {taskId agent : String}
    (h : (db.agentAssignment taskId agent).isSome) : db.openAssignments taskId ≠ [] := by
  obtain ⟨a, ha⟩ := Option.isSome_iff_exists.mp h
  obtain ⟨hmem, hid, -, hopen⟩ := Table.firstBy_mem ha
  exact List.ne_nil_of_mem (mem_openAssignments.mpr ⟨hmem, hid, hopen⟩)

lemma preserves_taskClaim (env : Env) (args : Value) : Preserves Sound (taskClaim env args) := by
  intro db h
  refine (leaves_taskClaim h env args).mpr fun number _ agent _ task _ _ _ hnone => ?_
  exact ⟨h.1.apply hnone, h.2.claim⟩

lemma leaves_agrees_unclaim (h : Sound db) (env : Env) (args : Value) :
    Leaves Agrees (taskUnclaim env args) db := by
  refine (leaves_taskUnclaim h.2 env args).mpr fun number _ task _ active hactive _ => ?_
  exact h.2.unclaim h.1 (activeAssignment_mem hactive) _ _

lemma leaves_agrees_transition (h : Sound db) (env : Env) (args : Value) {status : Status}
    (hfree : status ∈ [.opened, .deferred]) :
    Leaves Agrees (taskTransition env args status) db ↔ TransitionSpares args status db := by
  refine (leaves_taskTransition h.2 env args status).trans (forall₂_congr fun number _ => ?_)
  refine forall₂_congr fun task htask => forall_congr' fun _ => ?_
  obtain rfl := Db.number_of_taskNumbered htask
  exact agrees_transition h.1 h.2 (Db.mem_of_taskNumbered htask) hfree _ _

lemma leaves_agrees_reportBlocked (h : Sound db) (env : Env) (args : Value) :
    Leaves Agrees (taskReportBlocked env args) db ↔ ReportBlockedSpares args db := by
  refine (leaves_taskReportBlocked h.2 env args).trans (forall₂_congr fun number _ => ?_)
  refine forall₂_congr fun agent _ => forall₂_congr fun reason _ => ?_
  refine forall₂_congr fun task htask => ?_
  by_cases hdefer : boolArg args "defer" ≠ some false
  · rw [forall_prop_of_true hdefer, if_pos hdefer]
    have hreported : Orderly ((Statement.report (blockedReport env task agent reason)).apply db) :=
      h.1.apply trivial
    exact agrees_defer hreported (agrees_of_eq h.2 rfl rfl) (Db.mem_of_taskNumbered htask) _
  · rw [if_neg hdefer]
    exact iff_of_true (agrees_of_eq h.2 rfl rfl) fun hd => absurd hd hdefer

lemma leaves_agrees_closeout (h : Sound db) (env : Env) (args : Value) :
    Leaves Agrees (taskCloseout env args) db ↔ CloseoutSpares env args db := by
  refine (leaves_taskCloseout h.2 env args).trans (forall₂_congr fun number _ => ?_)
  refine forall₂_congr fun agent _ => forall_congr' fun _ => forall₂_congr fun task htask => ?_
  refine forall_congr' fun _ => forall_congr' fun _ => forall_congr' fun _ => ?_
  exact agrees_closeout h.1 h.2 (Db.mem_of_taskNumbered htask) _ _ _ _

/-! ### Finishes and submitted work -/

variable [Digest]

/-- When a finish leaves the agreement. -/
def FinishSpares (env : Env) (args : Value) (db : Db) : Prop :=
  ∀ a, finishArgs args = .ok a → ∀ task, db.taskNumbered a.number = some task →
    task.status.Finishable → (db.agentAssignment task.taskId a.agentId).isSome →
      let contract := row ResultContract.taskId db.resultContracts task.taskId
      ∀ validation, validateResult args contract = .ok validation →
        let s := submission env args a task contract validation
        db.operation s.operationKey = none → (∃ r, s.transact db = .ok r) → s.target ≠ .closed

lemma leaves_agrees_finish (h : Sound db) (env : Env) (args : Value) :
    Leaves Agrees (taskFinish env args) db ↔ FinishSpares env args db := by
  refine (leaves_taskFinish h.2 env args).trans (forall₂_congr fun a _ => ?_)
  refine forall₂_congr fun task htask => forall_congr' fun _ => ?_
  refine forall_congr' fun hassigned => forall₂_congr fun v _ => forall_congr' fun _ => ?_
  exact agrees_finish h.1 h.2 (Db.mem_of_taskNumbered htask) rfl
    (openAssignments_ne_nil_of_agent hassigned)

/-- The finish of submitted work closes no task. -/
lemma finishSpares_of_no_outcome {env : Env} {args : Value}
    (h : stringArg args "outcome" = none) : FinishSpares env args db := by
  intro a _ task _ _ _ contract v _ s _ _
  have houtcome : s.outcome = none := h
  unfold Submission.target
  split
  · simp
  · rw [houtcome]
    simp

lemma preserves_submitWork (env : SubmitEnv) (args : Value) :
    Preserves Sound (taskSubmitWork env args) := by
  refine preserves_taskSubmitWork (fun a db h => ?_) (fun p db h => ?_) preserves_taskClaim
    (fun finishing finishArgs houtcome db h => ?_) env args
  · exact ⟨h.1.apply trivial, agrees_of_eq h.2 rfl rfl⟩
  · exact ⟨h.1.apply trivial, agrees_of_eq h.2 rfl rfl⟩
  · refine ⟨(leaves_taskFinish h.1 finishing finishArgs).mpr fun _ _ _ _ _ _ _ _ _ =>
      h.1.apply trivial, ?_⟩
    exact (leaves_agrees_finish h _ _).mpr (finishSpares_of_no_outcome houtcome)

/-- **Every call leaves the tables orderly.** -/
lemma leaves_orderly (h : Sound db) (tool : Tool) (args : Value) :
    Leaves Orderly (tool.program args) db := by
  have hsimple (st : Statement) (hst : ∀ db, Looked db st) : Orderly (st.apply db) :=
    h.1.apply (hst db)
  have htransition (env : Env) (status : Status) : Leaves Orderly (taskTransition env args status)
      db := (leaves_taskTransition h.1 env args status).mpr fun _ _ _ _ _ =>
    hsimple _ fun _ => trivial
  cases tool with
  | claim env => exact (preserves_taskClaim env args db h).1
  | unclaim env =>
      refine (leaves_taskUnclaim h.1 env args).mpr fun _ _ _ _ active _ _ => ?_
      have hreleased := hsimple (.release active.assignmentId (env.now 0)
        ((stringArg args "reason").getD "mcp_unclaim")) fun _ => trivial
      exact hreleased.apply trivial
  | submitWork env => exact (preserves_submitWork env args db h).1
  | finish env =>
      exact (leaves_taskFinish h.1 env args).mpr fun _ _ _ _ _ _ _ _ _ =>
        hsimple _ fun _ => trivial
  | closeout env =>
      exact (leaves_taskCloseout h.1 env args).mpr fun _ _ _ _ _ _ _ _ _ _ =>
        hsimple _ fun _ => trivial
  | defer env => exact htransition env _
  | unDefer env => exact htransition env _
  | reopen env => exact htransition env _
  | reportBlocked env =>
      refine (leaves_taskReportBlocked h.1 env args).mpr fun _ _ agent _ reason _ task _ => ?_
      have hreported := hsimple (.report (blockedReport env task agent reason)) fun _ => trivial
      split
      · exact hreported.apply trivial
      · exact hreported

/-- When a call leaves the agreement, its checks of revisions apart. -/
def Tool.Spares (tool : Tool) (args : Value) (db : Db) : Prop :=
  match tool with
  | defer _ => TransitionSpares args .deferred db
  | unDefer _ | reopen _ => TransitionSpares args .opened db
  | reportBlocked _ => ReportBlockedSpares args db
  | closeout env => CloseoutSpares env args db
  | finish env => FinishSpares env args db
  | claim _ | unclaim _ | submitWork _ => True

lemma agrees_tool (h : Sound db) (tool : Tool) (args : Value) :
    Leaves Agrees (tool.program args) db ↔ tool.Spares args db := by
  cases tool with
  | claim env => exact iff_of_true (preserves_taskClaim env args db h).2 trivial
  | unclaim env => exact iff_of_true (leaves_agrees_unclaim h env args) trivial
  | submitWork env => exact iff_of_true (preserves_submitWork env args db h).2 trivial
  | finish env => exact leaves_agrees_finish h env args
  | closeout env => exact leaves_agrees_closeout h env args
  | defer env => exact leaves_agrees_transition h env args (by simp)
  | unDefer env => exact leaves_agrees_transition h env args (by simp)
  | reopen env => exact leaves_agrees_transition h env args (by simp)
  | reportBlocked env => exact leaves_agrees_reportBlocked h env args

/-- When a call leaves the agreement. -/
def Call.Spares (c : Call) (db : Db) : Prop :=
  (c.surface = .work → RevisionsMatch c.args db) → c.tool.Spares c.args db

lemma agrees_after (h : Sound db) (c : Call) : Agrees (db.after c) ↔ c.Spares db :=
  (leaves_program h.2 c).trans (forall_congr' fun _ => agrees_tool h c.tool c.args)

lemma orderly_after (h : Sound db) (c : Call) : Orderly (db.after c) :=
  (leaves_program h.1 c).mpr fun _ => leaves_orderly h c.tool c.args

/-! ### Sequences of calls -/

/-- When a call of either kind leaves the agreement. -/
def Turn.Spares (t : Turn) (db : Db) : Prop :=
  match t with
  | .call c => c.Spares db
  | .record .. => True

/-- What is written beside the life of a task leaves the agreement. -/
lemma sound_serve (h : Sound db) (r : Record) (args : Value) : Sound (r.serve args db).2 := by
  rcases serve_cases r args db with ⟨htasks, hassignments, -⟩ | ⟨_, _, _, _, htransact⟩
  · refine ⟨h.1.of_tasks (h.1.keyed.of_tasks htasks) hassignments fun taskId hid => ?_,
      agrees_of_eq h.2 htasks hassignments⟩
    rwa [Db.task, htasks]
  · obtain ⟨new, hnew, hids, hnumbers, htasks, hassignments, -⟩ := tasks_createTransact htransact
    have hkeyed : Db.Keyed { db with tasks := db.tasks ++ new } :=
      ⟨nodup_append_new h.1.keyed.ids hids fun t ht => (hnew t ht).1,
        nodup_append_new h.1.keyed.numbers hnumbers fun t ht => (hnew t ht).2.1⟩
    refine ⟨h.1.of_tasks (hkeyed.of_tasks htasks) hassignments fun taskId hid => ?_,
      agrees_of_append h.2 htasks hassignments fun t ht =>
        ⟨(hnew t ht).2.2, h.1.openAssignments_of_unknown (hnew t ht).1⟩⟩
    obtain ⟨t, ht⟩ := Option.ne_none_iff_exists'.mp hid
    rw [Db.task, htasks, Table.row_append_of_some new ht]
    exact Option.some_ne_none t

lemma sound_record (h : Sound db) (surface : Surface) (r : Record) (args : Value) :
    Sound (db.turn (.record surface r args)) := by
  rcases turn_record db surface r args with heq | heq
  · rwa [heq]
  · rw [heq]
    exact sound_serve h r args

lemma agrees_turn (h : Sound db) (t : Turn) : Agrees (db.turn t) ↔ t.Spares db := by
  cases t with
  | call c => exact agrees_after h c
  | record surface r args => exact iff_of_true (sound_record h surface r args).2 trivial

lemma orderly_turn (h : Sound db) (t : Turn) : Orderly (db.turn t) := by
  cases t with
  | call c => exact orderly_after h c
  | record surface r args => exact (sound_record h surface r args).1

/-! ### Tasks that can be claimed -/

/-- A task is claimed, by an agent with an open assignment. -/
def Db.TakenBy (db : Db) (taskId agent : String) : Prop :=
  db.statusOf taskId = some .claimed ∧ ∃ a ∈ db.openAssignments taskId, a.agentId = agent

/-- Any agent that the guard of a claim admits can claim a task, under a new id. -/
def Db.CanBeClaimed (db : Db) (number : ℤ) : Prop :=
  ∀ task, db.taskNumbered number = some task → ∀ agent, db.Routes task.taskId agent →
    ∀ env args, requiredI64 args "task_number" = .ok number →
      requiredString args "agent_id" = .ok agent →
        (∀ a ∈ db.assignments, a.assignmentId ≠ "assignment-" ++ env.uuid 0) →
          Db.TakenBy (Server.alone (taskClaim env args) db).2 task.taskId agent

omit [Digest] in
lemma canBeClaimed_of_free (h : Orderly db) {number : ℤ}
    (hfree : ∀ task, db.taskNumbered number = some task →
      ¬ task.status.Ended ∧ db.openAssignments task.taskId = []) : db.CanBeClaimed number := by
  intro task htask agent hroutes env args hnumber hagent hnew
  obtain ⟨hended, hnone⟩ := hfree task htask
  have hknown := Db.task_of_mem h.keyed (Db.mem_of_taskNumbered htask)
  have haccepts : db.Accepts ("assignment-" ++ env.uuid 0) task.taskId :=
    ⟨hnew, by rw [hknown]; exact Option.some_ne_none task⟩
  have halone : (Server.alone (taskClaim env args) db).2 =
      (Statement.claim ("assignment-" ++ env.uuid 0) task.taskId agent (env.now 0)).apply db := by
    rw [taskClaim, alone_ending_bind_ok hnumber, alone_ending_bind_ok hagent,
      alone_findTask_bind_some htask, if_neg hended, alone_bind, alone_claimGuard hroutes]
    show (Server.alone (claimUnassigned env task agent) db).2 = _
    rw [claimUnassigned, alone_query_bind, activeAssignment_eq_none_iff.mpr hnone]
    exact (leaves_execute_bind (R := fun db' => db' = _) fun _ => leaves_ending_pure _ _).mpr rfl
  rw [halone]
  refine ⟨statusOf_of_update hknown (tasks_claim haccepts) (fun _ => rfl) rfl,
    Db.newAssignment ("assignment-" ++ env.uuid 0) task.taskId agent (env.now 0), ?_, rfl⟩
  rw [openAssignments_claim haccepts, if_pos rfl]
  exact List.mem_append_right _ List.mem_cons_self

/-! ### Tasks that are opened again -/

/-- A call has opened a task again, or taken back its claim. -/
def Call.Frees (c : Call) (db : Db) (number : ℤ) : Prop :=
  requiredI64 c.args "task_number" = .ok number ∧ ∃ v, db.answer c = .ok v ∧
    match c.tool with
    | .unDefer _ | .reopen _ => stringArg v "status" = some "success"
    | .unclaim _ => stringArg v "status" = some "unclaimed"
    | _ => False

omit [Digest] in
/-- A transition that succeeds gives its task the status. -/
lemma status_of_success {env : Env} {args v : Value} {status : Status}
    {number : ℤ} {behind : Db} (hnumber : requiredI64 args "task_number" = .ok number)
    (halone : Server.alone (taskTransition env args status) db = (.ok v, behind))
    (hv : stringArg v "status" = some "success") :
    ∀ task, behind.taskNumbered number = some task → task.status = status := by
  rw [taskTransition, alone_ending_bind_ok hnumber] at halone
  cases hfound : db.taskNumbered number with
  | none =>
      rw [alone_findTask_bind_none hfound] at halone
      cases (Prod.mk.inj halone).1
  | some found =>
      rw [alone_findTask_bind_some hfound] at halone
      by_cases hedge : Status.Edge found.status status
      · rw [if_neg (not_not.mpr hedge)] at halone
        obtain rfl := behind_of_write halone fun v => by
          by_cases hnone : v = .ofNat 0
          · rw [if_pos hnone]
            rfl
          · rw [if_neg hnone]
            exact alone_ending_pure_snd _ _
        intro task htask
        rw [Db.taskNumbered] at htask
        obtain ⟨old, -, rfl⟩ := Table.mem_updateWhere.mp (Table.mem_of_row htask)
        have hnumbered := Table.key_of_row htask
        by_cases hold : old.number = number
        · rw [if_pos hold]
          rfl
        · rw [if_neg hold] at hnumbered
          exact absurd hnumbered hold
      · rw [if_pos hedge] at halone
        obtain ⟨hanswer, -⟩ := Prod.mk.inj halone
        obtain rfl := Except.ok.inj hanswer
        have hstatus : some "invalid_transition" = some "success" := hv
        exact absurd hstatus (by decide)

omit [Digest] in
/-- An unclaim that succeeds leaves its task free. -/
lemma free_of_unclaimed (h : Sound db) {env : Env} {args v : Value} {number : ℤ} {behind : Db}
    (hnumber : requiredI64 args "task_number" = .ok number)
    (halone : Server.alone (taskUnclaim env args) db = (.ok v, behind))
    (hv : stringArg v "status" = some "unclaimed") :
    ∀ task, behind.taskNumbered number = some task →
      ¬ task.status.Ended ∧ behind.openAssignments task.taskId = [] := by
  rw [taskUnclaim, alone_ending_bind_ok hnumber] at halone
  cases hfound : db.taskNumbered number with
  | none =>
      rw [alone_findTask_bind_none hfound] at halone
      cases (Prod.mk.inj halone).1
  | some found =>
  rw [alone_findTask_bind_some hfound, alone_query_bind] at halone
  cases hactive : db.activeAssignment found.taskId with
  | none =>
      rw [hactive] at halone
      obtain rfl := Except.ok.inj (Prod.mk.inj halone).1
      have hstatus : some "not_claimed" = some "unclaimed" := hv
      exact absurd hstatus (by decide)
  | some active =>
  rw [hactive] at halone
  replace halone : Server.alone (if ∃ agent ∈ stringArg args "agent_id", agent ≠ active.agentId
    then _ else releaseActive env args found active) db = (.ok v, behind) := halone
  by_cases hother : ∃ agent ∈ stringArg args "agent_id", agent ≠ active.agentId
  · rw [if_pos hother] at halone
    obtain rfl := Except.ok.inj (Prod.mk.inj halone).1
    have hstatus : some "claimed_by_other" = some "unclaimed" := hv
    exact absurd hstatus (by decide)
  · rw [if_neg hother, releaseActive, alone_bind, alone_execute] at halone
    have hopen := activeAssignment_mem hactive
    obtain rfl := @behind_of_write _ _ (db.release active.assignmentId (env.now 0)
      ((stringArg args "reason").getD "mcp_unclaim")) _ _ _ _ halone
      fun _ => alone_ending_pure_snd _ _
    intro task htask
    obtain ⟨old, hold, heq⟩ := Table.mem_updateWhere.mp (Table.mem_of_row htask)
    have hnumbered := Table.key_of_row htask
    have hfits := h.2 found (Db.mem_of_taskNumbered hfound)
    obtain rfl : old = found := by
      refine (h.1.eq_of_number hold (Db.mem_of_taskNumbered hfound)).mp ?_
      rw [Db.number_of_taskNumbered hfound, ← hnumbered, ← heq]
      split <;> rfl
    have hended : ¬ old.status.Ended := by
      rintro (hstatus | hstatus) <;>
        exact List.ne_nil_of_mem hopen (hfits.2 (by rw [hstatus]; simp))
    have hid : task.taskId = old.taskId := by
      rw [← heq]
      split <;> rfl
    refine ⟨?_, ?_⟩
    · rw [← heq]
      split
      · simp [Db.setStatus, Status.Ended]
      · exact hended
    · exact (h.1.openAssignments_release hopen _ _ _).trans (if_pos hid)

/-- A task that was opened again, or of which a claim was taken back, can be claimed. -/
lemma canBeClaimed_of_frees (h : Sound db) {c : Call} {number : ℤ} (hfrees : c.Frees db number)
    (hagrees : Agrees (db.after c)) : (db.after c).CanBeClaimed number := by
  obtain ⟨hnumber, v, hanswer, hv⟩ := hfrees
  have halone : Server.alone c.program db = (.ok v, db.after c) := Prod.ext hanswer rfl
  by_cases hmatch : c.surface = .work → RevisionsMatch c.args db
  · rw [alone_program_of_match hmatch] at halone
    have hopened (hstatus : ∀ task, (db.after c).taskNumbered number = some task →
        task.status = .opened) : (db.after c).CanBeClaimed number := by
      refine canBeClaimed_of_free (orderly_after h c) fun task htask => ?_
      have hfits := hagrees task (Db.mem_of_taskNumbered htask)
      rw [hstatus task htask] at hfits ⊢
      exact ⟨by simp [Status.Ended], hfits.2 (by simp)⟩
    cases htool : c.tool with
    | unDefer env =>
        rw [htool] at halone hv
        exact hopened (status_of_success hnumber halone hv)
    | reopen env =>
        rw [htool] at halone hv
        exact hopened (status_of_success hnumber halone hv)
    | unclaim env =>
        rw [htool] at halone hv
        exact canBeClaimed_of_free (orderly_after h c) (free_of_unclaimed h hnumber halone hv)
    | _ =>
        rw [htool] at hv
        exact hv.elim
  · obtain ⟨e, he⟩ := alone_program_of_not_match hmatch
    rw [he] at halone
    cases (Prod.mk.inj halone).1

/-- What is asked of a call: behind it every status agrees with the assignments, and a task that it
has opened again can be claimed. -/
def Turn.Agreed (t : Turn) (db : Db) : Prop :=
  Agrees (db.turn t) ∧
    ∀ c, t = .call c → ∀ number, c.Frees db number → (db.turn t).CanBeClaimed number

lemma agreed_iff (h : Sound db) (t : Turn) : t.Agreed db ↔ t.Spares db := by
  rw [← agrees_turn h]
  refine ⟨And.left, fun hagrees => ⟨hagrees, fun c hc number hfrees => ?_⟩⟩
  subst hc
  exact canBeClaimed_of_frees h hfrees hagrees

lemma agreed_iff_of_sound (h : Sound db) (turns : List Turn) :
    Each Db.turn (fun db t => t.Agreed db) db turns ↔
      Each Db.turn (fun db t => t.Spares db) db turns := by
  induction turns generalizing db with
  | nil => rfl
  | cons t rest ih =>
      constructor
      · rintro ⟨hagreed, hrest⟩
        exact ⟨(agreed_iff h t).mp hagreed, (ih ⟨orderly_turn h t, hagreed.1⟩).mp hrest⟩
      · rintro ⟨hspares, hrest⟩
        have hagreed := (agreed_iff h t).mpr hspares
        exact ⟨hagreed, (ih ⟨orderly_turn h t, hagreed.1⟩).mpr hrest⟩

omit [FloatText] [Digest] in
lemma sound_empty : Sound {} :=
  ⟨⟨⟨by simp, by simp⟩, by simp, fun _ => Nat.zero_le 1, by simp⟩, by simp [Agrees]⟩

/-- **The statuses agree with the assignments** behind every call of a sequence, and a task that was
opened again can be claimed, exactly when each call that defers, opens or closes a task finds no
assignment open on it. -/
theorem agrees_iff (turns : List Turn) :
    Each Db.turn (fun db t => t.Agreed db) {} turns ↔
      Each Db.turn (fun db t => t.Spares db) {} turns :=
  agreed_iff_of_sound sound_empty turns

/-- A sequence of calls behind which a deferred task has an open assignment. -/
lemma not_agreed {before : List Turn} {t : Turn}
    (h : ∃ task ∈ (run Db.turn {} (before ++ [t])).tasks, task.status = .deferred ∧
      (run Db.turn {} (before ++ [t])).openAssignments task.taskId ≠ []) :
    ¬ ∀ turns, Each Db.turn (fun db t => t.Agreed db) {} turns := by
  intro hagreed
  obtain ⟨task, htask, hstatus, hopen⟩ := h
  have hlast := (Each.append (hagreed (before ++ [t]))).2.1.1
  have hrun : run Db.turn {} (before ++ [t]) = (run Db.turn {} before).turn t := Calls.run_append [t]
  rw [hrun] at htask hopen
  have hfits := hlast task htask
  rw [hstatus] at hfits
  exact hopen (hfits.2 (by simp))

end Calls

/-! ### A deferred task with an open assignment -/

/-- The first task is deferred. -/
def deferral : Turn := .call (deferCall (.defer (orderlyEnv "2")))

/-- The first task is opened again. -/
def undoneDeferral : Turn := .call (deferCall (.unDefer (orderlyEnv "3")))

/-- **A claimed task is deferred with its assignment open**; when it is opened again, another agent
is told that it is claimed. -/
theorem deferred_while_assigned :
    letI := FloatText.fields
    letI : Digest := ⟨id⟩
    (run Db.turn {} (startedWork ++ [deferral])).statusOf "task-1" = some .deferred ∧
      ((run Db.turn {} (startedWork ++ [deferral])).openAssignments "task-1").map
        Assignment.agentId = ["alice"] ∧
      (run Db.turn {} (startedWork ++ [deferral, undoneDeferral])).statusOf "task-1" =
        some .opened ∧
      (run Db.turn {} (startedWork ++ [deferral, undoneDeferral])).answer (claimBy "bob" "4") =
        .error "task_already_claimed" ∧
      ¬ ∀ turns, Each Db.turn (fun db t => t.Agreed db) {} turns := by
  let _ : FloatText := FloatText.fields
  let _ : Digest := ⟨id⟩
  have hdeferred : ∃ task ∈ (run Db.turn {} (startedWork ++ [deferral])).tasks,
      task.status = .deferred ∧
        (run Db.turn {} (startedWork ++ [deferral])).openAssignments task.taskId ≠ [] := by
    decide +kernel
  refine ⟨by decide +kernel, by decide +kernel, by decide +kernel, by decide +kernel, ?_⟩
  exact not_agreed hdeferred

end TaskLifecycle

end McpSurfaces
