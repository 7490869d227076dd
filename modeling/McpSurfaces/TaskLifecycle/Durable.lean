import McpSurfaces.TaskLifecycle.Agreement
import McpSurfaces.TaskLifecycle.Closings
import McpSurfaces.TaskLifecycle.Replay

/-!
What the servers never take back, in whatever order their statements and the writes beside the life
of a task come.

* `Db.Durable`: tasks keep their ids and numbers, assignments what was claimed, a release stays, and
  so does the result of an operation.
* `Db.Durable.apply`, `Edit.durable`, `Edit.keyed`: what one statement and one write keep.
* **`durable_run`**: what every run keeps.
-/

namespace McpSurfaces

namespace TaskLifecycle

open EventLedger (Digest)
open Calls (run)
open Table (updateWhere)

/-- What names a task. -/
def TaskRow.names (t : TaskRow) : String × ℤ := (t.taskId, t.number)

/-- What was claimed with an assignment. -/
def Assignment.claimed (a : Assignment) : String × String × String × String :=
  (a.assignmentId, a.taskId, a.agentId, a.claimedAt)

/-- Nothing is taken back between two states. -/
structure Db.Durable (db db' : Db) : Prop where
  tasks : db.tasks.map TaskRow.names <+: db'.tasks.map TaskRow.names
  assignments : db.assignments.map Assignment.claimed <+: db'.assignments.map Assignment.claimed
  released : db.assignments.filter (·.releasedAt.isSome) ⊆ db'.assignments
  operations : db.operations <+: db'.operations

namespace Db

variable {db db' db'' : Db}

lemma Durable.refl (db : Db) : db.Durable db :=
  ⟨List.prefix_rfl, List.prefix_rfl, List.filter_sublist.subset, List.prefix_rfl⟩

lemma Durable.trans (h : db.Durable db') (h' : db'.Durable db'') : db.Durable db'' where
  tasks := h.tasks.trans h'.tasks
  assignments := h.assignments.trans h'.assignments
  released a ha := by
    have hreleased := (List.mem_filter.mp ha).2
    exact h'.released (List.mem_filter.mpr ⟨h.released ha, hreleased⟩)
  operations := h.operations.trans h'.operations

/-- A write that adds tasks and operations and leaves the assignments. -/
lemma durable_of_append (new : List TaskRow) (more : List Operation)
    (htasks : db'.tasks.map TaskRow.names = (db.tasks ++ new).map TaskRow.names)
    (hassignments : db'.assignments = db.assignments)
    (hoperations : db'.operations = db.operations ++ more) : db.Durable db' where
  tasks := by
    rw [htasks, List.map_append]
    exact List.prefix_append _ _
  assignments := hassignments ▸ List.prefix_rfl
  released := hassignments ▸ List.filter_sublist.subset
  operations := hoperations ▸ List.prefix_append _ _

/-- An update of tasks that leaves what names them. -/
lemma durable_of_update {p : TaskRow → Prop} [DecidablePred p] {set : TaskRow → TaskRow}
    (htasks : db'.tasks = updateWhere p set db.tasks) (hassignments : db'.assignments = db.assignments)
    (hoperations : db'.operations = db.operations) (hset : ∀ t, (set t).names = t.names) :
    db.Durable db' := by
  refine durable_of_append [] [] ?_ hassignments (by simpa using hoperations)
  rw [List.append_nil, htasks, Table.keys_updateWhere fun t _ => hset t]

/-- A write to other tables. -/
lemma durable_of_same (htasks : db'.tasks = db.tasks) (hassignments : db'.assignments = db.assignments)
    (hoperations : db'.operations = db.operations) : db.Durable db' :=
  durable_of_append [] [] (by rw [htasks, List.append_nil]) hassignments
    (by rw [hoperations, List.append_nil])

section Statements

variable [FloatText]

lemma durable_transact {s : Submission} {answer : Value} (h : s.transact db = .ok (db', answer)) :
    db.Durable db' := by
  obtain ⟨new, outcome, -, -, -, -, htasks⟩ := tasks_transact h
  obtain ⟨-, o, -, -, hoperations⟩ := operations_transact h
  refine durable_of_append new [o] ?_ (assignments_transact h) hoperations
  rw [htasks, Table.keys_updateWhere]
  intro t _
  rw [TaskRow.names, TaskRow.names, taskId_finished s outcome, Submission.finished]
  split <;> rfl

/-- **No statement takes anything back.** -/
lemma Durable.apply (st : Statement) (db : Db) : db.Durable (st.apply db) := by
  cases st with
  | claim assignmentId taskId agentId timestamp =>
      by_cases haccepts : db.Accepts assignmentId taskId
      · have htasks := @tasks_claim _ db taskId assignmentId agentId timestamp haccepts
        have hassignments := @assignments_claim _ db taskId assignmentId agentId timestamp haccepts
        refine ⟨?_, ?_, fun a ha => ?_, ?_⟩
        · rw [htasks, Table.keys_updateWhere fun t _ => ?_]
          rfl
        · rw [hassignments, List.map_append]
          exact List.prefix_append _ _
        · rw [hassignments]
          exact List.mem_append_left _ (List.mem_filter.mp ha).1
        · simp only [Statement.apply, Statement.exec, claim_of_accepts agentId timestamp haccepts,
            Except.map]
          exact List.prefix_rfl
      · rw [apply_claim_of_not_accepts haccepts]
        exact .refl db
  | release assignmentId timestamp reason =>
      refine ⟨List.prefix_rfl, ?_, fun a ha => ?_, List.prefix_rfl⟩
      · have hkeys : (db.release assignmentId timestamp reason).assignments.map Assignment.claimed =
            db.assignments.map Assignment.claimed := Table.keys_updateWhere fun _ _ => rfl
        exact hkeys ▸ List.prefix_rfl
      · obtain ⟨hmem, hreleased⟩ := List.mem_filter.mp ha
        refine Table.mem_updateWhere.mpr ⟨a, hmem, if_neg ?_⟩
        rintro ⟨-, hopen⟩
        rw [hopen] at hreleased
        cases hreleased
  | finish s =>
      cases htransact : s.transact db with
      | error e => simpa only [Statement.apply, Statement.exec, htransact] using .refl db
      | ok behind =>
          simpa only [Statement.apply, Statement.exec, htransact] using
            durable_transact htransact
  | reopenClaimed => exact durable_of_update rfl rfl rfl fun _ => rfl
  | transition => exact durable_of_update rfl rfl rfl fun _ => rfl
  | defer => exact durable_of_update rfl rfl rfl fun _ => rfl
  | closeout => exact durable_of_update rfl rfl rfl fun _ => rfl
  | query => exact .refl db
  | report => exact durable_of_same rfl rfl rfl
  | proof => exact durable_of_same rfl rfl rfl
  | admission => exact durable_of_same rfl rfl rfl

end Statements

end Db

section Machine

variable [FloatText] [Digest]

/-- **No write beside the life of a task takes anything back.** -/
lemma Edit.durable (edit : Edit) (db : Db) : db.Durable (edit.apply db) := by
  cases edit with
  | create env payload title =>
      simp only [Edit.apply]
      split
      · next behind answer htransact =>
          obtain ⟨new, -, -, -, htasks, hassignments, o, hoperations⟩ :=
            tasks_createTransact htransact
          exact Db.durable_of_append new [o] (by rw [htasks]) hassignments hoperations
      · exact .refl db
  | declare d =>
      simp only [Edit.apply, Db.declare]
      split <;> exact Db.durable_of_same rfl rfl rfl
  | setRouting => exact Db.durable_of_same rfl rfl rfl
  | rosterAdmit => exact Db.durable_of_same rfl rfl rfl
  | dispose => exact Db.durable_of_same rfl rfl rfl

lemma Edit.keyed {db : Db} (h : db.Keyed) (edit : Edit) : (edit.apply db).Keyed := by
  cases edit with
  | create env payload title =>
      simp only [Edit.apply]
      split
      · next behind answer htransact =>
          obtain ⟨new, hnew, hids, hnumbers, htasks, -⟩ := tasks_createTransact htransact
          have hkeyed : Db.Keyed { db with tasks := db.tasks ++ new } :=
            ⟨nodup_append_new h.ids hids fun t ht => (hnew t ht).1,
              nodup_append_new h.numbers hnumbers fun t ht => (hnew t ht).2.1⟩
          exact hkeyed.of_tasks htasks
      · exact h
  | declare d =>
      refine h.of_tasks ?_
      simp only [Edit.apply, Db.declare]
      split <;> rfl
  | setRouting => exact h.of_tasks rfl
  | rosterAdmit => exact h.of_tasks rfl
  | dispose => exact h.of_tasks rfl

lemma Servers.durable_act (c : Servers) (a : Servers.Act) :
    (c.state.Keyed → (c.act a).state.Keyed) ∧ c.state.Durable (c.act a).state := by
  cases a with
  | edit change => exact ⟨fun h => change.keyed h, change.durable c.state⟩
  | event e =>
      have hstate : (c.act (.event e)).state =
          ((c.operation e).map (·.apply c.state)).getD c.state := Config.state_after c e
      rw [hstate]
      cases c.operation e with
      | none => exact ⟨id, .refl _⟩
      | some st => exact ⟨fun h => h.apply st, .apply st _⟩

/-- **Whatever the servers do and in whatever order**, tasks have ids and numbers of their own, and
what tasks are named, what was claimed, what was released and what an operation answered stays. -/
theorem durable_run (acts more : List Servers.Act) :
    let c := run Servers.act (Servers.idle {}) acts
    c.state.Keyed ∧ c.state.Durable (run Servers.act c more).state := by
  intro c
  have hstart : (Servers.idle {}).state.Keyed := ⟨List.nodup_nil, List.nodup_nil⟩
  have hkeyed : c.state.Keyed :=
    @Calls.invariant_all _ _ Servers.act (fun c : Servers => c.state.Keyed) _
      (fun c a h => (c.durable_act a).1 h) hstart acts
  exact ⟨hkeyed, @Calls.trans_run _ _ Servers.act (fun c d : Servers => c.state.Durable d.state)
    (fun c => .refl c.state) (fun h h' => h.trans h') (fun c a => (c.durable_act a).2) c more⟩

end Machine

end TaskLifecycle

end McpSurfaces
