import McpSurfaces.TaskLifecycle.Alone

/-!
The calls that write what stands beside the life of a task, and what a sequence of calls of both
kinds leaves.

* `taskCreate`, `taskSetRouting`, `rosterAdmit`, `taskDependencyDeclare`,
  `taskDependencyDisposition`: what such a call answers, and the database behind it.
* `Turn`, `Db.turn`: the next call of a sequence of calls, each of which has come to its end. The
  other calls write tables of their own: notes, tags, chapters, definitions that recur. What a
  recurring definition does to tasks is that it creates them.
-/

namespace McpSurfaces

namespace TaskLifecycle

open EventLedger (Digest)
open Table (row updateWhere firstBy)

/-! ### Creation -/

section Create

/-- What a creation gets from outside. -/
structure CreateEnv where
  /-- The fields of the payload that the reference names. -/
  payload : Except String Map
  taskUuid : String
  now : ℕ → String
  /-- `task_file_path`. -/
  filePath : String → String
  /-- `normalize_execution_binding` and the check of its scope, with the two tables that keep the
  binding: the binding, or why one of them refuses it. -/
  binding : Option Value → String → Except String Value
  /-- `write_task_file`. -/
  file : Except String Unit

/-- The fields of a definition, which are refused among the arguments themselves. -/
def inlineFields : List String :=
  ["title", "goal", "context", "required_work", "non_goals", "acceptance_criteria", "tags",
    "preferred_role", "target_role", "idempotency_key", "execution_binding"]

/-- `enforce_task_create_payload_contract`. -/
def enforcePayloadContract (args : Value) : Except String Unit :=
  let fields := inlineFields.filter fun field => (args.get field).isSome
  if fields ≠ [] then
    .error ("task_lifecycle_create_inline_definition_refused: task definition fields must be " ++
      "supplied by immutable payload_ref, not inline tool arguments; fields=" ++
      ",".intercalate fields)
  else if (args.get "payload_path").isSome then
    .error ("task_lifecycle_create_payload_path_refused: task_lifecycle_create requires " ++
      "immutable payload_ref, not payload_path")
  else if (stringArg args "payload_ref").isNone then
    .error "task_lifecycle_create_requires_payload_ref"
  else .ok ()

/-- The arguments that say where a payload is. -/
def payloadKeys : List String := ["payload_ref", "payload_path", "payload", "payload_file"]

/-- `resolve_payload_args`: the payload, with the other arguments laid over it. -/
def resolvePayloadArgs (env : CreateEnv) (args : Value) : Except String Value :=
  env.payload.map fun payload =>
    .object (((args.asObject.getD []).filter fun e => e.1 ∉ payloadKeys).foldl
      (fun merged e => OrderedMap.insert merged e.1 e.2) payload)

/-- `normalized_text`. -/
def normalizedText (args : Value) (key : String) : String :=
  match args.get key with
  | some (.array texts) =>
      "\n".intercalate (((texts.filterMap Value.asStr).map Str.trim).filter (· ≠ ""))
  | some (.string text) => text
  | _ => ""

variable [FloatText] [Digest]

/-- The key under which a creation is stored. -/
def createKey (payload : Value) : String :=
  (stringArg payload "idempotency_key").getD
    ("native-create:" ++ Digest.sha256 payload.canonicalText)

/-- The contract for results that a payload has. -/
def resultContractOf (payload : Value) (taskId : String) : Except String (Option ResultContract) :=
  match payload.get "result_contract" with
  | none => .ok none
  | some contract => do
      match contract.get "schema" with
      | none => throw "task_result_contract_schema_required"
      | some schema => do
          if schema.asObject.isNone then throw "task_result_contract_schema_object_required"
          match (stringArg contract "schema_id").filter fun id => Str.trim id ≠ "" with
          | none => throw "task_result_contract_schema_id_required"
          | some schemaId => do
              let schemaDigest := Digest.sha256 schema.canonicalText
              if ∃ named ∈ stringArg contract "schema_digest", named ≠ schemaDigest then
                throw "task_result_contract_digest_mismatch"
              return some { taskId, schemaId, schemaDigest, schema }

omit [FloatText] [Digest] in
/-- The preferences for roles and agents that a payload has. -/
def routingOf (payload : Value) (taskId : String) : Option Routing :=
  if (payload.get "preferred_role").isSome ∨ (payload.get "target_role").isSome ∨
      (payload.get "preferred_agent_id").isSome then
    some { taskId, preferredRole := stringArg payload "preferred_role"
           targetRole := stringArg payload "target_role"
           preferredAgentId := stringArg payload "preferred_agent_id" }
  else none

namespace CreateEnv

def taskId (env : CreateEnv) : String := "task-" ++ env.taskUuid

/-- The task that a creation makes. -/
def task (env : CreateEnv) (payload : Value) (number : ℤ) : TaskRow where
  taskId := env.taskId
  number
  status := .opened
  governedBy := (stringArg payload "preferred_role").or (stringArg payload "target_role")
  closedAt := none
  closedBy := none
  closureMode := none
  reopenedAt := none
  reopenedBy := none
  revision := 1
  updatedAt := env.now 0

/-- The definition that a creation makes. -/
def spec (env : CreateEnv) (payload : Value) (title : String) (number : ℤ) : Spec where
  taskId := env.taskId
  number
  title
  goal := (stringArg payload "goal").getD title
  context := stringArg payload "context"
  requiredWork := normalizedText payload "required_work"
  nonGoals := normalizedText payload "non_goals"
  acceptanceCriteria := (payload.get "acceptance_criteria").getD (.array [])
  tags := (payload.get "tags").getD (.array [])

/-- The answer to a creation. -/
def created (env : CreateEnv) (payload : Value) (title : String) (number : ℤ) (binding : Value) :
    Value :=
  .object [("schema", .string "narada.task.create.v0"), ("status", .string "created"),
    ("task_number", .ofInt number), ("task_id", .string env.taskId),
    ("file_path", .string (env.filePath env.taskId)), ("title", .string title),
    ("tags", (payload.get "tags").getD (.array [])),
    ("idempotency_key", .string (createKey payload)), ("execution_binding", binding),
    ("recovered", .bool false), ("target_role", (payload.get "target_role").getD .null),
    ("preferred_role", (payload.get "preferred_role").getD .null),
    ("follow_up", .object [("status", .string "enqueued")])]

end CreateEnv

/-- The answer to a creation under a title that a task has. -/
def alreadyExists (payload : Value) (title : String) (spec : Spec) : Value :=
  .object [("schema", .string "narada.task.create.v0"), ("status", .string "already_exists"),
    ("task_id", .string spec.taskId), ("task_number", .ofInt spec.number),
    ("title", .string title), ("idempotency_key", .string (createKey payload)),
    ("recovered", .bool false)]

/-- The operation under which a creation is stored. -/
def createOperation (payload result : Value) : Operation where
  operationKey := createKey payload
  operationKind := "task_create"
  requestDigest := Digest.sha256 payload.canonicalText
  result

omit [FloatText] [Digest] in
/-- The definition under a title. -/
def Db.specTitled (db : Db) (title : String) : Option Spec :=
  db.specs.find? fun s => s.title = title ∧ (db.task s.taskId).isSome

/-- The task of a creation, under a title that no task has. -/
def createNew (env : CreateEnv) (payload : Value) (title : String) (db : Db) :
    Except String (Db × Value) := do
  let number := db.lastAllocated + 1
  if (db.task env.taskId).isSome then
    throw (sqliteError "UNIQUE constraint failed: task_lifecycle.task_id")
  if (db.taskNumbered number).isSome then
    throw (sqliteError "UNIQUE constraint failed: task_lifecycle.task_number")
  if ∃ spec ∈ db.specs, spec.taskId = env.taskId ∨ spec.number = number then
    throw (sqliteError "UNIQUE constraint failed: task_specs")
  let contract ← resultContractOf payload env.taskId
  let binding ← env.binding (payload.get "execution_binding") (createKey payload)
  let answer := env.created payload title number binding
  return ({ db with
    lastAllocated := number
    tasks := db.tasks ++ [env.task payload number]
    specs := db.specs ++ [env.spec payload title number]
    resultContracts := db.resultContracts ++ contract.toList
    routing := db.routing ++ (routingOf payload env.taskId).toList
    operations := db.operations ++ [createOperation payload answer] }, answer)

/-- The transaction of `task_create`. -/
def createTransact (env : CreateEnv) (payload : Value) (title : String) (db : Db) :
    Except String (Db × Value) :=
  match db.specTitled title with
  | some spec =>
      let answer := alreadyExists payload title spec
      .ok ({ db with operations := db.operations ++ [createOperation payload answer] }, answer)
  | none => createNew env payload title db

/-- A creation of which no result is stored: its transaction, and the file of the new task. -/
def createUnstored (env : CreateEnv) (payload : Value) (title : String) (db : Db) :
    Except String Value × Db :=
  match createTransact env payload title db with
  | .error e => (.error e, db)
  | .ok (behind, answer) =>
      ((if (db.specTitled title).isNone then env.file else .ok ()).map fun _ => answer, behind)

/-- `task_create`. -/
def taskCreate (env : CreateEnv) (args : Value) (db : Db) : Except String Value × Db :=
  match enforcePayloadContract args >>= fun _ => resolvePayloadArgs env args with
  | .error e => (.error e, db)
  | .ok payload =>
      match stringArg payload "title" with
      | none => (.error "task_lifecycle_create_title_required", db)
      | some title =>
          match db.operation (createKey payload) with
          | some stored =>
              if stored.requestDigest ≠ Digest.sha256 payload.canonicalText then
                (.error "task_operation_idempotency_conflict", db)
              else (.ok stored.result, db)
          | none => createUnstored env payload title db

end Create

/-! ### Routing and roster -/

section Records

/-- An insertion that replaces the row of its key. -/
def upsert {ρ κ : Type} [DecidableEq κ] (key : ρ → κ) (rows : List ρ) (new : ρ) : List ρ :=
  if (row key rows (key new)).isSome then updateWhere (fun r => key r = key new) (fun _ => new) rows
  else rows ++ [new]

def Routing.json (r : Routing) (updatedAt : Value) : Value :=
  .object [("preferred_role", optionText r.preferredRole), ("target_role", optionText r.targetRole),
    ("preferred_agent_id", optionText r.preferredAgentId), ("updated_at", updatedAt)]

/-- The routing that the arguments of a call give a task. -/
def routingArgs (args : Value) (taskId : String) : Routing where
  taskId := taskId
  preferredRole := stringArg args "preferred_role"
  targetRole := stringArg args "target_role"
  preferredAgentId := stringArg args "preferred_agent_id"

/-- `task_set_routing`. The readings of the clock of what the routing was before are not kept. -/
def taskSetRouting (now : String) (args : Value) (db : Db) : Except String Value × Db :=
  match requiredI64 args "task_number" with
  | .error e => (.error e, db)
  | .ok number =>
      match db.taskNumbered number with
      | none => (.error ("task_not_found: " ++ toString number), db)
      | some task =>
          let routing := routingArgs args task.taskId
          (.ok (.object [("status", .string "updated"), ("task_number", .ofInt number),
            ("actor_agent_id", .string (((stringArg args "actor_agent_id").or
              (stringArg args "agent_id")).getD "native")),
            ("routing", routing.json (.string now)),
            ("reason", .string ((stringArg args "reason").getD "routing_updated"))]),
            { db with routing := upsert Routing.taskId db.routing routing })

/-- `roster_admit`. An agent that is on the roster keeps its status there. -/
def rosterAdmit (args : Value) (db : Db) : Except String Value × Db :=
  match requiredString args "agent_id" with
  | .error e => (.error e, db)
  | .ok agent =>
      let role := (stringArg args "role").getD "engineer"
      let status := ((row RosterEntry.agentId db.roster agent).map RosterEntry.status).getD "idle"
      (.ok (.object [("status", .string "admitted"), ("agent_id", .string agent),
        ("role", .string role),
        ("capabilities", (args.get "capabilities").getD (.array [])),
        ("requested_by", .string (((stringArg args "requested_by").or
          (stringArg args "actor_agent_id")).getD "native")),
        ("reason", .string ((stringArg args "reason").getD "roster_admitted"))]),
        { db with
          roster := upsert RosterEntry.agentId db.roster { agentId := agent, role, status } })

/-! ### Dependencies -/

/-- What the calls on dependencies get from outside. -/
structure DependencyEnv where
  uuid : String
  now : String

/-- The dependency that `task_dependency_declare` inserts. -/
def declared (env : DependencyEnv) (args : Value) (parent required kind : String) :
    Dependency where
  dependencyId := (stringArg args "dependency_id").getD ("dependency-" ++ env.uuid)
  parentTaskId := parent
  requiredTaskId := required
  kind := kind
  satisfyingOutcomes := (args.get "satisfying_outcomes").getD (.array [])
  createdAt := env.now

/-- `insert or ignore into task_dependencies`. -/
def Db.declare (db : Db) (d : Dependency) : Db :=
  if ∃ old ∈ db.dependencies, old.dependencyId = d.dependencyId then db
  else { db with dependencies := db.dependencies ++ [d] }

/-- The arguments of `task_dependency_declare`. -/
def declareArgs (args : Value) : Except String (ℤ × ℤ × String) := do
  let parent ← requiredI64 args "parent_task_number"
  let required ← requiredI64 args "required_task_number"
  let _ ← requiredString args "agent_id"
  return (parent, required, ← requiredString args "kind")

/-- `task_dependency_declare`. -/
def taskDependencyDeclare (env : DependencyEnv) (args : Value) (db : Db) :
    Except String Value × Db :=
  match declareArgs args with
  | .error e => (.error e, db)
  | .ok (parentNumber, requiredNumber, kind) =>
      match db.taskNumbered parentNumber, db.taskNumbered requiredNumber with
      | none, _ => (.error ("task_not_found: " ++ toString parentNumber), db)
      | some _, none => (.error ("task_not_found: " ++ toString requiredNumber), db)
      | some parent, some required =>
          let dependency := declared env args parent.taskId required.taskId kind
          (.ok (.object [("status", .string "created"),
            ("dependency_id", .string dependency.dependencyId),
            ("parent_task_number", .ofInt parentNumber),
            ("required_task_number", .ofInt requiredNumber)]), db.declare dependency)

/-- The outcome of a task that was admitted last, the newest of those admitted at one time. -/
def Db.newestOutcome (db : Db) (taskId : String) : Option OutcomeRow :=
  firstBy (fun o => o.taskId = taskId) (descending OutcomeRow.admittedAt) db.outcomes.reverse

/-- The arguments of `task_dependency_disposition`. -/
def dispositionArgs (args : Value) : Except String (String × String × String × String) := do
  let dependencyId ← requiredString args "dependency_id"
  let agent ← requiredString args "agent_id"
  let kind ← requiredString args "kind"
  return (dependencyId, agent, kind, ← requiredString args "summary")

/-- The disposition of an outcome. -/
def disposed (env : DependencyEnv) (args : Value)
    (dependencyId outcomeId agent kind summary : String) : Disposition where
  dispositionId := "disposition-" ++ env.uuid
  dependencyId := dependencyId
  requiredOutcomeId := outcomeId
  kind := kind
  status := (stringArg args "status").getD "recorded"
  targetTaskId := stringArg args "target_task_id"
  routedObligationId := stringArg args "routed_obligation_id"
  summary := summary
  createdBy := agent
  createdAt := env.now

/-- `task_dependency_disposition`. The status that it notes with the dependency is read by no
call. -/
def taskDependencyDisposition (env : DependencyEnv) (args : Value) (db : Db) :
    Except String Value × Db :=
  match dispositionArgs args with
  | .error e => (.error e, db)
  | .ok (dependencyId, agent, kind, summary) =>
      match row Dependency.dependencyId db.dependencies dependencyId with
      | none => (.error ("dependency_not_found:" ++ dependencyId), db)
      | some dependency =>
          match (stringArg args "required_outcome_id").or
              ((db.newestOutcome dependency.requiredTaskId).map OutcomeRow.outcomeId) with
          | none => (.error ("dependency_required_outcome_not_found:" ++ dependencyId), db)
          | some outcomeId =>
              if ∀ o ∈ db.outcomes, o.outcomeId ≠ outcomeId then
                (.error (sqliteError "FOREIGN KEY constraint failed"), db)
              else
                let disposition := disposed env args dependencyId outcomeId agent kind summary
                (.ok (.object [("schema", .string "narada.task.dependency_disposition.v1"),
                  ("status", .string "recorded"),
                  ("disposition_id", .string disposition.dispositionId),
                  ("dependency_id", .string dependencyId), ("kind", .string kind),
                  ("summary", .string summary)]),
                  { db with dispositions := db.dispositions ++ [disposition] })

end Records

/-! ### Sequences of calls -/

section Turns

variable [FloatText] [Digest]

/-- The calls that write beside the life of a task. -/
inductive Record where
  /-- `create`, also for what a recurring definition is due. -/
  | create (env : CreateEnv)
  | setRouting (now : String)
  | rosterAdmit
  | declare (env : DependencyEnv)
  /-- `dependency_dispose` and `dependency_disposition_record`. -/
  | dispose (env : DependencyEnv)

/-- What such a call answers, and the database behind it. -/
def Record.serve (r : Record) (args : Value) (db : Db) : Except String Value × Db :=
  match r with
  | create env => taskCreate env args db
  | setRouting now => taskSetRouting now args db
  | rosterAdmit => TaskLifecycle.rosterAdmit args db
  | declare env => taskDependencyDeclare env args db
  | dispose env => taskDependencyDisposition env args db

/-- A call of either kind. -/
inductive Turn where
  | call (c : Call)
  | record (surface : Surface) (r : Record) (args : Value)

/-- The checks of a surface before a call that writes beside the life of a task. -/
def Surface.lets (surface : Surface) (args : Value) (db : Db) : Except String Unit :=
  if surface = .work then (Server.alone (checkRevisions args) db).1 else .ok ()

/-- The database behind a call of either kind. -/
def Db.turn (db : Db) : Turn → Db
  | .call c => db.after c
  | .record surface r args =>
      match surface.lets args db with
      | .ok _ => (r.serve args db).2
      | .error _ => db

/-- What a call answers. -/
def Db.answer (db : Db) (c : Call) : Except String Value := (Server.alone c.program db).1

lemma turn_record (db : Db) (surface : Surface) (r : Record) (args : Value) :
    db.turn (.record surface r args) = db ∨
      db.turn (.record surface r args) = (r.serve args db).2 := by
  cases h : surface.lets args db with
  | error e => exact .inl (by simp only [Db.turn, h])
  | ok _ => exact .inr (by simp only [Db.turn, h])

/-! ### What a creation does -/

variable {db db' : Db}

/-- A creation that goes through makes a new task, which is opened, or finds one that has the
title. -/
lemma tasks_createTransact {env : CreateEnv} {payload answer : Value} {title : String}
    (h : createTransact env payload title db = .ok (db', answer)) :
    ∃ new : List TaskRow, (∀ t ∈ new, db.task t.taskId = none ∧ db.taskNumbered t.number = none ∧
        t.status = .opened) ∧
      (new.map TaskRow.taskId).Nodup ∧ (new.map TaskRow.number).Nodup ∧
      db'.tasks = db.tasks ++ new ∧ db'.assignments = db.assignments ∧
      ∃ o, db'.operations = db.operations ++ [o] := by
  unfold createTransact at h
  cases htitled : db.specTitled title with
  | some spec =>
      rw [htitled] at h
      cases h
      exact ⟨[], by simp, by simp, by simp, by simp, rfl, _, rfl⟩
  | none =>
      rw [htitled] at h
      simp only [createNew] at h
      obtain ⟨hid, h⟩ := guard_ok h
      obtain ⟨hnumber, h⟩ := guard_ok h
      obtain ⟨-, h⟩ := guard_ok h
      obtain ⟨contract, -, h⟩ := Lists.bind_eq_ok h
      obtain ⟨binding, -, h⟩ := Lists.bind_eq_ok h
      cases h
      refine ⟨[env.task payload (db.lastAllocated + 1)], fun t ht => ?_, by simp, by simp, rfl,
        rfl, _, rfl⟩
      obtain rfl := List.mem_singleton.mp ht
      exact ⟨Option.not_isSome_iff_eq_none.mp hid, Option.not_isSome_iff_eq_none.mp hnumber, rfl⟩

/-- A creation is carried out by its transaction, or leaves the database. -/
lemma taskCreate_cases (env : CreateEnv) (args : Value) (db : Db) :
    (taskCreate env args db).2 = db ∨
      ∃ payload title answer,
        createTransact env payload title db = .ok ((taskCreate env args db).2, answer) := by
  unfold taskCreate
  cases enforcePayloadContract args >>= fun _ => resolvePayloadArgs env args with
  | error e => exact .inl rfl
  | ok payload =>
  cases htitle : stringArg payload "title" with
  | none => exact .inl (by simp only [htitle])
  | some title =>
  cases hstored : db.operation (createKey payload) with
  | some stored =>
      refine .inl ?_
      simp only [htitle, hstored]
      split <;> rfl
  | none =>
      simp only [htitle, hstored, createUnstored]
      cases htransact : createTransact env payload title db with
      | error e => exact .inl rfl
      | ok r => exact .inr ⟨payload, title, r.2, htransact⟩

/-! ### What a record does -/

lemma serve_cases (r : Record) (args : Value) (db : Db) :
    ((r.serve args db).2.tasks = db.tasks ∧ (r.serve args db).2.assignments = db.assignments ∧
      (r.serve args db).2.operations = db.operations) ∨
      ∃ env payload title answer,
        createTransact env payload title db = .ok ((r.serve args db).2, answer) := by
  cases r with
  | create env =>
      rcases taskCreate_cases env args db with h | ⟨payload, title, answer, h⟩
      · refine .inl ?_
        show (taskCreate env args db).2.tasks = _ ∧ (taskCreate env args db).2.assignments = _ ∧
          (taskCreate env args db).2.operations = _
        rw [h]
        exact ⟨rfl, rfl, rfl⟩
      · exact .inr ⟨env, payload, title, answer, h⟩
  | setRouting now =>
      refine .inl ?_
      simp only [Record.serve, taskSetRouting]
      split
      · exact ⟨rfl, rfl, rfl⟩
      · split <;> exact ⟨rfl, rfl, rfl⟩
  | rosterAdmit =>
      refine .inl ?_
      simp only [Record.serve, TaskLifecycle.rosterAdmit]
      split <;> exact ⟨rfl, rfl, rfl⟩
  | declare env =>
      refine .inl ?_
      simp only [Record.serve, taskDependencyDeclare]
      split
      · exact ⟨rfl, rfl, rfl⟩
      · split
        · exact ⟨rfl, rfl, rfl⟩
        · exact ⟨rfl, rfl, rfl⟩
        · simp only [Db.declare]
          split <;> exact ⟨rfl, rfl, rfl⟩
  | dispose env =>
      refine .inl ?_
      simp only [Record.serve, taskDependencyDisposition]
      split
      · exact ⟨rfl, rfl, rfl⟩
      split
      · exact ⟨rfl, rfl, rfl⟩
      split
      · exact ⟨rfl, rfl, rfl⟩
      · split <;> exact ⟨rfl, rfl, rfl⟩

end Turns

/-! ### Work that has been started -/

/-- What a creation gets from outside where nothing fails. -/
def orderlyCreation (uuid title : String) : CreateEnv where
  payload := .ok [("title", .string title)]
  taskUuid := uuid
  now _ := "2026-01-01T00:00:00Z"
  filePath taskId := taskId ++ ".md"
  binding _ _ := .ok (.object [])
  file := .ok ()

/-- The creation of a task. -/
def createTurn (uuid title : String) : Turn :=
  .record .task (.create (orderlyCreation uuid title))
    (.object [("payload_ref", .string "mcp_payload:definition")])

/-- A task that is created and claimed. -/
def startedWork : List Turn := [createTurn "1" "First", .call (claimBy "alice" "1")]

end TaskLifecycle

end McpSurfaces
