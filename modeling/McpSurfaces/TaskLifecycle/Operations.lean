import McpSurfaces.Foundation.Interleaving
import McpSurfaces.Foundation.Str
import McpSurfaces.TaskLifecycle.Store

/-!
The calls on tasks, as the servers carry them out: a query, a statement or a transaction at a
time, with nothing kept from others in between.

* `Env`: what a call gets from outside: readings of the clock, new UUIDs, and how its work on
  the files of its task ends. Files are shared with other programs, so any ending is possible.
* `Call.program`: the program of a call. A server of the work surface checks the revisions that
  the arguments name before it.
-/

namespace McpSurfaces

namespace TaskLifecycle

open EventLedger (Digest)
open Table (row firstBy)

/-- What a server does for a call. -/
abbrev Server (α : Type) := ExceptT String (Program Db Statement) α

/-- What a call gets from outside. -/
structure Env where
  /-- The readings of the clock. -/
  now : ℕ → String
  /-- The new UUIDs. -/
  uuid : ℕ → String
  /-- `project_task_status`. -/
  project : Status → Except String Unit
  /-- `append_task_body`. -/
  append : Except String Unit
  /-- `replace_task_markdown_section` under a heading. -/
  writeSection : String → Except String Unit
  /-- The file in `task_prove_criteria`: whether it had criteria to check. -/
  criteria : Except String Bool
  /-- `write_task_file` for a review. -/
  reviewFile : Except String Unit
  /-- The reference of `payload_create`. -/
  payload : Except String Value

section Calls

variable [FloatText]

def query {α : Type} (f : Db → α) : Server α :=
  ExceptT.mk (.step .query fun db => .done (.ok (f db)))

def execute (st : Statement) : Server Value :=
  ExceptT.mk (.step st fun db => .done (st.answer db))

/-- An ending that the call does not decide. -/
def ending {α : Type} (r : Except String α) : Server α := ExceptT.mk (.done r)

/-! ### Arguments -/

/-- `string_arg`. -/
def stringArg (args : Value) (key : String) : Option String := (args.get key).bind Value.asStr

/-- `required_string`. -/
def requiredString (args : Value) (key : String) : Except String String :=
  match stringArg args key with
  | some s => .ok s
  | none => .error (key ++ "_required")

/-- `required_i64`. -/
def requiredI64 (args : Value) (key : String) : Except String ℤ :=
  match (args.get key).bind Value.asI64 with
  | some n => .ok n
  | none => .error (key ++ "_required")

def boolArg (args : Value) (key : String) : Option Bool := (args.get key).bind Value.asBool

/-- The task that a call names. -/
def findTask (number : ℤ) : Server TaskRow := do
  match ← query (·.taskNumbered number) with
  | some task => return task
  | none => throw ("task_not_found: " ++ toString number)

/-! ### Claim and unclaim -/

/-- The role that a task asks for. -/
def Routing.requiredRole (r : Routing) : Option String := r.targetRole.or r.preferredRole

/-- The check of the role that a task asks for. -/
def roleGuard (required agent : String) : Server Unit := do
  let role ← query (·.role agent)
  if ∃ actual ∈ role, actual ≠ required then
    throw ("task_role_mismatch:expected_" ++ required ++ ":actual_" ++ role.getD "")

/-- `task_claim_guard`. -/
def claimGuard (taskId agent : String) : Server Unit := do
  match ← query fun db => row Routing.taskId db.routing taskId with
  | none => return ()
  | some routing => do
      if ∃ preferred ∈ routing.preferredAgentId, preferred ≠ agent then
        throw ("task_preferred_agent_mismatch:" ++ agent)
      match routing.requiredRole with
      | none => return ()
      | some required => roleGuard required agent

/-- The claim of a task on which no assignment was open. -/
def takeClaim (env : Env) (task : TaskRow) (agent : String) : Server Value := do
  let assignmentId := "assignment-" ++ env.uuid 0
  let _ ← execute (.claim assignmentId task.taskId agent (env.now 0))
  ending (env.project .claimed)
  return .object [("status", .string "claimed"), ("assignment_id", .string assignmentId),
    ("task_number", .ofInt task.number), ("agent_id", .string agent)]

/-- The claim of a task of which the active assignment is known. -/
def claimFound (env : Env) (task : TaskRow) (agent : String) : Option Assignment → Server Value
  | some active =>
      if active.agentId = agent then
        return .object [("status", .string "already_claimed"),
          ("assignment_id", .string active.assignmentId), ("task_number", .ofInt task.number),
          ("assignment", .object [("agent_id", .string active.agentId)])]
      else throw "task_already_claimed"
  | none => takeClaim env task agent

/-- The claim of a task, unless an assignment is open on it. -/
def claimUnassigned (env : Env) (task : TaskRow) (agent : String) : Server Value := do
  claimFound env task agent (← query (·.activeAssignment task.taskId))

/-- `task_claim`, for `claim` and `continue`. -/
def taskClaim (env : Env) (args : Value) : Server Value := do
  let number ← ending (requiredI64 args "task_number")
  let agent ← ending (requiredString args "agent_id")
  let task ← findTask number
  if task.status.Ended then throw ("task_not_claimable:" ++ task.status.text)
  claimGuard task.taskId agent
  claimUnassigned env task agent

/-- The release of the active assignment of a task. -/
def releaseActive (env : Env) (args : Value) (task : TaskRow) (active : Assignment) :
    Server Value := do
  let reason := (stringArg args "reason").getD "mcp_unclaim"
  let changed ← execute (.release active.assignmentId (env.now 0) reason)
  let _ ← execute (.reopenClaimed task.taskId (env.now 0))
  ending (env.project .opened)
  return .object [("status", .string "unclaimed"), ("task_number", .ofInt task.number),
    ("released", changed), ("assignment_id", .string active.assignmentId),
    ("agent_id", .string active.agentId), ("claimed_at", .string active.claimedAt)]

/-- `task_unclaim`. -/
def taskUnclaim (env : Env) (args : Value) : Server Value := do
  let number ← ending (requiredI64 args "task_number")
  let task ← findTask number
  match ← query (·.activeAssignment task.taskId) with
  | none => return .object [("status", .string "not_claimed"), ("task_number", .ofInt number),
      ("released", .ofNat 0)]
  | some active =>
      if ∃ agent ∈ stringArg args "agent_id", agent ≠ active.agentId then
        return .object [("status", .string "claimed_by_other"), ("task_number", .ofInt number),
          ("assigned_agent", .string active.agentId),
          ("requested_agent", optionText (stringArg args "agent_id")),
          ("assignment_id", .string active.assignmentId)]
      else releaseActive env args task active

/-! ### Transitions -/

/-- `task_transition`, for `defer`, `un_defer` and `reopen`. -/
def taskTransition (env : Env) (args : Value) (status : Status) : Server Value := do
  let number ← ending (requiredI64 args "task_number")
  let task ← findTask number
  if ¬ Status.Edge task.status status then
    return .object [("status", .string "invalid_transition"),
      ("error", .string "invalid_transition"), ("task_number", .ofInt number),
      ("task_id", .string task.taskId), ("from_status", .string task.status.text),
      ("to_status", .string status.text),
      ("message", .string ("Cannot transition from '" ++ task.status.text ++ "' to '" ++
        status.text ++ "'."))]
  let changed ← execute (.transition number status (env.now 0) (stringArg args "agent_id"))
  if changed = .ofNat 0 then throw ("task_not_found: " ++ toString number)
  ending (env.project status)
  return .object [("status", .string "success"), ("task_number", .ofInt number),
    ("new_status", .string status.text)]

/-- `task_report_blocked`. -/
def taskReportBlocked (env : Env) (args : Value) : Server Value := do
  let number ← ending (requiredI64 args "task_number")
  let agent ← ending (requiredString args "agent_id")
  let reason ← ending (requiredString args "reason")
  let task ← findTask number
  let reportId := "report-" ++ env.uuid 0
  let _ ← execute (.report
    { reportId, taskId := task.taskId, agentId := agent, summary := reason
      changedFiles := .array [], verification := .object [], submittedAt := env.now 0 })
  if boolArg args "defer" ≠ some false then
    let _ ← execute (.defer task.taskId (env.now 1))
  return .object [("status", .string "blocked"), ("task_number", .ofInt number),
    ("report_id", .string reportId),
    ("deferred", .bool (boolArg args "defer" ≠ some false))]

/-! ### Evidence -/

/-- The methods of an admission. -/
def evidenceMethods (args : Value) : Except String (List Value) :=
  match ((args.get "methods").getD (textList ["admission"])).asArray with
  | none => .error "evidence_methods_must_be_array"
  | some [] => .error "evidence_methods_required"
  | some methods => .ok methods

/-- `task_admit_evidence`. -/
def taskAdmitEvidence (env : Env) (args : Value) : Server Value := do
  let number ← ending (requiredI64 args "task_number")
  let agent ← ending (requiredString args "agent_id")
  let task ← findTask number
  let reportIds ← query fun db =>
    ((Lists.sortBy (descending Report.submittedAt)
      (db.reports.filter fun r => r.taskId = task.taskId)).take 50).map Report.reportId
  let proofIds ← query fun db =>
    ((Lists.sortBy (descending Proof.provedAt)
      (db.proofs.filter fun p => p.taskId = task.taskId)).take 50).map Proof.proofId
  let methods ← ending (evidenceMethods args)
  if .string "criteria_proof" ∈ methods ∧ proofIds = [] then
    return .object [("schema", .string "narada.task.mcp.admit_evidence.v0"),
      ("status", .string "blocked"), ("verdict", .string "blocked"),
      ("task_number", .ofInt number), ("blockers", textList ["criteria_proof_required"]),
      ("methods", .array methods)]
  let bundleId := "bundle-" ++ env.uuid 0
  let admissionId := "admission-" ++ env.uuid 1
  let _ ← execute (.admission
    { admissionId, bundleId, taskId := task.taskId, verdict := "admitted"
      admittedAt := env.now 0, admittedBy := agent })
  return .object [("schema", .string "narada.task.mcp.admit_evidence.v0"),
    ("status", .string "admitted"), ("verdict", .string "admitted"),
    ("bundle_id", .string bundleId), ("admission_id", .string admissionId),
    ("task_number", .ofInt number), ("methods", .array methods),
    ("report_ids", textList reportIds), ("proof_ids", textList proofIds)]

/-- The proof of the criteria of a task, whose file has been written. -/
def recordProof (env admitting : Env) (number : ℤ) (spec : Spec) (agent : String) :
    Server Value := do
  let proofId := "proof-" ++ env.uuid 0
  let _ ← execute (.proof
    { proofId, taskId := spec.taskId, provedBy := agent, provedAt := env.now 0
      criteria := spec.acceptanceCriteria })
  let admission ← taskAdmitEvidence admitting (.object [("task_number", .ofInt number),
    ("agent_id", .string agent), ("methods", textList ["criteria_proof"]),
    ("acceptance_criteria", spec.acceptanceCriteria)])
  return .object [("schema", .string "narada.task.mcp.prove_criteria.v0"),
    ("status", .string "proved"), ("proof_id", .string proofId), ("task_number", .ofInt number),
    ("criteria", spec.acceptanceCriteria), ("proved_by", .string agent),
    ("admission", admission), ("criteria_projection_rolled_back", .bool false)]

/-- `task_prove_criteria`. -/
def taskProveCriteria (env admitting : Env) (args : Value) : Server Value := do
  let number ← ending (requiredI64 args "task_number")
  let agent ← ending (requiredString args "agent_id")
  match ← query fun db => row Spec.number db.specs number with
  | none => throw ("task_not_found: " ++ toString number)
  | some spec => do
      let changed ← ending env.criteria
      if changed = false then
        return .object [("status", .string "no_changes"), ("task_number", .ofInt number),
          ("message", .string "No unchecked acceptance criteria found.")]
      recordProof env admitting number spec agent

/-! ### Closeout -/

/-- What `task_dependency_satisfaction` says of one dependency. -/
structure DependencyState where
  dependency : Dependency
  latest : Option OutcomeRow
  blocking : List String
  disposition : Option Disposition

namespace DependencyState

def satisfying (d : DependencyState) : List String := parseList d.dependency.satisfyingOutcomes

def state (d : DependencyState) : String :=
  match d.latest with
  | none => "missing_outcome"
  | some o =>
      if o.outcome ∈ d.satisfying then "satisfied"
      else if o.outcome ∈ d.blocking then "blocking_outcome"
      else "unsatisfying_outcome"

def Accepted (d : Disposition) : Prop :=
  d.status ≠ "superseded" ∧
    if d.kind = "operator_deferred" ∨ d.kind = "out_of_scope_or_rejected" then
      d.status = "deferred" ∨ d.status = "resolved"
    else d.status = "open" ∨ d.status = "resolved"

instance (d : Disposition) : Decidable (Accepted d) := inferInstanceAs (Decidable (_ ∧ _))

def DispositionAccepted (d : DependencyState) : Prop := ∃ p ∈ d.disposition, Accepted p

instance (d : DependencyState) : Decidable d.DispositionAccepted :=
  inferInstanceAs (Decidable (∃ p ∈ d.disposition, _))

/-- Whether the dependency stands in the way of nothing. -/
def Satisfied (d : DependencyState) : Prop :=
  (∃ o ∈ d.latest, o.outcome ∈ d.satisfying) ∨
    (d.state = "blocking_outcome" ∧ d.DispositionAccepted)

instance (d : DependencyState) : Decidable d.Satisfied :=
  inferInstanceAs (Decidable ((∃ o ∈ d.latest, _) ∨ _))

def blockingReason (d : DependencyState) : Value :=
  let outcome := (d.latest.map OutcomeRow.outcome).getD "unknown"
  if d.Satisfied then .null
  else if d.state = "missing_outcome" then
    .string ("dependency " ++ d.dependency.dependencyId ++ " has no admitted outcome")
  else if d.state = "blocking_outcome" then
    .string ("latest outcome " ++ outcome ++ " blocks dependency " ++
      d.dependency.dependencyId ++ " and requires explicit disposition")
  else .string ("latest outcome " ++ outcome ++ " does not satisfy dependency " ++
    d.dependency.dependencyId)

def dispositionJson (p : Disposition) : Value :=
  .object [("disposition_id", .string p.dispositionId), ("kind", .string p.kind),
    ("status", .string p.status), ("target_task_id", optionText p.targetTaskId),
    ("routed_obligation_id", optionText p.routedObligationId), ("summary", .string p.summary),
    ("created_by", .string p.createdBy), ("created_at", .string p.createdAt)]

def json (d : DependencyState) (evaluatedAt : String) : Value :=
  .object [("dependency_id", .string d.dependency.dependencyId),
    ("parent_task_id", .string d.dependency.parentTaskId),
    ("required_task_id", .string d.dependency.requiredTaskId),
    ("required_outcome_id", optionText (d.latest.map OutcomeRow.outcomeId)),
    ("dependency_kind", .string d.dependency.kind),
    ("satisfying_outcomes", textList d.satisfying), ("blocking_outcomes", textList d.blocking),
    ("latest_outcome", optionText (d.latest.map OutcomeRow.outcome)),
    ("satisfied", .bool d.Satisfied), ("state", .string d.state),
    ("disposition_required", .bool (d.state = "blocking_outcome" ∧ ¬ d.DispositionAccepted)),
    ("latest_disposition", (d.disposition.map dispositionJson).getD .null),
    ("conflict_policy_evidence", .null), ("blocking_reason", d.blockingReason),
    ("remediation_options", .array []), ("evaluated_at", .string evaluatedAt)]

end DependencyState

/-- The queries on one dependency. -/
def dependencyState (dependency : Dependency) : Server DependencyState := do
  let latest ← query (·.latestOutcome dependency.requiredTaskId)
  let contract ← query (·.outcomeContract dependency.requiredTaskId)
  let blocking := (contract.map fun c => parseList c.blockingOutcomes).getD []
  match latest with
  | none => return { dependency, latest, blocking, disposition := none }
  | some outcome => do
      let disposition ← query (·.disposition dependency.dependencyId outcome.outcomeId)
      return { dependency, latest, blocking, disposition }

/-- The dependencies of a task, in the order of their creation. -/
def Db.dependenciesOf (db : Db) (taskId : String) : List Dependency :=
  Lists.sortBy (fun a b => compare a.createdAt b.createdAt)
    (db.dependencies.filter fun d => d.parentTaskId = taskId)

/-- The states of dependencies, one after the other. -/
def dependencyStates : List Dependency → Server (List DependencyState)
  | [] => return []
  | d :: rest => do
      let state ← dependencyState d
      return state :: (← dependencyStates rest)

/-- `task_dependency_satisfaction`. -/
def taskDependencySatisfaction (taskId : String) : Server (List DependencyState) := do
  dependencyStates (← query (·.dependenciesOf taskId))

/-- Whether every dependency is satisfied. -/
def AllSatisfied (states : List DependencyState) : Prop := ∀ d ∈ states, d.Satisfied

instance (states : List DependencyState) : Decidable (AllSatisfied states) :=
  inferInstanceAs (Decidable (∀ d ∈ states, _))

def satisfactionJson (states : List DependencyState) (taskId evaluatedAt : String) : Value :=
  let satisfied := (states.filter fun d => d.Satisfied).length
  .object [("schema", .string "narada.task.dependency_satisfaction.v0"),
    ("parent_task_id", .string taskId), ("evaluated_at", .string evaluatedAt),
    ("dependency_count", .ofNat states.length), ("satisfied_count", .ofNat satisfied),
    ("unsatisfied_count", .ofNat (states.length - satisfied)),
    ("all_satisfied", .bool (AllSatisfied states)),
    ("dependencies", .array (states.map fun d => d.json evaluatedAt))]

/-- The files that a call says it changed. -/
def changedFilesOf (args : Value) : Value := (args.get "changed_files").getD (.array [])

/-- What stands in the way of a closing. -/
def closeBlockers (env : Env) (task : TaskRow) : Server (Option Value) := do
  let admitted ← query (·.admissionCount task.taskId)
  if admitted = 0 then
    return some (.object [("status", .string "blocked"), ("task_number", .ofInt task.number),
      ("new_status", .string task.status.text), ("close_action", .string "blocked"),
      ("close_blockers", textList ["evidence_admission_required"]),
      ("evidence_preflight", .object [("status", .string "blocked"),
        ("next_action", .string "task_lifecycle_admit_evidence")])])
  let states ← taskDependencySatisfaction task.taskId
  if AllSatisfied states then return none
  let remediation := "Complete each required dependency task with an admitted satisfying " ++
    "outcome before closing the parent task."
  return some (.object [("status", .string "blocked"),
    ("error", .string "task_close_dependencies_unsatisfied"), ("close_action", .string "blocked"),
    ("close_blocked", .bool true),
    ("close_blockers", .array (states.map fun d => d.json (env.now 0))),
    ("task_number", .ofInt task.number), ("task_id", .string task.taskId),
    ("schema", .string "narada.task.mcp.close.dependency_satisfaction_gate.v0"),
    ("dependency_satisfaction", satisfactionJson states task.taskId (env.now 0)),
    ("remediation", .string remediation), ("next_action", .string remediation)])

/-- The mode by which a closeout asks for a closing. -/
def closeMode (args : Value) : Option String := stringArg args "mode"

/-- Whether a closeout only notes a disposition. -/
def DispositionOnly (args : Value) : Prop :=
  (args.get "disposition").isSome ∧ boolArg args "finish" ≠ some true

instance (args : Value) : Decidable (DispositionOnly args) := inferInstanceAs (Decidable (_ ∧ _))

/-- The status that a closeout gives its task. -/
def closeoutStatus (args : Value) : Status :=
  if (closeMode args).isSome then .closed else .inReview

/-- The status that a closeout gives its task, or the disposition that it notes. -/
def settleCloseout (env : Env) (args : Value) (task : TaskRow) (agent : String) :
    Server Value := do
  let notesWritten := .bool (stringArg args "summary").isSome
  if DispositionOnly args then
    return .object [("status", .string "prepared"),
      ("schema", .string "narada.task.mcp.disposition_closeout.v0"),
      ("task_number", .ofInt task.number), ("task_id", .string task.taskId),
      ("notes_written", notesWritten), ("changed_files", changedFilesOf args),
      ("disposition", (args.get "disposition").getD .null), ("finish_result", .null)]
  let status := closeoutStatus args
  let mode := (closeMode args).getD "prepared"
  let _ ← execute (.closeout task.taskId status (env.now 1) agent mode)
  return .object [
    ("status", .string (if status = .closed then "success" else "prepared")),
    ("new_status", .string status.text), ("task_number", .ofInt task.number),
    ("task_id", .string task.taskId), ("notes_written", notesWritten),
    ("changed_files", changedFilesOf args),
    ("closure_mode", if status = .closed then .string mode else .null),
    ("close_action", .string (if status = .closed then "closed" else "prepared"))]

/-- The end of a closeout that nothing blocks. -/
def finishCloseout (env : Env) (args : Value) (task : TaskRow) (agent : String) :
    Server Value := do
  if (stringArg args "summary").isSome then ending env.append
  settleCloseout env args task agent

/-- `task_closeout`, for `close` and `closeout`. -/
def taskCloseout (env : Env) (args : Value) : Server Value := do
  let number ← ending (requiredI64 args "task_number")
  let agent ← ending (requiredString args "agent_id")
  if boolArg args "dry_run" = some true then
    return .object [("status", .string "planned"), ("task_number", .ofInt number),
      ("agent_id", .string agent), ("notes_written", .bool false),
      ("changed_files", changedFilesOf args)]
  let task ← findTask number
  if (closeMode args).isNone then finishCloseout env args task agent
  else
    match ← closeBlockers env task with
    | some blocked => return blocked
    | none => finishCloseout env args task agent

/-! ### Finish -/

/-- Whether a value is of a type that a schema names. -/
def hasType (expected : String) (value : Value) : Bool :=
  match expected, value with
  | "object", v => v.asObject.isSome
  | "array", v => v.asArray.isSome
  | "string", v => v.asStr.isSome
  | "integer", v => v.asI64.isSome || v.asU64.isSome
  | "number", .number _ => true
  | "number", _ => false
  | "boolean", v => v.asBool.isSome
  | "null", .null => true
  | "null", _ => false
  | _, _ => true

omit [FloatText] in
/-- The field of an object is smaller than the object. -/
lemma sizeOf_get_lt {v child : Value} {key : String} (h : v.get key = some child) :
    sizeOf child < sizeOf v := by
  cases v with
  | object fields =>
      have hmem := List.sizeOf_lt_of_mem (OrderedMap.mem_of_get h)
      simp only [Prod.mk.sizeOf_spec] at hmem
      simp only [Value.object.sizeOf_spec]
      omega
  | _ => cases h

omit [FloatText] in
/-- An item of a list is smaller than the list. -/
lemma sizeOf_item_lt {v child : Value} {children : List Value} (h : v.asArray = some children)
    (hchild : child ∈ children) : sizeOf child < sizeOf v := by
  have hmem := List.sizeOf_lt_of_mem hchild
  rw [Value.asArray_eq_some.mp h, Value.array.sizeOf_spec]
  omega

/-- What a schema has against a value itself, its type apart. -/
def shallowErrors (schema value : Value) (path : String) : List Value :=
  let enumErrors := match (schema.get "enum").bind Value.asArray with
    | some allowed =>
        if allowed.any (Value.eqv · value) then []
        else [.object [("path", .string path), ("keyword", .string "enum"),
          ("allowed", .array allowed)]]
    | none => []
  let required := (((schema.get "required").bind Value.asArray).getD []).filterMap Value.asStr
  let missing := if value.asObject.isSome then
      required.filter fun field => (value.get field).isNone
    else []
  enumErrors ++ missing.map fun field =>
    .object [("path", .string (path ++ "/" ++ field)), ("keyword", .string "required")]

/-- `validate_result_schema`: what a schema has against a value. -/
def validateResultSchema (schema value : Value) (path : String) : List Value :=
  let expected := ((schema.get "type").bind Value.asStr).getD ""
  if hasType expected value = false then
    [.object [("path", .string path), ("keyword", .string "type"), ("expected", .string expected)]]
  else
    shallowErrors schema value path ++
      (((schema.get "properties").bind Value.asObject).getD []).flatMap (fun e =>
        match h : value.get e.1 with
        | some child =>
            have := sizeOf_get_lt h
            validateResultSchema e.2 child (path ++ "/" ++ e.1)
        | none => []) ++
      match schema.get "items", h : value.asArray with
      | some items, some children =>
          children.attach.zipIdx.flatMap fun (child, index) =>
            have := sizeOf_item_lt h child.2
            validateResultSchema items child.1 (path ++ "/" ++ toString index)
      | _, _ => []
termination_by sizeOf value

/-- The arguments of a finish. -/
structure FinishArgs where
  number : ℤ
  agentId : String
  summary : String
  changedFiles : Value
  verification : Value

/-- Whether a value says nothing of files that were changed. -/
def NoFiles (v : Value) : Prop := v.asArray.getD [] = []

instance (v : Value) : Decidable (NoFiles v) := inferInstanceAs (Decidable (_ = _))

/-- Whether a value says nothing of a verification. -/
def NoVerification (v : Value) : Prop := v.asObject.getD [] = []

instance (v : Value) : Decidable (NoVerification v) := inferInstanceAs (Decidable (_ = _))

/-- The first checks of `task_finish`. -/
def finishArgs (args : Value) : Except String FinishArgs := do
  let number ← requiredI64 args "task_number"
  let agentId ← requiredString args "agent_id"
  match stringArg args "summary" with
  | none => throw "task_lifecycle_finish_summary_required"
  | some summary => do
      if Str.trim summary = "" then throw "task_lifecycle_finish_summary_required"
      let changedFiles := changedFilesOf args
      let verification :=
        ((args.get "verification").or (args.get "verification_summary")).getD (.object [])
      if boolArg args "no_files_changed" ≠ some true ∧ NoFiles changedFiles ∧
          NoVerification verification then
        throw "task_lifecycle_finish_evidence_required"
      return { number, agentId, summary, changedFiles, verification }

/-- The statuses of tasks whose work may be finished. -/
def Status.Finishable (s : Status) : Prop :=
  s = .claimed ∨ s = .inProgress ∨ s = .opened ∨ s = .needsContinuation ∨ s = .inReview

instance : DecidablePred Status.Finishable := fun _ => inferInstanceAs (Decidable (_ ∨ _))

/-- The check of a result against the contract of its task. -/
def validateResult (args : Value) : Option ResultContract → Except String (Option Value)
  | none => .ok none
  | some contract => do
      match stringArg args "result_schema_digest" with
      | some observed =>
          if observed ≠ contract.schemaDigest then
            throw ("task_result_schema_digest_mismatch:expected=" ++ contract.schemaDigest ++
              ":observed=" ++ observed)
      | none => pure ()
      match args.get "result" with
      | none => throw "task_result_required:/result"
      | some value => do
          let errors := validateResultSchema contract.schema value "/result"
          if errors ≠ [] then
            throw ("task_result_validation_failed:" ++ (Value.array errors).text)
          return some (.object [("status", .string "valid"),
            ("schema_id", .string contract.schemaId),
            ("schema_digest", .string contract.schemaDigest), ("errors", .array [])])

variable [Digest]

/-- The key under which a finish is stored. -/
def finishKey (args : Value) (a : FinishArgs) : String :=
  (stringArg args "idempotency_key").getD ("task-finish:" ++ toString a.number ++ ":" ++
    a.agentId ++ ":" ++ Digest.sha256 args.canonicalText)

/-- What the transaction of a finish writes. -/
def submission (env : Env) (args : Value) (a : FinishArgs) (task : TaskRow)
    (contract : Option ResultContract) (validation : Option Value) : Submission where
  number := a.number
  taskId := task.taskId
  agentId := a.agentId
  summary := a.summary
  changedFiles := a.changedFiles
  verification := a.verification
  resultContract := contract
  structuredResult := args.get "result"
  resultValidation := validation
  evidenceRefs := args.get "evidence_refs"
  findings := args.get "findings"
  outcome := stringArg args "outcome"
  reviewer := stringArg args "reviewer"
  operationKey := finishKey args a
  requestDigest := Digest.sha256 args.canonicalText
  reportId := "report-" ++ env.uuid 0
  resultId := "result-" ++ env.uuid 1
  outcomeId := "outcome_" ++ env.uuid 2
  reviewUuid := env.uuid 3
  timestamp := env.now 0

/-- The end of a finish that nothing refuses: the stored answer, or the transaction. -/
def submit (env : Env) (s : Submission) : Server Value := do
  match ← query (·.operation s.operationKey) with
  | some stored => return stored.result
  | none => do
      let answer ← execute (.finish s)
      if s.reviewer.isSome then ending env.reviewFile
      return answer

/-- `task_finish`. -/
def taskFinish (env : Env) (args : Value) : Server Value := do
  let a ← ending (finishArgs args)
  let task ← findTask a.number
  let assignment ← query (·.agentAssignment task.taskId a.agentId)
  let contract ← query fun db => row ResultContract.taskId db.resultContracts task.taskId
  if ¬ task.status.Finishable then
    throw ("task_lifecycle_finish_state_refused:" ++ task.status.text)
  if assignment.isNone then throw "task_lifecycle_finish_claim_required"
  let validation ← ending (validateResult args contract)
  submit env (submission env args a task contract validation)

/-! ### Submitting work -/

/-- Whether a text says enough to be a note. -/
def Substantive (text : Option String) : Prop := ∃ s ∈ text, 20 ≤ (Str.trim s).length

instance (text : Option String) : Decidable (Substantive text) :=
  inferInstanceAs (Decidable (∃ s ∈ text, _))

/-- The checks of the notes of submitted work. -/
def submitChecks (args : Value) (resume : Bool) : Except String Unit := do
  let notes := stringArg args "execution_notes"
  let verification := stringArg args "verification"
  if resume = true ∧ (notes.isSome ∨ verification.isSome) then
    throw ("task_lifecycle_submit_work_resume_existing_work_conflicts_with_" ++
      "replacement_notes")
  if resume = false ∧ Str.trim ((stringArg args "summary").getD "") = "" then
    throw "task_lifecycle_submit_work_summary_required"
  if resume = false ∧ ¬ Substantive notes then
    throw "task_lifecycle_submit_work_execution_notes_not_substantive"
  if resume = false ∧ ¬ Substantive verification then
    throw "task_lifecycle_submit_work_verification_not_substantive"
  if (args.get "changed_files").isSome ∧ boolArg args "no_files_changed" = some true then
    throw "changed_files_conflicts_with_no_files_changed"

/-- A call that was made for another. -/
def primitive (tool : String) (result : Value) : Value :=
  .object [("tool", .string tool), ("result", result), ("is_error", .bool false)]

/-- The outside of `task_submit_work` and of the calls that it makes. -/
structure SubmitEnv extends Env where
  claiming : Env
  proving : Env
  provingAdmission : Env
  admitting : Env
  finishing : Env

/-- The fields of an argument that are handed on. -/
def handedOn (args : Value) (keys : List String) : Map :=
  keys.filterMap fun key => (args.get key).map (key, ·)

/-- The report that resumed work goes on from. -/
def previousReport (taskId agent : String) : Server Report := do
  match ← query fun db => firstBy (fun r : Report => r.taskId = taskId ∧ r.agentId = agent)
      (descending Report.submittedAt) db.reports.reverse with
  | some report => return report
  | none => throw "task_lifecycle_submit_work_resume_existing_work_report_not_found"

/-- The summary of submitted work, and the reuse of notes where it resumes. -/
def summaryForSubmit (args : Value) (task : TaskRow) (agent : String) (resume : Bool) :
    Server (Option String × List Value) := do
  if resume = false then return (stringArg args "summary", [])
  let report ← previousReport task.taskId agent
  return ((stringArg args "summary").or (some report.summary),
    [primitive "task_lifecycle_submit_work.reuse_existing_task_notes"
      (.object [("status", .string "reused"), ("report_id", .string report.reportId)])])

/-- Whether submitted work claims its task. -/
def ClaimsFirst (args : Value) (task : TaskRow) : Prop :=
  (boolArg args "claim").getD (task.status = .opened) = true

instance (args : Value) (task : TaskRow) : Decidable (ClaimsFirst args task) :=
  inferInstanceAs (Decidable (_ = _))

/-- The arguments with which submitted work claims its task. -/
def claimArgsOf (args : Value) (number : ℤ) (agent : String) : Value :=
  .object ([("task_number", .ofInt number), ("agent_id", .string agent)] ++
    handedOn args ["authority_basis"])

/-- The claim of submitted work. -/
def claimForSubmit (env : SubmitEnv) (args : Value) (task : TaskRow) (agent : String) :
    Server (List Value) := do
  if ¬ ClaimsFirst args task then return []
  let result ← taskClaim env.claiming (claimArgsOf args task.number agent)
  return [primitive "task_lifecycle_claim" result]

/-- The notes of submitted work. -/
def writeNotes (env : SubmitEnv) (task : TaskRow) (resume : Bool) : Server (List Value) := do
  if resume = true then return []
  ending (env.writeSection "Execution Notes")
  ending (env.writeSection "Verification")
  return [primitive "task_lifecycle_submit_work.write_task_notes"
    (.object [("status", .string "written"), ("task_number", .ofInt task.number),
      ("sections", textList ["Execution Notes", "Verification"])])]

/-- The proof of the criteria of submitted work. -/
def proveForSubmit (env : SubmitEnv) (args : Value) (task : TaskRow) (agent : String)
    (resume : Bool) : Server (List Value) := do
  if (boolArg args "prove_criteria").getD (!resume) = false then return []
  let result ← taskProveCriteria env.proving env.provingAdmission
    (.object [("task_number", .ofInt task.number), ("agent_id", .string agent)])
  return [primitive "task_lifecycle_prove_criteria" result]

/-- The admission of the evidence of submitted work. -/
def admitForSubmit (env : SubmitEnv) (args : Value) (task : TaskRow) (agent : String)
    (resume : Bool) : Server (List Value) := do
  if (boolArg args "admit_evidence").getD (!resume) = false then return []
  let result ← taskAdmitEvidence env.admitting
    (.object ([("task_number", .ofInt task.number), ("agent_id", .string agent)] ++
      handedOn args ["self_certification"]))
  return [primitive "task_lifecycle_admit_evidence" result]

/-- The arguments with which submitted work is finished. -/
def finishArgsOf (args : Value) (number : ℤ) (agent summary : String) : Value :=
  .object ([("task_number", .ofInt number), ("agent_id", .string agent),
    ("summary", .string summary)] ++
    handedOn args ["reviewer", "changed_files", "no_files_changed", "authority_basis",
      "recovery_truthfulness", "self_certification"])

/-- The finish of submitted work: its last status, and the calls made. -/
def finishForSubmit (env : SubmitEnv) (args : Value) (task : TaskRow) (agent : String)
    (summary : Option String) : Server (String × List Value) := do
  if boolArg args "finish" = some false then return (task.status.text, [])
  match summary with
  | none => throw "task_lifecycle_submit_work_summary_required"
  | some summary => do
      let result ← taskFinish env.finishing (finishArgsOf args task.number agent summary)
      return ((stringArg result "new_status").getD "in_review",
        [primitive "task_lifecycle_finish" result])

/-- The payload that submitted work may leave. -/
def payloadSource (env : Env) (args : Value) : Except String Value :=
  if boolArg args "auto_materialize_payload" = some true then
    env.payload.map fun reference =>
      .object [("kind", .string "auto_materialized_payload"), ("ref", reference)]
  else .ok .null

/-- Submitted work up to its finish: the summary, and the calls made so far. -/
def prepareSubmit (env : SubmitEnv) (args : Value) (task : TaskRow) (agent : String)
    (resume : Bool) : Server (Option String × List Value) := do
  let (summary, reused) ← summaryForSubmit args task agent resume
  let claimed ← claimForSubmit env args task agent
  let noted ← writeNotes env task resume
  let proved ← proveForSubmit env args task agent resume
  let admitted ← admitForSubmit env args task agent resume
  return (summary, reused ++ claimed ++ noted ++ proved ++ admitted)

/-- Submitted work of an agent on the roster. -/
def submitRostered (env : SubmitEnv) (args : Value) (task : TaskRow) (agent : String)
    (resume : Bool) : Server Value := do
  let payload ← ending (payloadSource env.toEnv args)
  let (summary, made) ← prepareSubmit env args task agent resume
  let (final, finished) ← finishForSubmit env args task agent summary
  return .object [("schema", .string "narada.task.submit_work.v1"),
    ("status", .string "submitted"), ("task_number", .ofInt task.number),
    ("agent_id", .string agent), ("final_lifecycle_status", .string final),
    ("closure_status",
      .string (if final = "closed" then "closed" else "submitted_for_review_not_closed")),
    ("submitted_for_review_not_closed", .bool (final ≠ "closed")),
    ("primitive_results", .array (made ++ finished)), ("blocked_at", .null),
    ("payload_source", payload)]

/-- `task_submit_work`. -/
def taskSubmitWork (env : SubmitEnv) (args : Value) : Server Value := do
  let number ← ending (requiredI64 args "task_number")
  let agent ← ending (requiredString args "agent_id")
  let resume : Bool := boolArg args "resume_existing_work" = some true
  ending (submitChecks args resume)
  let task ← findTask number
  let rostered ← query fun db => decide (db.Rostered agent)
  if rostered = false then
    return .object [("schema", .string "narada.task.submit_work.v1"),
      ("status", .string "blocked"),
      ("blocked_at", .string "task_lifecycle_submit_work.roster_preflight"),
      ("task_number", .ofInt number), ("agent_id", .string agent),
      ("error", .string "submit_work_agent_not_in_roster"),
      ("remediation", .string ("Admit the agent into the task lifecycle roster before " ++
        "submit_work."))]
  submitRostered env args task agent resume

/-! ### Calls -/

inductive Surface where
  | task
  | work
deriving DecidableEq, Repr

/-- The calls that work on the status or the assignments of tasks. -/
inductive Tool where
  /-- `claim` and `continue`. -/
  | claim (env : Env)
  | unclaim (env : Env)
  | submitWork (env : SubmitEnv)
  /-- `finish` and `submit_report`. -/
  | finish (env : Env)
  /-- `close`, `closeout` and `disposition_closeout`. -/
  | closeout (env : Env)
  | defer (env : Env)
  | unDefer (env : Env)
  | reopen (env : Env)
  | reportBlocked (env : Env)

/-- A call on a server. -/
structure Call where
  surface : Surface
  tool : Tool
  args : Value

/-- The program of a call, its checks of revisions apart. -/
def Tool.program (tool : Tool) (args : Value) : Server Value :=
  match tool with
  | claim env => taskClaim env args
  | unclaim env => taskUnclaim env args
  | submitWork env => taskSubmitWork env args
  | finish env => taskFinish env args
  | closeout env => taskCloseout env args
  | defer env => taskTransition env args .deferred
  | unDefer env => taskTransition env args .opened
  | reopen env => taskTransition env args .opened
  | reportBlocked env => taskReportBlocked env args

/-- `check_work_revision`. -/
def checkWorkRevision (args : Value) (numberKey revisionKey : String) : Server Unit :=
  match (args.get numberKey).bind Value.asI64 with
  | none => pure ()
  | some number => do
      let expected ← ending (requiredI64 args revisionKey)
      match ← query (·.taskNumbered number) with
      | none => throw ("task_not_found:" ++ toString number)
      | some task =>
          if task.revision ≠ expected then
            throw ("task_revision_conflict:expected_" ++ toString expected ++ ":actual_" ++
              toString task.revision)

/-- The checks of the work surface. -/
def checkRevisions (args : Value) : Server Unit := do
  checkWorkRevision args "task_number" "expected_revision"
  checkWorkRevision args "parent_task_number" "expected_parent_revision"
  checkWorkRevision args "required_task_number" "expected_required_revision"

/-- The program of a call. -/
def Call.program (c : Call) : Server Value := do
  if c.surface = .work then checkRevisions c.args
  c.tool.program c.args

end Calls

end TaskLifecycle

end McpSurfaces
