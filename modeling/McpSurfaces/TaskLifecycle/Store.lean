import McpSurfaces.EventLedger.Chain
import McpSurfaces.Foundation.Table
import McpSurfaces.Json.Canonical

/-!
The database of the task lifecycle servers, and the statements that they carry out on it.

* A task has a number, a status, and a revision that most changes of the status count up.
  `Status.transitions` is the table of `task_transition`.
* An assignment is open until it is released.
* `Statement`: every write of the calls on tasks, each one atomic: a statement of its own, or the
  transaction of a claim, of an admission of evidence, of a finish. Columns of JSON hold the
  values of their texts. Events are written with most statements and read by none; they are left
  out. Keys that are made of a new UUID are taken as new, but that of an assignment, which is
  looked up by its release.
-/

namespace McpSurfaces

namespace TaskLifecycle

open EventLedger (Digest)
open Table (updateWhere row firstBy)

/-! ### Statuses -/

inductive Status where
  | draft
  | opened
  | claimed
  | inProgress
  | inReview
  | awaitingDependencies
  | needsContinuation
  | deferred
  | closed
  | confirmed
deriving DecidableEq, Repr

namespace Status

def text : Status → String
  | draft => "draft"
  | opened => "opened"
  | claimed => "claimed"
  | inProgress => "in_progress"
  | inReview => "in_review"
  | awaitingDependencies => "awaiting_dependencies"
  | needsContinuation => "needs_continuation"
  | deferred => "deferred"
  | closed => "closed"
  | confirmed => "confirmed"

/-- The statuses to which `task_transition` lets a task go. -/
def transitions : Status → List Status
  | draft => [opened]
  | opened => [claimed, closed, deferred]
  | claimed => [inReview, awaitingDependencies, opened, needsContinuation, deferred, closed]
  | needsContinuation => [claimed, opened, deferred]
  | inReview => [closed, opened, needsContinuation, awaitingDependencies, deferred]
  | awaitingDependencies => [closed, opened, needsContinuation, deferred]
  | deferred => [opened]
  | closed => [confirmed, opened, inReview]
  | confirmed => [confirmed, opened, inReview]
  | inProgress => []

/-- The statuses of ended work. -/
def Ended (s : Status) : Prop := s = closed ∨ s = confirmed

instance : DecidablePred Ended := fun _ => inferInstanceAs (Decidable (_ ∨ _))

/-- An edge of the table. -/
def Edge (a b : Status) : Prop := b ∈ a.transitions

instance (a b : Status) : Decidable (Edge a b) := inferInstanceAs (Decidable (_ ∈ _))

end Status

/-! ### Rows -/

/-- A row of `task_lifecycle`. -/
structure TaskRow where
  taskId : String
  number : ℤ
  status : Status
  governedBy : Option String
  closedAt : Option String
  closedBy : Option String
  closureMode : Option String
  reopenedAt : Option String
  reopenedBy : Option String
  revision : ℤ
  updatedAt : String

/-- A row of `task_assignments`. -/
structure Assignment where
  assignmentId : String
  taskId : String
  agentId : String
  claimedAt : String
  releasedAt : Option String
  releaseReason : Option String

/-- A row of the preferences for roles and agents. -/
structure Routing where
  taskId : String
  preferredRole : Option String
  targetRole : Option String
  preferredAgentId : Option String

/-- A row of `agent_roster`. -/
structure RosterEntry where
  agentId : String
  role : String
  status : String

/-- A row of `task_specs`. -/
structure Spec where
  taskId : String
  number : ℤ
  title : String
  goal : String
  context : Option String
  requiredWork : String
  nonGoals : String
  acceptanceCriteria : Value
  tags : Value

/-- A row of `task_reports`. -/
structure Report where
  reportId : String
  taskId : String
  agentId : String
  summary : String
  changedFiles : Value
  verification : Value
  submittedAt : String

/-- A row of `task_result_contracts`. -/
structure ResultContract where
  taskId : String
  schemaId : String
  schemaDigest : String
  schema : Value

/-- A row of `task_structured_results`, which has one row for a task at most. -/
structure StructuredResult where
  resultId : String
  taskId : String
  reportId : String
  schemaId : String
  schemaDigest : String
  result : Value
  evidenceRefs : Value
  validation : Value
  admittedAt : String

/-- A row of `task_outcome_contracts`. -/
structure OutcomeContract where
  contractId : String
  taskId : String
  outcomeType : String
  allowedOutcomes : Value
  satisfyingOutcomes : Value
  blockingOutcomes : Value
  requiredFields : Value
  capabilityRequirement : Option String
  createdBy : String
  createdAt : String

/-- A row of `task_outcomes`. -/
structure OutcomeRow where
  outcomeId : String
  taskId : String
  contractId : String
  agentId : String
  outcome : String
  summary : String
  findings : Value
  evidenceRefs : Value
  admittedAt : String

/-- A row of `task_dependencies`. -/
structure Dependency where
  dependencyId : String
  parentTaskId : String
  requiredTaskId : String
  kind : String
  satisfyingOutcomes : Value
  createdAt : String

/-- A row of `task_dependency_dispositions`. -/
structure Disposition where
  dispositionId : String
  dependencyId : String
  requiredOutcomeId : String
  kind : String
  status : String
  targetTaskId : Option String
  routedObligationId : Option String
  summary : String
  createdBy : String
  createdAt : String

/-- A row of `criteria_proofs`. -/
structure Proof where
  proofId : String
  taskId : String
  provedBy : String
  provedAt : String
  criteria : Value

/-- A row of `evidence_admission_results`. -/
structure Admission where
  admissionId : String
  bundleId : String
  taskId : String
  verdict : String
  admittedAt : String
  admittedBy : String

/-- A row of `native_task_operations`. -/
structure Operation where
  operationKey : String
  operationKind : String
  requestDigest : String
  result : Value

/-- The database, as far as the calls on tasks read and write it. -/
structure Db where
  tasks : List TaskRow := []
  assignments : List Assignment := []
  routing : List Routing := []
  roster : List RosterEntry := []
  specs : List Spec := []
  reports : List Report := []
  resultContracts : List ResultContract := []
  structuredResults : List StructuredResult := []
  outcomeContracts : List OutcomeContract := []
  outcomes : List OutcomeRow := []
  dependencies : List Dependency := []
  dispositions : List Disposition := []
  proofs : List Proof := []
  admissions : List Admission := []
  operations : List Operation := []
  lastAllocated : ℤ := 0

/-! ### Queries -/

/-- Texts in falling order. -/
def descending {ρ : Type} (key : ρ → String) (a b : ρ) : Ordering := compare (key b) (key a)

namespace Db

/-- The task with a number. -/
def taskNumbered (db : Db) (number : ℤ) : Option TaskRow := row TaskRow.number db.tasks number

/-- The task with an id. -/
def task (db : Db) (taskId : String) : Option TaskRow := row TaskRow.taskId db.tasks taskId

/-- The open assignments of a task. -/
def openAssignments (db : Db) (taskId : String) : List Assignment :=
  db.assignments.filter fun a => a.taskId = taskId ∧ a.releasedAt = none

/-- The open assignment of a task that was claimed last. -/
def activeAssignment (db : Db) (taskId : String) : Option Assignment :=
  firstBy (fun a => a.taskId = taskId ∧ a.releasedAt = none) (descending Assignment.claimedAt)
    db.assignments

/-- The open assignment of a task and an agent that was claimed last. -/
def agentAssignment (db : Db) (taskId agent : String) : Option Assignment :=
  firstBy (fun a => a.taskId = taskId ∧ a.agentId = agent ∧ a.releasedAt = none)
    (descending Assignment.claimedAt) db.assignments

/-- The outcome of a task that was admitted last. -/
def latestOutcome (db : Db) (taskId : String) : Option OutcomeRow :=
  firstBy (fun o => o.taskId = taskId) (descending OutcomeRow.admittedAt) db.outcomes

/-- The outcome contract of a task that was made last. -/
def outcomeContract (db : Db) (taskId : String) : Option OutcomeContract :=
  firstBy (fun c => c.taskId = taskId) (descending OutcomeContract.createdAt) db.outcomeContracts

/-- The disposition of an outcome of a dependency that was made last. -/
def disposition (db : Db) (dependencyId outcomeId : String) : Option Disposition :=
  firstBy (fun d => d.dependencyId = dependencyId ∧ d.requiredOutcomeId = outcomeId)
    (descending Disposition.createdAt) db.dispositions

/-- The result stored under a key. -/
def operation (db : Db) (key : String) : Option Operation :=
  row Operation.operationKey db.operations key

/-- Whether an agent is on the roster. -/
def Rostered (db : Db) (agent : String) : Prop :=
  ∃ r ∈ db.roster, r.agentId = agent ∧ r.status ≠ "retired" ∧ r.status ≠ "revoked"

instance (db : Db) (agent : String) : Decidable (db.Rostered agent) :=
  inferInstanceAs (Decidable (∃ r ∈ db.roster, _))

/-- The role of an agent on the roster. -/
def role (db : Db) (agent : String) : Option String :=
  (db.roster.find? fun r =>
    r.agentId = agent ∧ r.status ≠ "retired" ∧ r.status ≠ "revoked").map RosterEntry.role

/-- How many admissions of evidence a task has. -/
def admissionCount (db : Db) (taskId : String) : ℕ :=
  (db.admissions.filter fun a => a.taskId = taskId ∧ a.verdict = "admitted").length

end Db

lemma activeAssignment_eq_none_iff {db : Db} {taskId : String} :
    db.activeAssignment taskId = none ↔ db.openAssignments taskId = [] := by
  rw [Db.activeAssignment, Table.firstBy_eq_none_iff, Db.openAssignments, List.filter_eq_nil_iff]
  simp

/-! ### Statements -/

/-- The JSON of an optional text. -/
def optionText : Option String → Value
  | some s => .string s
  | none => .null

/-- The texts of a JSON list. -/
def parseList (v : Value) : List String := (v.asArray.getD []).filterMap Value.asStr

/-- A JSON list of texts. -/
def textList (texts : List String) : Value := .array (texts.map .string)

def sqliteError (cause : String) : String := "sqlite_error:" ++ cause

/-- The report of finished work, with all that its transaction writes. -/
structure Submission where
  number : ℤ
  taskId : String
  agentId : String
  summary : String
  changedFiles : Value
  verification : Value
  resultContract : Option ResultContract
  structuredResult : Option Value
  resultValidation : Option Value
  evidenceRefs : Option Value
  findings : Option Value
  outcome : Option String
  reviewer : Option String
  operationKey : String
  requestDigest : String
  reportId : String
  resultId : String
  outcomeId : String
  reviewUuid : String
  timestamp : String

inductive Statement where
  /-- A query. -/
  | query
  /-- The transaction of `task_claim`. -/
  | claim (assignmentId taskId agentId timestamp : String)
  | release (assignmentId timestamp reason : String)
  /-- The update of the status in `task_unclaim`. -/
  | reopenClaimed (taskId timestamp : String)
  /-- The update of `task_transition`. -/
  | transition (number : ℤ) (status : Status) (timestamp : String) (agent : Option String)
  | report (r : Report)
  /-- The update of `task_report_blocked`. -/
  | defer (taskId timestamp : String)
  /-- The update of `task_closeout`. -/
  | closeout (taskId : String) (status : Status) (timestamp agent mode : String)
  | proof (p : Proof)
  | admission (a : Admission)
  /-- The transaction of `task_finish`. -/
  | finish (s : Submission)

namespace Db

/-- Change the tasks with an id. -/
def updateTask (db : Db) (taskId : String) (set : TaskRow → TaskRow) : Db :=
  { db with tasks := updateWhere (fun t => t.taskId = taskId) set db.tasks }

def setStatus (status : Status) (timestamp : String) (t : TaskRow) : TaskRow :=
  { t with status, revision := t.revision + 1, updatedAt := timestamp }

/-- An assignment as a claim inserts it. -/
def newAssignment (assignmentId taskId agentId timestamp : String) : Assignment where
  assignmentId := assignmentId
  taskId := taskId
  agentId := agentId
  claimedAt := timestamp
  releasedAt := none
  releaseReason := none

/-- The transaction of `task_claim`. -/
def claim (db : Db) (assignmentId taskId agentId timestamp : String) : Except String Db :=
  if ∃ a ∈ db.assignments, a.assignmentId = assignmentId then
    .error (sqliteError "UNIQUE constraint failed: task_assignments.assignment_id")
  else if db.task taskId = none then
    .error (sqliteError "FOREIGN KEY constraint failed")
  else .ok { db.updateTask taskId (setStatus .claimed timestamp) with
    assignments := db.assignments ++ [newAssignment assignmentId taskId agentId timestamp] }

/-- A claim that its transaction lets through. -/
def Accepts (db : Db) (assignmentId taskId : String) : Prop :=
  (∀ a ∈ db.assignments, a.assignmentId ≠ assignmentId) ∧ db.task taskId ≠ none

lemma claim_of_accepts {db : Db} {assignmentId taskId : String} (agentId timestamp : String)
    (h : db.Accepts assignmentId taskId) :
    db.claim assignmentId taskId agentId timestamp =
      .ok { db.updateTask taskId (setStatus .claimed timestamp) with
        assignments := db.assignments ++
          [newAssignment assignmentId taskId agentId timestamp] } := by
  have hnew : ¬ ∃ a ∈ db.assignments, a.assignmentId = assignmentId := by
    rintro ⟨a, ha, heq⟩
    exact h.1 a ha heq
  rw [claim, if_neg hnew, if_neg h.2]

lemma claim_of_not_accepts {db : Db} {assignmentId taskId : String} (agentId timestamp : String)
    (h : ¬ db.Accepts assignmentId taskId) :
    ∃ e, db.claim assignmentId taskId agentId timestamp = .error e := by
  by_cases hnew : ∃ a ∈ db.assignments, a.assignmentId = assignmentId
  · exact ⟨_, by rw [claim, if_pos hnew]⟩
  · have hunknown : db.task taskId = none := by
      by_contra hknown
      refine h ⟨fun a ha heq => hnew ⟨a, ha, heq⟩, hknown⟩
    exact ⟨_, by rw [claim, if_neg hnew, if_pos hunknown]⟩

/-- The assignments that a release closes. -/
def Released (assignmentId : String) (a : Assignment) : Prop :=
  a.assignmentId = assignmentId ∧ a.releasedAt = none

instance (assignmentId : String) : DecidablePred (Released assignmentId) := fun _ =>
  inferInstanceAs (Decidable (_ ∧ _))

def release (db : Db) (assignmentId timestamp reason : String) : Db :=
  { db with
    assignments := updateWhere (Released assignmentId)
      (fun a => { a with releasedAt := some timestamp, releaseReason := some reason })
      db.assignments }

/-- The update of `task_transition`. -/
def transition (db : Db) (number : ℤ) (status : Status) (timestamp : String)
    (agent : Option String) : Db :=
  { db with
    tasks := updateWhere (fun t => t.number = number)
      (fun t => { setStatus status timestamp t with
        reopenedAt := if status = .opened ∧ t.status.Ended then some timestamp else t.reopenedAt
        reopenedBy := if status = .opened ∧ t.status.Ended then agent else t.reopenedBy })
      db.tasks }

/-- The update of `task_closeout`. -/
def closeout (db : Db) (taskId : String) (status : Status) (timestamp agent mode : String) : Db :=
  db.updateTask taskId fun t =>
    { t with
      status
      closedAt := if status = .closed then some timestamp else t.closedAt
      closedBy := if status = .closed then some agent else t.closedBy
      closureMode := if status = .closed then some mode else t.closureMode
      updatedAt := timestamp }

end Db

/-! ### The transaction of a finish -/

section Finish

variable [FloatText]

def OutcomeContract.json (c : OutcomeContract) : Value :=
  .object [("contract_id", .string c.contractId), ("task_id", .string c.taskId),
    ("outcome_type", .string c.outcomeType),
    ("allowed_outcomes_json", .string c.allowedOutcomes.text),
    ("satisfying_outcomes_json", .string c.satisfyingOutcomes.text),
    ("blocking_outcomes_json", .string c.blockingOutcomes.text),
    ("required_fields_json", .string c.requiredFields.text),
    ("capability_requirement", optionText c.capabilityRequirement),
    ("created_by", .string c.createdBy), ("created_at", .string c.createdAt)]

def OutcomeRow.json (o : OutcomeRow) : Value :=
  .object [("outcome_id", .string o.outcomeId), ("task_id", .string o.taskId),
    ("contract_id", .string o.contractId), ("agent_id", .string o.agentId),
    ("outcome", .string o.outcome), ("summary", .string o.summary),
    ("findings_json", .string o.findings.text),
    ("evidence_refs_json", .string o.evidenceRefs.text), ("admitted_at", .string o.admittedAt)]

namespace Submission

/-- The report as JSON. -/
def reportJson (s : Submission) : Value :=
  .object [("report_id", .string s.reportId), ("task_number", .ofInt s.number),
    ("task_id", .string s.taskId), ("agent_id", .string s.agentId),
    ("summary", .string s.summary), ("changed_files", s.changedFiles),
    ("verification", s.verification), ("outcome", optionText s.outcome),
    ("findings", s.findings.getD .null), ("evidence_refs", s.evidenceRefs.getD .null),
    ("result", s.structuredResult.getD .null),
    ("result_validation", s.resultValidation.getD .null)]

/-- The contract that a task without one gets. -/
def completionContract (s : Submission) : OutcomeContract where
  contractId := "contract-completion-" ++ s.taskId
  taskId := s.taskId
  outcomeType := "completion"
  allowedOutcomes := textList ["completed"]
  satisfyingOutcomes := textList ["completed"]
  blockingOutcomes := .array []
  requiredFields := textList ["summary"]
  capabilityRequirement := none
  createdBy := s.agentId
  createdAt := s.timestamp

/-- The outcome of a finish: the one that it names, or the completion of a task that it gives a
contract and a reviewer. -/
def outcomeRow (s : Submission) (contractId : String) (created : Bool) : Option OutcomeRow :=
  if s.outcome.isSome ∨ (created = true ∧ s.reviewer.isSome) then
    some { outcomeId := s.outcomeId, taskId := s.taskId, contractId, agentId := s.agentId
           outcome := s.outcome.getD "completed", summary := s.summary
           findings := s.findings.getD (.array []), evidenceRefs := s.evidenceRefs.getD (.array [])
           admittedAt := s.timestamp }
  else none

/-- The status that a finish gives its task. -/
def newStatus (s : Submission) (outcome : Option OutcomeRow) : Status :=
  if s.reviewer.isSome then .awaitingDependencies
  else if outcome.isSome then .closed
  else .inReview

/-- The task behind a finish. -/
def finished (s : Submission) (outcome : Option OutcomeRow) (t : TaskRow) : TaskRow :=
  if s.newStatus outcome = .closed then
    { Db.setStatus .closed s.timestamp t with
      closedAt := some s.timestamp, closedBy := some s.agentId, closureMode := some "agent_finish" }
  else Db.setStatus (s.newStatus outcome) s.timestamp t

/-- The structured result that a finish writes. -/
def structuredRow (s : Submission) : Option StructuredResult :=
  match s.resultContract, s.structuredResult, s.resultValidation with
  | some contract, some result, some validation =>
      some { resultId := s.resultId, taskId := s.taskId, reportId := s.reportId
             schemaId := contract.schemaId, schemaDigest := contract.schemaDigest, result
             evidenceRefs := s.evidenceRefs.getD (.array []), validation
             admittedAt := s.timestamp }
  | _, _, _ => none

def reviewTaskId (s : Submission) : String := "review-" ++ s.reviewUuid

def reviewContractId (s : Submission) : String := "contract-review-" ++ s.reviewTaskId

def dependencyId (s : Submission) : String := "dep-review-" ++ s.taskId ++ "-" ++ s.reviewTaskId

/-- The task of a reviewer. -/
def reviewTask (s : Submission) (reviewer : String) (number : ℤ) : TaskRow where
  taskId := s.reviewTaskId
  number
  status := .opened
  governedBy := some reviewer
  closedAt := none
  closedBy := none
  closureMode := none
  reopenedAt := none
  reopenedBy := none
  revision := 1
  updatedAt := s.timestamp

/-- What a review may come to. -/
def reviewContract (s : Submission) : OutcomeContract where
  contractId := s.reviewContractId
  taskId := s.reviewTaskId
  outcomeType := "review"
  allowedOutcomes := textList ["accepted", "accepted_with_notes", "rejected"]
  satisfyingOutcomes := textList ["accepted", "accepted_with_notes"]
  blockingOutcomes := textList ["rejected"]
  requiredFields := textList ["summary"]
  capabilityRequirement := some "architect_as_reviewer"
  createdBy := s.agentId
  createdAt := s.timestamp

/-- The task, its contract and the dependency on it by which a finish asks for a review. -/
def requestReview (s : Submission) (db : Db) (reviewer : String) : Except String Db :=
  let number := db.lastAllocated + 1
  if (db.task s.reviewTaskId).isSome then
    .error (sqliteError "UNIQUE constraint failed: task_lifecycle.task_id")
  else if (db.taskNumbered number).isSome then
    .error (sqliteError "UNIQUE constraint failed: task_lifecycle.task_number")
  else if ∃ spec ∈ db.specs, spec.number = number then
    .error (sqliteError "UNIQUE constraint failed: task_specs.task_number")
  else .ok { db with
    lastAllocated := number
    tasks := db.tasks ++ [s.reviewTask reviewer number]
    specs := db.specs ++
      [{ taskId := s.reviewTaskId, number, title := "Review task #" ++ toString s.number
         goal := "Review the submitted work for task #" ++ toString s.number ++ "."
         context := some ("Review outcome for task #" ++ toString s.number ++ ".")
         requiredWork := "Admit an accepted or rejected review outcome."
         nonGoals := "Do not mutate the reviewed work."
         acceptanceCriteria := textList ["A structured review outcome is admitted."]
         tags := .array [] }]
    outcomeContracts := db.outcomeContracts ++ [s.reviewContract]
    dependencies := db.dependencies ++
      [{ dependencyId := s.dependencyId, parentTaskId := s.taskId
         requiredTaskId := s.reviewTaskId, kind := "review"
         satisfyingOutcomes := textList ["accepted", "accepted_with_notes"]
         createdAt := s.timestamp }] }

/-- The dependency on a review as JSON. -/
def reviewJson (s : Submission) (reviewer : String) (number : ℤ) : Value :=
  .object [("status", .string "admitted"), ("dependency_id", .string s.dependencyId),
    ("parent_task_id", .string s.taskId), ("parent_task_number", .ofInt s.number),
    ("required_task_id", .string s.reviewTaskId), ("required_task_number", .ofInt number),
    ("dependency_kind", .string "review"), ("reviewer", .string reviewer),
    ("outcome_contract", .object [("contract_id", .string s.reviewContractId),
      ("allowed_outcomes", textList ["accepted", "accepted_with_notes", "rejected"]),
      ("satisfying_outcomes", textList ["accepted", "accepted_with_notes"])])]

/-- The fields that all answers to a finish have. -/
def answerLead (s : Submission) (status : String) (reviewRequired : Bool) (newStatus : Status) :
    Map :=
  [("status", .string status), ("completion_mode", .string "report"),
    ("task_number", .ofInt s.number), ("task_id", .string s.taskId),
    ("report_id", .string s.reportId), ("review_required", .bool reviewRequired),
    ("new_status", .string newStatus.text)]

/-- The answer to a finish. -/
def answer (s : Submission) (contract : OutcomeContract) (outcome : Option OutcomeRow)
    (reviewNumber : ℤ) : Value :=
  let evidence := .object [("admission_state", .string "not_recorded")]
  let outcomeJson := (outcome.map OutcomeRow.json).getD .null
  match s.reviewer, outcome with
  | some reviewer, _ =>
      .object (s.answerLead "success" true .awaitingDependencies ++
        [("close_action", .string "submitted_for_review"),
          ("review_action", .string "dependency_requested"),
          ("blocked_by", .string "dependencies"),
          ("review_dependency", s.reviewJson reviewer reviewNumber), ("report", s.reportJson),
          ("outcome_contract", contract.json), ("task_outcome", outcomeJson),
          ("outcome_admission", .string (if outcome.isSome then "created" else "not_recorded")),
          ("evidence_state", evidence)])
  | none, some _ =>
      .object (s.answerLead "success" false .closed ++
        [("close_action", .string "closed"), ("report", s.reportJson),
          ("outcome_contract", contract.json), ("task_outcome", outcomeJson),
          ("outcome_admission", .string "created"), ("evidence_state", evidence)])
  | none, none =>
      .object (s.answerLead "submitted" true .inReview ++
        [("close_action", .string "submitted_for_review"),
          ("review_action", .string "reviewer_required"), ("blocked_by", .string "review"),
          ("report", s.reportJson), ("outcome_contract", contract.json),
          ("task_outcome", .null), ("outcome_admission", .string "not_recorded"),
          ("evidence_state", evidence),
          ("remediation", .string ("Provide an admitted distinct reviewer or an explicit " ++
            "outcome contract outcome before closing this task."))])

/-- The report, the result, the contract and the outcome of a finish. -/
def recordReport (s : Submission) (db : Db) (contract : OutcomeContract) (created : Bool)
    (outcome : Option OutcomeRow) : Db :=
  { db with
    reports := db.reports ++
      [{ reportId := s.reportId, taskId := s.taskId, agentId := s.agentId, summary := s.summary
         changedFiles := s.changedFiles, verification := s.verification
         submittedAt := s.timestamp }]
    structuredResults := db.structuredResults ++ s.structuredRow.toList
    outcomeContracts := if created then db.outcomeContracts ++ [contract] else db.outcomeContracts
    outcomes := db.outcomes ++ outcome.toList }

/-- The contract of a task, made where it has none. -/
def contractOf (s : Submission) (db : Db) : OutcomeContract × Bool :=
  match db.outcomeContract s.taskId with
  | some contract => (contract, false)
  | none => (s.completionContract, true)

/-- Whether a contract admits the outcome that a finish names. -/
def Allowed (s : Submission) (contract : OutcomeContract) : Prop :=
  ∀ outcome ∈ s.outcome, outcome ∈ parseList contract.allowedOutcomes

instance (s : Submission) (contract : OutcomeContract) : Decidable (s.Allowed contract) :=
  inferInstanceAs (Decidable (∀ outcome ∈ s.outcome, _))

/-- The task of a finish in its new status, with the review that it asks for. -/
def settle (s : Submission) (db : Db) (outcome : Option OutcomeRow) : Except String Db :=
  match s.reviewer with
  | some reviewer =>
      (s.requestReview db reviewer).map (·.updateTask s.taskId (s.finished outcome))
  | none => .ok (db.updateTask s.taskId (s.finished outcome))

/-- The transaction of `task_finish`. -/
def transact (s : Submission) (db : Db) : Except String (Db × Value) := do
  if s.structuredRow.isSome ∧ ∃ r ∈ db.structuredResults, r.taskId = s.taskId then
    throw (sqliteError "UNIQUE constraint failed: task_structured_results.task_id")
  let (contract, created) := s.contractOf db
  if ¬ s.Allowed contract then throw ("outcome_not_allowed:" ++ s.outcome.getD "")
  let outcome := s.outcomeRow contract.contractId created
  let settled ← s.settle (s.recordReport db contract created outcome) outcome
  if (db.operation s.operationKey).isSome then
    throw (sqliteError "UNIQUE constraint failed: native_task_operations.operation_key")
  let answer := s.answer contract outcome (db.lastAllocated + 1)
  return ({ settled with
    operations := settled.operations ++
      [{ operationKey := s.operationKey, operationKind := "task_finish"
         requestDigest := s.requestDigest, result := answer }] }, answer)

end Submission

/-! ### What a statement does -/

namespace Statement

/-- The database behind a statement and what the statement answers, or why it fails. -/
def exec : Statement → Db → Except String (Db × Value)
  | query, db => .ok (db, .null)
  | claim assignmentId taskId agentId timestamp, db =>
      (db.claim assignmentId taskId agentId timestamp).map (·, .null)
  | release assignmentId timestamp reason, db =>
      .ok (db.release assignmentId timestamp reason,
        .ofNat (db.assignments.filter (Db.Released assignmentId)).length)
  | reopenClaimed taskId timestamp, db =>
      .ok ({ db with
        tasks := updateWhere (fun t => t.taskId = taskId ∧ t.status = .claimed)
          (Db.setStatus .opened timestamp) db.tasks }, .null)
  | transition number status timestamp agent, db =>
      .ok (db.transition number status timestamp agent,
        .ofNat (db.tasks.filter fun t => t.number = number).length)
  | report r, db => .ok ({ db with reports := db.reports ++ [r] }, .null)
  | defer taskId timestamp, db =>
      .ok (db.updateTask taskId fun t =>
        { t with status := .deferred, updatedAt := timestamp }, .null)
  | closeout taskId status timestamp agent mode, db =>
      .ok (db.closeout taskId status timestamp agent mode, .null)
  | proof p, db => .ok ({ db with proofs := db.proofs ++ [p] }, .null)
  | admission a, db => .ok ({ db with admissions := db.admissions ++ [a] }, .null)
  | finish s, db => s.transact db

/-- The database behind a statement, which leaves it where it fails. -/
def apply (st : Statement) (db : Db) : Db :=
  match st.exec db with
  | .ok (behind, _) => behind
  | .error _ => db

/-- What a statement answers. -/
def answer (st : Statement) (db : Db) : Except String Value := (st.exec db).map Prod.snd

end Statement

end Finish

end TaskLifecycle

end McpSurfaces
