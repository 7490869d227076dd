import McpSurfaces.Foundation.Table
import McpSurfaces.Sop.Values

/-!
The tables of the SOP surface: templates, runs with the states of their steps, handoffs to
agents and operators, actions, and the outbox of terminal runs with its consumers.

* A template says which steps a procedure has, what they depend on and what executes them.
* A run is an occurrence of a template. Its steps are pending, running, or over (completed,
  failed, skipped).
* A running step of an agent or an operator has a handoff, which a consumer claims under a
  lease; a running step of an action has an action; one of a child procedure has a child run.
* A terminal run has an event in the outbox, which each registered consumer acknowledges.
-/

namespace McpSurfaces

namespace Sop

open EventLedger (Digest)

/-! ### Statuses -/

inductive Executor where
  | engine
  | agent
  | operator
  | sop
  | action
deriving DecidableEq, Repr

namespace Executor

def text : Executor → String
  | engine => "engine"
  | agent => "agent"
  | operator => "operator"
  | sop => "sop"
  | action => "action"

def ofText : String → Option Executor
  | "engine" => some engine
  | "agent" => some agent
  | "operator" => some operator
  | "sop" => some sop
  | "action" => some action
  | _ => none

/-- Whether somebody outside has to complete the step. -/
def Manual (e : Executor) : Prop := e = agent ∨ e = operator

instance : DecidablePred Manual := fun _ => inferInstanceAs (Decidable (_ ∨ _))

end Executor

inductive StepStatus where
  | pending
  | running
  | completed
  | failed
  | skipped
deriving DecidableEq, Repr

namespace StepStatus

def text : StepStatus → String
  | pending => "pending"
  | running => "running"
  | completed => "completed"
  | failed => "failed"
  | skipped => "skipped"

/-- Whether a step that depends on one with this status may start. -/
def Satisfied (s : StepStatus) : Prop := s = completed ∨ s = skipped

instance : DecidablePred Satisfied := fun _ => inferInstanceAs (Decidable (_ ∨ _))

/-- Whether the step is over. -/
def Over (s : StepStatus) : Prop := s = completed ∨ s = failed ∨ s = skipped

instance : DecidablePred Over := fun _ => inferInstanceAs (Decidable (_ ∨ _))

end StepStatus

inductive RunStatus where
  | pending
  | running
  | completed
  | failed
  | cancelled
  | awaitingConfirmation
deriving DecidableEq, Repr

namespace RunStatus

def text : RunStatus → String
  | pending => "pending"
  | running => "running"
  | completed => "completed"
  | failed => "failed"
  | cancelled => "cancelled"
  | awaitingConfirmation => "awaiting_confirmation"

/-- `is_run_terminal`. -/
def Terminal (s : RunStatus) : Prop := s = completed ∨ s = failed ∨ s = cancelled

instance : DecidablePred Terminal := fun _ => inferInstanceAs (Decidable (_ ∨ _))

end RunStatus

inductive HandoffStatus where
  | pending
  | leased
  | completed
  | failed
  | cancelled
deriving DecidableEq, Repr

def HandoffStatus.text : HandoffStatus → String
  | pending => "pending"
  | leased => "leased"
  | completed => "completed"
  | failed => "failed"
  | cancelled => "cancelled"

inductive ActionStatus where
  | pending
  | completed
  | failed
  | cancelled
deriving DecidableEq, Repr

def ActionStatus.text : ActionStatus → String
  | pending => "pending"
  | completed => "completed"
  | failed => "failed"
  | cancelled => "cancelled"

/-- How a handoff or an action is completed. -/
inductive Outcome where
  | completed
  | failed
deriving DecidableEq, Repr

namespace Outcome

def text : Outcome → String
  | completed => "completed"
  | failed => "failed"

def ofText : String → Option Outcome
  | "completed" => some completed
  | "failed" => some failed
  | _ => none

def step : Outcome → StepStatus
  | completed => .completed
  | failed => .failed

def handoff : Outcome → HandoffStatus
  | completed => .completed
  | failed => .failed

def action : Outcome → ActionStatus
  | completed => .completed
  | failed => .failed

end Outcome

/-! ### Templates -/

/-- What a step of an action calls. -/
structure ActionBinding where
  surfaceId : String
  toolName : String
  arguments : Value
  idempotencyKeyArgument : String

def ActionBinding.json (a : ActionBinding) : Value :=
  .object [("surface_id", .string a.surfaceId), ("tool_name", .string a.toolName),
    ("arguments", a.arguments), ("idempotency_key_argument", .string a.idempotencyKeyArgument)]

/-- A step of a template, as `validate_steps` returns it. -/
structure TemplateStep where
  id : String
  executor : Executor
  title : String
  dependsOn : List String
  instructions : String
  when : Value
  input : Value
  inputRef : Value
  resultSchema : Value
  action : Option ActionBinding
  sopId : Option String
  sopVersion : Option ℕ

/-- An optional version as JSON. -/
def optionNat : Option ℕ → Value
  | some n => .ofNat n
  | none => .null

/-- `wait_policy`: a parent waits for its child. -/
def waitPolicy (e : Executor) : Value := if e = .sop then .string "wait" else .null

/-- The binding of a step as JSON. -/
def actionJson (a : Option ActionBinding) : Value := (a.map ActionBinding.json).getD .null

def TemplateStep.json (s : TemplateStep) : Value :=
  .object [("id", .string s.id), ("executor", .string s.executor.text),
    ("blocking", .bool (decide s.executor.Manual)), ("title", .string s.title),
    ("depends_on", .array (s.dependsOn.map .string)), ("instructions", .string s.instructions),
    ("when", s.when), ("input", s.input), ("input_ref", s.inputRef),
    ("result_schema", s.resultSchema), ("action", actionJson s.action),
    ("sop_id", optionText s.sopId), ("sop_version", optionNat s.sopVersion),
    ("wait_policy", waitPolicy s.executor), ("legacy_command", .null)]

inductive TemplateStatus where
  | draft
  | active
  | deprecated
deriving DecidableEq, Repr

/-- A row of `sop_templates`. -/
structure Template where
  sopId : String
  version : ℕ
  title : String
  status : TemplateStatus
  steps : List TemplateStep
  inputSchema : Value
  output : Value
  outputRef : Value
  outputSchema : Value
  acceptanceCriteria : List String
  evidenceRequirements : List String

/-- `executable_definition`. -/
def Template.definition (t : Template) : Value :=
  .object [("schema", .string "narada.sop.definition.v2"), ("sop_id", .string t.sopId),
    ("version", .ofNat t.version), ("title", .string t.title),
    ("steps", .array (t.steps.map TemplateStep.json)), ("input_schema", t.inputSchema),
    ("output", t.output), ("output_ref", t.outputRef), ("output_schema", t.outputSchema),
    ("acceptance_criteria", .array (t.acceptanceCriteria.map .string)),
    ("evidence_requirements", .array (t.evidenceRequirements.map .string))]

/-! ### Steps of a run -/

/-- The state of a step of a run. -/
structure StepState where
  stepId : String
  executor : Executor
  title : String
  status : StepStatus
  dependsOn : List String
  instructions : String
  when : Value
  input : Value
  inputRef : Value
  resultSchema : Value
  action : Option ActionBinding
  sopId : Option String
  sopVersion : Option ℕ
  pinnedChildDefinitionFingerprint : Option String
  childRunId : Option String
  actionId : Option String
  startedAt : Option String
  completedAt : Option String
  result : Map
  resultRef : Value
  completionKey : Option String
  completionFingerprint : Option String
  errorMessage : Option String

namespace StepState

def json (s : StepState) : Value :=
  .object [("step_id", .string s.stepId), ("executor", .string s.executor.text),
    ("blocking", .bool (decide s.executor.Manual)), ("title", .string s.title),
    ("status", .string s.status.text), ("depends_on", .array (s.dependsOn.map .string)),
    ("instructions", .string s.instructions), ("when", s.when), ("input", s.input),
    ("input_ref", s.inputRef), ("result_schema", s.resultSchema),
    ("action", actionJson s.action), ("sop_id", optionText s.sopId),
    ("sop_version", optionNat s.sopVersion), ("wait_policy", waitPolicy s.executor),
    ("pinned_child_definition_fingerprint", optionText s.pinnedChildDefinitionFingerprint),
    ("child_run_id", optionText s.childRunId), ("action_id", optionText s.actionId),
    ("started_at", optionText s.startedAt), ("completed_at", optionText s.completedAt),
    ("result", .object s.result), ("result_ref", s.resultRef),
    ("completion_key", optionText s.completionKey),
    ("completion_fingerprint", optionText s.completionFingerprint),
    ("error_message", optionText s.errorMessage)]

/-- The step behind its column: the values in it were written and read back. -/
def reread [FloatRead] (s : StepState) : StepState :=
  { s with
    when := s.when.reread, input := s.input.reread, inputRef := s.inputRef.reread
    resultSchema := s.resultSchema.reread
    action := s.action.map fun a => { a with arguments := a.arguments.reread }
    result := Value.rereadFields s.result, resultRef := s.resultRef.reread }

/-- `fail_step`. -/
def fail (s : StepState) (message now : String) : StepState :=
  { s with status := .failed, completedAt := some now, errorMessage := some message }

/-- `skip_step`. -/
def skip (s : StepState) (reason now : String) : StepState :=
  { s with
    status := .skipped, completedAt := some now, result := [("reason", .string reason)]
    errorMessage := none }

end StepState

/-- The states of the steps as JSON. -/
def stepsJson (steps : List StepState) : Value := .array (steps.map StepState.json)

/-! ### Runs -/

/-- A row of `sop_runs`. -/
structure Run where
  runId : String
  sopId : String
  sopVersion : ℕ
  sopTitle : String
  status : RunStatus
  occurrenceKey : String
  requestFingerprint : String
  definitionFingerprint : String
  definition : Value
  input : Value
  inputRef : Value
  output : Value
  outputRef : Value
  steps : List StepState
  triggerSourceKind : String
  triggerSourceRef : String
  triggeredBy : String
  parentRunId : Option String
  parentStepId : Option String
  createdAt : String
  updatedAt : String
  completedAt : Option String

/-! ### Handoffs and actions -/

/-- A row of `sop_handoffs`. -/
structure Handoff where
  handoffId : String
  runId : String
  stepId : String
  occurrenceKey : String
  sopId : String
  sopVersion : ℕ
  executor : Executor
  title : String
  instructions : String
  input : Value
  inputRef : Value
  resultSchema : Value
  requestFingerprint : String
  status : HandoffStatus
  leaseOwner : Option String
  leaseToken : Option String
  leaseExpiresAt : Option String
  attemptCount : ℕ
  lastError : Option String
  completionKey : Option String
  completionFingerprint : Option String
  principal : Option String
  result : Value
  resultRef : Value
  errorMessage : Option String
  createdAt : String
  updatedAt : String
  completedAt : Option String
deriving DecidableEq

/-- A row of `sop_actions`. -/
structure Action where
  actionId : String
  runId : String
  stepId : String
  occurrenceKey : String
  surfaceId : String
  toolName : String
  arguments : Value
  requestFingerprint : String
  status : ActionStatus
  completionKey : Option String
  completionFingerprint : Option String
  operationRef : Option String
  result : Value
  resultRef : Value
  errorMessage : Option String
  createdAt : String
  updatedAt : String
  completedAt : Option String

/-! ### The outbox -/

/-- `SOP_TERMINAL_TOPIC`. -/
def terminalTopic : String := "sop.run.terminal.v1"

/-- A row of `sop_outbox`. -/
structure OutboxEvent where
  eventId : String
  topic : String
  partitionKey : String
  runId : String
  sopId : String
  sopVersion : ℕ
  occurrenceKey : String
  outcome : RunStatus
  payload : Value
  createdAt : String
  availableAt : String
  compactedAt : Option String

/-- A row of `sop_outbox_consumer_requirements`. -/
structure Requirement where
  topic : String
  consumerId : String
  startAt : String
  registeredAt : String

/-- A row of `sop_outbox_receipts`. -/
structure Receipt where
  eventId : String
  consumerId : String
  processedAt : String
  receipt : Value

/-! ### The store -/

/-- The tables. -/
structure Store where
  templates : List Template
  runs : List Run
  handoffs : List Handoff
  actions : List Action
  outbox : List OutboxEvent
  requirements : List Requirement
  receipts : List Receipt

namespace Store

/-- A prepared store. -/
def empty : Store := ⟨[], [], [], [], [], [], []⟩

/-- The row of a run. -/
def run (s : Store) (id : String) : Option Run := Table.row (·.runId) s.runs id

/-- The row of a handoff. -/
def handoff (s : Store) (id : String) : Option Handoff := Table.row (·.handoffId) s.handoffs id

/-- The row of an action. -/
def action (s : Store) (id : String) : Option Action := Table.row (·.actionId) s.actions id

/-- The row of an event. -/
def event (s : Store) (id : String) : Option OutboxEvent := Table.row (·.eventId) s.outbox id

/-- The event of a run. -/
def eventOfRun (s : Store) (runId : String) : Option OutboxEvent :=
  Table.row (·.runId) s.outbox runId

/-- The row of a consumer of a topic. -/
def requirement (s : Store) (topic consumer : String) : Option Requirement :=
  Table.row (fun r => (r.topic, r.consumerId)) s.requirements (topic, consumer)

/-- The receipt of a consumer for an event. -/
def receipt (s : Store) (event consumer : String) : Option Receipt :=
  Table.row (fun r => (r.eventId, r.consumerId)) s.receipts (event, consumer)

end Store

/-- Work on the tables. -/
abbrev Db (α : Type) := Work Store Stop α

end Sop

end McpSurfaces
