import McpSurfaces.Sop.Mapping

/-!
How rows of runs, handoffs and actions are read and written. A row that is read is checked
against the fingerprints it carries; an insertion is checked by the constraints of its table.
-/

namespace McpSurfaces

namespace Sop

open EventLedger (Digest)

variable [FloatText] [FloatRead] [Digest] [IsoTime]

/-- `now_iso`. -/
def nowIso (env : Env) : Except Stop String := formatIso env.now

/-! ### Updates -/

namespace Store

def updateRun (s : Store) (id : String) (set : Run → Run) : Store :=
  { s with runs := Table.updateWhere (·.runId = id) set s.runs }

def updateHandoffs (s : Store) (p : Handoff → Prop) [DecidablePred p] (set : Handoff → Handoff) :
    Store :=
  { s with handoffs := Table.updateWhere p set s.handoffs }

def updateActions (s : Store) (p : Action → Prop) [DecidablePred p] (set : Action → Action) :
    Store :=
  { s with actions := Table.updateWhere p set s.actions }

def updateOutbox (s : Store) (p : OutboxEvent → Prop) [DecidablePred p]
    (set : OutboxEvent → OutboxEvent) : Store :=
  { s with outbox := Table.updateWhere p set s.outbox }

end Store

/-! ### Runs -/

/-- `validate_step_graph`, of the identities of the steps and what they depend on. -/
def validateStepGraph (steps : List (String × List String)) : Except Stop Unit := do
  if steps = [] ∨ 128 < steps.length then throw (refusal "sop_step_count_invalid")
  if (∃ s ∈ steps, s.1 = "") ∨ ¬ (steps.map Prod.fst).Nodup then
    throw (refusal "sop_duplicate_step_id")
  if ∃ s ∈ steps, ∃ dependency ∈ s.2, dependency ∉ steps.map Prod.fst then
    throw (refusal "sop_unknown_dependency")

/-- What a run was asked to do. -/
def admissionRequest (sopId : String) (sopVersion : ℕ) (occurrenceKey : String)
    (input inputRef : Value) (triggerSourceKind triggerSourceRef triggeredBy : String)
    (parentRunId parentStepId : Option String) : Value :=
  .object [("sop_id", .string sopId), ("sop_version", .ofNat sopVersion),
    ("occurrence_key", .string occurrenceKey), ("input", input), ("input_ref", inputRef),
    ("trigger_source_kind", .string triggerSourceKind),
    ("trigger_source_ref", .string triggerSourceRef), ("triggered_by", .string triggeredBy),
    ("parent_run_id", optionText parentRunId), ("parent_step_id", optionText parentStepId)]

/-- A definition is the one that a run was pinned to. -/
def checkDefinition (definition : Value) (recorded sopId : String) (sopVersion : ℕ) (runId : String) :
    Except Stop Unit := do
  if recorded ≠ "" then
    if (definition.get "schema").bind Value.asStr ≠ some "narada.sop.definition.v2" ∨
        (definition.get "sop_id").bind Value.asStr ≠ some sopId ∨
        (definition.get "version").bind Value.asI64 ≠ some (sopVersion : ℤ) then
      throw (refusalOf "sop_definition_identity_mismatch" runId)
    if fingerprint definition ≠ recorded then
      throw (refusalOf "sop_definition_fingerprint_mismatch" runId)

/-- A request is the one that a run was admitted with. -/
def checkRequest (request : Value) (recorded runId : String) : Except Stop Unit :=
  if recorded ≠ "" ∧ fingerprint request ≠ recorded then
    .error (refusalOf "sop_request_fingerprint_mismatch" runId)
  else .ok ()

/-- `hydrate_run`. -/
def hydrateRun (r : Run) : Except Stop Run := do
  let runId ← requiredText r.runId "sop_run_corrupt" 512
  let sopId ← requiredText r.sopId "sop_run_corrupt" 256
  if r.sopVersion < 1 then throw (refusal "sop_run_corrupt")
  -- the column of the states is one value
  if parserDepth < (stepsJson r.steps).depth then throw (refusalOf "sop_run_corrupt" runId)
  validateStepGraph (r.steps.map fun s => (s.stepId, s.dependsOn))
  let inputRef ← normalizeValueRef (some r.inputRef) "sop_input_ref"
  let parentRunId := optionalText r.parentRunId
  let parentStepId := optionalText r.parentStepId
  checkDefinition r.definition r.definitionFingerprint sopId r.sopVersion runId
  checkRequest
    (admissionRequest sopId r.sopVersion r.occurrenceKey r.input inputRef r.triggerSourceKind
      r.triggerSourceRef r.triggeredBy parentRunId parentStepId)
    r.requestFingerprint runId
  let sopTitle ← requiredText r.sopTitle "sop_run_corrupt" 512
  let outputRef ← normalizeValueRef (some r.outputRef) "sop_output_ref"
  let createdAt ← requiredText r.createdAt "sop_run_corrupt" 512
  let updatedAt ← requiredText r.updatedAt "sop_run_corrupt" 512
  return { r with
    runId, sopId, inputRef, parentRunId, parentStepId, sopTitle, outputRef, createdAt, updatedAt
    completedAt := optionalText r.completedAt }

/-- `get_run`. -/
def getRun (id : String) : Db Run := do
  match (← Work.store).run id with
  | none => throw (refusalOf "sop_run_not_found" id)
  | some r => Work.ofExcept (hydrateRun r)

/-- The row of a run that was saved. -/
def Run.saved (row run : Run) (now : String) : Run :=
  { row with
    status := run.status, output := column run.output, outputRef := column run.outputRef
    steps := run.steps.map StepState.reread, updatedAt := now, completedAt := run.completedAt }

/-- `persist_run`. -/
def persistRun (env : Env) (run : Run) : Db Run := do
  Work.ofExcept (assertBound (stepsJson run.steps) "sop_run_state" maxRunStateBytes)
  let now ← Work.ofExcept (nowIso env)
  Work.write fun s => s.updateRun run.runId (·.saved run now)
  return { run with updatedAt := now }

/-- `insert into sop_runs`. -/
def insertRun (r : Run) : Db Unit := do
  let s ← Work.store
  if ∃ other ∈ s.runs, other.runId = r.runId ∨
      other.sopId = r.sopId ∧ other.occurrenceKey = r.occurrenceKey ∧ r.occurrenceKey ≠ "" then
    throw (.refused ⟨"sop_run_insert_failed", "UNIQUE constraint failed: sop_runs"⟩)
  Work.write fun s => { s with runs := s.runs ++ [r] }

/-! ### Handoffs -/

/-- What makes the work of a step one: the run and the step. -/
def stepIdentity (runId stepId : String) : String := runId ++ "\x00" ++ stepId

/-- What a handoff asks for. -/
def handoffRequest (runId stepId sopId : String) (sopVersion : ℕ) (executor : Executor)
    (title instructions : String) (input inputRef resultSchema : Value) : Value :=
  .object [("run_id", .string runId), ("step_id", .string stepId), ("sop_id", .string sopId),
    ("sop_version", .ofNat sopVersion), ("executor", .string executor.text),
    ("title", .string title), ("instructions", .string instructions), ("input", input),
    ("input_ref", inputRef), ("result_schema", resultSchema)]

/-- How a handoff was completed. -/
def handoffCompletion (completionKey : String) (outcome principal : String) (result resultRef : Value)
    (errorMessage : Option String) : Value :=
  .object [("completion_key", .string completionKey), ("outcome", .string outcome),
    ("principal", .string principal), ("result", result), ("result_ref", resultRef),
    ("error_message", optionText errorMessage)]

/-- The lease of a handoff is there when it is leased, and only then. -/
def checkLease (status : HandoffStatus) (owner token expires : Option String) : Except Stop Unit :=
  if status = .leased then
    if owner = none ∨ token = none ∨ expires = none then .error (refusal "sop_handoff_lease_corrupt")
    else .ok ()
  else if owner ≠ none ∨ token ≠ none ∨ expires ≠ none then
    .error (refusal "sop_handoff_lease_corrupt")
  else .ok ()

/-- The completion of a handoff is there when it is completed or failed, and only then. -/
def checkCompletion (status : HandoffStatus) (key recorded principal : Option String)
    (result resultRef : Value) (errorMessage : Option String) : Except Stop Unit :=
  match recorded, key, principal with
  | some recorded, some key, some principal =>
      if status ≠ .completed ∧ status ≠ .failed then
        .error (refusal "sop_handoff_completion_identity_invalid")
      else if recorded ≠
          fingerprint (handoffCompletion key status.text principal result resultRef errorMessage) then
        .error (refusal "sop_handoff_completion_fingerprint_mismatch")
      else .ok ()
  | none, none, none =>
      if status = .completed ∨ status = .failed then
        .error (refusal "sop_handoff_completion_identity_invalid")
      else .ok ()
  | _, _, _ => .error (refusal "sop_handoff_completion_identity_invalid")

/-- `hydrate_handoff`. -/
def hydrateHandoff (h : Handoff) : Except Stop Handoff := do
  let runId ← requiredText h.runId "sop_handoff_corrupt" 512
  let stepId ← requiredText h.stepId "sop_handoff_corrupt" 512
  let handoffId ← requiredText h.handoffId "sop_handoff_corrupt" 512
  let occurrenceKey ← requiredText h.occurrenceKey "sop_handoff_corrupt" 512
  if handoffId ≠ deterministicId "soh_" (stepIdentity runId stepId) ∨
      occurrenceKey ≠ deterministicId "sop_handoff_" (stepIdentity runId stepId) then
    throw (refusal "sop_handoff_identity_mismatch")
  let sopId ← requiredText h.sopId "sop_handoff_corrupt" 512
  if h.sopVersion < 1 then throw (refusal "sop_handoff_corrupt")
  if ¬ h.executor.Manual then throw (refusal "sop_handoff_executor_invalid")
  let title ← requiredText h.title "sop_handoff_corrupt" 512
  let instructions ← requiredText h.instructions "sop_handoff_corrupt" (16 * 1024)
  let requestFingerprint ← requiredText h.requestFingerprint "sop_handoff_corrupt" 512
  if requestFingerprint ≠ fingerprint (handoffRequest runId stepId sopId h.sopVersion h.executor
      title instructions h.input h.inputRef h.resultSchema) then
    throw (refusal "sop_handoff_request_fingerprint_mismatch")
  let leaseOwner := optionalText h.leaseOwner
  let leaseToken := optionalText h.leaseToken
  let leaseExpiresAt := optionalText h.leaseExpiresAt
  checkLease h.status leaseOwner leaseToken leaseExpiresAt
  let completionKey := optionalText h.completionKey
  let completionFingerprint := optionalText h.completionFingerprint
  let principal := optionalText h.principal
  if h.result.asObject = none then throw (refusal "sop_handoff_result_corrupt")
  let errorMessage := optionalText h.errorMessage
  checkCompletion h.status completionKey completionFingerprint principal h.result h.resultRef
    errorMessage
  let createdAt ← requiredText h.createdAt "sop_handoff_corrupt" 512
  let updatedAt ← requiredText h.updatedAt "sop_handoff_corrupt" 512
  return { h with
    runId, stepId, handoffId, occurrenceKey, sopId, title, instructions, requestFingerprint
    leaseOwner, leaseToken, leaseExpiresAt, completionKey, completionFingerprint, principal
    errorMessage, createdAt, updatedAt
    lastError := optionalText h.lastError, completedAt := optionalText h.completedAt }

/-- `get_handoff`. -/
def getHandoff (id : String) : Db Handoff := do
  match (← Work.store).handoff id with
  | none => throw (refusal "sop_handoff_not_found")
  | some h => Work.ofExcept (hydrateHandoff h)

/-- `insert into sop_handoffs`. -/
def insertHandoff (h : Handoff) : Db Unit := do
  let s ← Work.store
  if (∃ other ∈ s.handoffs, other.handoffId = h.handoffId ∨ other.occurrenceKey = h.occurrenceKey ∨
        other.runId = h.runId ∧ other.stepId = h.stepId) ∨
      s.run h.runId = none ∨ 16384 < byteLength h.instructions ∨
      16384 < h.input.bytes then
    throw (.refused ⟨"sop_handoff_insert_failed", "constraint failed: sop_handoffs"⟩)
  Work.write fun s => { s with handoffs := s.handoffs ++ [h] }

/-! ### Actions -/

/-- What an action asks for. -/
def actionRequest (surfaceId toolName : String) (arguments : Value) : Value :=
  .object [("surface_id", .string surfaceId), ("tool_name", .string toolName),
    ("arguments", arguments)]

/-- How an action was completed. -/
def actionCompletion (completionKey outcome operationRef : String) (result resultRef : Value)
    (errorMessage : Option String) : Value :=
  .object [("completion_key", .string completionKey), ("outcome", .string outcome),
    ("operation_ref", .string operationRef), ("result", result), ("result_ref", resultRef),
    ("error_message", optionText errorMessage)]

/-- The completion of an action is there when it is completed or failed, and only then. -/
def checkActionCompletion (status : ActionStatus) (key recorded operationRef : Option String)
    (result resultRef : Value) (errorMessage : Option String) : Except Stop Unit :=
  match recorded, key, operationRef with
  | some recorded, some key, some operationRef =>
      if status ≠ .completed ∧ status ≠ .failed then
        .error (refusal "sop_action_completion_identity_invalid")
      else if recorded ≠
          fingerprint (actionCompletion key status.text operationRef result resultRef errorMessage) then
        .error (refusal "sop_action_completion_fingerprint_mismatch")
      else .ok ()
  | none, none, none =>
      if status = .completed ∨ status = .failed then
        .error (refusal "sop_action_completion_identity_invalid")
      else .ok ()
  | _, _, _ => .error (refusal "sop_action_completion_identity_invalid")

/-- `hydrate_action`. -/
def hydrateAction (a : Action) : Except Stop Action := do
  let actionId ← requiredText a.actionId "sop_action_corrupt" 512
  let runId ← requiredText a.runId "sop_action_corrupt" 512
  let stepId ← requiredText a.stepId "sop_action_corrupt" 512
  let occurrenceKey ← requiredText a.occurrenceKey "sop_action_corrupt" 512
  let surfaceId ← requiredText a.surfaceId "sop_action_corrupt" 256
  let toolName ← requiredText a.toolName "sop_action_corrupt" 256
  if a.arguments.asObject = none then throw (refusal "sop_action_corrupt")
  assertBound a.arguments "sop_action_arguments" maxInlineValueBytes
  let requestFingerprint ← requiredText a.requestFingerprint "sop_action_corrupt" 512
  if actionId ≠ deterministicId "soa_" (stepIdentity runId stepId) ∨
      occurrenceKey ≠ deterministicId "sop_action_" (stepIdentity runId stepId) then
    throw (refusalOf "sop_action_identity_mismatch" actionId)
  if requestFingerprint ≠ fingerprint (actionRequest surfaceId toolName a.arguments) then
    throw (refusalOf "sop_action_request_fingerprint_mismatch" actionId)
  let completionKey := optionalText a.completionKey
  let completionFingerprint := optionalText a.completionFingerprint
  let operationRef := optionalText a.operationRef
  if a.result.asObject = none then throw (refusal "sop_action_corrupt")
  let resultRef ← normalizeValueRef (some a.resultRef) "sop_result_ref"
  let errorMessage := optionalText a.errorMessage
  checkActionCompletion a.status completionKey completionFingerprint operationRef a.result resultRef
    errorMessage
  return { a with
    actionId, runId, stepId, occurrenceKey, surfaceId, toolName, requestFingerprint
    completionKey, completionFingerprint, operationRef, resultRef, errorMessage }

/-- `get_action`. -/
def getAction (id : String) : Db Action := do
  match (← Work.store).action id with
  | none => throw (refusalOf "sop_action_not_found" id)
  | some a => Work.ofExcept (hydrateAction a)

/-- `insert into sop_actions`. -/
def insertAction (a : Action) : Db Unit := do
  let s ← Work.store
  if ∃ other ∈ s.actions, other.actionId = a.actionId ∨ other.occurrenceKey = a.occurrenceKey ∨
      other.runId = a.runId ∧ other.stepId = a.stepId then
    throw (.refused ⟨"sop_action_insert_failed", "UNIQUE constraint failed: sop_actions"⟩)
  Work.write fun s => { s with actions := s.actions ++ [a] }

end Sop

end McpSurfaces
