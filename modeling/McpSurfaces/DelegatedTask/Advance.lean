import McpSurfaces.DelegatedTask.Workflow
import McpSurfaces.Foundation.Table

/-!
One pass over a task record.

* `Env`: what a pass meets outside of the records: the authority that starts workers and tells of
  their runs, and what is derived from a record (verdicts, texts, the output of a run).
* `advance`: `advance_value_with_roots`, what it leaves to be written, and the workers that it has
  started. A pass that fails writes nothing.

The instruction of a worker, events and times are left out: no modelled function reads them.
-/

namespace McpSurfaces

namespace DelegatedTask

/-- The sizes that limits are set on, in bytes. -/
class RecordSize where
  record : Task → ℕ
  output : Value → ℕ
  refs : List WorkerRef → ℕ

def maxFileBytes : ℕ := 256000

def maxImportedTaskOutputBytes : ℕ := 32000

/-- How a pass ends that writes nothing: with an error, or not at all. -/
inductive Fault where
  | refused (error : Value)
  | endless
deriving DecidableEq, Repr

def errorValue (code : String) : Value :=
  .object [("schema", .string "narada.delegated_task.error.v1"), ("code", .string code),
    ("message", .string code)]

def Fault.of (code : String) : Fault := .refused (errorValue code)

/-- What a pass meets outside of the records. -/
structure Env where
  /-- `worker_run_status` of a run. -/
  workerRunStatus : String → Except Value Value
  /-- `worker_run` for a step, with constraints. -/
  workerRun : String → Value → Except Value Value
  /-- `acceptance_verdict`, with the checks. -/
  acceptance : Task → String × List Value
  /-- `output_contract_verdict`. -/
  outputContract : Task → String
  /-- `objective_verdict`. -/
  objective : Task → String
  /-- The text of `result`. -/
  resultText : Task → String
  /-- `worker_output_from_run_with_required_fields`. -/
  workerOutput : Value → List String → Option Value
  /-- The rounds of the local loop that are waited for. -/
  rounds : ℕ
  /-- The id of a task that is given none: from its key, or a new one. -/
  newId : String
  /-- Whether a workspace is inside of the site. -/
  inside : String → Bool

/-- A worker that is started. -/
structure Launch where
  stepId : String
  runId : String
  constraints : Value
deriving DecidableEq, Repr

/-- The records of the tasks. -/
abbrev Records : Type := List Task

section Pass

variable [RecordSize] (env : Env)

/-! ### Verdicts -/

omit [RecordSize] in
/-- `set_outcome_verdicts`. -/
def setOutcomeVerdicts (task : Task) (acceptance : String) : Task :=
  { task with
    outputContractVerdict := env.outputContract task
    objectiveVerdict := env.objective task
    acceptanceVerdict := acceptance }

/-! ### Other tasks -/

/-- `read_task`. -/
def readTask (db : Records) (id : String) : Except Fault Task :=
  match Table.row Task.taskId db id with
  | none => .error (.of "delegated_task_not_found")
  | some task =>
      if RecordSize.record task ≤ maxFileBytes then .ok task
      else .error (.of "delegated_task_record_too_large")

omit [RecordSize] in
def WorkerOutput.Terminal (o : WorkerOutput) : Prop :=
  o.status = "completed" ∨ o.status = "failed" ∨ o.status = "cancelled" ∨
    o.status = "completed_with_errors"

instance (o : WorkerOutput) : Decidable o.Terminal := inferInstanceAs (Decidable (_ ∨ _))

omit [RecordSize] in
/-- The output that stands for a task: that of its last review, else of its last step. -/
def finalOutput (task : Task) : Option WorkerOutput :=
  let last := fun id => task.workerOutputs.reverse.find? fun o => o.stepId = id ∧ o.Terminal
  let lastOf := fun review : Bool =>
    (task.steps.reverse.filter fun step => decide (Step.kind step = "review") = review).findSome?
      fun step => (Step.id? step).bind last
  ((lastOf true).or (lastOf false)).or (task.workerOutputs.reverse.find? fun o => o.Terminal)

omit [RecordSize] in
/-- `final_structured_output` of `final_step_projection`. -/
def finalStructuredOutput (task : Task) : Value :=
  (((finalOutput task).bind WorkerOutput.output).bind fun output =>
    output.get "structured_output").getD .null

/-- The dependencies of a task that have failed, and those that are waited for. -/
def dependencyStates (db : Records) : List String → Except Fault (List String × List String)
  | [] => .ok ([], [])
  | id :: rest => do
      let predecessor ← readTask db id
      let (blocked, waiting) ← dependencyStates db rest
      match predecessor.status with
      | .completed => return (blocked, waiting)
      | .failed | .cancelled => return (id :: blocked, waiting)
      | _ => return (blocked, id :: waiting)

/-- The outputs that are imported, or the first dependency that has none. -/
def importOutputs (db : Records) :
    ℕ → List String → Except Fault (Except String (List Value) × ℕ)
  | total, [] => .ok (.ok [], total)
  | total, id :: rest => do
      let predecessor ← readTask db id
      let output := finalStructuredOutput predecessor
      if output = .null then return (.error id, total)
      let total := total + RecordSize.output output
      if maxImportedTaskOutputBytes < total then throw (.of "imported_task_outputs_too_large")
      let (others, total) ← importOutputs db total rest
      return (others.map (.object [("task_id", .string id),
        ("source_ref", .string ("delegated-task://" ++ id ++ "/result#final_structured_output")),
        ("structured_output", output)] :: ·), total)

def importRefs (db : Records) :
    ℕ → List String → Except Fault (List (String × List WorkerRef))
  | _, [] => .ok []
  | total, id :: rest => do
      let predecessor ← readTask db id
      let total := total + RecordSize.refs predecessor.workerRefs
      if maxImportedTaskOutputBytes < total then throw (.of "imported_task_outputs_too_large")
      let others ← importRefs db total rest
      return (id, predecessor.workerRefs) :: others

omit [RecordSize] in
/-- A step that is pending is blocked. -/
def StepState.block (blocked : List String) (s : StepState) : StepState :=
  if s.status = .pending then { s with status := .blocked, blockedByExternalTasks := blocked } else s

omit [RecordSize] in
/-- The steps that are pending are blocked. -/
def blockPending (blocked : List String) (task : Task) : Task :=
  { task with
    states := task.states.map fun entry => (entry.1, entry.2.block blocked) }

/-- `external_dependency_gate`: whether the pass goes on. -/
def externalDependencyGate (db : Records) (task : Task) : Except Fault (Bool × Task) :=
  if task.dependsOnTaskIds = [] then .ok (true, { task with externalStatus := .resolved })
  else do
    let (blocked, waiting) ← dependencyStates db task.dependsOnTaskIds
    if blocked ≠ [] then
      let failed := { blockPending blocked task with externalStatus := .blocked, status := .failed }
      return (false, setOutcomeVerdicts env failed "failed")
    else if waiting ≠ [] then return (false, { task with externalStatus := .waiting })
    else if task.externalStatus = .resolved then return (true, task)
    else
      let (outputs, total) ← importOutputs db 0 task.importTaskOutputs
      match outputs with
      | .error _ =>
          let failed := { task with externalStatus := .blocked, status := .failed }
          return (false, setOutcomeVerdicts env failed "failed")
      | .ok outputs =>
          let refs ← importRefs db total task.importWorkerRefs
          return (true,
            { task with
              importedTaskOutputs := outputs
              importedWorkerRefs := refs
              externalStatus := .resolved })

/-! ### Workers that run -/

section

omit [RecordSize]

/-- `required_field_names`. -/
def requiredFieldNames (value : Option Value) : List String :=
  (((value.bind Value.asArray).getD []).filterMap fun item =>
    item.asStr.or ((item.get "name").bind Value.asStr)).reverse.dedup.reverse

/-- `acceptance_required_fields`. -/
def acceptanceRequiredFields (task : Task) : List String :=
  (["required_fields", "requested_fields", "required"].map fun field =>
    requiredFieldNames (task.acceptance.get field)).find? (· ≠ []) |>.getD []

/-- `required_contract_fields` of a step. -/
def requiredContractFields (task : Task) (stepId : String) : List String :=
  (task.steps.filter fun step => Step.id? step = some stepId).foldl
    (fun fields step =>
      (requiredFieldNames (step.pointer ["output_schema", "required"])).foldl
        (fun fields field => if field ∈ fields then fields else fields ++ [field]) fields)
    (acceptanceRequiredFields task)

/-- The runtime has said that a run is over. -/
def Confirmed (run : Value) : Prop :=
  (run.get "terminal_event").bind Value.asBool = some true ∨
    (run.get "completion_state").bind Value.asStr = some "complete" ∨
    (run.get "phase").bind Value.asStr = some "completed"

end

instance (run : Value) : Decidable (Confirmed run) := inferInstanceAs (Decidable (_ ∨ _))

omit [RecordSize] in
/-- A run with a phase that the runtime has not said to be over. -/
def RuntimeTerminalMissing (run : Value) : Prop := (run.get "phase").isSome ∧ ¬ Confirmed run

instance (run : Value) : Decidable (RuntimeTerminalMissing run) :=
  inferInstanceAs (Decidable (_ ∧ _))

omit [RecordSize] in
/-- The output that a run is recorded with. -/
def recordedOutput (required : List String) (run : Value) : Option Value :=
  if RuntimeTerminalMissing run then
    some (.object [("summary_text", .null), ("worker_runtime_incomplete", .bool true),
      ("structured_output_error", .object
        [("code", .string "worker_runtime_incomplete_output"),
          ("message", .string "terminal worker event was not observed")]),
      ("truncated", .bool false)])
  else (env.workerOutput run required).or
    (if required = [] then none
      else some (.object [("summary_text", .null), ("structured_output_required", .bool true),
        ("structured_output_error", .object
          [("code", .string "worker_structured_output_required"),
            ("required_fields", .array (required.map .string))]),
        ("truncated", .bool false)]))

omit [RecordSize] in
/-- `structured_output_contract_failed`. -/
def ContractFailed (output : Option Value) (required : List String) : Prop :=
  required ≠ [] ∧ ∀ value ∈ output, value.get "structured_output_required" = some (.bool true)

instance (output : Option Value) (required : List String) :
    Decidable (ContractFailed output required) :=
  @instDecidableAnd _ _ _ (by cases output <;> infer_instance)

section

omit [RecordSize]

/-- The first reference to a run is closed. -/
def closeRef (runId : String) (close : WorkerRef → WorkerRef) : List WorkerRef → List WorkerRef
  | [] => []
  | ref :: rest =>
      if ref.runId = runId then close ref :: rest else ref :: closeRef runId close rest

/-- The status that a run is recorded with. -/
def effectiveStatus (task : Task) (stepId status : String) (run : Value) : String :=
  let required := requiredContractFields task stepId
  if ContractFailed (recordedOutput env required run) required ∨ RuntimeTerminalMissing run then
    "failed"
  else status

/-- `record_worker_terminal`. -/
def recordWorkerTerminal (task : Task) (stepId runId status : String) (run : Value) : Task :=
  let required := requiredContractFields task stepId
  let output := recordedOutput env required run
  let contract := if ContractFailed output required then "failed" else "passed"
  let effective := effectiveStatus env task stepId status run
  let error := (run.get "error").filter (· ≠ .null)
  let recorded := task.setStep stepId fun s =>
    { s with
      workerStatus := some effective
      workerOutputContract := some contract
      workerOutput := output.or s.workerOutput }
  { recorded with
    workerRefs := closeRef runId
      (fun ref =>
        { ref with status := effective, output := output.or ref.output, error := error.or ref.error })
      task.workerRefs
    workerOutputs := task.workerOutputs.filter (fun o => o.runId ≠ runId) ++
      [{ stepId := stepId, runId := runId, status := effective, output := output,
         error := run.get "error" }] }

/-- A worker that has ended without success. -/
def endedBadly (worker : String) : Prop :=
  worker = "failed" ∨ worker = "cancelled" ∨ worker = "completed_with_errors" ∨
    worker = "orphaned"

end

instance (worker : String) : Decidable (endedBadly worker) := inferInstanceAs (Decidable (_ ∨ _))

section

omit [RecordSize]

/-- The run of a step. -/
def currentRun (task : Task) (stepId : String) : String :=
  ((task.stepField stepId "current_run_id").bind Value.asStr).getD ""

/-- The status of the worker in what `worker_run_status` answers. -/
def workerOf (answer : Value) : String :=
  ((answer.pointer ["run", "status"]).bind Value.asStr).getD "running"

def runOf (answer : Value) : Value := (answer.get "run").getD .null

/-- A step has failed, and the task with it. -/
def failStep (task : Task) (stepId : String) : Task :=
  let failed := { task with status := .failed }
  setOutcomeVerdicts env (failed.setStep stepId fun s => { s with status := .failed }) "failed"

/-- The attempts of a step. -/
def attemptsOf (task : Task) (stepId : String) : ℕ :=
  ((task.states.get stepId).map StepState.attempts).getD 1

/-- What becomes of a step whose worker is told of. -/
def settleWorker (task : Task) (stepId runId : String) (answer : Value) : Task :=
  let worker := workerOf answer
  let recorded := recordWorkerTerminal env task stepId runId worker (runOf answer)
  if worker = "completed" then
    if (recorded.stepField stepId "worker_output_contract").bind Value.asStr = some "failed" then
      failStep env recorded stepId
    else recorded.setStep stepId fun s => { s with status := .completed }
  else if endedBadly worker then
    if attemptsOf recorded stepId ≤ recorded.maxRetries then
      recorded.setStep stepId fun s => { s with status := .pending, currentRunId := none }
    else failStep env recorded stepId
  else task

/-- A step that runs is asked about. -/
def pollStep (task : Task) (stepId : String) : Except Fault Task :=
  if task.Reads stepId .running then
    match env.workerRunStatus (currentRun task stepId) with
    | .error e => .error (.refused e)
    | .ok answer => .ok (settleWorker env task stepId (currentRun task stepId) answer)
  else .ok task

def pollSteps : List String → Task → Except Fault Task
  | [], task => .ok task
  | id :: rest, task => (pollStep env task id).bind (pollSteps rest)

/-- The verdicts behind the polls. -/
def reviewed (task : Task) : Task :=
  let (acceptance, checks) := env.acceptance task
  { setOutcomeVerdicts env task (if task.Terminal then acceptance else "pending") with
    acceptanceChecks := checks }

end

/-! ### Steps that need no worker -/

omit [RecordSize] in
/-- A dependency that a step waits for no longer. -/
def Passed (task : Task) (dependency : String) : Prop :=
  task.Reads dependency .completed ∨ task.Reads dependency .skipped ∨ task.Reads dependency .noted

omit [RecordSize] in
/-- A dependency that a step waits for in vain. -/
def Broken (task : Task) (dependency : String) : Prop :=
  task.Reads dependency .failed ∨ task.Reads dependency .blocked

instance (task : Task) (dependency : String) : Decidable (Passed task dependency) :=
  inferInstanceAs (Decidable (_ ∨ _))

instance (task : Task) (dependency : String) : Decidable (Broken task dependency) :=
  inferInstanceAs (Decidable (_ ∨ _))

omit [RecordSize] in
/-- The condition of a step. -/
def Passes (task : Task) (step : Value) : Prop :=
  conditionPasses (env.resultText task) task (Step.condition step) = true

instance (task : Task) (step : Value) : Decidable (Passes env task step) :=
  inferInstanceAs (Decidable (_ = _))

section

omit [RecordSize]

/-- What a step becomes without a worker, where it becomes something. -/
def settleStep (task : Task) (step : Value) : Option Task :=
  match Step.id? step with
  | none => none
  | some id =>
      if ¬ task.Reads id .pending then none
      else
        let blockers := (Step.dependsOn step).filter (Broken task ·)
        if blockers ≠ [] then
          some (task.setStep id fun s => { s with status := .blocked, blockedBy := blockers })
        else if ¬ ∀ dependency ∈ Step.dependsOn step, Passed task dependency then none
        else if ¬ Passes env task step then
          some (task.setStep id fun s => { s with status := .skipped })
        else if Step.Local step then
          some (task.setStep id fun s =>
            { s with status := if Step.kind step = "note" then .noted else .completed })
        else none

/-- One round over the steps, and whether it has changed something. -/
def settleRound : List Value → Task → Task × Bool
  | [], task => (task, false)
  | step :: rest, task =>
      match settleStep env task step with
      | none => settleRound rest task
      | some task => ((settleRound rest task).1, true)

/-- The rounds, until one changes nothing. -/
def settle : ℕ → Task → Except Fault Task
  | 0, _ => .error .endless
  | rounds + 1, task =>
      let (next, progress) := settleRound env task.steps task
      if progress then settle rounds next else .ok next

end

/-! ### Workers are started -/

omit [RecordSize] in
/-- A step that may run. -/
def Ready (task : Task) (step : Value) : Prop :=
  (∀ dependency ∈ Step.dependsOn step, Passed task dependency) ∧ Passes env task step

instance (task : Task) (step : Value) : Decidable (Ready env task step) :=
  inferInstanceAs (Decidable (_ ∧ _))

section

omit [RecordSize]

/-- `ready_step_ids`. -/
def readyStepIds (task : Task) : List String :=
  task.steps.filterMap fun step =>
    (Step.id? step).bind fun id =>
      if task.Reads id .pending ∧ Ready env task step then some id else none

/-- How many steps run. -/
def activeCount (task : Task) : ℕ :=
  (task.stepIds.filter fun id => task.Reads id .running).length

/-- A worker is recorded as started. -/
def recordStarted (task : Task) (stepId kind runId : String) : Task :=
  let started := task.setStep stepId fun s =>
    { s with
      status := .running
      attempts := s.attempts + 1
      currentRunId := some runId
      runIds := s.runIds ++ [runId] }
  { started with
    status := .running
    workerRefs := task.workerRefs ++
      [{ stepId := stepId, stepKind := kind, runId := runId, status := "running", output := none,
         error := none }] }

def runIdOf (run : Value) : String := ((run.get "run_id").bind Value.asStr).getD ""

/-- Workers are started for the steps that are ready, as many as may run. -/
def launchAll : List String → ℕ → Task → Except Fault Task × List Launch
  | [], _, task => (.ok task, [])
  | id :: rest, active, task =>
      match task.steps.find? fun step => Step.id? step = some id with
      | none => launchAll rest active task
      | some step =>
          if Step.Local step ∨ task.maxConcurrency ≤ active then launchAll rest active task
          else
            let constraints := asynchronousWorkerConstraints task.constraints step
            match env.workerRun id constraints with
            | .error e => (.error (.refused e), [])
            | .ok run =>
                let (result, launches) :=
                  launchAll rest (active + 1) (recordStarted task id (Step.kind step) (runIdOf run))
                (result, { stepId := id, runId := runIdOf run, constraints := constraints } :: launches)

end

/-! ### The end of a task -/

omit [RecordSize] in
/-- The task ends where no step is left. -/
def finish (task : Task) : Task :=
  if task.stepIds ≠ [] ∧ ∀ id ∈ task.stepIds, Passed task id then
    let candidate := { task with status := .completed }
    let (verdict, checks) := env.acceptance candidate
    let judged := { setOutcomeVerdicts env candidate verdict with acceptanceChecks := checks }
    { judged with
      status := if verdict = "failed" ∨ env.outputContract judged = "failed" then .failed
        else .completed }
  else if (∃ id ∈ task.stepIds, Broken task id) ∧
      ¬ ∃ id ∈ task.stepIds, task.Reads id .pending ∨ task.Reads id .running then
    setOutcomeVerdicts env { task with status := .failed } "failed"
  else task

/-! ### The pass -/

section

omit [RecordSize]

/-- A step with its constraints normalized. -/
def normalizeStep (step : Value) : Value :=
  match step, step.get "constraints" with
  | .object fields, some constraints =>
      .object (OrderedMap.insert fields "constraints"
        (.object (normalizedConstraints (some constraints))))
  | step, _ => step

/-- `normalize_persisted_constraints`. -/
def normalizePersistedConstraints (task : Task) : Task :=
  { task with
    constraints := .object (normalizedConstraints (some task.constraints))
    steps := task.steps.map normalizeStep }

/-- The pass behind the gate. -/
def schedule (task : Task) : Except Fault Task × List Launch :=
  match pollSteps env task.stepIds task with
  | .error e => (.error e, [])
  | .ok polled =>
      let task := reviewed env polled
      if task.status = .failed then (.ok task, [])
      else match settle env env.rounds task with
        | .error e => (.error e, [])
        | .ok settled =>
            let (result, launches) :=
              launchAll env (readyStepIds env settled) (activeCount settled) settled
            (result.map (finish env), launches)

end

/-- `advance_value_with_roots`. -/
def advance (db : Records) (task : Task) : Except Fault Task × List Launch :=
  let task := normalizePersistedConstraints task
  if task.Terminal then (.ok task, [])
  else match externalDependencyGate env db task with
    | .error e => (.error e, [])
    | .ok (false, task) => (.ok task, [])
    | .ok (true, task) => schedule env task

end Pass

end DelegatedTask

end McpSurfaces
