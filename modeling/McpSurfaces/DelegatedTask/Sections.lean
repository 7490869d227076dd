import McpSurfaces.DelegatedTask.Advance
import McpSurfaces.Foundation.Calls

/-!
What is done under the lock of a task, and runs of it.

* `Section`: a task is run, advanced or cancelled. `delegated_task_status` and `delegated_task_wait`
  advance a task and those that it depends on, each under its own lock: a call is some sections one
  after another, and calls of several processes are an interleaving of sections. A call with a
  validated request has the arguments of that request; a call that is refused for its site, and an
  acknowledgement, change nothing that is modelled.
* `World`: the records, and the workers that have been started for each task.
-/

namespace McpSurfaces

namespace DelegatedTask

/-! ### Dependencies on other tasks -/

/-- `authority_rank`. -/
def authorityRank : Option String → ℕ
  | some "read" => 0
  | some "write" => 1
  | some "command" => 2
  | _ => 0

/-- The rank of the authority in constraints. -/
def rankOf (constraints : Value) : ℕ := authorityRank ((constraints.get "authority").bind Value.asStr)

/-- `safe_id`. -/
def SafeId (id : String) : Prop :=
  id ≠ "" ∧ id.length ≤ 120 ∧ ∀ c ∈ id.toList, c.isAlphanum ∨ c = '-' ∨ c = '_'

instance (id : String) : Decidable (SafeId id) :=
  letI := List.decidableBAll (fun c : Char => c.isAlphanum ∨ c = '-' ∨ c = '_') id.toList
  inferInstanceAs (Decidable (_ ∧ _))

/-- A list of texts, where it is one. -/
def textArray (value : Option Value) : Option (List String) :=
  match value with
  | none => some []
  | some value =>
      value.asArray.bind fun items =>
        if (items.filterMap Value.asStr).length = items.length then
          some (items.filterMap Value.asStr)
        else none

section Sections

variable [RecordSize]

/-- `dependency_reaches`, to a depth; the tasks that have been seen are not gone through again. -/
def dependencyReaches (db : Records) (target : String) :
    ℕ → String → List String → Bool × List String
  | depth, start, seen =>
      if start = target then (true, seen)
      else if start ∈ seen then (false, seen)
      else match depth, readTask db start with
        | depth + 1, .ok task =>
            task.dependsOnTaskIds.foldl
              (fun reached dependency =>
                if reached.1 then reached else dependencyReaches db target depth dependency reached.2)
              (false, start :: seen)
        | _, _ => (false, start :: seen)

/-- What is said against one dependency. -/
def dependencyDiagnostics (db : Records) (taskId : String) (rank : ℕ) :
    List String → List String → List Value
  | _, [] => []
  | unique, id :: rest =>
      if ¬ SafeId id then
        diagnostic "dependency_task_id_invalid" [("task_id", .string id)] ::
          dependencyDiagnostics db taskId rank unique rest
      else if id = taskId then
        diagnostic "task_dependency_cycle" [("task_id", .string taskId)] ::
          dependencyDiagnostics db taskId rank unique rest
      else if id ∈ unique then
        diagnostic "duplicate_dependency_task_id" [("task_id", .string id)] ::
          dependencyDiagnostics db taskId rank unique rest
      else
        (if (Table.row Task.taskId db id).isNone then
          [diagnostic "dependency_task_not_found" [("task_id", .string id)]]
        else match readTask db id with
          | .error _ => []
          | .ok predecessor =>
              (if (dependencyReaches db taskId (db.length + 1) id []).1 then
                [diagnostic "task_dependency_cycle"
                  [("task_id", .string taskId), ("via", .string id)]]
              else []) ++
              (if rankOf predecessor.constraints < rank then
                [diagnostic "dependency_authority_escalation" [("task_id", .string id)]]
              else [])) ++
        dependencyDiagnostics db taskId rank (id :: unique) rest

/-- What is said against the imports of one kind. -/
def importDiagnostics (field : String) (imports : Option (List String)) (dependencies : List String) :
    List Value :=
  match imports with
  | none => [diagnostic (field ++ "_must_be_string_array") []]
  | some imports => (imports.filter (· ∉ dependencies)).map fun id =>
      diagnostic "task_import_must_name_declared_dependency"
        [("field", .string field), ("task_id", .string id)]

/-- `external_dependency_diagnostics`. -/
def externalDependencyDiagnostics (db : Records) (taskId : String) (args : Value) : List Value :=
  let declared := textArray (args.get "depends_on_task_ids")
  let dependencies := declared.getD []
  (if declared.isNone then [diagnostic "depends_on_task_ids_must_be_string_array" []] else []) ++
    dependencyDiagnostics db taskId (rankOf ((args.get "constraints").getD .null)) [] dependencies ++
    ["import_task_outputs", "import_worker_refs"].flatMap fun field =>
      importDiagnostics field (textArray (args.get field)) dependencies

/-! ### A task is accepted -/

section

omit [RecordSize]

/-- `stable_task_id`. -/
def stableTaskId (env : Env) (args : Value) : String :=
  ((args.get "task_id").bind Value.asStr).getD env.newId

/-- The steps that a workflow is accepted with. -/
def workflowOf (args : Value) : List Value := normalizeWorkflow (args.get "workflow")

/-- The objective of `validate`. -/
def objectiveGiven (args : Value) : Prop := ¬ BlankText (args.get "objective")

end

instance (args : Value) : Decidable (objectiveGiven args) := inferInstanceAs (Decidable (¬ _))

/-- The diagnostics of `validate_with_options`. -/
def validateDiagnostics (env : Env) (db : Records) (args : Value) : List Value :=
  workflowDiagnostics (workflowOf args) ++
    constraintDiagnostics (args.get "constraints") "constraints" ++
    ((workflowOf args).mapIdx fun index step => constraintDiagnostics (step.get "constraints")
      (itemLocus "workflow.steps" index ++ ".constraints")).flatten ++
    (if objectiveGiven args then [] else [diagnostic "objective_required" []]) ++
    (if ((((args.get "execution_binding").bind fun binding =>
        binding.get "workspace_root").bind Value.asStr).all env.inside) then []
      else [diagnostic "execution_binding_workspace_outside_site_root" []]) ++
    externalDependencyDiagnostics db (stableTaskId env args) args

section

omit [RecordSize]

/-- A number of an execution, between bounds. -/
def executionNumber (input : Value) (field : String) (default low high : ℕ) : Value :=
  .ofNat (min (max (((input.get field).bind Value.asU64).getD default) low) high)

def executionFlag (input : Value) (field : String) : Option Bool :=
  (input.get field).bind Value.asBool

/-- `normalized_execution`. -/
def normalizedExecution (value : Option Value) : Value :=
  let input := value.getD .null
  let waits := executionFlag input "wait_for_completion" = some true
  .object [("start", .bool (executionFlag input "start" ≠ some false)),
    ("wait_for_completion", .bool waits),
    ("timeout_ms", executionNumber input "timeout_ms" (if waits then 30000 else 0) 0 600000),
    ("poll_ms", executionNumber input "poll_ms" 5000 50 30000),
    ("resumable", .bool (executionFlag input "resumable" ≠ some false)),
    ("exit_interview", .bool (executionFlag input "exit_interview" = some true)),
    ("max_concurrency", executionNumber input "max_concurrency" 10 1 32),
    ("max_retries", executionNumber input "max_retries" 0 0 10)]

/-- `objective`. -/
def objectiveOf (args : Value) : Option String :=
  ((((args.get "objective").or ((args.get "intent").bind fun intent =>
    intent.get "objective")).bind Value.asStr).map Str.trim).filter (· ≠ "")

/-- The record that is written for a task. -/
def newTask (id objective : String) (args : Value) : Task where
  taskId := id
  status := .acceptedForExecution
  objective := objective
  constraints := .object (normalizedConstraints (args.get "constraints"))
  steps := workflowOf args
  execution := normalizedExecution (args.get "execution")
  acceptance := (args.get "acceptance").getD (.object [])
  dependsOnTaskIds := (textArray (args.get "depends_on_task_ids")).getD []
  importTaskOutputs := (textArray (args.get "import_task_outputs")).getD []
  importWorkerRefs := (textArray (args.get "import_worker_refs")).getD []
  externalStatus := .pending
  states := initialStepStates (workflowOf args)
  workerRefs := []
  workerOutputs := []
  importedTaskOutputs := []
  importedWorkerRefs := []
  outputContractVerdict := "pending"
  objectiveVerdict := "pending"
  acceptanceVerdict := "pending"
  acceptanceChecks := []

end

/-- A task that is not there, as it is accepted. -/
def created (env : Env) (db : Records) (args : Value) : Except Fault Task :=
  let id := stableTaskId env args
  if ¬ SafeId id then .error (.of "delegated_task_id_invalid")
  else match objectiveOf args with
    | none => .error (.of "delegated_task_requires_objective")
    | some objective =>
        match validateDiagnostics env db args with
        | [] => .ok (newTask id objective args)
        | diagnostics => .error (.refused (.object
            [("schema", .string "narada.delegated_task.error.v1"),
              ("code", .string "delegated_task_validation_failed"),
              ("message", .string "delegated_task_validation_failed"),
              ("diagnostics", .array diagnostics)]))

/-! ### Sections -/

/-- The records, and the workers that have been started, each with its task. -/
structure World where
  tasks : Records
  started : List (String × Launch)
deriving DecidableEq

/-- What is done under the lock of a task. -/
inductive Section where
  | run (env : Env) (args : Value)
  | advance (env : Env) (id : String)
  | cancel (id : String)

omit [RecordSize] in
/-- `write_task`, of a task that is there. -/
def writeTask (task : Task) (db : Records) : Records :=
  Table.updateWhere (fun other => other.taskId = task.taskId) (fun _ => task) db

/-- A pass over a record, and what becomes of it. -/
def World.pass (env : Env) (task : Task) (w : World) : World :=
  let (result, launches) := DelegatedTask.advance env w.tasks task
  { tasks := match result with
      | .ok next => writeTask next w.tasks
      | .error _ => w.tasks
    started := w.started ++ launches.map fun launch => (task.taskId, launch) }

/-- A task that is there is read and advanced. -/
def World.advance (env : Env) (id : String) (w : World) : World :=
  match readTask w.tasks id with
  | .error _ => w
  | .ok task => w.pass env task

/-- A task is accepted, and started where it is to start. -/
def World.accept (env : Env) (task : Task) (w : World) : World :=
  let written := { w with tasks := w.tasks ++ [task] }
  if (task.execution.get "start").bind Value.asBool = some false then written
  else written.pass env task

/-- `task_run_with_roots`. -/
def World.run (env : Env) (args : Value) (w : World) : World :=
  if (Table.row Task.taskId w.tasks (stableTaskId env args)).isSome then
    if (args.get "objective").isNone ∧ (args.get "intent").isNone then
      w.advance env (stableTaskId env args)
    else w
  else match created env w.tasks args with
    | .error _ => w
    | .ok task => w.accept env task

/-- `task_cancel`, also of `delegated_task_parent_takeover`. -/
def World.cancel (id : String) (w : World) : World :=
  match readTask w.tasks id with
  | .error _ => w
  | .ok task =>
      if task.Terminal then w
      else { w with tasks := writeTask { task with status := .cancelled } w.tasks }

/-- What a section leaves. -/
def World.after (w : World) : Section → World
  | .run env args => w.run env args
  | .advance env id => w.advance env id
  | .cancel id => w.cancel id

omit [RecordSize] in
/-- Nothing is there. -/
def World.empty : World := { tasks := [], started := [] }

end Sections

/-! ### A small surrounding -/

/-- What a pass meets where nothing is derived from a record. -/
def Env.plain (workerRunStatus : String → Except Value Value)
    (workerRun : String → Value → Except Value Value) : Env where
  workerRunStatus := workerRunStatus
  workerRun := workerRun
  acceptance := fun _ => ("pending", [])
  outputContract := fun _ => "not_applicable"
  objective := fun _ => "pending"
  resultText := fun _ => ""
  workerOutput := fun _ _ => none
  rounds := 8
  newId := "task_0"
  inside := fun _ => true

/-- A run that `worker_run` answers with. -/
def startedAs (runId : String) : Except Value Value := .ok (.object [("run_id", .string runId)])

/-- A run that `worker_run_status` tells of. -/
def toldAs (status : String) : Except Value Value :=
  .ok (.object [("run", .object [("status", .string status)])])

/-- The arguments of a task with some steps. -/
def argsOf (taskId : String) (steps : List Value) : Value :=
  .object [("task_id", .string taskId), ("objective", .string "o"),
    ("workflow", .object [("steps", .array steps)])]

def stepOf (id kind : String) (more : Map) : Value :=
  .object ([("id", .string id), ("kind", .string kind)] ++ more)

/-- Records are small. -/
@[reducible]
def smallRecords : RecordSize where
  record := fun _ => 1000
  output := fun _ => 100
  refs := fun _ => 100

/-- Two steps that wait for nothing. -/
def twoSteps : Value := argsOf "t" [stepOf "a" "worker" [], stepOf "b" "worker" []]

/-- Runs are started for all steps, and one of them has ended. -/
def endedAs (runId status : String) : Env :=
  .plain (fun run => toldAs (if run = runId then status else "running"))
    fun id _ => startedAs ("run-" ++ id)

end DelegatedTask

end McpSurfaces
