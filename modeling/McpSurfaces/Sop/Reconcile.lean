import McpSurfaces.Sop.Admission

/-!
Reconciliation of a run: running steps look at the work they wait for, pending steps start or
fail with what they depend on, until nothing moves; then the run takes its status.

* A pass goes over the steps in their order; `Pass` is the run in memory, whether it has changed
  and whether another pass is due.
* A step of a child procedure reconciles the child run in place (`recur`). The runs that are being
  reconciled are on the stack.
* What stops the start of a pending step fails the step. What was written before stays.
-/

namespace McpSurfaces

namespace Sop

open EventLedger (Digest)

variable [FloatText] [FloatRead] [Digest] [IsoTime] [JsonSchema]

/-! ### Passes -/

/-- A run in memory, and what a pass has done to it. -/
structure Pass where
  run : Run
  changed : Bool
  progress : Bool

/-- The run with another state of a step. -/
def Run.setStep (run : Run) (index : ℕ) (step : StepState) : Run :=
  { run with steps := run.steps.set index step }

/-- A step has moved. -/
def Pass.move (p : Pass) (index : ℕ) (step : StepState) : Pass :=
  ⟨p.run.setStep index step, true, true⟩

/-- The procedure that reconciles a run, under the runs on the stack. -/
abbrev Recur := String → List String → Db Run

/-! ### Running steps -/

/-- A step of an agent or an operator: its handoff is there. -/
def reconcileManual (env : Env) (p : Pass) (index : ℕ) (step : StepState) : Db Pass := do
  let h ← ensureHandoffIntent env p.run step none
  if step.result.get "handoff_id" = some (.string h.handoffId) then return p
  let named := step.result.insert "handoff_id" (.string h.handoffId)
  let result := named.insert "handoff_occurrence_key" (.string h.occurrenceKey)
  return { p with run := p.run.setStep index { step with result }, changed := true }

/-- The key of the occurrence of a child. -/
def childOccurrenceKey (parent : Run) (stepId : String) : String :=
  deterministicId "sop_child_" (parent.occurrenceKey ++ "\x00" ++ stepIdentity parent.runId stepId)

/-- `assert_child_run_binding`. -/
def assertChildRunBinding (parent : Run) (step : StepState) (child : Run) : Except Stop Unit := do
  if child.parentRunId ≠ some parent.runId ∨ child.parentStepId ≠ some step.stepId ∨
      step.sopId ≠ some child.sopId ∨ step.sopVersion ≠ some child.sopVersion ∨
      child.occurrenceKey ≠ childOccurrenceKey parent step.stepId then
    throw (refusalOf "sop_child_run_binding_mismatch" (parent.runId ++ ":" ++ step.stepId))
  if step.pinnedChildDefinitionFingerprint ≠ some child.definitionFingerprint then
    throw (refusalOf "sop_child_definition_pin_mismatch" step.stepId)

/-- What the result of a step says of its child. -/
def childResult (child : Run) : Map :=
  [("child_run_id", .string child.runId), ("child_sop_id", .string child.sopId),
    ("child_sop_version", .ofNat child.sopVersion), ("child_status", .string child.status.text)]

/-- A step that is completed with a result. -/
def StepState.finish (s : StepState) (completedAt : String) (result : Map) (resultRef : Value) :
    StepState :=
  { s with
    status := .completed, completedAt := some completedAt, errorMessage := none, result, resultRef }

/-- `complete_step_with_bounded_run_state`: the step is completed with its full result, or failed
with the compact one where the states would be too large. -/
def completeStepWithBoundedRunState (run : Run) (index : ℕ) (step : StepState)
    (completedAt now : String) (full : Map) (resultRef : Value) (compact : Map) : Except Stop Run :=
  let completed := step.finish completedAt full resultRef
  match assertBound (stepsJson (run.setStep index completed).steps) "sop_run_state" maxRunStateBytes with
  | .ok () => .ok (run.setStep index completed)
  | .error _ => do
      let failed := completed.fail "sop_run_state_too_large:sop_run_state_too_large" now
      let omitted := { failed with result := compact.insert "inline_result_omitted" (.bool true) }
      assertBound (stepsJson (run.setStep index omitted).steps) "sop_run_state" maxRunStateBytes
      return run.setStep index omitted

/-- What a schema finds wrong with a result. -/
def schemaFault (schema value : Value) : Except Stop (Option Diagnostic) :=
  match validateSchema schema value "sop_step_result_schema_mismatch" with
  | .ok () => .ok none
  | .error (.refused d) => .ok (some d)
  | .error .crashed => .error .crashed

/-- A step of a child procedure: the child is reconciled, and when it is over so is the step. -/
def reconcileChild (env : Env) (recur : Recur) (stack : List String) (p : Pass) (index : ℕ)
    (step : StepState) : Db Pass := do
  match step.childRunId with
  | none => return p
  | some childRunId => do
      let _ ← recur childRunId stack
      let child ← getRun childRunId
      Work.ofExcept (assertChildRunBinding p.run step child)
      let now ← Work.ofExcept (nowIso env)
      match child.status with
      | .completed => do
          match ← Work.ofExcept (schemaFault step.resultSchema child.output) with
          | some d => return p.move index (step.fail d.text now)
          | none => do
              let full := childResult child ++ [("output", child.output)]
              let run ← Work.ofExcept (completeStepWithBoundedRunState p.run index step
                (child.completedAt.getD now) now full child.outputRef (childResult child))
              return ⟨run, true, true⟩
      | .failed | .cancelled =>
          let message := "child_sop_" ++ child.status.text ++ ":" ++ child.runId
          return p.move index { step.fail message now with result := childResult child }
      | _ => return p

/-- `assert_action_run_binding`. -/
def assertActionRunBinding (run : Run) (step : StepState) (a : Action) : Except Stop Unit :=
  if step.actionId = some a.actionId ∧ a.runId = run.runId ∧ a.stepId = step.stepId ∧
      step.action.map (·.surfaceId) = some a.surfaceId ∧
      step.action.map (·.toolName) = some a.toolName then .ok ()
  else .error (refusalOf "sop_action_run_binding_mismatch" (run.runId ++ ":" ++ step.stepId))

/-- What the result of a step says of its action. -/
def actionResult (a : Action) : Map :=
  [("action_id", .string a.actionId), ("operation_ref", optionText a.operationRef),
    ("surface_id", .string a.surfaceId), ("tool_name", .string a.toolName)]

/-- The result of an action with what is said of it. -/
def fullActionResult (a : Action) : Map :=
  (actionResult a).foldl (fun result e => OrderedMap.insert result e.1 e.2)
    ((a.result.asObject).getD [])

/-- A step that failed with its action. -/
def StepState.failAction (s : StepState) (a : Action) (message now : String) : StepState :=
  { s.fail message now with result := actionResult a, resultRef := a.resultRef }

/-- A step of an action: when the action is over so is the step. -/
def reconcileAction (env : Env) (p : Pass) (index : ℕ) (step : StepState) : Db Pass := do
  match step.actionId with
  | none => return p
  | some actionId => do
      let a ← ensureActionIntent env p.run step
      if a.actionId ≠ actionId then
        throw (refusalOf "sop_action_run_binding_mismatch" (p.run.runId ++ ":" ++ step.stepId))
      Work.ofExcept (assertActionRunBinding p.run step a)
      let now ← Work.ofExcept (nowIso env)
      match a.status with
      | .completed => do
          match ← Work.ofExcept (schemaFault step.resultSchema a.result) with
          | some d => return p.move index (step.failAction a d.text now)
          | none => do
              let run ← Work.ofExcept (completeStepWithBoundedRunState p.run index step
                (a.completedAt.getD now) now (fullActionResult a) a.resultRef (actionResult a))
              return ⟨run, true, true⟩
      | .failed | .cancelled =>
          let message := a.errorMessage.getD ("action_" ++ a.status.text ++ ":" ++ a.actionId)
          return p.move index (step.failAction a message now)
      | .pending => return p

/-- One step of `reconcile_running_steps`. -/
def reconcileRunningStep (env : Env) (recur : Recur) (stack : List String) (p : Pass) (index : ℕ) :
    Db Pass :=
  match p.run.steps[index]? with
  | none => return p
  | some step =>
      if step.status ≠ .running then return p
      else match step.executor with
        | .agent | .operator => reconcileManual env p index step
        | .sop => reconcileChild env recur stack p index step
        | .action => reconcileAction env p index step
        | .engine => return p

/-- `reconcile_running_steps`. -/
def reconcileRunningSteps (env : Env) (recur : Recur) (stack : List String) (run : Run) : Db Pass :=
  (List.range run.steps.length).foldlM (reconcileRunningStep env recur stack) ⟨run, false, false⟩

/-! ### Pending steps -/

/-- What a child is admitted with. -/
def childArguments (parent : Run) (stepId sopId : String) (version : ℕ) (input inputRef : Value) :
    Map :=
  [("sop_id", .string sopId), ("sop_version", .ofNat version),
    ("occurrence_key", .string (childOccurrenceKey parent stepId)), ("input", input),
    ("input_ref", inputRef), ("trigger_source_kind", .string "parent_sop_step"),
    ("trigger_source_ref", .string (parent.runId ++ ":" ++ stepId)),
    ("triggered_by", .string ("sop:" ++ parent.runId))]

/-- `start_child_run`. -/
def startChildRun (env : Env) (recur : Recur) (stack : List String) (parent : Run)
    (step : StepState) : Db Run := do
  let childSopId ← Work.ofExcept
    (requiredString (step.sopId.map .string) "sop_step_requires_pinned_child" 256)
  let version ← Work.ofExcept (match step.sopVersion with
    | some (n + 1) => .ok (n + 1)
    | _ => .error (refusalOf "sop_step_requires_pinned_child" step.stepId))
  let context := valueContext parent
  let input ← Work.ofExcept (resolveOptional step.input (.object []) context)
  Work.ofExcept (assertBound input "sop_input" maxInlineValueBytes)
  if input.asObject = none then
    throw (refusalOf "sop_child_input_must_be_object" step.stepId)
  let inputRef ← Work.ofExcept (resolveReference step.inputRef context "sop_input_ref")
  let args := childArguments parent step.stepId childSopId version input inputRef
  let (child, _) ← admitRun env args (some parent.runId) (some step.stepId)
  Work.ofExcept (assertChildRunBinding parent step child)
  let _ ← recur child.runId stack
  getRun child.runId

/-- Work that fails a step where it is refused. -/
def orFail (step : StepState) (now : String) (work : Db StepState) : Db StepState :=
  work.handle fun stop => match stop with
    | .refused d => return step.fail d.text now
    | .crashed => throw .crashed

/-- What a started step asks for. -/
def launchStep (env : Env) (recur : Recur) (stack : List String) (run : Run) (step : StepState)
    (started : StepState) (instructions now : String) : Db StepState := do
  match step.executor with
  | .engine => return { started with status := .completed, completedAt := some now, result := [] }
  | .agent | .operator => do
      let h ← ensureHandoffIntent env run step (some instructions)
      return { started with
        status := .running
        result := [("instructions", .string instructions), ("handoff_id", .string h.handoffId),
          ("handoff_occurrence_key", .string h.occurrenceKey)] }
  | .action => do
      let a ← ensureActionIntent env run step
      return { started with
        status := .running, actionId := some a.actionId
        result := [("instructions", .string instructions), ("action_id", .string a.actionId),
          ("occurrence_key", .string a.occurrenceKey), ("surface_id", .string a.surfaceId),
          ("tool_name", .string a.toolName)] }
  | .sop => do
      let child ← startChildRun env recur stack run step
      return { started with
        status := .running, childRunId := some child.runId
        result := ("instructions", .string instructions) :: childResult child ++
          [("wait_policy", .string "wait")] }

/-- The start of a step whose dependencies are satisfied. -/
def startStep (env : Env) (recur : Recur) (stack : List String) (run : Run) (step : StepState)
    (now : String) : Db StepState := do
  let context := valueContext run
  if ¬ (← Work.ofExcept (evaluateCondition context step.when)) then
    return step.skip "condition_false" now
  let instructions ← Work.ofExcept (renderInstructions step.instructions context)
  let started := { step with startedAt := some now }
  orFail started now (launchStep env recur stack run step started instructions now)

/-- The status of a step of a run. -/
def Run.statusOf (run : Run) (stepId : String) : Option StepStatus :=
  (run.steps.find? fun s => s.stepId = stepId).map (·.status)

/-- The message of a step that failed with others. -/
def failedDependency (failed : List String) : String :=
  "failed_dependency:" ++ String.intercalate "," failed

/-- One step of `reconcile_pending_steps`. -/
def reconcilePendingStep (env : Env) (recur : Recur) (stack : List String) (p : Pass) (index : ℕ) :
    Db Pass :=
  match p.run.steps[index]? with
  | none => return p
  | some step =>
      if step.status ≠ .pending then return p
      else do
        let now ← Work.ofExcept (nowIso env)
        let failed := step.dependsOn.filter fun id => p.run.statusOf id = some .failed
        if failed ≠ [] then return p.move index (step.fail (failedDependency failed) now)
        if ¬ ∀ id ∈ step.dependsOn, ∃ s ∈ p.run.statusOf id, s.Satisfied then return p
        let moved ← orFail step now (startStep env recur stack p.run step now)
        return p.move index moved

/-- `reconcile_pending_steps`. -/
def reconcilePendingSteps (env : Env) (recur : Recur) (stack : List String) (run : Run) : Db Pass :=
  (List.range run.steps.length).foldlM (reconcilePendingStep env recur stack) ⟨run, false, false⟩

/-! ### Runs -/

/-- `derive_run_output`. -/
def deriveRunOutput (run : Run) : Except Stop Run := do
  let context := valueContext run
  let output ← resolveOptional ((run.definition.get "output").getD .null) (.object []) context
  assertBound output "sop_output" maxInlineValueBytes
  if output.asObject = none then throw (refusal "sop_output_must_be_object")
  validateSchema ((run.definition.get "output_schema").getD .null) output
    "sop_output_schema_mismatch"
  let outputRef ← resolveReference ((run.definition.get "output_ref").getD .null) context
    "sop_output_ref"
  return { run with output, outputRef }

/-- A failed run has no output. -/
def Run.failed (run : Run) : Run := { run with status := .failed, output := .object [], outputRef := .null }

/-- The status that the steps of a run give it. -/
def Run.concluded (run : Run) (now : String) : Run :=
  if ∀ s ∈ run.steps, s.status.Over then
    let ended :=
      if ∃ s ∈ run.steps, s.status = .failed then run.failed
      else match deriveRunOutput { run with status := .completed } with
        | .ok completed => completed
        | .error _ => run.failed
    { ended with completedAt := some (run.completedAt.getD now) }
  else
    let awaits := ∃ s ∈ run.steps, s.status = .running ∧ s.executor.Manual
    { run with status := if awaits then .awaitingConfirmation else .running, completedAt := none }

/-- The end of a reconciliation: the run is saved when it has changed, and a run that is over
puts its event. -/
def settle (env : Env) (run : Run) (changed : Bool) : Db Run := do
  let now ← Work.ofExcept (nowIso env)
  let concluded := run.concluded now
  if ¬ (changed = true ∨ run.status ≠ concluded.status) then return concluded
  let saved ← persistRun env concluded
  if run.status ≠ concluded.status ∧ concluded.status.Terminal then putTerminalOutbox env saved
  return saved

/-- The passes over the steps, as many as make progress. -/
def reconcilePasses (env : Env) (recur : Recur) (stack : List String) :
    ℕ → Run → Bool → Db (Run × Bool)
  | 0, run, _ => throw (refusalOf "sop_reconciliation_did_not_converge" run.runId)
  | fuel + 1, run, changed => do
      let p ← reconcileRunningSteps env recur stack run
      let q ← reconcilePendingSteps env recur stack p.run
      let changed := changed || p.changed || q.changed
      if p.progress || q.progress then reconcilePasses env recur stack fuel q.run changed
      else return (q.run, changed)

/-- The body of `reconcile_run`. -/
def reconcileBody (env : Env) (recur : Recur) (runId : String) (stack : List String) : Db Run := do
  if runId ∈ stack then throw (refusalOf "sop_child_run_cycle" runId)
  let run ← getRun runId
  if run.status.Terminal then return run
  let (run, changed) ← reconcilePasses env recur (runId :: stack) (run.steps.length * 4 + 8) run false
  settle env run changed

/-- `reconcile_run`, with as many nested calls as the stack has room for. -/
def reconcileRun (env : Env) : ℕ → Recur
  | 0, _, _ => throw .crashed
  | depth + 1, runId, stack => reconcileBody env (reconcileRun env depth) runId stack

/-- One run after the other from a run to its ancestors. The fuel is for the runs, which are
different. -/
def reconcileAncestors (env : Env) : ℕ → List String → Option String → Db Unit
  | _, _, none => return ()
  | 0, _, some _ => throw .crashed
  | fuel + 1, seen, some id => do
      if id ∈ seen then throw (refusalOf "sop_parent_chain_cycle" id)
      let _ ← reconcileRun env env.stack id []
      let run ← getRun id
      reconcileAncestors env fuel (id :: seen) run.parentRunId

/-- `reconcile_run_and_ancestors`. -/
def reconcileRunAndAncestors (env : Env) (runId : String) : Db Unit := do
  reconcileAncestors env ((← Work.store).runs.length + 1) [] (some runId)

end Sop

end McpSurfaces
