import McpSurfaces.Sop.Reconcile

/-!
The calls of the SOP surface that write, each one transaction, and the runs of calls.

* `sop_action_resolve` is two transactions: it records the completion of the action, and then
  reconciles the run. They are two calls here, so that others may come between them.
* `sop_handoff_claim_and_advance` is a claim, an advance, and a release when that was refused:
  the calls of those names, one after the other.
* The calls on templates leave any table of templates (`Call.templates`).
-/

namespace McpSurfaces

namespace Sop

open EventLedger (Digest)

section Runs

variable [FloatText] [FloatRead] [Digest] [IsoTime] [JsonSchema]

/-! ### Starting and refreshing -/

/-- `sop_run_start`: the run, and whether it is new. -/
def runStart (env : Env) (args : Map) : Db (Run × Bool) := do
  let (run, created) ← admitRun env args none none
  reconcileRunAndAncestors env run.runId
  return (← getRun run.runId, created)

/-- `sop_run_refresh`. -/
def runRefresh (env : Env) (args : Map) : Db Run := do
  let runId ← Work.ofExcept (requiredString (args.get "run_id") "sop_requires_run_id" 512)
  let _ ← getRun runId
  reconcileRunAndAncestors env runId
  getRun runId

/-! ### Completing a step -/

/-- An outcome argument. -/
def outcomeOf (args : Map) : Except Stop Outcome := do
  let text ← requiredString (args.get "outcome") "sop_requires_outcome" 64
  match Outcome.ofText text with
  | some outcome => return outcome
  | none => throw (refusalOf "sop_outcome_invalid" text)

/-- A result argument, its reference and the error message that a failure needs. -/
def resultOf (args : Map) (outcome : Outcome) : Except Stop (Map × Value × Option String) := do
  let result := (args.get "result").getD (.object [])
  assertBound result "sop_result" maxInlineValueBytes
  match result with
  | .object fields => do
      let resultRef ← normalizeValueRef (args.get "result_ref") "sop_result_ref"
      let errorMessage ← optionalBoundedString (args.get "error_message")
        "sop_error_message_too_long" 4096
      if outcome = .failed ∧ errorMessage = none then
        throw (refusal "sop_failed_outcome_requires_error_message")
      return (fields, resultRef, errorMessage)
  | _ => throw (refusal "sop_result_must_be_object")

/-- The arguments of `sop_run_advance`. -/
def completionOf (args : Map) : Except Stop Completion := do
  let handoffId ← requiredString (args.get "handoff_id") "sop_handoff_id_required" 512
  let runId ← requiredString (args.get "run_id") "sop_requires_run_id" 512
  let stepId ← requiredString (args.get "step_id") "sop_requires_step_id" 512
  let consumerId ← requiredString (args.get "consumer_id") "sop_handoff_consumer_id_required" 512
  let leaseToken ← requiredString (args.get "lease_token") "sop_handoff_lease_token_required" 512
  let completionKey ← requiredString (args.get "completion_key") "sop_requires_completion_key" 512
  let principal ← requiredString (args.get "principal") "sop_requires_principal" 512
  let outcome ← outcomeOf args
  let (result, resultRef, errorMessage) ← resultOf args outcome
  return { handoffId, runId, stepId, consumerId, leaseToken, completionKey, principal, outcome
           result, resultRef, errorMessage }

/-- The index of a step. -/
def Run.indexOf (run : Run) (stepId : String) : Option ℕ :=
  run.steps.findIdx? fun s => s.stepId = stepId

/-- A step that its handoff completes. -/
def StepState.advance (s : StepState) (c : Completion) (completedAt : String) : StepState :=
  { s with
    status := c.outcome.step, completedAt := some completedAt, result := c.result
    resultRef := c.resultRef, completionKey := some c.completionKey
    completionFingerprint := some c.fingerprint
    errorMessage := if c.outcome = .failed then c.errorMessage else none }

/-- A result that completes a step meets its schema. -/
def checkResult (step : StepState) (c : Completion) : Except Stop Unit :=
  if c.outcome = .completed then
    validateSchema step.resultSchema (.object c.result) "sop_step_result_schema_mismatch"
  else .ok ()

/-- The step of a completed handoff is completed with it, unless it was before. -/
def recordAdvance (env : Env) (c : Completion) (run : Run) (index : ℕ) (step : StepState)
    (h : Handoff) (replayed : Bool) : Db (Run × Handoff × Bool) :=
  match optionalText step.completionFingerprint with
  | some recorded =>
      if optionalText step.completionKey = some c.completionKey ∧ recorded = c.fingerprint ∧
          replayed = true then return (run, h, true)
      else throw (refusalOf "sop_step_completion_conflict" (c.runId ++ ":" ++ c.stepId))
  | none => do
      let now ← Work.ofExcept (nowIso env)
      let advanced := step.advance c (h.completedAt.getD now)
      let _ ← persistRun env (run.setStep index advanced)
      reconcileRunAndAncestors env c.runId
      return (← getRun c.runId, h, false)

/-- The completion of a step of a run. -/
def advanceStep (env : Env) (c : Completion) (run : Run) (index : ℕ) (step : StepState) :
    Db (Run × Handoff × Bool) := do
  if ¬ step.executor.Manual then throw (refusalOf "sop_step_not_manual_handoff" c.stepId)
  let recorded := optionalText step.completionFingerprint
  if recorded = none ∧ run.status.Terminal then throw (refusalOf "sop_run_terminal" c.runId)
  if recorded = none ∧ step.status ≠ .running then
    throw (refusalOf "sop_step_not_running" c.stepId)
  Work.ofExcept (checkResult step c)
  let (h, replayed) ← completeHandoff env c
  recordAdvance env c run index step h replayed

/-- `sop_run_advance`: the run, the handoff, and whether it had been completed so before. -/
def runAdvance (env : Env) (args : Map) : Db (Run × Handoff × Bool) := do
  let c ← Work.ofExcept (completionOf args)
  let run ← getRun c.runId
  match run.indexOf c.stepId, (run.indexOf c.stepId).bind (run.steps[·]?) with
  | some index, some step => advanceStep env c run index step
  | _, _ => throw (refusalOf "sop_step_not_found" c.stepId)

/-! ### Retrying a handoff -/

/-- Whether a step failed only with a step that is being reset. -/
def StepState.FailedWith (s : StepState) (reset : List String) : Prop :=
  s.stepId ∉ reset ∧ s.status = .failed ∧
    (∃ message ∈ s.errorMessage, Str.startsWith message "failed_dependency:") ∧
    ∃ dependency ∈ s.dependsOn, dependency ∈ reset

instance (s : StepState) (reset : List String) : Decidable (s.FailedWith reset) :=
  inferInstanceAs (Decidable (_ ∧ _ ∧ (∃ message ∈ s.errorMessage, _) ∧ _))

/-- A step as it was before it was started. -/
def StepState.reset (s : StepState) : StepState :=
  { s with
    status := .pending, startedAt := none, completedAt := none, resultRef := .null
    completionKey := none, completionFingerprint := none, errorMessage := none, childRunId := none
    actionId := none, pinnedChildDefinitionFingerprint := none, result := [] }

/-- One pass over the steps: those that failed with a reset step are reset, and others with
them. -/
def resetPass : List StepState → List String → List StepState × List String
  | [], reset => ([], reset)
  | s :: rest, reset =>
      if s.FailedWith reset then
        let (steps, reset) := resetPass rest (s.stepId :: reset)
        (s.reset :: steps, reset)
      else
        let (steps, reset) := resetPass rest reset
        (s :: steps, reset)

/-- `reset_retryable_dependent_steps`: passes until one resets nothing, which is one of as many
passes as there are steps, and one. -/
def resetRetryableDependentSteps : ℕ → List StepState → List String → List StepState
  | 0, steps, _ => steps
  | fuel + 1, steps, reset =>
      let (steps', reset') := resetPass steps reset
      if reset' = reset then steps' else resetRetryableDependentSteps fuel steps' reset'

/-- A step whose handoff is open again. -/
def StepState.reopen (s : StepState) (h : Handoff) (now : String) : StepState :=
  { s with
    status := .running, startedAt := some now, completedAt := none
    result := [("handoff_id", .string h.handoffId),
      ("handoff_occurrence_key", .string h.occurrenceKey)]
    resultRef := .null, completionKey := none, completionFingerprint := none, errorMessage := none }

/-- `retry_failed_handoff_as_new_run`. -/
def retryFailedHandoffAsNewRun (env : Env) (h : Handoff) (run : Run) : Db Run := do
  let args : Map := [("sop_id", .string run.sopId), ("sop_version", .ofNat run.sopVersion),
    ("occurrence_key", .string (deterministicId "sop_retry_" h.handoffId)), ("input", run.input),
    ("input_ref", run.inputRef), ("trigger_source_kind", .string "manual"),
    ("trigger_source_ref", .string ("sop_handoff_retry:" ++ h.handoffId)),
    ("triggered_by", .string "sop-handoff-retry")]
  let (admitted, _) ← admitRun env args none none
  reconcileRunAndAncestors env admitted.runId
  let retried ← getRun admitted.runId
  match (← Work.store).handoffs.find? fun other =>
      other.runId = retried.runId ∧ other.stepId = h.stepId with
  | none => return retried
  | some other => do
      let _ ← getHandoff other.handoffId
      return retried

/-- The mark of a handoff that was reopened. -/
def retryMarker (reason : String) : String :=
  String.ofList (("worker_retryable:reopened:" ++ reason).toList.take 4096)

/-- A run whose failed step is open again. -/
def Run.reopen (run : Run) (index : ℕ) (step : StepState) : Run :=
  { run.setStep index step with
    status := .awaitingConfirmation, output := .object [], outputRef := .null, completedAt := none }

/-- A failed handoff of an agent is opened again in its run. -/
def reopenHandoff (env : Env) (h : Handoff) (run : Run) (index : ℕ) (reason : String) : Db Run := do
  let now ← Work.ofExcept (nowIso env)
  let steps := resetRetryableDependentSteps (run.steps.length + 1) run.steps [h.stepId]
  Work.write fun s => s.updateHandoffs
    (fun other => other.handoffId = h.handoffId ∧ other.status = .failed)
    (·.reopen (retryMarker reason) now)
  match steps[index]? with
  | none => throw .crashed
  | some step => do
      let reopened := { run with steps }.reopen index (step.reopen h now)
      let _ ← persistRun env reopened
      reconcileRunAndAncestors env run.runId
      let after ← getRun run.runId
      let _ ← getHandoff h.handoffId
      return after

/-- The event of a run goes; a refusal that asks for a new run is not a stop. -/
def reopenTerminal (runId : String) : Db Bool :=
  (do let _ ← reopenTerminalOutboxForRetry runId; return true : Db Bool).handle fun stop =>
    if stop = refusal "sop_outbox_retry_requires_new_run" then return false else throw stop

/-- A failed step of an agent is tried again, in its run or in a new one. -/
def retryStep (env : Env) (h : Handoff) (run : Run) (index : ℕ) (step : StepState)
    (reason : String) : Db Run := do
  if step.executor ≠ .agent ∨ step.status ≠ .failed ∨ step.completionFingerprint = none then
    throw (refusalOf "sop_handoff_retry_state_conflict" h.handoffId)
  if step.completionFingerprint ≠ h.completionFingerprint then
    throw (refusalOf "sop_handoff_retry_completion_conflict" h.handoffId)
  if ← reopenTerminal run.runId then reopenHandoff env h run index reason
  else retryFailedHandoffAsNewRun env h run

/-- A failed handoff of an agent is tried again. -/
def retryHandoff (env : Env) (h : Handoff) (reason : String) : Db Run := do
  if h.status ≠ .failed then throw (refusalOf "sop_handoff_retry_requires_failed" h.handoffId)
  if h.executor ≠ .agent then throw (refusalOf "sop_handoff_retry_agent_only" h.handoffId)
  let run ← getRun h.runId
  match run.indexOf h.stepId, (run.indexOf h.stepId).bind (run.steps[·]?) with
  | some index, some step => retryStep env h run index step reason
  | _, _ => throw (refusalOf "sop_handoff_retry_state_conflict" h.handoffId)

/-- `sop_handoff_retry`: a handoff that is open already stays as it is. -/
def handoffRetry (env : Env) (args : Map) : Db Run := do
  let handoffId ← Work.ofExcept
    (requiredString (args.get "handoff_id") "sop_handoff_id_required" 512)
  let _ ← Work.ofExcept
    (requiredString (args.get "principal") "sop_handoff_retry_principal_required" 512)
  let reason ← Work.ofExcept
    (requiredString (args.get "reason") "sop_handoff_retry_reason_required" 4096)
  let h ← getHandoff handoffId
  if h.status = .pending ∨ h.status = .leased then getRun h.runId else retryHandoff env h reason

/-! ### Actions -/

/-- A completed action. -/
def Action.complete (a : Action) (outcome : Outcome) (completionKey recorded operationRef : String)
    (result resultRef : Value) (errorMessage : Option String) (now : String) : Action :=
  { a with
    status := outcome.action, completionKey := some completionKey
    completionFingerprint := some recorded, operationRef := some operationRef
    result := column result, resultRef := column resultRef
    errorMessage := if outcome = .failed then errorMessage else none
    updatedAt := now, completedAt := some now }

/-- The first transaction of `sop_action_resolve`: the run of the action, whether it had been
completed so before, and whether the run was cancelled. -/
def actionRecord (env : Env) (args : Map) : Db (String × Bool × Bool) := do
  let actionId ← Work.ofExcept (requiredString (args.get "action_id") "sop_requires_action_id" 512)
  let completionKey ← Work.ofExcept
    (requiredString (args.get "completion_key") "sop_requires_completion_key" 512)
  let outcome ← Work.ofExcept (outcomeOf args)
  let operationRef ← Work.ofExcept
    (requiredString (args.get "operation_ref") "sop_requires_operation_ref" 2048)
  let (result, resultRef, errorMessage) ← Work.ofExcept (resultOf args outcome)
  let recorded := fingerprint (actionCompletion completionKey outcome.text operationRef
    (.object result) resultRef errorMessage)
  let a ← getAction actionId
  let run := (← Work.store).run a.runId
  match a.completionFingerprint with
  | some existing =>
      if a.completionKey = some completionKey ∧ existing = recorded then
        return (a.runId, true, decide (run.map (·.status) = some .cancelled))
      throw (refusalOf "sop_action_completion_conflict" actionId)
  | none => match run with
    | none => throw (refusalOf "sop_run_not_found" a.runId)
    | some run => do
        let late := decide (a.status = .cancelled ∧ run.status = .cancelled)
        if a.status ≠ .pending ∧ ¬ late then throw (refusalOf "sop_action_not_pending" actionId)
        let now ← Work.ofExcept (nowIso env)
        Work.write fun s => s.updateActions (·.actionId = actionId)
          (·.complete outcome completionKey recorded operationRef (.object result) resultRef
            errorMessage now)
        let _ ← getAction actionId
        return (a.runId, false, late)

/-- The second transaction of `sop_action_resolve`. -/
def actionReconcile (env : Env) (args : Map) : Db Unit :=
  match (args.get "run_id").bind Value.asStr with
  | some runId => reconcileRunAndAncestors env runId
  | none => return ()

/-! ### Cancelling -/

/-- A step of a run that is cancelled. -/
def StepState.cancel (s : StepState) (reason now : String) : StepState :=
  if s.status = .pending ∨ s.status = .running then s.skip ("run_cancelled:" ++ reason) now else s

/-- An action of a run that is cancelled. -/
def Action.cancel (a : Action) (error now : String) : Action :=
  { a with
    status := .cancelled, errorMessage := some error, updatedAt := now, completedAt := some now }

/-- A run that is cancelled. -/
def Run.cancel (run : Run) (reason now : String) : Run :=
  { run with
    steps := run.steps.map (·.cancel reason now), status := .cancelled, completedAt := some now
    output := .object [], outputRef := .null }

/-- The open actions and handoffs of a run are cancelled. -/
def Store.cancelWork (s : Store) (runId error now : String) : Store :=
  (s.updateActions (fun a => a.runId = runId ∧ a.status = .pending) (·.cancel error now)).updateHandoffs
    (fun h => h.runId = runId ∧ (h.status = .pending ∨ h.status = .leased)) (·.cancel error now)

/-- The run itself is cancelled, after its children. -/
def cancelOne (env : Env) (run : Run) (reason : String) : Db Unit := do
  let now ← Work.ofExcept (nowIso env)
  Work.write fun s => s.cancelWork run.runId ("run_cancelled:" ++ reason) now
  let saved ← persistRun env (run.cancel reason now)
  putTerminalOutbox env saved

/-- `cancel_run_internal`, with as many nested calls as the stack has room for: the runs that
were seen. -/
def cancelRunInternal (env : Env) : ℕ → String → String → List String → Db (List String)
  | 0, _, _, _ => throw .crashed
  | depth + 1, runId, reason, seen => do
      if runId ∈ seen then return seen
      let run ← getRun runId
      if run.status.Terminal then return runId :: seen
      let children := run.steps.filterMap (·.childRunId)
      let seen ← children.foldlM
        (fun seen child => cancelRunInternal env depth child ("parent_cancelled:" ++ runId) seen)
        (runId :: seen)
      cancelOne env run reason
      return seen

/-- `sop_run_cancel`: the run, and whether it had been cancelled before. -/
def runCancel (env : Env) (args : Map) : Db (Run × Bool) := do
  let runId ← Work.ofExcept (requiredString (args.get "run_id") "sop_requires_run_id" 512)
  let run ← getRun runId
  if run.status = .cancelled then return (run, true)
  if run.status = .completed ∨ run.status = .failed then
    throw (refusalOf "sop_run_already_terminal" runId)
  let reason ← Work.ofExcept
    (optionalBoundedString (args.get "reason") "sop_cancellation_reason_too_long" 4096)
  let _ ← cancelRunInternal env env.stack runId (reason.getD "cancelled_by_caller") []
  reconcileRunAndAncestors env runId
  return (← getRun runId, false)

/-! ### Runs of calls -/

/-- The calls that write, apart from those on templates. -/
inductive Tool where
  | runStart
  | runRefresh
  | runAdvance
  | handoffRetry
  | actionRecord
  | actionReconcile
  | runCancel
  | handoffClaim
  | handoffRenew
  | handoffRelease
  | outboxConsumerRegister
  | outboxAck
  | outboxCompact
deriving DecidableEq, Repr

/-- What a call does. -/
def perform : Tool → Env → Map → Db Unit
  | .runStart, env, args => do let _ ← runStart env args
  | .runRefresh, env, args => do let _ ← runRefresh env args
  | .runAdvance, env, args => do let _ ← runAdvance env args
  | .handoffRetry, env, args => do let _ ← handoffRetry env args
  | .actionRecord, env, args => do let _ ← actionRecord env args
  | .actionReconcile, env, args => actionReconcile env args
  | .runCancel, env, args => do let _ ← runCancel env args
  | .handoffClaim, env, args => do let _ ← handoffClaim env args
  | .handoffRenew, env, args => do let _ ← handoffRenew env args
  | .handoffRelease, env, args => do let _ ← handoffRelease env args
  | .outboxConsumerRegister, env, args => do let _ ← outboxConsumerRegister env args
  | .outboxAck, env, args => do let _ ← outboxAck env args
  | .outboxCompact, env, args => outboxCompact env args

/-- A call: of a tool, or of one of those on templates, which leaves these. -/
inductive Call where
  | tool (tool : Tool) (env : Env) (args : Map)
  | templates (templates : List Template)

/-- A call is made no later than at a time. -/
def Call.NotAfter (now : Instant) : Call → Prop
  | .tool _ env _ => env.now ≤ now
  | .templates _ => True

/-- The store behind a call: a call that stops is rolled back. -/
def Store.after (s : Store) : Call → Store
  | .tool tool env args => (Work.transaction (perform tool env args) s).2
  | .templates templates => { s with templates }

/-- A store that calls can lead to. -/
inductive Reachable : Store → Prop where
  | empty : Reachable Store.empty
  | call {s : Store} (c : Call) : Reachable s → Reachable (s.after c)

end Runs

/-! ### A procedure of one step -/

/-- A stand-in for the digest: it names everything alike. -/
@[reducible] def oneName : Digest := ⟨fun _ => "h"⟩

/-- A stand-in for the reader: what was written is read as it was. -/
@[reducible] def asWritten : FloatRead := ⟨id⟩

/-- A stand-in for the validator, where every schema is null. -/
@[reducible] def lenient : JsonSchema := ⟨fun _ => true, fun _ _ => true⟩

/-- A procedure of one step. -/
def oneStep (executor : Executor) : Template :=
  ⟨"s", 1, "t", .active,
    [⟨"a", executor, "t", [], "i", .null, .null, .null, .null, none, none, none⟩],
    .null, .null, .null, .null, [], []⟩

/-- The surroundings of a call, so many milliseconds into 2026, with the token of a lease. -/
def sampleEnv (ms : ℤ) (token : String) : Env :=
  ⟨milliseconds (1767225600000 + ms), fun _ _ => "u", token, 10⟩

/-- The start of a run of the procedure. -/
def sampleStart (executor : Executor) : List Call :=
  [.templates [oneStep executor], .tool .runStart (sampleEnv 0 "")
    [("sop_id", .string "s"), ("occurrence_key", .string "o"), ("triggered_by", .string "x")]]

/-- The claim of a consumer for a second. -/
def sampleClaim (ms : ℤ) (consumer token : String) : Call :=
  .tool .handoffClaim (sampleEnv ms token)
    [("consumer_id", .string consumer), ("lease_ms", .ofNat 1000)]

/-- A consumer of the outbox registers. -/
def sampleRegistration (ms : ℤ) (consumer : String) : Call :=
  .tool .outboxConsumerRegister (sampleEnv ms "") [("consumer_id", .string consumer)]

end Sop

end McpSurfaces
