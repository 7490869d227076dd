import McpSurfaces.Sop.Outbox

/-!
Handoffs and actions: how a running step asks for work (`ensureHandoffIntent`,
`ensureActionIntent`), and how a consumer takes it under a lease (claim, renew, release) and
completes it.
-/

namespace McpSurfaces

namespace Sop

open EventLedger (Digest)

variable [FloatText] [FloatRead] [Digest] [IsoTime]

/-! ### Rows of handoffs -/

namespace Handoff

/-- `lease_expires_at <= ?`. -/
def ExpiredAt (h : Handoff) (now : String) : Prop := ∃ e ∈ h.leaseExpiresAt, e ≤ now

instance (h : Handoff) (now : String) : Decidable (h.ExpiredAt now) :=
  match hlease : h.leaseExpiresAt with
  | some e => decidable_of_iff (e ≤ now) (by simp [ExpiredAt, hlease])
  | none => isFalse (by simp [ExpiredAt, hlease])

/-- Without a lease. -/
def unleased (h : Handoff) (status : HandoffStatus) (now : String) : Handoff :=
  { h with status, leaseOwner := none, leaseToken := none, leaseExpiresAt := none, updatedAt := now }

/-- Under a new lease. -/
def lease (h : Handoff) (consumer token expires now : String) : Handoff :=
  { h with
    status := .leased, leaseOwner := some consumer, leaseToken := some token
    leaseExpiresAt := some expires, attemptCount := h.attemptCount + 1
    lastError := if h.status = .leased then some "lease_expired" else h.lastError
    updatedAt := now }

/-- Under the same lease with a new end. -/
def renew (h : Handoff) (expires now : String) : Handoff :=
  { h with leaseExpiresAt := some expires, updatedAt := now }

/-- Given back by its consumer. -/
def release (h : Handoff) (errorMessage : Option String) (now : String) : Handoff :=
  { h.unleased .pending now with lastError := errorMessage }

/-- Cancelled with its run. -/
def cancel (h : Handoff) (error now : String) : Handoff :=
  { h.unleased .cancelled now with lastError := some error, completedAt := some now }

/-- Open again after a failure. -/
def reopen (h : Handoff) (marker now : String) : Handoff :=
  { h.unleased .pending now with
    completionKey := none, completionFingerprint := none, principal := none, result := .object []
    resultRef := .null, errorMessage := none, lastError := some marker, completedAt := none }

end Handoff

/-! ### Leases -/

def minLeaseMs : ℤ := 1000
def maxLeaseMs : ℤ := 5 * 60000

/-- What `sop_handoff_claim` takes: a handoff of a live run that is pending or whose lease is
over, and the one that was asked for. -/
def Store.Claimable (s : Store) (now : String) (id : Option String) (executor : Option Executor)
    (h : Handoff) : Prop :=
  (h.status = .pending ∨ h.status = .leased ∧ h.ExpiredAt now) ∧
    (∃ r ∈ s.runs, r.runId = h.runId ∧ ¬ r.status.Terminal) ∧
    (id = none ∨ id = some h.handoffId) ∧ (executor = none ∨ executor = some h.executor)

instance (s : Store) (now : String) (id : Option String) (executor : Option Executor) :
    DecidablePred (s.Claimable now id executor) :=
  fun _ => inferInstanceAs (Decidable (_ ∧ _ ∧ _ ∧ _))

/-- `order by created_at, handoff_id`. -/
def handoffOrder (a b : Handoff) : Ordering :=
  (compare a.createdAt b.createdAt).then (compare a.handoffId b.handoffId)

/-- `normalize_handoff_executor`. -/
def normalizeHandoffExecutor (value : String) : Except Stop Executor :=
  match Executor.ofText value with
  | some .agent => .ok .agent
  | some .operator => .ok .operator
  | _ => .error (refusal "sop_handoff_executor_invalid")

/-- `sop_handoff_claim`: the handoff that was leased, if there was one. -/
def handoffClaim (env : Env) (args : Map) : Db (Option Handoff) := do
  let consumerId ← Work.ofExcept
    (requiredString (args.get "consumer_id") "sop_handoff_consumer_id_required" 512)
  let requested := optionalString (args.get "handoff_id")
  let executor ← Work.ofExcept (match optionalString (args.get "executor") with
    | some value => (normalizeHandoffExecutor value).map some
    | none => .ok none)
  let leaseMs ← Work.ofExcept
    (boundedIntegerArg (args.get "lease_ms") 60000 minLeaseMs maxLeaseMs "sop_handoff_lease_ms_invalid")
  let now ← Work.ofExcept (nowIso env)
  let s ← Work.store
  match Table.firstBy (s.Claimable now requested executor) handoffOrder s.handoffs with
  | none => return none
  | some candidate => do
      let handoffId ← Work.ofExcept (requiredText candidate.handoffId "sop_handoff_corrupt" 512)
      let expires ← Work.ofExcept (formatIso (env.now + milliseconds leaseMs))
      Work.write fun s => s.updateHandoffs
        (fun h => h.handoffId = handoffId ∧
          (h.status = .pending ∨ h.status = .leased ∧ h.ExpiredAt now))
        (·.lease consumerId env.token expires now)
      return some (← getHandoff handoffId)

/-- The end of a lease is to come. -/
def checkLive (env : Env) (h : Handoff) : Except Stop Unit :=
  match h.leaseExpiresAt.bind parseIso with
  | none => .error (refusal "sop_handoff_lease_corrupt")
  | some expires =>
      if expires ≤ env.now then .error (refusal "sop_handoff_lease_expired") else .ok ()

/-- `require_lease`: the handoff that is leased to the caller. -/
def requireLease (env : Env) (args : Map) (allowExpired : Bool) : Db Handoff := do
  let handoffId ← Work.ofExcept
    (requiredString (args.get "handoff_id") "sop_handoff_id_required" 512)
  let consumerId ← Work.ofExcept
    (requiredString (args.get "consumer_id") "sop_handoff_consumer_id_required" 512)
  let leaseToken ← Work.ofExcept
    (requiredString (args.get "lease_token") "sop_handoff_lease_token_required" 512)
  let h ← getHandoff handoffId
  if h.status ≠ .leased then throw (refusal "sop_handoff_not_leased")
  if h.leaseOwner ≠ some consumerId ∨ h.leaseToken ≠ some leaseToken then
    throw (refusal "sop_handoff_lease_mismatch")
  Work.ofExcept (if allowExpired then .ok () else checkLive env h)
  return h

/-- `sop_handoff_renew`. -/
def handoffRenew (env : Env) (args : Map) : Db Handoff := do
  let h ← requireLease env args false
  let leaseMs ← Work.ofExcept
    (boundedIntegerArg (args.get "lease_ms") 60000 minLeaseMs maxLeaseMs "sop_handoff_lease_ms_invalid")
  let expires ← Work.ofExcept (formatIso (env.now + milliseconds leaseMs))
  let now ← Work.ofExcept (nowIso env)
  Work.write fun s => s.updateHandoffs (·.handoffId = h.handoffId) (·.renew expires now)
  getHandoff h.handoffId

/-- `sop_handoff_release`, also of a lease that is over. -/
def handoffRelease (env : Env) (args : Map) : Db Handoff := do
  let h ← requireLease env args true
  let errorMessage ← Work.ofExcept
    (optionalBoundedString (args.get "error_message") "sop_handoff_error_message_too_long" 4096)
  let now ← Work.ofExcept (nowIso env)
  Work.write fun s => s.updateHandoffs (·.handoffId = h.handoffId) (·.release errorMessage now)
  getHandoff h.handoffId

/-! ### Completion -/

/-- How a consumer completes a handoff. -/
structure Completion where
  handoffId : String
  runId : String
  stepId : String
  consumerId : String
  leaseToken : String
  completionKey : String
  principal : String
  outcome : Outcome
  result : Map
  resultRef : Value
  errorMessage : Option String

/-- The fingerprint of a completion. -/
def Completion.fingerprint (c : Completion) : String :=
  Sop.fingerprint (handoffCompletion c.completionKey c.outcome.text c.principal (.object c.result)
    c.resultRef c.errorMessage)

/-- A completed handoff. -/
def Handoff.complete (h : Handoff) (c : Completion) (now : String) : Handoff :=
  { h.unleased c.outcome.handoff now with
    completionKey := some c.completionKey, completionFingerprint := some c.fingerprint
    principal := some c.principal, result := column (.object c.result)
    resultRef := column c.resultRef, errorMessage := c.errorMessage, completedAt := some now }

/-- Whether the lease of a handoff is over: both ends are read from their texts, and what cannot
be read is over. -/
def leaseOver (h : Handoff) (now : String) : Bool :=
  match parseIso (h.leaseExpiresAt.getD ""), parseIso now with
  | some expires, some now => expires ≤ now
  | _, _ => true

/-- `complete_handoff`: the completed handoff, and whether it had been completed so before. -/
def completeHandoff (env : Env) (c : Completion) : Db (Handoff × Bool) := do
  let h ← getHandoff c.handoffId
  if h.runId ≠ c.runId ∨ h.stepId ≠ c.stepId then
    throw (refusal "sop_handoff_run_binding_mismatch")
  match h.completionFingerprint with
  | some recorded =>
      if h.completionKey = some c.completionKey ∧ recorded = c.fingerprint then return (h, true)
      throw (refusal "sop_handoff_completion_conflict")
  | none =>
      if h.status ≠ .leased then throw (refusal "sop_handoff_not_leased")
      if h.leaseOwner ≠ some c.consumerId ∨ h.leaseToken ≠ some c.leaseToken then
        throw (refusal "sop_handoff_lease_mismatch")
      let now ← Work.ofExcept (nowIso env)
      if leaseOver h now then throw (refusal "sop_handoff_lease_expired")
      Work.write fun s => s.updateHandoffs (·.handoffId = c.handoffId) (·.complete c now)
      return (← getHandoff c.handoffId, false)

/-! ### Intents -/

/-- The value of an optional mapping. -/
def resolveOptional (mapping fallback : Value) (context : Context) : Except Stop Value :=
  if mapping = .null then .ok fallback else resolveMapping context mapping

/-- The reference that an optional mapping gives. -/
def resolveReference (mapping : Value) (context : Context) (field : String) : Except Stop Value :=
  if mapping = .null then .ok .null
  else do normalizeValueRef (some (← resolveMapping context mapping)) field

/-- The instructions of a handoff: those just rendered, those on record, or rendered anew. -/
def handoffInstructions (step : StepState) (context : Context) (rendered : Option String) :
    Except Stop String :=
  match rendered with
  | some text => .ok text
  | none => match (step.result.get "instructions").bind Value.asStr with
    | some recorded => .ok recorded
    | none => renderInstructions step.instructions context

/-- A new handoff of a step. -/
def newHandoff (run : Run) (step : StepState) (instructions : String) (input inputRef : Value)
    (requestFingerprint now : String) : Handoff where
  handoffId := deterministicId "soh_" (stepIdentity run.runId step.stepId)
  runId := run.runId
  stepId := step.stepId
  occurrenceKey := deterministicId "sop_handoff_" (stepIdentity run.runId step.stepId)
  sopId := run.sopId
  sopVersion := run.sopVersion
  executor := step.executor
  title := step.title
  instructions
  input := column input
  inputRef := column inputRef
  resultSchema := column step.resultSchema
  requestFingerprint
  status := .pending
  leaseOwner := none
  leaseToken := none
  leaseExpiresAt := none
  attemptCount := 0
  lastError := none
  completionKey := none
  completionFingerprint := none
  principal := none
  result := .object []
  resultRef := .null
  errorMessage := none
  createdAt := now
  updatedAt := now
  completedAt := none

/-- `ensure_handoff_intent`: the handoff of a step, which is made when there is none. -/
def ensureHandoffIntent (env : Env) (run : Run) (step : StepState) (rendered : Option String) :
    Db Handoff := do
  if ¬ step.executor.Manual then throw (refusalOf "sop_step_not_manual_handoff" step.stepId)
  let context := valueContext run
  let input ← Work.ofExcept (resolveOptional step.input (.object []) context)
  Work.ofExcept (assertBound input "sop_handoff_input" maxInlineValueBytes)
  let inputRef ← Work.ofExcept (resolveReference step.inputRef context "sop_handoff_input_ref")
  let instructions ← Work.ofExcept (handoffInstructions step context rendered)
  let request := fingerprint (handoffRequest run.runId step.stepId run.sopId run.sopVersion
    step.executor step.title instructions input inputRef step.resultSchema)
  let handoffId := deterministicId "soh_" (stepIdentity run.runId step.stepId)
  match (← Work.store).handoffs.find? fun h => h.runId = run.runId ∧ h.stepId = step.stepId with
  | some existing => do
      let h ← getHandoff existing.handoffId
      if h.handoffId ≠ handoffId ∨ h.requestFingerprint ≠ request then
        throw (refusal "sop_handoff_intent_conflict")
      return h
  | none => do
      let now ← Work.ofExcept (nowIso env)
      insertHandoff (newHandoff run step instructions input inputRef request now)
      getHandoff handoffId

/-- The arguments of an action: its mapping resolved, with the key that makes it idempotent. -/
def actionArguments (run : Run) (step : StepState) (binding : ActionBinding) (occurrenceKey : String) :
    Except Stop Map := do
  match ← resolveMapping (valueContext run) binding.arguments with
  | .object fields => do
      let arguments : Map := fields
      if (arguments.get binding.idempotencyKeyArgument).any
          (fun v => !v.eqv (.string occurrenceKey)) then
        throw (refusalOf "sop_action_idempotency_argument_conflict" step.stepId)
      return arguments.insert binding.idempotencyKeyArgument (.string occurrenceKey)
  | _ => throw (refusalOf "sop_action_arguments_must_be_object" step.stepId)

/-- A new action of a step. -/
def newAction (run : Run) (step : StepState) (binding : ActionBinding) (arguments : Map)
    (requestFingerprint now : String) : Action where
  actionId := deterministicId "soa_" (stepIdentity run.runId step.stepId)
  runId := run.runId
  stepId := step.stepId
  occurrenceKey := deterministicId "sop_action_" (stepIdentity run.runId step.stepId)
  surfaceId := binding.surfaceId
  toolName := binding.toolName
  arguments := column (.object arguments)
  requestFingerprint
  status := .pending
  completionKey := none
  completionFingerprint := none
  operationRef := none
  result := .object []
  resultRef := .null
  errorMessage := none
  createdAt := now
  updatedAt := now
  completedAt := none

/-- `ensure_action_intent`: the action of a step, which is made when there is none. -/
def ensureActionIntent (env : Env) (run : Run) (step : StepState) : Db Action := do
  match step.action with
  | none => throw (refusalOf "sop_action_binding_required" step.stepId)
  | some binding => do
      let actionId := deterministicId "soa_" (stepIdentity run.runId step.stepId)
      let occurrenceKey := deterministicId "sop_action_" (stepIdentity run.runId step.stepId)
      let arguments ← Work.ofExcept (actionArguments run step binding occurrenceKey)
      Work.ofExcept (assertBound (.object arguments) "sop_action_arguments" maxInlineValueBytes)
      let request := fingerprint
        (actionRequest binding.surfaceId binding.toolName (.object arguments))
      match (← Work.store).actions.find? fun a => a.runId = run.runId ∧ a.stepId = step.stepId with
      | some existing => do
          let a ← getAction existing.actionId
          if a.actionId ≠ actionId ∨ a.requestFingerprint ≠ request then
            throw (refusalOf "sop_action_intent_conflict" (run.runId ++ ":" ++ step.stepId))
          return a
      | none => do
          let now ← Work.ofExcept (nowIso env)
          insertAction (newAction run step binding arguments request now)
          getAction actionId

end Sop

end McpSurfaces
