import McpSurfaces.Scheduler.Store

/-!
The calls of the scheduler that write. Each runs in one transaction: it answers with the new
tables, or it refuses and leaves them.

* `Env` is what a call meets outside of the store: the clock when it starts, the clock when it
  checks a lease, and a new token.
* `Store.call`, `Store.after`: a call, and the tables behind it.
-/

namespace McpSurfaces

namespace Scheduler

open EventLedger (Failure Digest)

/-- What a call meets outside of the store. -/
structure Env where
  now : Instant
  check : Instant
  token : String

section Operations

variable [FloatText] [Digest] [IsoTime]

/-! ### Texts -/

/-- `digest`. -/
def digest (v : Value) : String := Digest.sha256 v.canonicalText

/-- `stable_id`. -/
def stableId (lead : String) (v : Value) : String :=
  lead ++ "_" ++ String.ofList ((digest v).toList.take 32)

omit [Digest] [IsoTime] in
/-- `bounded_json`. -/
def boundedJson (v : Value) (field : String) (max : ℕ) : Except Failure String :=
  if max < v.canonicalText.utf8ByteSize then
    .error (refusal (field ++ "_too_large") (field ++ "_too_large"))
  else .ok v.canonicalText

/-- `format_iso`; the arithmetic of dates panics outside of their range. -/
def formatIso (t : Instant) : Except Failure String :=
  match IsoTime.format t with
  | some s => .ok s
  | none => .error (.panic "resulting value is out of range")

/-- `parse_iso`. -/
def parseIso (s : String) : Except Failure Instant :=
  match IsoTime.parse s with
  | some t => .ok t
  | none => .error (refusal "scheduler_datetime_invalid" "scheduler_datetime_invalid")

/-! ### Bindings -/

/-- The delays of a specification, in the order of a `BTreeMap`. -/
def normalizeDelays (delays : Map) : Except Failure (OrderedMap String ℕ) := do
  let delays ← delays.mapM fun e =>
    match e.2.asI64 with
    | some (.ofNat n) => .ok (e.1, n)
    | _ => .error (refusal "scheduler_binding_delay_invalid" "scheduler_binding_delay_invalid")
  return delays.insertionSort fun a b => a.1 ≤ b.1

def normalizeBinding (args : Map) : Except Failure BindingSpec := do
  let triggerKind ← required args "trigger_kind"
  if triggerKind ∉ ["bootstrap", "completion", "domain_event"] then
    throw (refusal "scheduler_binding_trigger_kind_invalid"
      "scheduler_binding_trigger_kind_invalid")
  let concurrency ← required args "concurrency"
  let concurrency ← match Concurrency.ofText concurrency with
    | some c => .ok c
    | none => .error (refusal "scheduler_binding_concurrency_invalid"
        "scheduler_binding_concurrency_invalid")
  let terminal := (((args.get "terminal_outcomes").bind Value.asArray).getD []).filterMap
    fun v => (v.asStr.map Str.trim).filter (· ≠ "")
  let delays ← normalizeDelays (((args.get "delay_by_outcome_ms").bind Value.asObject).getD [])
  let retryBase ← nonnegative args "retry_base_ms" 1000
  let retryMax ← nonnegative args "retry_max_ms" 300000
  if retryMax < retryBase then
    throw (refusal "retry_max_ms_below_base" "retry_max_ms_below_base")
  let maxAttempts ← nonnegative args "max_attempts" 5
  if hmax : 0 < maxAttempts then
    let bindingId ← required args "binding_id"
    let sourceTopic ← required args "source_topic"
    let targetSopId ← required args "target_sop_id"
    let targetTemplateVersion ← required args "target_template_version"
    let defaultDelay ← nonnegative args "default_delay_ms" 0
    return {
      bindingId, triggerKind, sourceTopic
      sourceSopId := trimmedText args "source_sop_id"
      terminalOutcomes := terminal.dedup.insertionSort (· ≤ ·)
      targetSopId, targetTemplateVersion, concurrency
      delayByOutcomeMs := delays
      defaultDelayMs := defaultDelay
      retryBaseMs := retryBase
      retryMaxMs := retryMax
      maxAttempts
      maxAttempts_pos := hmax }
  else
    throw (refusal "max_attempts_invalid" "max_attempts_invalid")

/-- The answer about a binding. -/
def bindingAnswer (b : Binding) : Value :=
  .object [("schema", .string "narada.scheduler.binding.v1"), ("binding", b.json)]

def revisionConflict (expected : ℤ) (actual : ℕ) : Failure :=
  refusal "scheduler_binding_revision_conflict"
    ("scheduler_binding_revision_conflict:expected_" ++ toString expected ++ ":actual_" ++
      toString actual)

def bindingUpsert (s : Store) (env : Env) (args : Map) : Except Failure (Value × Store) := do
  let spec ← normalizeBinding args
  let specDigest := digest (.object spec.fields)
  let now ← formatIso env.now
  match s.binding spec.bindingId with
  | some current =>
      match integerOf args "expected_revision" with
      | none =>
          if current.specDigest = specDigest then return (bindingAnswer current, s)
          throw (refusal "scheduler_binding_expected_revision_required"
            "scheduler_binding_expected_revision_required")
      | some expected =>
          if expected ≠ current.revision then throw (revisionConflict expected current.revision)
          let t := s.updateBinding spec.bindingId (·.respecify spec specDigest now)
          return (bindingAnswer (← t.requireBinding spec.bindingId), t)
  | none =>
      if (args.get "expected_revision").isSome then
        throw (refusal "scheduler_binding_not_found" "scheduler_binding_not_found")
      let t := { s with bindings := s.bindings ++ [⟨spec, .active, 1, specDigest, now, now⟩] }
      return (bindingAnswer (← t.requireBinding spec.bindingId), t)

/-- The activations that a pause of their binding cancels. -/
def Activation.QuiescedBy (a : Activation) (bindingId now : String) : Prop :=
  a.bindingId = bindingId ∧ (a.status = .pending ∨ a.status = .leased ∧ a.ExpiredAt now)

instance (a : Activation) (bindingId now : String) : Decidable (a.QuiescedBy bindingId now) :=
  inferInstanceAs (Decidable (_ ∧ _))

/-- `binding_set_status`, with the status of the name it is called under. -/
def bindingSetStatus (s : Store) (env : Env) (status : BindingStatus) (args : Map) :
    Except Failure (Value × Store) := do
  let bindingId ← required args "binding_id"
  let expected ← requiredInteger args "expected_revision"
  let now ← formatIso env.now
  let current ← s.requireBinding bindingId
  if current.revision ≠ expected then throw (revisionConflict expected current.revision)
  let t := s.updateBinding bindingId (·.setStatus status now)
  let t := if status = .paused then
      t.updateActivations (·.QuiescedBy bindingId now)
        (·.cancelPaused "binding_paused_before_admission" now)
    else t
  return (bindingAnswer (← t.requireBinding bindingId), t)

/-! ### Events -/

def normalizeEvent (args : Map) : Except Failure SourceEvent := do
  let occurred ← parseIso (← required args "occurred_at")
  let aggregateRevision ← requiredInteger args "aggregate_revision"
  if aggregateRevision < 0 then
    throw (refusal "scheduler_event_aggregate_revision_invalid"
      "scheduler_event_aggregate_revision_invalid")
  let schemaVersion ← requiredInteger args "schema_version"
  if schemaVersion < 1 then
    throw (refusal "scheduler_event_schema_version_invalid"
      "scheduler_event_schema_version_invalid")
  let payload := ((args.get "payload").bind Value.asObject).getD []
  let _ ← boundedJson (.object payload) "scheduler_event_payload" maxEventBytes
  let eventId ← required args "event_id"
  let topic ← required args "topic"
  let partitionKey ← required args "partition_key"
  let aggregateId ← required args "aggregate_id"
  let causationId ← required args "causation_id"
  let idempotencyKey ← required args "idempotency_key"
  let occurredAt ← formatIso occurred
  return {
    eventId, topic, partitionKey, aggregateId, causationId, idempotencyKey
    aggregateRevision := aggregateRevision.toNat
    schemaVersion := schemaVersion.toNat
    payload, occurredAt }

/-- The outcome that an event reports. -/
def SourceEvent.outcome (e : SourceEvent) : Option String := (e.payload.get "outcome").bind Value.asStr

def bindingMatches (b : Binding) (e : SourceEvent) : Bool :=
  (match b.spec.sourceSopId with
    | some expected => decide ((e.payload.get "sop_id").bind Value.asStr = some expected)
    | none => true) &&
  (b.spec.terminalOutcomes.isEmpty || decide (e.outcome.getD "" ∈ b.spec.terminalOutcomes))

/-- The delay before the attempt of a number, at most the cap: doubled with every attempt, in
`i64` with saturation. -/
def backoff (base cap attempt : ℕ) : ℕ := min (min (base * 2 ^ (attempt - 1)) (2 ^ 63 - 1)) cap

def delayFor (b : Binding) (outcome : String) (payload : Map) : ℕ :=
  if outcome = "retryable_failure" then
    let attempt := min (max (((payload.get "attempt").bind Value.asI64).getD 1) 1) 31
    backoff b.spec.retryBaseMs b.spec.retryMaxMs attempt.toNat
  else (b.spec.delayByOutcomeMs.get outcome).getD b.spec.defaultDelayMs

/-- The key under which the activations of a binding exclude one another. -/
def partitionKeyOf (b : Binding) (e : SourceEvent) : String :=
  match b.spec.concurrency with
  | .singleton => b.spec.bindingId
  | .partitioned => e.partitionKey

/-- The id of the activation of a binding for an event. -/
def activationIdOf (bindingId eventId : String) : String :=
  stableId "activation"
    (.object [("binding_id", .string bindingId), ("source_event_id", .string eventId)])

/-- The activation of a binding for an event. -/
def newActivation (b : Binding) (e : SourceEvent) (dueAt now : String) : Activation where
  activationId := activationIdOf b.spec.bindingId e.eventId
  bindingId := b.spec.bindingId
  sourceEventId := e.eventId
  occurrenceKey := b.spec.bindingId ++ ":" ++ e.eventId
  targetSopId := b.spec.targetSopId
  targetTemplateVersion := b.spec.targetTemplateVersion
  partitionKey := partitionKeyOf b e
  dueAt := dueAt
  status := if e.outcome = some "blocked" then .blocked else .pending
  attemptCount := 0
  leaseOwner := none
  leaseToken := none
  leaseExpiresAt := none
  sopRunId := none
  terminalOutcome := none
  lastError :=
    if e.outcome = some "blocked" then some "blocked_outcome_requires_explicit_unblock" else none
  createdAt := now
  updatedAt := now

/-- An activation that is inserted behind the others, under the unique keys of its table. -/
def insertActivation (activations : List Activation) (a : Activation) :
    Except Failure (List Activation) :=
  if ∃ other ∈ activations, other.activationId = a.activationId ∨
      other.bindingId = a.bindingId ∧ other.sourceEventId = a.sourceEventId ∨
      other.targetSopId = a.targetSopId ∧ other.occurrenceKey = a.occurrenceKey then
    .error (dbError "scheduler_activation_insert_failed"
      "UNIQUE constraint failed: scheduler_activations")
  else .ok (activations ++ [a])

/-- What an event does for one binding. -/
def admitFor (e : SourceEvent) (now : String) (activations : List Activation) (b : Binding) :
    Except Failure (List Activation) := do
  if !bindingMatches b e then return activations
  if (Table.row (·.activationId) activations (activationIdOf b.spec.bindingId e.eventId)).isSome then
    return activations
  let occurred ← parseIso e.occurredAt
  let dueAt ← formatIso
    (occurred + milliseconds (delayFor b (e.outcome.getD "default") e.payload))
  insertActivation activations (newActivation b e dueAt now)

/-- The order of activations: by due time and id. -/
def dueOrder (a b : Activation) : Ordering :=
  (compare a.dueAt b.dueAt).then (compare a.activationId b.activationId)

/-- The events with one more, unless it is there; an id stands for one content. -/
def admitSource (s : Store) (event : SourceEvent) (eventDigest now : String) :
    Except Failure (List EventRow) :=
  match s.event event.eventId with
  | some row =>
      if row.digest ≠ eventDigest then
        .error (refusal "scheduler_event_idempotency_conflict"
          ("scheduler_event_idempotency_conflict:" ++ event.eventId))
      else .ok s.events
  | none => .ok (s.events ++ [⟨event, eventDigest, now⟩])

def eventAdmit (s : Store) (env : Env) (args : Map) : Except Failure (Value × Store) := do
  let event ← normalizeEvent args
  let eventDigest := digest (.object event.fields)
  let now ← formatIso env.now
  let events ← admitSource s event eventDigest now
  let bindings := (s.bindings.filter fun b =>
    b.spec.sourceTopic = event.topic ∧ b.status = .active).insertionSort
      fun a b => a.spec.bindingId ≤ b.spec.bindingId
  let activations ← bindings.foldlM (admitFor event now) s.activations
  let listed := (Lists.sortBy dueOrder
    (activations.filter fun a => a.sourceEventId = event.eventId)).take 500
  return (.object [("schema", .string "narada.scheduler.event_admission.v1"),
    ("status", .string (if (s.event event.eventId).isSome then "replayed" else "admitted")),
    ("event_id", .string event.eventId), ("activation_count", .ofNat listed.length),
    ("activations", .array (listed.map Activation.json))], { s with events, activations })

/-! ### Claims -/

/-- The activations whose lease is over while their binding has one of the statuses. -/
def Store.Overdue (s : Store) (now : String) (statuses : List BindingStatus) (a : Activation) :
    Prop :=
  a.status = .leased ∧ a.ExpiredAt now ∧ s.BindingIn a statuses

instance (s : Store) (now : String) (statuses : List BindingStatus) :
    DecidablePred (s.Overdue now statuses) := fun a =>
  inferInstanceAs (Decidable (a.status = .leased ∧ a.ExpiredAt now ∧ s.BindingIn a statuses))

/-- The first two statements of a claim: leases that are over are taken back. -/
def Store.recover (s : Store) (now : String) : Store :=
  let cancelled := s.updateActivations (s.Overdue now [.paused])
    (·.cancelPaused "binding_paused_after_lease_expiry" now)
  cancelled.updateActivations (cancelled.Overdue now [.active, .retired]) (·.recover now)

/-- The activations that a claim may hand out. -/
def Store.Claimable (s : Store) (now : String) (a : Activation) : Prop :=
  a.status = .pending ∧ a.dueAt ≤ now ∧ s.BindingIn a [.active, .retired] ∧
    ¬ ∃ active ∈ s.activations, active.bindingId = a.bindingId ∧
      active.partitionKey = a.partitionKey ∧ active.activationId ≠ a.activationId ∧
      active.Occupies

instance (s : Store) (now : String) : DecidablePred (s.Claimable now) := fun a =>
  inferInstanceAs (Decidable (a.status = .pending ∧ a.dueAt ≤ now ∧
    s.BindingIn a [.active, .retired] ∧ ¬ ∃ active ∈ s.activations, _))

/-- The answer about an activation. -/
def activationAnswer (a : Activation) : Value :=
  .object [("schema", .string "narada.scheduler.activation.v1"), ("activation", a.json)]

/-- The answer of a claim. -/
def claimAnswer (a : Option Activation) : Value :=
  .object [("schema", .string "narada.scheduler.activation_claim.v1"),
    ("activation", (a.map Activation.json).getD .null)]

def activationClaim (s : Store) (env : Env) (args : Map) : Except Failure (Value × Store) := do
  let consumer ← required args "consumer_id"
  let leaseMs := (integerOf args "lease_ms").getD 30000
  if ¬ (1000 ≤ leaseMs ∧ leaseMs ≤ 300000) then
    throw (refusal "scheduler_activation_lease_ms_invalid" "scheduler_activation_lease_ms_invalid")
  let now ← formatIso env.now
  let expires ← formatIso (env.now + milliseconds leaseMs)
  let s := s.recover now
  match Table.firstBy (s.Claimable now) dueOrder s.activations with
  | some a =>
      let t := s.updateActivations (fun r => r.activationId = a.activationId ∧ r.status = .pending)
        (·.lease consumer env.token expires now)
      return (claimAnswer (t.activation a.activationId), t)
  | none => return (claimAnswer none, s)

/-! ### Leases and receipts -/

/-- `require_leased`, with a look at the clock of its own. -/
def requireLeased (s : Store) (env : Env) (id consumer token : String) :
    Except Failure Activation := do
  let a ← s.requireActivation id
  if a.status ≠ .leased then
    throw (refusal "scheduler_activation_not_leased"
      ("scheduler_activation_not_leased:" ++ a.status.text))
  if a.leaseOwner ≠ some consumer then
    throw (refusal "scheduler_activation_lease_owner_mismatch"
      "scheduler_activation_lease_owner_mismatch")
  if a.leaseToken ≠ some token then
    throw (refusal "scheduler_activation_lease_token_mismatch"
      "scheduler_activation_lease_token_mismatch")
  if a.leaseExpiresAt.getD "" ≤ (← formatIso env.check) then
    throw (refusal "scheduler_activation_lease_expired" "scheduler_activation_lease_expired")
  return a

/-- `record_receipt`: at most one of a kind for an activation, and none twice. -/
def recordReceipt (s : Store) (id kind receiptId : String) (receipt : Value) (now : String) :
    Except Failure Store := do
  let encoded ← boundedJson receipt "scheduler_activation_receipt" maxEventBytes
  if ∃ r ∈ s.receipts, r.activationId = id ∧ r.receiptKind = kind ∨ r.receiptId = receiptId then
    throw (dbError "scheduler_activation_receipt_failed"
      "UNIQUE constraint failed: scheduler_activation_receipts")
  return { s with receipts := s.receipts ++ [⟨id, kind, receiptId, encoded, now⟩] }

def activationAdmitSop (s : Store) (env : Env) (args : Map) : Except Failure (Value × Store) := do
  let id ← required args "activation_id"
  let consumer ← required args "consumer_id"
  let token ← required args "lease_token"
  let sopRunId ← required args "sop_run_id"
  let receiptId ← required args "receipt_id"
  let receipt := (args.get "receipt").getD (.object [])
  let now ← formatIso env.now
  let _ ← requireLeased s env id consumer token
  if ∃ other ∈ s.activations, other.activationId ≠ id ∧ other.sopRunId = some sopRunId then
    throw (dbError "scheduler_activation_admit_failed"
      "UNIQUE constraint failed: scheduler_activations.sop_run_id")
  let t := s.updateActivation id (·.admitSop sopRunId now)
  let t ← recordReceipt t id "sop_admission" receiptId receipt now
  return (activationAnswer (← t.requireActivation id), t)

def activationFail (s : Store) (env : Env) (args : Map) : Except Failure (Value × Store) := do
  let id ← required args "activation_id"
  let consumer ← required args "consumer_id"
  let token ← required args "lease_token"
  let retryable : Bool := decide ((args.get "retryable").bind Value.asBool = some true)
  let failure ← required args "error"
  let now ← formatIso env.now
  let a ← requireLeased s env id consumer token
  let binding ← s.requireBinding a.bindingId
  let attempt := a.attemptCount + 1
  let retry := retryable && decide (attempt < binding.spec.maxAttempts)
  -- the exponent is clamped to 30
  let delay := backoff binding.spec.retryBaseMs binding.spec.retryMaxMs (min attempt 31)
  let due ← formatIso (env.now + milliseconds delay)
  let bounded := String.ofList (failure.toList.take maxErrorBytes)
  let t := s.updateActivation id (·.fail retry attempt due bounded now)
  return (activationAnswer (← t.requireActivation id), t)

def activationResolve (s : Store) (env : Env) (args : Map) : Except Failure (Value × Store) := do
  let notFound := refusal "scheduler_activation_not_found" "scheduler_activation_not_found"
  if (trimmedText args "activation_id").isNone ∧ (trimmedText args "sop_run_id").isNone then
    throw notFound
  let outcome ← required args "outcome"
  let receiptId ← required args "receipt_id"
  let receipt := (args.get "receipt").getD (.object [])
  let now ← formatIso env.now
  let found := match trimmedText args "activation_id" with
    | some id => s.activation id
    | none => s.activations.find? fun a => a.sopRunId = trimmedText args "sop_run_id"
  match found with
  | none => throw notFound
  | some a =>
      if a.status = .terminal then
        let existing := s.receipts.find? fun r =>
          r.activationId = a.activationId ∧ r.receiptKind = "terminal"
        if existing.map (·.receiptId) = some receiptId then .ok (activationAnswer a, s)
        else
          .error (refusal "scheduler_activation_terminal_conflict"
            "scheduler_activation_terminal_conflict")
      else do
        if a.status ≠ .admitted then
          throw (refusal "scheduler_activation_not_admitted"
            ("scheduler_activation_not_admitted:" ++ a.status.text))
        let t := s.updateActivation a.activationId (·.resolve outcome now)
        let t ← recordReceipt t a.activationId "terminal" receiptId receipt now
        return (activationAnswer (← t.requireActivation a.activationId), t)

/-- When an activation is due again that is unblocked. -/
def unblockDue (args : Map) (now : String) : Except Failure String :=
  match (args.get "due_at").bind Value.asStr with
  | some value => do formatIso (← parseIso value)
  | none => .ok now

def activationUnblock (s : Store) (env : Env) (args : Map) : Except Failure (Value × Store) := do
  let id ← required args "activation_id"
  let now ← formatIso env.now
  let due ← unblockDue args now
  let a ← s.requireActivation id
  if a.status ≠ .blocked then
    throw (refusal "scheduler_activation_not_blocked"
      ("scheduler_activation_not_blocked:" ++ a.status.text))
  let t := s.updateActivation id (·.unblock due now)
  return (activationAnswer (← t.requireActivation id), t)

/-! ### Calls -/

/-- The tools that write. -/
inductive Tool where
  | bindingUpsert
  | bindingPause
  | bindingResume
  | bindingRetire
  | eventAdmit
  | activationClaim
  | activationAdmitSop
  | activationFail
  | activationResolve
  | activationUnblock
deriving DecidableEq, Repr

/-- A call of a tool. -/
structure Call where
  tool : Tool
  env : Env
  args : Map

/-- `call_tool`. -/
def Store.call (s : Store) (c : Call) : Except Failure (Value × Store) :=
  match c.tool with
  | .bindingUpsert => bindingUpsert s c.env c.args
  | .bindingPause => bindingSetStatus s c.env .paused c.args
  | .bindingResume => bindingSetStatus s c.env .active c.args
  | .bindingRetire => bindingSetStatus s c.env .retired c.args
  | .eventAdmit => eventAdmit s c.env c.args
  | .activationClaim => activationClaim s c.env c.args
  | .activationAdmitSop => activationAdmitSop s c.env c.args
  | .activationFail => activationFail s c.env c.args
  | .activationResolve => activationResolve s c.env c.args
  | .activationUnblock => activationUnblock s c.env c.args

/-- The tables behind a call: `transaction` rolls a refused one back. -/
def Store.after (s : Store) (c : Call) : Store :=
  match s.call c with
  | .ok (_, t) => t
  | .error _ => s

/-- The activation that a claim hands out. -/
def leasedBy (s : Store) (c : Call) : Option String :=
  match c.tool, s.call c with
  | .activationClaim, .ok (answer, _) =>
      ((answer.get "activation").bind (·.get "activation_id")).bind Value.asStr
  | _, _ => none

end Operations

end Scheduler

end McpSurfaces
