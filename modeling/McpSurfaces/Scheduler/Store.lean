import McpSurfaces.EventLedger.Chain
import McpSurfaces.Foundation.IsoTime
import McpSurfaces.Foundation.Str
import McpSurfaces.Foundation.Table
import McpSurfaces.Json.Canonical

/-!
The tables of the scheduler: bindings, source events, activations and receipts, with the
readers of the arguments of its calls.

* A binding says which events start which procedure, and whether its activations exclude one
  another (`singleton`) or only those of one partition (`partitioned`).
* An activation is a planned start of the procedure for one event. It is created pending or
  blocked, claimed under a lease, admitted as a run, and ends terminal.
-/

namespace McpSurfaces

namespace Scheduler

open EventLedger (Failure Digest)

/-! ### Refusals -/

/-- `error`. -/
def refusal (code message : String) : Failure :=
  .error (.object [("schema", .string "narada.scheduler_mcp.error.v1"), ("code", .string code),
    ("message", .string message)])

/-- `db_error`. -/
def dbError (code cause : String) : Failure := refusal code (code ++ ":" ++ cause)

/-! ### Arguments -/

/-- The text of an argument without the white space around it, where something is left. -/
def trimmedText (args : Map) (field : String) : Option String :=
  (((args.get field).bind Value.asStr).map Str.trim).filter (· ≠ "")

/-- The integer of an argument. -/
def integerOf (args : Map) (field : String) : Option ℤ := (args.get field).bind Value.asI64

def required (args : Map) (field : String) : Except Failure String :=
  match trimmedText args field with
  | some value => .ok value
  | none => .error (refusal (field ++ "_required") (field ++ "_required"))

def requiredInteger (args : Map) (field : String) : Except Failure ℤ :=
  match integerOf args field with
  | some value => .ok value
  | none => .error (refusal (field ++ "_required") (field ++ "_required"))

/-- `nonnegative`: an integer with a fallback, refused below zero. -/
def nonnegative (args : Map) (field : String) (fallback : ℕ) : Except Failure ℕ :=
  match integerOf args field with
  | none => .ok fallback
  | some (.ofNat n) => .ok n
  | some (.negSucc _) => .error (refusal (field ++ "_invalid") (field ++ "_invalid"))

/-- `MAX_EVENT_BYTES`. -/
def maxEventBytes : ℕ := 16384

/-- `MAX_ERROR_BYTES`, counted in characters. -/
def maxErrorBytes : ℕ := 2048

/-! ### Bindings -/

inductive Concurrency where
  | singleton
  | partitioned
deriving DecidableEq, Repr

namespace Concurrency

def text : Concurrency → String
  | singleton => "singleton"
  | partitioned => "partitioned"

def ofText : String → Option Concurrency
  | "singleton" => some singleton
  | "partitioned" => some partitioned
  | _ => none

end Concurrency

inductive BindingStatus where
  | active
  | paused
  | retired
deriving DecidableEq, Repr

def BindingStatus.text : BindingStatus → String
  | active => "active"
  | paused => "paused"
  | retired => "retired"

/-- What a binding is to do, as `normalize_binding` returns it. -/
structure BindingSpec where
  bindingId : String
  triggerKind : String
  sourceTopic : String
  sourceSopId : Option String
  terminalOutcomes : List String
  targetSopId : String
  targetTemplateVersion : String
  concurrency : Concurrency
  delayByOutcomeMs : OrderedMap String ℕ
  defaultDelayMs : ℕ
  retryBaseMs : ℕ
  retryMaxMs : ℕ
  maxAttempts : ℕ
  maxAttempts_pos : 0 < maxAttempts

/-- An optional text as JSON. -/
def optionText : Option String → Value
  | some s => .string s
  | none => .null

/-- The fields of a specification, in the order of their insertion. -/
def BindingSpec.fields (spec : BindingSpec) : Map :=
  [("binding_id", .string spec.bindingId), ("trigger_kind", .string spec.triggerKind),
    ("source_topic", .string spec.sourceTopic), ("source_sop_id", optionText spec.sourceSopId),
    ("terminal_outcomes", .array (spec.terminalOutcomes.map .string)),
    ("target_sop_id", .string spec.targetSopId),
    ("target_template_version", .string spec.targetTemplateVersion),
    ("concurrency", .string spec.concurrency.text),
    ("delay_by_outcome_ms", .object (spec.delayByOutcomeMs.map fun e => (e.1, .ofNat e.2))),
    ("default_delay_ms", .ofNat spec.defaultDelayMs), ("retry_base_ms", .ofNat spec.retryBaseMs),
    ("retry_max_ms", .ofNat spec.retryMaxMs), ("max_attempts", .ofNat spec.maxAttempts),
    ("blocked_policy", .string "manual_unblock")]

/-- A row of `scheduler_bindings`. -/
structure Binding where
  spec : BindingSpec
  status : BindingStatus
  revision : ℕ
  specDigest : String
  createdAt : String
  updatedAt : String

/-- A binding under a new specification: its status and its creation stay. -/
def Binding.respecify (b : Binding) (spec : BindingSpec) (specDigest now : String) : Binding :=
  { b with spec, revision := b.revision + 1, specDigest, updatedAt := now }

/-- A binding under a new status. -/
def Binding.setStatus (b : Binding) (status : BindingStatus) (now : String) : Binding :=
  { b with status, revision := b.revision + 1, updatedAt := now }

/-- `binding_from_row`. -/
def Binding.json (b : Binding) : Value :=
  .object (b.spec.fields ++ [("status", .string b.status.text), ("revision", .ofNat b.revision),
    ("spec_digest", .string b.specDigest), ("created_at", .string b.createdAt),
    ("updated_at", .string b.updatedAt)])

/-! ### Events -/

/-- An event, as `normalize_event` returns it. -/
structure SourceEvent where
  eventId : String
  topic : String
  partitionKey : String
  aggregateId : String
  causationId : String
  idempotencyKey : String
  aggregateRevision : ℕ
  schemaVersion : ℕ
  payload : Map
  occurredAt : String

/-- The fields of an event, in the order of their insertion. -/
def SourceEvent.fields (e : SourceEvent) : Map :=
  [("event_id", .string e.eventId), ("topic", .string e.topic),
    ("partition_key", .string e.partitionKey), ("aggregate_id", .string e.aggregateId),
    ("causation_id", .string e.causationId), ("idempotency_key", .string e.idempotencyKey),
    ("aggregate_revision", .ofNat e.aggregateRevision),
    ("schema_version", .ofNat e.schemaVersion), ("payload", .object e.payload),
    ("occurred_at", .string e.occurredAt)]

/-- A row of `scheduler_source_events`. -/
structure EventRow where
  event : SourceEvent
  digest : String
  admittedAt : String

/-! ### Activations -/

inductive ActivationStatus where
  | pending
  | leased
  | admitted
  | terminal
  | blocked
deriving DecidableEq, Repr

def ActivationStatus.text : ActivationStatus → String
  | pending => "pending"
  | leased => "leased"
  | admitted => "admitted"
  | terminal => "terminal"
  | blocked => "blocked"

/-- A row of `scheduler_activations`. -/
structure Activation where
  activationId : String
  bindingId : String
  sourceEventId : String
  occurrenceKey : String
  targetSopId : String
  targetTemplateVersion : String
  partitionKey : String
  dueAt : String
  status : ActivationStatus
  attemptCount : ℕ
  leaseOwner : Option String
  leaseToken : Option String
  leaseExpiresAt : Option String
  sopRunId : Option String
  terminalOutcome : Option String
  lastError : Option String
  createdAt : String
  updatedAt : String
deriving DecidableEq

namespace Activation

/-- `activation_from_row`. -/
def json (a : Activation) : Value :=
  .object [("activation_id", .string a.activationId), ("binding_id", .string a.bindingId),
    ("source_event_id", .string a.sourceEventId), ("occurrence_key", .string a.occurrenceKey),
    ("target_sop_id", .string a.targetSopId),
    ("target_template_version", .string a.targetTemplateVersion),
    ("partition_key", .string a.partitionKey), ("due_at", .string a.dueAt),
    ("status", .string a.status.text), ("attempt_count", .ofNat a.attemptCount),
    ("lease_owner", optionText a.leaseOwner), ("lease_token", optionText a.leaseToken),
    ("lease_expires_at", optionText a.leaseExpiresAt), ("sop_run_id", optionText a.sopRunId),
    ("terminal_outcome", optionText a.terminalOutcome), ("last_error", optionText a.lastError),
    ("created_at", .string a.createdAt), ("updated_at", .string a.updatedAt)]

/-- `lease_expires_at<=?`: a lease without an end is never over. -/
def ExpiredAt (a : Activation) (now : String) : Prop := ∃ e ∈ a.leaseExpiresAt, e ≤ now

instance (a : Activation) (now : String) : Decidable (a.ExpiredAt now) :=
  match h : a.leaseExpiresAt with
  | some e => decidable_of_iff (e ≤ now) (by simp [ExpiredAt, h])
  | none => isFalse (by simp [ExpiredAt, h])

/-- A lease that is held or a run that was admitted. -/
def Occupies (a : Activation) : Prop := a.status = .leased ∨ a.status = .admitted

instance (a : Activation) : Decidable a.Occupies := inferInstanceAs (Decidable (_ ∨ _))

/-- A status with no lease. -/
def release (a : Activation) (status : ActivationStatus) (now : String) : Activation :=
  { a with status, leaseOwner := none, leaseToken := none, leaseExpiresAt := none, updatedAt := now }

/-- Under a new lease. -/
def lease (a : Activation) (consumer token expires now : String) : Activation :=
  { a with
    status := .leased, leaseOwner := some consumer, leaseToken := some token
    leaseExpiresAt := some expires, updatedAt := now }

/-- Cancelled by a pause of the binding. -/
def cancelPaused (a : Activation) (error now : String) : Activation :=
  { a.release .terminal now with
    terminalOutcome := some "cancelled_binding_paused", lastError := some error }

/-- Back in the queue when the lease is over, as a failed attempt. -/
def recover (a : Activation) (now : String) : Activation :=
  { a.release .pending now with
    attemptCount := a.attemptCount + 1, lastError := some "lease_expired" }

/-- Admitted as a run. -/
def admitSop (a : Activation) (sopRunId now : String) : Activation :=
  { a.release .admitted now with sopRunId := some sopRunId }

/-- After a reported failure: back in the queue, or blocked. -/
def fail (a : Activation) (retry : Bool) (attempt : ℕ) (due error now : String) : Activation :=
  { a.release (if retry then .pending else .blocked) now with
    attemptCount := attempt, dueAt := due, lastError := some error }

/-- At the end of its run. -/
def resolve (a : Activation) (outcome now : String) : Activation :=
  { a with status := .terminal, terminalOutcome := some outcome, updatedAt := now }

/-- Back in the queue by hand. -/
def unblock (a : Activation) (due now : String) : Activation :=
  { a with status := .pending, dueAt := due, lastError := none, updatedAt := now }

end Activation

/-- A row of `scheduler_activation_receipts`. -/
structure ReceiptRow where
  activationId : String
  receiptKind : String
  receiptId : String
  receiptJson : String
  recordedAt : String

/-! ### The store -/

/-- The tables of the scheduler. -/
structure Store where
  bindings : List Binding
  events : List EventRow
  activations : List Activation
  receipts : List ReceiptRow

namespace Store

/-- A prepared store. -/
def empty : Store := ⟨[], [], [], []⟩

/-- `query_binding`. -/
def binding (s : Store) (id : String) : Option Binding := Table.row (·.spec.bindingId) s.bindings id

/-- The row of an event. -/
def event (s : Store) (id : String) : Option EventRow := Table.row (·.event.eventId) s.events id

/-- `query_activation`. -/
def activation (s : Store) (id : String) : Option Activation :=
  Table.row (·.activationId) s.activations id

lemma key_of_binding {s : Store} {id : String} {b : Binding} (h : s.binding id = some b) :
    b.spec.bindingId = id := by
  have hkey := Table.key_of_row h
  exact hkey

lemma key_of_event {s : Store} {id : String} {r : EventRow} (h : s.event id = some r) :
    r.event.eventId = id := by
  have hkey := Table.key_of_row h
  exact hkey

lemma key_of_activation {s : Store} {id : String} {a : Activation}
    (h : s.activation id = some a) : a.activationId = id := Table.key_of_row h

/-- `require_binding`. -/
def requireBinding (s : Store) (id : String) : Except Failure Binding :=
  match s.binding id with
  | some b => .ok b
  | none => .error (refusal "scheduler_binding_not_found" ("scheduler_binding_not_found:" ++ id))

/-- `require_activation`. -/
def requireActivation (s : Store) (id : String) : Except Failure Activation :=
  match s.activation id with
  | some a => .ok a
  | none =>
      .error (refusal "scheduler_activation_not_found" "scheduler_activation_not_found")

/-- Whether the binding of an activation has one of the statuses. -/
def BindingIn (s : Store) (a : Activation) (statuses : List BindingStatus) : Prop :=
  ∃ b ∈ s.bindings, b.spec.bindingId = a.bindingId ∧ b.status ∈ statuses

instance (s : Store) (a : Activation) (statuses : List BindingStatus) :
    Decidable (s.BindingIn a statuses) := inferInstanceAs (Decidable (∃ b ∈ s.bindings, _))

/-- `update scheduler_bindings set … where binding_id=?`. -/
def updateBinding (s : Store) (id : String) (set : Binding → Binding) : Store :=
  { s with bindings := Table.updateWhere (fun b => b.spec.bindingId = id) set s.bindings }

/-- `update scheduler_activations set … where …`. -/
def updateActivations (s : Store) (p : Activation → Prop) [DecidablePred p]
    (set : Activation → Activation) : Store :=
  { s with activations := Table.updateWhere p set s.activations }

/-- `update scheduler_activations set … where activation_id=?`. -/
def updateActivation (s : Store) (id : String) (set : Activation → Activation) : Store :=
  s.updateActivations (fun a => a.activationId = id) set

end Store

end Scheduler

end McpSurfaces
