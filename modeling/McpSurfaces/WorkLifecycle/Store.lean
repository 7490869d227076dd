import McpSurfaces.Json.Size
import McpSurfaces.TaskLifecycle.Records

/-!
The database of the work surface: the tasks, and the tickets beside them.

* A ticket is made of sources, which are found again by their correlation keys. It has links to
  tasks, claims of effects, and references to drafts.
* Every change of a ticket leaves an event and a row of the outbox, and every call on a ticket its
  result under its operation key. Columns of JSON hold the values of their texts.
* `workTransition`, `workEvent`, `existingOperation`, `recordOperation`: the steps that the calls
  on tickets share. They fail with the error for which the transaction of a call is rolled back.
-/

namespace McpSurfaces

namespace WorkLifecycle

open EventLedger (Digest)
open TaskLifecycle (Db Status TaskRow optionText textList stringArg requiredString requiredI64
  sqliteError)
open Table (row updateWhere firstBy)

/-! ### Rows -/

inductive TicketStatus where
  | actionable
  | effectClaimed
  | waitingOnDraft
  | waitingOnTask
  | blocked
  | resolved
deriving DecidableEq, Repr

def TicketStatus.text : TicketStatus → String
  | actionable => "actionable"
  | effectClaimed => "effect_claimed"
  | waitingOnDraft => "waiting_on_draft"
  | waitingOnTask => "waiting_on_task"
  | blocked => "blocked"
  | resolved => "resolved"

/-- A row of `tickets`. -/
structure Ticket where
  ticketId : String
  number : ℤ
  status : TicketStatus
  revision : ℤ
  summary : String
  resolutionCode : Option String
  blockerCode : Option String
  createdAt : String
  updatedAt : String
  terminalAt : Option String

/-- What names a source outside. -/
structure SourceName where
  kind : String
  scope : String
  immutableId : String
deriving DecidableEq, Repr

/-- A row of `ticket_sources`. -/
structure Source where
  sourceId : String
  ticketId : String
  name : SourceName
  sourceRef : Value
  policyVersion : String
  receiptId : String
  admittedAt : String

structure CorrelationKey where
  kind : String
  scope : String
  value : String
deriving DecidableEq, Repr

/-- A row of `ticket_correlation_keys`. -/
structure KeyRow where
  key : CorrelationKey
  ticketId : String
  policyVersion : String
  admittedAt : String

inductive LinkStatus where
  | active
  | terminal
  | superseded
deriving DecidableEq, Repr

/-- A row of `ticket_task_links`. -/
structure TaskLink where
  ticketId : String
  taskId : String
  linkKind : String
  operationKey : String
  status : LinkStatus
  linkedAt : String
  terminalAt : Option String

inductive ClaimStatus where
  | claimed
  | completed
  | superseded
deriving DecidableEq, Repr

/-- A row of `ticket_effect_claims`. -/
structure EffectClaim where
  claimId : String
  ticketId : String
  ticketRevision : ℤ
  effectKind : String
  operationKey : String
  requestDigest : String
  status : ClaimStatus
  receiptId : Option String
  receipt : Option Value
  claimedAt : String
  completedAt : Option String

inductive DraftDisposition where
  | sent
  | discarded
  | superseded
deriving DecidableEq, Repr

/-- What a disposition rests on. -/
structure DispositionEvidence where
  kind : String
  id : String
  text : String
deriving DecidableEq, Repr

/-- A row of `ticket_draft_refs`. -/
structure DraftRef where
  ticketId : String
  draftId : String
  effectClaimId : String
  draftRef : Value
  receiptId : String
  disposition : Option DraftDisposition
  evidence : Option DispositionEvidence
  createdAt : String
  disposedAt : Option String

inductive AggregateKind where
  | ticket
  | task
deriving DecidableEq, Repr

/-- A row of `work_lifecycle_events`. -/
structure WorkEvent where
  eventId : String
  aggregateKind : AggregateKind
  aggregateId : String
  aggregateRevision : ℤ
  eventType : String
  causationId : String
  idempotencyKey : String
  payload : Value
  createdAt : String

/-- A row of `work_outbox`. -/
structure OutboxRow where
  eventId : String
  topic : String
  partitionKey : String
  aggregateKind : AggregateKind
  aggregateId : String
  aggregateRevision : ℤ
  causationId : String
  idempotencyKey : String
  payload : Value
  createdAt : String
  availableAt : String
  compactedAt : Option String

/-- A row of `work_operations`. -/
structure WorkOperation where
  operationKey : String
  operationKind : String
  requestDigest : String
  aggregateId : Option String
  aggregateRevision : Option ℤ
  result : Value
  createdAt : String

/-- A row of `work_outbox_receipts`. -/
structure OutboxReceipt where
  eventId : String
  consumerId : String
  processedAt : String
  receipt : Value

structure WorkDb where
  lifecycle : Db := {}
  tickets : List Ticket := []
  sources : List Source := []
  keys : List KeyRow := []
  links : List TaskLink := []
  claims : List EffectClaim := []
  drafts : List DraftRef := []
  events : List WorkEvent := []
  outbox : List OutboxRow := []
  operations : List WorkOperation := []
  /-- The topic and the consumer of each row of `work_outbox_consumer_requirements`. -/
  requirements : List (String × String) := []
  outboxReceipts : List OutboxReceipt := []
  nextTicket : ℤ := 1

/-! ### Queries -/

namespace WorkDb

def ticket (w : WorkDb) (ticketId : String) : Option Ticket :=
  row Ticket.ticketId w.tickets ticketId

/-- The source with a name. -/
def sourceNamed (w : WorkDb) (name : SourceName) : Option Source :=
  row Source.name w.sources name

/-- The ticket that a correlation key belongs to. -/
def correlated (w : WorkDb) (key : CorrelationKey) : Option String :=
  (row KeyRow.key w.keys key).map KeyRow.ticketId

def claim (w : WorkDb) (claimId ticketId : String) : Option EffectClaim :=
  w.claims.find? fun c => c.claimId = claimId ∧ c.ticketId = ticketId

def draft (w : WorkDb) (ticketId draftId : String) : Option DraftRef :=
  w.drafts.find? fun d => d.ticketId = ticketId ∧ d.draftId = draftId

def operation (w : WorkDb) (key : String) : Option WorkOperation :=
  row WorkOperation.operationKey w.operations key

/-- The drafts of a ticket that have no disposition. -/
def openDrafts (w : WorkDb) (ticketId : String) : List DraftRef :=
  w.drafts.filter fun d => d.ticketId = ticketId ∧ d.disposition = none

/-- The claims of a ticket that are neither completed nor superseded. -/
def openClaims (w : WorkDb) (ticketId : String) : List EffectClaim :=
  w.claims.filter fun c => c.ticketId = ticketId ∧ c.status = .claimed

end WorkDb

def Ticket.json (t : Ticket) : Value :=
  .object [("ticket_id", .string t.ticketId), ("ticket_number", .ofInt t.number),
    ("status", .string t.status.text), ("revision", .ofInt t.revision),
    ("summary", .string t.summary), ("resolution_code", optionText t.resolutionCode),
    ("blocker_code", optionText t.blockerCode), ("created_at", .string t.createdAt),
    ("updated_at", .string t.updatedAt), ("terminal_at", optionText t.terminalAt)]

/-! ### References -/

/-- The keys under which a reference would hold a payload. -/
def forbiddenKeys : List String :=
  ["body", "body_html", "body_text", "content", "email_body", "html", "raw", "raw_message",
    "transcript"]

/-- `eq_ignore_ascii_case`. -/
def eqIgnoreAsciiCase (s t : String) : Bool := s.toList.map Char.toLower = t.toList.map Char.toLower

mutual

/-- Refuse payloads anywhere in a reference. -/
def inspectRef (field path : String) : Value → Except String Unit
  | .object fields => inspectFields field path fields
  | .array items => inspectItems field path 0 items
  | _ => .ok ()

def inspectFields (field path : String) : List (String × Value) → Except String Unit
  | [] => .ok ()
  | (key, nested) :: rest =>
      if forbiddenKeys.any (eqIgnoreAsciiCase · key) then
        .error (field ++ "_contains_unbounded_payload:" ++ path ++ "." ++ key)
      else
        match inspectRef field (path ++ "." ++ key) nested with
        | .error e => .error e
        | .ok _ => inspectFields field path rest

def inspectItems (field path : String) (index : ℕ) : List Value → Except String Unit
  | [] => .ok ()
  | nested :: rest =>
      match inspectRef field (path ++ "[" ++ toString index ++ "]") nested with
      | .error e => .error e
      | .ok _ => inspectItems field path (index + 1) rest

end

section Steps

variable [FloatText]

/-- `native_work_ref_json`: a reference as its column holds it. -/
def workRefJson (value : Value) (field : String) : Except String Value := do
  if value.asObject.isNone then throw (field ++ "_required")
  inspectRef field field value
  if 16384 < value.bytes then throw (field ++ "_too_large")
  return value.canonicalize

/-- `native_work_domain`. -/
def workDomain (operationKey : String) (result : Value) : Value :=
  .object [("schema", .string "narada.domain_operation.v1"),
    ("operation_ref", .string ("work-lifecycle:" ++ operationKey)),
    ("outcome", .string "completed"), ("result", result)]

namespace WorkDb

/-! ### Operations -/

/-- `native_work_existing_operation`. -/
def existingOperation (w : WorkDb) (operationKey requestDigest : String) :
    Except String (Option Value) :=
  match w.operation operationKey with
  | none => .ok none
  | some stored =>
      if stored.requestDigest ≠ requestDigest then
        .error ("work_operation_idempotency_conflict:" ++ operationKey)
      else .ok (some stored.result)

/-- `native_work_record_operation`. -/
def recordOperation (w : WorkDb) (o : WorkOperation) : Except String WorkDb := do
  if 32768 < o.result.bytes then throw "operation_result_too_large"
  if (w.operation o.operationKey).isSome then
    throw (sqliteError "UNIQUE constraint failed: work_operations.operation_key")
  return { w with operations := w.operations ++ [o] }

/-! ### Tickets -/

/-- `native_work_ticket`. -/
def workTicket (w : WorkDb) (ticketId : String) : Except String Ticket :=
  match w.ticket ticketId with
  | some ticket => .ok ticket
  | none => .error ("ticket_not_found:" ++ ticketId)

/-- What a transition gives a ticket. -/
structure Transition where
  status : TicketStatus
  summary : Option String
  resolutionCode : Option String
  blockerCode : Option String
  terminalAt : Option String
  updatedAt : String

/-- A ticket behind a transition. -/
def Transition.apply (m : Transition) (t : Ticket) : Ticket :=
  { t with
    status := m.status
    revision := t.revision + 1
    summary := m.summary.getD t.summary
    resolutionCode := m.resolutionCode
    blockerCode := m.blockerCode
    terminalAt := m.terminalAt
    updatedAt := m.updatedAt }

def updateTicket (w : WorkDb) (ticketId : String) (set : Ticket → Ticket) : WorkDb :=
  { w with tickets := updateWhere (fun t => t.ticketId = ticketId) set w.tickets }

/-- `native_work_transition`. -/
def workTransition (w : WorkDb) (ticketId : String) (m : Transition) :
    Except String (WorkDb × Ticket) := do
  let _ ← w.workTicket ticketId
  let moved := w.updateTicket ticketId m.apply
  return (moved, ← moved.workTicket ticketId)

end WorkDb

/-! ### Events -/

variable [Digest]

/-- `native_work_stable_id`. -/
def stableId (name : String) (value : Value) (length : ℕ) : String :=
  name ++ "_" ++ String.ofList ((Digest.sha256 value.canonicalText).toList.take length)

/-- What an event of a ticket says. -/
structure EventNote where
  eventType : String
  causationId : String
  operationKey : String
  topic : String
  extra : Map
  timestamp : String

namespace EventNote

/-- The payload of an event. -/
def payload (n : EventNote) (t : Ticket) : Value :=
  .object (n.extra.foldl (fun fields e => OrderedMap.insert fields e.1 e.2)
    [("ticket_id", .string t.ticketId), ("ticket_number", .ofInt t.number),
      ("ticket_revision", .ofInt t.revision), ("ticket_status", .string t.status.text),
      ("event_type", .string n.eventType)])

def eventId (n : EventNote) (t : Ticket) : String :=
  stableId "event" (.object [("aggregate_kind", .string "ticket"),
    ("aggregate_id", .string t.ticketId), ("aggregate_revision", .ofInt t.revision),
    ("event_type", .string n.eventType), ("idempotency_key", .string n.operationKey)]) 32

/-- The row of `work_lifecycle_events`. -/
def event (n : EventNote) (t : Ticket) : WorkEvent where
  eventId := n.eventId t
  aggregateKind := .ticket
  aggregateId := t.ticketId
  aggregateRevision := t.revision
  eventType := n.eventType
  causationId := n.causationId
  idempotencyKey := "event:" ++ n.operationKey
  payload := n.payload t
  createdAt := n.timestamp

/-- The row of `work_outbox`. -/
def outbox (n : EventNote) (t : Ticket) : OutboxRow where
  eventId := n.eventId t
  topic := n.topic
  partitionKey := t.ticketId
  aggregateKind := .ticket
  aggregateId := t.ticketId
  aggregateRevision := t.revision
  causationId := n.causationId
  idempotencyKey := "outbox:" ++ n.operationKey
  payload := n.payload t
  createdAt := n.timestamp
  availableAt := n.timestamp
  compactedAt := none

end EventNote

namespace WorkDb

/-- Whether an event cannot be inserted. -/
def EventTaken (w : WorkDb) (e : WorkEvent) : Prop :=
  ∃ old ∈ w.events, old.eventId = e.eventId ∨ old.idempotencyKey = e.idempotencyKey

instance (w : WorkDb) (e : WorkEvent) : Decidable (w.EventTaken e) :=
  inferInstanceAs (Decidable (∃ old ∈ w.events, _))

/-- Whether a row of the outbox cannot be inserted. -/
def OutboxTaken (w : WorkDb) (o : OutboxRow) : Prop :=
  ∃ old ∈ w.outbox, old.eventId = o.eventId ∨ old.idempotencyKey = o.idempotencyKey

instance (w : WorkDb) (o : OutboxRow) : Decidable (w.OutboxTaken o) :=
  inferInstanceAs (Decidable (∃ old ∈ w.outbox, _))

/-- `native_work_event`. -/
def workEvent (w : WorkDb) (t : Ticket) (n : EventNote) : Except String (WorkDb × String) := do
  if 16384 < (n.payload t).bytes then throw "event_payload_too_large"
  if w.EventTaken (n.event t) then
    throw (sqliteError "UNIQUE constraint failed: work_lifecycle_events")
  if w.OutboxTaken (n.outbox t) then throw (sqliteError "UNIQUE constraint failed: work_outbox")
  return ({ w with events := w.events ++ [n.event t], outbox := w.outbox ++ [n.outbox t] },
    n.eventId t)

end WorkDb

end Steps

end WorkLifecycle

end McpSurfaces
