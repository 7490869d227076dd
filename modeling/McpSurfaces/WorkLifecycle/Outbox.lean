import McpSurfaces.WorkLifecycle.Drafts
import McpSurfaces.WorkLifecycle.Proposals

/-!
The calls of the work surface that change no ticket: what stands around one, and the outbox.

* `processingContext`: `native_work_processing_context`, which keeps what it answers.
* `outboxRegister`, `outboxAck`, `outboxCompact`: who has to process the rows of a topic, who has
  processed a row, and the end of the payloads that all have processed.
-/

namespace McpSurfaces

namespace WorkLifecycle

open EventLedger (Digest)
open TaskLifecycle (stringArg requiredString sqliteError optionText Spec TaskRow)
open Table (row updateWhere)

/-! ### What stands around a ticket -/

/-- The texts in an order, and the first fifty. -/
def firstFifty {ρ : Type} (time id : ρ → String) (rows : List ρ) : List ρ :=
  (Lists.sortBy (fun a b => (compare (time a) (time b)).then (compare (id a) (id b))) rows).take 50

def Source.json (s : Source) : Value :=
  .object [("source_id", .string s.sourceId), ("ticket_id", .string s.ticketId),
    ("source_kind", .string s.name.kind), ("source_scope", .string s.name.scope),
    ("immutable_source_id", .string s.name.immutableId),
    ("policy_version", .string s.policyVersion), ("receipt_id", .string s.receiptId),
    ("admitted_at", .string s.admittedAt), ("source_ref", s.sourceRef)]

def LinkStatus.text : LinkStatus → String
  | active => "active"
  | terminal => "terminal"
  | superseded => "superseded"

/-- A link with its task. -/
def TaskLink.json (l : TaskLink) (task : TaskRow) (title : Option String) : Value :=
  .object [("ticket_id", .string l.ticketId), ("task_id", .string l.taskId),
    ("task_number", .ofInt task.number), ("link_kind", .string l.linkKind),
    ("link_status", .string l.status.text), ("task_status", .string task.status.text),
    ("task_revision", .ofInt task.revision), ("title", optionText title),
    ("linked_at", .string l.linkedAt), ("terminal_at", optionText l.terminalAt)]

def DraftDisposition.text : DraftDisposition → String
  | sent => "sent"
  | discarded => "discarded"
  | superseded => "superseded"

def DraftRef.json (d : DraftRef) : Value :=
  .object [("ticket_id", .string d.ticketId), ("draft_id", .string d.draftId),
    ("effect_claim_id", .string d.effectClaimId), ("receipt_id", .string d.receiptId),
    ("disposition", optionText (d.disposition.map DraftDisposition.text)),
    ("disposition_evidence_kind", optionText (d.evidence.map DispositionEvidence.kind)),
    ("disposition_evidence_id", optionText (d.evidence.map DispositionEvidence.id)),
    ("created_at", .string d.createdAt), ("disposed_at", optionText d.disposedAt),
    ("draft_ref", d.draftRef),
    ("disposition_evidence", optionText (d.evidence.map DispositionEvidence.text))]

/-- An event that a ticket is processed for: its row of the outbox, or its own where it has none. -/
def WorkEvent.json [FloatText] (e : WorkEvent) (row : Option OutboxRow) : Value :=
  .object ([("event_id", .string e.eventId)] ++
    (row.toList.map fun o => ("topic", .string o.topic)) ++
    [("aggregate_revision", .ofInt e.aggregateRevision), ("event_type", .string e.eventType),
      ("schema_version", .ofNat 1), ("causation_id", .string e.causationId),
      ("idempotency_key",
        .string ((row.map OutboxRow.idempotencyKey).getD e.idempotencyKey)),
      ("payload_json", .string ((row.map OutboxRow.payload).getD e.payload).canonicalText),
      ("created_at", .string ((row.map OutboxRow.createdAt).getD e.createdAt))])

namespace WorkDb

def sourcesOf (w : WorkDb) (ticketId : String) : List Value :=
  (firstFifty Source.admittedAt Source.sourceId
    (w.sources.filter fun s => s.ticketId = ticketId)).map Source.json

def taskLinksOf (w : WorkDb) (ticketId : String) : List Value :=
  ((firstFifty TaskLink.linkedAt TaskLink.taskId
    (w.links.filter fun l => l.ticketId = ticketId ∧ (w.lifecycle.task l.taskId).isSome))).filterMap
    fun l => (w.lifecycle.task l.taskId).map fun task =>
      l.json task ((row Spec.taskId w.lifecycle.specs l.taskId).map Spec.title)

def draftRefsOf (w : WorkDb) (ticketId : String) : List Value :=
  (firstFifty DraftRef.createdAt DraftRef.draftId
    (w.drafts.filter fun d => d.ticketId = ticketId)).map DraftRef.json

/-- The event that a ticket is processed for. -/
def triggering [FloatText] (w : WorkDb) (eventId : String) : Option Value :=
  (w.events.find? fun e => e.eventId = eventId).map fun e =>
    e.json (w.outbox.find? fun o => o.eventId = eventId)

/-- What stands around a ticket. -/
def context (w : WorkDb) (ticket : Ticket) (event : Value) : Value :=
  let sources := w.sourcesOf ticket.ticketId
  let links := w.taskLinksOf ticket.ticketId
  let drafts := w.draftRefsOf ticket.ticketId
  .object [("schema", .string "narada.work_lifecycle.ticket_processing_context.v1"),
    ("ticket", ticket.json), ("triggering_event", event), ("sources", .array sources),
    ("task_links", .array links), ("draft_refs", .array drafts),
    ("counts", .object [("sources", .ofNat sources.length), ("task_links", .ofNat links.length),
      ("draft_refs", .ofNat drafts.length)]),
    ("truncated", .object [("sources", .bool false), ("task_links", .bool false),
      ("draft_refs", .bool false)])]

end WorkDb

section Calls

variable [FloatText] [Digest]

/-- `native_work_processing_context`, its transaction. -/
def processingContext (env : WorkEnv) (args : Value) (w : WorkDb) :
    Except String (WorkDb × Value) := do
  let operationKey ← requiredString args "idempotency_key"
  let ticketId ← requiredString args "ticket_id"
  let eventId ← requiredString args "triggering_event_id"
  let digest := Digest.sha256 (Value.object [("ticket_id", .string ticketId),
    ("triggering_event_id", .string eventId),
    ("idempotency_key", .string operationKey)]).canonicalText
  match ← w.existingOperation operationKey digest with
  | some stored => return (w, workDomain operationKey stored)
  | none => do
      let ticket ← w.workTicket ticketId
      match w.triggering eventId with
      | none => throw "triggering_event_not_found"
      | some event => do
          let result := w.context ticket event
          let recorded ← w.recordOperation
            { operationKey, operationKind := "ticket.processing_context.load"
              requestDigest := digest, aggregateId := some ticketId
              aggregateRevision := some ticket.revision, result, createdAt := env.now 0 }
          return (recorded, workDomain operationKey result)

/-! ### The outbox -/

omit [FloatText] [Digest] in
/-- `native_work_outbox_register`. -/
def outboxRegister (args : Value) (w : WorkDb) : Except String (WorkDb × Value) := do
  let topic ← requiredString args "topic"
  let consumer ← requiredString args "consumer_id"
  let requirements :=
    if (topic, consumer) ∈ w.requirements then w.requirements
    else w.requirements ++ [(topic, consumer)]
  return ({ w with requirements }, .object [("status", .string "registered")])

omit [Digest] in
/-- `native_work_outbox_ack`. -/
def outboxAck (env : WorkEnv) (args : Value) (w : WorkDb) : Except String (WorkDb × Value) := do
  let eventId ← requiredString args "event_id"
  let consumerId ← requiredString args "consumer_id"
  match (args.get "receipt").filter fun v => v.asObject.isSome with
  | none => throw "outbox_receipt_required"
  | some given => do
      let receipt ← workRefJson given "outbox_receipt"
      if ¬ ∃ o ∈ w.outbox, o.eventId = eventId then throw "work_outbox_event_not_found"
      let new : OutboxReceipt := { eventId, consumerId, processedAt := env.now 0, receipt }
      let others := w.outboxReceipts.filter fun r =>
        ¬ (r.eventId = eventId ∧ r.consumerId = consumerId)
      return ({ w with outboxReceipts := others ++ [new] },
        .object [("status", .string "acknowledged")])

/-- Whether all who have to have processed a row. -/
def WorkDb.Processed (w : WorkDb) (o : OutboxRow) : Prop :=
  (∃ q ∈ w.requirements, q.1 = o.topic) ∧
    ∀ q ∈ w.requirements, q.1 = o.topic →
      ∃ r ∈ w.outboxReceipts, r.eventId = o.eventId ∧ r.consumerId = q.2

instance (w : WorkDb) : DecidablePred w.Processed :=
  fun _ => inferInstanceAs (Decidable (_ ∧ ∀ q ∈ w.requirements, _))

omit [FloatText] [Digest] in
/-- `native_work_outbox_compact`. What parses times is a library outside. -/
def outboxCompact (env : WorkEnv) (isTime : String → Bool) (args : Value) (w : WorkDb) :
    Except String (WorkDb × Value) := do
  let before ← requiredString args "before"
  if isTime before = false then throw "compact_before_invalid"
  let due (o : OutboxRow) : Prop := o.compactedAt = none ∧ o.createdAt < before ∧ w.Processed o
  let _ : DecidablePred due := fun _ => inferInstanceAs (Decidable (_ ∧ _))
  return ({ w with
    outbox := updateWhere due
      (fun o => { o with payload := .object [], compactedAt := some (env.now 0) }) w.outbox },
    .object [("compacted", .ofNat (w.outbox.filter fun o => due o).length)])

/-! ### Transactions -/

/-- A call that is one transaction of the work surface. -/
inductive TicketCall where
  | admitSource (env : WorkEnv) (args : Value)
  | processingContext (env : WorkEnv) (args : Value)
  | admitProposal (env : WorkEnv) (args : Value)
  | recordDraftReceipt (env : WorkEnv) (args : Value)
  | reconcileDraft (env : WorkEnv) (args : Value)
  | outboxRegister (args : Value)
  | outboxAck (env : WorkEnv) (args : Value)
  | outboxCompact (env : WorkEnv) (isTime : String → Bool) (args : Value)

namespace TicketCall

/-- The transaction of a call. -/
def transact (call : TicketCall) (w : WorkDb) : Except String (WorkDb × Value) :=
  match call with
  | admitSource env args => WorkLifecycle.admitSource env args w
  | processingContext env args => WorkLifecycle.processingContext env args w
  | admitProposal env args => WorkLifecycle.admitProposal env args w
  | recordDraftReceipt env args => WorkLifecycle.recordDraftReceipt env args w
  | reconcileDraft env args => WorkLifecycle.reconcileDraft env args w
  | outboxRegister args => WorkLifecycle.outboxRegister args w
  | outboxAck env args => WorkLifecycle.outboxAck env args w
  | outboxCompact env isTime args => WorkLifecycle.outboxCompact env isTime args w

/-- The database behind a call: `native_work_transaction` rolls back what fails. -/
def apply (call : TicketCall) (w : WorkDb) : WorkDb :=
  match call.transact w with
  | .ok (behind, _) => behind
  | .error _ => w

end TicketCall

end Calls

end WorkLifecycle

end McpSurfaces
