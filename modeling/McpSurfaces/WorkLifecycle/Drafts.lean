import McpSurfaces.Foundation.Str
import McpSurfaces.WorkLifecycle.Sources

/-!
The drafts of a ticket: `native_work_record_draft_receipt` and `native_work_reconcile_draft`.

* `ReceiptRequest`, `recordDraftReceipt`: a draft is there. Its claim is completed and the other
  drafts of the ticket give way to it, unless the ticket has moved on since the claim.
* `Evidence`, `ReconcileRequest`, `reconcileDraft`: a draft has been sent or discarded. The
  evidence is checked against the draft, but not what became of the draft before.
-/

namespace McpSurfaces

namespace WorkLifecycle

open EventLedger (Digest)
open TaskLifecycle (stringArg requiredString boolArg sqliteError textList)
open Table (row updateWhere)

/-! ### What the two calls share -/

/-- The digits of a digest. -/
def isDigestChar (c : Char) : Bool := c.isDigit || ('a' ≤ c && c ≤ 'f')

/-- The form of a digest: 64 digits. -/
def DigestForm (s : String) : Prop := s.utf8ByteSize = 64 ∧ s.toList.all isDigestChar = true

instance : DecidablePred DigestForm := fun _ => inferInstanceAs (Decidable (_ ∧ _))

/-- The drafts of a ticket that give way to one. -/
def Supersedes (ticketId draftId : String) (d : DraftRef) : Prop :=
  d.ticketId = ticketId ∧ d.draftId ≠ draftId ∧ d.disposition = none

instance (ticketId draftId : String) : DecidablePred (Supersedes ticketId draftId) :=
  fun _ => inferInstanceAs (Decidable (_ ∧ _))

/-- A draft that has been disposed of. -/
def DraftRef.disposed (disposition : DraftDisposition) (evidence : DispositionEvidence)
    (now : String) (d : DraftRef) : DraftRef :=
  { d with
    disposition := some disposition
    evidence := some evidence
    disposedAt := some now }

/-- The order in which drafts give way. -/
def draftOrder (a b : DraftRef) : Ordering :=
  (compare a.createdAt b.createdAt).then (compare a.draftId b.draftId)

namespace WorkDb

/-- The drafts that give way to one. -/
def superseded (w : WorkDb) (ticketId draftId : String) : List DraftRef :=
  Lists.sortBy draftOrder (w.drafts.filter fun d => Supersedes ticketId draftId d)

/-- Let the other drafts of a ticket give way to one. -/
def supersede (w : WorkDb) (ticketId draftId : String) (evidence : DispositionEvidence)
    (now : String) : WorkDb :=
  { w with
    drafts := updateWhere (Supersedes ticketId draftId) (.disposed .superseded evidence now)
      w.drafts }

end WorkDb

/-- A stored result under another status. -/
def replayed (status : String) (stored : Value) : Value :=
  match stored with
  | .object fields => .object (OrderedMap.insert fields "status" (.string status))
  | other => other

/-- What a call on a draft gives a ticket. -/
def draftTransition (status : TicketStatus) (resolutionCode terminalAt : Option String)
    (now : String) : WorkDb.Transition where
  status := status
  summary := none
  resolutionCode := resolutionCode
  blockerCode := none
  terminalAt := terminalAt
  updatedAt := now

/-- The answer of a call on a draft. -/
def draftAnswer (status : String) (ticket : Ticket) (eventId : String) : Value :=
  .object [("status", .string status), ("ticket", ticket.json), ("event_id", .string eventId)]

/-! ### Receipts -/

/-- What a receipt says. -/
structure ReceiptRequest where
  ticketId : String
  claimId : String
  draftOperation : String
  requestDigest : String
  receiptId : String
  draftId : String
  draftRef : Value
  operationKey : String
  causationId : String

section Requests

variable [FloatText]

/-- The first part of `native_work_record_draft_receipt`: its arguments. -/
def receiptRequest (args : Value) : Except String ReceiptRequest := do
  let ticketId ← requiredString args "ticket_id"
  let claimId ← requiredString args "effect_claim_id"
  let draftOperation ← requiredString args "draft_operation_key"
  let requestDigest ← requiredString args "draft_request_digest"
  if ¬ DigestForm requestDigest then throw "draft_request_digest_invalid"
  let receiptId ← requiredString args "receipt_id"
  let draftId ← requiredString args "draft_id"
  let draftRef := (args.get "draft_ref").getD (.object [])
  let _ ← workRefJson draftRef "draft_ref"
  let operationKey ← requiredString args "idempotency_key"
  let causationId ← requiredString args "causation_id"
  return { ticketId, claimId, draftOperation, requestDigest, receiptId, draftId, draftRef
           operationKey, causationId }

variable [Digest]

namespace ReceiptRequest

def json (r : ReceiptRequest) : Value :=
  .object [("ticket_id", .string r.ticketId), ("effect_claim_id", .string r.claimId),
    ("draft_operation_key", .string r.draftOperation),
    ("draft_request_digest", .string r.requestDigest), ("receipt_id", .string r.receiptId),
    ("draft_id", .string r.draftId), ("draft_ref", r.draftRef),
    ("idempotency_key", .string r.operationKey), ("causation_id", .string r.causationId)]

def digest (r : ReceiptRequest) : String := Digest.sha256 r.json.canonicalText

/-- The operation under which the answer of a receipt is stored. -/
def operation (r : ReceiptRequest) (revision : ℤ) (result : Value) (now : String) :
    WorkOperation where
  operationKey := r.operationKey
  operationKind := "ticket.draft.receipt"
  requestDigest := r.digest
  aggregateId := some r.ticketId
  aggregateRevision := some revision
  result := result
  createdAt := now

section

omit [FloatText] [Digest]

/-- What the event of a receipt says. -/
def note (r : ReceiptRequest) (eventType : String) (extra : Map) (now : String) : EventNote where
  eventType := eventType
  causationId := r.causationId
  operationKey := r.operationKey
  topic := "work.ticket-lifecycle.v1"
  extra := extra
  timestamp := now

/-- The receipt as its claim keeps it. -/
def receipt (r : ReceiptRequest) : Value :=
  .object [("draft_id", .string r.draftId), ("draft_ref", r.draftRef)]

end

/-- What the drafts rest on that give way to the one of a receipt. -/
def supersession (r : ReceiptRequest) : DispositionEvidence where
  kind := "system_superseded_by_newer_draft"
  id := r.draftId
  text := Digest.sha256 (Value.object
    [("schema", .string "narada.work_lifecycle.draft_supersession.v1"),
      ("superseded_by_draft_id", .string r.draftId),
      ("superseded_by_effect_claim_id", .string r.claimId)]).canonicalText

/-- The draft of a receipt. -/
def draft (r : ReceiptRequest) (now : String) : DraftRef where
  ticketId := r.ticketId
  draftId := r.draftId
  effectClaimId := r.claimId
  draftRef := r.draftRef.canonicalize
  receiptId := r.receiptId
  disposition := none
  evidence := none
  createdAt := now
  disposedAt := none

end ReceiptRequest

namespace WorkDb

/-- The draft with an id, or a new one. One that is there keeps its claim and its disposition. -/
def upsertDraft (w : WorkDb) (new : DraftRef) : WorkDb :=
  if (w.draft new.ticketId new.draftId).isSome then
    { w with
      drafts := updateWhere (fun d => d.ticketId = new.ticketId ∧ d.draftId = new.draftId)
        (fun d => { d with draftRef := new.draftRef, receiptId := new.receiptId }) w.drafts }
  else { w with drafts := w.drafts ++ [new] }

def supersedeClaim (w : WorkDb) (claimId : String) : WorkDb :=
  { w with
    claims := updateWhere (fun c => c.claimId = claimId) (fun c => { c with status := .superseded })
      w.claims }

/-- Complete a claim that is neither completed nor superseded. -/
def completeClaim (w : WorkDb) (r : ReceiptRequest) (now : String) : WorkDb :=
  { w with
    claims := updateWhere (fun c => c.claimId = r.claimId ∧ c.status = .claimed)
      (fun c => { c with
        status := .completed
        receiptId := some r.receiptId
        receipt := some r.receipt.canonicalize
        completedAt := some now }) w.claims }

end WorkDb

/-- A receipt for a ticket that has moved on: the claim gives way, whatever it was. -/
def supersedeReceipt (env : WorkEnv) (r : ReceiptRequest) (claim : EffectClaim) (ticket : Ticket)
    (w : WorkDb) : Except String (WorkDb × Value) := do
  let (noted, eventId) ← (w.supersedeClaim r.claimId).workEvent ticket
    (r.note "ticket.draft_effect.superseded"
      [("effect_claim_id", .string r.claimId), ("claimed_revision", .ofInt claim.ticketRevision),
        ("current_revision", .ofInt ticket.revision)] (env.now 1))
  let result := draftAnswer "superseded" ticket eventId
  let recorded ← noted.recordOperation (r.operation ticket.revision result (env.now 2))
  return (recorded, workDomain r.operationKey result)

/-- The claims and the drafts behind a receipt that is accepted. -/
def ReceiptRequest.received (r : ReceiptRequest) (now : String) (w : WorkDb) : WorkDb :=
  ((w.completeClaim r now).upsertDraft (r.draft now)).supersede r.ticketId r.draftId
    r.supersession now

/-- A receipt for a ticket that waits for it. -/
def acceptReceipt (env : WorkEnv) (r : ReceiptRequest) (claim : EffectClaim) (w : WorkDb) :
    Except String (WorkDb × Value) := do
  if claim.status = .claimed ∧ 16384 < r.receipt.bytes then
    throw (sqliteError "CHECK constraint failed: ticket_effect_claims")
  let (moved, ticket) ← (r.received (env.now 0) w).workTransition r.ticketId
    (draftTransition .waitingOnDraft none none (env.now 1))
  let (noted, eventId) ← moved.workEvent ticket (r.note "ticket.draft.receipt_recorded"
    [("effect_claim_id", .string r.claimId), ("draft_id", .string r.draftId),
      ("receipt_id", .string r.receiptId)] (env.now 2))
  let result := draftAnswer "recorded" ticket eventId
  let recorded ← noted.recordOperation (r.operation ticket.revision result (env.now 3))
  return (recorded, workDomain r.operationKey result)

/-- `native_work_record_draft_receipt`, its transaction. -/
def recordDraftReceipt (env : WorkEnv) (args : Value) (w : WorkDb) :
    Except String (WorkDb × Value) := do
  let r ← receiptRequest args
  match ← w.existingOperation r.operationKey r.digest with
  | some stored =>
      return (w, workDomain r.operationKey
        (if stored.get "status" = some (.string "recorded") then replayed "already_recorded" stored
          else stored))
  | none =>
      match w.claim r.claimId r.ticketId with
      | none => throw "ticket_effect_claim_not_found"
      | some claim => do
          if claim.operationKey ≠ r.draftOperation then
            throw "ticket_effect_claim_operation_mismatch"
          if claim.requestDigest ≠ r.requestDigest then
            throw "ticket_effect_claim_request_digest_mismatch"
          let ticket ← w.workTicket r.ticketId
          if ticket.revision ≠ claim.ticketRevision then supersedeReceipt env r claim ticket w
          else acceptReceipt env r claim w

/-! ### Evidence -/

/-- What evidence says of a draft. -/
inductive Observed where
  | sent
  | discarded
deriving DecidableEq, Repr

namespace Observed

def disposition : Observed → DraftDisposition
  | sent => .sent
  | discarded => .discarded

def text : Observed → String
  | sent => "sent"
  | discarded => "discarded"

end Observed

omit [FloatText] [Digest] in
/-- What evidence of a kind says of a draft, where its flags are the ones that the kind has. -/
def observed (evidence : Value) (disposition kind : String) : Option Observed :=
  let flag (key : String) : Option Bool := (evidence.get key).bind Value.asBool
  if kind = "synchronized_graph_observation" ∧ disposition = "sent" ∧
      flag "is_draft" = some false then
    some .sent
  else if kind = "operator_confirmed_graph_discard" ∧ disposition = "discarded" ∧
      flag "is_draft" = some true ∧ flag "graph_delete_confirmed" = some true ∧
      flag "graph_absence_confirmed" = some false then
    some .discarded
  else if kind = "operator_authorized_graph_absence_after_verified_discard" ∧
      disposition = "discarded" ∧ flag "is_draft" = some true ∧
      flag "graph_delete_confirmed" = some false ∧ flag "graph_absence_confirmed" = some true then
    some .discarded
  else none

/-- The fields that evidence must have, with the names that the errors give them. -/
def evidenceFields : List (String × String) :=
  [("observation_id", "draft_disposition_observation_id"),
    ("evidence_id", "draft_disposition_evidence_id"),
    ("ticket_id", "draft_disposition_evidence_ticket_id"),
    ("effect_claim_id", "draft_disposition_effect_claim_id"),
    ("draft_operation_key", "draft_disposition_operation_key"),
    ("mailbox_id", "draft_disposition_mailbox_id"),
    ("draft_id", "draft_disposition_evidence_draft_id"),
    ("observed_message_id", "draft_disposition_message_id"),
    ("observed_at", "draft_disposition_observed_at"),
    ("receipt_sha256", "draft_disposition_receipt_sha256")]

section

omit [FloatText] [Digest]

/-- The check of the fields of evidence. -/
def checkFields (evidence : Value) : List (String × String) → Except String Unit
  | [] => return ()
  | (field, code) :: rest =>
      if ((stringArg evidence field).filter fun s => Str.trim s ≠ "").isNone then
        throw (code ++ "_required")
      else checkFields evidence rest

/-- Evidence without the digest over it. -/
def unsigned : Value → Value
  | .object fields => .object (fields.filter fun e => e.1 ≠ "receipt_sha256")
  | other => other

end

/-- Evidence that has been checked. -/
structure Evidence where
  observed : Observed
  kind : String
  json : Value

omit [FloatText] [Digest] in
/-- A text of evidence. -/
def Evidence.field (e : Evidence) (key : String) : String := (stringArg e.json key).getD ""

/-- The checks of evidence. -/
def checkEvidence (json : Value) (ticketId draftId : String) : Except String Evidence := do
  if stringArg json "schema" ≠ some "narada.graph_mail.ticket_draft_disposition_receipt.v1" then
    throw "ticket_draft_disposition_evidence_schema_invalid"
  match stringArg json "disposition", stringArg json "evidence_kind" with
  | some disposition, some kind =>
      match observed json disposition kind with
      | none => throw "ticket_draft_disposition_evidence_state_invalid"
      | some observed => do
          checkFields json evidenceFields
          if stringArg json "observation_id" ≠ stringArg json "evidence_id" then
            throw "ticket_draft_disposition_evidence_identity_mismatch"
          let receiptSha := (stringArg json "receipt_sha256").getD ""
          if ¬ DigestForm receiptSha then
            throw "ticket_draft_disposition_receipt_sha256_invalid"
          if Digest.sha256 (unsigned json).canonicalText ≠ receiptSha then
            throw "ticket_draft_disposition_receipt_digest_mismatch"
          let _ ← workRefJson json "draft_disposition_evidence"
          if stringArg json "ticket_id" ≠ some ticketId ∨
              stringArg json "draft_id" ≠ some draftId then
            throw "ticket_draft_disposition_evidence_target_mismatch"
          return { observed, kind, json }
  | _, _ => throw "ticket_draft_disposition_evidence_state_invalid"

/-! ### Reconciliations -/

/-- What a reconciliation asks for. -/
structure ReconcileRequest where
  ticketId : String
  draftId : String
  evidence : Evidence
  operationKey : String
  causationId : String

/-- The first part of `native_work_reconcile_draft`: its arguments. -/
def reconcileRequest (args : Value) : Except String ReconcileRequest := do
  let ticketId ← requiredString args "ticket_id"
  let draftId ← requiredString args "draft_id"
  match (args.get "evidence").filter fun v => v.asObject.isSome with
  | none => throw "ticket_draft_disposition_evidence_required"
  | some json => do
      let evidence ← checkEvidence json ticketId draftId
      let operationKey ← requiredString args "idempotency_key"
      let causationId ← requiredString args "causation_id"
      return { ticketId, draftId, evidence, operationKey, causationId }

namespace ReconcileRequest

omit [FloatText] [Digest] in
def json (r : ReconcileRequest) : Value :=
  .object [("ticket_id", .string r.ticketId), ("draft_id", .string r.draftId),
    ("evidence", r.evidence.json), ("idempotency_key", .string r.operationKey),
    ("causation_id", .string r.causationId)]

def digest (r : ReconcileRequest) : String := Digest.sha256 r.json.canonicalText

omit [FloatText] [Digest] in
/-- The evidence is about the draft as it is kept. -/
def Linked (r : ReconcileRequest) (d : DraftRef) : Prop :=
  stringArg r.evidence.json "effect_claim_id" = some d.effectClaimId ∧
    stringArg d.draftRef "draft_operation_key" =
      stringArg r.evidence.json "draft_operation_key" ∧
    stringArg d.draftRef "mailbox_id" = stringArg r.evidence.json "mailbox_id"

instance (r : ReconcileRequest) : DecidablePred r.Linked :=
  fun _ => inferInstanceAs (Decidable (_ ∧ _))

omit [FloatText] [Digest] in
/-- The digest text of what the drafts rest on that give way to one that has been sent. -/
def supersessionJson (r : ReconcileRequest) : Value :=
  .object [("schema", .string "narada.work_lifecycle.draft_supersession.v1"),
    ("superseded_by_sent_draft_id", .string r.draftId),
    ("sent_disposition_evidence_id", .string (r.evidence.field "evidence_id"))]

def supersession (r : ReconcileRequest) : DispositionEvidence where
  kind := "system_superseded_by_sent_draft"
  id := r.draftId
  text := r.supersessionJson.canonicalText

/-- What the disposition of the draft rests on. -/
def disposition (r : ReconcileRequest) : DispositionEvidence where
  kind := r.evidence.kind
  id := r.evidence.field "evidence_id"
  text := r.evidence.json.canonicalText

section

omit [FloatText] [Digest]

/-- What a reconciliation gives its ticket. -/
def transition (r : ReconcileRequest) (timestamp now : String) : WorkDb.Transition :=
  match r.evidence.observed with
  | .sent => draftTransition .resolved (some "response_sent") (some timestamp) now
  | .discarded => draftTransition .actionable none none now

/-- What the event of a reconciliation says. -/
def note (r : ReconcileRequest) (superseded : List DraftRef) (now : String) : EventNote where
  eventType := "ticket.draft.disposition"
  causationId := r.causationId
  operationKey := r.operationKey
  topic := "work.ticket-work-due.v1"
  extra :=
    [("draft_id", .string r.draftId), ("disposition", .string r.evidence.observed.text),
      ("ticket_outcome", .string (match r.evidence.observed with
        | .sent => "resolved_response_sent"
        | .discarded => "actionable")),
      ("evidence_kind", .string r.evidence.kind),
      ("evidence_id", .string (r.evidence.field "evidence_id")),
      ("superseded_draft_ids", textList (superseded.map DraftRef.draftId))]
  timestamp := now

end

/-- The operation under which the answer of a reconciliation is stored. -/
def operation (r : ReconcileRequest) (revision : ℤ) (result : Value) (now : String) :
    WorkOperation where
  operationKey := r.operationKey
  operationKind := "ticket.draft.disposition"
  requestDigest := r.digest
  aggregateId := some r.ticketId
  aggregateRevision := some revision
  result := result
  createdAt := now

/-- The drafts that give way in a reconciliation. -/
def givingWay (r : ReconcileRequest) (w : WorkDb) : List DraftRef :=
  match r.evidence.observed with
  | .sent => w.superseded r.ticketId r.draftId
  | .discarded => []

/-- The drafts behind a reconciliation: its own is disposed of, whatever it was before. -/
def dispose (r : ReconcileRequest) (now : String) (w : WorkDb) : WorkDb :=
  let others :=
    match r.evidence.observed with
    | .sent => w.supersede r.ticketId r.draftId r.supersession now
    | .discarded => w
  { others with
    drafts := updateWhere (fun d => d.ticketId = r.ticketId ∧ d.draftId = r.draftId)
      (.disposed r.evidence.observed.disposition r.disposition now) others.drafts }

end ReconcileRequest

/-- A reconciliation that is not refused. -/
def carryReconcile (env : WorkEnv) (r : ReconcileRequest) (w : WorkDb) :
    Except String (WorkDb × Value) := do
  if r.givingWay w ≠ [] ∧ 16384 < r.supersessionJson.bytes then
    throw (sqliteError "CHECK constraint failed: ticket_draft_refs")
  let (moved, ticket) ← (r.dispose (env.now 0) w).workTransition r.ticketId
    (r.transition (env.now 0) (env.now 1))
  let (noted, eventId) ← moved.workEvent ticket (r.note (r.givingWay w) (env.now 2))
  let result := draftAnswer "reconciled" ticket eventId
  let recorded ← noted.recordOperation (r.operation ticket.revision result (env.now 3))
  return (recorded, workDomain r.operationKey result)

/-- `native_work_reconcile_draft`, its transaction. -/
def reconcileDraft (env : WorkEnv) (args : Value) (w : WorkDb) :
    Except String (WorkDb × Value) := do
  let r ← reconcileRequest args
  match ← w.existingOperation r.operationKey r.digest with
  | some stored => return (w, workDomain r.operationKey (replayed "already_reconciled" stored))
  | none =>
      match w.draft r.ticketId r.draftId with
      | none => throw "ticket_draft_ref_not_found"
      | some draft => do
          if ¬ r.Linked draft then throw "ticket_draft_disposition_evidence_linkage_mismatch"
          carryReconcile env r w

end Requests

end WorkLifecycle

end McpSurfaces
