import McpSurfaces.WorkLifecycle.Store

/-!
The admission of sources to tickets: `native_work_admit_source`.

* `SourceRequest`, `sourceRequest`: what a call asks for, and how its arguments are read.
* `admitSource`: a call that was made before is answered as it was, a source that is known is
  left with its ticket, and a source whose keys belong to several tickets is not admitted. All
  others open a ticket, or join the one that one of their keys belongs to.
-/

namespace McpSurfaces

namespace WorkLifecycle

open EventLedger (Digest)
open TaskLifecycle (stringArg requiredString sqliteError textList optionText)
open Table (row firstBy)

/-- The readings of the clock of a call. -/
structure WorkEnv where
  now : ℕ → String

/-! ### Arguments -/

/-- What a call asks for. -/
structure SourceRequest where
  name : SourceName
  operationKey : String
  causationId : String
  policyVersion : String
  summary : String
  sourceRef : Value
  keys : List CorrelationKey
  workDuePolicy : String

/-- A text that an argument must have, with an error of its own. -/
def requiredAs (error : String) (args : Value) (key : String) : Except String String :=
  match stringArg args key with
  | some s => .ok s
  | none => .error error

/-- The correlation keys of a call. -/
def correlationKeys : List Value → Except String (List CorrelationKey)
  | [] => return []
  | candidate :: rest => do
      let kind ← requiredAs "correlation_kind_required" candidate "kind"
      let scope ← requiredAs "correlation_scope_required" candidate "scope"
      let value ← requiredAs "correlation_value_required" candidate "value"
      if 1024 < value.utf8ByteSize then throw "correlation_value_too_large"
      return { kind, scope, value } :: (← correlationKeys rest)

section Requests

variable [FloatText]

/-- The first part of `native_work_admit_source`: its arguments. -/
def sourceRequest (args : Value) : Except String SourceRequest := do
  let kind ← requiredString args "source_kind"
  let scope ← requiredString args "source_scope"
  let immutableId ← requiredString args "immutable_source_id"
  let operationKey ← requiredString args "idempotency_key"
  let causationId ← requiredString args "causation_id"
  let policyVersion ← requiredString args "policy_version"
  let summary ← requiredString args "summary"
  if 2048 < summary.utf8ByteSize then throw "summary_too_large"
  let sourceRef ← workRefJson ((args.get "source_ref").getD (.object [])) "source_ref"
  let workDuePolicy := (stringArg args "work_due_policy").getD "deferred"
  if workDuePolicy ≠ "deferred" ∧ workDuePolicy ≠ "inline" then throw "work_due_policy_invalid"
  match (args.get "correlation_keys").bind Value.asArray with
  | none => throw "correlation_keys_required"
  | some candidates => do
      let keys ← correlationKeys candidates
      return { name := { kind, scope, immutableId }, operationKey, causationId, policyVersion
               summary, sourceRef, keys, workDuePolicy }

namespace SourceRequest

def CorrelationKey.json (k : CorrelationKey) : Value :=
  .object [("kind", .string k.kind), ("scope", .string k.scope), ("value", .string k.value)]

def nameFields (r : SourceRequest) : Map :=
  [("source_kind", .string r.name.kind), ("source_scope", .string r.name.scope),
    ("immutable_source_id", .string r.name.immutableId)]

def json (r : SourceRequest) : Value :=
  .object (r.nameFields ++ [("idempotency_key", .string r.operationKey),
    ("causation_id", .string r.causationId), ("policy_version", .string r.policyVersion),
    ("summary", .string r.summary), ("source_ref_json", .string r.sourceRef.text),
    ("correlation_keys", .array (r.keys.map CorrelationKey.json)),
    ("work_due_policy", .string r.workDuePolicy)])

variable [Digest]

/-- `native_canonical_digest` of what a call asks for. -/
def digest (r : SourceRequest) : String := Digest.sha256 r.json.canonicalText

def sourceId (r : SourceRequest) : String := stableId "source" (.object r.nameFields) 32

def receiptId (r : SourceRequest) : String := stableId "receipt_source" (.object r.nameFields) 32

end SourceRequest

/-! ### Answers -/

/-- The fields that all answers have. -/
def sourceAnswer (status : String) (ticketId number revision sourceId : Value)
    (receiptId : String) (more : Map) : Value :=
  .object ([("schema", .string "narada.work_lifecycle.ticket_source_admission.v1"),
    ("status", .string status), ("ticket_id", ticketId), ("ticket_number", number),
    ("ticket_revision", revision), ("source_id", sourceId),
    ("receipt_id", .string receiptId)] ++ more)

variable [Digest]

/-- The operation under which the answer of a call is stored. -/
def SourceRequest.operation (r : SourceRequest) (ticket : Option Ticket) (result : Value)
    (now : String) : WorkOperation where
  operationKey := r.operationKey
  operationKind := "ticket.admit_source"
  requestDigest := r.digest
  aggregateId := ticket.map Ticket.ticketId
  aggregateRevision := ticket.map Ticket.revision
  result := result
  createdAt := now

/-! ### A source that is known -/

/-- The events of a ticket that name a source, as they are looked for. -/
def SourceEvent (ticketId sourceId : String) (e : WorkEvent) : Prop :=
  e.aggregateKind = .ticket ∧ e.aggregateId = ticketId ∧
    (e.eventType = "ticket.created" ∨ e.eventType = "ticket.source.admitted") ∧
    e.payload.get "source_id" = some (.string sourceId)

instance (ticketId sourceId : String) : DecidablePred (SourceEvent ticketId sourceId) :=
  fun _ => inferInstanceAs (Decidable (_ ∧ _))

/-- The order in which events are looked for. -/
def eventOrder (a b : WorkEvent) : Ordering :=
  (compare a.aggregateRevision b.aggregateRevision).then
    ((compare a.createdAt b.createdAt).then (compare a.eventId b.eventId))

/-- The answer to a call for a source that is known. -/
def alreadyAssociated (env : WorkEnv) (r : SourceRequest) (source : Source) (w : WorkDb) :
    Except String (WorkDb × Value) := do
  let eventId := ((firstBy (SourceEvent source.ticketId source.sourceId) eventOrder
    w.events).map WorkEvent.eventId).getD
      (stableId "event" (.object [("ticket_id", .string source.ticketId),
        ("source_id", .string source.sourceId)]) 32)
  let ticket ← w.workTicket source.ticketId
  let result := sourceAnswer "already_associated" (.string ticket.ticketId)
    (.ofInt ticket.number) (.ofInt ticket.revision) (.string source.sourceId) source.receiptId
    [("event_id", .string eventId)]
  let w ← w.recordOperation (r.operation (some ticket) result (env.now 1))
  return (w, workDomain r.operationKey result)

/-! ### A source that is new -/

/-- The tickets that the keys of a call belong to. -/
def WorkDb.candidates (w : WorkDb) (keys : List CorrelationKey) : List String :=
  Lists.sortBy compare ((keys.filterMap w.correlated).foldl
    (fun found ticketId => if ticketId ∈ found then found else found ++ [ticketId]) [])

/-- The answer to a call whose keys belong to several tickets. -/
def ambiguous (env : WorkEnv) (r : SourceRequest) (candidates : List String) (w : WorkDb) :
    Except String (WorkDb × Value) := do
  let result := sourceAnswer "blocked" .null .null .null .null r.receiptId
    [("reason", .string "ambiguous_correlation"), ("candidate_ticket_ids", textList candidates)]
  let w ← w.recordOperation (r.operation none result (env.now 1))
  return (w, workDomain r.operationKey result)

/-- A ticket as it is opened. -/
def newTicket (number : ℤ) (summary now : String) : Ticket where
  ticketId := "ticket-" ++ toString number
  number := number
  status := .actionable
  revision := 1
  summary := summary
  resolutionCode := none
  blockerCode := none
  createdAt := now
  updatedAt := now
  terminalAt := none

namespace WorkDb

/-- Open a ticket under the next number. -/
def openTicket (w : WorkDb) (summary now : String) : Except String (WorkDb × Ticket) := do
  let ticket := newTicket w.nextTicket summary now
  if ∃ t ∈ w.tickets, t.ticketId = ticket.ticketId ∨ t.number = ticket.number then
    throw (sqliteError "UNIQUE constraint failed: tickets")
  return ({ w with nextTicket := w.nextTicket + 1, tickets := w.tickets ++ [ticket] }, ticket)

/-- What a new source does to its ticket. -/
def reactivation (summary now : String) : Transition where
  status := .actionable
  summary := some summary
  resolutionCode := none
  blockerCode := none
  terminalAt := none
  updatedAt := now

/-- The ticket of a new source: the one that its keys belong to, or one that is opened. -/
def ticketFor (w : WorkDb) (candidates : List String) (summary now : String) :
    Except String (WorkDb × Ticket) :=
  match candidates with
  | [] => w.openTicket summary now
  | ticketId :: _ => do
      let moved := w.updateTicket ticketId (reactivation summary now).apply
      match moved.ticket ticketId with
      | none => throw (sqliteError "Query returned no rows")
      | some ticket => return (moved, ticket)

def insertSource (w : WorkDb) (s : Source) : Except String WorkDb := do
  if ∃ old ∈ w.sources, old.sourceId = s.sourceId ∨ old.receiptId = s.receiptId ∨
      old.name = s.name then
    throw (sqliteError "UNIQUE constraint failed: ticket_sources")
  return { w with sources := w.sources ++ [s] }

/-- Insert the keys that are new. -/
def insertKeys (ticketId policyVersion now : String) :
    List CorrelationKey → WorkDb → Except String WorkDb
  | [], w => return w
  | key :: rest, w =>
      match w.correlated key with
      | some owner =>
          if owner ≠ ticketId then throw "ticket_source_correlation_conflict"
          else insertKeys ticketId policyVersion now rest w
      | none =>
          insertKeys ticketId policyVersion now rest
            { w with
              keys := w.keys ++ [{ key, ticketId, policyVersion, admittedAt := now }] }

end WorkDb

/-- The source that a call admits. -/
def SourceRequest.source (r : SourceRequest) (ticketId now : String) : Source where
  sourceId := r.sourceId
  ticketId := ticketId
  name := r.name
  sourceRef := r.sourceRef
  policyVersion := r.policyVersion
  receiptId := r.receiptId
  admittedAt := now

/-- What the event of an admission says. -/
def SourceRequest.note (r : SourceRequest) (opened : Bool) (now : String) : EventNote where
  eventType := if opened then "ticket.created" else "ticket.source.admitted"
  causationId := r.causationId
  operationKey := r.operationKey
  topic :=
    if r.workDuePolicy = "inline" then "work.ticket-inline-processing.v1"
    else "work.ticket-work-due.v1"
  extra := [("source_id", .string r.sourceId), ("source_kind", .string r.name.kind)]
  timestamp := now

/-- The admission of a source that is new. -/
def associate (env : WorkEnv) (r : SourceRequest) (candidates : List String) (w : WorkDb) :
    Except String (WorkDb × Value) := do
  let (w, found) ← w.ticketFor candidates r.summary (env.now 0)
  let w ← w.insertSource (r.source found.ticketId (env.now 0))
  let w ← WorkDb.insertKeys found.ticketId r.policyVersion (env.now 0) r.keys w
  let ticket ← w.workTicket found.ticketId
  let (w, eventId) ← w.workEvent ticket (r.note candidates.isEmpty (env.now 1))
  let result := sourceAnswer (if candidates.isEmpty then "created" else "attached")
    (.string found.ticketId) (.ofInt found.number) (.ofInt ticket.revision)
    (.string r.sourceId) r.receiptId [("event_id", .string eventId)]
  let w ← w.recordOperation (r.operation (some ticket) result (env.now 2))
  return (w, workDomain r.operationKey result)

/-- `native_work_admit_source`, its transaction: an error rolls it back. -/
def admitSource (env : WorkEnv) (args : Value) (w : WorkDb) : Except String (WorkDb × Value) := do
  let r ← sourceRequest args
  match ← w.existingOperation r.operationKey r.digest with
  | some stored => return (w, workDomain r.operationKey stored)
  | none =>
      match w.sourceNamed r.name with
      | some source => alreadyAssociated env r source w
      | none =>
          let candidates := w.candidates r.keys
          if 1 < candidates.length then ambiguous env r candidates w
          else associate env r candidates w

end Requests

end WorkLifecycle

end McpSurfaces
