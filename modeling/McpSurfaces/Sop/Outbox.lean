import McpSurfaces.Sop.Database

/-!
The outbox of terminal runs: the event of a run, its removal when the run is reopened, and the
calls of the consumers: registration, list, acknowledgement, compaction.

All timestamps are compared as texts. The calls of the engine print them with milliseconds, the
list prints its clock with as many digits as it takes.
-/

namespace McpSurfaces

namespace Sop

open EventLedger (Digest)

variable [FloatText] [FloatRead] [Digest] [IsoTime]

/-! ### Reading events -/

/-- `normalize_outbox_topic`. -/
def normalizeOutboxTopic (value : String) : Except Stop String :=
  let topic := Str.trim value
  if topic = "" then .error (refusal "sop_outbox_topic_required")
  else if 256 < topic.length then .error (refusal "sop_outbox_topic_required_too_long")
  else if topic ≠ terminalTopic then .error (refusal "sop_outbox_topic_unsupported")
  else .ok topic

/-- `hydrate_outbox_event`. -/
def hydrateOutboxEvent (e : OutboxEvent) : Except Stop OutboxEvent := do
  if ¬ e.outcome.Terminal then throw (refusal "sop_outbox_outcome_corrupt")
  let topic ← normalizeOutboxTopic e.topic
  if e.payload.asObject = none then throw (refusal "sop_outbox_payload_corrupt")
  assertBound e.payload "sop_outbox_payload" maxOutboxPayloadBytes
  let eventId ← requiredText e.eventId "sop_outbox_event_corrupt" 512
  let partitionKey ← requiredText e.partitionKey "sop_outbox_event_corrupt" 512
  let runId ← requiredText e.runId "sop_outbox_event_corrupt" 512
  let sopId ← requiredText e.sopId "sop_outbox_event_corrupt" 512
  if e.sopVersion < 1 then throw (refusal "sop_outbox_event_corrupt")
  let occurrenceKey ← requiredText e.occurrenceKey "sop_outbox_event_corrupt" 512
  let createdAt ← requiredText e.createdAt "sop_outbox_event_corrupt" 512
  let availableAt ← requiredText e.availableAt "sop_outbox_event_corrupt" 512
  return { e with
    topic, eventId, partitionKey, runId, sopId, occurrenceKey, createdAt, availableAt
    compactedAt := optionalText e.compactedAt }

/-- `require_outbox_event`. -/
def requireOutboxEvent (eventId : String) : Db OutboxEvent := do
  match (← Work.store).event eventId with
  | none => throw (refusal "sop_outbox_event_not_found")
  | some e => Work.ofExcept (hydrateOutboxEvent e)

/-! ### The event of a run -/

/-- The name of the outcome that a procedure reports: a completed run may choose it. -/
def procedureOutcome (run : Run) : Except Stop String :=
  if run.status = .completed then
    match (run.output.get "outcome").bind Value.asStr with
    | some value =>
        if value = "" ∨ 128 < value.length then
          .error (refusal "sop_outbox_procedure_outcome_invalid")
        else .ok value
    | none => .ok run.status.text
  else .ok run.status.text

/-- The payload of the event of a run. -/
def terminalPayload (run : Run) (eventId outcome createdAt : String) : Value :=
  .object [("schema", .string "narada.sop.run_terminal.v2"), ("event_id", .string eventId),
    ("topic", .string terminalTopic), ("run_id", .string run.runId), ("sop_id", .string run.sopId),
    ("sop_version", .ofNat run.sopVersion), ("occurrence_key", .string run.occurrenceKey),
    ("run_outcome", .string run.status.text), ("outcome", .string outcome),
    ("definition_fingerprint", .string run.definitionFingerprint),
    ("trigger_source_kind", .string run.triggerSourceKind),
    ("trigger_source_ref", .string run.triggerSourceRef), ("output", run.output),
    ("output_ref", run.outputRef), ("completed_at", .string createdAt)]

/-- Whether two objects agree on a member. -/
def sameMember (v w : Value) (key : String) : Bool :=
  match v.get key, w.get key with
  | some a, some b => a.eqv b
  | none, none => true
  | _, _ => false

/-- What the payload of an event that is already there must share with a new one. -/
def payloadMembers : List String :=
  ["definition_fingerprint", "trigger_source_kind", "trigger_source_ref", "run_outcome",
    "outcome", "output", "output_ref"]

/-- Whether the event that is already there is that of the run. -/
def sameEvent (e : OutboxEvent) (run : Run) (eventId : String) (payload : Value) : Bool :=
  e.eventId == eventId && e.topic == terminalTopic && e.runId == run.runId &&
    e.sopId == run.sopId && e.sopVersion == run.sopVersion &&
    e.occurrenceKey == run.occurrenceKey && decide (e.outcome = run.status) &&
    (e.compactedAt.isSome || payloadMembers.all (sameMember e.payload payload ·))

/-- The identity of the event of a run. -/
def eventIdOf (runId : String) : String := deterministicId "sote_" runId

/-- The event of a terminal run. -/
def terminalEvent (run : Run) (payload : Value) (createdAt : String) : OutboxEvent where
  eventId := eventIdOf run.runId
  topic := terminalTopic
  partitionKey := run.sopId
  runId := run.runId
  sopId := run.sopId
  sopVersion := run.sopVersion
  occurrenceKey := run.occurrenceKey
  outcome := run.status
  payload := column payload
  createdAt
  availableAt := createdAt
  compactedAt := none

/-- `insert into sop_outbox`. -/
def insertEvent (e : OutboxEvent) : Db Unit := do
  let s ← Work.store
  if s.run e.runId = none ∨ ¬ e.outcome.Terminal then
    throw (.refused ⟨"sop_outbox_insert_failed", "constraint failed: sop_outbox"⟩)
  Work.write fun s => { s with outbox := s.outbox ++ [e] }

/-- `put_terminal_outbox`. -/
def putTerminalOutbox (env : Env) (run : Run) : Db Unit := do
  if ¬ run.status.Terminal then throw (refusal "sop_outbox_requires_terminal_run")
  if run.output.asObject = none then throw (refusal "sop_outbox_output_invalid")
  let now ← Work.ofExcept (nowIso env)
  let createdAt := run.completedAt.getD now
  let outcome ← Work.ofExcept (procedureOutcome run)
  let eventId := eventIdOf run.runId
  let payload := terminalPayload run eventId outcome createdAt
  Work.ofExcept (assertBound payload "sop_outbox_payload" maxOutboxPayloadBytes)
  match (← Work.store).outbox.find? fun e => e.eventId = eventId ∨ e.runId = run.runId with
  | some existing => do
      let e ← Work.ofExcept (hydrateOutboxEvent existing)
      if ¬ sameEvent e run eventId payload then throw (refusal "sop_outbox_event_conflict")
  | none => insertEvent (terminalEvent run payload createdAt)

/-- The store without an event. -/
def Store.withoutEvent (s : Store) (eventId runId : String) : Store :=
  { s with outbox := s.outbox.filter fun e => ¬ (e.eventId = eventId ∧ e.runId = runId) }

/-- `reopen_terminal_outbox_for_retry`: the event of a run goes, unless it was acknowledged or
compacted. -/
def reopenTerminalOutboxForRetry (runId : String) : Db (Option String) := do
  let s ← Work.store
  match s.eventOfRun runId with
  | none => return none
  | some existing => do
      let eventId ← Work.ofExcept (requiredText existing.eventId "sop_outbox_event_id_invalid" 512)
      if (∃ r ∈ s.receipts, r.eventId = eventId) ∨ existing.compactedAt.isSome then
        throw (refusal "sop_outbox_retry_requires_new_run")
      Work.write fun s => s.withoutEvent eventId runId
      return some eventId

/-! ### Consumers -/

/-- The store with another consumer. -/
def Store.withRequirement (s : Store) (r : Requirement) : Store :=
  { s with requirements := s.requirements ++ [r] }

/-- The store with another receipt. -/
def Store.withReceipt (s : Store) (r : Receipt) : Store := { s with receipts := s.receipts ++ [r] }

/-- When a consumer starts: now, where it does not say. -/
def startAtOf (args : Map) (now : String) : Except Stop String :=
  match optionalString (args.get "start_at") with
  | some value => normalizeTimestamp value "sop_outbox_start_at_invalid"
  | none => .ok now

/-- `sop_outbox_consumer_register`. -/
def outboxConsumerRegister (env : Env) (args : Map) : Db Requirement := do
  let topic ← Work.ofExcept
    (normalizeOutboxTopic ((optionalString (args.get "topic")).getD terminalTopic))
  let consumerId ← Work.ofExcept
    (requiredString (args.get "consumer_id") "sop_outbox_consumer_id_required" 512)
  let now ← Work.ofExcept (nowIso env)
  let startAt ← Work.ofExcept (startAtOf args now)
  let s ← Work.store
  match s.requirement topic consumerId with
  | some existing =>
      if existing.startAt ≠ startAt then
        throw (refusal "sop_outbox_consumer_registration_conflict")
      return existing
  | none =>
      if ∃ e ∈ s.outbox, e.topic = topic ∧ startAt ≤ e.createdAt ∧ e.compactedAt.isSome then
        throw (refusal "sop_outbox_registration_history_compacted")
      let r : Requirement := ⟨topic, consumerId, startAt, now⟩
      Work.write fun s => s.withRequirement r
      return r

/-- The receipt of an acknowledgement. -/
def receiptOf (args : Map) : Except Stop Value :=
  match args.get "receipt" with
  | some (.object fields) => .ok (.object fields)
  | _ => .error (refusal "sop_outbox_receipt_must_be_object")

/-- A receipt that is there already is the one that is given. -/
def sameReceipt (existing : Receipt) (receipt : Value) : Except Stop Unit := do
  if existing.receipt.asObject = none then throw (refusal "sop_outbox_receipt_corrupt")
  if existing.receipt.canonicalText ≠ receipt.canonicalText then
    throw (refusal "sop_outbox_receipt_conflict")

/-- `sop_outbox_ack`: the receipt, and whether it was there before. -/
def outboxAck (env : Env) (args : Map) : Db (Receipt × Bool) := do
  let receipt ← Work.ofExcept (receiptOf args)
  Work.ofExcept (assertBound receipt "sop_outbox_receipt" maxOutboxReceiptBytes)
  let eventId ← Work.ofExcept
    (requiredString (args.get "event_id") "sop_outbox_event_id_required" 512)
  let consumerId ← Work.ofExcept
    (requiredString (args.get "consumer_id") "sop_outbox_consumer_id_required" 512)
  let event ← requireOutboxEvent eventId
  let s ← Work.store
  match s.requirement event.topic consumerId with
  | none => throw (refusal "sop_outbox_consumer_not_registered")
  | some requirement =>
      if event.createdAt < requirement.startAt then
        throw (refusal "sop_outbox_event_before_consumer_start")
      match s.receipt eventId consumerId with
      | some existing => do
          Work.ofExcept (sameReceipt existing receipt)
          return (existing, true)
      | none => do
          let now ← Work.ofExcept (nowIso env)
          let r : Receipt := ⟨eventId, consumerId, now, column receipt⟩
          Work.write fun s => s.withReceipt r
          return (r, false)

/-- A consumer that an event is for: one of its topic that starts no later. -/
def Store.Concerns (r : Requirement) (e : OutboxEvent) : Prop :=
  r.topic = e.topic ∧ r.startAt ≤ e.createdAt

instance (r : Requirement) (e : OutboxEvent) : Decidable (Store.Concerns r e) :=
  inferInstanceAs (Decidable (_ ∧ _))

/-- What `sop_outbox_compact` takes: an event before the cutoff that concerns a consumer and
that every consumer it concerns has acknowledged. -/
def Store.Compactable (s : Store) (cutoff : String) (e : OutboxEvent) : Prop :=
  e.compactedAt = none ∧ e.createdAt < cutoff ∧ (∃ r ∈ s.requirements, Store.Concerns r e) ∧
    ∀ r ∈ s.requirements, Store.Concerns r e →
      ∃ receipt ∈ s.receipts, receipt.eventId = e.eventId ∧ receipt.consumerId = r.consumerId

instance (s : Store) (cutoff : String) : DecidablePred (s.Compactable cutoff) :=
  fun _ => inferInstanceAs (Decidable (_ ∧ _ ∧ _ ∧ _))

/-- An event whose payload is gone. -/
def OutboxEvent.compact (e : OutboxEvent) (now : String) : OutboxEvent :=
  { e with payload := .object [], compactedAt := some now }

/-- `sop_outbox_compact`. -/
def outboxCompact (env : Env) (args : Map) : Db Unit := do
  let before ← Work.ofExcept
    (requiredString (args.get "before") "sop_outbox_compact_before_required" 512)
  let cutoff ← Work.ofExcept (normalizeTimestamp before "sop_outbox_compact_before_invalid")
  let now ← Work.ofExcept (nowIso env)
  Work.write fun s => s.updateOutbox (s.Compactable cutoff) (·.compact now)

/-! ### The list -/

/-- The digits behind the seconds: none for a whole second, no zeros at the end. -/
def fraction (nanoseconds : ℕ) : List Char :=
  if nanoseconds = 0 then []
  else '.' :: ((IsoTime.padded 9 nanoseconds).reverse.dropWhile (· == '0')).reverse

/-- The clock in RFC 3339, with as many digits behind the seconds as it takes. -/
def rfc3339 (t : Instant) : Option String :=
  (IsoTime.format t).map fun text =>
    String.ofList (text.toList.take 19 ++ fraction (t % 1000000000).toNat ++ ['Z'])

/-- Whether an event is listed for a consumer at a time: it concerns the consumer, it is
available, and the consumer has no receipt for it. -/
def Store.Listed (s : Store) (consumer now : String) (e : OutboxEvent) : Prop :=
  (∃ r ∈ s.requirements, r.consumerId = consumer ∧ Store.Concerns r e) ∧ e.availableAt ≤ now ∧
    ∀ receipt ∈ s.receipts, ¬ (receipt.eventId = e.eventId ∧ receipt.consumerId = consumer)

instance (s : Store) (consumer now : String) : DecidablePred (s.Listed consumer now) :=
  fun _ => inferInstanceAs (Decidable (_ ∧ _ ∧ _))

/-- `order by created_at, event_id`. -/
def eventOrder (a b : OutboxEvent) : Ordering :=
  (compare a.createdAt b.createdAt).then (compare a.eventId b.eventId)

/-- How many events a list returns at most. -/
def listLimit (args : Map) : ℕ := max 1 (min 500 (((args.get "limit").bind Value.asU64).getD 100))

/-- A text argument that is not blank, as it is. -/
def unblank (v : Option Value) : Option String := (v.bind Value.asStr).filter fun s => Str.trim s ≠ ""

/-- `sop_outbox_list`, which writes nothing. -/
def outboxList (now : Instant) (args : Map) (s : Store) : Except Stop (List OutboxEvent) := do
  let consumer ← match unblank (args.get "consumer_id") with
    | some consumer => .ok consumer
    | none => .error (refusal "sop_outbox_consumer_id_required")
  if (unblank (args.get "topic")).any (· ≠ terminalTopic) then
    throw (refusal "sop_outbox_topic_unsupported")
  if ∀ r ∈ s.requirements, r.consumerId ≠ consumer then
    throw (refusalOf "sop_outbox_consumer_not_registered" consumer)
  match rfc3339 now with
  | none => throw (refusal "sop_outbox_time_failed")
  | some now => return (Lists.sortBy eventOrder (s.outbox.filter (s.Listed consumer now))).take (listLimit args)

end Sop

end McpSurfaces
