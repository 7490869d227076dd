import McpSurfaces.WorkLifecycle.Sources
import McpSurfaces.WorkLifecycle.Triggers

/-!
What is proposed for a ticket: `native_work_admit_proposal`.

* `ProposalRequest`, `proposalRequest`: what a call asks for, and how its arguments are read.
* `followupTask`, `responseDraft`, `resolveTicket`, `blockTicket`: the four routes. Only the third
  asks what is still open.
* `admitProposal`: a route is taken from the revision that the call expects, and leaves an event.
-/

namespace McpSurfaces

namespace WorkLifecycle

open EventLedger (Digest)
open TaskLifecycle (TaskRow Spec OutcomeContract stringArg requiredString requiredI64 sqliteError
  textList optionText)
open Table (row)

/-! ### Arguments -/

inductive Route where
  | responseDraft
  | followupTask
  | resolved
  | blockedOperator
deriving DecidableEq, Repr

namespace Route

def text : Route → String
  | responseDraft => "response_draft"
  | followupTask => "followup_task"
  | resolved => "resolved"
  | blockedOperator => "blocked_operator"

def ofText : String → Option Route
  | "response_draft" => some responseDraft
  | "followup_task" => some followupTask
  | "resolved" => some resolved
  | "blocked_operator" => some blockedOperator
  | _ => none

end Route

/-- What a call asks for. -/
structure ProposalRequest where
  ticketId : String
  expectedRevision : ℤ
  route : Route
  operationKey : String
  causationId : String
  actorId : String
  summary : String
  task : Option Value
  draft : Option Value
  resolution : Option Value
  blocker : Option Value

/-- The first part of `native_work_admit_proposal`: its arguments. -/
def proposalRequest (args : Value) : Except String ProposalRequest := do
  let ticketId ← requiredString args "ticket_id"
  let expectedRevision ← requiredI64 args "expected_revision"
  if expectedRevision < 1 then throw "expected_revision_invalid"
  match Route.ofText (← requiredString args "route") with
  | none => throw "ticket_proposal_route_invalid"
  | some route => do
      let operationKey ← requiredString args "idempotency_key"
      let causationId ← requiredString args "causation_id"
      let actorId ← requiredString args "actor_id"
      let summary ← requiredString args "summary"
      if 2048 < summary.utf8ByteSize then throw "summary_too_large"
      return { ticketId, expectedRevision, route, operationKey, causationId, actorId, summary
               task := args.get "task", draft := args.get "draft"
               resolution := args.get "resolution_code", blocker := args.get "blocker_code" }

section Routes

variable [FloatText] [Digest]

namespace ProposalRequest

def json (r : ProposalRequest) : Value :=
  .object [("ticket_id", .string r.ticketId), ("expected_revision", .ofInt r.expectedRevision),
    ("route", .string r.route.text), ("idempotency_key", .string r.operationKey),
    ("causation_id", .string r.causationId), ("actor_id", .string r.actorId),
    ("summary", .string r.summary), ("task", r.task.getD .null), ("draft", r.draft.getD .null),
    ("resolution_code", r.resolution.getD .null), ("blocker_code", r.blocker.getD .null)]

def digest (r : ProposalRequest) : String := Digest.sha256 r.json.canonicalText

end ProposalRequest

/-- Where a route has led. -/
structure Routed where
  db : WorkDb
  ticket : Ticket
  eventType : String
  extra : Map

/-! ### A task -/

/-- The task of a proposal. -/
structure ProposedTask where
  title : String
  goal : String
  requiredWork : String
  criteria : Value
  tags : Value
  context : Option String
  nonGoals : Option String

omit [FloatText] [Digest] in
/-- The checks of the task of a proposal. -/
def proposedTask (r : ProposalRequest) : Except String ProposedTask :=
  match r.task.filter fun v => v.asObject.isSome with
  | none => .error "ticket_proposal_task_required"
  | some task => do
      let title ← requiredString task "title"
      let goal ← requiredString task "goal"
      let requiredWork ← requiredString task "required_work"
      if 1024 < title.utf8ByteSize then throw "task_title_too_large"
      if 8192 < goal.utf8ByteSize then throw "task_goal_too_large"
      if 16384 < requiredWork.utf8ByteSize then throw "task_required_work_too_large"
      match (task.get "acceptance_criteria").filter fun v => v.asArray.isSome with
      | none => throw "task_acceptance_criteria_required"
      | some criteria =>
          return { title, goal, requiredWork, criteria := criteria.canonicalize
                   tags := ((task.get "tags").getD (.array [])).canonicalize
                   context := stringArg task "context", nonGoals := stringArg task "non_goals" }

def followupTaskId (operationKey : String) : String :=
  stableId "task" (.object [("kind", .string "ticket_followup"),
    ("operation_key", .string operationKey)]) 24

/-- The row of `task_lifecycle` of a task that follows up. -/
def followupRow (operationKey : String) (number : ℤ) (now : String) : TaskRow where
  taskId := followupTaskId operationKey
  number
  status := .opened
  governedBy := none
  closedAt := none
  closedBy := none
  closureMode := none
  reopenedAt := none
  reopenedBy := none
  revision := 1
  updatedAt := now

/-- The contract of a task that follows up. -/
def followupContract (operationKey actorId now : String) : OutcomeContract where
  contractId := stableId "contract_ticket_followup"
    (.object [("operation_key", .string operationKey)]) 24
  taskId := followupTaskId operationKey
  outcomeType := "ticket_followup_completion"
  allowedOutcomes := textList ["completed"]
  satisfyingOutcomes := textList ["completed"]
  blockingOutcomes := .array []
  requiredFields := textList ["summary"]
  capabilityRequirement := none
  createdBy := actorId
  createdAt := now

/-- The link of a ticket to a task that follows up. -/
def followupLink (ticketId operationKey now : String) : TaskLink where
  ticketId := ticketId
  taskId := followupTaskId operationKey
  linkKind := "followup"
  operationKey := operationKey
  status := .active
  linkedAt := now
  terminalAt := none

section

omit [FloatText] [Digest]

def WorkDb.addSpec (w : WorkDb) (spec : Spec) : WorkDb :=
  { w with lifecycle := { w.lifecycle with specs := w.lifecycle.specs ++ [spec] } }

def WorkDb.addContract (w : WorkDb) (contract : OutcomeContract) : WorkDb :=
  { w with
    lifecycle := { w.lifecycle with
      outcomeContracts := w.lifecycle.outcomeContracts ++ [contract] } }

end

/-- The definition of a task that follows up. -/
def ProposedTask.spec (task : ProposedTask) (taskId : String) (number : ℤ) : Spec where
  taskId := taskId
  number := number
  title := task.title
  goal := task.goal
  context := task.context
  requiredWork := task.requiredWork
  nonGoals := task.nonGoals.getD ""
  acceptanceCriteria := task.criteria
  tags := task.tags

/-- A task that follows up, with its definition and its contract. -/
def writeFollowup (env : WorkEnv) (r : ProposalRequest) (task : ProposedTask) (w : WorkDb) :
    WorkDb :=
  let number := w.lifecycle.lastAllocated + 1
  let taskId := followupTaskId r.operationKey
  let allocated : WorkDb := { w with lifecycle := { w.lifecycle with lastAllocated := number } }
  let inserted := allocated.insertTask (followupRow r.operationKey number (env.now 0))
  let specified := (inserted.addSpec (task.spec taskId number)).touch taskId (env.now 1)
  (specified.addContract (followupContract r.operationKey r.actorId (env.now 2))).touch taskId
    (env.now 2)

/-- The task that follows up, with its link. -/
def createFollowup (env : WorkEnv) (r : ProposalRequest) (task : ProposedTask) (w : WorkDb) :
    Except String (WorkDb × ℤ) := do
  let number := w.lifecycle.lastAllocated + 1
  let taskId := followupTaskId r.operationKey
  let contract := followupContract r.operationKey r.actorId (env.now 2)
  if (w.lifecycle.task taskId).isSome then
    throw (sqliteError "UNIQUE constraint failed: task_lifecycle.task_id")
  if (w.lifecycle.taskNumbered number).isSome then
    throw (sqliteError "UNIQUE constraint failed: task_lifecycle.task_number")
  if ∃ spec ∈ w.lifecycle.specs, spec.taskId = taskId ∨ spec.number = number then
    throw (sqliteError "UNIQUE constraint failed: task_specs")
  if ∃ old ∈ w.lifecycle.outcomeContracts, old.contractId = contract.contractId then
    throw (sqliteError "UNIQUE constraint failed: task_outcome_contracts.contract_id")
  if ∃ link ∈ w.links, link.ticketId = r.ticketId ∧ link.taskId = taskId ∨
      link.operationKey = r.operationKey then
    throw (sqliteError "UNIQUE constraint failed: ticket_task_links")
  let written := writeFollowup env r task w
  return ({ written with
    links := written.links ++ [followupLink r.ticketId r.operationKey (env.now 3)] }, number)

/-- What a route gives a ticket. -/
def routeTransition (status : TicketStatus) (summary now : String)
    (resolutionCode blockerCode terminalAt : Option String) : WorkDb.Transition where
  status := status
  summary := some summary
  resolutionCode := resolutionCode
  blockerCode := blockerCode
  terminalAt := terminalAt
  updatedAt := now

/-- The fields that a route notes of a task. -/
def taskFields (taskId : String) (number : Option ℤ) : Map :=
  ("task_id", .string taskId) :: number.toList.map fun n => ("task_number", .ofInt n)

/-- The route to a task that follows up. A link that its operation has made is gone on with. -/
def followupTask (env : WorkEnv) (r : ProposalRequest) (w : WorkDb) : Except String Routed := do
  let task ← proposedTask r
  let waiting := routeTransition .waitingOnTask r.summary (env.now 4) none none none
  match w.links.find? fun l => l.operationKey = r.operationKey with
  | some link => do
      let (moved, ticket) ← w.workTransition r.ticketId waiting
      return { db := moved, ticket, eventType := "ticket.followup_task.created"
               extra := taskFields link.taskId ((w.lifecycle.task link.taskId).map TaskRow.number) }
  | none => do
      let (created, number) ← createFollowup env r task w
      let (moved, ticket) ← created.workTransition r.ticketId waiting
      return { db := moved, ticket, eventType := "ticket.followup_task.created"
               extra := taskFields (followupTaskId r.operationKey) (some number) }

/-! ### A draft -/

/-- The draft of a proposal, checked against the source that it answers. -/
structure ProposedDraft where
  sourceId : String
  mailboxId : String
  sourceMessageId : String
  replyMode : String
  body : Map

/-- The body of a draft: exactly one of two. -/
def draftBody (draft : Value) : Except String Map := do
  let text := stringArg draft "body_text"
  let html := stringArg draft "body_html"
  if text.isSome = html.isSome ∨ text = some "" ∨ html = some "" then
    throw "ticket_proposal_draft_exactly_one_body_required"
  if (∃ t ∈ text, 12 * 1024 < t.utf8ByteSize) ∨ ∃ t ∈ html, 12 * 1024 < t.utf8ByteSize then
    throw "draft_body_too_large"
  return (text.toList.map fun t => ("body_text", .string t)) ++
    html.toList.map fun t => ("body_html", .string t)

/-- The source that a draft answers, as its reference names it. -/
def draftSource (s : Source) : Except String (String × String) := do
  match stringArg s.sourceRef "scope_id" with
  | none => throw "ticket_draft_source_ref_scope_id"
  | some scope => do
      if scope ≠ s.name.scope then throw "ticket_draft_source_scope_mismatch"
      let mailboxId ← requiredString s.sourceRef "mailbox_id"
      let messageId ← requiredString s.sourceRef "message_id"
      if s.name.immutableId ≠ messageId then throw "ticket_draft_source_identity_mismatch"
      return (mailboxId, messageId)

/-- The checks of the draft of a proposal. -/
def proposedDraft (r : ProposalRequest) (w : WorkDb) : Except String ProposedDraft :=
  match r.draft.filter fun v => v.asObject.isSome with
  | none => .error "ticket_proposal_draft_required"
  | some draft => do
      let sourceId ← requiredString draft "source_id"
      let replyMode ← requiredString draft "reply_mode"
      if replyMode ≠ "reply" ∧ replyMode ≠ "reply_all" then
        throw "ticket_proposal_draft_reply_mode_invalid"
      let body ← draftBody draft
      match w.sources.find? fun s => s.ticketId = r.ticketId ∧ s.sourceId = sourceId ∧
          s.name.kind = "mailbox_message" with
      | none => throw "ticket_proposal_draft_source_invalid"
      | some source => do
          let (mailboxId, sourceMessageId) ← draftSource source
          return { sourceId, mailboxId, sourceMessageId, replyMode, body }

namespace ProposedDraft

/-- `native_canonical_digest` of what is asked of the mailbox. -/
def requestDigest (d : ProposedDraft) : String :=
  Digest.sha256 (Value.object ([("source_id", .string d.sourceId),
    ("mailbox_id", .string d.mailboxId), ("source_message_id", .string d.sourceMessageId),
    ("reply_mode", .string d.replyMode)] ++ d.body)).canonicalText

/-- The operation by which the mailbox is asked for a draft. -/
def operationKey (r : ProposalRequest) : String :=
  stableId "draft_operation" (.object [("idempotency_key", .string r.operationKey)]) 32

def claimId (r : ProposalRequest) : String :=
  stableId "effect_claim" (.object [("operation_key", .string (operationKey r))]) 24

/-- The claim of a draft: it names the revision that its ticket is about to have. -/
def claim (d : ProposedDraft) (r : ProposalRequest) (now : String) : EffectClaim where
  claimId := claimId r
  ticketId := r.ticketId
  ticketRevision := r.expectedRevision + 1
  effectKind := "graph.unsent_draft"
  operationKey := operationKey r
  requestDigest := d.requestDigest
  status := .claimed
  receiptId := none
  receipt := none
  claimedAt := now
  completedAt := none

/-- The fields that a route notes of a draft. -/
def fields (d : ProposedDraft) (r : ProposalRequest) : Map :=
  [("effect_claim_id", .string (claimId r)), ("draft_operation_key", .string (operationKey r)),
    ("draft_request_digest", .string d.requestDigest), ("draft_source_id", .string d.sourceId),
    ("mailbox_id", .string d.mailboxId), ("source_message_id", .string d.sourceMessageId),
    ("draft_reply_mode", .string d.replyMode)]

end ProposedDraft

/-- The route to a draft: its effect is claimed. -/
def responseDraft (env : WorkEnv) (r : ProposalRequest) (w : WorkDb) : Except String Routed := do
  let draft ← proposedDraft r w
  let claim := draft.claim r (env.now 0)
  if ∃ c ∈ w.claims, c.claimId = claim.claimId ∨ c.operationKey = claim.operationKey then
    throw (sqliteError "UNIQUE constraint failed: ticket_effect_claims")
  let claimed : WorkDb := { w with claims := w.claims ++ [claim] }
  let (moved, ticket) ← claimed.workTransition r.ticketId
    (routeTransition .effectClaimed r.summary (env.now 1) none none none)
  return { db := moved, ticket, eventType := "ticket.draft_effect.claimed"
           extra := draft.fields r }

/-! ### An end -/

/-- A text that an argument may have. -/
def optionalText (v : Option Value) (default : String) : String :=
  (v.bind Value.asStr).getD default

omit [FloatText] [Digest] in
/-- The links of a ticket to tasks that have not ended, as the resolution looks for them. -/
def WorkDb.UnfinishedLink (w : WorkDb) (ticketId : String) (l : TaskLink) : Prop :=
  l.ticketId = ticketId ∧ l.status = .active ∧
    ∃ task ∈ w.lifecycle.task l.taskId, ¬ task.status.Ended

instance (w : WorkDb) (ticketId : String) : DecidablePred (w.UnfinishedLink ticketId) :=
  fun _ => inferInstanceAs (Decidable (_ ∧ _))

/-- The route to the end of a ticket, which nothing may be open for. -/
def resolveTicket (env : WorkEnv) (r : ProposalRequest) (w : WorkDb) : Except String Routed := do
  if ∃ l ∈ w.links, w.UnfinishedLink r.ticketId l then throw "ticket_resolution_blocked_by_task"
  if w.openClaims r.ticketId ≠ [] then throw "ticket_resolution_blocked_by_effect_claim"
  if w.openDrafts r.ticketId ≠ [] then throw "ticket_resolution_blocked_by_draft"
  let (moved, ticket) ← w.workTransition r.ticketId
    (routeTransition .resolved r.summary (env.now 1) (some (optionalText r.resolution "resolved"))
      none (some (env.now 0)))
  return { db := moved, ticket, eventType := "ticket.resolved", extra := [] }

/-- The route to an operator. -/
def blockTicket (env : WorkEnv) (r : ProposalRequest) (w : WorkDb) : Except String Routed := do
  let (moved, ticket) ← w.workTransition r.ticketId
    (routeTransition .blocked r.summary (env.now 0) none
      (some (optionalText r.blocker "operator_required")) none)
  return { db := moved, ticket, eventType := "ticket.blocked.operator", extra := [] }

/-! ### The call -/

/-- The route that a call asks for. -/
def takeRoute (env : WorkEnv) (r : ProposalRequest) (w : WorkDb) : Except String Routed :=
  match r.route with
  | .followupTask => followupTask env r w
  | .responseDraft => responseDraft env r w
  | .resolved => resolveTicket env r w
  | .blockedOperator => blockTicket env r w

/-- What the event of a route says. -/
def Routed.note (routed : Routed) (r : ProposalRequest) (now : String) : EventNote where
  eventType := routed.eventType
  causationId := r.causationId
  operationKey := r.operationKey
  topic := "work.ticket-lifecycle.v1"
  extra := [("route", .string r.route.text), ("actor_id", .string r.actorId)] ++ routed.extra
  timestamp := now

/-- The answer of a route. -/
def Routed.answer (routed : Routed) (r : ProposalRequest) (eventId : String) : Value :=
  .object ([("schema", .string "narada.work_lifecycle.ticket_proposal.v1"),
    ("status", .string "admitted"), ("route", .string r.route.text),
    ("ticket_id", .string r.ticketId), ("ticket_revision", .ofInt routed.ticket.revision),
    ("event_id", .string eventId)] ++ routed.extra)

/-- The operation under which the answer of a call is stored. -/
def ProposalRequest.operation (r : ProposalRequest) (revision : ℤ) (result : Value)
    (now : String) : WorkOperation where
  operationKey := r.operationKey
  operationKind := "ticket.proposal." ++ r.route.text
  requestDigest := r.digest
  aggregateId := some r.ticketId
  aggregateRevision := some revision
  result := result
  createdAt := now

/-- A proposal for a ticket at the revision that it expects. -/
def carryOut (env : WorkEnv) (r : ProposalRequest) (w : WorkDb) :
    Except String (WorkDb × Value) := do
  let routed ← takeRoute env r w
  let (noted, eventId) ← routed.db.workEvent routed.ticket (routed.note r (env.now 5))
  let result := routed.answer r eventId
  let recorded ← noted.recordOperation (r.operation routed.ticket.revision result (env.now 6))
  return (recorded, workDomain r.operationKey result)

/-- `native_work_admit_proposal`, its transaction. -/
def admitProposal (env : WorkEnv) (args : Value) (w : WorkDb) :
    Except String (WorkDb × Value) := do
  let r ← proposalRequest args
  match ← w.existingOperation r.operationKey r.digest with
  | some stored => return (w, workDomain r.operationKey stored)
  | none => do
      let before ← w.workTicket r.ticketId
      if before.revision ≠ r.expectedRevision then
        throw ("ticket_revision_conflict:expected_" ++ toString r.expectedRevision ++
          ":actual_" ++ toString before.revision)
      carryOut env r w

end Routes

end WorkLifecycle

end McpSurfaces
