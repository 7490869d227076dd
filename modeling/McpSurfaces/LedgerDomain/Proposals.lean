import McpSurfaces.LedgerDomain.Normalize
import McpSurfaces.LedgerDomain.Rebuild

/-!
The proposals of a ledger: `proposal_submit`, `proposal_review`, `proposal_admit_locked`,
`proposal_reject`, `proposal_lifecycle` and `submit_review_admit`.

* `Disk` is what the files hold: the event ledger with its idempotency markers, the
  proposals with theirs, the reviews, the rejections and the projection. A record is kept as
  reading its file gives it (`Value.reread`).
* A call first reads and decides, and then writes: `draftProposal` and `planSubmission` of a
  submission, `planAdmission` of an admission. The writes are functions of their own, so
  that a run can stop between them.
-/

namespace McpSurfaces

namespace LedgerDomain

open EventLedger

/-! ### Files -/

/-- What a call takes from its surroundings: a random identifier and two times. -/
structure Fresh where
  uuid : Uuid
  assertedAt : String
  occurredAt : String

/-- An identifier and two times. -/
def sampleFresh : Fresh where
  uuid := Uuid.least
  assertedAt := "t"
  occurredAt := "t"

/-- The files of a site. -/
structure Disk where
  ledger : List Record
  markers : OrderedMap String String
  proposals : OrderedMap String Value
  proposalMarkers : OrderedMap String String
  reviews : OrderedMap String Value
  rejections : OrderedMap String Value
  projection : Option Projection

namespace Disk

/-- The event files of the ledger. -/
def files (disk : Disk) : List LedgerFile :=
  disk.ledger.map fun r => ⟨eventIdOf r.value ++ ".json", .ok r⟩

def putReview (disk : Disk) (id : String) (review : Value) : Disk :=
  { disk with reviews := disk.reviews.insert id review }

end Disk

/-- The refusal to write over a record. -/
def recordExists (domain : Domain) : Failure :=
  domainError domain "immutable_record_exists" "File exists (os error 17)" .null

/-- The failure to read a record that is not there. -/
def recordMissing (domain : Domain) : Failure :=
  domainError domain "record_read_failed" "No such file or directory (os error 2)" .null

section Files

variable [FloatRead]

/-- `write_new_json` of a proposal. -/
def writeProposal (domain : Domain) (disk : Disk) (id : String) (proposal : Value) :
    Except Failure Disk :=
  if disk.proposals.containsKey id then .error (recordExists domain)
  else .ok { disk with proposals := disk.proposals.insert id proposal.reread }

/-- `write_new` of the marker of a submission. -/
def writeProposalMarker (domain : Domain) (disk : Disk) (key id : String) : Except Failure Disk :=
  if disk.proposalMarkers.containsKey (markerName key) then .error (recordExists domain)
  else .ok { disk with proposalMarkers := disk.proposalMarkers.insert (markerName key) id }

/-- `write_new` of the marker of an admission. -/
def writeMarker (domain : Domain) (disk : Disk) (key eventId : String) : Except Failure Disk :=
  if disk.markers.containsKey (markerName key) then .error (recordExists domain)
  else .ok { disk with markers := disk.markers.insert (markerName key) eventId }

/-- `load_proposal`. -/
def loadProposal (domain : Domain) (disk : Disk) (id : String) : Except Failure Value :=
  match disk.proposals.get (safeName id) with
  | some proposal => .ok proposal
  | none => .error (recordMissing domain)

/-- The event of a file name. -/
def readEvent (domain : Domain) (disk : Disk) (eventId : String) : Except Failure Record :=
  match disk.ledger.find? fun r => eventIdOf r.value = eventId with
  | some event => .ok event
  | none => .error (recordMissing domain)

end Files

/-- `ledger_head`. -/
def ledgerHead (domain : Domain) (disk : Disk) : Option String :=
  (disk.ledger.getLast?).bind fun r => r.str domain.eventHashField

/-- `resolve_expected_ledger_head`: the current head where none is asked for. -/
def resolveExpectedLedgerHead (head : Option String) (supplied : Option Value) : Value :=
  match supplied with
  | none => optionText head
  | some (.string "latest") => optionText head
  | some value => value

/-- `==` on optional values. -/
def optionEqv : Option Value → Option Value → Bool
  | none, none => true
  | some v, some w => v.eqv w
  | _, _ => false

/-! ### Submission -/

/-- The identity of a sender, as far as the actor of a submission supports it. -/
def senderIdentityState (actor sender : String) : Value :=
  .object [("schema", .string "narada.epistemic.sender_identity_state.v1"),
    ("identity", .string sender),
    ("status", .string (if actor = sender then "self_claimed" else "asserted_by_actor")),
    ("asserting_actor", .string actor), ("authentication", .string "missing"),
    ("authority_granted", .bool false)]

/-- A communication with the identity of its sender. -/
def stateSender (actor : String) (operation : Value) : Value :=
  match operation.asObject with
  | none => operation
  | some object =>
      if textOf operation "op" ≠ "entity.declare" ∨
          textOf operation "kind" ≠ "narada.epistemic:communication" ∨
          object.containsKey "sender_identity_state" then operation
      else
        match (object.get "sender").bind Value.asStr with
        | none => operation
        | some sender =>
            .object (object.insert "sender_identity_state" (senderIdentityState actor sender))

/-- The text of an argument that is not blank, or a default. -/
def textOr (args : Map) (key : String) (default : String) : String :=
  (nonBlank args key).getD default

/-- A proposal as it is going to be stored, with its id and its idempotency key. -/
structure Draft where
  proposalId : String
  key : String
  fingerprint : String
  stored : Value

section Submission

variable [FloatText] [FloatRead] [Digest]

/-- What a submission says: actor, authority and normalized operations. -/
def semanticContent (domain : Domain) (args : Map) : Except Failure Value := do
  let actor ← required domain args "actor"
  match (args.get "operations").bind Value.asArray with
  | none => .error (domainError domain "invalid_proposal" "operations must be an array" .null)
  | some supplied =>
      if supplied.length < domain.operationsMin ∨ domain.operationsMax < supplied.length then
        .error (domainError domain "invalid_proposal"
          ("operations count must be between " ++ toString domain.operationsMin ++ " and " ++
            toString domain.operationsMax)
          (.object [("count", .ofNat supplied.length)]))
      else do
        let normalized ← normalizeOperations domain supplied
        let operations := normalized.map (stateSender actor)
        validateOperations domain operations false
        return .object [("actor", .string actor),
          ("authority_basis", (args.get "authority_basis").getD .null),
          ("operations", .array operations)]

/-- The idempotency key of a submission. -/
def submissionKey (domain : Domain) (args : Map) (content : Value) : String :=
  textOr args "idempotency_key" (derivedIdempotencyKey domain.proposalKeyRecipe content)

/-- The proposal of a submission, at the ledger head it was read at. -/
def draftProposal (domain : Domain) (head : Option String) (fresh : Fresh) (args : Map) :
    Except Failure Draft := do
  let content ← semanticContent domain args
  let expected := resolveExpectedLedgerHead head (args.get "expected_ledger_head")
  let fingerprint := digestValue content
  let key := submissionKey domain args content
  let proposalId := domain.proposalIdLead ++ fresh.uuid.text
  let payload : Map := [("schema", .string domain.schemas.proposal),
    ("proposal_id", .string proposalId), ("status", .string "submitted"),
    ("actor", (content.get "actor").getD .null),
    ("authority_basis", (content.get "authority_basis").getD .null),
    ("idempotency_key", .string key), ("expected_ledger_head", expected),
    ("created_at", .string fresh.occurredAt), ("content_fingerprint", .string fingerprint),
    ("operations", (content.get "operations").getD .null)]
  return ⟨proposalId, key, fingerprint,
    .object (payload ++ [("digest", .string (digestValue (.object payload)))])⟩

/-- The proposal that the key of a submission already names, when there is one. -/
def planSubmission (domain : Domain) (disk : Disk) (draft : Draft) :
    Except Failure (Option Value) :=
  match disk.proposalMarkers.get (markerName draft.key) with
  | none => .ok none
  | some existing =>
      match disk.proposals.get (Str.trim existing) with
      | none => .error (recordMissing domain)
      | some stored =>
          if ((stored.get "content_fingerprint").bind Value.asStr).isSome ∧
              ¬ optionEqv (stored.get "content_fingerprint")
                (some (.string draft.fingerprint)) then
            .error (domainError domain "proposal_idempotency_conflict"
              "idempotency key already names different proposal content"
              (.object [("idempotency_key", .string draft.key),
                ("existing_proposal_id", (stored.get "proposal_id").getD .null)]))
          else .ok (some stored)

/-- The number of operations of a record. -/
def operationCount (v : Value) : Value := .ofNat (operationsOf v).length

/-- `proposal_receipt`. -/
def proposalReceipt (domain : Domain) (proposal : Value) : Value :=
  .object [("schema", .string domain.schemas.submissionReceipt),
    ("status", (proposal.get "status").getD .null),
    ("proposal_id", (proposal.get "proposal_id").getD .null),
    ("proposal_digest", (proposal.get "digest").getD .null),
    ("content_fingerprint", (proposal.get "content_fingerprint").getD .null),
    ("operation_count", operationCount proposal),
    ("expected_ledger_head", (proposal.get "expected_ledger_head").getD .null),
    ("created_at", (proposal.get "created_at").getD .null)]

end Submission

/-! ### Review -/

section Review

variable [FloatText] [FloatRead] [Digest]

/-- `proposal_review` without the write of its result. -/
def proposalReview (domain : Domain) (disk : Disk) (views : Views) (id : String) :
    Except Failure Value := do
  let proposal ← loadProposal domain disk id
  match (proposal.get "operations").bind Value.asArray with
  | none =>
      .error (domainError domain "proposal_corrupt" "proposal operations missing"
        (.object [("proposal_id", .string id)]))
  | some operations => do
      validateOperations domain operations true
      validateReferences domain views operations
      let expected := (proposal.get "expected_ledger_head").bind Value.asStr
      let current := ledgerHead domain disk
      let headMatches := decide (expected = current)
      return .object [("schema", .string domain.schemas.review), ("proposal_id", .string id),
        ("status", .string (if headMatches then "policy_valid" else "stale")),
        ("certifies_truth", .bool domain.certifiesTruth),
        ("checks", .object [("schema", .bool true), ("references", .bool true),
          ("evidence_locations", .bool true), ("graph_invariants", .bool true),
          ("ledger_head", .bool headMatches)]),
        ("expected_ledger_head", optionText expected),
        ("actual_ledger_head", optionText current)]

/-! ### Admission -/

/-- `identity_state_for_event`. -/
def identityStateForEvent (actor operation assertedAt : String) : Value :=
  .object [("schema", .string "narada.agent.identity_state.v1"),
    ("claimed_identity", .object [("identity", .string actor), ("status", .string "claimed"),
      ("source", .string "ledger_actor"), ("asserted_at", .string assertedAt),
      ("evidence_refs", .array []), ("authority_granted", .bool false)]),
    ("authentication", .object [("status", .string "missing"),
      ("authenticated_identity", .null), ("evidence_refs", .array [])]),
    ("authority", .object [("status", .string "not_evaluated"),
      ("operation", .string operation), ("granted", .bool false),
      ("evidence_refs", .array [])])]

/-- The fields of an event, before its hash is known. -/
def eventFields (domain : Domain) (sequence : ℕ) (eventId : String)
    (previousHash : Option String) (id : String) (proposal : Value) (actor key : String)
    (fresh : Fresh) (args : Map) : Map :=
  [("schema", .string domain.schemas.event), ("sequence", .ofNat sequence),
    ("event_id", .string eventId), ("event_kind", .string domain.eventKind),
    ("previous_hash", optionText previousHash), ("proposal_id", .string id),
    ("proposal_digest", (proposal.get "digest").getD .null),
    ("operations", (proposal.get "operations").getD .null), ("actor", .string actor),
    ("identity_state", identityStateForEvent actor "ledger.proposal_submit" fresh.assertedAt),
    ("authority_basis", (args.get "authority_basis").getD .null),
    ("idempotency_key", .string key), ("occurred_at", .string fresh.occurredAt),
    ("certifies_truth", .bool domain.certifiesTruth)]

omit [FloatText] [FloatRead] [Digest] in
lemma nodup_keys_eventFields (domain : Domain) (sequence : ℕ) (eventId : String)
    (previousHash : Option String) (id : String) (proposal : Value) (actor key : String)
    (fresh : Fresh) (args : Map) : (OrderedMap.keys (eventFields domain sequence eventId
      previousHash id proposal actor key fresh args)).Nodup := by
  simp [eventFields, OrderedMap.keys]

/-- The sequence and the previous hash that `append_event` gives the next event. -/
def appendContext (domain : Domain) (disk : Disk) : Except Failure (ℕ × Option String) :=
  match disk.ledger.getLast? with
  | none => .ok (1, none)
  | some last =>
      match last.u64 "sequence" with
      | none =>
          .error (domainError domain "ledger_sequence_invalid"
            "last ledger event has no valid sequence"
            (.object [("path", .string (eventIdOf last.value ++ ".json"))]))
      | some sequence =>
          if sequence + 1 < 2 ^ 64 then .ok (sequence + 1, last.str domain.eventHashField)
          else .error (.panic "attempt to add with overflow")

/-- The id of an event: the prefix of the ledger, its sequence and a random identifier. -/
def newEventId (domain : Domain) (sequence : ℕ) (uuid : Uuid) : String :=
  domain.ledgerFilePrefix ++ "-" ++ zeroPadded sequence ++ "-" ++ uuid.text

/-- The event that `append_event` writes, hash included. -/
def buildEvent (domain : Domain) (disk : Disk) (id : String) (proposal : Value)
    (actor key : String) (fresh : Fresh) (args : Map) : Except Failure Record := do
  let (sequence, previousHash) ← appendContext domain disk
  return withHash (eventFields domain sequence (newEventId domain sequence fresh.uuid)
    previousHash id proposal actor key fresh args) domain.eventHashField
    (nodup_keys_eventFields ..)

/-- What an admission under the lock is going to do. -/
inductive AdmissionPlan where
  /-- The key already names the event of this admission. -/
  | replay (event : Record)
  /-- The event of this admission is there, its marker is lost. -/
  | recover (key : String) (event : Record)
  /-- The review was written, and the admission refused. -/
  | refused (id : String) (review : Value) (failure : Failure)
  /-- The review was written, and the event is to be appended. -/
  | append (id key : String) (review : Value) (event : Record)

/-- The refusal of a key that another admission has used. -/
def admissionConflict (domain : Domain) (key : String) (existing : Value) : Failure :=
  domainError domain "admission_idempotency_conflict"
    "idempotency key already names a different proposal admission"
    (.object [("idempotency_key", .string key), ("existing_event_id", existing)])

/-- Whether an event is the admission of a proposal. -/
def isAdmissionOf (event : Record) (id : String) (proposal : Value) : Bool :=
  optionEqv (event.get "proposal_id") (some (.string id)) &&
    optionEqv (event.get "proposal_digest") (proposal.get "digest")

/-- The idempotency key of an admission. -/
def admissionKey (domain : Domain) (args : Map) (id : String) (proposal : Value) : String :=
  textOr args "idempotency_key" (derivedIdempotencyKey domain.admissionKeyRecipe
    (.object [("proposal_id", .string id),
      ("proposal_digest", (proposal.get "digest").getD .null)]))

/-- The review gate and the comparison of heads. -/
def planAppend (domain : Domain) (disk : Disk) (views : Views) (fresh : Fresh) (args : Map)
    (id actor key : String) (proposal : Value) : Except Failure AdmissionPlan := do
  let review ← proposalReview domain disk views id
  if review.get "status" ≠ some (.string "policy_valid") then
    return .refused id review (domainError domain "proposal_not_admissible"
      "proposal review is not policy_valid" review)
  else
    let current := ledgerHead domain disk
    let expected := (resolveExpectedLedgerHead current (args.get "expected_ledger_head")).asStr
    let proposalExpected := proposal.get "expected_ledger_head"
    if expected ≠ current ∨ proposalExpected.bind Value.asStr ≠ current then
      return .refused id review (domainError domain "ledger_head_conflict"
        "expected ledger head does not match"
        (.object [("expected", optionText expected),
          ("proposal_expected", proposalExpected.getD .null), ("actual", optionText current)]))
    else
      match buildEvent domain disk id proposal actor key fresh args with
      | .error failure => return .refused id review failure
      | .ok event => return .append id key review event

/-- The decision of `proposal_admit_locked`: the marker of the key first, then the events of
the ledger, then the review. -/
def planAdmission (domain : Domain) (disk : Disk) (views : Views) (fresh : Fresh) (args : Map) :
    Except Failure AdmissionPlan := do
  let id ← required domain args "proposal_id"
  let actor ← required domain args "actor"
  let proposal ← loadProposal domain disk id
  let key := admissionKey domain args id proposal
  match disk.markers.get (markerName key) with
  | some content => do
      let event ← readEvent domain disk (Str.trim content)
      if isAdmissionOf event id proposal then return .replay event
      else .error (admissionConflict domain key (.string (Str.trim content)))
  | none =>
      match ← findByIdempotency disk.files key with
      | some event =>
          if isAdmissionOf event id proposal then return .recover key event
          else .error (admissionConflict domain key ((event.get "event_id").getD .null))
      | none => planAppend domain disk views fresh args id actor key proposal

/-- `admission_receipt`. -/
def admissionReceipt (domain : Domain) (event : Value) : Value :=
  .object [("schema", .string domain.schemas.admissionReceipt), ("status", .string "admitted"),
    ("proposal_id", (event.get "proposal_id").getD .null),
    ("proposal_digest", (event.get "proposal_digest").getD .null),
    ("event_id", (event.get "event_id").getD .null),
    ("sequence", (event.get "sequence").getD .null),
    ("operation_count", operationCount event),
    ("ledger_head", (event.get domain.eventHashField).getD .null),
    ("certifies_truth", .bool domain.certifiesTruth)]

/-! ### Writes and calls -/

/-- `write_new_json` of an event. -/
def writeEvent (domain : Domain) (disk : Disk) (event : Record) : Except Failure Disk :=
  if disk.ledger.any fun r => eventIdOf r.value = eventIdOf event.value then
    .error (recordExists domain)
  else .ok { disk with ledger := disk.ledger ++ [rereadRecord event] }

/-- `rebuild_projection`. -/
def refresh (domain : Domain) (disk : Disk) : Except Failure Disk := do
  let store ← rebuildProjectionLocked domain ⟨disk.files, disk.projection⟩
  return { disk with projection := store.projection }

/-- The event is written, then its marker, then the projection refreshed. A failure leaves
what was written before it. -/
def commitEvent (domain : Domain) (disk : Disk) (key : String) (event : Record) :
    Disk × Except Failure Value :=
  match writeEvent domain disk event with
  | .error failure => (disk, .error failure)
  | .ok written =>
      match writeMarker domain written key (eventIdOf event.value) with
      | .error failure => (written, .error failure)
      | .ok marked =>
          match refresh domain marked with
          | .error failure => (marked, .error failure)
          | .ok refreshed => (refreshed, .ok (admissionReceipt domain event.value))

/-- The writes of an admission, and its answer. -/
def commitAdmission (domain : Domain) (disk : Disk) :
    AdmissionPlan → Disk × Except Failure Value
  | .replay event => (disk, .ok (admissionReceipt domain event.value))
  | .recover key event =>
      match event.str "event_id" with
      | none => (disk, .error (.panic "called `Option::unwrap()` on a `None` value"))
      | some eventId =>
          match writeMarker domain disk key eventId with
          | .error failure => (disk, .error failure)
          | .ok marked => (marked, .ok (admissionReceipt domain event.value))
  | .refused id review failure => (disk.putReview id review.reread, .error failure)
  | .append id key review event =>
      commitEvent domain (disk.putReview id review.reread) key event

def proposalAdmitLocked (domain : Domain) (views : Views) (fresh : Fresh) (args : Map)
    (disk : Disk) : Disk × Except Failure Value :=
  match planAdmission domain disk views fresh args with
  | .error failure => (disk, .error failure)
  | .ok plan => commitAdmission domain disk plan

/-- `proposal_lifecycle`. -/
def proposalLifecycle (domain : Domain) (disk : Disk) (id : String) : Value :=
  match disk.ledger.find? fun r => r.str "proposal_id" = some id with
  | some event =>
      .object [("status", .string "admitted"), ("event_id", (event.get "event_id").getD .null),
        ("sequence", (event.get "sequence").getD .null),
        ("ledger_head", (event.get domain.eventHashField).getD .null),
        ("admitted_at", (event.get "occurred_at").getD .null)]
  | none =>
      match disk.rejections.get (safeName id) with
      | some rejection =>
          .object [("status", .string "rejected"),
            ("rejected_at", (rejection.get "occurred_at").getD .null),
            ("reason", (rejection.get "reason").getD .null)]
      | none =>
          match disk.reviews.get (safeName id) with
          | some review =>
              .object [("status", .string "reviewed"),
                ("review_status", (review.get "status").getD .null)]
          | none => .object [("status", .string "submitted")]

/-- `proposal_reject`. -/
def proposalReject (domain : Domain) (fresh : Fresh) (args : Map) (disk : Disk) :
    Except Failure (Disk × Value) := do
  let id ← required domain args "proposal_id"
  let _ ← loadProposal domain disk id
  let actor ← required domain args "actor"
  let reason ← required domain args "reason"
  let rejection : Value := .object [("schema", .string domain.schemas.rejection),
    ("proposal_id", .string id), ("status", .string "rejected"), ("actor", .string actor),
    ("reason", .string reason), ("occurred_at", .string fresh.occurredAt)]
  if disk.rejections.containsKey id then .error (recordExists domain)
  else
    return ({ disk with rejections := disk.rejections.insert id rejection.reread }, rejection)

/-- `proposal_submit`: the proposal is written, then its marker. -/
def proposalSubmit (domain : Domain) (fresh : Fresh) (args : Map) (disk : Disk) :
    Disk × Except Failure Value :=
  match draftProposal domain (ledgerHead domain disk) fresh args with
  | .error failure => (disk, .error failure)
  | .ok draft =>
      match planSubmission domain disk draft with
      | .error failure => (disk, .error failure)
      | .ok (some stored) => (disk, .ok (proposalReceipt domain stored))
      | .ok none =>
          match writeProposal domain disk draft.proposalId draft.stored with
          | .error failure => (disk, .error failure)
          | .ok written =>
              match writeProposalMarker domain written draft.key draft.proposalId with
              | .error failure => (written, .error failure)
              | .ok marked => (marked, .ok (proposalReceipt domain draft.stored))

/-- The answer of the compound call. -/
def compoundReceipt (domain : Domain) (status : String) (submission review admission : Value) :
    Value :=
  .object [("schema", .string domain.schemas.compound), ("status", .string status),
    ("submission", submission), ("review", review), ("admission", admission),
    ("review_gate_preserved", .bool domain.reviewGatePreserved),
    ("certifies_truth", .bool domain.certifiesTruth)]

/-- The arguments of the admission in the compound call. -/
def compoundArgs (domain : Domain) (args : Map) (actor id : String) (submission : Value) : Map :=
  [("proposal_id", .string id), ("actor", .string actor),
    ("authority_basis", (args.get "authority_basis").getD .null),
    ("expected_ledger_head", (submission.get "expected_ledger_head").getD .null),
    ("idempotency_key", .string (derivedIdempotencyKey domain.admissionKeyRecipe
      (.object [("proposal_id", .string id),
        ("proposal_digest", (submission.get "proposal_digest").getD .null)])))]

/-- The compound call behind the submission: an admitted proposal is reported, another one
reviewed and admitted. -/
def reviewAndAdmit (domain : Domain) (views : Views) (fresh : Fresh) (args : Map) (disk : Disk)
    (submission : Value) (id : String) : Disk × Except Failure Value :=
  let lifecycle := proposalLifecycle domain disk id
  if lifecycle.get "status" = some (.string "admitted") then
    match disk.reviews.get (safeName id) with
    | none => (disk, .error (recordMissing domain))
    | some review =>
        (disk, .ok (compoundReceipt domain "already_admitted" submission review lifecycle))
  else
    match proposalReview domain disk views id with
    | .error failure => (disk, .error failure)
    | .ok review =>
        let reviewed := disk.putReview id review.reread
        if review.get "status" ≠ some (.string "policy_valid") then
          (reviewed, .error (domainError domain "proposal_not_admissible"
            "compound contribution stopped at the preserved review gate"
            (.object [("submission", submission), ("review", review)])))
        else
          match required domain args "actor" with
          | .error failure => (reviewed, .error failure)
          | .ok actor =>
              match proposalAdmitLocked domain views fresh
                (compoundArgs domain args actor id submission) reviewed with
              | (admitted, .error failure) => (admitted, .error failure)
              | (admitted, .ok admission) =>
                  (admitted, .ok (compoundReceipt domain "admitted" submission review admission))

/-- `submit_review_admit`. -/
def submitReviewAdmit (domain : Domain) (views : Views) (fresh : Fresh) (args : Map)
    (disk : Disk) : Disk × Except Failure Value :=
  match proposalSubmit domain fresh args disk with
  | (submitted, .error failure) => (submitted, .error failure)
  | (submitted, .ok submission) =>
      match (submission.get "proposal_id").bind Value.asStr with
      | none =>
          (submitted, .error (domainError domain "proposal_submission_corrupt"
            "proposal id missing" submission))
      | some id => reviewAndAdmit domain views fresh args submitted submission id

end Review

end LedgerDomain

end McpSurfaces
