import McpSurfaces.Json.Value

/-!
The domain descriptor an engine is loaded with, as far as the modelled functions read it,
and the descriptor of the epistemic graph (`epistemic`), the one of this repository.

The tables are those of the descriptor's `create table` statements, and a recipe is what
its template says.
-/

namespace McpSurfaces

namespace LedgerDomain

/-- One `create table` statement of the projection. -/
structure TableSpec where
  name : String
  columns : List String
  primaryKey : String
deriving DecidableEq

/-- How the fold writes one kind of operation to its table. -/
structure FoldEntry where
  operation : String
  table : String
  keyField : String
  columns : OrderedMap String String
deriving DecidableEq

/-- The rule for names outside the core vocabulary. -/
structure ExtensionRule where
  mustContain : String
  pattern : String
  examples : List String
  refusalCode : String

/-- The fields that an entity of one kind requires. -/
structure ConditionalFields where
  whenKind : String
  requires : List String

structure Communication where
  canonicalKind : String
  legacyReadAliases : List String
  contractVersion : ℕ
  canonicalizationOperation : String
  legacyWriteRefusalCode : String
  collisionRefusalCode : String
  requiredFields : List String
  contentAnyOf : List String

/-- The fields of an operation that name entities. -/
structure ReferenceBinding where
  operation : String
  fields : List String

/-- How an identity is derived: the text before the digest, the length of the digest, and
the fields that are digested. -/
structure Recipe where
  lead : String
  truncation : ℕ
  fields : List String

/-- The names that the operations of one proposal use for its entities. -/
structure LocalRefWiring where
  declareField : String
  duplicateRefusalCode : String
  referenceFields : List (String × String)
  unresolvedRefusalCode : String

/-- The schema ids of the records and receipts of the proposals. -/
structure ProposalSchemas where
  proposal : String
  submissionReceipt : String
  review : String
  admissionReceipt : String
  rejection : String
  compound : String
  event : String

structure Domain where
  errorSchemaId : String
  schemaNamespace : String
  ledgerFilePrefix : String
  eventHashField : String
  eventKind : String
  schemas : ProposalSchemas
  certifiesTruth : Bool
  reviewGatePreserved : Bool
  operationsMin : ℕ
  operationsMax : ℕ
  entityRecipe : Recipe
  relationRecipe : Recipe
  proposalKeyRecipe : Recipe
  admissionKeyRecipe : Recipe
  proposalIdLead : String
  localRefs : LocalRefWiring
  coreKinds : List String
  conditional : List ConditionalFields
  kindExtensionRule : ExtensionRule
  coreRelations : List String
  relationExtensionRule : ExtensionRule
  requiredFields : OrderedMap String (List String)
  evidenceEntryRequired : List String
  evidenceRequiredAtReview : List String
  referenceBindings : List ReferenceBinding
  entityOp : String
  relationOp : String
  tables : List TableSpec
  fold : List FoldEntry
  communication : Communication
  inboxKindKeys : List String
  kindAliases : OrderedMap String (List String)
  relationInverses : OrderedMap String String
  replyStateAttribute : Option String
  readReceiptKind : Option String
  readReceiptKindAttribute : Option String
  readReceiptMessageAttribute : Option String
  readReceiptReaderAttribute : Option String

namespace Domain

/-- The fold entry of an operation. -/
def foldEntry (domain : Domain) (operation : String) : Option FoldEntry :=
  domain.fold.find? fun entry => entry.operation = operation

/-- The table that the fold writes an operation to. -/
def foldTable (domain : Domain) (operation : String) : String :=
  ((domain.foldEntry operation).map FoldEntry.table).getD ""

/-- The table of the entities. -/
def entityTable (domain : Domain) : String := domain.foldTable domain.entityOp

/-- The table of the relations. -/
def relationTable (domain : Domain) : String := domain.foldTable domain.relationOp

/-- The columns and the key of a table. -/
def table (domain : Domain) (name : String) : Option TableSpec :=
  domain.tables.find? fun spec => spec.name = name

/-- The kinds of the messages: those of the inbox queries, with their aliases. -/
def configuredMessageKinds (domain : Domain) : List String :=
  domain.inboxKindKeys.flatMap fun canonical =>
    canonical :: (domain.kindAliases.get canonical).getD []

/-- Whether the projection has a table of datoms. -/
def hasDatoms (domain : Domain) : Bool := (domain.table "datoms").isSome

/-- Whether the projection keeps the head and the sequence it was folded to. -/
def hasMeta (domain : Domain) : Bool := (domain.table "projection_meta").isSome

end Domain

/-- The descriptor of the epistemic graph. -/
def epistemic : Domain where
  errorSchemaId := "narada.epistemic.error.v1"
  schemaNamespace := "narada.epistemic"
  ledgerFilePrefix := "ev"
  eventHashField := "event_hash"
  eventKind := "proposal_admitted"
  schemas := {
    proposal := "narada.epistemic.proposal.v1"
    submissionReceipt := "narada.epistemic.proposal_submission.v1"
    review := "narada.epistemic.proposal_review.v1"
    admissionReceipt := "narada.epistemic.proposal_admission.v1"
    rejection := "narada.epistemic.proposal_rejection.v1"
    compound := "narada.epistemic.submit_review_admit.v1"
    event := "narada.epistemic.event.v1" }
  certifiesTruth := false
  reviewGatePreserved := true
  operationsMin := 1
  operationsMax := 200
  entityRecipe := ⟨"", 20, ["kind", "title", "version", "locator"]⟩
  relationRecipe := ⟨"rel:", 16, ["relation_type", "source_id", "target_id"]⟩
  proposalKeyRecipe := ⟨"auto-proposal-", 24, ["actor", "authority_basis", "operations"]⟩
  admissionKeyRecipe := ⟨"auto-admission-", 24, ["proposal_id", "proposal_digest"]⟩
  proposalIdLead := "ep_"
  localRefs := {
    declareField := "local_ref"
    duplicateRefusalCode := "duplicate_local_ref"
    referenceFields := [("source_ref", "source_id"), ("target_ref", "target_id")]
    unresolvedRefusalCode := "local_ref_not_found" }
  coreKinds := ["problem", "conjecture", "claim", "criticism", "test", "source", "team_member",
    "research_issue_tree", "research_issue", "narada.epistemic:communication"]
  conditional := [⟨"source", ["version", "locator"]⟩,
    ⟨"narada.epistemic:communication", ["sender", "recipient", "intent", "sent_at"]⟩]
  kindExtensionRule := ⟨":", "<namespace>:<kind>",
    ["cintamani:experiment", "cintamani:equipment_type"], "invalid_entity_kind"⟩
  coreRelations := ["addresses", "criticizes", "tests", "depends_on", "derived_from",
    "transforms", "supersedes", "issue_child_of", "blocked_by", "sent_by", "addressed_to",
    "replies_to", "requests", "reports", "acknowledges", "promotes_to_evidence"]
  relationExtensionRule := ⟨":", "<namespace>:<relation>",
    ["marici:refines", "marici:generalizes"], "invalid_relation_type"⟩
  requiredFields := [
    ("entity.declare", ["op", "entity_id", "kind", "title"]),
    ("entity.kind_canonicalize", ["op", "entity_id", "legacy_kind", "canonical_kind"]),
    ("relation.declare", ["op", "relation_id", "relation_type", "source_id", "target_id"]),
    ("assessment.record", ["op", "assessment_id", "subject_id", "judgment", "actor", "reason"]),
    ("test_outcome.record", ["op", "outcome_id", "test_id", "actor", "outcome"]),
    ("sweep.record", ["op", "sweep_id", "interval_start", "interval_end", "method", "result"])]
  evidenceEntryRequired := ["source_id", "locator", "paraphrase"]
  evidenceRequiredAtReview := ["assessment.record", "test_outcome.record"]
  referenceBindings := [⟨"relation.declare", ["source_id", "target_id"]⟩,
    ⟨"assessment.record", ["subject_id"]⟩, ⟨"test_outcome.record", ["test_id"]⟩,
    ⟨"*", ["evidence[].source_id"]⟩]
  entityOp := "entity.declare"
  relationOp := "relation.declare"
  tables := [
    ⟨"entities", ["entity_id", "kind", "payload_json", "event_id", "event_sequence"],
      "entity_id"⟩,
    ⟨"relations", ["relation_id", "relation_type", "source_id", "target_id", "payload_json",
      "event_id", "event_sequence"], "relation_id"⟩,
    ⟨"records", ["record_id", "record_kind", "payload_json", "event_id", "event_sequence"],
      "record_id"⟩,
    ⟨"datoms", ["datom_id", "origin_id", "subject", "attribute", "value_json", "value_kind",
      "event_sequence", "event_id"], "datom_id"⟩,
    ⟨"projection_meta", ["meta_id", "ledger_head", "ledger_sequence", "updated_event_id"],
      "meta_id"⟩]
  fold := [
    ⟨"entity.declare", "entities", "entity_id", [("kind", "kind")]⟩,
    ⟨"entity.kind_canonicalize", "entities", "entity_id", [("kind", "canonical_kind")]⟩,
    ⟨"relation.declare", "relations", "relation_id", [("relation_type", "relation_type"),
      ("source_id", "source_id"), ("target_id", "target_id")]⟩,
    ⟨"assessment.record", "records", "assessment_id", [("record_kind", "assessment.record")]⟩,
    ⟨"test_outcome.record", "records", "outcome_id", [("record_kind", "test_outcome.record")]⟩,
    ⟨"sweep.record", "records", "sweep_id", [("record_kind", "sweep.record")]⟩]
  communication := {
    canonicalKind := "narada.epistemic:communication"
    legacyReadAliases := ["communication", "marici:communication"]
    contractVersion := 2
    canonicalizationOperation := "entity.kind_canonicalize"
    legacyWriteRefusalCode := "legacy_communication_kind_write_refused"
    collisionRefusalCode := "communication_kind_canonicalization_collision"
    requiredFields := ["entity_id", "title", "sender", "recipient", "intent", "sent_at"]
    contentAnyOf := ["title", "body"] }
  inboxKindKeys := ["narada.epistemic:communication"]
  kindAliases := [("narada.epistemic:communication", ["communication", "marici:communication"])]
  relationInverses := [("replies_to", "replied_by")]
  replyStateAttribute := some "narada.epistemic:replies_to"
  readReceiptKind := some "narada.epistemic:message_read"
  readReceiptKindAttribute := some "narada.ledger:entity/kind"
  readReceiptMessageAttribute := some "narada.epistemic:message_id"
  readReceiptReaderAttribute := some "narada.epistemic:reader"

end LedgerDomain

end McpSurfaces
