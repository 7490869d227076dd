import McpSurfaces.Foundation.Str
import McpSurfaces.Json.Reread
import McpSurfaces.LedgerDomain.Fold

/-!
The policy checks of a proposal: `validate_operations` and `validate_references`.

* `validateOperations` looks at the operations alone, `validateReferences` also at the
  projection: once for the entities that are known (`Views.references`) and once for every
  canonicalization (`Views.lookup`), each time at what is on disk by then.
-/

namespace McpSurfaces

namespace LedgerDomain

open EventLedger

/-! ### Arguments -/

/-- `Engine::error`. -/
def domainError (domain : Domain) (code message : String) (details : Value) : Failure :=
  schemaError domain.errorSchemaId code message details

/-- A list of texts as JSON. -/
def texts (values : List String) : Value := .array (values.map .string)

/-- The text of a field that is not blank. -/
def nonBlank (object : Map) (key : String) : Option String :=
  ((object.get key).bind Value.asStr).filter fun value => !Str.isBlank value

/-- `required`: a text argument that is not blank. -/
def required (domain : Domain) (args : Map) (key : String) : Except Failure String :=
  match nonBlank args key with
  | some value => .ok value
  | none => .error (domainError domain "required_argument_missing"
      ("required_argument_missing:" ++ key) (.object [("field", .string key)]))

/-- An argument that is accepted is a text that is not blank. -/
lemma required_ok {domain : Domain} {args : Map} {key value : String}
    (h : required domain args key = .ok value) :
    (args.get key).bind Value.asStr = some value ∧ ¬ Str.isBlank value := by
  rw [required] at h
  cases hvalue : nonBlank args key with
  | none =>
      rw [hvalue] at h
      cases h
  | some v =>
      rw [hvalue] at h
      cases h
      obtain ⟨htext, hblank⟩ := Option.filter_eq_some_iff.mp hvalue
      exact ⟨htext, by simpa using hblank⟩

/-- Every one of the fields is there. -/
def requireAll (domain : Domain) (object : Map) (fields : List String) : Except Failure Unit :=
  fields.forM fun field => do
    let _ ← required domain object field

/-! ### The operations -/

/-- The refusal of a legacy kind. -/
def legacyKindRefused (domain : Domain) (kind : String) : Failure :=
  domainError domain domain.communication.legacyWriteRefusalCode
    "legacy communication kinds are read aliases and cannot authorize writes"
    (.object [("supplied_kind", .string kind),
      ("canonical_replacement", .string domain.communication.canonicalKind),
      ("contract_version", .ofNat domain.communication.contractVersion),
      ("remediation", .string "resubmit the declaration with canonical_replacement")])

def checkEntityKind (domain : Domain) (kind : String) : Except Failure Unit :=
  if kind ∈ domain.communication.legacyReadAliases then .error (legacyKindRefused domain kind)
  else if kind ∉ domain.coreKinds ∧ ¬ Str.contains kind domain.kindExtensionRule.mustContain then
    .error (domainError domain domain.kindExtensionRule.refusalCode
      "extension entity kinds must be namespaced"
      (.object [("kind", .string kind), ("core_entity_kinds", texts domain.coreKinds),
        ("extension_pattern", .string domain.kindExtensionRule.pattern),
        ("examples", texts domain.kindExtensionRule.examples)]))
  else .ok ()

def checkRelationType (domain : Domain) (relationType : String) : Except Failure Unit :=
  if relationType ∉ domain.coreRelations ∧
      ¬ Str.contains relationType domain.relationExtensionRule.mustContain then
    .error (domainError domain domain.relationExtensionRule.refusalCode
      "extension relations must be namespaced"
      (.object [("relation_type", .string relationType),
        ("core_relations", texts domain.coreRelations),
        ("extension_pattern", .string domain.relationExtensionRule.pattern),
        ("examples", texts domain.relationExtensionRule.examples)]))
  else .ok ()

/-- One required field of an operation. -/
def checkField (domain : Domain) (object : Map) (kind field : String) : Except Failure Unit :=
  if field = "op" then .ok ()
  else do
    let value ← required domain object field
    if field = "kind" ∧ kind = domain.entityOp then checkEntityKind domain value
    if field = "relation_type" ∧ kind = domain.relationOp then checkRelationType domain value

/-- What a canonical communication needs beyond the fields of an entity. -/
def checkCommunication (domain : Domain) (object : Map) : Except Failure Unit := do
  requireAll domain object domain.communication.requiredFields
  if domain.communication.contentAnyOf.any fun field => (nonBlank object field).isSome then
    return ()
  else
    .error (domainError domain "communication_content_required"
      "canonical communication requires at least one declared content field"
      (.object [("canonical_kind", .string domain.communication.canonicalKind),
        ("content_any_of", texts domain.communication.contentAnyOf)]))

/-- What an entity needs beyond its required fields. -/
def checkEntity (domain : Domain) (object : Map) : Except Failure Unit := do
  let entityKind := textOf (.object object) "kind"
  if entityKind ∈ domain.communication.legacyReadAliases then
    .error (legacyKindRefused domain entityKind)
  else
    if entityKind = domain.communication.canonicalKind then checkCommunication domain object
    domain.conditional.forM fun rule =>
      if (object.get "kind").bind Value.asStr = some rule.whenKind then
        requireAll domain object rule.requires
      else .ok ()

/-- What a canonicalization needs beyond its required fields. -/
def checkCanonicalization (domain : Domain) (object : Map) : Except Failure Unit :=
  let legacyKind := textOf (.object object) "legacy_kind"
  let canonicalKind := textOf (.object object) "canonical_kind"
  if legacyKind ∉ domain.communication.legacyReadAliases ∨
      canonicalKind ≠ domain.communication.canonicalKind then
    .error (domainError domain "communication_canonicalization_contract_mismatch"
      "canonicalization must use a declared legacy alias and the descriptor canonical kind"
      (.object [("legacy_kind", .string legacyKind), ("canonical_kind", .string canonicalKind),
        ("canonical_replacement", .string domain.communication.canonicalKind),
        ("legacy_read_aliases", texts domain.communication.legacyReadAliases)]))
  else
    match (object.get "equivalence_evidence").bind Value.asObject with
    | none =>
        .error (domainError domain "communication_canonicalization_evidence_required"
          "canonicalization requires payload digest and originating event evidence"
          (.object [("entity_id", (object.get "entity_id").getD .null)]))
    | some evidence => requireAll domain evidence ["payload_sha256", "originating_event_id"]

/-- Whether an operation has evidence. -/
def hasEvidence (object : Map) : Bool :=
  match (object.get "evidence").bind Value.asArray with
  | some (_ :: _) => true
  | _ => false

def validateOperation (domain : Domain) (requireEvidence : Bool) (op : Value) :
    Except Failure Unit :=
  match op.asObject with
  | none => .error (domainError domain "invalid_operation" "operation must be an object" .null)
  | some object => do
      let kind ← required domain object "op"
      match domain.requiredFields.get kind with
      | none =>
          .error (domainError domain "invalid_operation" "unsupported operation"
            (.object [("op", .string kind)]))
      | some fields => do
          fields.forM (checkField domain object kind)
          if kind = domain.entityOp then checkEntity domain object
          if kind = domain.communication.canonicalizationOperation then
            checkCanonicalization domain object
          if requireEvidence ∧ kind ∈ domain.evidenceRequiredAtReview ∧ ¬ hasEvidence object then
            .error (domainError domain "evidence_required"
              "assessment and outcome records require evidence" (.object [("op", .string kind)]))

def validateOperations (domain : Domain) (ops : List Value) (requireEvidence : Bool) :
    Except Failure Unit :=
  ops.forM (validateOperation domain requireEvidence)

/-! ### The references -/

/-- The projections that the reference checks meet on disk: one for the known entities, and
one for each canonicalization. -/
structure Views where
  references : Option Projection
  lookup : ℕ → Option Projection

/-- The rows of the entities. -/
def Projection.entities (p : Projection) (domain : Domain) : List Row := p.rows domain.entityTable

/-- The ids of the entities of a projection. -/
def entityIds (domain : Domain) (p : Projection) : List String :=
  (p.entities domain).filterMap fun row =>
    row.get (((domain.table domain.entityTable).map TableSpec.primaryKey).getD "")

section References

variable [FloatRead]

/-- The senders and recipients of the messages of a projection. -/
def communicationPrincipals (domain : Domain) (p : Projection) : List String :=
  ((p.entities domain).filter fun row =>
    (row.get "kind").getD "" ∈ domain.configuredMessageKinds).flatMap fun row =>
      ["sender", "recipient"].filterMap fun field =>
        nonBlank ((row.payload.reread.asObject).getD []) field

/-- The ids that the operations declare. -/
def declaredIds (domain : Domain) (operations : List Value) : List String :=
  (operations.filter fun op => op.get "op" = some (.string domain.entityOp)).map fun op =>
    textOf op (((domain.fold.find? fun entry => entry.table = domain.entityTable).map
      FoldEntry.keyField).getD "entity_id")

/-- The entities that a proposal may refer to. -/
def knownEntities (domain : Domain) (view : Option Projection) (operations : List Value) :
    List String :=
  (view.map (entityIds domain)).getD [] ++ declaredIds domain operations

/-- `require_known`: the field names a known entity, or a principal where the object is
addressed to it or sent by it. -/
def requireKnown (domain : Domain) (known principals : List String) (field : String)
    (operation : Value) : Except Failure Unit :=
  let id := textOf operation field
  let relationType := (operation.get "relation_type").bind Value.asStr
  if id ∈ known ∨ ((relationType = some "addressed_to" ∨ relationType = some "sent_by") ∧
      id ∈ principals) then .ok ()
  else
    .error (domainError domain "dangling_reference" "operation references an unknown entity"
      (.object [("field", .string field), ("entity_id", .string id), ("operation", operation)]))

/-- The location of an entry of evidence. -/
def requireLocation (domain : Domain) (subField : String) (entry : Value) :
    Except Failure Unit :=
  domain.evidenceEntryRequired.forM fun field =>
    if field = subField then .ok ()
    else
      match nonBlank (entry.asObject.getD []) field with
      | some _ => .ok ()
      | none =>
          .error (domainError domain "evidence_location_incomplete"
            "evidence requires locator and paraphrase"
            (.object [("field", .string field), ("evidence", entry)]))

/-- The references of one operation under one binding of the descriptor. -/
def checkBinding (domain : Domain) (known principals : List String) (operation : Value)
    (binding : ReferenceBinding) : Except Failure Unit :=
  if binding.operation = "*" then
    binding.fields.forM fun field =>
      match Str.splitOnce field "[]." with
      | none => .ok ()
      | some (arrayField, subField) =>
          (((operation.get arrayField).bind Value.asArray).getD []).forM fun entry => do
            requireKnown domain known principals subField entry
            requireLocation domain subField entry
  else if binding.operation = textOf operation "op" then
    binding.fields.forM fun field => requireKnown domain known principals field operation
  else .ok ()

variable [FloatText] [Digest]

/-- The proof that a canonicalization is about the entity it names: kind, digest of the
payload and event are those of the projection. -/
def checkEquivalence (domain : Domain) (view : Option Projection) (operation : Value) :
    Except Failure Unit :=
  let entityId := textOf operation "entity_id"
  let legacyKind := textOf operation "legacy_kind"
  match (operation.get "equivalence_evidence").bind Value.asObject with
  | none =>
      .error (domainError domain "communication_canonicalization_evidence_required"
        "canonicalization evidence is missing" (.object [("entity_id", .string entityId)]))
  | some evidence =>
      let expectedDigest := textOf (.object evidence) "payload_sha256"
      let expectedEvent := textOf (.object evidence) "originating_event_id"
      match view with
      | none =>
          .error (domainError domain "communication_canonicalization_lookup_failed"
            ("no such table: " ++ domain.entityTable) .null)
      | some p =>
          match (p.entities domain).find? fun row => row.get "entity_id" = some entityId with
          | none =>
              .error (domainError domain "dangling_reference"
                "canonicalization references an unknown entity"
                (.object [("entity_id", .string entityId)]))
          | some row =>
              let currentKind := (row.get "kind").getD ""
              let actualDigest := Digest.sha256 row.payload.text
              let originatingEvent := (row.get "event_id").getD ""
              if currentKind ≠ legacyKind ∨ actualDigest ≠ expectedDigest ∨
                  originatingEvent ≠ expectedEvent then
                .error (domainError domain domain.communication.collisionRefusalCode
                  ("canonicalization evidence does not prove identity and payload " ++
                    "provenance equivalence")
                  (.object [("entity_id", .string entityId),
                    ("expected", .object [("kind", .string legacyKind),
                      ("payload_sha256", .string expectedDigest),
                      ("originating_event_id", .string expectedEvent)]),
                    ("actual", .object [("kind", .string currentKind),
                      ("payload_sha256", .string actualDigest),
                      ("originating_event_id", .string originatingEvent)])]))
              else .ok ()

/-- The references of one operation; `position` is its place in the proposal. -/
def checkReferences (domain : Domain) (views : Views) (known principals : List String)
    (position : ℕ) (operation : Value) : Except Failure Unit := do
  if textOf operation "op" = domain.communication.canonicalizationOperation then
    checkEquivalence domain (views.lookup position) operation
  domain.referenceBindings.forM (checkBinding domain known principals operation)

def validateReferences (domain : Domain) (views : Views) (operations : List Value) :
    Except Failure Unit :=
  let known := knownEntities domain views.references operations
  let principals := (views.references.map (communicationPrincipals domain)).getD []
  (operations.zipIdx).forM fun entry =>
    checkReferences domain views known principals entry.2 entry.1

end References

end LedgerDomain

end McpSurfaces
