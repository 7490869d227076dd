import McpSurfaces.EventLedger.Files
import McpSurfaces.LedgerDomain.Validate

/-!
The names that are derived from content: `derived_idempotency_key`, and the ids and local
references that `normalize_operations` fills in.
-/

namespace McpSurfaces

namespace LedgerDomain

open EventLedger

/-! ### Names -/

/-- The first characters of a digest. -/
def takeChars (n : ℕ) (s : String) : String := String.ofList (s.toList.take n)

section Derived

variable [FloatText] [Digest]

/-- `derived_idempotency_key`: the digest of some fields of the source. -/
def derivedIdempotencyKey (recipe : Recipe) (source : Value) : String :=
  recipe.lead ++ takeChars recipe.truncation (digestValue (.object
    (recipe.fields.map fun field => (field, (source.get field).getD .null))))

/-! ### Entities -/

/-- The id of an entity, from its kind, title, version and locator. -/
def derivedEntityId (domain : Domain) (object : Map) (kind : String) : String :=
  safeName kind ++ ":" ++ takeChars domain.entityRecipe.truncation (digestValue (.object
    (domain.entityRecipe.fields.map fun field => (field, (object.get field).getD .null))))

/-- The field that names an entity. -/
def entityKeyField (domain : Domain) : String :=
  ((domain.foldEntry domain.entityOp).map FoldEntry.keyField).getD ""

/-- An entity with its id, where kind and title are there to derive it from. -/
def nameEntity (domain : Domain) (object : Map) : Map :=
  let kind := textOf (.object object) "kind"
  let title := textOf (.object object) "title"
  if ((object.get (entityKeyField domain)).bind Value.asStr).isNone ∧ kind ≠ "" ∧ title ≠ "" then
    object.insert (entityKeyField domain) (.string (derivedEntityId domain object kind))
  else object

/-- The first pass of `normalize_operations`: entities are named, and their local
references collected. -/
def nameEntities (domain : Domain) :
    List Value → OrderedMap String String →
      Except Failure (List Value × OrderedMap String String)
  | [], localIds => .ok ([], localIds)
  | operation :: rest, localIds => do
      let entity := (operation.get "op").bind Value.asStr = some domain.entityOp
      let object := nameEntity domain (operation.asObject.getD [])
      let localRef := (object.get domain.localRefs.declareField).bind Value.asStr
      let entityId := (object.get (entityKeyField domain)).bind Value.asStr
      let normalized := if entity then .object object else operation
      match (if entity then localRef else none), entityId with
      | some name, some id =>
          if localIds.containsKey name then
            .error (domainError domain domain.localRefs.duplicateRefusalCode
              "entity local_ref must be unique within a proposal"
              (.object [("local_ref", .string name)]))
          else do
            let (others, ids) ← nameEntities domain rest (localIds.insert name id)
            return (normalized :: others, ids)
      | _, _ => do
          let (others, ids) ← nameEntities domain rest localIds
          return (normalized :: others, ids)

/-! ### Relations -/

/-- A reference of a relation, replaced by the id it stands for. -/
def resolveReference (domain : Domain) (localIds : OrderedMap String String) (object : Map)
    (fields : String × String) : Except Failure Map :=
  match (object.get fields.2).bind Value.asStr with
  | some _ => .ok object
  | none =>
      match (object.get fields.1).bind Value.asStr with
      | none => .ok object
      | some reference =>
          match localIds.get reference with
          | none => .error (domainError domain domain.localRefs.unresolvedRefusalCode
              "relation reference does not identify an entity in this proposal"
              (.object [("field", .string fields.1), ("local_ref", .string reference)]))
          | some id => .ok (object.insert fields.2 (.string id))

/-- The id of a relation, from its type and its ends. -/
def derivedRelationId (domain : Domain) (object : Map) (relationType : String) : String :=
  domain.relationRecipe.lead ++ safeName relationType ++ "-" ++
    takeChars domain.relationRecipe.truncation (Digest.sha256
      ("\x00".intercalate (domain.relationRecipe.fields.map fun field =>
        textOf (.object object) field)))

/-- The field that names a relation. -/
def relationKeyField (domain : Domain) : String :=
  ((domain.foldEntry domain.relationOp).map FoldEntry.keyField).getD ""

/-- The second pass of `normalize_operations` on one operation. -/
def nameRelation (domain : Domain) (localIds : OrderedMap String String) (operation : Value) :
    Except Failure Value :=
  if (operation.get "op").bind Value.asStr = some domain.relationOp then do
    let object ← domain.localRefs.referenceFields.foldlM (resolveReference domain localIds)
      (operation.asObject.getD [])
    let relationType := textOf (.object object) "relation_type"
    if ((object.get (relationKeyField domain)).bind Value.asStr).isSome ∨ relationType = "" ∨
        textOf (.object object) "source_id" = "" ∨ textOf (.object object) "target_id" = "" then
      return .object object
    else
      return .object (object.insert (relationKeyField domain)
        (.string (derivedRelationId domain object relationType)))
  else .ok operation

def normalizeOperations (domain : Domain) (operations : List Value) :
    Except Failure (List Value) := do
  let (named, localIds) ← nameEntities domain operations []
  named.mapM (nameRelation domain localIds)

end Derived

end LedgerDomain

end McpSurfaces
