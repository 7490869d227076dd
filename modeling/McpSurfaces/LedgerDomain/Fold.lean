import McpSurfaces.EventLedger.Chain
import McpSurfaces.LedgerDomain.Descriptor

/-!
The projection of a ledger and the fold of an event into it: `fold_projection_event`,
`emit_datoms` and `write_datom`.

* A table is the list of its rows in the order of their row ids: `insert or replace` takes
  a row of the same key out and appends (`replaceRow`).
* `emittedFacts` are the facts of an operation in the order they are written;
  `emitDatoms` replaces what the origin had.
* `foldLedger` folds the events of a ledger from the tables of the descriptor.
* `foldProjectionEvent_congr`: the fold reads an event by its fields only.
* `metaRow_of_fold`: **a folded event leaves its hash and sequence in the projection**.
-/

namespace McpSurfaces

namespace LedgerDomain

open EventLedger

/-! ### Tables -/

/-- A row: its columns, and the operation whose text is the column `payload_json`. -/
structure Row where
  columns : OrderedMap String String
  payload : Value
deriving DecidableEq

/-- The text of a column. -/
def Row.get (r : Row) (column : String) : Option String := r.columns.get column

/-- A row of the datoms: the column `value_json` is the text of the value. -/
structure DatomRow where
  datomId : String
  originId : String
  subject : String
  attr : String
  value : Value
  valueKind : String
  eventSequence : ℤ
  eventId : String
deriving DecidableEq

/-- The row of `projection_meta`. -/
structure MetaRow where
  ledgerHead : Option String
  ledgerSequence : ℤ
  updatedEventId : Option String
deriving DecidableEq

structure Projection where
  tables : OrderedMap String (List Row)
  datoms : List DatomRow
  metaRow : Option MetaRow
deriving DecidableEq

namespace Projection

/-- The tables as the descriptor creates them. -/
def created : Projection where
  tables := []
  datoms := []
  metaRow := some ⟨none, 0, none⟩

/-- The rows of a table. -/
def rows (p : Projection) (table : String) : List Row := (p.tables.get table).getD []

def setRows (p : Projection) (table : String) (rows : List Row) : Projection :=
  { p with tables := p.tables.insert table rows }

lemma rows_setRows (p : Projection) (table other : String) (rows : List Row) :
    (p.setRows table rows).rows other = if table = other then rows else p.rows other := by
  rw [setRows, Projection.rows, OrderedMap.get_insert]
  split_ifs <;> rfl

@[simp] lemma datoms_setRows (p : Projection) (table : String) (rows : List Row) :
    (p.setRows table rows).datoms = p.datoms := rfl

end Projection

/-- `insert or replace`: rows of the same key leave, the new row comes last. -/
def replaceRow (key : String) (rows : List Row) (row : Row) : List Row :=
  rows.filter (fun r => r.get key ≠ row.get key) ++ [row]

/-- The two's complement of a `u64` as an `i64`. -/
def asI64 (n : ℕ) : ℤ := if n < 2 ^ 63 then n else (n : ℤ) - 2 ^ 64

/-! ### Datoms -/

/-- A subject, an attribute and a value. -/
structure Fact where
  subject : String
  attr : String
  value : Value

def valueKind : Value → String
  | .null => "null"
  | .bool _ => "boolean"
  | .number _ => "number"
  | .string _ => "string"
  | .array _ | .object _ => "json"

/-- The text that the id of a datom digests. -/
def datomKey (originId subject attr valueJson : String) : String :=
  originId ++ "\x00" ++ subject ++ "\x00" ++ attr ++ "\x00" ++ valueJson

/-- The text of an optional field, empty without one. -/
def textOf (op : Value) (field : String) : String := ((op.get field).bind Value.asStr).getD ""

/-- `event["sequence"].as_u64().unwrap_or_default()`. -/
def sequenceOf (event : Value) : ℕ := ((event.get "sequence").bind Value.asU64).getD 0

section Emit

variable [FloatText] [Digest]

/-- The row of a fact. -/
def datomRow (originId : String) (sequence : ℕ) (eventId : String) (fact : Fact) : DatomRow where
  datomId := Digest.sha256 (datomKey originId fact.subject fact.attr fact.value.text)
  originId := originId
  subject := fact.subject
  attr := fact.attr
  value := fact.value
  valueKind := valueKind fact.value
  eventSequence := asI64 sequence
  eventId := eventId

/-- `write_datom`: `insert or replace` under the id of the datom. -/
def writeDatom (originId : String) (sequence : ℕ) (eventId : String) (datoms : List DatomRow)
    (fact : Fact) : List DatomRow :=
  let row := datomRow originId sequence eventId fact
  datoms.filter (fun d => d.datomId ≠ row.datomId) ++ [row]

/-- The refusal of an operation without the field that `emit_datoms` needs. -/
def datomInvalid (domain : Domain) (message : String) (details : Value) : Failure :=
  schemaError domain.errorSchemaId "projection_datom_invalid" message details

/-- The origin of the datoms of an operation, and the subject of its facts. -/
def originOf (domain : Domain) (op : Value) (opKind : String) : Except Failure (String × String) :=
  if opKind = domain.entityOp then
    match (op.get "entity_id").bind Value.asStr with
    | none => .error (datomInvalid domain "entity operation lacks entity_id" op)
    | some id => .ok (id, id)
  else if opKind = domain.relationOp then
    match (op.get "relation_id").bind Value.asStr with
    | none => .error (datomInvalid domain "relation operation lacks relation_id" op)
    | some origin =>
        match (op.get "source_id").bind Value.asStr with
        | none => .error (datomInvalid domain "relation operation lacks source_id" op)
        | some subject => .ok (origin, subject)
  else
    match domain.foldEntry opKind with
    | none =>
        .error (datomInvalid domain "operation has no fold descriptor"
          (.object [("operation", .string opKind)]))
    | some entry =>
        match (op.get entry.keyField).bind Value.asStr with
        | none =>
            .error (datomInvalid domain "record operation lacks its identity field"
              (.object [("operation", .string opKind), ("field", .string entry.keyField)]))
        | some id => .ok (id, id)

/-- The field of the operation that holds its identity. -/
def identityField (domain : Domain) (opKind : String) : String :=
  if opKind = domain.entityOp then "entity_id"
  else if opKind = domain.relationOp then "relation_id"
  else ((domain.foldEntry opKind).map FoldEntry.keyField).getD ""

def identityAttribute (domain : Domain) (opKind : String) : String :=
  if opKind = domain.entityOp then "narada.ledger:entity/id"
  else if opKind = domain.relationOp then "narada.ledger:relation/id"
  else "narada.ledger:record/id"

/-- The facts of a relation: its type, the edge and the inverse edge. -/
def relationFacts (domain : Domain) (op : Value) (origin subject : String) : List Fact :=
  match (op.get "relation_type").bind Value.asStr with
  | none => []
  | some relationType =>
      ⟨origin, "narada.ledger:relation/type", .string relationType⟩ ::
        match op.get "target_id" with
        | none => []
        | some target =>
            ⟨subject, domain.schemaNamespace ++ ":" ++ relationType, target⟩ ::
              match domain.relationInverses.get relationType with
              | none => []
              | some inverse =>
                  [⟨target.asStr.getD "", domain.schemaNamespace ++ ":" ++ inverse,
                    .string subject⟩]

/-- The facts that only one kind of operation has. -/
def kindFacts (domain : Domain) (op : Value) (opKind origin subject metadataSubject : String) :
    List Fact :=
  if opKind = domain.entityOp then
    match op.get "kind" with
    | none => []
    | some kind => [⟨metadataSubject, "narada.ledger:entity/kind", kind⟩]
  else if opKind = domain.relationOp then relationFacts domain op origin subject
  else
    match (domain.foldEntry opKind).bind fun entry => entry.columns.get "record_kind" with
    | none => []
    | some recordKind => [⟨metadataSubject, "narada.ledger:record/kind", .string recordKind⟩]

/-- The facts of the fields that have no fact of their own. -/
def fieldFacts (domain : Domain) (op : Value) (opKind metadataSubject : String) : List Fact :=
  ((op.asObject.getD []).filter fun e =>
    e.1 ∉ ["op", identityField domain opKind, "relation_type", "kind"]).map fun e =>
      ⟨metadataSubject, domain.schemaNamespace ++ ":" ++ e.1, e.2⟩

/-- The facts of an operation in the order `emit_datoms` writes them. -/
def emittedFacts (domain : Domain) (op event : Value) (eventId opKind origin subject : String) :
    List Fact :=
  let metadataSubject := if opKind = domain.relationOp then origin else subject
  [⟨metadataSubject, identityAttribute domain opKind, .string origin⟩,
    ⟨metadataSubject, "narada.ledger:event/id", .string eventId⟩,
    ⟨metadataSubject, "narada.ledger:event/sequence", .ofNat (sequenceOf event)⟩] ++
  kindFacts domain op opKind origin subject metadataSubject ++
  fieldFacts domain op opKind metadataSubject

/-- `emit_datoms`: the datoms of the origin are replaced by the facts of the operation. -/
def emitDatoms (domain : Domain) (op event : Value) (eventId opKind : String)
    (datoms : List DatomRow) : Except Failure (List DatomRow) :=
  if domain.hasDatoms then do
    let (origin, subject) ← originOf domain op opKind
    return (emittedFacts domain op event eventId opKind origin subject).foldl
      (writeDatom origin (sequenceOf event) eventId)
      (datoms.filter fun d => d.originId ≠ origin)
  else .ok datoms

/-! ### The fold of one event -/

/-- The text of a column of the row of an operation. The key of a row is unwrapped. -/
def columnText (entry : FoldEntry) (table : TableSpec) (op event : Value) (eventId : String)
    (column : String) : Except Failure String :=
  if column = table.primaryKey then
    match (op.get entry.keyField).bind Value.asStr with
    | none => .error (.panic "called `Option::unwrap()` on a `None` value")
    | some key => .ok key
  else if column = "event_id" then .ok eventId
  else if column = "event_sequence" then .ok (toString (sequenceOf event))
  else
    let mapping := (entry.columns.get column).getD ""
    .ok (((op.get mapping).bind Value.asStr).getD mapping)

/-- The row of an operation, with the operation itself as payload. -/
def operationRow (entry : FoldEntry) (table : TableSpec) (op event : Value) (eventId : String) :
    Except Failure Row := do
  let columns ← (table.columns.filter (· ≠ "payload_json")).mapM fun column => do
    return (column, ← columnText entry table op event eventId column)
  return ⟨columns, op⟩

/-- The update of the kind of an entity. -/
def canonicalizeRow (entityId canonicalKind : String) (row : Row) : Row :=
  if row.get "entity_id" = some entityId then
    { row with columns := row.columns.insert "kind" canonicalKind }
  else row

/-- The facts of a canonicalization. -/
def canonicalizationFacts (op : Value) (entityId canonicalKind eventId : String) : List Fact :=
  [⟨entityId, "narada.ledger:entity/kind", .string canonicalKind⟩,
    ⟨entityId, "narada.ledger:entity/kind_canonicalized_from", (op.get "legacy_kind").getD .null⟩,
    ⟨entityId, "narada.ledger:entity/kind_canonicalization_event", .string eventId⟩]

/-- The arm of the fold for canonicalizations. -/
def foldCanonicalization (domain : Domain) (op event : Value) (eventId : String)
    (p : Projection) : Except Failure Projection :=
  let entityId := textOf op "entity_id"
  let canonicalKind := textOf op "canonical_kind"
  let rows := p.rows domain.entityTable
  if (rows.filter fun r => r.get "entity_id" = some entityId).length ≠ 1 then
    .error (schemaError domain.errorSchemaId "projection_entity_canonicalization_missing"
      "canonicalization target is absent from the projection"
      (.object [("entity_id", .string entityId)]))
  else
    let p := p.setRows domain.entityTable (rows.map (canonicalizeRow entityId canonicalKind))
    if domain.hasDatoms then
      .ok { p with
        datoms := (canonicalizationFacts op entityId canonicalKind eventId).foldl
          (writeDatom entityId (sequenceOf event) eventId)
          (p.datoms.filter fun d =>
            ¬ (d.originId = entityId ∧ d.attr = "narada.ledger:entity/kind")) }
    else .ok p

/-- The arm of the fold for the operations with a row. -/
def foldDeclaration (domain : Domain) (entry : FoldEntry) (op event : Value)
    (eventId opKind : String) (p : Projection) : Except Failure Projection :=
  match domain.table entry.table with
  | none => .error (.panic "fold tables are validated at load")
  | some table => do
      let row ← operationRow entry table op event eventId
      let datoms ← emitDatoms domain op event eventId opKind p.datoms
      return { p.setRows table.name (replaceRow table.primaryKey (p.rows table.name) row) with
        datoms := datoms }

/-- One operation of an event. -/
def foldOperation (domain : Domain) (event : Value) (eventId : String) (p : Projection)
    (op : Value) : Except Failure Projection :=
  let opKind := textOf op "op"
  if opKind = domain.communication.canonicalizationOperation then
    foldCanonicalization domain op event eventId p
  else
    match domain.foldEntry opKind with
    | none => .ok p
    | some entry => foldDeclaration domain entry op event eventId opKind p

/-- The operations of an event. -/
def operationsOf (event : Value) : List Value :=
  ((event.get "operations").bind Value.asArray).getD []

def foldProjectionEvent (domain : Domain) (p : Projection) (event : Value) (eventId : String) :
    Except Failure Projection := do
  let p ← (operationsOf event).foldlM (foldOperation domain event eventId) p
  if domain.hasMeta then
    return { p with metaRow := some ⟨(event.get domain.eventHashField).bind Value.asStr,
      asI64 (sequenceOf event), some eventId⟩ }
  else return p

/-! ### The fold of a ledger -/

/-- The id of an event, empty without one. -/
def eventIdOf (event : Value) : String := textOf event "event_id"

/-- The fold of a ledger into tables. -/
def foldEvents (domain : Domain) (p : Projection) (events : List Record) :
    Except Failure Projection :=
  events.foldlM (fun p e => foldProjectionEvent domain p e.value (eventIdOf e.value)) p

/-- **The fold of a whole ledger** from the tables of the descriptor. -/
def foldLedger (domain : Domain) (events : List Record) : Except Failure Projection :=
  foldEvents domain .created events

/-! ### What the fold reads and leaves -/

/-- The sequence is all that an operation reads of its event. -/
private lemma foldOperation_congr (domain : Domain) {event event' : Value}
    (h : sequenceOf event = sequenceOf event') (eventId : String) :
    foldOperation domain event eventId = foldOperation domain event' eventId := by
  funext p op
  simp only [foldOperation, foldCanonicalization, foldDeclaration, operationRow, columnText,
    emitDatoms, emittedFacts, h]

/-- The fold reads an event by its fields only. -/
lemma foldProjectionEvent_congr (domain : Domain) (p : Projection) {event event' : Value}
    (h : ∀ key, event.get key = event'.get key) (eventId : String) :
    foldProjectionEvent domain p event eventId = foldProjectionEvent domain p event' eventId := by
  have hsequence : sequenceOf event = sequenceOf event' := by rw [sequenceOf, sequenceOf, h]
  have hoperations : operationsOf event = operationsOf event' := by
    rw [operationsOf, operationsOf, h]
  rw [foldProjectionEvent, foldProjectionEvent, foldOperation_congr domain hsequence,
    hoperations, hsequence, h]

/-- The fold of events with the same fields is the same. -/
lemma foldEvents_congr (domain : Domain) (p : Projection) {events events' : List Record}
    (h : List.Forall₂ SameFields events events') :
    foldEvents domain p events = foldEvents domain p events' := by
  induction h generalizing p with
  | nil => rfl
  | @cons e e' es es' he _ ih =>
      have hfields : ∀ key, e.value.get key = e'.value.get key := he
      have hid : eventIdOf e.value = eventIdOf e'.value := by
        rw [eventIdOf, eventIdOf, textOf, textOf, hfields]
      have ih' : ∀ p, List.foldlM _ p es = List.foldlM _ p es' := ih
      rw [foldEvents, foldEvents, List.foldlM_cons, List.foldlM_cons, hid,
        foldProjectionEvent_congr domain p hfields]
      simp only [ih']

lemma foldEvents_append (domain : Domain) (p : Projection) (events events' : List Record) :
    foldEvents domain p (events ++ events') =
      foldEvents domain p events >>= fun p => foldEvents domain p events' :=
  List.foldlM_append

/-- **A folded event leaves its hash and its sequence** in the projection. -/
lemma metaRow_of_fold {domain : Domain} (hmeta : domain.hasMeta) {p p' : Projection}
    {event : Value} {eventId : String}
    (h : foldProjectionEvent domain p event eventId = .ok p') :
    p'.metaRow = some ⟨(event.get domain.eventHashField).bind Value.asStr,
      asI64 (sequenceOf event), some eventId⟩ := by
  rw [foldProjectionEvent] at h
  obtain ⟨q, -, h⟩ := Lists.bind_eq_ok h
  rw [if_pos hmeta] at h
  cases h
  rfl

end Emit

end LedgerDomain

end McpSurfaces
