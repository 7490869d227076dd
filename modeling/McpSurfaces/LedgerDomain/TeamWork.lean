import McpSurfaces.LedgerDomain.IssueTree
import McpSurfaces.LedgerDomain.Rows

/-!
The two read models of an issue tree: the tables that the frontier is read from, and the maps that
`team_work_overview` replays the ledger into.

* `Tabled`: what the tables of a fold have of them. **`tabled_of_foldLedger`**.
* `replay`: the maps of the overview, and `unresolvedOf`, the nodes that it counts of a tree.
* `Steady`: no open issue of a tree is declared again as something else, and none comes about in
  another way.
* **`agree_iff_steady`**: the two read models name the same nodes exactly when the ledger is
  steady for the tree.
-/

namespace McpSurfaces

namespace LedgerDomain

open EventLedger (Digest Record Failure)

namespace IssueTree

/-! ### What a ledger says last -/

/-- The last element of a list of a kind. -/
def last {α : Type*} (p : α → Bool) (xs : List α) : Option α := (xs.filter p).getLast?

lemma last_concat {α : Type*} (p : α → Bool) (xs : List α) (x : α) :
    last p (xs ++ [x]) = if p x then some x else last p xs := by
  rw [last, List.filter_append]
  by_cases h : p x
  · rw [if_pos h, List.filter_cons_of_pos h, List.filter_nil, List.getLast?_concat]
  · rw [if_neg h, List.filter_cons_of_neg h, List.filter_nil, List.append_nil, last]

/-- An operation declares an entity. -/
def declares (id : String) (op : Value) : Bool :=
  textOf op "op" = "entity.declare" && textOf op "entity_id" = id

/-- The kind of a declaration. -/
def kindText (op : Value) : Option String := (op.get "kind").bind Value.asStr

/-- An operation declares an issue. -/
def declaresIssue (id : String) (op : Value) : Bool :=
  declares id op && kindText op = some "research_issue"

/-- An operation gives an entity its kind. -/
def settles (id : String) (op : Value) : Bool :=
  (textOf op "op" = "entity.declare" || textOf op "op" = "entity.kind_canonicalize") &&
    textOf op "entity_id" = id

/-- The kind that an operation gives. -/
def settledKind (op : Value) : String :=
  if textOf op "op" = "entity.declare" then (kindText op).getD "kind"
  else textOf op "canonical_kind"

/-- An operation declares a relation. -/
def relates (id : String) (op : Value) : Bool :=
  textOf op "op" = "relation.declare" && textOf op "relation_id" = id

def lastDeclaration (ops : List Value) (id : String) : Option Value := last (declares id) ops

def lastIssue (ops : List Value) (id : String) : Option Value := last (declaresIssue id) ops

def lastKind (ops : List Value) (id : String) : Option String :=
  (last (settles id) ops).map settledKind

def lastRelation (ops : List Value) (id : String) : Option Value := last (relates id) ops

def relationType (op : Value) : Option String := (op.get "relation_type").bind Value.asStr

def targetOf (op : Value) : Option String := (op.get "target_id").bind Value.asStr

/-- What is declared of an issue leaves it open in a tree. -/
def OpenIn (treeId : String) (issue : Value) : Prop :=
  (issue.get "tree_id").bind Value.asStr = some treeId ∧
    (issue.get "state").bind Value.asStr ≠ some "disposed"

/-- A relation supersedes an id. -/
def Superseded (ops : List Value) (id : String) : Prop :=
  ∃ relationId op, lastRelation ops relationId = some op ∧ relationType op = some "supersedes" ∧
    targetOf op = some id

/-- A relation supersedes, but names no target. -/
def Bare (ops : List Value) : Prop :=
  ∃ relationId op, lastRelation ops relationId = some op ∧ relationType op = some "supersedes" ∧
    targetOf op = none

/-! ### The tables -/

section Tables

variable [FloatText] [Digest]

section

omit [FloatText] [Digest]

/-- The row of the declaration of a relation. -/
def relationRow (op event : Value) (eventId : String) : Row where
  columns := [("relation_id", textOf op "relation_id"),
    ("relation_type", (relationType op).getD "relation_type"),
    ("source_id", ((op.get "source_id").bind Value.asStr).getD "source_id"),
    ("target_id", (targetOf op).getD "target_id"), ("event_id", eventId),
    ("event_sequence", toString (sequenceOf event))]
  payload := op

/-- The row that the fold makes of the declaration of a relation. -/
lemma operationRow_relation {op event : Value} {eventId : String} {entry : FoldEntry}
    {table : TableSpec} {row : Row} (hentry : epistemic.foldEntry "relation.declare" = some entry)
    (htable : epistemic.table entry.table = some table)
    (h : operationRow entry table op event eventId = .ok row) :
    table.name = "relations" ∧ table.primaryKey = "relation_id" ∧
      ((op.get "relation_id").bind Value.asStr).isSome ∧ row = relationRow op event eventId := by
  cases hentry
  cases htable
  refine ⟨rfl, rfl, ?_⟩
  rw [operationRow] at h
  obtain ⟨columns, hcolumns, h⟩ := Lists.bind_eq_ok h
  cases h
  cases hid : (op.get "relation_id").bind Value.asStr with
  | none => simp [columnText, hid, List.mapM_cons, bind, Except.bind] at hcolumns
  | some id =>
      have hrow : columns = (relationRow op event eventId).columns := by
        simpa [columnText, hid, relationRow, relationType, targetOf, textOf, OrderedMap.get_cons,
          List.mapM_cons, bind, Except.bind, pure, Except.pure, eq_comm] using hcolumns
      exact ⟨rfl, by rw [hrow, relationRow]⟩

/-- The other operations have other tables. -/
lemma table_ne_relations {opKind : String} {entry : FoldEntry} {table : TableSpec}
    (hrelation : opKind ≠ epistemic.relationOp) (hentry : epistemic.foldEntry opKind = some entry)
    (htable : epistemic.table entry.table = some table) : table.name ≠ epistemic.relationTable := by
  have hname : table.name = entry.table := by
    simpa using List.find?_some htable
  have hoperation : entry.operation = opKind := by simpa using List.find?_some hentry
  have hmem := List.mem_of_find?_eq_some hentry
  rw [hname]
  simp only [epistemic, List.mem_cons, List.not_mem_nil, or_false] at hmem
  rcases hmem with rfl | rfl | rfl | rfl | rfl | rfl
  case _ => decide
  case _ => decide
  case _ => exact absurd hoperation.symm hrelation
  all_goals decide

end

/-- **What the fold of an operation does to the relations.** -/
lemma relations_of_foldOperation {op event : Value} {eventId : String} {p p' : Projection}
    (h : foldOperation epistemic event eventId p op = .ok p') :
    (textOf op "op" = epistemic.relationOp ∧ ((op.get "relation_id").bind Value.asStr).isSome ∧
      p'.rows epistemic.relationTable = replaceRow "relation_id"
        (p.rows epistemic.relationTable) (relationRow op event eventId)) ∨
    (textOf op "op" ≠ epistemic.relationOp ∧
      p'.rows epistemic.relationTable = p.rows epistemic.relationTable) := by
  obtain ⟨hop, -, h⟩ | ⟨entry, table, row, datoms, hop, hentry, htable, hrow, -, rfl⟩ |
    ⟨hentry, rfl⟩ := foldOperation_cases h
  · refine Or.inr ⟨by rw [hop]; decide, ?_⟩
    rw [foldCanonicalization] at h
    dsimp only at h
    by_cases hone : ((p.rows epistemic.entityTable).filter fun r =>
        r.get "entity_id" = some (textOf op "entity_id")).length = 1
    · rw [if_neg (not_not.mpr hone), if_pos (show epistemic.hasDatoms from rfl)] at h
      cases h
      exact (p.rows_setRows _ _ _).trans (if_neg (by decide))
    · rw [if_pos hone] at h
      cases h
  · by_cases hrelation : textOf op "op" = epistemic.relationOp
    · rw [hrelation] at hentry
      obtain ⟨hname, hkey, hid, rfl⟩ := operationRow_relation hentry htable hrow
      refine Or.inl ⟨hrelation, hid, ?_⟩
      rw [hname, hkey]
      exact (p.rows_setRows _ _ _).trans (if_pos rfl)
    · exact Or.inr ⟨hrelation, (p.rows_setRows _ _ _).trans
        (if_neg (table_ne_relations hrelation hentry htable))⟩
  · refine Or.inr ⟨fun hrelation => ?_, rfl⟩
    rw [hrelation] at hentry
    cases hentry

/-- The rows of the entities have what was declared of them last, and the kind that was given
last. -/
structure EntitiesTabled (ops : List Value) (p : Projection) : Prop where
  rows : ∀ row ∈ p.rows epistemic.entityTable, ∃ id kind, row.get "entity_id" = some id ∧
    row.get "kind" = some kind ∧ lastDeclaration ops id = some row.payload ∧
      lastKind ops id = some kind
  declared : ∀ id d, lastDeclaration ops id = some d → HasEntity p id

/-- The rows of the relations have what was declared of them last. -/
structure RelationsTabled (ops : List Value) (p : Projection) : Prop where
  rows : ∀ row ∈ p.rows epistemic.relationTable, ∃ id op, row.get "relation_id" = some id ∧
    lastRelation ops id = some op ∧
    row.get "relation_type" = some ((relationType op).getD "relation_type") ∧
    row.get "target_id" = some ((targetOf op).getD "target_id")
  related : ∀ id op, lastRelation ops id = some op →
    ∃ row ∈ p.rows epistemic.relationTable, row.get "relation_id" = some id
  named : ∀ op ∈ ops, textOf op "op" = "relation.declare" →
    ((op.get "relation_id").bind Value.asStr).isSome

section

omit [FloatText] [Digest]

lemma lastKind_concat (ops : List Value) (op : Value) (id : String) :
    lastKind (ops ++ [op]) id =
      if settles id op then some (settledKind op) else lastKind ops id := by
  rw [lastKind, last_concat]
  split_ifs <;> rfl

/-- The rows that a replacement leaves are those with other keys. -/
lemma mem_replaceRow {key : String} {rows : List Row} {row other : Row} :
    other ∈ replaceRow key rows row ↔
      (other ∈ rows ∧ other.get key ≠ row.get key) ∨ other = row := by
  simp [replaceRow]

lemma EntitiesTabled.declare {ops : List Value} {op event : Value} {eventId : String}
    {p p' : Projection} (h : EntitiesTabled ops p) (hop : textOf op "op" = epistemic.entityOp)
    (hrows : p'.rows epistemic.entityTable =
      replaceRow "entity_id" (p.rows epistemic.entityTable) (entityRow op event eventId)) :
    EntitiesTabled (ops ++ [op]) p' := by
  have hop' : textOf op "op" = "entity.declare" := hop
  have hdeclares : ∀ id, declares id op = decide (textOf op "entity_id" = id) := by
    intro id
    rw [declares, hop', decide_eq_true rfl, Bool.true_and]
  have hsettles : ∀ id, settles id op = decide (textOf op "entity_id" = id) := by
    intro id
    rw [settles, hop', decide_eq_true rfl, Bool.true_or, Bool.true_and]
  constructor
  · intro row hrow
    rw [hrows] at hrow
    rcases mem_replaceRow.mp hrow with ⟨hold, hother⟩ | rfl
    · obtain ⟨id, kind, hid, hkind, hdeclared, hsettled⟩ := h.rows row hold
      have hne : ¬ textOf op "entity_id" = id := by
        rintro rfl
        exact hother hid
      refine ⟨id, kind, hid, hkind, ?_, ?_⟩
      · rw [lastDeclaration, last_concat, hdeclares, decide_eq_false hne]
        exact hdeclared
      · rw [lastKind_concat, hsettles, decide_eq_false hne]
        exact hsettled
    · refine ⟨textOf op "entity_id", (kindText op).getD "kind", rfl, rfl, ?_, ?_⟩
      · rw [lastDeclaration, last_concat, hdeclares, decide_eq_true rfl]
        rfl
      · rw [lastKind_concat, hsettles, decide_eq_true rfl, settledKind, hop']
        rfl
  · intro id d hd
    by_cases hid : textOf op "entity_id" = id
    · refine ⟨entityRow op event eventId, ?_, congrArg some hid⟩
      rw [hrows]
      exact mem_replaceRow.mpr (Or.inr rfl)
    · rw [lastDeclaration, last_concat, hdeclares, decide_eq_false hid] at hd
      obtain ⟨row, hrow, hrowId⟩ := h.declared id d hd
      refine ⟨row, ?_, hrowId⟩
      rw [hrows]
      refine mem_replaceRow.mpr (Or.inl ⟨hrow, fun hsame => hid ?_⟩)
      exact Option.some.inj (hsame.symm.trans hrowId)

/-- Behind a canonicalization a row has its columns, but for the kind. -/
lemma get_canonicalizeRow (entityId canonicalKind : String) (row : Row) (column : String) :
    (canonicalizeRow entityId canonicalKind row).get column =
      if row.get "entity_id" = some entityId ∧ column = "kind" then some canonicalKind
      else row.get column := by
  rw [canonicalizeRow]
  by_cases hid : row.get "entity_id" = some entityId
  · rw [if_pos hid]
    by_cases hcolumn : column = "kind"
    · rw [if_pos ⟨hid, hcolumn⟩, hcolumn]
      exact OrderedMap.get_insert_self _ _ _
    · rw [if_neg fun h => hcolumn h.2]
      exact OrderedMap.get_insert_of_ne _ _ (Ne.symm hcolumn)
  · rw [if_neg hid, if_neg fun h => hid h.1]

lemma payload_canonicalizeRow (entityId canonicalKind : String) (row : Row) :
    (canonicalizeRow entityId canonicalKind row).payload = row.payload := by
  rw [canonicalizeRow]
  split <;> rfl

lemma EntitiesTabled.canonicalize {ops : List Value} {op : Value} {p p' : Projection}
    (h : EntitiesTabled ops p)
    (hop : textOf op "op" = epistemic.communication.canonicalizationOperation)
    (hrows : p'.rows epistemic.entityTable = (p.rows epistemic.entityTable).map
      (canonicalizeRow (textOf op "entity_id") (textOf op "canonical_kind"))) :
    EntitiesTabled (ops ++ [op]) p' := by
  have hop' : textOf op "op" = "entity.kind_canonicalize" := hop
  have hdeclares : ∀ id, declares id op = false := by
    intro id
    rw [declares, hop']
    rfl
  have hsettles : ∀ id, settles id op = decide (textOf op "entity_id" = id) := by
    intro id
    rw [settles, hop']
    rfl
  constructor
  · intro row hrow
    rw [hrows] at hrow
    obtain ⟨old, hold, rfl⟩ := List.mem_map.mp hrow
    obtain ⟨id, kind, hid, hkind, hdeclared, hsettled⟩ := h.rows old hold
    refine ⟨id, if textOf op "entity_id" = id then textOf op "canonical_kind" else kind, ?_, ?_,
      ?_, ?_⟩
    · rw [get_canonicalizeRow, if_neg fun h => absurd h.2 (by decide), hid]
    · rw [get_canonicalizeRow, hid, hkind]
      by_cases hsame : textOf op "entity_id" = id
      · rw [if_pos hsame, if_pos ⟨congrArg some hsame.symm, rfl⟩]
      · rw [if_neg hsame, if_neg fun h => hsame (Option.some.inj h.1).symm]
    · rw [payload_canonicalizeRow, lastDeclaration, last_concat, hdeclares]
      exact hdeclared
    · rw [lastKind_concat, hsettles, settledKind, hop', hsettled]
      by_cases hsame : textOf op "entity_id" = id
      · rw [decide_eq_true hsame, if_pos rfl, if_pos hsame]
        rfl
      · rw [decide_eq_false hsame, if_neg Bool.false_ne_true, if_neg hsame]
  · intro id d hd
    rw [lastDeclaration, last_concat, hdeclares] at hd
    obtain ⟨row, hrow, hid⟩ := h.declared id d hd
    refine ⟨_, hrows ▸ List.mem_map_of_mem hrow, ?_⟩
    rw [get_canonicalizeRow, if_neg fun h => absurd h.2 (by decide), hid]

lemma EntitiesTabled.other {ops : List Value} {op : Value} {p p' : Projection}
    (h : EntitiesTabled ops p) (hentity : textOf op "op" ≠ epistemic.entityOp)
    (hcanonical : textOf op "op" ≠ epistemic.communication.canonicalizationOperation)
    (hrows : p'.rows epistemic.entityTable = p.rows epistemic.entityTable) :
    EntitiesTabled (ops ++ [op]) p' := by
  have hdeclares : ∀ id, declares id op = false := by
    intro id
    rw [declares, decide_eq_false (show ¬ textOf op "op" = "entity.declare" from hentity),
      Bool.false_and]
  have hsettles : ∀ id, settles id op = false := by
    intro id
    rw [settles, decide_eq_false (show ¬ textOf op "op" = "entity.declare" from hentity),
      decide_eq_false (show ¬ textOf op "op" = "entity.kind_canonicalize" from hcanonical),
      Bool.or_self, Bool.false_and]
  constructor
  · intro row hrow
    rw [hrows] at hrow
    obtain ⟨id, kind, hid, hkind, hdeclared, hsettled⟩ := h.rows row hrow
    refine ⟨id, kind, hid, hkind, ?_, ?_⟩
    · rw [lastDeclaration, last_concat, hdeclares]
      exact hdeclared
    · rw [lastKind_concat, hsettles]
      exact hsettled
  · intro id d hd
    rw [lastDeclaration, last_concat, hdeclares] at hd
    obtain ⟨row, hrow, hid⟩ := h.declared id d hd
    exact ⟨row, hrows ▸ hrow, hid⟩

end

lemma EntitiesTabled.fold {ops : List Value} {op event : Value} {eventId : String}
    {p p' : Projection} (h : EntitiesTabled ops p)
    (hfold : foldOperation epistemic event eventId p op = .ok p') :
    EntitiesTabled (ops ++ [op]) p' := by
  rcases entities_of_foldOperation hfold with ⟨hop, hrows⟩ | ⟨hop, hrows⟩ | ⟨hop, hother, hrows⟩
  · exact h.declare hop hrows
  · exact h.canonicalize hop hrows
  · exact h.other hop hother hrows

lemma RelationsTabled.fold {ops : List Value} {op event : Value} {eventId : String}
    {p p' : Projection} (h : RelationsTabled ops p)
    (hfold : foldOperation epistemic event eventId p op = .ok p') :
    RelationsTabled (ops ++ [op]) p' := by
  rcases relations_of_foldOperation hfold with ⟨hop, hnamed, hrows⟩ | ⟨hop, hrows⟩
  · have hrelates : ∀ id, relates id op = decide (textOf op "relation_id" = id) := by
      intro id
      rw [relates, show textOf op "op" = "relation.declare" from hop, decide_eq_true rfl,
        Bool.true_and]
    refine ⟨fun row hrow => ?_, fun id d hd => ?_, fun op' hop' hrelation => ?_⟩
    · rw [hrows] at hrow
      rcases mem_replaceRow.mp hrow with ⟨hold, hother⟩ | rfl
      · obtain ⟨id, d, hid, hd, htype, htarget⟩ := h.rows row hold
        have hne : ¬ textOf op "relation_id" = id := by
          rintro rfl
          exact hother hid
        refine ⟨id, d, hid, ?_, htype, htarget⟩
        rw [lastRelation, last_concat, hrelates, decide_eq_false hne]
        exact hd
      · refine ⟨textOf op "relation_id", op, rfl, ?_, rfl, rfl⟩
        rw [lastRelation, last_concat, hrelates, decide_eq_true rfl]
        rfl
    · by_cases hid : textOf op "relation_id" = id
      · refine ⟨relationRow op event eventId, ?_, congrArg some hid⟩
        rw [hrows]
        exact mem_replaceRow.mpr (Or.inr rfl)
      · rw [lastRelation, last_concat, hrelates, decide_eq_false hid] at hd
        obtain ⟨row, hrow, hrowId⟩ := h.related id d hd
        refine ⟨row, ?_, hrowId⟩
        rw [hrows]
        refine mem_replaceRow.mpr (Or.inl ⟨hrow, fun hsame => hid ?_⟩)
        exact Option.some.inj (hsame.symm.trans hrowId)
    · rcases List.mem_append.mp hop' with hold | hnew
      · exact h.named op' hold hrelation
      · rwa [List.mem_singleton.mp hnew]
  · have hrelates : ∀ id, relates id op = false := by
      intro id
      rw [relates, decide_eq_false (show ¬ textOf op "op" = "relation.declare" from hop),
        Bool.false_and]
    refine ⟨fun row hrow => ?_, fun id d hd => ?_, fun op' hop' hrelation => ?_⟩
    · rw [hrows] at hrow
      obtain ⟨id, d, hid, hd, htype, htarget⟩ := h.rows row hrow
      refine ⟨id, d, hid, ?_, htype, htarget⟩
      rw [lastRelation, last_concat, hrelates]
      exact hd
    · rw [lastRelation, last_concat, hrelates] at hd
      rw [hrows]
      exact h.related id d hd
    · rcases List.mem_append.mp hop' with hold | hnew
      · exact h.named op' hold hrelation
      · rw [List.mem_singleton.mp hnew] at hrelation
        exact absurd hrelation hop

omit [FloatText] [Digest] in
/-- The operations of a ledger. -/
def ledgerOps (events : List Record) : List Value := (operationsOfLedger events).map Prod.snd

/-- **The tables of a fold** have what the ledger says last. -/
lemma tabled_of_foldLedger {events : List Record} {p : Projection}
    (h : foldLedger epistemic events = .ok p) :
    EntitiesTabled (ledgerOps events) p ∧ RelationsTabled (ledgerOps events) p := by
  let inv (done : List (Record × Value)) (q : Projection) : Prop :=
    EntitiesTabled (done.map Prod.snd) q ∧ RelationsTabled (done.map Prod.snd) q
  have hcreated : inv [] .created :=
    ⟨⟨fun _ hrow => absurd hrow List.not_mem_nil, nofun⟩,
      ⟨fun _ hrow => absurd hrow List.not_mem_nil, nofun, fun _ hop => absurd hop List.not_mem_nil⟩⟩
  refine foldLedger_traces hcreated ?_ ?_ h
  · exact fun done q row hq => ⟨⟨hq.1.rows, hq.1.declared⟩, ⟨hq.2.rows, hq.2.related, hq.2.named⟩⟩
  · intro done q q' r op hq hfold
    have hmore : (done ++ [(r, op)]).map Prod.snd = done.map Prod.snd ++ [op] := by simp
    rw [show inv (done ++ [(r, op)]) q' = (_ ∧ _) from rfl, hmore]
    exact ⟨hq.1.fold hfold, hq.2.fold hfold⟩

/-! ### The frontier -/

section

omit [FloatText] [Digest]

/-- What is declared of an id last is an open issue of a tree, and its kind has stayed. -/
def Tabled (ops : List Value) (treeId id : String) : Prop :=
  lastKind ops id = some "research_issue" ∧ ∃ d, lastDeclaration ops id = some d ∧ OpenIn treeId d

/-- The ids that the relations of the tables supersede: a relation without a target has the name
of its column. -/
lemma mem_supersededIds_iff {ops : List Value} {p : Projection} (h : RelationsTabled ops p)
    {id : String} :
    id ∈ supersededIds epistemic p ↔ Superseded ops id ∨ Bare ops ∧ id = "target_id" := by
  have htype : ∀ op, (relationType op).getD "relation_type" = "supersedes" ↔
      relationType op = some "supersedes" := by
    intro op
    cases relationType op <;> simp
  simp only [supersededIds, List.mem_map, List.mem_filter, decide_eq_true_eq]
  constructor
  · rintro ⟨row, ⟨hrow, hsupersedes⟩, rfl⟩
    obtain ⟨relationId, op, -, hop, hrowType, htarget⟩ := h.rows row hrow
    rw [hrowType, Option.some.injEq, htype] at hsupersedes
    rw [htarget, Option.getD_some]
    cases hto : targetOf op with
    | none => exact Or.inr ⟨⟨relationId, op, hop, hsupersedes, hto⟩, rfl⟩
    | some target => exact Or.inl ⟨relationId, op, hop, hsupersedes, hto⟩
  · have hfound : ∀ relationId op, lastRelation ops relationId = some op →
        relationType op = some "supersedes" →
        ∃ row, (row ∈ p.rows epistemic.relationTable ∧
          row.get "relation_type" = some "supersedes") ∧
          (row.get "target_id").getD "" = (targetOf op).getD "target_id" := by
      intro relationId op hop hsupersedes
      obtain ⟨row, hrow, hid⟩ := h.related relationId op hop
      obtain ⟨relationId', op', hid', hop', hrowType, htarget⟩ := h.rows row hrow
      obtain rfl := Option.some.inj (hid.symm.trans hid')
      obtain rfl := Option.some.inj (hop.symm.trans hop')
      refine ⟨row, ⟨hrow, ?_⟩, by rw [htarget, Option.getD_some]⟩
      rw [hrowType, (htype op).mpr hsupersedes]
    rintro (⟨relationId, op, hop, hsupersedes, hto⟩ |
      ⟨⟨relationId, op, hop, hsupersedes, hto⟩, rfl⟩)
    · obtain ⟨row, hrow, htarget⟩ := hfound relationId op hop hsupersedes
      exact ⟨row, hrow, by rw [htarget, hto, Option.getD_some]⟩
    · obtain ⟨row, hrow, htarget⟩ := hfound relationId op hop hsupersedes
      exact ⟨row, hrow, by rw [htarget, hto, Option.getD_none]⟩

/-- **The frontier by what the ledger says last.** -/
lemma mem_frontier_iff_tabled [FloatRead] [DisplayScore] {ops : List Value} {p : Projection}
    (hentities : EntitiesTabled ops p) (hrelations : RelationsTabled ops p) {treeId id : String} :
    id ∈ (frontierNodes epistemic p treeId).map nodeId ↔
      Tabled ops treeId id ∧ ¬ Superseded ops id ∧ ¬ (Bare ops ∧ id = "target_id") := by
  rw [mem_frontier_iff]
  simp only [Unresolved, payloadOf, Value.get_asStr_reread, mem_supersededIds_iff hrelations,
    not_or]
  constructor
  · rintro ⟨row, hrow, ⟨hkind, htree, hstate, hlive⟩, rfl⟩
    obtain ⟨id, kind, hid, hrowKind, hdeclared, hsettled⟩ := hentities.rows row hrow
    rw [nodeIdOf, hid, Option.getD_some] at hlive ⊢
    obtain rfl := Option.some.inj (hkind.symm.trans hrowKind)
    exact ⟨⟨hsettled, _, hdeclared, htree, hstate⟩, hlive⟩
  · rintro ⟨⟨hkind, d, hd, htree, hstate⟩, hlive⟩
    obtain ⟨row, hrow, hid⟩ := hentities.declared id d hd
    obtain ⟨id', kind, hid', hrowKind, hdeclared, hsettled⟩ := hentities.rows row hrow
    obtain rfl := Option.some.inj (hid.symm.trans hid')
    obtain rfl := Option.some.inj (hd.symm.trans hdeclared)
    obtain rfl := Option.some.inj (hkind.symm.trans hsettled)
    have hnode : nodeIdOf row = id := by rw [nodeIdOf, hid, Option.getD_some]
    exact ⟨row, hrow, ⟨hrowKind, htree, hstate, hnode ▸ hlive⟩, hnode⟩

end

end Tables

/-! ### The replay -/

/-- The maps that `team_work_overview` replays the ledger into. -/
structure Replay where
  trees : OrderedMap String Value := []
  issues : OrderedMap String Value := []
  relations : OrderedMap String Value := []

/-- The key of a relation in its map. -/
def relationKey (op : Value) : String :=
  ((op.get "relation_id").bind Value.asStr).getD
    (textOf op "relation_type" ++ "\x00" ++ textOf op "source_id" ++ "\x00" ++
      textOf op "target_id")

/-- A relation as its map has it. -/
def relationJson (event op : Value) : Value :=
  .object [("relation_type", .string (textOf op "relation_type")),
    ("source_id", .string (textOf op "source_id")), ("target_id", .string (textOf op "target_id")),
    ("event_id", .string (textOf event "event_id")), ("sequence", .ofNat (sequenceOf event)),
    ("occurred_at", index event "occurred_at")]

/-- One operation of an event. -/
def replayOperation (event : Value) (r : Replay) (op : Value) : Replay :=
  match (op.get "op").bind Value.asStr with
  | some "entity.declare" =>
      let id := textOf op "entity_id"
      match kindText op with
      | some "research_issue_tree" =>
          if id = "" then r else { r with trees := r.trees.insert id op }
      | some "research_issue" =>
          if id = "" then r else { r with issues := r.issues.insert id op }
      | _ => r
  | some "relation.declare" =>
      { r with relations := r.relations.insert (relationKey op) (relationJson event op) }
  | _ => r

/-- The loop of the overview over the ledger. -/
def replay (events : List Record) : Replay :=
  events.foldl (fun r e => (operationsOf e.value).foldl (replayOperation e.value) r) {}

/-- The targets of the relations that supersede. -/
def supersededTargets (r : Replay) : List String :=
  (r.relations.values.filter fun v =>
    (v.get "relation_type").bind Value.asStr = some "supersedes").filterMap fun v =>
      (v.get "target_id").bind Value.asStr

/-- A node of the overview. -/
def overviewNode (id : String) (issue : Value) : Value :=
  .object [("node_id", .string id), ("title", index issue "title"),
    ("version", index issue "version"), ("state", .string (shownState issue)),
    ("score", (issue.get "score").getD (.number (.float zeroScore))),
    ("disposition", index issue "disposition")]

/-- The tree of an issue with its node, where it is unresolved. -/
def unresolvedEntry (superseded : List String) (e : String × Value) : Option (String × Value) :=
  match (e.2.get "tree_id").bind Value.asStr with
  | none => none
  | some treeId =>
      let state := ((e.2.get "state").bind Value.asStr).getD "open"
      if state ≠ "disposed" ∧ e.1 ∉ superseded then some (treeId, overviewNode e.1 e.2) else none

/-- The unresolved nodes under their trees. -/
def unresolvedByTree (r : Replay) : OrderedMap String (List (String × Value)) :=
  OrderedMap.pushAll Prod.fst (r.issues.filterMap (unresolvedEntry (supersededTargets r)))

/-- The order of the overview: a selected node first, then the best score, and then the ids. -/
def compareOverview (left right : Value) : Ordering :=
  let selected (node : Value) : Bool := strAt node "state" = "selected"
  (compare (selected right) (selected left)).then (compareNodes left right)

/-- The nodes of a tree that `team_work_overview` counts as unresolved. -/
def unresolvedOf (r : Replay) (treeId : String) : List Value :=
  Lists.sortBy compareOverview ((((unresolvedByTree r).get treeId).getD []).map Prod.snd)

/-! ### What the overview counts -/

/-- What is declared of an id last as an issue is open in a tree. -/
def Replayed (ops : List Value) (treeId id : String) : Prop :=
  id ≠ "" ∧ ∃ d, lastIssue ops id = some d ∧ OpenIn treeId d

/-- The loop over the operations of a ledger. -/
def replayed (done : List (Record × Value)) : Replay :=
  done.foldl (fun r e => replayOperation e.1.value r e.2) {}

lemma replay_eq (events : List Record) : replay events = replayed (operationsOfLedger events) := by
  rw [replay, replayed, operationsOfLedger, List.foldl_flatMap]
  congr 1
  funext r e
  rw [List.foldl_map]

lemma textOf_eq_iff {op : Value} {field text : String} (h : text ≠ "") :
    textOf op field = text ↔ (op.get field).bind Value.asStr = some text := by
  rw [textOf]
  cases (op.get field).bind Value.asStr with
  | none => simp [Ne.symm h]
  | some other => simp

/-- What the maps of a replay have of the operations. -/
structure Mapped (ops : List Value) (r : Replay) : Prop where
  distinctIssues : r.issues.keys.Nodup
  distinctRelations : r.relations.keys.Nodup
  issues : ∀ id, r.issues.get id = if id = "" then none else lastIssue ops id
  relations : (∀ op ∈ ops, textOf op "op" = "relation.declare" →
      ((op.get "relation_id").bind Value.asStr).isSome) →
    ∀ id, (r.relations.get id).map (fun v => (strAt v "relation_type", strAt v "target_id")) =
      (lastRelation ops id).map fun op => (textOf op "relation_type", textOf op "target_id")

/-- The maps behind an operation that is neither of an issue nor of a relation. -/
lemma Mapped.other {ops : List Value} {op : Value} {r r' : Replay} (h : Mapped ops r)
    (hissues : r'.issues = r.issues) (hrelations : r'.relations = r.relations)
    (hissue : ∀ id, id ≠ "" → declaresIssue id op = false)
    (hrelation : textOf op "op" ≠ "relation.declare") : Mapped (ops ++ [op]) r' := by
  refine ⟨hissues ▸ h.distinctIssues, hrelations ▸ h.distinctRelations, fun id => ?_,
    fun hnamed id => ?_⟩
  · rw [hissues, h.issues]
    by_cases hid : id = ""
    · rw [if_pos hid, if_pos hid]
    · rw [if_neg hid, if_neg hid, lastIssue, lastIssue, last_concat, hissue id hid]
      rfl
  · have hrelates : relates id op = false := by
      rw [relates, decide_eq_false hrelation, Bool.false_and]
    rw [hrelations, lastRelation, last_concat, hrelates]
    exact h.relations (fun op hop => hnamed op (List.mem_append_left _ hop)) id

/-- The maps behind the declaration of an issue. -/
lemma Mapped.issue {ops : List Value} {op : Value} {r : Replay} (h : Mapped ops r)
    (hop : textOf op "op" = "entity.declare") (hkind : kindText op = some "research_issue")
    (hid : textOf op "entity_id" ≠ "") :
    Mapped (ops ++ [op]) { r with issues := r.issues.insert (textOf op "entity_id") op } := by
  have hdeclares : ∀ id, declaresIssue id op = decide (textOf op "entity_id" = id) := by
    intro id
    rw [declaresIssue, declares, hop, hkind, decide_eq_true rfl, decide_eq_true rfl, Bool.true_and,
      Bool.and_true]
  have hrelates : ∀ id, relates id op = false := by
    intro id
    rw [relates, hop]
    rfl
  refine ⟨OrderedMap.nodup_keys_insert h.distinctIssues _ _, h.distinctRelations, fun id => ?_,
    fun hnamed id => ?_⟩
  · rw [OrderedMap.get_insert, h.issues, lastIssue, lastIssue, last_concat, hdeclares]
    by_cases hsame : textOf op "entity_id" = id
    · rw [if_pos hsame, decide_eq_true hsame, if_pos rfl, if_neg (hsame ▸ hid)]
    · rw [if_neg hsame, decide_eq_false hsame, if_neg Bool.false_ne_true]
  · rw [lastRelation, last_concat, hrelates]
    exact h.relations (fun op hop => hnamed op (List.mem_append_left _ hop)) id

/-- The maps behind the declaration of a relation. -/
lemma Mapped.relation {ops : List Value} {event op : Value} {r : Replay} (h : Mapped ops r)
    (hop : textOf op "op" = "relation.declare") :
    Mapped (ops ++ [op])
      { r with relations := r.relations.insert (relationKey op) (relationJson event op) } := by
  have hdeclares : ∀ id, declaresIssue id op = false := by
    intro id
    rw [declaresIssue, declares, hop]
    rfl
  have hrelates : ∀ id, relates id op = decide (textOf op "relation_id" = id) := by
    intro id
    rw [relates, hop, decide_eq_true rfl, Bool.true_and]
  refine ⟨h.distinctIssues, OrderedMap.nodup_keys_insert h.distinctRelations _ _, fun id => ?_,
    fun hnamed id => ?_⟩
  · rw [h.issues, lastIssue, lastIssue, last_concat, hdeclares]
    rfl
  · have hkey : relationKey op = textOf op "relation_id" := by
      have hsome := hnamed op (List.mem_append_right _ (List.mem_singleton_self _)) hop
      obtain ⟨relationId, hrelationId⟩ := Option.isSome_iff_exists.mp hsome
      rw [relationKey, hrelationId, Option.getD_some, textOf, hrelationId, Option.getD_some]
    rw [OrderedMap.get_insert, lastRelation, last_concat, hrelates, hkey]
    by_cases hsame : textOf op "relation_id" = id
    · rw [if_pos hsame, decide_eq_true hsame]
      rfl
    · rw [if_neg hsame, decide_eq_false hsame]
      exact h.relations (fun op hop => hnamed op (List.mem_append_left _ hop)) id

lemma Mapped.step {ops : List Value} {event op : Value} {r : Replay} (h : Mapped ops r) :
    Mapped (ops ++ [op]) (replayOperation event r op) := by
  have hissue : kindText op ≠ some "research_issue" → ∀ id, declaresIssue id op = false := by
    intro hkind id
    rw [declaresIssue, decide_eq_false hkind, Bool.and_false]
  unfold replayOperation
  split
  · next hop =>
      have hentity : textOf op "op" = "entity.declare" := (textOf_eq_iff (by decide)).mpr hop
      have hrelation : textOf op "op" ≠ "relation.declare" := by
        rw [hentity]
        decide
      dsimp only
      split
      · next hkind =>
          have hother := hissue (by rw [hkind]; decide)
          split
          · exact h.other rfl rfl (fun id _ => hother id) hrelation
          · exact h.other rfl rfl (fun id _ => hother id) hrelation
      · next hkind =>
          split
          · next hempty =>
              refine h.other rfl rfl (fun id hid => ?_) hrelation
              rw [declaresIssue, declares, hempty, decide_eq_false (Ne.symm hid), Bool.and_false,
                Bool.false_and]
          · next hid => exact h.issue hentity hkind hid
      · next hkind =>
          exact h.other rfl rfl (fun id _ => hissue hkind id) hrelation
  · next hop => exact h.relation ((textOf_eq_iff (by decide)).mpr hop)
  · next hentity hrelation =>
      refine h.other rfl rfl (fun id _ => ?_) fun hop => hrelation ?_
      · have hne : ¬ textOf op "op" = "entity.declare" := fun hop =>
          hentity ((textOf_eq_iff (by decide)).mp hop)
        rw [declaresIssue, declares, decide_eq_false hne, Bool.false_and, Bool.false_and]
      · exact (textOf_eq_iff (by decide)).mp hop

/-- **The maps of a replay** have what the ledger says last. -/
lemma mapped_replay (events : List Record) : Mapped (ledgerOps events) (replay events) := by
  rw [replay_eq, ledgerOps]
  induction operationsOfLedger events using List.reverseRecOn with
  | nil => exact ⟨List.nodup_nil, List.nodup_nil, fun id => by split <;> rfl, fun _ _ => rfl⟩
  | append_singleton done e ih =>
      rw [replayed, List.foldl_concat, List.map_append, List.map_singleton]
      exact ih.step

/-- The targets that the overview takes for superseded. -/
lemma mem_supersededTargets_iff {ops : List Value} {r : Replay} (h : Mapped ops r)
    (hnamed : ∀ op ∈ ops, textOf op "op" = "relation.declare" →
      ((op.get "relation_id").bind Value.asStr).isSome) {id : String} (hid : id ≠ "") :
    id ∈ supersededTargets r ↔ Superseded ops id := by
  have hpair := h.relations hnamed
  have hends : ∀ {v : Value} {op : Value}, strAt v "relation_type" = textOf op "relation_type" →
      strAt v "target_id" = textOf op "target_id" →
      ((v.get "relation_type").bind Value.asStr = some "supersedes" ∧
        (v.get "target_id").bind Value.asStr = some id ↔
          relationType op = some "supersedes" ∧ targetOf op = some id) := by
    intro v op htype htarget
    rw [relationType, targetOf, ← textOf_eq_iff (by decide), ← textOf_eq_iff hid,
      ← textOf_eq_iff (by decide), ← textOf_eq_iff hid, ← htype, ← htarget]
    rfl
  simp only [supersededTargets, List.mem_filterMap, List.mem_filter, decide_eq_true_eq]
  constructor
  · rintro ⟨v, ⟨hv, htype⟩, htarget⟩
    obtain ⟨e, he, rfl⟩ := List.mem_map.mp hv
    have hget := OrderedMap.get_of_mem h.distinctRelations he
    have hsame := hpair e.1
    rw [hget] at hsame
    obtain ⟨op, hop, hboth⟩ := Option.map_eq_some_iff.mp hsame.symm
    obtain ⟨htypes, htargets⟩ := Prod.mk.inj hboth
    exact ⟨e.1, op, hop, (hends htypes.symm htargets.symm).mp ⟨htype, htarget⟩⟩
  · rintro ⟨relationId, op, hop, hboth⟩
    have hsame := hpair relationId
    rw [hop] at hsame
    obtain ⟨v, hv, hfields⟩ := Option.map_eq_some_iff.mp hsame
    obtain ⟨htypes, htargets⟩ := Prod.mk.inj hfields
    obtain ⟨htype, htarget⟩ := (hends htypes htargets).mpr hboth
    exact ⟨v, ⟨List.mem_map_of_mem (OrderedMap.mem_of_get hv), htype⟩, htarget⟩

lemma unresolvedEntry_eq_some_iff {superseded : List String} {id treeId : String}
    {issue node : Value} :
    unresolvedEntry superseded (id, issue) = some (treeId, node) ↔
      OpenIn treeId issue ∧ id ∉ superseded ∧ node = overviewNode id issue := by
  have hstate : ((issue.get "state").bind Value.asStr).getD "open" ≠ "disposed" ↔
      (issue.get "state").bind Value.asStr ≠ some "disposed" := by
    cases (issue.get "state").bind Value.asStr <;> simp
  rw [unresolvedEntry, OpenIn]
  cases (issue.get "tree_id").bind Value.asStr with
  | none => simp
  | some other =>
      dsimp only
      split
      · next h =>
          simp only [Option.some.injEq, Prod.mk.injEq]
          constructor
          · rintro ⟨rfl, rfl⟩
            exact ⟨⟨rfl, hstate.mp h.1⟩, h.2, rfl⟩
          · rintro ⟨⟨rfl, -⟩, -, rfl⟩
            exact ⟨rfl, rfl⟩
      · next h =>
          constructor
          · nofun
          · rintro ⟨⟨-, hopen⟩, hlive, -⟩
            exact absurd ⟨hstate.mpr hopen, hlive⟩ h

/-- **The unresolved nodes of a tree by what the ledger says last.** -/
lemma mem_unresolved_iff_replayed {ops : List Value} {r : Replay} (h : Mapped ops r)
    (hnamed : ∀ op ∈ ops, textOf op "op" = "relation.declare" →
      ((op.get "relation_id").bind Value.asStr).isSome) {treeId id : String} :
    id ∈ (unresolvedOf r treeId).map nodeId ↔
      Replayed ops treeId id ∧ ¬ Superseded ops id := by
  have hissue : ∀ {issue : Value}, (id, issue) ∈ r.issues ↔
      id ≠ "" ∧ lastIssue ops id = some issue := by
    intro issue
    have hget := h.issues id
    constructor
    · intro hmem
      rw [OrderedMap.get_of_mem h.distinctIssues hmem] at hget
      split at hget
      · cases hget
      · next hid => exact ⟨hid, hget.symm⟩
    · rintro ⟨hid, hlast⟩
      rw [if_neg hid, hlast] at hget
      exact OrderedMap.mem_of_get hget
  simp only [unresolvedOf, unresolvedByTree, OrderedMap.getD_pushAll, List.mem_map,
    Lists.mem_sortBy, List.mem_filter, List.mem_filterMap, decide_eq_true_eq]
  constructor
  · rintro ⟨-, ⟨⟨treeId', node⟩, ⟨⟨⟨id', issue⟩, hmem, hentry⟩, rfl⟩, rfl⟩, rfl⟩
    obtain ⟨hopen, hlive, rfl⟩ := unresolvedEntry_eq_some_iff.mp hentry
    obtain ⟨hid, hlast⟩ := hissue.mp hmem
    exact ⟨⟨hid, issue, hlast, hopen⟩, fun hsuperseded =>
      hlive ((mem_supersededTargets_iff h hnamed hid).mpr hsuperseded)⟩
  · rintro ⟨⟨hid, issue, hlast, hopen⟩, hlive⟩
    refine ⟨overviewNode id issue, ⟨(treeId, overviewNode id issue), ⟨⟨(id, issue),
      hissue.mpr ⟨hid, hlast⟩, unresolvedEntry_eq_some_iff.mpr ⟨hopen, ?_, rfl⟩⟩, rfl⟩, rfl⟩, rfl⟩
    exact fun hmem => hlive ((mem_supersededTargets_iff h hnamed hid).mp hmem)

/-! ### Agreement -/

/-- No open issue of a tree is declared again as something else, or given another kind, and none
comes about in another way. -/
structure Steady (ops : List Value) (treeId : String) : Prop where
  kept : ∀ id, Replayed ops treeId id → ¬ Superseded ops id → Tabled ops treeId id
  made : ∀ id, Tabled ops treeId id → ¬ Superseded ops id → ¬ (Bare ops ∧ id = "target_id") →
    Replayed ops treeId id
  targets : Bare ops → Replayed ops treeId "target_id" → Superseded ops "target_id"

/-- **The two read models name the same nodes of a tree exactly when the ledger is steady for
it.** -/
theorem agree_iff_steady [FloatText] [Digest] [FloatRead] [DisplayScore] {events : List Record}
    {p : Projection} (hfold : foldLedger epistemic events = .ok p) {treeId : String}
    {nodes : List Value} {selected : Option Value}
    (hfrontier : issueTreeFrontierNodes epistemic p treeId = .ok (nodes, selected)) :
    (∀ id, id ∈ nodes.map nodeId ↔ id ∈ (unresolvedOf (replay events) treeId).map nodeId) ↔
      Steady (ledgerOps events) treeId := by
  obtain ⟨hentities, hrelations⟩ := tabled_of_foldLedger hfold
  have hmapped := mapped_replay events
  have hnodes : nodes = frontierNodes epistemic p treeId := by
    unfold issueTreeFrontierNodes at hfrontier
    dsimp only at hfrontier
    split at hfrontier
    · cases hfrontier
    · cases hfrontier
      rfl
  simp only [hnodes, mem_frontier_iff_tabled hentities hrelations,
    mem_unresolved_iff_replayed hmapped hrelations.named]
  constructor
  · intro h
    refine ⟨fun id hid hlive => ((h id).mpr ⟨hid, hlive⟩).1,
      fun id hid hlive hbare => ((h id).mp ⟨hid, hlive, hbare⟩).1, fun hbare hid => ?_⟩
    by_contra hlive
    exact ((h "target_id").mpr ⟨hid, hlive⟩).2.2 ⟨hbare, rfl⟩
  · intro h id
    constructor
    · rintro ⟨hid, hlive, hbare⟩
      exact ⟨h.made id hid hlive hbare, hlive⟩
    · rintro ⟨hid, hlive⟩
      refine ⟨h.kept id hid hlive, hlive, ?_⟩
      rintro ⟨hbare, rfl⟩
      exact hlive (h.targets hbare hid)

/-! ### An issue that is declared again -/

/-- The declaration of a node of a tree under a kind. -/
def declaring (kind : String) : Value :=
  .object [("op", .string "entity.declare"), ("entity_id", .string "node-1"),
    ("kind", .string kind), ("title", .string "t"), ("tree_id", .string "tree-1"),
    ("state", .string "open")]

/-- A ledger that declares a node under one kind after another. -/
def declaredUnder (kinds : List String) : List Record :=
  letI := FloatText.fields
  letI : Digest := ⟨fun _ => "h"⟩
  kinds.map fun kind => sealedEvent 1 none [declaring kind]

/-- The projection of such a ledger. -/
def tablesUnder (kinds : List String) : Projection :=
  letI := FloatText.fields
  letI : Digest := ⟨fun _ => "h"⟩
  (foldLedger epistemic (declaredUnder kinds)).toOption.getD .created

/-- An issue that is declared once is in both read models, and the ledger is steady. -/
theorem steady_declaredOnce : Steady (ledgerOps (declaredUnder ["research_issue"])) "tree-1" := by
  let _ : FloatText := FloatText.fields
  let _ : Digest := ⟨fun _ => "h"⟩
  let _ : FloatRead := ⟨id⟩
  let _ : DisplayScore := ⟨id⟩
  have hfolds : (foldLedger epistemic (declaredUnder ["research_issue"])).toOption.isSome := by
    decide +kernel
  have hfold : foldLedger epistemic (declaredUnder ["research_issue"]) =
      .ok (tablesUnder ["research_issue"]) := Lists.eq_ok_of_isSome hfolds .created
  have hselected : ¬ 1 < (selectedNodes
      (frontierNodes epistemic (tablesUnder ["research_issue"]) "tree-1")).length := by
    decide +kernel
  have hnodes : (frontierNodes epistemic (tablesUnder ["research_issue"]) "tree-1").map nodeId =
      (unresolvedOf (replay (declaredUnder ["research_issue"])) "tree-1").map nodeId := by
    decide +kernel
  exact (agree_iff_steady hfold (if_neg hselected)).mp fun id => by rw [hnodes]

/-- An issue that is declared again under another kind leaves the tables, and stays in the maps of
the overview. -/
theorem not_agree_redeclared :
    letI := FloatText.fields
    letI : Digest := ⟨fun _ => "h"⟩
    letI : FloatRead := ⟨id⟩
    letI : DisplayScore := ⟨id⟩
    ¬ ∀ (events : List Record) (p : Projection) (treeId : String) (nodes : List Value)
      (selected : Option Value), foldLedger epistemic events = .ok p →
      issueTreeFrontierNodes epistemic p treeId = .ok (nodes, selected) →
      ∀ id, id ∈ nodes.map nodeId ↔ id ∈ (unresolvedOf (replay events) treeId).map nodeId := by
  let _ : FloatText := FloatText.fields
  let _ : Digest := ⟨fun _ => "h"⟩
  let _ : FloatRead := ⟨id⟩
  let _ : DisplayScore := ⟨id⟩
  have hfolds : (foldLedger epistemic
      (declaredUnder ["research_issue", "claim"])).toOption.isSome := by
    decide +kernel
  have hfold : foldLedger epistemic (declaredUnder ["research_issue", "claim"]) =
      .ok (tablesUnder ["research_issue", "claim"]) := Lists.eq_ok_of_isSome hfolds .created
  have hnodes :
      frontierNodes epistemic (tablesUnder ["research_issue", "claim"]) "tree-1" = [] := by
    decide +kernel
  have hfrontier : issueTreeFrontierNodes epistemic (tablesUnder ["research_issue", "claim"])
      "tree-1" = .ok ([], none) := by
    rw [issueTreeFrontierNodes, hnodes]
    rfl
  have hcounted : (unresolvedOf (replay (declaredUnder ["research_issue", "claim"]))
      "tree-1").map nodeId = ["node-1"] := by
    decide +kernel
  intro h
  have hboth := h _ _ _ _ _ hfold hfrontier "node-1"
  rw [hcounted] at hboth
  exact absurd (hboth.mpr (List.mem_singleton_self _)) List.not_mem_nil

end IssueTree

end LedgerDomain

end McpSurfaces
