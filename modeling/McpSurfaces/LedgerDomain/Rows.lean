import McpSurfaces.LedgerDomain.Refold

/-!
The rows of the entities behind a fold, and where they come from.

* `entities_of_foldOperation`: what it does to the entities. A declaration replaces the row of
  its id (`entityRow`), a canonicalization changes the kind, all else leaves them.
* `foldLedger_traces`: what every operation keeps holds of the projection of a ledger, with the
  operations that were folded.
-/

namespace McpSurfaces

namespace LedgerDomain

open EventLedger Lists

section Rows

variable [FloatText] [Digest]

/-! ### One operation -/

/-- **What the fold of an operation does**: a canonicalization of an entity that is there, a row
with its facts, or nothing. -/
lemma foldOperation_cases {op event : Value} {eventId : String} {p p' : Projection}
    (h : foldOperation epistemic event eventId p op = .ok p') :
    (textOf op "op" = epistemic.communication.canonicalizationOperation ∧
      HasEntity p (textOf op "entity_id") ∧
      foldCanonicalization epistemic op event eventId p = .ok p') ∨
    (∃ entry table row datoms, textOf op "op" ≠ epistemic.communication.canonicalizationOperation ∧
      epistemic.foldEntry (textOf op "op") = some entry ∧
      epistemic.table entry.table = some table ∧
      operationRow entry table op event eventId = .ok row ∧
      emitDatoms epistemic op event eventId (textOf op "op") p.datoms = .ok datoms ∧
      p' = { p.setRows table.name (replaceRow table.primaryKey (p.rows table.name) row) with
        datoms := datoms }) ∨
    epistemic.foldEntry (textOf op "op") = none ∧ p' = p := by
  rw [foldOperation] at h
  by_cases hop : textOf op "op" = epistemic.communication.canonicalizationOperation
  · rw [if_pos hop] at h
    refine Or.inl ⟨hop, ?_, h⟩
    rw [foldCanonicalization] at h
    dsimp only at h
    by_cases hone : ((p.rows epistemic.entityTable).filter fun r =>
        r.get "entity_id" = some (textOf op "entity_id")).length = 1
    · obtain ⟨row, hrow⟩ := List.exists_mem_of_length_pos (hone ▸ one_pos)
      obtain ⟨hmem, hid⟩ := List.mem_filter.mp hrow
      exact ⟨row, hmem, of_decide_eq_true hid⟩
    · rw [if_pos hone] at h
      cases h
  · rw [if_neg hop] at h
    cases hentry : epistemic.foldEntry (textOf op "op") with
    | none =>
        rw [hentry] at h
        cases h
        exact Or.inr (Or.inr ⟨rfl, rfl⟩)
    | some entry =>
        rw [hentry] at h
        dsimp only at h
        rw [foldDeclaration] at h
        cases htable : epistemic.table entry.table with
        | none =>
            rw [htable] at h
            cases h
        | some table =>
            rw [htable] at h
            obtain ⟨row, hrow, h⟩ := bind_eq_ok h
            obtain ⟨datoms, hdatoms, h⟩ := bind_eq_ok h
            cases h
            exact Or.inr (Or.inl ⟨entry, table, row, datoms, hop, rfl, htable, hrow, hdatoms, rfl⟩)

/-- The row of the declaration of an entity. -/
def entityRow (op event : Value) (eventId : String) : Row where
  columns := [("entity_id", textOf op "entity_id"),
    ("kind", ((op.get "kind").bind Value.asStr).getD "kind"), ("event_id", eventId),
    ("event_sequence", toString (sequenceOf event))]
  payload := op

section

omit [FloatText] [Digest]

/-- The row that the fold makes of the declaration of an entity. -/
lemma operationRow_entity {op event : Value} {eventId : String} {entry : FoldEntry}
    {table : TableSpec} {row : Row} (hentry : epistemic.foldEntry "entity.declare" = some entry)
    (htable : epistemic.table entry.table = some table)
    (h : operationRow entry table op event eventId = .ok row) :
    table.name = "entities" ∧ table.primaryKey = "entity_id" ∧
      row = entityRow op event eventId := by
  cases hentry
  cases htable
  refine ⟨rfl, rfl, ?_⟩
  rw [operationRow] at h
  obtain ⟨columns, hcolumns, h⟩ := bind_eq_ok h
  cases h
  have hrow : ∀ id, (op.get "entity_id").bind Value.asStr = some id →
      columns = [("entity_id", id), ("kind", ((op.get "kind").bind Value.asStr).getD "kind"),
        ("event_id", eventId), ("event_sequence", toString (sequenceOf event))] := by
    intro id hid
    simpa [columnText, hid, OrderedMap.get_cons, List.mapM_cons, bind, Except.bind, pure,
      Except.pure, eq_comm] using hcolumns
  cases hid : (op.get "entity_id").bind Value.asStr with
  | none => simp [columnText, hid, List.mapM_cons, bind, Except.bind] at hcolumns
  | some id => rw [hrow id hid, entityRow, textOf, hid, Option.getD_some]

/-- The other operations have other tables. -/
lemma table_ne_entities {opKind : String} {entry : FoldEntry} {table : TableSpec}
    (hcanonical : opKind ≠ epistemic.communication.canonicalizationOperation)
    (hentity : opKind ≠ epistemic.entityOp) (hentry : epistemic.foldEntry opKind = some entry)
    (htable : epistemic.table entry.table = some table) : table.name ≠ epistemic.entityTable := by
  have hname : table.name = entry.table := by
    simpa using List.find?_some htable
  have hoperation : entry.operation = opKind := by simpa using List.find?_some hentry
  have hmem := List.mem_of_find?_eq_some hentry
  rw [hname]
  simp only [epistemic, List.mem_cons, List.not_mem_nil, or_false] at hmem
  rcases hmem with rfl | rfl | rfl | rfl | rfl | rfl
  · exact absurd hoperation.symm hentity
  · exact absurd hoperation.symm hcanonical
  all_goals decide

end

/-- **What the fold of an operation does to the entities.** -/
lemma entities_of_foldOperation {op event : Value} {eventId : String} {p p' : Projection}
    (h : foldOperation epistemic event eventId p op = .ok p') :
    (textOf op "op" = epistemic.entityOp ∧ p'.rows epistemic.entityTable =
      replaceRow "entity_id" (p.rows epistemic.entityTable) (entityRow op event eventId)) ∨
    (textOf op "op" = epistemic.communication.canonicalizationOperation ∧
      p'.rows epistemic.entityTable = (p.rows epistemic.entityTable).map
        (canonicalizeRow (textOf op "entity_id") (textOf op "canonical_kind"))) ∨
    (textOf op "op" ≠ epistemic.entityOp ∧
      textOf op "op" ≠ epistemic.communication.canonicalizationOperation ∧
      p'.rows epistemic.entityTable = p.rows epistemic.entityTable) := by
  obtain ⟨hop, -, h⟩ | ⟨entry, table, row, datoms, hop, hentry, htable, hrow, -, rfl⟩ |
    ⟨hentry, rfl⟩ := foldOperation_cases h
  · refine Or.inr (Or.inl ⟨hop, ?_⟩)
    rw [foldCanonicalization] at h
    dsimp only at h
    by_cases hone : ((p.rows epistemic.entityTable).filter fun r =>
        r.get "entity_id" = some (textOf op "entity_id")).length = 1
    · rw [if_neg (not_not.mpr hone), if_pos (show epistemic.hasDatoms from rfl)] at h
      cases h
      exact (p.rows_setRows _ _ _).trans (if_pos rfl)
    · rw [if_pos hone] at h
      cases h
  · by_cases hentity : textOf op "op" = epistemic.entityOp
    · rw [hentity] at hentry
      obtain ⟨hname, hkey, rfl⟩ := operationRow_entity hentry htable hrow
      refine Or.inl ⟨hentity, ?_⟩
      rw [hname, hkey]
      exact (p.rows_setRows _ _ _).trans (if_pos rfl)
    · refine Or.inr (Or.inr ⟨hentity, hop, (p.rows_setRows _ _ _).trans (if_neg ?_)⟩)
      exact table_ne_entities hop hentity hentry htable
  · refine Or.inr (Or.inr ⟨fun hentity => ?_, fun hcanonical => ?_, rfl⟩)
    · rw [hentity] at hentry
      cases hentry
    · rw [hcanonical] at hentry
      cases hentry

/-! ### A ledger -/

/-- The operations of a ledger, with their events, in the order they are folded. -/
def operationsOfLedger (events : List Record) : List (Record × Value) :=
  events.flatMap fun r => (operationsOf r.value).map fun op => (r, op)

/-- **What every operation keeps** holds of the projection of a ledger. -/
lemma foldLedger_traces {inv : List (Record × Value) → Projection → Prop}
    (hinit : inv [] .created)
    (hmeta : ∀ done p row, inv done p → inv done { p with metaRow := row })
    (hstep : ∀ done p p' (r : Record) op, inv done p →
      foldOperation epistemic r.value (eventIdOf r.value) p op = .ok p' →
        inv (done ++ [(r, op)]) p')
    {events : List Record} {p : Projection} (h : foldLedger epistemic events = .ok p) :
    inv (operationsOfLedger events) p := by
  have hevent : ∀ done q q' (r : Record), inv done q →
      foldProjectionEvent epistemic q r.value (eventIdOf r.value) = .ok q' →
        inv (done ++ (operationsOf r.value).map fun op => (r, op)) q' := by
    intro done q q' r hq hfold
    rw [foldProjectionEvent] at hfold
    obtain ⟨q'', hoperations, hfold⟩ := bind_eq_ok hfold
    let during (ops : List Value) : Projection → Prop := inv (done ++ ops.map fun op => (r, op))
    have hstart : during [] q := by simpa [during] using hq
    have hrun : during ([] ++ operationsOf r.value) q'' := by
      refine foldlM_traces (fun ops c c' op hc hop => ?_) hstart hoperations
      simp only [during, List.map_append, List.map_singleton, ← List.append_assoc]
      exact hstep _ c c' r op hc hop
    cases hfold
    exact hmeta _ _ _ hrun
  let ofEvents (es : List Record) : Projection → Prop := inv (operationsOfLedger es)
  have hstart : ofEvents [] .created := hinit
  have hrun : ofEvents ([] ++ events) p := by
    refine foldlM_traces (fun es c c' r hc hr => ?_) hstart h
    simp only [ofEvents, operationsOfLedger, List.flatMap_append, List.flatMap_singleton]
    exact hevent _ c c' r hc hr
  exact hrun

end Rows

end LedgerDomain

end McpSurfaces
