import McpSurfaces.LedgerDomain.Admission

/-!
What is admitted can be folded.

* `Formed`: an operation has the fields of its kind. What passes `validate_operations` does
  (`validateOperation_formed`), also when it is read back.
* **`foldOperation_ok`**: the fold of such an operation succeeds, a canonicalization on a
  projection that has its entity. No fold takes an entity away.
* `Refoldable`: every event of the ledger has such operations, every projection on record is
  the fold of a part of the ledger, and those on record before are of no more than this one.
* **`admitted_folds`**: the event of an admission folds into the current projection and, with
  the whole ledger, into empty tables.
-/

namespace McpSurfaces

namespace LedgerDomain

open EventLedger Lists

/-! ### Operations with their fields -/

/-- An operation has the fields that its kind requires. -/
def Formed (op : Value) : Prop :=
  ∃ fields, epistemic.requiredFields.get (textOf op "op") = some fields ∧
    ∀ field ∈ fields, ((op.get field).bind Value.asStr).isSome

lemma textOf_reread [FloatRead] (op : Value) (field : String) :
    textOf op.reread field = textOf op field := by
  rw [textOf, textOf, Value.get_asStr_reread]

lemma Formed.reread [FloatRead] {op : Value} (h : Formed op) : Formed op.reread := by
  obtain ⟨fields, hfields, hall⟩ := h
  refine ⟨fields, by rw [textOf_reread, hfields], fun field hfield => ?_⟩
  rw [Value.get_asStr_reread]
  exact hall field hfield

/-- The arguments that are asked for are texts. -/
lemma textOf_of_required {object : Map} {key value : String}
    (h : required epistemic object key = .ok value) :
    textOf (.object object) key = value := by
  rw [textOf, Value.get, (required_ok h).1]
  rfl

/-- **What passes the policy has its fields.** -/
lemma validateOperation_formed {requireEvidence : Bool} {op : Value}
    (h : validateOperation epistemic requireEvidence op = .ok ()) : Formed op := by
  rw [validateOperation] at h
  cases hobject : op.asObject with
  | none =>
      rw [hobject] at h
      cases h
  | some object =>
      obtain rfl := Value.asObject_eq_some.mp hobject
      rw [hobject] at h
      dsimp only at h
      obtain ⟨kind, hkind, h⟩ := bind_eq_ok h
      have hop : textOf (.object object) "op" = kind := textOf_of_required hkind
      cases hfields : epistemic.requiredFields.get kind with
      | none =>
          rw [hfields] at h
          cases h
      | some fields =>
          rw [hfields] at h
          obtain ⟨_, hchecked, -⟩ := bind_eq_ok h
          refine ⟨fields, by rw [hop, hfields], fun field hfield => ?_⟩
          have hcheck := forM_ok hchecked field hfield
          rw [checkField] at hcheck
          by_cases hfieldOp : field = "op"
          · rw [hfieldOp]
            exact Option.isSome_of_eq_some (required_ok hkind).1
          · rw [if_neg hfieldOp] at hcheck
            obtain ⟨value, hvalue, -⟩ := bind_eq_ok hcheck
            exact Option.isSome_of_eq_some (required_ok hvalue).1

/-! ### The entities of a projection -/

/-- A projection has a row of an entity. -/
def HasEntity (p : Projection) (id : String) : Prop :=
  ∃ row ∈ p.rows epistemic.entityTable, row.get "entity_id" = some id

/-- The rows of the entities have ids of their own. -/
def Distinguishable (p : Projection) : Prop :=
  ((p.rows epistemic.entityTable).map fun row => row.get "entity_id").Nodup

/-- What the fold keeps of the entities of a projection `before`. -/
structure Extends (before p : Projection) : Prop where
  distinguishable : Distinguishable p
  entities : ∀ id, HasEntity before id → HasEntity p id

lemma Extends.refl {p : Projection} (h : Distinguishable p) : Extends p p := ⟨h, fun _ => id⟩

lemma Extends.trans {p q r : Projection} (h : Extends p q) (h' : Extends q r) : Extends p r :=
  ⟨h'.distinguishable, fun id hid => h'.entities id (h.entities id hid)⟩

lemma distinguishable_created : Distinguishable .created := List.nodup_nil

/-- A row that is written keeps the entities and is one of them. -/
lemma extends_replaceRow {p q : Projection} (h : Distinguishable p) (row : Row)
    (hrows : q.rows epistemic.entityTable =
      replaceRow "entity_id" (p.rows epistemic.entityTable) row) : Extends p q := by
  refine ⟨?_, fun id hid => ?_⟩
  · rw [Distinguishable, hrows, replaceRow, List.map_append, List.map_singleton]
    refine List.nodup_append_comm.mp (List.nodup_cons.mpr ⟨fun hmem => ?_, ?_⟩)
    · obtain ⟨old, hold, hsame⟩ := List.mem_map.mp hmem
      exact (of_decide_eq_true (List.mem_filter.mp hold).2) hsame
    · exact h.sublist ((List.filter_sublist).map _)
  · obtain ⟨old, hold, hoid⟩ := hid
    rw [HasEntity, hrows, replaceRow]
    by_cases hsame : old.get "entity_id" = row.get "entity_id"
    · exact ⟨row, by simp, hsame ▸ hoid⟩
    · refine ⟨old, List.mem_append_left _ (List.mem_filter.mpr ⟨hold, ?_⟩), hoid⟩
      exact decide_eq_true hsame

/-- An entity has a row when its id is among those of the rows. -/
lemma hasEntity_iff {p : Projection} {id : String} :
    HasEntity p id ↔
      some id ∈ (p.rows epistemic.entityTable).map fun row => row.get "entity_id" := by
  rw [List.mem_map]
  rfl

/-- Rows with the same ids are rows of the same entities. -/
lemma extends_of_ids_eq {p q : Projection} (h : Distinguishable p)
    (hids : ((q.rows epistemic.entityTable).map fun row => row.get "entity_id") =
      (p.rows epistemic.entityTable).map fun row => row.get "entity_id") : Extends p q := by
  refine ⟨by rwa [Distinguishable, hids], fun id hid => ?_⟩
  rw [hasEntity_iff] at hid ⊢
  rwa [hids]

/-- A canonicalization leaves the ids of the rows. -/
lemma extends_canonicalize {p q : Projection} (h : Distinguishable p) (id kind : String)
    (hrows : q.rows epistemic.entityTable =
      (p.rows epistemic.entityTable).map (canonicalizeRow id kind)) : Extends p q := by
  have hid : ∀ row : Row, (canonicalizeRow id kind row).get "entity_id" = row.get "entity_id" := by
    intro row
    rw [canonicalizeRow]
    split_ifs
    · exact OrderedMap.get_insert_of_ne _ _ (by decide)
    · rfl
  refine extends_of_ids_eq h ?_
  rw [hrows, List.map_map]
  exact List.map_congr_left fun row _ => hid row

/-! ### One operation -/

section Fold

variable [FloatText] [Digest]

omit [FloatText] [Digest] in
/-- The row of an operation that has its key. -/
lemma operationRow_ok {entry : FoldEntry} {op : Value} (table : TableSpec) (event : Value)
    (eventId : String) (hkey : ((op.get entry.keyField).bind Value.asStr).isSome) :
    ∃ row, operationRow entry table op event eventId = .ok row := by
  obtain ⟨key, hkey⟩ := Option.isSome_iff_exists.mp hkey
  have htext : ∀ column, ∃ text, columnText entry table op event eventId column = .ok text := by
    intro column
    rw [columnText, hkey]
    split_ifs <;> exact ⟨_, rfl⟩
  obtain ⟨columns, hcolumns⟩ : ∃ columns, (table.columns.filter (· ≠ "payload_json")).mapM
      (fun column => do return (column, ← columnText entry table op event eventId column)) =
        Except.ok columns := exists_mapM_ok fun column _ => by
    obtain ⟨text, htext⟩ := htext column
    exact ⟨(column, text), by rw [htext]; rfl⟩
  exact ⟨⟨columns, op⟩, by rw [operationRow, hcolumns]; rfl⟩

/-- The facts of an operation that has its identity. -/
lemma emitDatoms_ok {op : Value} {opKind : String} (event : Value) (eventId : String)
    (datoms : List DatomRow) (horigin : ∃ origin, originOf epistemic op opKind = .ok origin) :
    ∃ datoms', emitDatoms epistemic op event eventId opKind datoms = .ok datoms' := by
  obtain ⟨origin, horigin⟩ := horigin
  rw [emitDatoms, horigin]
  exact ⟨_, rfl⟩

/-- What the descriptor promises of a formed operation that is no canonicalization. -/
structure Declares (op : Value) (entry : FoldEntry) (table : TableSpec) : Prop where
  entry_eq : epistemic.foldEntry (textOf op "op") = some entry
  table_eq : epistemic.table entry.table = some table
  key : ((op.get entry.keyField).bind Value.asStr).isSome
  origin : ∃ origin, originOf epistemic op (textOf op "op") = .ok origin
  entityKey : table.name = epistemic.entityTable → table.primaryKey = "entity_id"

omit [FloatText] [Digest] in
/-- A formed operation is a declaration with its key, or a canonicalization. -/
lemma Formed.declares {op : Value} (h : Formed op)
    (hne : textOf op "op" ≠ epistemic.communication.canonicalizationOperation) :
    ∃ entry table, Declares op entry table := by
  obtain ⟨fields, hfields, hall⟩ := h
  have horigin : ∀ {opKind}, opKind ≠ epistemic.entityOp → opKind ≠ epistemic.relationOp →
      ∀ entry, epistemic.foldEntry opKind = some entry →
      ((op.get entry.keyField).bind Value.asStr).isSome →
      ∃ origin, originOf epistemic op opKind = .ok origin := by
    intro opKind hentity hrelation entry hentry hkey
    obtain ⟨key, hkey⟩ := Option.isSome_iff_exists.mp hkey
    rw [originOf, if_neg hentity, if_neg hrelation, hentry]
    dsimp only
    rw [hkey]
    exact ⟨_, rfl⟩
  have hmem := OrderedMap.mem_of_get hfields
  simp only [epistemic, List.mem_cons, List.not_mem_nil, or_false, Prod.mk.injEq] at hmem
  rcases hmem with ⟨hop, rfl⟩ | ⟨hop, rfl⟩ | ⟨hop, rfl⟩ | ⟨hop, rfl⟩ | ⟨hop, rfl⟩ | ⟨hop, rfl⟩
  · have hid := hall "entity_id" (by decide)
    refine ⟨⟨"entity.declare", "entities", "entity_id", [("kind", "kind")]⟩, _,
      by rw [hop]; rfl, rfl, hid, ?_, fun _ => rfl⟩
    obtain ⟨id, hid⟩ := Option.isSome_iff_exists.mp hid
    rw [hop, originOf, if_pos (show "entity.declare" = epistemic.entityOp from rfl), hid]
    exact ⟨_, rfl⟩
  · exact absurd hop hne
  · have hid := hall "relation_id" (by decide)
    refine ⟨_, _, by rw [hop]; rfl, rfl, hid, ?_, fun h => absurd h (by decide)⟩
    obtain ⟨id, hid⟩ := Option.isSome_iff_exists.mp hid
    obtain ⟨source, hsource⟩ := Option.isSome_iff_exists.mp (hall "source_id" (by decide))
    rw [hop, originOf, if_neg (by decide),
      if_pos (show "relation.declare" = epistemic.relationOp from rfl), hid]
    dsimp only
    rw [hsource]
    exact ⟨_, rfl⟩
  · have hid := hall "assessment_id" (by decide)
    exact ⟨_, _, by rw [hop]; rfl, rfl, hid,
      by rw [hop]; exact horigin (by decide) (by decide) _ rfl hid, fun h => absurd h (by decide)⟩
  · have hid := hall "outcome_id" (by decide)
    exact ⟨_, _, by rw [hop]; rfl, rfl, hid,
      by rw [hop]; exact horigin (by decide) (by decide) _ rfl hid, fun h => absurd h (by decide)⟩
  · have hid := hall "sweep_id" (by decide)
    exact ⟨_, _, by rw [hop]; rfl, rfl, hid,
      by rw [hop]; exact horigin (by decide) (by decide) _ rfl hid, fun h => absurd h (by decide)⟩

/-- The fold of a declaration. -/
lemma foldDeclaration_ok {op event : Value} {eventId : String} {entry : FoldEntry}
    {table : TableSpec} (h : Declares op entry table) {p : Projection} (hp : Distinguishable p) :
    ∃ p', foldDeclaration epistemic entry op event eventId (textOf op "op") p = .ok p' ∧
      Extends p p' := by
  obtain ⟨row, hrow⟩ := operationRow_ok table event eventId h.key
  obtain ⟨datoms, hdatoms⟩ := emitDatoms_ok event eventId p.datoms h.origin
  refine ⟨{ p.setRows table.name (replaceRow table.primaryKey (p.rows table.name) row) with
    datoms := datoms }, ?_, ?_⟩
  · rw [foldDeclaration, h.table_eq]
    dsimp only
    rw [hrow, hdatoms]
    rfl
  · by_cases hname : table.name = epistemic.entityTable
    · rw [hname, h.entityKey hname]
      exact extends_replaceRow hp row ((p.rows_setRows _ _ _).trans (if_pos rfl))
    · refine extends_of_ids_eq hp (congrArg _ ?_)
      exact (p.rows_setRows _ _ _).trans (if_neg hname)

/-- The fold of a canonicalization of an entity that is there. -/
lemma foldCanonicalization_ok {op event : Value} {eventId : String} {p : Projection}
    (hp : Distinguishable p) (hentity : HasEntity p (textOf op "entity_id")) :
    ∃ p', foldCanonicalization epistemic op event eventId p = .ok p' ∧ Extends p p' := by
  obtain ⟨row, hrow, hid⟩ := hentity
  have hone : ((p.rows epistemic.entityTable).filter fun r =>
      r.get "entity_id" = some (textOf op "entity_id")).length = 1 := by
    rw [← hid]
    exact length_filter_of_nodup hp hrow
  rw [foldCanonicalization, if_neg (not_not.mpr hone), if_pos (show epistemic.hasDatoms from rfl)]
  refine ⟨_, rfl, extends_canonicalize hp (textOf op "entity_id") (textOf op "canonical_kind") ?_⟩
  exact (p.rows_setRows _ _ _).trans (if_pos rfl)

/-- **A formed operation folds**, a canonicalization where its entity is. -/
lemma foldOperation_ok {op event : Value} {eventId : String} {p : Projection}
    (hformed : Formed op) (hp : Distinguishable p)
    (hentity : textOf op "op" = epistemic.communication.canonicalizationOperation →
      HasEntity p (textOf op "entity_id")) :
    ∃ p', foldOperation epistemic event eventId p op = .ok p' ∧ Extends p p' := by
  rw [foldOperation]
  by_cases hop : textOf op "op" = epistemic.communication.canonicalizationOperation
  · rw [if_pos hop]
    exact foldCanonicalization_ok hp (hentity hop)
  · obtain ⟨entry, table, hdeclares⟩ := hformed.declares hop
    rw [if_neg hop, hdeclares.entry_eq]
    exact foldDeclaration_ok hdeclares hp

/-! ### Events and ledgers -/

/-- What an event asks of the projection it is folded into. -/
def Wanted (event : Value) (p : Projection) : Prop :=
  ∀ op ∈ operationsOf event,
    textOf op "op" = epistemic.communication.canonicalizationOperation →
      HasEntity p (textOf op "entity_id")

/-- **An event of formed operations folds**. -/
lemma foldProjectionEvent_ok {event : Value} (eventId : String) {p : Projection}
    (hformed : ∀ op ∈ operationsOf event, Formed op) (hp : Distinguishable p)
    (hwanted : Wanted event p) :
    ∃ p', foldProjectionEvent epistemic p event eventId = .ok p' ∧ Extends p p' := by
  obtain ⟨q, hq, hextends⟩ : ∃ q, (operationsOf event).foldlM
      (foldOperation epistemic event eventId) p = .ok q ∧ Extends p q := by
    refine exists_foldlM_ok (fun q hq op hop => ?_) (Extends.refl hp)
    obtain ⟨q', hfold, hextends⟩ := foldOperation_ok (hformed op hop) hq.distinguishable
      fun hkind => hq.entities _ (hwanted op hop hkind)
    exact ⟨q', hfold, hq.trans hextends⟩
  rw [foldProjectionEvent, hq]
  exact ⟨_, rfl, hextends.distinguishable, hextends.entities⟩

/-- The operations of an event are formed, and its canonicalizations are of entities that a
part of the ledger before it has declared. -/
structure EventFoldable (before : List Record) (r : Record) : Prop where
  formed : ∀ op ∈ operationsOf r.value, Formed op
  wanted : ∀ op ∈ operationsOf r.value,
    textOf op "op" = epistemic.communication.canonicalizationOperation →
      ∃ front p, front <+: before ∧ foldLedger epistemic front = .ok p ∧
        HasEntity p (textOf op "entity_id")

/-- **A ledger of such events folds**, and has the entities of all its parts. -/
lemma foldLedger_ok {events : List Record} (h : EachAfter EventFoldable events) :
    ∃ p, foldLedger epistemic events = .ok p ∧ Distinguishable p ∧
      ∀ front q, front <+: events → foldLedger epistemic front = .ok q → Extends q p := by
  induction events using List.reverseRecOn with
  | nil =>
      refine ⟨.created, rfl, distinguishable_created, fun front q hfront hq => ?_⟩
      rw [List.prefix_nil] at hfront
      rw [hfront] at hq
      cases hq
      exact .refl distinguishable_created
  | append_singleton before r ih =>
      obtain ⟨p, hp, hdistinguishable, hparts⟩ := ih (h.of_prefix (List.prefix_append _ _))
      obtain ⟨hformed, hwanted⟩ := h before r List.prefix_rfl
      obtain ⟨p', hfold, hextends⟩ := foldProjectionEvent_ok (eventIdOf r.value) hformed
        hdistinguishable fun op hop hkind => by
          obtain ⟨front, q, hfront, hq, hentity⟩ := hwanted op hop hkind
          exact (hparts front q hfront hq).entities _ hentity
      have hall : foldLedger epistemic (before ++ [r]) = .ok p' := by
        rw [foldLedger, foldEvents_append]
        rw [foldLedger] at hp
        rw [hp]
        exact (bind_pure (foldProjectionEvent epistemic p r.value (eventIdOf r.value))).trans hfold
      refine ⟨p', hall, hextends.distinguishable, fun front' q' hfront' hq' => ?_⟩
      rcases List.prefix_concat_iff.mp hfront' with rfl | hfront'
      · rw [hall] at hq'
        cases hq'
        exact .refl hextends.distinguishable
      · exact (hparts front' q' hfront' hq').trans hextends

end Fold

/-! ### What a review knows -/

section Review

variable [FloatText] [FloatRead] [Digest]

omit [FloatRead] in
/-- A canonicalization that is accepted is of an entity that the check has met. -/
lemma hasEntity_of_checkEquivalence {view : Option Projection} {op : Value}
    (h : checkEquivalence epistemic view op = .ok ()) :
    ∃ p, view = some p ∧ HasEntity p (textOf op "entity_id") := by
  rw [checkEquivalence] at h
  cases hevidence : (op.get "equivalence_evidence").bind Value.asObject with
  | none =>
      rw [hevidence] at h
      cases h
  | some evidence =>
      rw [hevidence] at h
      cases view with
      | none => cases h
      | some p =>
          dsimp only at h
          cases hrow : (p.entities epistemic).find? fun row =>
              row.get "entity_id" = some (textOf op "entity_id") with
          | none =>
              rw [hrow] at h
              cases h
          | some row =>
              exact ⟨p, rfl, row, List.mem_of_find?_eq_some hrow,
                by simpa using List.find?_some hrow⟩

/-- What a review has checked of the operations of a proposal. -/
lemma proposalReview_ok {disk : Disk} {views : Views} {id : String} {review : Value}
    (h : proposalReview epistemic disk views id = .ok review) :
    ∃ proposal operations, loadProposal epistemic disk id = .ok proposal ∧
      (proposal.get "operations").bind Value.asArray = some operations ∧
      validateOperations epistemic operations true = .ok () ∧
      validateReferences epistemic views operations = .ok () := by
  rw [proposalReview] at h
  obtain ⟨proposal, hproposal, h⟩ := bind_eq_ok h
  cases hoperations : (proposal.get "operations").bind Value.asArray with
  | none =>
      rw [hoperations] at h
      cases h
  | some operations =>
      rw [hoperations] at h
      obtain ⟨_, hvalid, h⟩ := bind_eq_ok h
      obtain ⟨_, hreferences, -⟩ := bind_eq_ok h
      exact ⟨proposal, operations, hproposal, hoperations, hvalid, hreferences⟩

/-- The references of every operation were checked, each canonicalization at a view. -/
lemma checkReferences_of_validate {views : Views} {operations : List Value}
    (h : validateReferences epistemic views operations = .ok ()) {op : Value}
    (hop : op ∈ operations) :
    ∃ n, checkReferences epistemic views (knownEntities epistemic views.references operations)
      ((views.references.map (communicationPrincipals epistemic)).getD []) n op = .ok () := by
  rw [validateReferences] at h
  obtain ⟨n, hn⟩ := List.mem_iff_getElem?.mp hop
  have hmem : (op, n) ∈ operations.zipIdx := List.mem_zipIdx_iff_getElem?.mpr hn
  exact ⟨n, forM_ok h (op, n) hmem⟩

/-- The entity of a canonicalization was met. -/
lemma hasEntity_of_validate {views : Views} {operations : List Value}
    (h : validateReferences epistemic views operations = .ok ()) {op : Value}
    (hop : op ∈ operations)
    (hkind : textOf op "op" = epistemic.communication.canonicalizationOperation) :
    ∃ n p, views.lookup n = some p ∧ HasEntity p (textOf op "entity_id") := by
  obtain ⟨n, hchecked⟩ := checkReferences_of_validate h hop
  rw [checkReferences, if_pos hkind] at hchecked
  obtain ⟨_, hequivalence, -⟩ := bind_eq_ok hchecked
  obtain ⟨p, hp, hentity⟩ := hasEntity_of_checkEquivalence hequivalence
  exact ⟨n, p, hp, hentity⟩

omit [FloatText] [Digest] in
lemma operationsOf_reread (v : Value) : operationsOf v.reread = (operationsOf v).map Value.reread := by
  rw [operationsOf, operationsOf, Value.get_reread]
  cases v.get "operations" with
  | none => rfl
  | some operations =>
      rw [Option.map_some, Option.bind_some, Option.bind_some, Value.asArray_reread]
      cases operations.asArray <;> rfl

omit [FloatRead] in
/-- The operations of an event are those of its proposal. -/
lemma operationsOf_event {sequence : ℕ} {eventId id actor key : String}
    {previousHash : Option String} {proposal : Value} {fresh : Fresh} {args : Map}
    {operations : List Value}
    (h : (proposal.get "operations").bind Value.asArray = some operations) :
    operationsOf (withHash (eventFields epistemic sequence eventId previousHash id proposal actor
      key fresh args) epistemic.eventHashField (nodup_keys_eventFields ..)).value =
        operations := by
  have hget : (withHash (eventFields epistemic sequence eventId previousHash id proposal actor
      key fresh args) epistemic.eventHashField (nodup_keys_eventFields ..)).get "operations" =
        some ((proposal.get "operations").getD .null) :=
    get_withHash _ (by decide)
  rw [Record.get] at hget
  obtain ⟨v, hv, harray⟩ := Option.bind_eq_some_iff.mp h
  rw [operationsOf, hget, hv, Option.getD_some, Option.bind_some, harray]
  rfl

/-- The operations of an event that is appended were checked. -/
lemma operations_of_append {disk : Disk} {views : Views} {fresh : Fresh} {args : Map}
    {id key : String} {review : Value} {event : Record}
    (h : planAdmission epistemic disk views fresh args = .ok (.append id key review event)) :
    validateOperations epistemic (operationsOf event.value) true = .ok () ∧
      validateReferences epistemic views (operationsOf event.value) = .ok () := by
  obtain ⟨id', actor, proposal, hnames, ⟨_, _, -, -, -, hplan⟩ | ⟨_, -, -, hplan⟩ | hplan⟩ :=
    planAdmission_ok h
  · cases hplan
  · cases hplan
  · obtain ⟨_, hreview, ⟨_, hplan⟩ | ⟨-, _, hbuild, hplan⟩⟩ := planAppend_ok hplan
    · cases hplan
    · cases hplan
      obtain ⟨proposal', operations, hproposal, hoperations, hvalid, hreferences⟩ :=
        proposalReview_ok hreview
      obtain rfl := Except.ok.inj (hnames.proposal_eq.symm.trans hproposal)
      obtain ⟨_, -, hbuild⟩ := bind_eq_ok hbuild
      cases hbuild
      rw [operationsOf_event hoperations]
      exact ⟨hvalid, hreferences⟩

/-! ### Every run -/

/-- What the ledger and the projections of a site are. -/
structure Refoldable (s : Site) : Prop where
  events : EachAfter EventFoldable s.disk.ledger
  projections : ∀ d ∈ s.seen, ∀ p, d.projection = some p → ∃ front,
    Chained epistemic.eventHashField front ∧ Numbered front ∧ front <+: s.disk.ledger ∧
      foldLedger epistemic front = .ok p
  current : ∀ d ∈ s.seen, ∀ q p, d.projection = some q → s.disk.projection = some p →
    Extends q p

namespace Refoldable

variable {s : Site} (h : Refoldable s)
include h

omit [FloatRead] in
/-- What touches neither the events nor the projection. -/
lemma frame {t : Site} (hledger : t.disk.ledger = s.disk.ledger)
    (hprojection : t.disk.projection = s.disk.projection)
    (hpast : ∀ d ∈ t.past, d ∈ s.seen) : Refoldable t where
  events := hledger ▸ h.events
  projections d hd p hp := by
    rw [hledger]
    rcases List.mem_cons.mp hd with rfl | hd
    · exact h.projections s.disk s.mem_seen_self p (hprojection ▸ hp)
    · exact h.projections d (hpast d hd) p hp
  current d hd q p hq hp := by
    rcases List.mem_cons.mp hd with rfl | hd
    · exact h.current s.disk s.mem_seen_self q p (hprojection ▸ hq) (hprojection ▸ hp)
    · exact h.current d (hpast d hd) q p hq (hprojection ▸ hp)

omit h in
/-- The operations of an event that is admitted. -/
lemma eventFoldable_of_append {views : Views} (hviews : s.Shows views) {fresh : Fresh}
    {args : Map} {id key : String} {review : Value} {event : Record}
    (hplan : planAdmission epistemic s.disk views fresh args =
      .ok (.append id key review event)) :
    (∀ op ∈ operationsOf (rereadRecord event).value, Formed op) ∧
      ∀ op ∈ operationsOf (rereadRecord event).value,
        textOf op "op" = epistemic.communication.canonicalizationOperation →
          ∃ d ∈ s.seen, ∃ p, d.projection = some p ∧ HasEntity p (textOf op "entity_id") := by
  obtain ⟨hvalid, hreferences⟩ := operations_of_append hplan
  rw [rereadRecord, operationsOf_reread]
  refine ⟨fun op hop => ?_, fun op hop hkind => ?_⟩
  · obtain ⟨written, hwritten, rfl⟩ := List.mem_map.mp hop
    exact (validateOperation_formed (forM_ok hvalid written hwritten)).reread
  · obtain ⟨written, hwritten, rfl⟩ := List.mem_map.mp hop
    rw [textOf_reread] at hkind ⊢
    obtain ⟨n, p, hp, hentity⟩ := hasEntity_of_validate hreferences hwritten hkind
    obtain ⟨d, hd, hview⟩ := hviews.2 n
    exact ⟨d, hd, p, hview.symm.trans hp, hentity⟩

end Refoldable

omit [FloatRead] in
lemma refoldable_empty : Refoldable .empty where
  events := EachAfter.nil
  projections d hd p hp := by
    cases List.mem_singleton.mp hd
    cases hp
  current d hd q p hq hp := by cases hp

omit [FloatRead] in
/-- The files of a ledger read as its records. -/
lemma records_of_verify {disk : Disk} {records : List Record}
    (h : verify epistemic.errorSchemaId disk.files epistemic.eventHashField = .ok records) :
    records = disk.ledger := by
  have hcontents := verify_contents h
  rw [Disk.files, List.map_map] at hcontents
  exact (List.map_injective_iff.mpr (fun _ _ => Except.ok.inj) hcontents).symm

variable (hdigest : Function.Injective digestValue)
include hdigest

omit [FloatRead] in
/-- A refresh leaves the fold of the whole ledger. -/
lemma refresh_folds {s : Site} (h : Refoldable s) {disk : Disk}
    (hrefresh : refresh epistemic s.disk = .ok disk) :
    ∃ p, Chained epistemic.eventHashField s.disk.ledger ∧ Numbered s.disk.ledger ∧
      foldLedger epistemic s.disk.ledger = .ok p ∧ disk = { s.disk with projection := some p } := by
  obtain ⟨store, hstore, rfl⟩ := refresh_ok hrefresh
  have hfolded : ∀ p, s.disk.projection = some p → Folded epistemic p := by
    intro p hp
    obtain ⟨front, hchained, hnumbered, -, hfold⟩ := h.projections s.disk s.mem_seen_self p hp
    exact ⟨front, hchained, hnumbered, hfold⟩
  obtain ⟨records, p, hverify, hfold, rfl⟩ := rebuild_folds hdigest hfolded hstore
  obtain rfl := records_of_verify hverify
  exact ⟨p, verify_chained hverify, fun i r hr => verify_sequence hverify hr, hfold, rfl⟩

omit hdigest in
/-- An event that is admitted is foldable behind the ledger. -/
lemma Refoldable.append {s : Site} (h : Refoldable s) {views : Views} (hviews : s.Shows views)
    {fresh : Fresh} {args : Map} {id key : String} {review : Value} {event : Record}
    (hplan : planAdmission epistemic s.disk views fresh args =
      .ok (.append id key review event)) :
    EachAfter EventFoldable (s.disk.ledger ++ [rereadRecord event]) := by
  obtain ⟨hformed, hwanted⟩ := Refoldable.eventFoldable_of_append hviews hplan
  refine h.events.concat ⟨hformed, fun op hop hkind => ?_⟩
  obtain ⟨d, hd, p, hp, hentity⟩ := hwanted op hop hkind
  obtain ⟨front, -, -, hfront, hfold⟩ := h.projections d hd p hp
  exact ⟨front, p, hfront, hfold, hentity⟩

/-- **Every step keeps the ledger refoldable.** -/
lemma refoldable_step {s t : Site} (h : Refoldable s) (hstep : SiteStep epistemic s t) :
    Refoldable t := by
  have hseen : ∀ d ∈ s.seen, d ∈ s.seen := fun _ hd => hd
  have hpast : ∀ d ∈ s.past, d ∈ s.seen := fun _ hd => List.mem_cons_of_mem _ hd
  cases hstep with
  | found => exact h.frame rfl rfl hpast
  | submit _ _ hwrite =>
      obtain ⟨-, rfl⟩ := writeProposal_ok hwrite
      exact h.frame rfl rfl hseen
  | mark _ _ _ hwrite =>
      obtain ⟨-, rfl⟩ := writeProposalMarker_ok hwrite
      exact h.frame rfl rfl hseen
  | review => exact h.frame rfl rfl hseen
  | reject hreject =>
      obtain ⟨_, -, -, rfl⟩ := proposalReject_ok hreject
      exact h.frame rfl rfl hseen
  | replay => exact h.frame rfl rfl hpast
  | recover _ _ _ _ hwrite =>
      obtain ⟨-, rfl⟩ := writeMarker_ok hwrite
      exact h.frame rfl rfl hseen
  | append _ hviews hplan hwrite =>
      obtain ⟨-, rfl⟩ := writeEvent_ok hwrite
      refine ⟨h.append hviews hplan, fun d hd p hp => ?_, fun d hd q p hq hp => ?_⟩
      · have hd' : ∃ e ∈ s.seen, e.projection = some p := by
          rcases List.mem_cons.mp hd with rfl | hd
          · exact ⟨s.disk, s.mem_seen_self, hp⟩
          · exact ⟨d, hd, hp⟩
        obtain ⟨e, he, hp⟩ := hd'
        obtain ⟨front, hchained, hnumbered, hfront, hfold⟩ := h.projections e he p hp
        exact ⟨front, hchained, hnumbered, hfront.trans (List.prefix_append _ _), hfold⟩
      · rcases List.mem_cons.mp hd with rfl | hd
        · exact h.current s.disk s.mem_seen_self q p hq hp
        · exact h.current d hd q p hq hp
  | finish _ hwrite =>
      obtain ⟨-, rfl⟩ := writeMarker_ok hwrite
      exact h.frame rfl rfl hseen
  | release => exact h.frame rfl rfl hpast
  | refresh hrefresh =>
      obtain ⟨p, hchained, hnumbered, hfold, rfl⟩ := refresh_folds hdigest h hrefresh
      obtain ⟨p', hfold', -, hparts⟩ := foldLedger_ok h.events
      obtain rfl := Except.ok.inj (hfold.symm.trans hfold')
      have hall : ∀ d ∈ s.seen, ∀ q, d.projection = some q → Extends q p := by
        intro d hd q hq
        obtain ⟨front, -, -, hfront, hfront'⟩ := h.projections d hd q hq
        exact hparts front q hfront hfront'
      refine ⟨h.events, fun d hd q hq => ?_, fun d hd q r hq hr => ?_⟩
      · rcases List.mem_cons.mp hd with rfl | hd
        · cases hq
          exact ⟨s.disk.ledger, hchained, hnumbered, List.prefix_rfl, hfold⟩
        · exact h.projections d hd q hq
      · cases hr
        rcases List.mem_cons.mp hd with rfl | hd
        · cases hq
          exact hparts _ p List.prefix_rfl hfold
        · exact hall d hd q hq
  | lose =>
      refine ⟨h.events, fun d hd q hq => ?_, fun d hd q r hq hr => by cases hr⟩
      rcases List.mem_cons.mp hd with rfl | hd
      · cases hq
      · exact h.projections d hd q hq

/-- Every reachable site is refoldable. -/
lemma refoldable_invariant : (siteMachine epistemic).Invariant Refoldable where
  init s h := by
    rw [h]
    exact refoldable_empty
  step _ _ h hstep := refoldable_step hdigest h hstep

/-- **No reader of projections is led astray**: wherever a site comes, every projection that was ever
on disk is the fold of a part of the ledger, and the current one goes on from it. -/
theorem refoldable_sites : {s | (siteMachine epistemic).Reachable s} ⊆ {s | Refoldable s} :=
  fun _ hs => hs.invariant (refoldable_invariant hdigest)

omit [FloatText] [FloatRead] [Digest] hdigest in
/-- Sites where every text is its own digest. -/
theorem refoldable_sites_plain :
    letI := FloatText.fields
    letI : FloatRead := ⟨id⟩
    letI : Digest := ⟨id⟩
    {s | (siteMachine epistemic).Reachable s} ⊆ {s | Refoldable s} :=
  letI := FloatText.fields
  letI : FloatRead := ⟨id⟩
  letI : Digest := ⟨id⟩
  refoldable_sites fun _ _ h => Value.text_injective FloatText.fields_lawful h

/-- **What is admitted can be folded**: in every reachable site the event that an admission
appends folds into the current projection, also behind the events that it lacks, and the
whole ledger folds into empty tables. -/
theorem admitted_folds {s : Site} (hs : (siteMachine epistemic).Reachable s) {views : Views}
    (hviews : s.Shows views) {fresh : Fresh} {args : Map} {id key : String} {review : Value}
    {event : Record} {disk : Disk}
    (hplan : planAdmission epistemic s.disk views fresh args = .ok (.append id key review event))
    (hwrite : writeEvent epistemic (s.disk.putReview id review.reread) event = .ok disk) :
    disk.ledger = s.disk.ledger ++ [rereadRecord event] ∧
      (∀ p, disk.projection = some p →
        (∃ p', foldProjectionEvent epistemic p (rereadRecord event).value
          (eventIdOf event.value) = .ok p') ∧
        ∃ front rest p', disk.ledger = front ++ rest ∧ foldLedger epistemic front = .ok p ∧
          foldEvents epistemic p rest = .ok p') ∧
      ∃ p', foldLedger epistemic disk.ledger = .ok p' := by
  have h : Refoldable s := hs.invariant (refoldable_invariant hdigest)
  obtain ⟨-, rfl⟩ := writeEvent_ok hwrite
  obtain ⟨refolded, hrefolded, -⟩ := foldLedger_ok (h.append hviews hplan)
  refine ⟨rfl, fun p hp => ⟨?_, ?_⟩, refolded, hrefolded⟩
  · obtain ⟨hformed, hwanted⟩ := Refoldable.eventFoldable_of_append hviews hplan
    have hp' : s.disk.projection = some p := hp
    obtain ⟨p', hfold, -⟩ := foldProjectionEvent_ok (eventIdOf event.value) hformed
      (h.current s.disk s.mem_seen_self p p hp' hp').distinguishable fun op hop hkind => by
        obtain ⟨d, hd, q, hq, hentity⟩ := hwanted op hop hkind
        exact (h.current d hd q p hq hp').entities _ hentity
    exact ⟨p', hfold⟩
  · obtain ⟨front, -, -, ⟨rest, hrest⟩, hfold⟩ := h.projections s.disk s.mem_seen_self p hp
    refine ⟨front, rest ++ [rereadRecord event], refolded, ?_, hfold, ?_⟩
    · rw [← List.append_assoc, hrest]
      rfl
    · rw [foldLedger, ← hrest, List.append_assoc, foldEvents_append] at hrefolded
      rw [foldLedger] at hfold
      rw [hfold] at hrefolded
      exact hrefolded

end Review

/-- Whether an admission is going to append its event. -/
def appends (plan : Except Failure AdmissionPlan) : Bool :=
  match plan with
  | .ok (.append ..) => true
  | _ => false

lemma exists_of_appends {plan : Except Failure AdmissionPlan} (h : appends plan) :
    ∃ id key review event, plan = .ok (.append id key review event) := by
  match plan, h with
  | .ok (.append id key review event), _ => exact ⟨id, key, review, event, rfl⟩

/-- The first admission of a ledger folds. -/
theorem admitted_folds_sample :
    letI := FloatText.fields
    letI : Digest := ⟨id⟩
    letI : FloatRead := ⟨id⟩
    ∃ (s : Site) (event : Record) (disk : Disk),
      (siteMachine epistemic).Reachable s ∧ s.disk.ledger = [] ∧
      disk.ledger = s.disk.ledger ++ [rereadRecord event] ∧
      (∀ p, disk.projection = some p →
        (∃ p', foldProjectionEvent epistemic p (rereadRecord event).value
          (eventIdOf event.value) = .ok p') ∧
        ∃ front rest p', disk.ledger = front ++ rest ∧ foldLedger epistemic front = .ok p ∧
          foldEvents epistemic p rest = .ok p') ∧
      ∃ p', foldLedger epistemic disk.ledger = .ok p' := by
  let _ : FloatText := FloatText.fields
  let _ : Digest := ⟨id⟩
  let _ : FloatRead := ⟨id⟩
  have hdigest : Function.Injective digestValue := fun v w h =>
    Value.text_injective FloatText.fields_lawful h
  obtain ⟨s, hs, -, hviews, hdisk⟩ := reachable_sampleSubmitted []
  have happends : appends (planAdmission epistemic (sampleSubmitted []) ⟨none, fun _ => none⟩
      sampleFresh sampleAdmission) := by decide +kernel
  rw [← hdisk] at happends
  obtain ⟨id, key, review, event, hplan⟩ := exists_of_appends happends
  have hledger : s.disk.ledger = [] := by
    rw [hdisk]
    decide +kernel
  have hwrite : writeEvent epistemic (s.disk.putReview id review.reread) event =
      .ok { s.disk.putReview id review.reread with
        ledger := s.disk.ledger ++ [rereadRecord event] } := by
    rw [writeEvent, if_neg]
    · rfl
    · rw [Disk.putReview, hledger]
      exact Bool.false_ne_true
  exact ⟨s, event, _, hs, hledger, admitted_folds hdigest hs hviews hplan hwrite⟩

end LedgerDomain

end McpSurfaces
