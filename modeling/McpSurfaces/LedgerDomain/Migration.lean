import McpSurfaces.LedgerDomain.CursorToken
import McpSurfaces.LedgerDomain.Proposals

/-!
The census of the communications of legacy kinds, page by page:
`communication_migration_preflight`.

* `PagingExact`: every cursor that is issued is accepted by the next call, and the pages
  behind the cursors list the legacy entities, each once and in order.
* `cursor_refused`: the decoder insists on the shape of a query cursor, which a migration
  cursor has not.
* **`paging_exact_iff_onePage`**: the paging is exact when and only when everything is on the
  first page.
-/

namespace McpSurfaces

namespace LedgerDomain

open EventLedger Lists

/-! ### The page query -/

/-- The id of a row of the entities. -/
def entityIdOf (row : Row) : String := (row.get "entity_id").getD ""

/-- The rows of the legacy kinds, in the order of their ids. -/
def legacyEntities (domain : Domain) (p : Projection) : List Row :=
  ((p.rows domain.entityTable).filter fun row =>
    (row.get "kind").getD "" ∈ domain.communication.legacyReadAliases).insertionSort
      fun r s => entityIdOf r ≤ entityIdOf s

/-- The rows of the page query: those whose id is greater than the start. -/
def legacyRows (domain : Domain) (p : Projection) (start : String) : List Row :=
  (legacyEntities domain p).filter fun row => start < entityIdOf row

/-- A row as it is read. -/
structure Candidate where
  entityId : String
  kind : String
  payload : Value
  eventId : String
  eventSequence : ℕ

/-- The sequence of a row, where the column holds an `i64` that is not negative. -/
def sequenceColumn (row : Row) : Option ℕ :=
  match row.get "event_sequence" with
  | none => none
  | some digits =>
      let sequence := Nat.ofDigitChars 10 digits.toList 0
      if digits.toList.all Char.isDigit ∧ sequence < 2 ^ 63 then some sequence else none

def readCandidate (domain : Domain) (row : Row) : Except Failure Candidate :=
  match sequenceColumn row with
  | none =>
      .error (domainError domain "communication_migration_row_failed"
        "Invalid column type Real at index: 4, name: event_sequence" .null)
  | some sequence =>
      .ok ⟨entityIdOf row, (row.get "kind").getD "", row.payload,
        (row.get "event_id").getD "", sequence⟩

/-! ### The page -/

/-- How often each text occurs, by text. -/
def tally (texts : List String) : Value :=
  .object ((texts.dedup.insertionSort (· ≤ ·)).map fun s => (s, .ofNat (texts.count s)))

/-- Whether a message takes part in a thread. -/
def threadMember (domain : Domain) (p : Projection) (entityId : String) : Bool :=
  (p.rows domain.relationTable).any fun row =>
    row.get "relation_type" = some "replies_to" &&
      (row.get "source_id" = some entityId || row.get "target_id" = some entityId)

/-- The schema of the cursors of a migration. -/
def migrationCursorSchema (domain : Domain) : String :=
  domain.schemaNamespace ++ ".communication_migration_cursor.v1"

section Preflight

variable [FloatText] [Digest]

/-- The digest of what the descriptor says about the migration. -/
def migrationQueryDigest (domain : Domain) : String :=
  digestValue (.object [("canonical_kind", .string domain.communication.canonicalKind),
    ("legacy_read_aliases",
      .array (domain.communication.legacyReadAliases.map Value.string)),
    ("contract_version", .ofNat domain.communication.contractVersion)])

/-- The cursor behind an entity. -/
def migrationCursor (domain : Domain) (head : Option String) (entityId : String) : Map :=
  [("schema", .string (migrationCursorSchema domain)), ("ledger_head", optionText head),
    ("query_digest", .string (migrationQueryDigest domain)), ("entity_id", .string entityId)]

/-- The operation that is proposed for a message. -/
def proposedOperation (domain : Domain) (candidate : Candidate) : Value :=
  .object [("op", .string domain.communication.canonicalizationOperation),
    ("entity_id", .string candidate.entityId), ("legacy_kind", .string candidate.kind),
    ("canonical_kind", .string domain.communication.canonicalKind),
    ("equivalence_evidence", .object
      [("payload_sha256", .string (digestValue candidate.payload)),
        ("originating_event_id", .string candidate.eventId)])]

/-- The line of the census for a message. -/
def censusEntry (domain : Domain) (p : Projection) (candidate : Candidate) : Value :=
  .object [("entity_id", .string candidate.entityId), ("kind", .string candidate.kind),
    ("sender", .string (textOf candidate.payload "sender")),
    ("recipient", .string (textOf candidate.payload "recipient")),
    ("thread_member", .bool (threadMember domain p candidate.entityId)),
    ("event_id", .string candidate.eventId),
    ("event_sequence", .ofNat candidate.eventSequence),
    ("payload_sha256", .string (digestValue candidate.payload))]

/-- The cursor to the next page, when there are more candidates than fit on this one. -/
def nextMigrationCursor (domain : Domain) (head : Option String) (limit : ℕ)
    (candidates : List Candidate) : Option String :=
  if limit < candidates.length then
    (candidates.take limit).getLast?.map fun last =>
      encodeCursorToken (.object (migrationCursor domain head last.entityId))
  else none

/-- The answer of the preflight. -/
def migrationPage (domain : Domain) (p : Projection) (head : Option String) (limit : ℕ)
    (candidates : List Candidate) : Value :=
  let page := candidates.take limit
  .object [("schema", .string (domain.schemaNamespace ++ ".communication_migration_preflight.v1")),
    ("status", .string "ok"), ("ledger_head", optionText head),
    ("query_digest", .string (migrationQueryDigest domain)),
    ("canonical_kind", .string domain.communication.canonicalKind),
    ("contract_version", .ofNat domain.communication.contractVersion),
    ("bounded", .object [("limit", .ofNat limit), ("returned", .ofNat page.length),
      ("has_more", .bool (limit < candidates.length)),
      ("next_cursor", optionText (nextMigrationCursor domain head limit candidates))]),
    ("census", .object [("scope", .string "page"),
      ("by_kind", tally (page.map Candidate.kind)),
      ("by_sender", tally (page.map fun c => textOf c.payload "sender")),
      ("by_recipient", tally (page.map fun c => textOf c.payload "recipient")),
      ("messages", .array (page.map (censusEntry domain p)))]),
    ("proposed_operations", .array (page.map (proposedOperation domain)))]

/-- The size of a page. -/
def migrationLimit (domain : Domain) (args : Map) : ℕ :=
  max 1 (min (((args.get "limit").bind Value.asU64).getD 50) domain.operationsMax)

/-- The id that the page starts behind: that of the cursor, which has to belong to the
current head and the descriptor. -/
def migrationStart [JsonRead] (domain : Domain) (head : Option String) :
    Option Value → Except Failure String
  | none => .ok ""
  | some rawCursor =>
      match decodeCursorToken rawCursor (migrationCursorSchema domain) with
      | .error .malformed =>
          .error (domainError domain "communication_migration_cursor_invalid"
            "migration cursor is malformed or belongs to another operation" (.object []))
      | .error .panic => .error (.panic "byte index is not a char boundary")
      | .ok decoded =>
          if ¬ optionEqv (decoded.get "ledger_head") (some (optionText head)) ∨
              (decoded.get "query_digest").bind Value.asStr ≠
                some (migrationQueryDigest domain) then
            .error (domainError domain "communication_migration_cursor_stale"
              "migration cursor is not bound to the current ledger head and descriptor query"
              (.object [("cursor_ledger_head", (decoded.get "ledger_head").getD .null),
                ("actual_ledger_head", optionText head)]))
          else .ok (textOf decoded "entity_id")

/-- `communication_migration_preflight`. The projection is read as it is. -/
def communicationMigrationPreflight [JsonRead] (domain : Domain) (disk : Disk) (args : Map) :
    Except Failure Value := do
  let _ ← verify domain.errorSchemaId disk.files domain.eventHashField
  let head := ledgerHead domain disk
  let start ← migrationStart domain head (args.get "cursor")
  match disk.projection with
  | none =>
      .error (domainError domain "communication_migration_prepare_failed"
        ("no such table: " ++ domain.entityTable) .null)
  | some p => do
      let limit := migrationLimit domain args
      let candidates ← ((legacyRows domain p start).take (limit + 1)).mapM (readCandidate domain)
      return migrationPage domain p head limit candidates

/-! ### Paging -/

/-- The cursor that a page issues. -/
def issuedCursor (page : Value) : Option String :=
  ((page.get "bounded").bind fun bounded => bounded.get "next_cursor").bind Value.asStr

/-- The ids of the messages on a page. -/
def pageIds (page : Value) : List String :=
  ((((page.get "census").bind fun census => census.get "messages").bind Value.asArray).getD []).map
    fun entry => textOf entry "entity_id"

/-- The arguments of a call: a limit and a cursor, where they are given. -/
def migrationArgs (limit cursor : Option Value) : Map :=
  limit.toList.map (fun v => ("limit", v)) ++ cursor.toList.map fun v => ("cursor", v)

variable [JsonRead]

/-- The pages from a cursor on, each next one read with the cursor of the page before. -/
inductive MigrationPages (domain : Domain) (disk : Disk) (limit : Option Value) :
    Option Value → List Value → Prop
  | last {cursor : Option Value} {page : Value}
      (h : communicationMigrationPreflight domain disk (migrationArgs limit cursor) = .ok page)
      (hlast : issuedCursor page = none) : MigrationPages domain disk limit cursor [page]
  | next {cursor : Option Value} {page : Value} {token : String} {pages : List Value}
      (h : communicationMigrationPreflight domain disk (migrationArgs limit cursor) = .ok page)
      (hnext : issuedCursor page = some token)
      (hrest : MigrationPages domain disk limit (some (.string token)) pages) :
      MigrationPages domain disk limit cursor (page :: pages)

/-- Issued cursors are accepted, and following them lists the legacy entities of the ledger. -/
structure PagingExact (domain : Domain) (disk : Disk) (limit : Option Value) : Prop where
  accepted : ∀ cursor page token,
    communicationMigrationPreflight domain disk (migrationArgs limit cursor) = .ok page →
      issuedCursor page = some token →
        ∃ next, communicationMigrationPreflight domain disk
          (migrationArgs limit (some (.string token))) = .ok next
  complete : ∃ pages q, MigrationPages domain disk limit none pages ∧
    foldLedger domain disk.ledger = .ok q ∧
    pages.flatMap pageIds = (legacyEntities domain q).map entityIdOf

section Pages

variable {domain : Domain} {disk : Disk} {limit cursor : Option Value}

section

omit [FloatText] [Digest] [JsonRead]

lemma get_cursor_migrationArgs (limit cursor : Option Value) :
    OrderedMap.get (migrationArgs limit cursor) "cursor" = cursor := by
  cases limit <;> cases cursor <;> rfl

lemma migrationLimit_migrationArgs (domain : Domain) (limit cursor : Option Value) :
    migrationLimit domain (migrationArgs limit cursor) =
      migrationLimit domain (migrationArgs limit none) := by
  cases limit <;> cases cursor <;> rfl

end

/-- A call that succeeds, step by step. -/
lemma preflight_ok {page : Value}
    (h : communicationMigrationPreflight domain disk (migrationArgs limit cursor) = .ok page) :
    ∃ records p start candidates,
      verify domain.errorSchemaId disk.files domain.eventHashField = .ok records ∧
      disk.projection = some p ∧
      migrationStart domain (ledgerHead domain disk) cursor = .ok start ∧
      ((legacyRows domain p start).take
        (migrationLimit domain (migrationArgs limit none) + 1)).mapM (readCandidate domain) =
          .ok candidates ∧
      page = migrationPage domain p (ledgerHead domain disk)
        (migrationLimit domain (migrationArgs limit none)) candidates := by
  rw [communicationMigrationPreflight, get_cursor_migrationArgs,
    migrationLimit_migrationArgs] at h
  obtain ⟨records, hverify, h⟩ := bind_eq_ok h
  obtain ⟨start, hstart, h⟩ := bind_eq_ok h
  cases hp : disk.projection with
  | none => rw [hp] at h; cases h
  | some p =>
      rw [hp] at h
      obtain ⟨candidates, hcandidates, h⟩ := bind_eq_ok h
      cases h
      exact ⟨records, p, start, candidates, hverify, rfl, hstart, hcandidates, rfl⟩

/-- **An issued cursor is refused**: it has neither of the fields of a query cursor. -/
lemma cursor_refused (hread : JsonRead.Lawful) (entityId : String) {page : Value}
    (h : communicationMigrationPreflight domain disk (migrationArgs limit (some (.string
      (encodeCursorToken (.object (migrationCursor domain (ledgerHead domain disk) entityId)))))) =
        .ok page) : False := by
  obtain ⟨-, -, start, -, -, -, hstart, -, -⟩ := preflight_ok h
  have hkeys : (OrderedMap.keys
      (migrationCursor domain (ledgerHead domain disk) entityId)).Nodup := by
    simp [migrationCursor, OrderedMap.keys]
  have hscalar : ∀ e ∈ migrationCursor domain (ledgerHead domain disk) entityId, e.2.Scalar := by
    intro e he
    simp only [migrationCursor, List.mem_cons, List.not_mem_nil, or_false] at he
    rcases he with rfl | rfl | rfl | rfl
    · trivial
    · cases ledgerHead domain disk <;> trivial
    · trivial
    · trivial
  have hshape : ¬ isQueryCursor (migrationCursorSchema domain)
      (.object (migrationCursor domain (ledgerHead domain disk) entityId)) := by
    have hhead : (Value.object (migrationCursor domain (ledgerHead domain disk) entityId)).get
        "head" = none := rfl
    simp [isQueryCursor, hhead]
  rw [migrationStart, decode_encode hread hkeys hscalar, if_neg hshape] at hstart
  cases hstart

section

omit [FloatText] [Digest] [JsonRead]

lemma readCandidate_ok {row : Row} {c : Candidate} (h : readCandidate domain row = .ok c) :
    c.entityId = entityIdOf row ∧ (sequenceColumn row).isSome := by
  rw [readCandidate] at h
  cases hsequence : sequenceColumn row with
  | none => rw [hsequence] at h; cases h
  | some sequence =>
      rw [hsequence] at h
      cases h
      exact ⟨rfl, rfl⟩

/-- Rows that are read keep their ids. -/
lemma entityIds_of_mapM {rows : List Row} {candidates : List Candidate}
    (h : rows.mapM (readCandidate domain) = .ok candidates) :
    candidates.map Candidate.entityId = rows.map entityIdOf := by
  induction mapM_eq_ok_iff.mp h with
  | nil => rfl
  | cons hrow _ ih =>
      rw [List.map_cons, List.map_cons, (readCandidate_ok hrow).1, ih (mapM_eq_ok_iff.mpr ‹_›)]

/-- Rows with a sequence are read. -/
lemma exists_candidates (domain : Domain) {rows : List Row} (h : ∀ row ∈ rows, (sequenceColumn row).isSome) :
    ∃ candidates, rows.mapM (readCandidate domain) = .ok candidates := by
  induction rows with
  | nil => exact ⟨[], rfl⟩
  | cons row rest ih =>
      obtain ⟨candidates, hrest⟩ := ih fun r hr => h r (List.mem_cons_of_mem row hr)
      obtain ⟨sequence, hsequence⟩ := Option.isSome_iff_exists.mp (h row List.mem_cons_self)
      have hrow : readCandidate domain row = .ok ⟨entityIdOf row, (row.get "kind").getD "",
          row.payload, (row.get "event_id").getD "", sequence⟩ := by
        rw [readCandidate, hsequence]
      exact ⟨_ :: candidates,
        mapM_eq_ok_iff.mpr (List.Forall₂.cons hrow (mapM_eq_ok_iff.mp hrest))⟩

end

omit [JsonRead] in
lemma issuedCursor_migrationPage (p : Projection) (head : Option String) (bound : ℕ)
    (candidates : List Candidate) :
    issuedCursor (migrationPage domain p head bound candidates) =
      nextMigrationCursor domain head bound candidates := by
  have hget : ((migrationPage domain p head bound candidates).get "bounded").bind
      (fun bounded => bounded.get "next_cursor") =
        some (optionText (nextMigrationCursor domain head bound candidates)) := rfl
  rw [issuedCursor, hget]
  cases nextMigrationCursor domain head bound candidates <;> rfl

omit [JsonRead] in
lemma pageIds_migrationPage (p : Projection) (head : Option String) (bound : ℕ)
    (candidates : List Candidate) :
    pageIds (migrationPage domain p head bound candidates) =
      (candidates.take bound).map Candidate.entityId := by
  have hget : (((migrationPage domain p head bound candidates).get "census").bind
      fun census => census.get "messages").bind Value.asArray =
        some ((candidates.take bound).map (censusEntry domain p)) := rfl
  rw [pageIds, hget, Option.getD_some, List.map_map]
  rfl

omit [FloatText] [Digest] [JsonRead] in
/-- No page query lists more than the one from the beginning. -/
lemma legacyRows_sublist (domain : Domain) (p : Projection) (start : String) :
    (legacyRows domain p start).Sublist (legacyRows domain p "") := by
  have hempty : ∀ row : Row, start < entityIdOf row → "" < entityIdOf row := by
    intro row hrow
    rw [String.lt_iff] at hrow ⊢
    cases hid : (entityIdOf row).toList with
    | nil => rw [hid] at hrow; exact absurd hrow (List.not_lt_nil _)
    | cons c rest => exact List.nil_lt_cons c rest
  refine List.monotone_filter_right _ fun row hrow => ?_
  simp only [decide_eq_true_eq] at hrow ⊢
  exact hempty row hrow

/-- The first page issues a cursor when there are more rows than fit on it. -/
lemma exists_issuedCursor {p : Projection} (hp : disk.projection = some p) {page : Value}
    (h : communicationMigrationPreflight domain disk (migrationArgs limit none) = .ok page)
    (hmore : migrationLimit domain (migrationArgs limit none) < (legacyRows domain p "").length) :
    ∃ token, issuedCursor page = some token := by
  obtain ⟨-, p', start, candidates, -, hp', hstart, hcandidates, rfl⟩ := preflight_ok h
  cases hp.symm.trans hp'
  cases hstart
  have hcount := List.Forall₂.length_eq (mapM_eq_ok_iff.mp hcandidates)
  rw [List.length_take] at hcount
  have hpositive : 0 < migrationLimit domain (migrationArgs limit none) :=
    lt_of_lt_of_le Nat.one_pos (le_max_left _ _)
  rw [issuedCursor_migrationPage, nextMigrationCursor, if_pos (by omega)]
  cases hlast : (candidates.take (migrationLimit domain (migrationArgs limit none))).getLast? with
  | some last => exact ⟨_, rfl⟩
  | none =>
      have hempty := congrArg List.length (List.getLast?_eq_none_iff.mp hlast)
      rw [List.length_take, List.length_nil] at hempty
      omega

/-- A page that issues a cursor issues one that is refused. -/
lemma issued_refused (hread : JsonRead.Lawful) {page : Value} {token : String}
    (h : communicationMigrationPreflight domain disk (migrationArgs limit cursor) = .ok page)
    (hissued : issuedCursor page = some token) {next : Value}
    (hnext : communicationMigrationPreflight domain disk
      (migrationArgs limit (some (.string token))) = .ok next) : False := by
  obtain ⟨-, p, start, candidates, -, -, -, -, rfl⟩ := preflight_ok h
  rw [issuedCursor_migrationPage, nextMigrationCursor] at hissued
  split_ifs at hissued
  obtain ⟨last, -, rfl⟩ := Option.map_eq_some_iff.mp hissued
  exact cursor_refused hread last.entityId hnext

end Pages

/-- **Migration paging is exact when and only when it is one page**: the ledger verifies, the
projection that is read lists the legacy entities of the ledger, with sequences that can be
read, and there are no more of them than the limit. -/
theorem paging_exact_iff_onePage {domain : Domain} {disk : Disk} (hread : JsonRead.Lawful)
    (limit : Option Value) :
    PagingExact domain disk limit ↔
      (∃ records, verify domain.errorSchemaId disk.files domain.eventHashField = .ok records) ∧
      ∃ p q, disk.projection = some p ∧ foldLedger domain disk.ledger = .ok q ∧
        (legacyRows domain p "").map entityIdOf = (legacyEntities domain q).map entityIdOf ∧
        (∀ row ∈ legacyRows domain p "", (sequenceColumn row).isSome) ∧
        (legacyRows domain p "").length ≤ migrationLimit domain (migrationArgs limit none) := by
  constructor
  · intro h
    obtain ⟨pages, q, hpages, hfold, hids⟩ := h.complete
    cases hpages with
    | next hpage hissued _ =>
        obtain ⟨next, hnext⟩ := h.accepted _ _ _ hpage hissued
        exact (issued_refused hread hpage hissued hnext).elim
    | last hpage hlast =>
        obtain ⟨records, p, start, candidates, hverify, hp, hstart, hcandidates, rfl⟩ :=
          preflight_ok hpage
        cases hstart
        have hlength := List.Forall₂.length_eq (mapM_eq_ok_iff.mp hcandidates)
        rw [List.length_take] at hlength
        have hfits : ¬ migrationLimit domain (migrationArgs limit none) <
            (legacyRows domain p "").length := by
          intro hmore
          obtain ⟨token, htoken⟩ := exists_issuedCursor hp hpage hmore
          cases hlast.symm.trans htoken
        have hall : (legacyRows domain p "").take
            (migrationLimit domain (migrationArgs limit none) + 1) = legacyRows domain p "" :=
          List.take_of_length_le (by omega)
        rw [hall] at hcandidates
        rw [List.flatMap_singleton, pageIds_migrationPage, List.take_of_length_le (by omega),
          entityIds_of_mapM hcandidates] at hids
        refine ⟨⟨records, hverify⟩, p, q, hp, hfold, hids, fun row hrow => ?_, by omega⟩
        obtain ⟨c, -, hc⟩ := exists_ok_of_mapM hcandidates hrow
        exact (readCandidate_ok hc).2
  · rintro ⟨⟨records, hverify⟩, p, q, hp, hfold, hids, hsequences, hlength⟩
    constructor
    · -- no page has room for more than there is, so that none issues a cursor
      intro cursor page token hpage hissued
      obtain ⟨-, p', start, candidates, -, hp', -, hcandidates, rfl⟩ := preflight_ok hpage
      cases hp.symm.trans hp'
      have hcount := List.Forall₂.length_eq (mapM_eq_ok_iff.mp hcandidates)
      rw [List.length_take] at hcount
      have hsub := (legacyRows_sublist domain p start).length_le
      rw [issuedCursor_migrationPage, nextMigrationCursor, if_neg (by omega)] at hissued
      cases hissued
    · obtain ⟨candidates, hcandidates⟩ := exists_candidates domain hsequences
      have hcount := List.Forall₂.length_eq (mapM_eq_ok_iff.mp hcandidates)
      have hall : (legacyRows domain p "").take
          (migrationLimit domain (migrationArgs limit none) + 1) = legacyRows domain p "" :=
        List.take_of_length_le (by omega)
      have hpage : communicationMigrationPreflight domain disk (migrationArgs limit none) =
          .ok (migrationPage domain p (ledgerHead domain disk)
            (migrationLimit domain (migrationArgs limit none)) candidates) := by
        rw [communicationMigrationPreflight, hverify, get_cursor_migrationArgs, hp]
        simp only [bind, Except.bind, migrationStart, hall, hcandidates]
        rfl
      have hlast : issuedCursor (migrationPage domain p (ledgerHead domain disk)
          (migrationLimit domain (migrationArgs limit none)) candidates) = none := by
        rw [issuedCursor_migrationPage, nextMigrationCursor, if_neg (by omega)]
      refine ⟨_, q, .last hpage hlast, hfold, ?_⟩
      rw [List.flatMap_singleton, pageIds_migrationPage, List.take_of_length_le (by omega),
        entityIds_of_mapM hcandidates, hids]

omit [FloatText] [Digest] [JsonRead] in
/-- The declaration of a message of a legacy kind. -/
def legacyMessage (entityId : String) : Value :=
  .object [("op", .string "entity.declare"), ("entity_id", .string entityId),
    ("kind", .string "communication"), ("title", .string "t"), ("sender", .string "alice"),
    ("recipient", .string "bob")]

omit [JsonRead] in
/-- A ledger of one event with its projection. -/
def legacyDisk (operations : List Value) : Disk :=
  let ledger := [sealedEvent 1 none operations]
  ⟨ledger, [], [], [], [], [], (foldLedger epistemic ledger).toOption⟩

end Preflight

/-- One message is one page. -/
theorem paging_exact_iff_onePage_single :
    letI := FloatText.fields
    letI : Digest := ⟨id⟩
    letI := JsonRead.inverse
    PagingExact epistemic (legacyDisk [legacyMessage "a"]) none := by
  let _ : FloatText := FloatText.fields
  let _ : Digest := ⟨id⟩
  let _ : JsonRead := JsonRead.inverse
  let disk := legacyDisk [legacyMessage "a"]
  let p := (foldLedger epistemic disk.ledger).toOption.getD .created
  have hverify : verify epistemic.errorSchemaId disk.files epistemic.eventHashField =
      .ok ((verify epistemic.errorSchemaId disk.files epistemic.eventHashField).toOption.getD []) :=
    eq_ok_of_isSome (by decide +kernel) []
  have hfold : foldLedger epistemic disk.ledger = .ok p :=
    eq_ok_of_isSome (by decide +kernel) .created
  refine (paging_exact_iff_onePage JsonRead.inverse_lawful none).mpr
    ⟨⟨_, hverify⟩, p, p, congrArg Except.toOption hfold, hfold, ?_, ?_, ?_⟩
  · decide +kernel
  · decide +kernel
  · decide +kernel

/-- With two messages and a limit of one the cursor of the first page is refused. -/
theorem migration_cursor_refused :
    letI := FloatText.fields
    letI : Digest := ⟨id⟩
    letI := JsonRead.inverse
    ¬ PagingExact epistemic (legacyDisk [legacyMessage "a", legacyMessage "b"])
      (some (.ofNat 1)) := by
  let _ : FloatText := FloatText.fields
  let _ : Digest := ⟨id⟩
  let _ : JsonRead := JsonRead.inverse
  intro hexact
  let disk := legacyDisk [legacyMessage "a", legacyMessage "b"]
  let page := communicationMigrationPreflight epistemic disk (migrationArgs (some (.ofNat 1)) none)
  have hsome : page.toOption.isSome = true := by decide +kernel
  have hpage : page = .ok (page.toOption.getD .null) := eq_ok_of_isSome hsome .null
  have hfold : foldLedger epistemic disk.ledger =
      .ok ((foldLedger epistemic disk.ledger).toOption.getD .created) :=
    eq_ok_of_isSome (by decide +kernel) .created
  obtain ⟨token, htoken⟩ :=
    exists_issuedCursor (congrArg Except.toOption hfold) hpage (by decide +kernel)
  obtain ⟨next, hnext⟩ := hexact.accepted none _ token hpage htoken
  exact issued_refused JsonRead.inverse_lawful hpage htoken hnext

end LedgerDomain

end McpSurfaces
