import McpSurfaces.Foundation.Table
import McpSurfaces.Mailbox.SourceOrder

/-!
The facts of a mailbox: `fact_for_record` names a fact by a digest of its whole event, and
`ingest_fact` inserts it where no fact has its name.

* `Attempt`: a generation that fetches, and ingests the facts of some of its records before it ends
  or fails; it may read its batch back from its artifact.
* **`one_fact_iff`**: a message state that is fetched at two times has two facts; a run of attempts
  leaves one fact for each record exactly if it ingests one event under each id.
-/

namespace McpSurfaces

namespace Mailbox

section Facts

variable [FloatText]

/-! ### Facts of records -/

/-- The type of a fact. -/
def factType (record : SourceRecord) : String :=
  match eventText record.payload "event_kind" with
  | some "created" | some "upsert" => "mail.message.discovered"
  | some "updated" => "mail.message.changed"
  | some "deleted" | some "delete" => "mail.message.removed"
  | _ => "mail.message.discovered"

/-- The payload of a fact: the whole event. -/
def factPayload (record : SourceRecord) : Value :=
  .object [("record_id", .string record.recordId), ("event", .object record.payload)]

/-- What names a fact. -/
def factIdentity (sourceId : String) (record : SourceRecord) : Value :=
  .object [("fact_type", .string (factType record)), ("source_id", .string sourceId),
    ("source_record_id", .string record.recordId), ("payload", factPayload record)]

/-- The name of a fact: 32 digits of a digest. -/
def factId (identity : Value) : String :=
  "fact_" ++ String.ofList ((sha256Hex identity.canonicalText).toList.take 32)

/-- The refusal of a record whose origin is not told. -/
def provenanceInvalid : Value :=
  refusal "mailbox_sync_record_provenance_invalid" "mailbox_sync_record_provenance_invalid"

/-- `fact_for_record`: the name, the type, the provenance and the payload of a fact. -/
def factForRecord (record : SourceRecord) (sourceCursor : Option String) :
    Except Value (String × String × Value × String) :=
  match (OrderedMap.get record.provenance "sourceId").bind Value.asStr with
  | none => .error provenanceInvalid
  | some sourceId =>
      match (OrderedMap.get record.provenance "observedAt").bind Value.asStr with
      | none => .error provenanceInvalid
      | some observedAt =>
          .ok (factId (factIdentity sourceId record), factType record,
            .object [("source_id", .string sourceId), ("source_record_id", .string record.recordId),
              ("source_version", (OrderedMap.get record.provenance "sourceVersion").getD .null),
              ("source_cursor", nullable sourceCursor), ("observed_at", .string observedAt)],
            (factPayload record).text)

/-! ### The table -/

/-- A row of `facts`. -/
structure Fact where
  factId : String
  factType : String
  sourceId : Option String
  sourceRecordId : Option String
  sourceVersion : Option String
  sourceCursor : Option String
  provenance : Value
  payload : String

/-- What a fact is about. -/
def Fact.subject (f : Fact) : Option String × Option String := (f.sourceId, f.sourceRecordId)

/-- The columns of a fact. -/
def Fact.ofRecord (id type : String) (provenance : Value) (payload : String) : Fact where
  factId := id
  factType := type
  sourceId := (provenance.get "source_id").bind Value.asStr
  sourceRecordId := (provenance.get "source_record_id").bind Value.asStr
  sourceVersion := (provenance.get "source_version").bind Value.asStr
  sourceCursor := (provenance.get "source_cursor").bind Value.asStr
  provenance
  payload

/-- `ingest_fact`. -/
def ingestFact (facts : List Fact) (id type : String) (provenance : Value) (payload : String) :
    List Fact :=
  Table.insertOnce Fact.factId facts (.ofRecord id type provenance payload)

/-- The facts of the records that `process_batch` reaches, one by one: what was ingested stays. -/
def ingestRecords (sourceCursor : Option String) (facts : List Fact) : List SourceRecord → List Fact
  | [] => facts
  | record :: rest =>
      match factForRecord record sourceCursor with
      | .error _ => facts
      | .ok (id, type, provenance, payload) =>
          ingestRecords sourceCursor (ingestFact facts id type provenance payload) rest

/-! ### Attempts -/

variable [FloatRead] [Lowercase]

/-- A record that was written to the artifact of its generation and read back. -/
def SourceRecord.reread (record : SourceRecord) : SourceRecord :=
  { record with
    payload := Value.rereadFields record.payload
    provenance := Value.rereadFields record.provenance }

/-- A generation: what it fetched and when, the cursor it goes on with, whether it has its batch
from the artifact, and how many records it reaches before it ends or fails. -/
structure Attempt where
  messages : List Value
  fetchedAt : String
  nextCheckpoint : Option String
  fromArtifact : Bool
  reached : ℕ

/-- The records that an attempt ingests. -/
def Attempt.records (scope : ScopeConfig) (a : Attempt) : List SourceRecord :=
  let records := (sourceRecords scope a.fetchedAt a.messages).toOption.getD []
  (if a.fromArtifact then records.map SourceRecord.reread else records).take a.reached

/-- The facts behind an attempt. -/
def ingest (scope : ScopeConfig) (facts : List Fact) (a : Attempt) : List Fact :=
  ingestRecords a.nextCheckpoint facts (a.records scope)

/-- The facts behind a run of attempts. -/
def factsOf (scope : ScopeConfig) (attempts : List Attempt) : List Fact :=
  attempts.foldl (ingest scope) []

/-! ### Events that are observed -/

section

omit [FloatText] [FloatRead] [Lowercase]

lemma nodup_eventFields (scope : ScopeConfig) (message : Map)
    (id messageId kind observedAt : String) (version : Option String) :
    (OrderedMap.keys (eventFields scope message id messageId version kind observedAt)).Nodup := by
  have hstart : (OrderedMap.keys [("schema_version", Value.ofNat 1), ("event_id", .string id),
      ("mailbox_id", .string scope.scopeId), ("message_id", .string messageId)]).Nodup := by
    simp [OrderedMap.keys]
  have hidentified := nodup_insertOptionalString hstart "conversation_id"
    (OrderedMap.get message "conversationId")
  have hversioned := nodup_insertSome
    (OrderedMap.nodup_keys_insert hidentified "source_item_id" (.string messageId)) "source_version"
    (version.map Value.string)
  exact OrderedMap.nodup_keys_insert (OrderedMap.nodup_keys_insert hversioned _ _) _ _

lemma observedAt_eventFields (scope : ScopeConfig) (message : Map)
    (id messageId kind observedAt : String) (version : Option String) :
    eventText (eventFields scope message id messageId version kind observedAt) "observed_at" =
      some observedAt := by
  rw [eventText, eventFields, OrderedMap.get_insert_self]
  rfl

end

omit [FloatRead] in
/-- The keys of an event are distinct, and it tells when it was observed. -/
lemma nodup_of_normalize {scope : ScopeConfig} {raw : Value} {observedAt : String} {event : Map}
    (h : normalizeGraphEvent scope raw observedAt = .ok event) :
    (OrderedMap.keys event).Nodup ∧ eventText event "observed_at" = some observedAt := by
  unfold normalizeGraphEvent at h
  split at h
  · cases h
  · split at h
    · cases h
    · dsimp only at h
      split_ifs at h
      · obtain rfl := Except.ok.inj h
        exact ⟨nodup_eventFields _ _ _ _ _ _ _, observedAt_eventFields _ _ _ _ _ _ _⟩
      · obtain ⟨payload, -, h⟩ := Lists.bind_eq_ok h
        obtain rfl := Except.ok.inj h
        refine ⟨OrderedMap.nodup_keys_insert (nodup_eventFields _ _ _ _ _ _ _) _ _, ?_⟩
        rw [eventText, OrderedMap.get_insert_of_ne _ _ (by decide), ← eventText]
        exact observedAt_eventFields _ _ _ _ _ _ _

omit [FloatRead] in
/-- **A message state that is fetched twice has one event id.** -/
lemma normalizeGraphEvent_twice {scope : ScopeConfig} {raw : Value} {t t' : String}
    {event event' : Map} (h : normalizeGraphEvent scope raw t = .ok event)
    (h' : normalizeGraphEvent scope raw t' = .ok event') :
    eventText event "event_id" = eventText event' "event_id" := by
  unfold normalizeGraphEvent at h h'
  split at h
  · cases h
  next message hmessage =>
    rw [hmessage] at h'
    dsimp only at h'
    split at h
    · cases h
    next messageId hid =>
      rw [hid] at h'
      dsimp only at h h'
      split_ifs at h with hremoved
      · rw [if_pos hremoved] at h'
        obtain rfl := Except.ok.inj h
        obtain rfl := Except.ok.inj h'
        rw [(eventFields_texts _ _ _ _ _ _ _).1, (eventFields_texts _ _ _ _ _ _ _).1]
      · rw [if_neg hremoved] at h'
        obtain ⟨payload, hpayload, h⟩ := Lists.bind_eq_ok h
        obtain ⟨payload', hpayload', h'⟩ := Lists.bind_eq_ok h'
        obtain rfl : payload = payload' := Except.ok.inj (hpayload.symm.trans hpayload')
        obtain rfl := Except.ok.inj h
        obtain rfl := Except.ok.inj h'
        rw [eventText, OrderedMap.get_insert_of_ne _ _ (by decide), ← eventText,
          (eventFields_texts _ _ _ _ _ _ _).1, eventText,
          OrderedMap.get_insert_of_ne _ _ (by decide), ← eventText,
          (eventFields_texts _ _ _ _ _ _ _).1]

/-! ### Records that are ingested -/

/-- A record of a scope: it tells its origin, and the keys of its event are distinct. -/
structure IsRecord (scope : ScopeConfig) (record : SourceRecord) : Prop where
  source : (OrderedMap.get record.provenance "sourceId").bind Value.asStr = some scope.scopeId
  observed : ((OrderedMap.get record.provenance "observedAt").bind Value.asStr).isSome
  nodup : (OrderedMap.keys record.payload).Nodup

omit [FloatText] [FloatRead] [Lowercase] in
lemma isRecord_sourceRecord {scope : ScopeConfig} {fetchedAt : String} {event : Map}
    (h : (OrderedMap.keys event).Nodup) : IsRecord scope (sourceRecord scope fetchedAt event) := by
  refine ⟨?_, ?_, h⟩
  · rw [sourceRecord, get_insertSome, if_neg (by decide)]
    rfl
  · rw [sourceRecord, get_insertSome, if_neg (by decide)]
    rfl

omit [FloatText] [Lowercase] in
lemma IsRecord.reread {scope : ScopeConfig} {record : SourceRecord} (h : IsRecord scope record) :
    IsRecord scope record.reread := by
  have htext (key : String) : (OrderedMap.get record.reread.provenance key).bind Value.asStr =
      (OrderedMap.get record.provenance key).bind Value.asStr := by
    change (OrderedMap.get (Value.rereadFields record.provenance) key).bind _ = _
    rw [Value.rereadFields_eq, Value.get_map_reread]
    cases OrderedMap.get record.provenance key <;> simp
  refine ⟨(htext _).trans h.source, (htext _).symm ▸ h.observed, ?_⟩
  have hkeys : OrderedMap.keys record.reread.payload = OrderedMap.keys record.payload := by
    change OrderedMap.keys (Value.rereadFields record.payload) = _
    rw [Value.rereadFields_eq]
    simp [OrderedMap.keys, Function.comp_def]
  rw [hkeys]
  exact h.nodup

/-- The records of an attempt are records of its scope. -/
lemma isRecord_of_mem {scope : ScopeConfig} {a : Attempt} {record : SourceRecord}
    (h : record ∈ a.records scope) : IsRecord scope record := by
  have hfetched : ∀ record ∈ (sourceRecords scope a.fetchedAt a.messages).toOption.getD [],
      IsRecord scope record := by
    intro record hrecord
    cases hrecords : sourceRecords scope a.fetchedAt a.messages with
    | error e =>
        rw [hrecords] at hrecord
        cases hrecord
    | ok records =>
        rw [hrecords] at hrecord
        change record ∈ records at hrecord
        rw [(sourceRecords_ok hrecords).2] at hrecord
        obtain ⟨event, hevent, rfl⟩ := List.mem_map.mp hrecord
        obtain ⟨raw, -, hraw⟩ := List.mem_filterMap.mp (mem_of_mem_byEventId hevent)
        have hnormal := Lists.eq_ok_of_isSome (Option.isSome_of_mem hraw) event
        rw [hraw] at hnormal
        exact isRecord_sourceRecord (nodup_of_normalize hnormal).1
  have hmem := List.mem_of_mem_take h
  split_ifs at hmem
  · obtain ⟨read, hread, rfl⟩ := List.mem_map.mp hmem
    exact (hfetched read hread).reread
  · exact hfetched record hmem

/-! ### Facts of records -/

variable {scope : ScopeConfig}

/-- The row of a record. -/
def rowOf (scope : ScopeConfig) (sourceCursor : Option String) (record : SourceRecord) : Fact :=
  .ofRecord (factId (factIdentity scope.scopeId record)) (factType record)
    (.object [("source_id", .string scope.scopeId), ("source_record_id", .string record.recordId),
      ("source_version", (OrderedMap.get record.provenance "sourceVersion").getD .null),
      ("source_cursor", nullable sourceCursor),
      ("observed_at",
        .string (((OrderedMap.get record.provenance "observedAt").bind Value.asStr).getD ""))])
    (factPayload record).text

section

omit [FloatRead] [Lowercase]

lemma factForRecord_eq {record : SourceRecord} (h : IsRecord scope record)
    (sourceCursor : Option String) :
    factForRecord record sourceCursor =
      .ok (factId (factIdentity scope.scopeId record), factType record,
        (rowOf scope sourceCursor record).provenance, (factPayload record).text) := by
  obtain ⟨observedAt, hobserved⟩ := Option.isSome_iff_exists.mp h.observed
  rw [factForRecord, h.source, rowOf, Fact.ofRecord, hobserved]
  rfl

/-- Records are ingested as their rows are inserted once. -/
lemma ingestRecords_eq {records : List SourceRecord} (h : ∀ record ∈ records, IsRecord scope record)
    (sourceCursor : Option String) (facts : List Fact) :
    ingestRecords sourceCursor facts records =
      (records.map (rowOf scope sourceCursor)).foldl (Table.insertOnce Fact.factId) facts := by
  induction records generalizing facts with
  | nil => rfl
  | cons record rest ih =>
      rw [ingestRecords, factForRecord_eq (h record List.mem_cons_self)]
      exact ih (fun other hother => h other (List.mem_cons_of_mem _ hother)) _

end

/-- The rows that a run of attempts inserts. -/
def rowsOf (scope : ScopeConfig) (attempts : List Attempt) : List Fact :=
  attempts.flatMap fun a => (a.records scope).map (rowOf scope a.nextCheckpoint)

lemma factsOf_eq (attempts : List Attempt) :
    factsOf scope attempts = (rowsOf scope attempts).foldl (Table.insertOnce Fact.factId) [] := by
  have hrun : ∀ facts, attempts.foldl (ingest scope) facts =
      (rowsOf scope attempts).foldl (Table.insertOnce Fact.factId) facts := by
    induction attempts with
    | nil => exact fun _ => rfl
    | cons a rest ih =>
        intro facts
        have hcons : rowsOf scope (a :: rest) =
            (a.records scope).map (rowOf scope a.nextCheckpoint) ++ rowsOf scope rest :=
          List.flatMap_cons
        rw [List.foldl_cons, ih, hcons, List.foldl_append, ingest,
          ingestRecords_eq fun record hrecord => isRecord_of_mem hrecord]
  exact hrun []

/-- The records that a run of attempts ingests. -/
def ingested (scope : ScopeConfig) (attempts : List Attempt) : List SourceRecord :=
  attempts.flatMap (Attempt.records scope)

lemma isRecord_of_mem_ingested {attempts : List Attempt} :
    ∀ record ∈ ingested scope attempts, IsRecord scope record := by
  intro record h
  obtain ⟨a, -, hrecord⟩ := List.mem_flatMap.mp h
  exact isRecord_of_mem hrecord

lemma mem_rowsOf {attempts : List Attempt} {f : Fact} :
    f ∈ rowsOf scope attempts → ∃ record ∈ ingested scope attempts,
      f.factId = factId (factIdentity scope.scopeId record) ∧
      f.subject = (some scope.scopeId, some record.recordId) := by
  intro h
  obtain ⟨a, ha, hf⟩ := List.mem_flatMap.mp h
  obtain ⟨record, hrecord, rfl⟩ := List.mem_map.mp hf
  exact ⟨record, List.mem_flatMap.mpr ⟨a, ha, hrecord⟩, rfl, rfl⟩

lemma exists_mem_rowsOf {attempts : List Attempt} {record : SourceRecord}
    (h : record ∈ ingested scope attempts) : ∃ f ∈ rowsOf scope attempts,
      f.factId = factId (factIdentity scope.scopeId record) ∧
      f.subject = (some scope.scopeId, some record.recordId) := by
  obtain ⟨a, ha, hrecord⟩ := List.mem_flatMap.mp h
  exact ⟨_, List.mem_flatMap.mpr ⟨a, ha, List.mem_map_of_mem hrecord⟩, rfl, rfl⟩

/-! ### Names and events -/

/-- Among records, one name is given to one identity only. -/
def NoCollision (scope : ScopeConfig) (records : List SourceRecord) : Prop :=
  ∀ record ∈ records, ∀ other ∈ records,
    factId (factIdentity scope.scopeId record) = factId (factIdentity scope.scopeId other) →
    (factIdentity scope.scopeId record).canonicalText =
      (factIdentity scope.scopeId other).canonicalText

/-- Two records carry one event, but for the order of its keys. -/
def SameEvent (record other : SourceRecord) : Prop :=
  (Value.object record.payload).canonicalize = (Value.object other.payload).canonicalize

section

omit [FloatText] [FloatRead] [Lowercase]

lemma SameEvent.text {record other : SourceRecord} (h : SameEvent record other)
    (hrecord : (OrderedMap.keys record.payload).Nodup)
    (hother : (OrderedMap.keys other.payload).Nodup) (key : String) :
    eventText record.payload key = eventText other.payload key := by
  have hget := congrArg (fun v => v.get key) h
  rw [Value.get_canonicalize hrecord, Value.get_canonicalize hother] at hget
  have htext (v : Value) : v.canonicalize.asStr = v.asStr := by
    cases v <;> simp [Value.canonicalize, Value.asStr]
  have hbind := congrArg (fun o => Option.bind o Value.asStr) hget
  simpa [Option.bind_map, Function.comp_def, htext, Value.get, eventText] using hbind

/-- The canonical form of an identity tells the record and its event, and no more. -/
lemma canonicalize_factIdentity_iff {record other : SourceRecord} (sourceId : String)
    (hrecord : (OrderedMap.keys record.payload).Nodup)
    (hother : (OrderedMap.keys other.payload).Nodup) :
    (factIdentity sourceId record).canonicalize = (factIdentity sourceId other).canonicalize ↔
      record.recordId = other.recordId ∧ SameEvent record other := by
  have hidentity (r : SourceRecord) : (OrderedMap.keys [("fact_type", Value.string (factType r)),
      ("source_id", .string sourceId), ("source_record_id", .string r.recordId),
      ("payload", factPayload r)]).Nodup := by simp [OrderedMap.keys]
  have hpayload (r : SourceRecord) : (OrderedMap.keys [("record_id", Value.string r.recordId),
      ("event", .object r.payload)]).Nodup := by simp [OrderedMap.keys]
  constructor
  · intro h
    have hid := congrArg (fun v => v.get "source_record_id") h
    have hinner := congrArg (fun v => v.get "payload") h
    rw [factIdentity, factIdentity, Value.get_canonicalize (hidentity record),
      Value.get_canonicalize (hidentity other)] at hid hinner
    have hcontent := Option.some.inj hinner
    have hevent := congrArg (fun v => v.get "event") hcontent
    rw [factPayload, factPayload, Value.get_canonicalize (hpayload record),
      Value.get_canonicalize (hpayload other)] at hevent
    have hname : (Value.string record.recordId).canonicalize =
        (Value.string other.recordId).canonicalize := Option.some.inj hid
    rw [Value.canonicalize, Value.canonicalize] at hname
    exact ⟨Value.string.inj hname, Option.some.inj hevent⟩
  · rintro ⟨hid, hevent⟩
    have htype : factType record = factType other := by
      rw [factType, factType, hevent.text hrecord hother]
    have hcontent : (factPayload record).canonicalize = (factPayload other).canonicalize := by
      rw [factPayload, factPayload, Value.canonicalize, Value.canonicalize]
      refine congrArg Value.object (Value.canonicalizeFields_congr ?_)
      rw [hid, List.map_cons, List.map_cons, List.map_cons, List.map_cons, hevent]
    rw [factIdentity, factIdentity, Value.canonicalize, Value.canonicalize]
    refine congrArg Value.object (Value.canonicalizeFields_congr ?_)
    simp only [List.map_cons, List.map_nil, htype, hid, hcontent]

end

omit [FloatRead] [Lowercase] in
/-- **Records have one fact exactly if they have one id and one event.** -/
lemma factId_eq_iff (hf : FloatText.Lawful) {records : List SourceRecord}
    (hrecords : ∀ record ∈ records, IsRecord scope record) (hnone : NoCollision scope records)
    {record other : SourceRecord} (hmem : record ∈ records) (hother : other ∈ records) :
    factId (factIdentity scope.scopeId record) = factId (factIdentity scope.scopeId other) ↔
      record.recordId = other.recordId ∧ SameEvent record other := by
  rw [← canonicalize_factIdentity_iff scope.scopeId (hrecords _ hmem).nodup
    (hrecords _ hother).nodup]
  constructor
  · exact fun h => Value.canonicalText_injective hf (hnone record hmem other hother h)
  · intro h
    rw [factId, factId, Value.canonicalText, Value.canonicalText, h]

/-! ### One fact for one record -/

omit [FloatRead] in
/-- A message state that is fetched twice has one fact exactly if it is fetched at one time. -/
lemma factId_twice_iff (hf : FloatText.Lawful) {raw : Value} {t t' : String} {event event' : Map}
    (h : normalizeGraphEvent scope raw t = .ok event)
    (h' : normalizeGraphEvent scope raw t' = .ok event')
    (hnone : NoCollision scope [sourceRecord scope t event, sourceRecord scope t' event']) :
    factId (factIdentity scope.scopeId (sourceRecord scope t event)) =
      factId (factIdentity scope.scopeId (sourceRecord scope t' event')) ↔ t = t' := by
  obtain ⟨hevent, hobserved⟩ := nodup_of_normalize h
  obtain ⟨hevent', hobserved'⟩ := nodup_of_normalize h'
  have hrecords : ∀ record ∈ [sourceRecord scope t event, sourceRecord scope t' event'],
      IsRecord scope record := by
    intro record hrecord
    rcases List.mem_pair.mp hrecord with rfl | rfl
    · exact isRecord_sourceRecord hevent
    · exact isRecord_sourceRecord hevent'
  rw [factId_eq_iff hf hrecords hnone List.mem_cons_self
    (List.mem_cons_of_mem _ List.mem_cons_self)]
  constructor
  · rintro ⟨-, hsame⟩
    have htext := hsame.text hevent hevent' "observed_at"
    exact Option.some.inj (hobserved.symm.trans (htext.trans hobserved'))
  · rintro rfl
    obtain rfl : event = event' := Except.ok.inj (h.symm.trans h')
    exact ⟨rfl, rfl⟩

/-- Rows of one name are about one record. -/
lemma subject_of_factId (hf : FloatText.Lawful) {attempts : List Attempt}
    (hnone : NoCollision scope (ingested scope attempts)) {f f' : Fact}
    (h : f ∈ rowsOf scope attempts) (h' : f' ∈ rowsOf scope attempts)
    (hid : f.factId = f'.factId) : f.subject = f'.subject := by
  obtain ⟨record, hrecord, hname, hsubject⟩ := mem_rowsOf h
  obtain ⟨other, hother, hname', hsubject'⟩ := mem_rowsOf h'
  rw [hname, hname'] at hid
  have hsame := (factId_eq_iff hf isRecord_of_mem_ingested hnone hrecord hother).mp hid
  rw [hsubject, hsubject', hsame.1]

/-- **One fact for one record.** A message state that is fetched twice has one event id, and it has
one fact exactly if it is fetched at one time. A run of attempts leaves one fact for a record
exactly if it ingests one event under an event id. -/
theorem one_fact_iff (hf : FloatText.Lawful) :
    (∀ (raw : Value) (t t' : String) (event event' : Map) (cursor cursor' : Option String),
      normalizeGraphEvent scope raw t = .ok event →
      normalizeGraphEvent scope raw t' = .ok event' →
      NoCollision scope [sourceRecord scope t event, sourceRecord scope t' event'] →
      (sourceRecord scope t event).recordId = (sourceRecord scope t' event').recordId ∧
      ((factForRecord (sourceRecord scope t event) cursor).map Prod.fst =
        (factForRecord (sourceRecord scope t' event') cursor').map Prod.fst ↔ t = t')) ∧
    ∀ attempts, NoCollision scope (ingested scope attempts) →
      (((factsOf scope attempts).map Fact.subject).Nodup ↔
        ∀ record ∈ ingested scope attempts, ∀ other ∈ ingested scope attempts,
          record.recordId = other.recordId → SameEvent record other) := by
  constructor
  · intro raw t t' event event' cursor cursor' h h' hnone
    have hname : (sourceRecord scope t event).recordId =
        (sourceRecord scope t' event').recordId := by
      rw [sourceRecord, sourceRecord, normalizeGraphEvent_twice h h']
    refine ⟨hname, ?_⟩
    rw [factForRecord_eq (isRecord_sourceRecord (nodup_of_normalize h).1),
      factForRecord_eq (isRecord_sourceRecord (nodup_of_normalize h').1),
      ← factId_twice_iff hf h h' hnone]
    exact ⟨Except.ok.inj, congrArg _⟩
  · intro attempts hnone
    rw [factsOf_eq, Table.nodup_insertOnce_iff fun f hf' f' => subject_of_factId hf hnone hf']
    constructor
    · intro h record hrecord other hother hname
      obtain ⟨f, hmem, hid, hsubject⟩ := exists_mem_rowsOf hrecord
      obtain ⟨f', hmem', hid', hsubject'⟩ := exists_mem_rowsOf hother
      have hone := h f hmem f' hmem' (by rw [hsubject, hsubject', hname])
      rw [hid, hid', factId_eq_iff hf isRecord_of_mem_ingested hnone hrecord hother] at hone
      exact hone.2
    · intro h f hmem f' hmem' hsubjects
      obtain ⟨record, hrecord, hid, hsubject⟩ := mem_rowsOf hmem
      obtain ⟨other, hother, hid', hsubject'⟩ := mem_rowsOf hmem'
      rw [hsubject, hsubject'] at hsubjects
      have hname : record.recordId = other.recordId :=
        Option.some.inj (Prod.mk.inj hsubjects).2
      rw [hid, hid']
      exact (factId_eq_iff hf isRecord_of_mem_ingested hnone hrecord hother).mpr
        ⟨hname, h record hrecord other hother hname⟩

end Facts

/-! ### A removal that is fetched again -/

/-- The time of a second fetch. -/
def evening : String := "2026-01-01T18:00:00.000Z"

/-- An attempt that finds a message gone, and ingests it. -/
def findsGone (fetchedAt : String) : Attempt where
  messages := [departed]
  fetchedAt
  nextCheckpoint := none
  fromArtifact := false
  reached := 1

/-- A removal that is ingested again behind the fetch that found it has one fact. -/
theorem one_fact_retried :
    letI := FloatText.fields
    letI : FloatRead := ⟨id⟩
    letI : Lowercase := ⟨id⟩
    ((factsOf publicScope [findsGone noon, findsGone noon]).map Fact.subject).Nodup := by
  let _ : FloatText := FloatText.fields
  let _ : FloatRead := ⟨id⟩
  let _ : Lowercase := ⟨id⟩
  have hone : ∀ record ∈ ingested publicScope [findsGone noon, findsGone noon],
      ∀ other ∈ ingested publicScope [findsGone noon, findsGone noon], record = other := by
    intro record hrecord other hother
    obtain ⟨a, ha, hrecord⟩ := List.mem_flatMap.mp hrecord
    obtain ⟨b, hb, hother⟩ := List.mem_flatMap.mp hother
    obtain rfl : a = findsGone noon := List.eq_of_mem_replicate (n := 2) ha
    obtain rfl : b = findsGone noon := List.eq_of_mem_replicate (n := 2) hb
    have hlength : ((findsGone noon).records publicScope).length ≤ 1 := List.length_take_le _ _
    obtain ⟨i, hi, rfl⟩ := List.mem_iff_getElem.mp hrecord
    obtain ⟨j, hj, rfl⟩ := List.mem_iff_getElem.mp hother
    obtain rfl : i = j := by omega
    rfl
  have hnone : NoCollision publicScope (ingested publicScope [findsGone noon, findsGone noon]) :=
    fun record hrecord other hother _ => by rw [hone record hrecord other hother]
  refine ((one_fact_iff FloatText.fields_lawful).2 _ hnone).mpr ?_
  intro record hrecord other hother _
  rw [hone record hrecord other hother, SameEvent]

/-- A removal that is fetched at two times has two facts. -/
theorem refetched_two_facts :
    letI := FloatText.fields
    letI : FloatRead := ⟨id⟩
    letI : Lowercase := ⟨id⟩
    ¬ ∀ scope : ScopeConfig,
      (∀ (raw : Value) (t t' : String) (event event' : Map) (cursor cursor' : Option String),
        normalizeGraphEvent scope raw t = .ok event →
        normalizeGraphEvent scope raw t' = .ok event' →
        eventText event "event_id" = eventText event' "event_id" ∧
        (factForRecord (sourceRecord scope t event) cursor).map Prod.fst =
          (factForRecord (sourceRecord scope t' event') cursor').map Prod.fst) ∧
      ∀ attempts : List Attempt, ((factsOf scope attempts).map Fact.subject).Nodup := by
  let _ : FloatText := FloatText.fields
  let _ : FloatRead := ⟨id⟩
  let _ : Lowercase := ⟨id⟩
  intro h
  have htwo : ¬ ((factsOf publicScope [findsGone noon, findsGone evening]).map
      Fact.subject).Nodup := by decide +kernel
  exact htwo ((h publicScope).2 _)

end Mailbox

end McpSurfaces
