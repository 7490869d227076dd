import McpSurfaces.Json.Reread
import McpSurfaces.Mailbox.Normalize

/-!
The projection of a mailbox on disk: `process_batch` and `project_record`, with what they write
under `messages`, `tombstones`, `blobs`, `views` and `state/apply-log`.

* `Projection`: the directories, each as a function from names. `messages` holds the record of
  each message; the files beside it are not read again.
* `projectRecord`, `applyRecord`, `processBatch`: an event, an event behind its apply marker, and
  the events of a batch.
-/

namespace McpSurfaces

namespace Mailbox

/-! ### Directories -/

/-- A directory: its entries by name. -/
abbrev Dir (α : Type) := String → Option α

namespace Dir

variable {α : Type}

def write (d : Dir α) (name : String) (a : α) : Dir α := Function.update d name (some a)

def remove (d : Dir α) (name : String) : Dir α := Function.update d name none

lemma write_apply (d : Dir α) (name other : String) (a : α) :
    d.write name a other = if other = name then some a else d other := Function.update_apply ..

lemma remove_apply (d : Dir α) (name other : String) :
    d.remove name other = if other = name then none else d other := Function.update_apply ..

end Dir

/-- The root directory of a scope. A view entry is a link to the directory of a message, here its
name. -/
structure Projection where
  messages : Dir Map
  tombstones : Dir Value
  blobs : Dir (List UInt8)
  byThread : String → Dir String
  byFolder : String → Dir String
  unread : Dir String
  flagged : Dir String
  applied : Dir Value

/-- A fresh root. -/
def Projection.empty : Projection where
  messages _ := none
  tombstones _ := none
  blobs _ := none
  byThread _ _ := none
  byFolder _ _ := none
  unread _ := none
  flagged _ := none
  applied _ := none

/-- The message id of a payload or of a record. -/
def idOf (fields : Map) : String :=
  ((OrderedMap.get fields "message_id").bind Value.asStr).getD ""

/-! ### Merging -/

/-- `has_meaningful_value`. -/
def hasMeaningfulValue : Value → Bool
  | .string text => !(Str.trim text).isEmpty
  | .array items => !items.isEmpty
  | .object fields => !fields.isEmpty
  | .null => false
  | _ => true

/-- A field that an incoming payload says nothing about is kept. -/
def keepMeaningful (existing incoming : Map) (merged : Map) (key : String) : Map :=
  if ((OrderedMap.get incoming key).map hasMeaningfulValue).getD false then merged
  else insertSome merged key (OrderedMap.get existing key)

/-- A list for which an incoming payload has no items is kept. -/
def keepItems (existing incoming : Map) (merged : Map) (key : String) : Map :=
  if (((OrderedMap.get incoming key).bind Value.asArray).map List.isEmpty).getD true then
    insertSome merged key ((((OrderedMap.get existing key).bind Value.asArray).filter
      fun items => !items.isEmpty).map .array)
  else merged

/-- The content of a body is kept where the incoming one is empty. -/
def keepBody (existing incoming merged : Map) : Map :=
  if ((OrderedMap.get incoming "body").bind (Value.get · "body_kind")).bind Value.asStr =
      some "empty" then
    match (OrderedMap.get existing "body").bind Value.asObject with
    | some old =>
        if (OrderedMap.get old "text").isSome || (OrderedMap.get old "html").isSome then
          OrderedMap.insert merged "body" (.object
            (["body_kind", "text", "html", "content_hashes"].foldl
              (fun body key => insertSome body key (OrderedMap.get old key))
              (((OrderedMap.get incoming "body").bind Value.asObject).getD [])))
        else merged
    | none => merged
  else merged

/-- The extensions of the source in a payload. -/
def graphOf (payload : Map) : Option Map :=
  (((OrderedMap.get payload "source_extensions").bind (Value.get · "namespaces")).bind
    (Value.get · "graph")).bind Value.asObject

/-- `Map::extend`. -/
def extend (target : Map) (fields : Map) : Map :=
  fields.foldl (fun target e => OrderedMap.insert target e.1 e.2) target

/-- The extensions of the source are kept under the incoming ones. -/
def keepExtensions (existing incoming merged : Map) : Map :=
  match graphOf existing, graphOf incoming with
  | some old, some new =>
      OrderedMap.insert merged "source_extensions"
        (.object [("namespaces", .object [("graph", .object (extend old new))])])
  | _, _ => merged

/-- `merge_message_payload`, of what is there with what comes in. -/
def mergeMessagePayload (existing : Option Map) (incoming : Map) : Map :=
  match existing with
  | none => incoming
  | some existing =>
      if OrderedMap.get existing "message_id" ≠ OrderedMap.get incoming "message_id" then incoming
      else
        let merged := extend existing incoming
        let described := ["conversation_id", "internet_message_id", "subject", "from", "sender",
          "received_at", "sent_at", "created_at", "last_modified_at"].foldl
            (keepMeaningful existing incoming) merged
        let addressed := ["reply_to", "to", "cc", "bcc", "attachments"].foldl
          (keepItems existing incoming) described
        keepExtensions existing incoming (keepBody existing incoming addressed)

/-! ### Messages -/

section Writing

variable [FloatText] [FloatRead]

/-- The record of a merged payload. -/
def messageRecord (merged : Map) : Map :=
  let body := OrderedMap.get merged "body"
  let text := (body.bind (Value.get · "text")).map fun _ => Value.string "body/body.txt"
  let html := (body.bind (Value.get · "html")).map fun _ => Value.string "body/body.html"
  let record := OrderedMap.insert (OrderedMap.insert (OrderedMap.insert merged
    "body_refs" (.object (insertSome (insertSome [] "text" text) "html" html)))
    "attachment_manifest_ref" (.string "attachments/manifest.json"))
    "_checksum" (.string "")
  OrderedMap.insert record "_checksum"
    (.string (String.ofList ((sha256Hex (Value.object record).text).toList.take 16)))

/-- What reading the record of a message gives. -/
def existingRecord (p : Projection) (name : String) : Option Map :=
  (p.messages name).map Value.rereadFields

/-- The attachments of a payload. -/
def attachmentsOf (payload : Map) : List Value :=
  ((OrderedMap.get payload "attachments").bind Value.asArray).getD []

/-- The inline content of an attachment. -/
def inlineContent (attachment : Value) : Option String :=
  ((attachment.get "content_ref").bind Value.asStr).bind fun text =>
    if Str.startsWith text "inline-base64:" then
      some (String.ofList (text.toList.drop "inline-base64:".length))
    else none

/-- An attachment whose inline content is put under `blobs`. -/
def installBlob (blobs : Dir (List UInt8)) (attachment : Value) :
    Except Value (Dir (List UInt8)) :=
  match inlineContent attachment with
  | none => .ok blobs
  | some content =>
      (decodeBase64 content).map fun bytes =>
        if (blobs (Sha2.sha256 bytes)).isSome then blobs else blobs.write (Sha2.sha256 bytes) bytes

/-- `install_blobs`. -/
def installBlobs (payload : Map) (p : Projection) : Except Value Projection :=
  ((attachmentsOf payload).foldlM installBlob p.blobs).map fun blobs => { p with blobs }

/-- A name that every directory has an entry of its own for. -/
def Reserved (name : String) : Prop := name = "." ∨ name = ".."

instance (name : String) : Decidable (Reserved name) := inferInstanceAs (Decidable (_ ∨ _))

/-- `write_message_projection`. -/
def writeMessageProjection (payload : Map) (p : Projection) : Except Value Projection :=
  match (OrderedMap.get payload "message_id").bind Value.asStr with
  | none =>
      .error (refusal "mailbox_projection_message_id_missing"
        "mailbox_projection_message_id_missing")
  | some messageId => do
      let merged := mergeMessagePayload (existingRecord p (safeSegment messageId)) payload
      let _ ← (attachmentsOf merged).mapM fun attachment =>
        (inlineContent attachment).mapM decodeBase64
      -- an entry for the directory itself is not renamed
      if Reserved (safeSegment messageId) then
        .error (refusal "mailbox_projection_message_replace_failed"
          "Device or resource busy (os error 16)")
      else
        return { p with
          messages := p.messages.write (safeSegment messageId) (messageRecord merged) }

/-- `write_tombstone`: what it writes. -/
def tombstone (event : Map) : Value :=
  .object (OrderedMap.insert (insertSome
    [("message_id", .string ((eventText event "message_id").getD "")),
      ("mailbox_id", (OrderedMap.get event "mailbox_id").getD .null),
      ("deleted_by_event_id", (OrderedMap.get event "event_id").getD .null)]
    "source_version" (OrderedMap.get event "source_version"))
    "observed_at" ((OrderedMap.get event "observed_at").getD .null))

/-! ### Views -/

/-- Whether a flag of a payload is set. -/
def flagSet (payload : Map) (flag : String) : Bool :=
  decide ((((OrderedMap.get payload "flags").bind (Value.get · flag)).bind Value.asBool) =
    some true)

/-- The conversation that a payload is filed under. -/
def conversationOf (payload : Map) : Option String :=
  ((OrderedMap.get payload "conversation_id").bind Value.asStr).filter fun text => !text.isEmpty

/-- The folders that a payload is filed under. -/
def foldersOf (payload : Map) : List String :=
  (((OrderedMap.get payload "folder_refs").bind Value.asArray).getD []).filterMap Value.asStr

/-- A link among the members of a group. -/
def linkMember (messageId : String) (groups : String → Dir String) (group : String) :
    String → Dir String :=
  Function.update groups (viewSegment group)
    ((groups (viewSegment group)).write (viewSegment messageId) (safeSegment messageId))

/-- An entry that is there exactly with a condition. -/
def markEntry (messageId : String) (member : Bool) (entries : Dir String) : Dir String :=
  if member then entries.write (viewSegment messageId) (safeSegment messageId)
  else entries.remove (viewSegment messageId)

/-- `mark_views`, for a payload with its message id. -/
def markViews (payload : Map) (messageId : String) (p : Projection) : Projection :=
  { p with
    byThread := (conversationOf payload).toList.foldl (linkMember messageId) p.byThread
    byFolder := (foldersOf payload).foldl (linkMember messageId) p.byFolder
    unread := markEntry messageId (!flagSet payload "is_read") p.unread
    flagged := markEntry messageId (flagSet payload "is_flagged") p.flagged }

/-! ### Events -/

/-- `remove_path` of a tombstone, or what is written there. -/
def Projection.bury (scope : ScopeConfig) (messageId : String) (left : Option Value)
    (p : Projection) : Projection :=
  if scope.tombstonesEnabled then
    { p with tombstones := Function.update p.tombstones (safeSegment messageId) left }
  else p

/-- The branch of `project_record` for an upsert. -/
def projectUpsert (scope : ScopeConfig) (record : SourceRecord) (messageId : String)
    (p : Projection) : Except Value Projection :=
  match OrderedMap.get record.payload "payload" with
  | none =>
      .error (refusal "mailbox_projection_payload_missing"
        ("Upsert event " ++ record.recordId ++ " is missing payload"))
  | some value => do
      let payload := value.asObject.getD []
      let p ← installBlobs payload p
      let p ← writeMessageProjection payload p
      return markViews payload (((OrderedMap.get payload "message_id").bind Value.asStr).getD "")
        (p.bury scope messageId none)

/-- The branch of `project_record` for a removal. -/
def projectRemoval (scope : ScopeConfig) (record : SourceRecord) (messageId : String)
    (p : Projection) : Except Value Projection :=
  -- the contents of `messages` are gone then, but not the directory
  if Reserved (safeSegment messageId) then
    .error (refusal "mailbox_projection_message_remove_failed"
      (if safeSegment messageId = "." then "Invalid argument (os error 22)"
        else "Directory not empty (os error 39)"))
  else
    let buried := p.bury scope messageId (some (tombstone record.payload))
    .ok { buried with
      messages := p.messages.remove (safeSegment messageId)
      unread := p.unread.remove (safeSegment messageId)
      flagged := p.flagged.remove (safeSegment messageId) }

/-- `project_record`, which answers `true` where it returns. -/
def projectRecord (scope : ScopeConfig) (record : SourceRecord) (p : Projection) :
    Except Value Projection :=
  let kind := (eventText record.payload "event_kind").getD ""
  match eventText record.payload "message_id" with
  | none =>
      .error (refusal "mailbox_projection_message_id_missing"
        "mailbox_projection_message_id_missing")
  | some messageId =>
      if kind = "upsert" ∨ kind = "created" ∨ kind = "updated" then
        projectUpsert scope record messageId p
      else if kind = "delete" ∨ kind = "deleted" then projectRemoval scope record messageId p
      else
        .error (refusal "mailbox_projection_event_kind_unknown" ("Unknown event kind: " ++ kind))

/-! ### Batches -/

/-- `validate_apply_marker`. -/
def validateApplyMarker (marker : Value) : Except Value Unit :=
  if ["event_id", "message_id", "event_kind", "applied_at"].all fun key =>
      (optionalString (marker.get key)).isSome then .ok ()
  else .error (refusal "mailbox_apply_marker_invalid" "mailbox_apply_marker_invalid")

/-- What `write_apply_marker` writes. -/
def applyMarker (record : SourceRecord) (now : String) : Value :=
  .object [("event_id", .string record.recordId),
    ("message_id", .string ((eventText record.payload "message_id").getD "")),
    ("event_kind", .string ((eventText record.payload "event_kind").getD "upsert")),
    ("applied_at", .string now)]

/-- A record of `process_batch`: nothing behind a marker, otherwise the projection and a marker. -/
def applyRecord (scope : ScopeConfig) (now : String) (p : Projection) (record : SourceRecord) :
    Except Value Projection :=
  match p.applied record.recordId with
  | some marker => (validateApplyMarker marker).map fun _ => p
  | none => do
      let p ← projectRecord scope record p
      return { p with applied := p.applied.write record.recordId (applyMarker record now) }

/-- The records of `process_batch`. -/
def processBatch (scope : ScopeConfig) (now : String) (records : List SourceRecord)
    (p : Projection) : Except Value Projection :=
  records.foldlM (applyRecord scope now) p

/-- An entry of the source on its own, from its event to the projection. -/
def projectEntry [Lowercase] (scope : ScopeConfig) (observedAt : String) (p : Projection)
    (raw : Value) : Except Value Projection := do
  let event ← normalizeGraphEvent scope raw observedAt
  projectRecord scope (sourceRecord scope observedAt event) p

end Writing

/-! ### What a record keeps -/

lemma get_extend {fields : Map} (hnodup : (OrderedMap.keys fields).Nodup) (target : Map)
    (key : String) : OrderedMap.get (extend target fields) key =
      (OrderedMap.get fields key).or (OrderedMap.get target key) := by
  induction fields generalizing target with
  | nil => rfl
  | cons e rest ih =>
      obtain ⟨hnew, hrest⟩ := List.nodup_cons.mp hnodup
      have hstep : extend target (e :: rest) = extend (OrderedMap.insert target e.1 e.2) rest := rfl
      rw [hstep, ih hrest, OrderedMap.get_insert, OrderedMap.get_cons]
      by_cases hkey : e.1 = key
      · subst hkey
        rw [if_pos rfl, if_pos rfl, OrderedMap.get_eq_none_iff.mpr hnew]
        rfl
      · rw [if_neg hkey, if_neg hkey]

/-- A fold that only touches the keys it goes over leaves what another key holds. -/
lemma get_foldl_of_notMem {f : Map → String → Map} {key : String} {keys : List String}
    (hf : ∀ m k, k ≠ key → OrderedMap.get (f m k) key = OrderedMap.get m key) (hkeys : key ∉ keys)
    (m : Map) : OrderedMap.get (keys.foldl f m) key = OrderedMap.get m key := by
  induction keys generalizing m with
  | nil => rfl
  | cons k rest ih =>
      have hne : k ≠ key := fun h => hkeys (h ▸ List.mem_cons_self)
      rw [List.foldl_cons, ih fun h => hkeys (List.mem_cons_of_mem _ h), hf m k hne]

section Merged

variable {existing incoming : Map} {key : String}

lemma get_keepMeaningful (m : Map) {k : String} (h : k ≠ key) :
    OrderedMap.get (keepMeaningful existing incoming m k) key = OrderedMap.get m key := by
  unfold keepMeaningful
  split_ifs
  · rfl
  · rw [get_insertSome, if_neg h]

lemma get_keepItems (m : Map) {k : String} (h : k ≠ key) :
    OrderedMap.get (keepItems existing incoming m k) key = OrderedMap.get m key := by
  unfold keepItems
  split_ifs
  · rw [get_insertSome, if_neg h]
  · rfl

lemma get_keepBody (m : Map) (h : "body" ≠ key) :
    OrderedMap.get (keepBody existing incoming m) key = OrderedMap.get m key := by
  unfold keepBody
  split_ifs
  · split
    · split_ifs
      · rw [OrderedMap.get_insert, if_neg h]
      · rfl
    · rfl
  · rfl

lemma get_keepExtensions (m : Map) (h : "source_extensions" ≠ key) :
    OrderedMap.get (keepExtensions existing incoming m) key = OrderedMap.get m key := by
  unfold keepExtensions
  split
  · rw [OrderedMap.get_insert, if_neg h]
  · rfl

/-- The fields that a record may keep from the one before it. -/
def keptFields : List String :=
  ["conversation_id", "internet_message_id", "subject", "from", "sender", "received_at", "sent_at",
    "created_at", "last_modified_at", "reply_to", "to", "cc", "bcc", "attachments", "body",
    "source_extensions"]

/-- A field that is not kept is the incoming one. -/
lemma get_mergeMessagePayload (hnodup : (OrderedMap.keys incoming).Nodup) (existing : Option Map)
    (hkey : key ∉ keptFields) {value : Value} (hvalue : OrderedMap.get incoming key = some value) :
    OrderedMap.get (mergeMessagePayload existing incoming) key = some value := by
  simp only [keptFields, List.mem_cons, List.not_mem_nil, or_false, not_or] at hkey
  unfold mergeMessagePayload
  split
  · exact hvalue
  · rename_i existing
    dsimp only
    split_ifs
    · exact hvalue
    · rw [get_keepExtensions _ (Ne.symm hkey.2.2.2.2.2.2.2.2.2.2.2.2.2.2.2),
        get_keepBody _ (Ne.symm hkey.2.2.2.2.2.2.2.2.2.2.2.2.2.2.1),
        get_foldl_of_notMem (fun m k h => get_keepItems m h) (by simp [hkey]),
        get_foldl_of_notMem (fun m k h => get_keepMeaningful m h) (by simp [hkey]),
        get_extend hnodup, hvalue, Option.some_or]

/-- The conversation of a record, where its thread does not change. -/
lemma conversation_merge (hnodup : (OrderedMap.keys incoming).Nodup)
    (hid : OrderedMap.get existing "message_id" = OrderedMap.get incoming "message_id")
    (hstays : ∀ v w, OrderedMap.get incoming "conversation_id" = some v →
      OrderedMap.get existing "conversation_id" = some w → w = v) :
    OrderedMap.get (mergeMessagePayload (some existing) incoming) "conversation_id" =
      (OrderedMap.get incoming "conversation_id").or
        (OrderedMap.get existing "conversation_id") := by
  have hmerged : OrderedMap.get (keepMeaningful existing incoming (extend existing incoming)
      "conversation_id") "conversation_id" = (OrderedMap.get incoming "conversation_id").or
        (OrderedMap.get existing "conversation_id") := by
    unfold keepMeaningful
    split_ifs
    · exact get_extend hnodup _ _
    · rw [get_insertSome, if_pos rfl, get_extend hnodup]
      cases hv : OrderedMap.get incoming "conversation_id" with
      | none => cases OrderedMap.get existing "conversation_id" <;> rfl
      | some v =>
          cases hw : OrderedMap.get existing "conversation_id" with
          | none => rfl
          | some w => rw [hstays v w hv hw]; rfl
  rw [mergeMessagePayload]
  dsimp only
  rw [if_neg (not_not.mpr hid), get_keepExtensions _ (by decide), get_keepBody _ (by decide),
    get_foldl_of_notMem (fun m k h => get_keepItems m h) (by decide), List.foldl_cons,
    get_foldl_of_notMem (fun m k h => get_keepMeaningful m h) (by decide), hmerged]

lemma get_messageRecord [FloatText] (merged : Map)
    (hkey : key ∉ ["body_refs", "attachment_manifest_ref", "_checksum"]) :
    OrderedMap.get (messageRecord merged) key = OrderedMap.get merged key := by
  simp only [List.mem_cons, List.not_mem_nil, or_false, not_or] at hkey
  simp only [messageRecord, OrderedMap.get_insert, if_neg (Ne.symm hkey.1),
    if_neg (Ne.symm hkey.2.1), if_neg (Ne.symm hkey.2.2)]

end Merged

/-! ### What an event does -/

section Cases

variable [FloatText] [FloatRead] {scope : ScopeConfig} {record : SourceRecord}
  {messageId : String} {p p' : Projection}

/-- The record that an upsert leaves at a name. -/
def upsertedRecord (p : Projection) (id : String) (payload : Map) : Map :=
  messageRecord (mergeMessagePayload (existingRecord p (safeSegment id)) payload)

/-- What an upsert leaves of the fields that no record keeps. -/
lemma upserted_fields {message payload : Map} {id : String}
    (hpayload : PayloadOf message payload)
    (hid : OrderedMap.get payload "message_id" = some (.string id)) :
    OrderedMap.get (upsertedRecord p id payload) "message_id" = some (.string id) ∧
    foldersOf (upsertedRecord p id payload) = foldersOf payload ∧
    ∀ flag, flagSet (upsertedRecord p id payload) flag = flagSet payload flag := by
  have hfield (key : String) (hkept : key ∉ keptFields)
      (hrefs : key ∉ ["body_refs", "attachment_manifest_ref", "_checksum"]) (value : Value)
      (hvalue : OrderedMap.get payload key = some value) :
      OrderedMap.get (upsertedRecord p id payload) key = some value := by
    rw [upsertedRecord, get_messageRecord _ hrefs,
      get_mergeMessagePayload hpayload.nodup _ hkept hvalue]
  refine ⟨hfield _ (by decide) (by decide) _ hid, ?_, fun flag => ?_⟩
  · rw [foldersOf, hfield _ (by decide) (by decide) _ hpayload.folders, foldersOf,
      hpayload.folders]
  · rw [flagSet, hfield _ (by decide) (by decide) _ hpayload.flags, flagSet, hpayload.flags]

/-- An upsert writes the record of its message, and its views. -/
lemma projectUpsert_ok {payload : Map}
    (hpayload : OrderedMap.get record.payload "payload" = some (.object payload))
    (h : projectUpsert scope record messageId p = .ok p') :
    ∃ id blobs, OrderedMap.get payload "message_id" = some (.string id) ∧
      p' = markViews payload id (Projection.bury scope messageId none
        { p with
          blobs
          messages := p.messages.write (safeSegment id) (upsertedRecord p id payload) }) := by
  rw [projectUpsert, hpayload] at h
  obtain ⟨q, hinstall, h⟩ := Lists.bind_eq_ok h
  obtain ⟨r, hwrite, h⟩ := Lists.bind_eq_ok h
  obtain ⟨blobs, rfl⟩ : ∃ blobs, q = { p with blobs } := by
    unfold installBlobs at hinstall
    cases hblobs : (attachmentsOf ((Value.object payload).asObject.getD [])).foldlM installBlob
        p.blobs with
    | error e => rw [hblobs] at hinstall; cases hinstall
    | ok blobs =>
        rw [hblobs] at hinstall
        exact ⟨blobs, (Except.ok.inj hinstall).symm⟩
  unfold writeMessageProjection at hwrite
  split at hwrite
  · cases hwrite
  · rename_i id hid
    have hid' : OrderedMap.get payload "message_id" = some (.string id) := by
      obtain ⟨v, hv, htext⟩ := Option.bind_eq_some_iff.mp hid
      rw [Value.asStr_eq_some.mp htext] at hv
      exact hv
    obtain ⟨-, -, hwrite⟩ := Lists.bind_eq_ok hwrite
    split_ifs at hwrite
    obtain rfl := Except.ok.inj hwrite
    refine ⟨id, blobs, hid', ?_⟩
    rw [← Except.ok.inj h]
    have hname : ((OrderedMap.get payload "message_id").bind Value.asStr).getD "" = id := by
      rw [hid']
      rfl
    simp only [Value.asObject, Option.getD_some, hname]
    rfl

omit [FloatText] [FloatRead] in
/-- A removal takes the message away, and its entries among the unread and the flagged. -/
lemma projectRemoval_ok (h : projectRemoval scope record messageId p = .ok p') :
    p' = { p.bury scope messageId (some (tombstone record.payload)) with
      messages := p.messages.remove (safeSegment messageId)
      unread := p.unread.remove (safeSegment messageId)
      flagged := p.flagged.remove (safeSegment messageId) } := by
  unfold projectRemoval at h
  split_ifs at h
  exact (Except.ok.inj h).symm

lemma projectRecord_of_removal {message event : Map} {fetchedAt : String}
    (hevent : IsRemoval scope message messageId event) :
    projectRecord scope (sourceRecord scope fetchedAt event) p =
      projectRemoval scope (sourceRecord scope fetchedAt event) messageId p := by
  have hkind : eventText (sourceRecord scope fetchedAt event).payload "event_kind" =
      some "delete" := hevent.kind
  have hid : eventText (sourceRecord scope fetchedAt event).payload "message_id" =
      some messageId := hevent.subject
  simp [projectRecord, hkind, hid]

lemma projectRecord_of_upsert [Lowercase] {message event payload : Map} {fetchedAt : String}
    (hevent : IsUpsert scope message messageId event payload) :
    projectRecord scope (sourceRecord scope fetchedAt event) p =
      projectUpsert scope (sourceRecord scope fetchedAt event) messageId p := by
  have hkind : eventText (sourceRecord scope fetchedAt event).payload "event_kind" =
      some "upsert" := hevent.kind
  have hid : eventText (sourceRecord scope fetchedAt event).payload "message_id" =
      some messageId := hevent.subject
  simp [projectRecord, hkind, hid]

end Cases

end Mailbox

end McpSurfaces
