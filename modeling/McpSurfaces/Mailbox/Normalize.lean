import McpSurfaces.Foundation.Lists
import McpSurfaces.Json.Canonical
import McpSurfaces.Mailbox.Delta

/-!
From a delta entry to an event: `normalize_graph_event`, and the batch that `fetch_graph_batch`
makes of the events.

* `normalizeGraphEvent`: an event, whose id is a digest of its identity. A removal has an identity
  of its own only as far as the entry has a version.
* **`normalize_cases`**: an event is a removal or an upsert, with what later readers take from it.
* `sourceRecords`: the events by their ids, in the order of the ids.
-/

namespace McpSurfaces

namespace Mailbox

open LedgerDomain (utf8)
open Lists (sortBy)

/-- `str::to_lowercase`, by the tables of Unicode. -/
class Lowercase where
  lower : String → String

/-! ### Fields -/

/-- `optional_string`: a text without the white space around it, where something is left. -/
def optionalString (value : Option Value) : Option String :=
  ((value.bind Value.asStr).map Str.trim).filter fun text => !text.isEmpty

/-- `insert_optional_string`. -/
def insertOptionalString (target : Map) (key : String) (value : Option Value) : Map :=
  match (value.bind Value.asStr).filter fun text => !text.isEmpty with
  | some text => OrderedMap.insert target key (.string text)
  | none => target

/-- A field that is there only with a value. -/
def insertSome (target : Map) (key : String) (value : Option Value) : Map :=
  match value with
  | some value => OrderedMap.insert target key value
  | none => target

/-- `json!` of an optional text. -/
def nullable (text : Option String) : Value := (text.map Value.string).getD .null

/-- The characters of `normalize_line_endings`. -/
def lineEndings : List Char → List Char
  | '\r' :: '\n' :: rest => '\n' :: lineEndings rest
  | '\r' :: rest => '\n' :: lineEndings rest
  | c :: rest => c :: lineEndings rest
  | [] => []

/-- `normalize_line_endings`. -/
def normalizeLineEndings (value : String) : String := String.ofList (lineEndings value.toList)

section Base64

/-- `u8::is_ascii_whitespace`. -/
def isAsciiWhitespace (byte : UInt8) : Bool :=
  byte == 32 || byte == 9 || byte == 10 || byte == 12 || byte == 13

/-- The value of a digit, the padding as 64. -/
def base64Digit (byte : UInt8) : Option UInt8 :=
  if 65 ≤ byte ∧ byte ≤ 90 then some (byte - 65)
  else if 97 ≤ byte ∧ byte ≤ 122 then some (byte - 97 + 26)
  else if 48 ≤ byte ∧ byte ≤ 57 then some (byte - 48 + 52)
  else if byte = 43 then some 62
  else if byte = 47 then some 63
  else if byte = 61 then some 64
  else none

/-- The bytes of digits, four at a time. -/
def quartets : List UInt8 → Option (List UInt8)
  | [] => some []
  | a :: b :: c :: d :: rest =>
      (quartets rest).map fun tail =>
        (a <<< 2 ||| b >>> 4) :: ((if c = 64 then [] else [b <<< 4 ||| c >>> 2]) ++
          ((if d = 64 then [] else [c <<< 6 ||| d]) ++ tail))
  | _ => none

/-- `decode_base64`. -/
def decodeBase64 (value : String) : Except Value (List UInt8) :=
  match (((utf8 value).filter fun byte => !isAsciiWhitespace byte).mapM base64Digit).bind
      quartets with
  | some bytes => .ok bytes
  | none => .error (refusal "mailbox_attachment_base64_invalid" "mailbox_attachment_base64_invalid")

end Base64

section Payload

variable [FloatText] [Lowercase]

/-- `normalize_recipient`. -/
def normalizeRecipient (value : Option Value) : Option Value :=
  match ((value.bind Value.asObject).bind (OrderedMap.get · "emailAddress")).bind
      Value.asObject with
  | none => none
  | some address =>
      let displayName := optionalString (OrderedMap.get address "name")
      let email := (optionalString (OrderedMap.get address "address")).map Lowercase.lower
      if displayName.isNone && email.isNone then none
      else
        some (.object (insertSome (insertSome [] "display_name" (displayName.map .string))
          "email" (email.map .string)))

/-- `normalize_recipients`. -/
def normalizeRecipients (value : Option Value) : Value :=
  .array (((value.bind Value.asArray).getD []).filterMap fun value =>
    normalizeRecipient (some value))

/-- A header as its lowercase name and its value. -/
def headerEntry (header : Value) : Option (String × String) := do
  let object ← header.asObject
  let name ← optionalString (OrderedMap.get object "name")
  let value ← (OrderedMap.get object "value").bind Value.asStr
  return (Lowercase.lower name, Str.trim value)

/-- `normalize_headers`: the values by name, the names in order. -/
def normalizeHeaders (value : Option Value) : Option Value :=
  match value.bind Value.asArray with
  | none => none
  | some headers =>
      let entries := headers.filterMap headerEntry
      if entries.isEmpty then none
      else
        let grouped : OrderedMap String (List (String × String)) :=
          OrderedMap.pushAll Prod.fst entries
        some (.object [("values", .object ((sortBy (fun a b => compare a.1 b.1) grouped).map
          fun group => (group.1, .array (group.2.map fun entry => .string entry.2))))])

/-- `normalize_body`. -/
def normalizeBody (body : Option Value) (policy : String) (preview : Option Value) : Value :=
  let object := body.bind Value.asObject
  let contentType := (object.bind (OrderedMap.get · "contentType")).bind Value.asStr
  let content := ((object.bind (OrderedMap.get · "content")).bind Value.asStr).getD ""
  let preview := ((preview.bind Value.asStr).filter fun text => !text.isEmpty).map
    fun text => Value.string (normalizeLineEndings text)
  let empty := Value.object (insertSome [("body_kind", .string "empty")] "preview" preview)
  let filled (kind hashField : String) : Value :=
    let text := normalizeLineEndings content
    .object (OrderedMap.insert
      (insertSome (OrderedMap.insert [("body_kind", .string kind)] kind (.string text))
        "preview" preview)
      "content_hashes" (.object [(hashField, .string (sha256Hex text))]))
  if contentType.isNone || content.isEmpty then empty
  else if contentType = some "text" || (contentType = some "html" && policy = "text_only") then
    filled "text" "text_sha256"
  else if contentType = some "html" then filled "html" "html_sha256"
  else empty

/-! ### Attachments -/

/-- `#microsoft.graph.fileAttachment`. -/
def fileAttachment : String := "#microsoft.graph.fileAttachment"

/-- `#microsoft.graph.referenceAttachment`. -/
def referenceAttachment : String := "#microsoft.graph.referenceAttachment"

/-- Fields under other names, as far as they are there. -/
def renamed (source : Map) (names : List (String × String)) (target : Map) : Map :=
  names.foldl (fun target name => insertSome target name.1 (OrderedMap.get source name.2)) target

/-- The extensions of the source, where there are any. -/
def graphExtensions (graph : Map) : Option Value :=
  if graph.isEmpty then none
  else some (.object [("namespaces", .object [("graph", .object graph)])])

/-- `attachment_extensions`. -/
def attachmentExtensions (attachment : Map) (kind : String) : Option Value :=
  let typed : Map := if kind ≠ fileAttachment then [("odata_type", .string kind)] else []
  let linked :=
    if kind = referenceAttachment then
      renamed attachment [("source_url", "sourceUrl"), ("provider_type", "providerType"),
        ("permission", "permission"), ("is_folder", "isFolder")] typed
    else typed
  graphExtensions (renamed attachment [("last_modified_at", "lastModifiedDateTime")] linked)

/-- The digest of the content of an attachment. -/
def contentHash (attachment : Map) (kind : String) : Except Value (Option String) :=
  if kind = fileAttachment then
    match ((OrderedMap.get attachment "contentBytes").bind Value.asStr).filter
        fun text => !text.isEmpty with
    | none => .ok none
    | some text => (decodeBase64 text).map fun bytes => some (Sha2.sha256 bytes)
  else .ok none

/-- What the key of an attachment is a digest of. -/
def keyMaterial (attachment : Map) (kind : String) (hash : Option String) (ordinal : ℕ) :
    List Value :=
  let id := nullable (optionalString (OrderedMap.get attachment "id"))
  let name := Value.string
    ((((OrderedMap.get attachment "name").bind Value.asStr).map Str.trim).getD "")
  let contentType := nullable (optionalString (OrderedMap.get attachment "contentType"))
  let size := (((OrderedMap.get attachment "size").bind Value.asI64).map Value.ofInt).getD .null
  if kind = fileAttachment then
    [.string "file", id, name, contentType, size, nullable hash, .ofNat ordinal]
  else if kind = referenceAttachment then
    [.string "reference", id, name, (OrderedMap.get attachment "sourceUrl").getD .null,
      (OrderedMap.get attachment "providerType").getD .null, .ofNat ordinal]
  else [.string "item", id, name, contentType, size, .ofNat ordinal]

/-- The content that an attachment refers to. -/
def contentRef (attachment : Map) (kind policy : String) : Option Value :=
  if kind = fileAttachment ∧ policy = "include_content" then
    (((OrderedMap.get attachment "contentBytes").bind Value.asStr).filter
      fun text => !text.isEmpty).map fun text => .string ("inline-base64:" ++ text)
  else if kind = referenceAttachment then
    (optionalString (OrderedMap.get attachment "sourceUrl")).map .string
  else none

/-- An attachment of a message, with its place among them. -/
def normalizeAttachment (policy : String) (entry : Value × ℕ) : Except Value Value := do
  let attachment := entry.1.asObject.getD []
  let kind := ((OrderedMap.get attachment "@odata.type").bind Value.asStr).getD ""
  let hash ← contentHash attachment kind
  let key := "att_" ++ sha256Hex (Value.array (keyMaterial attachment kind hash entry.2)).text
  let name := (((OrderedMap.get attachment "name").bind Value.asStr).map Str.trim).getD ""
  let isInline := ((OrderedMap.get attachment "isInline").bind Value.asBool).getD false
  let text (field : String) : Option Value :=
    (optionalString (OrderedMap.get attachment field)).map .string
  let identified := insertSome [("attachment_key", .string key)] "source_attachment_id" (text "id")
  let named := OrderedMap.insert (OrderedMap.insert identified "ordinal" (.ofNat entry.2))
    "display_name" (.string name)
  let sized := insertSome (insertSome named "content_type" (text "contentType")) "size_bytes"
    (((OrderedMap.get attachment "size").bind Value.asI64).map .ofInt)
  let placed := insertSome (OrderedMap.insert sized "inline" (.bool isInline)) "content_id"
    (text "contentId")
  let hashed := insertSome placed "content_hash" (hash.map .string)
  let referring := insertSome hashed "content_ref" (contentRef attachment kind policy)
  return .object (insertSome referring "source_extensions" (attachmentExtensions attachment kind))

/-- `normalize_attachments`: the attachments by their keys. -/
def normalizeAttachments (value : Option Value) (policy : String) : Except Value Value :=
  if policy = "exclude" then .ok (.array [])
  else do
    let attachments ← (((value.bind Value.asArray).getD []).zipIdx).mapM
      (normalizeAttachment policy)
    let key (attachment : Value) := (attachment.get "attachment_key").bind Value.asStr
    return .array (sortBy (fun a b => compare (key a) (key b)) attachments)

/-! ### Payloads -/

/-- `graph_message_extensions`. -/
def graphMessageExtensions (message : Map) : Option Value :=
  graphExtensions (renamed message [("raw_id", "id"), ("change_key", "changeKey"),
    ("parent_folder_id", "parentFolderId"), ("queried_folder_ref", "sourceQueriedFolderRef"),
    ("web_link", "webLink"), ("inference_classification", "inferenceClassification"),
    ("flag", "flag"), ("unique_body", "uniqueBody")] [])

/-- The folders of a payload: the folder that the message is in. -/
def folderRefs (message : Map) : List Value :=
  ((optionalString (OrderedMap.get message "parentFolderId")).map Value.string).toList

/-- The categories of a payload, in order. -/
def categoryRefs (message : Map) : List Value :=
  let categories := (((OrderedMap.get message "categories").bind Value.asArray).getD []).filterMap
    Value.asStr
  (sortBy (fun a b => compare a b) categories).map .string

/-- The truth of a field. -/
def boolField (message : Map) (key : String) : Bool :=
  ((OrderedMap.get message key).bind Value.asBool).getD false

/-- The flags of a payload. -/
def messageFlags (message : Map) : Map :=
  let status := (((OrderedMap.get message "flag").bind Value.asObject).bind
    (OrderedMap.get · "flagStatus")).bind Value.asStr
  let importance := ((OrderedMap.get message "importance").bind Value.asStr).filter fun text =>
    text = "low" || text = "normal" || text = "high"
  insertSome
    [("is_read", .bool (boolField message "isRead")),
      ("is_draft", .bool (boolField message "isDraft")),
      ("is_flagged", .bool (status = some "flagged" || status = some "complete")),
      ("has_attachments", .bool (boolField message "hasAttachments"))]
    "importance" (importance.map .string)

/-- The subject of a payload. -/
def messageSubject (message : Map) : Value :=
  match OrderedMap.get message "subject" with
  | some (.string text) => .string text
  | _ => .string ""

/-- `normalize_message_payload`. -/
def normalizeMessagePayload (scope : ScopeConfig) (message : Map) : Except Value Map := do
  match (OrderedMap.get message "id").bind Value.asStr with
  | none => .error (refusal "mailbox_graph_message_id_missing" "mailbox_graph_message_id_missing")
  | some messageId =>
      let field := OrderedMap.get message
      let identified := insertOptionalString (insertOptionalString
        [("schema_version", .ofNat 1), ("mailbox_id", .string scope.scopeId),
          ("message_id", .string messageId)]
        "conversation_id" (field "conversationId"))
        "internet_message_id" (field "internetMessageId")
      let sent := insertSome (insertSome
        (OrderedMap.insert identified "subject" (messageSubject message))
        "from" (normalizeRecipient (field "from"))) "sender" (normalizeRecipient (field "sender"))
      let received := OrderedMap.insert (OrderedMap.insert (OrderedMap.insert
        (OrderedMap.insert sent "reply_to" (normalizeRecipients (field "replyTo")))
        "to" (normalizeRecipients (field "toRecipients")))
        "cc" (normalizeRecipients (field "ccRecipients")))
        "bcc" (normalizeRecipients (field "bccRecipients"))
      let dated := insertOptionalString (insertOptionalString (insertOptionalString
        (insertOptionalString received "sent_at" (field "sentDateTime"))
        "received_at" (field "receivedDateTime")) "created_at" (field "createdDateTime"))
        "last_modified_at" (field "lastModifiedDateTime")
      let filed := OrderedMap.insert (OrderedMap.insert (OrderedMap.insert dated
        "folder_refs" (.array (folderRefs message)))
        "category_refs" (.array (categoryRefs message)))
        "flags" (.object (messageFlags message))
      let headed := if scope.includeHeaders then
          insertSome filed "headers" (normalizeHeaders (field "internetMessageHeaders"))
        else filed
      let attachments ← normalizeAttachments (field "attachments") scope.attachmentPolicy
      let written := OrderedMap.insert (OrderedMap.insert headed
        "body" (normalizeBody (field "body") scope.bodyPolicy (field "bodyPreview")))
        "attachments" attachments
      return insertSome written "source_extensions" (graphMessageExtensions message)

/-! ### Events -/

/-- The version that the source gives a message. -/
def sourceVersion (message : Map) : Option String :=
  optionalString (OrderedMap.get message "changeKey")

/-- The identity of a removal. -/
def removalIdentity (scope : ScopeConfig) (messageId : String) (sourceVersion : Option String) :
    Value :=
  .object [("scope_id", .string scope.scopeId), ("message_id", .string messageId),
    ("event_kind", .string "delete"), ("source_version", nullable sourceVersion)]

/-- The identity of an upsert: its version, or a digest of its payload. -/
def upsertIdentity (scope : ScopeConfig) (messageId : String) (sourceVersion : Option String)
    (payload : Map) : Value :=
  .object ([("scope_id", .string scope.scopeId), ("message_id", .string messageId),
    ("event_kind", .string "upsert")] ++
    match sourceVersion with
    | some version => [("source_version", .string version)]
    | none => [("payload_hash", .string (sha256Hex (Value.object payload).canonicalText))])

/-- The id of an event. -/
def eventId (identity : Value) : String := "evt_" ++ sha256Hex identity.canonicalText

/-- An event of a message, without what only an upsert has. -/
def eventFields (scope : ScopeConfig) (message : Map) (eventId messageId : String)
    (sourceVersion : Option String) (kind observedAt : String) : Map :=
  let identified := insertOptionalString
    [("schema_version", .ofNat 1), ("event_id", .string eventId),
      ("mailbox_id", .string scope.scopeId), ("message_id", .string messageId)]
    "conversation_id" (OrderedMap.get message "conversationId")
  let versioned := insertSome (OrderedMap.insert identified "source_item_id" (.string messageId))
    "source_version" (sourceVersion.map .string)
  OrderedMap.insert (OrderedMap.insert versioned "event_kind" (.string kind))
    "observed_at" (.string observedAt)

/-- `normalize_graph_event`. -/
def normalizeGraphEvent (scope : ScopeConfig) (raw : Value) (observedAt : String) :
    Except Value Map :=
  match raw.asObject with
  | none =>
      .error (refusal "mailbox_graph_delta_message_invalid" "mailbox_graph_delta_message_invalid")
  | some message =>
      match optionalString (OrderedMap.get message "id") with
      | none =>
          .error (refusal "mailbox_graph_message_id_missing" "Graph delta entry is missing id")
      | some messageId =>
          let version := sourceVersion message
          if (OrderedMap.get message "@removed").isSome then
            .ok (eventFields scope message (eventId (removalIdentity scope messageId version))
              messageId version "delete" observedAt)
          else do
            let payload ← normalizeMessagePayload scope message
            return OrderedMap.insert
              (eventFields scope message (eventId (upsertIdentity scope messageId version payload))
                messageId version "upsert" observedAt)
              "payload" (.object payload)

/-! ### Batches -/

/-- `SourceRecord`. -/
structure SourceRecord where
  recordId : String
  ordinal : Option String
  payload : Map
  provenance : Map

/-- The text under a key of an event. -/
def eventText (event : Map) (key : String) : Option String :=
  (OrderedMap.get event key).bind Value.asStr

/-- The record of an event, with what the batch adds to it. -/
def sourceRecord (scope : ScopeConfig) (fetchedAt : String) (event : Map) : SourceRecord where
  recordId := (eventText event "event_id").getD ""
  ordinal := (((OrderedMap.get event "observed_at").or (OrderedMap.get event "received_at")).bind
    Value.asStr).or (some fetchedAt)
  payload := event
  provenance := insertSome
    [("sourceId", .string scope.scopeId),
      ("observedAt", .string ((eventText event "observed_at").getD fetchedAt))]
    "sourceVersion" ((eventText event "source_version").map .string)

/-- The events of messages, one for each id, the last one under an id. -/
def graphEvents (scope : ScopeConfig) (fetchedAt : String) (messages : List Value) :
    Except Value (OrderedMap String Map) :=
  messages.foldlM (fun events message => do
    let event ← normalizeGraphEvent scope message fetchedAt
    return OrderedMap.insert events ((eventText event "event_id").getD "") event) []

/-- The records of a batch, in the order of their ids. -/
def sourceRecords (scope : ScopeConfig) (fetchedAt : String) (messages : List Value) :
    Except Value (List SourceRecord) := do
  let events ← graphEvents scope fetchedAt messages
  return (sortBy (fun a b => compare a.1 b.1) events).map fun e => sourceRecord scope fetchedAt e.2

/-- `SourceBatch`. -/
structure SourceBatch where
  records : List SourceRecord
  priorCheckpoint : Option String
  nextCheckpoint : Option String
  hasMore : Bool
  fetchedAt : String

/-- `fetch_graph_batch`. -/
def fetchGraphBatch [LedgerDomain.JsonRead] (remote : Remote) (scope : ScopeConfig)
    (checkpoint : Option String) (fetchedAt : String) : Fetch Value SourceBatch := do
  let (messages, links) ← fetchGraphMessages remote scope checkpoint
  let records ← ExceptT.mk (pure (sourceRecords scope fetchedAt messages))
  return { records, priorCheckpoint := checkpoint, nextCheckpoint := nextCheckpoint scope links,
           hasMore := false, fetchedAt }

end Payload

/-! ### What the fields hold -/

lemma get_insertSome (m : Map) (key key' : String) (value : Option Value) :
    OrderedMap.get (insertSome m key value) key' =
      if key = key' then value.or (OrderedMap.get m key') else OrderedMap.get m key' := by
  cases value with
  | none => simp [insertSome]
  | some v => simp [insertSome, OrderedMap.get_insert]

lemma get_insertOptionalString (m : Map) (key key' : String) (value : Option Value) :
    OrderedMap.get (insertOptionalString m key value) key' =
      if key = key' then
        ((((value.bind Value.asStr).filter fun text => !text.isEmpty)).map Value.string).or
          (OrderedMap.get m key')
      else OrderedMap.get m key' := by
  unfold insertOptionalString
  split
  · rename_i text htext
    simp [htext, OrderedMap.get_insert]
  · rename_i htext
    simp [htext]

lemma nodup_insertSome {m : Map} (h : (OrderedMap.keys m).Nodup) (key : String)
    (value : Option Value) : (OrderedMap.keys (insertSome m key value)).Nodup := by
  cases value with
  | none => exact h
  | some v => exact OrderedMap.nodup_keys_insert h key v

lemma nodup_insertOptionalString {m : Map} (h : (OrderedMap.keys m).Nodup) (key : String)
    (value : Option Value) : (OrderedMap.keys (insertOptionalString m key value)).Nodup := by
  unfold insertOptionalString
  split
  · exact OrderedMap.nodup_keys_insert h _ _
  · exact h

section Fields

variable {scope : ScopeConfig} {message : Map} {observedAt : String}

/-- What every event says of itself. -/
lemma eventFields_texts (scope : ScopeConfig) (message : Map)
    (id messageId kind observedAt : String) (version : Option String) :
    eventText (eventFields scope message id messageId version kind observedAt) "event_id" =
      some id ∧
    eventText (eventFields scope message id messageId version kind observedAt) "message_id" =
      some messageId ∧
    eventText (eventFields scope message id messageId version kind observedAt) "event_kind" =
      some kind ∧
    OrderedMap.get (eventFields scope message id messageId version kind observedAt) "payload" =
      none := by
  have hnil (key : String) : OrderedMap.get ([] : Map) key = none := rfl
  refine ⟨?_, ?_, ?_, ?_⟩ <;>
    simp [eventText, eventFields, OrderedMap.get_insert, get_insertSome, get_insertOptionalString,
      OrderedMap.get_cons, Value.asStr, hnil]

variable [FloatText] [Lowercase]

/-- What later readers take from the payload of a message. -/
structure PayloadOf (message payload : Map) : Prop where
  nodup : (OrderedMap.keys payload).Nodup
  messageId : OrderedMap.get payload "message_id" =
    ((OrderedMap.get message "id").bind Value.asStr).map .string
  conversation : OrderedMap.get payload "conversation_id" =
    (((OrderedMap.get message "conversationId").bind Value.asStr).filter
      fun text => !text.isEmpty).map .string
  folders : OrderedMap.get payload "folder_refs" = some (.array (folderRefs message))
  flags : OrderedMap.get payload "flags" = some (.object (messageFlags message))
  extensions : OrderedMap.get payload "source_extensions" = graphMessageExtensions message

lemma payload_of_normalize {payload : Map}
    (h : normalizeMessagePayload scope message = .ok payload) : PayloadOf message payload := by
  unfold normalizeMessagePayload at h
  split at h
  · cases h
  · rename_i text htext
    dsimp only at h
    obtain ⟨attachments, -, h⟩ := Lists.bind_eq_ok h
    obtain rfl := Except.ok.inj h
    have hnil (key : String) : OrderedMap.get ([] : Map) key = none := rfl
    refine ⟨?_, ?_, ?_, ?_, ?_, ?_⟩
    · have hstart : (OrderedMap.keys [("schema_version", Value.ofNat 1),
          ("mailbox_id", .string scope.scopeId), ("message_id", .string text)]).Nodup := by simp
      split_ifs
      all_goals
        repeat first
          | exact hstart
          | apply nodup_insertSome
          | apply nodup_insertOptionalString
          | apply OrderedMap.nodup_keys_insert
    all_goals
      split_ifs <;>
        simp [OrderedMap.get_insert, get_insertSome, get_insertOptionalString, OrderedMap.get_cons,
          htext, hnil]

/-- An event that removes the message of its entry. -/
structure IsRemoval (scope : ScopeConfig) (message : Map) (messageId : String) (event : Map) :
    Prop where
  removed : (OrderedMap.get message "@removed").isSome
  kind : eventText event "event_kind" = some "delete"
  subject : eventText event "message_id" = some messageId
  ident : eventText event "event_id" = some (eventId (removalIdentity scope messageId
    (sourceVersion message)))
  bare : OrderedMap.get event "payload" = none

/-- An event that upserts the message of its entry. -/
structure IsUpsert (scope : ScopeConfig) (message : Map) (messageId : String)
    (event payload : Map) : Prop where
  removed : OrderedMap.get message "@removed" = none
  kind : eventText event "event_kind" = some "upsert"
  subject : eventText event "message_id" = some messageId
  ident : eventText event "event_id" = some (eventId (upsertIdentity scope messageId
    (sourceVersion message) payload))
  carries : OrderedMap.get event "payload" = some (.object payload)
  payloadOf : PayloadOf message payload

/-- **An event is a removal or an upsert** of the message of its entry. -/
theorem normalize_cases {raw : Value} {event : Map}
    (h : normalizeGraphEvent scope raw observedAt = .ok event) :
    ∃ message messageId, raw = .object message ∧
      optionalString (OrderedMap.get message "id") = some messageId ∧
      (IsRemoval scope message messageId event ∨
        ∃ payload, IsUpsert scope message messageId event payload) := by
  unfold normalizeGraphEvent at h
  split at h
  · cases h
  · rename_i message hraw
    split at h
    · cases h
    · rename_i messageId hid
      refine ⟨message, messageId, Value.asObject_eq_some.mp hraw, hid, ?_⟩
      dsimp only at h
      split_ifs at h with hremoved
      · obtain rfl := Except.ok.inj h
        obtain ⟨hevent, hmessage, hkind, hbare⟩ := eventFields_texts scope message
          (eventId (removalIdentity scope messageId (sourceVersion message)))
          messageId "delete" observedAt (sourceVersion message)
        exact .inl ⟨hremoved, hkind, hmessage, hevent, hbare⟩
      · obtain ⟨payload, hpayload, h⟩ := Lists.bind_eq_ok h
        obtain rfl := Except.ok.inj h
        obtain ⟨hevent, hmessage, hkind, -⟩ := eventFields_texts scope message
          (eventId (upsertIdentity scope messageId (sourceVersion message) payload))
          messageId "upsert" observedAt (sourceVersion message)
        have hother (key : String) (fields : Map) (hkey : "payload" ≠ key) :
            eventText (OrderedMap.insert fields "payload" (.object payload)) key =
              eventText fields key := by
          rw [eventText, OrderedMap.get_insert, if_neg hkey, eventText]
        refine .inr ⟨payload, Option.not_isSome_iff_eq_none.mp hremoved, ?_, ?_, ?_, ?_,
          payload_of_normalize hpayload⟩
        · rw [hother _ _ (by decide), hkind]
        · rw [hother _ _ (by decide), hmessage]
        · rw [hother _ _ (by decide), hevent]
        · rw [OrderedMap.get_insert, if_pos rfl]

end Fields

end Mailbox

end McpSurfaces
