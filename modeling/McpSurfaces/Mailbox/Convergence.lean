import McpSurfaces.Mailbox.Cursors
import McpSurfaces.Mailbox.SourceOrder

/-!
Generations one after another against a folder that changes: whether the projected messages are
the messages of the folder.

* `Folder`, `TellsAll`, `TellsChanges`: the messages of a folder with their versions, and what a
  delta query answers without a cursor and from one.
* `Synced`: a scope between generations, with the folder as the last of them found it.
* `Unspoiled`: what changed has no apply marker yet, and what is gone is told.
* **`exact_of_unspoiled`**: in every history of unspoiled generations, the projected messages are
  those of the folder behind each of them.
* `gone_message_stays`: a message that is gone behind a stale cursor stays projected.
-/

namespace McpSurfaces

namespace Mailbox

open Calls (Each run)
open LedgerDomain (JsonRead)

/-! ### The source -/

/-- A message of the source: the object of its entry, its id and its version. -/
structure Message where
  fields : Map
  id : String
  version : String
  identified : OrderedMap.get fields "id" = some (.string id)
  plain : optionalString (OrderedMap.get fields "id") = some id
  versioned : sourceVersion fields = some version
  kept : OrderedMap.get fields "@removed" = none

/-- A folder: its messages by their ids. -/
structure Folder where
  messages : String → Option Message
  keyed : ∀ id m, messages id = some m → m.id = id

/-- A folder without messages. -/
def Folder.empty : Folder := ⟨fun _ => none, fun _ _ h => by cases h⟩

/-- The version of a message, where it is there. -/
def Folder.version (folder : Folder) (id : String) : Option String :=
  (folder.messages id).map Message.version

/-- An entry that a message is gone, without a version. -/
structure Removes (entry : Value) (id : String) : Prop where
  isObject : ∃ fields, entry = .object fields ∧
    optionalString (OrderedMap.get fields "id") = some id ∧
    (OrderedMap.get fields "@removed").isSome ∧ sourceVersion fields = none

/-- The entries of a full listing. -/
def TellsAll (folder : Folder) (entries : List Value) : Prop :=
  ∀ entry, entry ∈ entries ↔ ∃ id m, folder.messages id = some m ∧ entry = .object m.fields

/-- The entries of a query from a cursor: the messages that came or changed since then, and those
that are gone. -/
structure TellsChanges (before folder : Folder) (entries : List Value) : Prop where
  only : ∀ entry ∈ entries,
    (∃ id m, folder.messages id = some m ∧ entry = .object m.fields) ∨
      ∃ id, (before.messages id).isSome ∧ folder.messages id = none ∧ Removes entry id
  changed : ∀ id m, folder.messages id = some m → before.version id ≠ some m.version →
    .object m.fields ∈ entries
  gone : ∀ id, (before.messages id).isSome → folder.messages id = none →
    ∃ entry ∈ entries, Removes entry id

/-! ### Generations -/

/-- A scope between generations: its cursor and its projection, and the folder as the last
generation found it. -/
structure Synced where
  cursor : Option Value
  projection : Projection
  seen : Folder

/-- A scope without a cursor. -/
def Synced.start : Synced := ⟨none, .empty, .empty⟩

/-- What a generation meets: the folder and the source at the time of its fetch. -/
structure Visit where
  folder : Folder
  remote : Remote
  fetchedAt : String
  now : String

section Generations

variable [FloatText] [FloatRead] [Lowercase] [JsonRead] (scope : ScopeConfig)

/-- The cursor behind a batch. -/
def commitNext (now : String) (next : Option String) (file : Option Value) :
    Except Value (Option Value) :=
  match next with
  | some cursor => (commitCursor scope cursor now).map some
  | none => .ok file

/-- A generation that completes: `run_claimed_generation` from its cursor to the next one. -/
def generation (s : Synced) (v : Visit) : Except Value Synced := do
  let checkpoint ← readCursor scope s.cursor
  let batch ← ((fetchGraphBatch v.remote scope checkpoint v.fetchedAt).run.run noTraffic).1
  let projection ← processBatch scope v.now batch.records s.projection
  let cursor ← commitNext scope v.now batch.nextCheckpoint s.cursor
  return { cursor, projection, seen := v.folder }

/-- The state behind a generation that completes. -/
def Synced.after (s : Synced) (v : Visit) : Synced := (generation scope s v).toOption.getD s

/-- What the source answers: all messages from the base URL, the changes from the cursor. -/
structure Answers (s : Synced) (v : Visit) : Prop where
  listing : ∀ folder ∈ scope.includedContainerRefs, ∀ token t messages link t',
    walkDelta v.remote scope token (deltaUrl scope folder) folder t = (.ok (messages, link), t') →
    TellsAll v.folder messages
  changes : ∀ folder ∈ scope.includedContainerRefs, ∀ cursor,
    readCursor scope s.cursor = .ok (some cursor) → ∀ token t messages link t',
    walkDelta v.remote scope token cursor folder t = (.ok (messages, link), t') →
    TellsChanges s.seen v.folder messages

/-- A generation of a history: it completes, and the source answers as it should. -/
structure History (s : Synced) (v : Visit) : Prop where
  completes : (generation scope s v).toOption.isSome
  answers : Answers scope s v

/-! ### What spoils a generation -/

/-- The id of the event that a message is there in a version. -/
def upsertKey (id version : String) : String :=
  eventId (upsertIdentity scope id (some version) [])

/-- The id of the event that a message is gone. -/
def removalKey (id : String) : String := eventId (removalIdentity scope id none)

/-- The id of an event: with a version a message is there, without one it is gone. -/
def tidingsKey (tidings : String × Option String) : String :=
  match tidings.2 with
  | some version => upsertKey scope tidings.1 version
  | none => removalKey scope tidings.1

/-- What there is to tell of a folder since another state of it. -/
def Tidings (before folder : Folder) : Set (String × Option String) := fun tidings =>
  match tidings.2 with
  | some version => folder.version tidings.1 = some version
  | none => (before.messages tidings.1).isSome ∧ folder.messages tidings.1 = none

/-- A source that has not dropped a cursor. -/
def KnowsCursor (s : Synced) (v : Visit) : Prop :=
  ∀ folder ∈ scope.includedContainerRefs, ∀ cursor,
    readCursor scope s.cursor = .ok (some cursor) → ∀ token t t',
    walkDelta v.remote scope token cursor folder t ≠ (.error .stale, t')

/-- A generation for which no change has an apply marker from before, no message is gone behind a
stale cursor, and no two changes have one event id. -/
structure Unspoiled (s : Synced) (v : Visit) : Prop where
  fresh : ∀ id version, v.folder.version id = some version → s.seen.version id ≠ some version →
    s.projection.applied (upsertKey scope id version) = none
  gone : ∀ id, (s.seen.messages id).isSome → v.folder.messages id = none →
    s.projection.applied (removalKey scope id) = none ∧ KnowsCursor scope s v
  apart : Set.InjOn (tidingsKey scope) (Tidings s.seen v.folder)

end Generations

/-! ### Exact projections -/

/-- The version of a record. -/
def versionOf (record : Map) : Option String :=
  optionalString ((graphOf record).bind (OrderedMap.get · "change_key"))

/-- The projected messages are those of a folder, each in its version. -/
structure Exact (p : Projection) (folder : Folder) : Prop where
  present : ∀ id version, folder.version id = some version → ∃ record,
    p.messages (safeSegment id) = some record ∧ idOf record = id ∧ versionOf record = some version
  only : ∀ name record, p.messages name = some record →
    name = safeSegment (idOf record) ∧ (folder.messages (idOf record)).isSome

/-! ### What an event tells -/

section Versions

variable [FloatText] [FloatRead] [Lowercase] {payload : Map}

section

omit [FloatText] [FloatRead] [Lowercase]

lemma nodup_renamed (source : Map) (names : List (String × String)) {target : Map}
    (h : (OrderedMap.keys target).Nodup) :
    (OrderedMap.keys (renamed source names target)).Nodup := by
  induction names generalizing target with
  | nil => exact h
  | cons name rest ih => exact ih (nodup_insertSome h _ _)

/-- The extensions of a payload, with the version of its message. -/
lemma graphOf_payload {m : Message} (h : PayloadOf m.fields payload) :
    ∃ graph, graphOf payload = some graph ∧ (OrderedMap.keys graph).Nodup ∧
      OrderedMap.get graph "change_key" = OrderedMap.get m.fields "changeKey" := by
  set graph := renamed m.fields [("raw_id", "id"), ("change_key", "changeKey"),
    ("parent_folder_id", "parentFolderId"), ("queried_folder_ref", "sourceQueriedFolderRef"),
    ("web_link", "webLink"), ("inference_classification", "inferenceClassification"),
    ("flag", "flag"), ("unique_body", "uniqueBody")] [] with hgraph
  have hraw : OrderedMap.get graph "raw_id" = some (.string m.id) := by
    rw [← m.identified, hgraph]
    simp [renamed, get_insertSome]
  have hfull : graph.isEmpty = false := by
    cases hempty : graph with
    | nil =>
        rw [hempty] at hraw
        cases hraw
    | cons e rest => rfl
  refine ⟨graph, ?_, nodup_renamed _ _ List.nodup_nil, ?_⟩
  · rw [graphOf, h.extensions, graphMessageExtensions, graphExtensions, ← hgraph, hfull]
    rfl
  · rw [hgraph]
    simp [renamed, get_insertSome]

/-- A payload has the version of its message. -/
lemma versionOf_payload {m : Message} (h : PayloadOf m.fields payload) :
    versionOf payload = some m.version := by
  obtain ⟨graph, hgraph, -, hkey⟩ := graphOf_payload h
  rw [versionOf, hgraph, Option.bind_some, hkey]
  exact m.versioned

end

omit [Lowercase] in
/-- A record has the version of the last payload. -/
lemma versionOf_mergeRecord {m : Message} (h : PayloadOf m.fields payload) (old : Option Map) :
    versionOf (mergeRecord old payload) = some m.version := by
  have hrecord : versionOf (mergeRecord old payload) =
      versionOf (mergeMessagePayload (old.map Value.rereadFields) payload) := by
    rw [versionOf, versionOf, graphOf, graphOf, mergeRecord, get_messageRecord _ (by decide)]
  rw [hrecord, ← versionOf_payload h]
  cases old with
  | none => rfl
  | some record =>
      rw [Option.map_some, mergeMessagePayload]
      dsimp only
      split_ifs
      · rfl
      · obtain ⟨new, hnew, hnodup, hkey⟩ := graphOf_payload h
        unfold keepExtensions
        cases hold : graphOf (Value.rereadFields record) with
        | none =>
            rw [hnew]
            dsimp only
            rw [versionOf, versionOf, graphOf, graphOf, get_keepBody _ (by decide),
              get_foldl_of_notMem (fun m k h => get_keepItems m h) (by decide),
              get_foldl_of_notMem (fun m k h => get_keepMeaningful m h) (by decide),
              get_extend h.nodup]
            cases hextensions : OrderedMap.get payload "source_extensions" with
            | none =>
                rw [graphOf, hextensions] at hnew
                cases hnew
            | some extensions => rfl
        | some before =>
            rw [hnew]
            dsimp only
            have hmerged (fields : Map) : graphOf (OrderedMap.insert fields "source_extensions"
                (.object [("namespaces", .object [("graph", .object (extend before new))])])) =
                  some (extend before new) := by
              rw [graphOf, OrderedMap.get_insert, if_pos rfl]
              rfl
            rw [versionOf, hmerged, Option.bind_some, get_extend hnodup, versionOf, hnew,
              Option.bind_some]
            cases hversion : OrderedMap.get new "change_key" with
            | none =>
                have hsome := m.versioned
                rw [sourceVersion, ← hkey, hversion] at hsome
                cases hsome
            | some version => rfl

/-- An event that tells of a message. -/
structure TellsOf (scope : ScopeConfig) (tidings : String × Option String) (event : Map) :
    Prop where
  isEvent : IsEvent scope event
  key : eventKey event = tidingsKey scope tidings
  name : messageName event = safeSegment tidings.1
  writes : ∀ version, tidings.2 = some version → ∀ old : Option Map, ∃ record,
    (upsertPayload event).map (mergeRecord old) = some record ∧ idOf record = tidings.1 ∧
      versionOf record = some version
  removes : tidings.2 = none → upsertPayload event = none

variable {scope : ScopeConfig} {fetchedAt : String} {event : Map}

lemma tellsOf_message {m : Message}
    (h : normalizeGraphEvent scope (.object m.fields) fetchedAt = .ok event) :
    TellsOf scope (m.id, some m.version) event := by
  obtain ⟨message, messageId, hraw, hid, hcases⟩ := normalize_cases h
  obtain rfl := Value.object.inj hraw
  obtain rfl : messageId = m.id := Option.some.inj (hid.symm.trans m.plain)
  rcases hcases with hremoval | ⟨payload, hupsert⟩
  · have hkept := hremoval.removed
    rw [m.kept] at hkept
    cases hkept
  · have hpayload : upsertPayload event = some payload := by
      rw [upsertPayload, hupsert.carries]
      rfl
    have hmessage : OrderedMap.get payload "message_id" = some (.string m.id) := by
      rw [hupsert.payloadOf.messageId, m.identified]
      rfl
    have hidOf : idOf payload = m.id := by
      rw [idOf, hmessage]
      rfl
    have hkey : eventKey event = upsertKey scope m.id m.version := by
      rw [eventKey, hupsert.ident, m.versioned]
      rfl
    have hname : messageName event = safeSegment m.id := by
      rw [messageName, hpayload, Option.map_some, hidOf]
      rfl
    refine ⟨isEvent_of_normalize h, hkey, hname, fun version hversion old => ?_,
      fun hnone => (by cases hnone)⟩
    obtain rfl := Option.some.inj hversion
    refine ⟨mergeRecord old payload, by rw [hpayload]; rfl, ?_,
      versionOf_mergeRecord hupsert.payloadOf old⟩
    have hkeep : OrderedMap.get (mergeRecord old payload) "message_id" = some (.string m.id) := by
      rw [mergeRecord, get_messageRecord _ (by decide),
        get_mergeMessagePayload hupsert.payloadOf.nodup _ (by decide) hmessage]
    rw [idOf, hkeep]
    rfl

lemma tellsOf_removes {entry : Value} {id : String} (hentry : Removes entry id)
    (h : normalizeGraphEvent scope entry fetchedAt = .ok event) :
    TellsOf scope (id, none) event := by
  obtain ⟨fields, rfl, hfields, hremoved, hversion⟩ := hentry
  obtain ⟨message, messageId, hraw, hid, hcases⟩ := normalize_cases h
  obtain rfl := Value.object.inj hraw
  obtain rfl : messageId = id := Option.some.inj (hid.symm.trans hfields)
  rcases hcases with hremoval | ⟨payload, hupsert⟩
  · have hpayload : upsertPayload event = none := by
      rw [upsertPayload, hremoval.bare]
      rfl
    have hkey : eventKey event = removalKey scope messageId := by
      rw [eventKey, hremoval.ident, hversion]
      rfl
    refine ⟨isEvent_of_normalize h, hkey, ?_, fun version hsome => (by cases hsome),
      fun _ => hpayload⟩
    rw [messageName, hpayload, eventSubject, hremoval.subject]
    rfl
  · rw [hupsert.removed] at hremoved
    cases hremoved

end Versions

/-! ### What a batch does -/

section Batches

variable [FloatText] [FloatRead] [Lowercase] {scope : ScopeConfig} {fetchedAt now : String}
  {events : List Map} {p q : Projection}

omit [Lowercase] in
/-- An event behind its marker is passed over, another one is projected and marked. -/
lemma applyRecord_cases {event : Map}
    (h : applyRecord scope now p (sourceRecord scope fetchedAt event) = .ok q) :
    (p.applied (eventKey event) ≠ none ∧ q = p) ∨
      p.applied (eventKey event) = none ∧ ∃ r marker, projectEvent scope fetchedAt p event = .ok r ∧
        q = { r with applied := r.applied.write (eventKey event) marker } := by
  have hkey : (sourceRecord scope fetchedAt event).recordId = eventKey event := rfl
  rw [applyRecord, hkey] at h
  cases hmarker : p.applied (eventKey event) with
  | some marker =>
      rw [hmarker] at h
      cases hvalid : validateApplyMarker marker with
      | error e => simp [hvalid, Except.map] at h
      | ok u =>
          simp only [hvalid, Except.map, Except.ok.injEq] at h
          exact .inl ⟨by simp, h.symm⟩
  | none =>
      rw [hmarker] at h
      obtain ⟨r, hr, h⟩ := Lists.bind_eq_ok h
      exact .inr ⟨rfl, r, _, hr, (Except.ok.inj h).symm⟩

/-- What a batch whose events have ids and names of their own does at a name: an event without a
marker is projected there, and the other names are left. -/
lemma messages_of_batch (hevents : ∀ event ∈ events, IsEvent scope event)
    (hkeys : (events.map eventKey).Nodup)
    (hnames : ∀ event ∈ events, ∀ event' ∈ events, messageName event = messageName event' →
      event = event')
    (h : processBatch scope now (events.map (sourceRecord scope fetchedAt)) p = .ok q) :
    (∀ event ∈ events, p.applied (eventKey event) = none → q.messages (messageName event) =
      (upsertPayload event).map (mergeRecord (p.messages (messageName event)))) ∧
    ∀ name, (∀ event ∈ events, messageName event = name → p.applied (eventKey event) ≠ none) →
      q.messages name = p.messages name := by
  have hrun : events.foldlM (fun p event =>
      applyRecord scope now p (sourceRecord scope fetchedAt event)) p = .ok q := by
    rw [← h, processBatch, List.foldlM_map]
  refine (@Lists.foldlM_traces _ _ _ _ (fun taken c =>
    (∀ event ∈ taken, IsEvent scope event) → (taken.map eventKey).Nodup →
    (∀ event ∈ taken, ∀ event' ∈ taken, messageName event = messageName event' → event = event') →
    (∀ id, id ∉ taken.map eventKey → c.applied id = p.applied id) ∧
    (∀ event ∈ taken, p.applied (eventKey event) = none → c.messages (messageName event) =
      (upsertPayload event).map (mergeRecord (p.messages (messageName event)))) ∧
    ∀ name, (∀ event ∈ taken, messageName event = name → p.applied (eventKey event) ≠ none) →
      c.messages name = p.messages name) ?_ [] _ _ _ ?_ hrun hevents hkeys hnames).2
  · intro taken c c' event hc hstep hall hnodup hdistinct
    rw [List.map_append] at hnodup
    obtain ⟨happlied, htouched, huntouched⟩ := hc
      (fun e he => hall e (List.mem_append_left _ he)) (List.Nodup.of_append_left hnodup)
      fun e he e' he' => hdistinct e (List.mem_append_left _ he) e' (List.mem_append_left _ he')
    have hlast : event ∈ taken ++ [event] := List.mem_append_right _ List.mem_cons_self
    have hnewKey : eventKey event ∉ taken.map eventKey := fun hmem =>
      List.disjoint_of_nodup_append hnodup hmem List.mem_cons_self
    have hnewName : ∀ e ∈ taken, messageName e ≠ messageName event := by
      intro e he hsame
      rw [hdistinct e (List.mem_append_left _ he) event hlast hsame] at he
      exact hnewKey (List.mem_map_of_mem he)
    have hbefore : c.applied (eventKey event) = p.applied (eventKey event) := happlied _ hnewKey
    have hsame : c.messages (messageName event) = p.messages (messageName event) :=
      huntouched _ fun e he hname => absurd hname (hnewName e he)
    rcases applyRecord_cases hstep with ⟨hmarked, rfl⟩ | ⟨hfresh, r, marker, hr, rfl⟩
    · rw [hbefore] at hmarked
      refine ⟨fun id hid => ?_, fun e he hnone => ?_, fun name hname => ?_⟩
      · rw [List.map_append, List.mem_append, not_or] at hid
        exact happlied id hid.1
      · rcases List.mem_append.mp he with he | he
        · exact htouched e he hnone
        · rw [List.mem_singleton.mp he] at hnone
          exact absurd hnone hmarked
      · exact huntouched name fun e he => hname e (List.mem_append_left _ he)
    · rw [hbefore] at hfresh
      obtain ⟨hmessages, -, hr'⟩ := projectEvent_ok (hall event hlast) hr
      refine ⟨fun id hid => ?_, fun e he hnone => ?_, fun name hname => ?_⟩
      · rw [List.map_append, List.mem_append, not_or] at hid
        have hne : id ≠ eventKey event := fun heq => hid.2 (List.mem_singleton.mpr heq)
        exact (Dir.write_apply ..).trans ((if_neg hne).trans (by rw [hr']; exact happlied id hid.1))
      · rcases List.mem_append.mp he with he | he
        · exact (hmessages _).trans ((if_neg (Ne.symm (hnewName e he))).trans (htouched e he hnone))
        · obtain rfl := List.mem_singleton.mp he
          exact (hmessages _).trans ((if_pos rfl).trans (by rw [hsame]))
      · have hne : messageName event ≠ name := fun heq => hname event hlast heq hfresh
        exact (hmessages _).trans ((if_neg hne).trans
          (huntouched name fun e he => hname e (List.mem_append_left _ he)))
  · exact fun _ _ _ => ⟨fun _ _ => rfl, fun _ h => (by cases h), fun _ _ => rfl⟩

omit [FloatText] [FloatRead] [Lowercase] in
/-- Each event is there under its id. -/
lemma exists_mem_byEventId {event : Map} (h : event ∈ events) :
    ∃ event' ∈ byEventId events, eventKey event' = eventKey event := by
  have hrun (events : List Map) (last : OrderedMap String Map) (key : String)
      (hkey : key ∈ OrderedMap.keys last ∨ key ∈ events.map eventKey) :
      key ∈ OrderedMap.keys (events.foldl (fun last event =>
        OrderedMap.insert last (eventKey event) event) last) := by
    induction events generalizing last with
    | nil => exact hkey.resolve_right (by simp)
    | cons event rest ih =>
        refine ih _ ?_
        rw [OrderedMap.mem_keys_insert]
        rcases hkey with hold | hnew
        · exact .inl (.inr hold)
        · rcases List.mem_cons.mp hnew with rfl | hrest
          · exact .inl (.inl rfl)
          · exact .inr hrest
  obtain ⟨e, he, hsame⟩ := List.mem_map.mp (hrun events [] (eventKey event)
    (.inr (List.mem_map_of_mem h)))
  refine ⟨e.2, List.mem_map.mpr ⟨e, (Lists.mem_sortBy _).mpr he, rfl⟩, ?_⟩
  rw [← ((lastUnderId_spec events).2 e he).1, hsame]

end Batches

/-! ### What a generation fetches -/

section Fetches

variable [FloatText] [FloatRead] [Lowercase] [JsonRead] {scope : ScopeConfig} {remote : Remote}
  {checkpoint : Option String} {folder fetchedAt : String} {messages : List Value} {links : Map}
  {traffic : Traffic}

omit [FloatText] [FloatRead] [Lowercase] in
/-- A fetch of one folder walks from its cursor, and from its base URL where there is none or where
the source has dropped it. -/
lemma fetchGraphMessages_cases (hone : scope.includedContainerRefs = [folder])
    (h : ((fetchGraphMessages remote scope checkpoint).run.run traffic).1 = .ok (messages, links)) :
    ∃ token t t' link, links = [(folder, .string link)] ∧
      (walkDelta remote scope token (checkpoint.getD (deltaUrl scope folder)) folder t =
        (.ok (messages, link), t') ∨
      ∃ cursor t₀, checkpoint = some cursor ∧
        walkDelta remote scope token cursor folder t₀ = (.error .stale, t) ∧
        walkDelta remote scope token (deltaUrl scope folder) folder t =
          (.ok (messages, link), t')) := by
  have hcursor : folderCursor scope checkpoint folder = checkpoint := by
    rw [folderCursor, hone]
    rfl
  unfold fetchGraphMessages at h
  obtain ⟨token, t₁, -, h⟩ := Fetch.bind_eq_ok h
  rw [hone, List.foldlM_cons] at h
  obtain ⟨fetched, t₂, hfolder, h⟩ := Fetch.bind_eq_ok h
  obtain rfl : fetched = (messages, links) := Except.ok.inj h
  unfold fetchFolder at hfolder
  split_ifs at hfolder
  · cases hfolder
  obtain ⟨-, t₃, -, hfolder⟩ := Fetch.bind_eq_ok (congrArg Prod.fst hfolder)
  obtain ⟨walked, t₄, hwalk, hfolder⟩ := Fetch.bind_eq_ok hfolder
  split_ifs at hfolder
  · cases hfolder
  obtain ⟨hmessages, hlinks⟩ := Prod.mk.inj (Except.ok.inj hfolder)
  obtain rfl : walked.1 = messages := hmessages
  have hrun : (walkFolder remote scope token checkpoint folder).run.run t₃ =
      walkFolder remote scope token checkpoint folder t₃ := rfl
  rw [hrun, walkFolder, startUrl, hcursor] at hwalk
  rcases hfirst : walkDelta remote scope token (checkpoint.getD (deltaUrl scope folder)) folder t₃
    with ⟨(_ | e) | first, t'⟩
  · rw [hfirst] at hwalk
    dsimp only at hwalk
    cases checkpoint with
    | none => cases hwalk
    | some cursor =>
        rw [Option.isSome_some, if_pos rfl] at hwalk
        have hadapt : ((walkDelta remote scope token (deltaUrl scope folder) folder).adapt
            GraphWalkError.intoValue t').1 = (walkDelta remote scope token
              (deltaUrl scope folder) folder t').1.mapError GraphWalkError.intoValue := rfl
        rcases hsecond : walkDelta remote scope token (deltaUrl scope folder) folder t'
          with ⟨e | second, t''⟩
        · rw [hwalk, hsecond] at hadapt
          cases hadapt
        · rw [hwalk, hsecond] at hadapt
          obtain rfl := Except.ok.inj hadapt
          exact ⟨token, t', t'', walked.2, hlinks.symm, .inr ⟨cursor, t₃, rfl, hfirst, hsecond⟩⟩
  · rw [hfirst] at hwalk
    cases hwalk
  · rw [hfirst] at hwalk
    obtain ⟨hsame, -⟩ := Prod.mk.inj hwalk
    obtain rfl := Except.ok.inj hsame
    exact ⟨token, t₃, t', first.2, hlinks.symm, .inl hfirst⟩

omit [FloatRead] in
lemma messages_of_batch_ok {batch : SourceBatch}
    (h : ((fetchGraphBatch remote scope checkpoint fetchedAt).run.run traffic).1 = .ok batch) :
    ∃ messages links,
      ((fetchGraphMessages remote scope checkpoint).run.run traffic).1 = .ok (messages, links) ∧
      batch.nextCheckpoint = nextCheckpoint scope links := by
  unfold fetchGraphBatch at h
  obtain ⟨⟨messages, links⟩, t', hfetch, h⟩ := Fetch.bind_eq_ok h
  obtain ⟨records, t'', -, h⟩ := Fetch.bind_eq_ok h
  exact ⟨messages, links, congrArg Prod.fst hfetch, by rw [← Except.ok.inj h]⟩

end Fetches

/-! ### Histories -/

section Histories

variable [FloatText] [FloatRead] [Lowercase] [JsonRead] {scope : ScopeConfig} {folder : String}
  {fetchedAt now : String}

omit [JsonRead] [Lowercase] [FloatRead] [FloatText] in
lemma versionAt_some {f : Folder} {id version : String} (h : f.version id = some version) :
    ∃ m, f.messages id = some m ∧ m.id = id ∧ m.version = version := by
  obtain ⟨m, hm, hversion⟩ := Option.map_eq_some_iff.mp h
  exact ⟨m, hm, f.keyed id m hm, hversion⟩

/-- Events that tell of a folder what has changed. -/
structure Covers (scope : ScopeConfig) (before after : Folder) (events : List Map) : Prop where
  tells : ∀ event ∈ events, ∃ tidings ∈ Tidings before after, TellsOf scope tidings event
  changed : ∀ id version, after.version id = some version → before.version id ≠ some version →
    ∃ event ∈ events, TellsOf scope (id, some version) event
  gone : ∀ id, (before.messages id).isSome → after.messages id = none →
    ∃ event ∈ events, TellsOf scope (id, none) event

omit [JsonRead] in
/-- Without a shared event id, events still tell what has changed once there is one for each id. -/
lemma covers_byEventId {before after : Folder} {events : List Map}
    (h : Covers scope before after events)
    (hapart : Set.InjOn (tidingsKey scope) (Tidings before after)) :
    Covers scope before after (byEventId events) := by
  have hkept (tidings : String × Option String) (htidings : tidings ∈ Tidings before after)
      (htells : ∃ event ∈ events, TellsOf scope tidings event) :
      ∃ event ∈ byEventId events, TellsOf scope tidings event := by
    obtain ⟨event, hevent, htells⟩ := htells
    obtain ⟨event', hevent', hsame⟩ := exists_mem_byEventId hevent
    obtain ⟨tidings', htidings', htells'⟩ := h.tells event' (mem_of_mem_byEventId hevent')
    obtain rfl : tidings' = tidings :=
      hapart htidings' htidings (htells'.key.symm.trans (hsame.trans htells.key))
    exact ⟨event', hevent', htells'⟩
  refine ⟨fun event hevent => h.tells event (mem_of_mem_byEventId hevent), ?_, ?_⟩
  · intro id version hafter hbefore
    exact hkept (id, some version) hafter (h.changed id version hafter hbefore)
  · intro id hbefore hafter
    exact hkept (id, none) ⟨hbefore, hafter⟩ (h.gone id hbefore hafter)

omit [FloatText] [FloatRead] [Lowercase] [JsonRead] in
/-- There is one thing to tell of a message. -/
lemma tidings_unique {before after : Folder} {tidings tidings' : String × Option String}
    (h : tidings ∈ Tidings before after) (h' : tidings' ∈ Tidings before after)
    (hid : tidings.1 = tidings'.1) : tidings = tidings' := by
  obtain ⟨id, version⟩ := tidings
  obtain ⟨id', version'⟩ := tidings'
  obtain rfl : id = id' := hid
  cases version with
  | some version =>
      have hversion : after.version id = some version := h
      cases version' with
      | some version' =>
          have hversion' : after.version id = some version' := h'
          rw [Option.some.inj (hversion.symm.trans hversion')]
      | none =>
          have hnone : after.messages id = none := h'.2
          rw [Folder.version, hnone] at hversion
          cases hversion
  | none =>
      have hnone : after.messages id = none := h.2
      cases version' with
      | some version' =>
          have hversion' : after.version id = some version' := h'
          rw [Folder.version, hnone] at hversion'
          cases hversion'
      | none => rfl

omit [JsonRead] in
/-- **A batch that tells what has changed makes the projection exact again**, where none of it has
a marker. -/
lemma exact_of_covers {before after : Folder} {events : List Map} {p q : Projection}
    (hcovers : Covers scope before after (byEventId events)) (hp : Exact p before)
    (hfresh : ∀ id version, after.version id = some version → before.version id ≠ some version →
      p.applied (upsertKey scope id version) = none)
    (hgone : ∀ id, (before.messages id).isSome → after.messages id = none →
      p.applied (removalKey scope id) = none)
    (h : processBatch scope now ((byEventId events).map (sourceRecord scope fetchedAt)) p = .ok q) :
    Exact q after := by
  have hevents : ∀ event ∈ byEventId events, IsEvent scope event := by
    intro event hevent
    obtain ⟨tidings, -, htells⟩ := hcovers.tells event hevent
    exact htells.isEvent
  have hnames : ∀ event ∈ byEventId events, ∀ event' ∈ byEventId events,
      messageName event = messageName event' → event = event' := by
    intro event hevent event' hevent' hname
    obtain ⟨tidings, htidings, htells⟩ := hcovers.tells event hevent
    obtain ⟨tidings', htidings', htells'⟩ := hcovers.tells event' hevent'
    have hid : tidings.1 = tidings'.1 :=
      encodeComponent_injective (htells.name.symm.trans (hname.trans htells'.name))
    obtain rfl := tidings_unique htidings htidings' hid
    exact List.inj_on_of_nodup_map (nodup_byEventId events) hevent hevent'
      (htells.key.trans htells'.key.symm)
  obtain ⟨htouched, huntouched⟩ := messages_of_batch hevents (nodup_byEventId events) hnames h
  constructor
  · intro id version hversion
    by_cases hevent : ∃ event ∈ byEventId events, messageName event = safeSegment id ∧
        p.applied (eventKey event) = none
    · obtain ⟨event, hmem, hname, hnone⟩ := hevent
      obtain ⟨tidings, htidings, htells⟩ := hcovers.tells event hmem
      have hid : tidings.1 = id := encodeComponent_injective (htells.name.symm.trans hname)
      obtain rfl : tidings = (id, some version) := tidings_unique htidings hversion hid
      obtain ⟨record, hrecord, hrest⟩ := htells.writes version rfl (p.messages (messageName event))
      refine ⟨record, ?_, hrest⟩
      rw [← hname, htouched event hmem hnone, hrecord]
    · have hsame : q.messages (safeSegment id) = p.messages (safeSegment id) :=
        huntouched _ fun event hmem hname hnone => hevent ⟨event, hmem, hname, hnone⟩
      rw [hsame]
      refine hp.present id version ?_
      by_contra hchanged
      obtain ⟨event, hmem, htells⟩ := hcovers.changed id version hversion hchanged
      exact hevent ⟨event, hmem, htells.name, by
        rw [htells.key]
        exact hfresh id version hversion hchanged⟩
  · intro name record hrecord
    by_cases hevent : ∃ event ∈ byEventId events, messageName event = name ∧
        p.applied (eventKey event) = none
    · obtain ⟨event, hmem, rfl, hnone⟩ := hevent
      obtain ⟨tidings, htidings, htells⟩ := hcovers.tells event hmem
      rw [htouched event hmem hnone] at hrecord
      cases hkind : tidings.2 with
      | none =>
          rw [htells.removes hkind] at hrecord
          cases hrecord
      | some version =>
          obtain ⟨record', hrecord', hid, -⟩ := htells.writes version hkind
            (p.messages (messageName event))
          obtain rfl := Option.some.inj (hrecord'.symm.trans hrecord)
          have hthere : after.version tidings.1 = some version := by
            have hmem := htidings
            obtain ⟨id, kind⟩ := tidings
            obtain rfl : kind = some version := hkind
            exact hmem
          obtain ⟨m, hm, -⟩ := versionAt_some hthere
          rw [hid]
          exact ⟨htells.name, by rw [hm]; rfl⟩
    · have hsame : q.messages name = p.messages name :=
        huntouched _ fun event hmem hname hnone => hevent ⟨event, hmem, hname, hnone⟩
      rw [hsame] at hrecord
      obtain ⟨hname, hseen⟩ := hp.only name record hrecord
      refine ⟨hname, ?_⟩
      by_contra hthere
      have hnone : after.messages (idOf record) = none := Option.not_isSome_iff_eq_none.mp hthere
      obtain ⟨event, hmem, htells⟩ := hcovers.gone _ hseen hnone
      exact hevent ⟨event, hmem, htells.name.trans hname.symm, by
        rw [htells.key]
        exact hgone _ hseen hnone⟩

/-- The projection is exact, and there is a cursor once something was seen. -/
structure InStep (scope : ScopeConfig) (s : Synced) : Prop where
  exact : Exact s.projection s.seen
  unseen : readCursor scope s.cursor = .ok none → ∀ id, s.seen.messages id = none

omit [FloatText] [FloatRead] [Lowercase] [JsonRead] in
lemma inStep_start : InStep scope .start :=
  ⟨⟨fun _ _ h => (by cases h), fun _ _ h => (by cases h)⟩, fun _ _ => rfl⟩

/-- The entries that a generation fetches tell what has changed. -/
lemma covers_of_fetch {s : Synced} {v : Visit} {checkpoint : Option String} {links : Map}
    {messages : List Value} (hone : scope.includedContainerRefs = [folder]) (hs : InStep scope s)
    (hanswers : Answers scope s v) (hunspoiled : Unspoiled scope s v)
    (hcursor : readCursor scope s.cursor = .ok checkpoint)
    (hfetch : ((fetchGraphMessages v.remote scope checkpoint).run.run noTraffic).1 =
      .ok (messages, links))
    (hnormal : ∀ raw ∈ messages, ∃ event, normalizeGraphEvent scope raw v.fetchedAt = .ok event) :
    Covers scope s.seen v.folder (eventsOf scope v.fetchedAt messages) := by
  have hfolder : folder ∈ scope.includedContainerRefs := by
    rw [hone]
    exact List.mem_cons_self
  have hmem {raw : Value} {event : Map} (hraw : raw ∈ messages)
      (hevent : normalizeGraphEvent scope raw v.fetchedAt = .ok event) :
      event ∈ eventsOf scope v.fetchedAt messages :=
    List.mem_filterMap.mpr ⟨raw, hraw, by rw [hevent]; rfl⟩
  have hentry {event : Map} (hevent : event ∈ eventsOf scope v.fetchedAt messages) :
      ∃ raw ∈ messages, normalizeGraphEvent scope raw v.fetchedAt = .ok event := by
    obtain ⟨raw, hraw, hsome⟩ := List.mem_filterMap.mp hevent
    obtain ⟨event', hevent'⟩ := hnormal raw hraw
    rw [hevent'] at hsome
    exact ⟨raw, hraw, by rw [hevent', Option.some.inj hsome]⟩
  have hversion {id : String} {m : Message} (hm : v.folder.messages id = some m) :
      ((m.id, some m.version) : String × Option String) ∈ Tidings s.seen v.folder := by
    change v.folder.version m.id = some m.version
    rw [v.folder.keyed id m hm, Folder.version, hm]
    rfl
  have htold {id version : String}
      (hlisted : ∀ m, v.folder.messages id = some m → m.version = version →
        .object m.fields ∈ messages)
      (hthere : v.folder.version id = some version) :
      ∃ event ∈ eventsOf scope v.fetchedAt messages, TellsOf scope (id, some version) event := by
    obtain ⟨m, hm, rfl, rfl⟩ := versionAt_some hthere
    have hraw := hlisted m hm rfl
    obtain ⟨event, hevent⟩ := hnormal _ hraw
    exact ⟨event, hmem hraw hevent, tellsOf_message hevent⟩
  -- all messages are told where the walk begins at the base URL, and nothing is gone then
  have hlisting (hlist : TellsAll v.folder messages)
      (hgone : ∀ id, (s.seen.messages id).isSome → v.folder.messages id ≠ none) :
      Covers scope s.seen v.folder (eventsOf scope v.fetchedAt messages) := by
    refine ⟨fun event hevent => ?_, fun id version hthere _ => ?_,
      fun id hseen hnone => absurd hnone (hgone id hseen)⟩
    · obtain ⟨raw, hraw, hnormalized⟩ := hentry hevent
      obtain ⟨id, m, hm, rfl⟩ := (hlist raw).mp hraw
      exact ⟨_, hversion hm, tellsOf_message hnormalized⟩
    · exact htold (fun m hm _ => (hlist _).mpr ⟨id, m, hm, rfl⟩) hthere
  obtain ⟨token, t, t', link, -, hwalk⟩ := fetchGraphMessages_cases hone hfetch
  rcases hwalk with hwalk | ⟨cursor, t₀, rfl, hstale, hwalk⟩
  · cases checkpoint with
    | none =>
        refine hlisting (hanswers.listing folder hfolder token t messages link t' hwalk) ?_
        intro id hseen
        rw [hs.unseen hcursor id] at hseen
        cases hseen
    | some cursor =>
        have hchanges :=
          hanswers.changes folder hfolder cursor hcursor token t messages link t' hwalk
        refine ⟨fun event hevent => ?_, fun id version hthere hbefore => ?_,
          fun id hseen hnone => ?_⟩
        · obtain ⟨raw, hraw, hnormalized⟩ := hentry hevent
          rcases hchanges.only raw hraw with ⟨id, m, hm, rfl⟩ | ⟨id, hseen, hnone, hremoves⟩
          · exact ⟨_, hversion hm, tellsOf_message hnormalized⟩
          · exact ⟨(id, none), ⟨hseen, hnone⟩, tellsOf_removes hremoves hnormalized⟩
        · refine htold (fun m hm hsame => hchanges.changed id m hm ?_) hthere
          rwa [hsame]
        · obtain ⟨raw, hraw, hremoves⟩ := hchanges.gone id hseen hnone
          obtain ⟨event, hevent⟩ := hnormal raw hraw
          exact ⟨event, hmem hraw hevent, tellsOf_removes hremoves hevent⟩
  · refine hlisting (hanswers.listing folder hfolder token t messages link t' hwalk) ?_
    intro id hseen hnone
    exact (hunspoiled.gone id hseen hnone).2 folder hfolder cursor hcursor token t₀ t hstale

/-- **An unspoiled generation keeps the projection exact.** -/
lemma inStep_after {s : Synced} {v : Visit} (hone : scope.includedContainerRefs = [folder])
    (hs : InStep scope s) (hhistory : History scope s v) (hunspoiled : Unspoiled scope s v) :
    InStep scope (s.after scope v) ∧ (s.after scope v).seen = v.folder := by
  have hafter := Lists.eq_ok_of_isSome hhistory.completes s
  change generation scope s v = .ok (s.after scope v) at hafter
  obtain ⟨checkpoint, hcursor, hafter⟩ := Lists.bind_eq_ok hafter
  obtain ⟨batch, hbatch, hafter⟩ := Lists.bind_eq_ok hafter
  obtain ⟨projection, hprocess, hafter⟩ := Lists.bind_eq_ok hafter
  obtain ⟨file, hfile, hafter⟩ := Lists.bind_eq_ok hafter
  rw [← Except.ok.inj hafter]
  obtain ⟨messages, links, hfetch, hnext⟩ := messages_of_batch_ok hbatch
  obtain ⟨hnormal, hrecords⟩ := sourceRecords_ok (fetchGraphBatch_ok hfetch hbatch)
  rw [hrecords] at hprocess
  have hcovers := covers_of_fetch hone hs hhistory.answers hunspoiled hcursor hfetch hnormal
  refine ⟨⟨exact_of_covers (covers_byEventId hcovers hunspoiled.apart) hs.exact hunspoiled.fresh
    (fun id hseen hnone => (hunspoiled.gone id hseen hnone).1) hprocess, fun hread => ?_⟩, rfl⟩
  obtain ⟨token, t, t', link, hlinks, -⟩ := fetchGraphMessages_cases hone hfetch
  have hlink : batch.nextCheckpoint = some link := by
    rw [hnext, nextCheckpoint, hone, hlinks]
    rfl
  rw [hlink, commitNext] at hfile
  cases hcommit : commitCursor scope link v.now with
  | error e =>
      rw [hcommit] at hfile
      cases hfile
  | ok committed =>
      rw [hcommit] at hfile
      obtain rfl := Except.ok.inj hfile
      rw [readCursor_commitCursor hcommit rfl] at hread
      cases hread

end Histories

/-! ### A message that is gone behind a stale cursor -/

/-- The link that a source answers with. -/
def nextLink : String := "https://graph.microsoft.com/v1.0/next"

/-- A source that answers from the base URL of the inbox, and has dropped every cursor. -/
def Remote.inbox (entries : List Value) : Remote where
  accessToken := .ok "token"
  heartbeat _ := .ok ()
  get _ request :=
    if request.url = deltaUrl publicScope "inbox" then
      .ok (.object [("value", .array entries), ("@odata.deltaLink", .string nextLink)])
    else .error (.status 410 "")

/-- A message of the inbox. -/
def Message.first : Message where
  fields := [("id", .string "m1"), ("changeKey", .string "1"),
    ("sourceQueriedFolderRef", .string "inbox")]
  id := "m1"
  version := "1"
  identified := rfl
  plain := by decide
  versioned := by decide
  kept := rfl

/-- A folder with one message. -/
def Folder.single (m : Message) : Folder where
  messages id := if id = m.id then some m else none
  keyed id m' h := by
    split_ifs at h with hid
    rw [← Option.some.inj h, hid]

/-- A generation that finds one message. -/
def Visit.full : Visit :=
  ⟨.single .first, .inbox [.object Message.first.fields], noon, noon⟩

/-- A generation that finds the folder empty. -/
def Visit.bare : Visit := ⟨.empty, .inbox [], noon, noon⟩

lemma walkDelta_full (token : String) (t : Traffic) :
    (walkDelta Visit.full.remote publicScope token (deltaUrl publicScope "inbox") "inbox" t).1 =
      .ok ([.object Message.first.fields], nextLink) := by
  have hvalid : validateGraphPageUrl (deltaUrl publicScope "inbox") publicScope.graph.baseUrl =
      .ok () := deltaUrl_validated publicScope "inbox"
  unfold walkDelta maxGraphPages deltaPages graphPage
  rw [hvalid]
  rfl

lemma walkDelta_bare (token : String) (t : Traffic) :
    (walkDelta Visit.bare.remote publicScope token (deltaUrl publicScope "inbox") "inbox" t).1 =
      .ok ([], nextLink) := by
  have hvalid : validateGraphPageUrl (deltaUrl publicScope "inbox") publicScope.graph.baseUrl =
      .ok () := deltaUrl_validated publicScope "inbox"
  unfold walkDelta maxGraphPages deltaPages graphPage
  rw [hvalid]
  rfl

lemma walkDelta_dropped (token : String) (t : Traffic) :
    (walkDelta Visit.bare.remote publicScope token nextLink "inbox" t).1 = .error .stale := by
  have hvalid : validateGraphPageUrl nextLink publicScope.graph.baseUrl = .ok () := rfl
  unfold walkDelta maxGraphPages deltaPages graphPage
  rw [hvalid]
  rfl

lemma answers_full : Answers publicScope .start .full := by
  refine ⟨fun folder hfolder token t messages link t' h => ?_,
    fun folder hfolder cursor hcursor => (by cases hcursor)⟩
  obtain rfl := List.mem_singleton.mp hfolder
  have hwalk := walkDelta_full token t
  rw [h] at hwalk
  obtain ⟨rfl, -⟩ := Prod.mk.inj (Except.ok.inj hwalk)
  intro entry
  rw [List.mem_singleton]
  constructor
  · rintro rfl
    exact ⟨"m1", .first, rfl, rfl⟩
  · rintro ⟨id, m, hm, rfl⟩
    change (if id = "m1" then some Message.first else none) = some m at hm
    split_ifs at hm
    rw [← Option.some.inj hm]

lemma unspoiled_full [FloatText] : Unspoiled publicScope .start .full := by
  refine ⟨fun _ _ _ _ => rfl, fun _ h => (by cases h), ?_⟩
  have honly : ∀ tidings ∈ Tidings Folder.empty (.single .first), tidings = ("m1", some "1") := by
    rintro ⟨id, _ | version⟩ htidings
    · cases htidings.1
    · have hversion : (if id = "m1" then some Message.first else none).map Message.version =
          some version := htidings
      split_ifs at hversion with hid
      · rw [hid, ← Option.some.inj hversion]
        rfl
      · cases hversion
  intro tidings htidings tidings' htidings' _
  rw [honly tidings htidings, honly tidings' htidings']

end Mailbox

end McpSurfaces
