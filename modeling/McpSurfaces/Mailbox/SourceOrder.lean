import McpSurfaces.Mailbox.Projection

/-!
The order of a batch against the order of the source: a batch holds its events once, by their
ids, and the source returned its entries in another order.

* `Leaves`: what events leave at every name. Each event that is projected goes on with it
  (`Leaves.concat`).
* **`in_source_order_iff`**: a batch leaves what its entries leave one by one exactly where its
  upserts merge to the same records in both orders.
* `moved_message_buried`: a message that moves to a folder further on is gone behind the batch.
-/

namespace McpSurfaces

namespace Mailbox

open Lists (sortBy)
open LedgerDomain (JsonRead)

/-! ### What events leave at a name -/

/-- The payload of an upsert. -/
def upsertPayload (event : Map) : Option Map :=
  (OrderedMap.get event "payload").bind Value.asObject

/-- The message that an event is about. -/
def eventSubject (event : Map) : String := (eventText event "message_id").getD ""

/-- The name under `messages` that an event writes or removes. -/
def messageName (event : Map) : String :=
  safeSegment (((upsertPayload event).map idOf).getD (eventSubject event))

/-- An event behind the upserts that stand at a name. -/
def standingStep (name : String) (standing : List Map) (event : Map) : List Map :=
  if messageName event = name then
    match upsertPayload event with
    | some payload => standing ++ [payload]
    | none => []
  else standing

/-- The upserts at a name behind the last removal there. -/
def standing (name : String) (events : List Map) : List Map := events.foldl (standingStep name) []

/-- An event behind the tombstone at a name. -/
def tombstoneStep (name : String) (left : Option Value) (event : Map) : Option Value :=
  if safeSegment (eventSubject event) = name then
    if (upsertPayload event).isSome then none else some (tombstone event)
  else left

/-- The tombstone of the last removal at a name, where no upsert follows. -/
def standingTombstone (name : String) (events : List Map) : Option Value :=
  events.foldl (tombstoneStep name) none

/-- The id of an event. -/
def eventKey (event : Map) : String := (eventText event "event_id").getD ""

/-- The last event under each id. -/
def lastUnderId (events : List Map) : OrderedMap String Map :=
  events.foldl (fun last event => OrderedMap.insert last (eventKey event) event) []

/-- Events once for each id, the last one under an id, in the order of the ids. -/
def byEventId (events : List Map) : List Map :=
  (sortBy (fun a b => compare a.1 b.1) (lastUnderId events)).map Prod.snd

section Records

variable [FloatText] [FloatRead]

/-- The record that an upsert leaves where there was a record before. -/
def mergeRecord (record : Option Map) (payload : Map) : Map :=
  messageRecord (mergeMessagePayload (record.map Value.rereadFields) payload)

/-- The record that upserts leave one after another. -/
def mergeAll (payloads : List Map) : Option Map :=
  payloads.foldl (fun record payload => some (mergeRecord record payload)) none

/-- At every message, the upserts behind its last removal merge to the same record in the order of
the event ids as in the order of the events; with tombstones, the same removal comes last. -/
def SameInBothOrders (scope : ScopeConfig) (events : List Map) : Prop :=
  ∀ name, mergeAll (standing name (byEventId events)) = mergeAll (standing name events) ∧
    (scope.tombstonesEnabled →
      standingTombstone name (byEventId events) = standingTombstone name events)

end Records

/-- An attachment whose inline content, if it has any, can be decoded. -/
def Decodes (attachment : Value) : Prop :=
  ∀ content, inlineContent attachment = some content → ∃ bytes, decodeBase64 content = .ok bytes

/-- An event with a name that can be written, and with inline contents that can be decoded. -/
structure CanProject (event : Map) : Prop where
  named : ¬ Reserved (messageName event)
  decodes : ∀ payload, upsertPayload event = some payload →
    ∀ attachment ∈ attachmentsOf payload, Decodes attachment

/-! ### The attachments of a record -/

section Attachments

/-- A record takes its attachments from the payload or from the record before it. -/
lemma attachmentsOf_merge (existing : Map) {incoming : Map}
    (hnodup : (OrderedMap.keys incoming).Nodup) :
    attachmentsOf (mergeMessagePayload (some existing) incoming) = attachmentsOf incoming ∨
      attachmentsOf (mergeMessagePayload (some existing) incoming) = attachmentsOf existing := by
  rw [mergeMessagePayload]
  dsimp only
  split_ifs with hid
  · exact .inl rfl
  · set described := ["conversation_id", "internet_message_id", "subject", "from", "sender",
      "received_at", "sent_at", "created_at", "last_modified_at"].foldl
        (keepMeaningful existing incoming) (extend existing incoming) with hdescribed
    set addressed := ["reply_to", "to", "cc", "bcc"].foldl (keepItems existing incoming) described
      with haddressed
    have hlast : ["reply_to", "to", "cc", "bcc", "attachments"].foldl (keepItems existing incoming)
        described = keepItems existing incoming addressed "attachments" := rfl
    have hbefore : OrderedMap.get addressed "attachments" =
        (OrderedMap.get incoming "attachments").or (OrderedMap.get existing "attachments") := by
      rw [haddressed, get_foldl_of_notMem (fun m k h => get_keepItems m h) (by decide), hdescribed,
        get_foldl_of_notMem (fun m k h => get_keepMeaningful m h) (by decide), get_extend hnodup]
    unfold attachmentsOf
    rw [get_keepExtensions _ (by decide), get_keepBody _ (by decide), hlast]
    unfold keepItems
    split_ifs with hempty
    · rw [get_insertSome, if_pos rfl, hbefore]
      cases hincoming : OrderedMap.get incoming "attachments" with
      | none =>
          right
          cases hexisting : OrderedMap.get existing "attachments" with
          | none => rfl
          | some value =>
              cases value with
              | array items => cases items <;> rfl
              | _ => rfl
      | some value =>
          cases hexisting : ((OrderedMap.get existing "attachments").bind Value.asArray).filter
              fun items => !items.isEmpty with
          | none => exact .inl rfl
          | some items =>
              right
              obtain ⟨hitems, -⟩ := Option.filter_eq_some_iff.mp hexisting
              rw [hitems]
              rfl
    · rw [hbefore]
      cases hincoming : OrderedMap.get incoming "attachments" with
      | none => simp [hincoming] at hempty
      | some value => exact .inl rfl

variable [FloatRead]

lemma attachmentsOf_rereadFields (record : Map) :
    attachmentsOf (Value.rereadFields record) = (attachmentsOf record).map Value.reread := by
  rw [attachmentsOf, Value.rereadFields_eq, Value.get_map_reread, attachmentsOf]
  cases OrderedMap.get record "attachments" with
  | none => rfl
  | some value =>
      rw [Option.map_some, Option.bind_some, Option.bind_some, Value.asArray_reread]
      cases value.asArray <;> rfl

lemma decodes_reread {attachment : Value} (h : Decodes attachment) : Decodes attachment.reread := by
  intro content hcontent
  refine h content ?_
  rw [← hcontent, inlineContent, inlineContent, Value.get_asStr_reread]

/-- Messages whose attachments can all be decoded. -/
def Decodable (p : Projection) : Prop :=
  ∀ name record, p.messages name = some record → ∀ attachment ∈ attachmentsOf record,
    Decodes attachment

lemma decodes_merged [FloatText] {p : Projection} (h : Decodable p) {payload : Map}
    (hnodup : (OrderedMap.keys payload).Nodup)
    (hpayload : ∀ attachment ∈ attachmentsOf payload, Decodes attachment) (name : String) :
    ∀ attachment ∈ attachmentsOf (mergeMessagePayload (existingRecord p name) payload),
      Decodes attachment := by
  rw [existingRecord]
  cases hold : p.messages name with
  | none => exact hpayload
  | some record =>
      rw [Option.map_some]
      rcases attachmentsOf_merge (Value.rereadFields record) hnodup with hnew | hkept
      · rwa [hnew]
      · rw [hkept, attachmentsOf_rereadFields]
        intro attachment hmem
        obtain ⟨written, hwritten, rfl⟩ := List.mem_map.mp hmem
        exact decodes_reread (h name record hold written hwritten)

end Attachments

/-! ### Events that can be projected -/

/-- An event of an entry: a removal, or an upsert whose payload has a message id. -/
inductive IsEvent [FloatText] [Lowercase] (scope : ScopeConfig) (event : Map) : Prop
  | removal {message : Map} {messageId : String} (h : IsRemoval scope message messageId event)
  | upsert {message payload : Map} {messageId : String}
      (h : IsUpsert scope message messageId event payload)
      (hid : OrderedMap.get payload "message_id" = some (.string (idOf payload)))

section Projecting

variable [FloatText] [FloatRead] [Lowercase] {scope : ScopeConfig} {fetchedAt : String}
  {event : Map} {p p' : Projection}

omit [FloatRead] in
lemma isEvent_of_normalize {raw : Value} (h : normalizeGraphEvent scope raw fetchedAt = .ok event) :
    IsEvent scope event := by
  obtain ⟨message, messageId, -, hid, hremoval | ⟨payload, hupsert⟩⟩ := normalize_cases h
  · exact .removal hremoval
  · refine .upsert hupsert ?_
    obtain ⟨text, htext, -⟩ := Option.map_eq_some_iff.mp (Option.filter_eq_some_iff.mp hid).1
    have hpayload : OrderedMap.get payload "message_id" = some (.string text) := by
      rw [hupsert.payloadOf.messageId, htext]
      rfl
    rw [hpayload, idOf, hpayload]
    rfl

/-- An event that is projected. -/
def projectEvent (scope : ScopeConfig) (fetchedAt : String) (p : Projection) (event : Map) :
    Except Value Projection :=
  projectRecord scope (sourceRecord scope fetchedAt event) p

omit [FloatText] [FloatRead] [Lowercase] in
/-- A burial concerns the tombstone of its message only. -/
lemma bury_spec (scope : ScopeConfig) (p : Projection) (messageId : String) (left : Option Value) :
    (p.bury scope messageId left).messages = p.messages ∧
      (p.bury scope messageId left).applied = p.applied ∧
      ∀ name, (p.bury scope messageId left).tombstones name =
        if scope.tombstonesEnabled ∧ safeSegment messageId = name then left
        else p.tombstones name := by
  unfold Projection.bury
  split_ifs with henabled
  · refine ⟨rfl, rfl, fun name => ?_⟩
    by_cases hname : safeSegment messageId = name
    · rw [if_pos ⟨henabled, hname⟩, ← hname]
      exact Function.update_self ..
    · rw [if_neg fun h => hname h.2]
      exact Function.update_of_ne (Ne.symm hname) _ _
  · exact ⟨rfl, rfl, fun name => by rw [if_neg fun h => henabled h.1]⟩

/-- What an event does at each name. -/
lemma projectEvent_ok (hevent : IsEvent scope event)
    (h : projectEvent scope fetchedAt p event = .ok p') :
    (∀ name, p'.messages name =
      if messageName event = name then (upsertPayload event).map (mergeRecord (p.messages name))
      else p.messages name) ∧
    (∀ name, p'.tombstones name =
      if scope.tombstonesEnabled then tombstoneStep name (p.tombstones name) event
      else p.tombstones name) ∧
    p'.applied = p.applied := by
  rw [projectEvent] at h
  cases hevent with
  | removal hremoval =>
      rename_i messageId
      have hpayload : upsertPayload event = none := by rw [upsertPayload, hremoval.bare]; rfl
      have hsubject : eventSubject event = messageId := by rw [eventSubject, hremoval.subject]; rfl
      rw [projectRecord_of_removal hremoval] at h
      have hp' := projectRemoval_ok h
      obtain ⟨-, happlied, htombstones⟩ := bury_spec scope p messageId (some (tombstone event))
      refine ⟨fun name => ?_, fun name => ?_, by rw [hp']; exact happlied⟩
      · rw [hp', messageName, hpayload, hsubject]
        exact (Dir.remove_apply ..).trans (if_congr eq_comm rfl rfl)
      · rw [hp', tombstoneStep, hpayload, hsubject]
        refine (htombstones name).trans ?_
        split_ifs <;> simp_all
  | upsert hupsert hid =>
      rename_i payload messageId
      have hpayload : upsertPayload event = some payload := by
        rw [upsertPayload, hupsert.carries]
        rfl
      have hsubject : eventSubject event = messageId := by rw [eventSubject, hupsert.subject]; rfl
      rw [projectRecord_of_upsert hupsert] at h
      obtain ⟨id, blobs, hid', hp'⟩ := projectUpsert_ok hupsert.carries h
      obtain rfl : idOf payload = id := Value.string.inj (Option.some.inj (hid.symm.trans hid'))
      set written : Dir Map := p.messages.write (safeSegment (idOf payload))
        (upsertedRecord p (idOf payload) payload) with hwritten
      obtain ⟨hmessages, happlied, htombstones⟩ := bury_spec scope
        { p with blobs, messages := written } messageId none
      refine ⟨fun name => ?_, fun name => ?_, by rw [hp']; exact happlied⟩
      · rw [hp', messageName, hpayload]
        refine (congrFun hmessages name).trans ?_
        refine (congrFun hwritten name).trans ((Dir.write_apply ..).trans ?_)
        by_cases hname : safeSegment (idOf payload) = name
        · subst hname
          rw [if_pos rfl, Option.map_some, Option.getD_some, if_pos rfl]
          rfl
        · rw [if_neg (Ne.symm hname), Option.map_some, Option.getD_some, if_neg hname]
      · rw [hp', tombstoneStep, hpayload, hsubject]
        refine (htombstones name).trans ?_
        split_ifs <;> simp_all

omit [FloatText] [FloatRead] [Lowercase] in
/-- Contents are installed exactly where they can be decoded. -/
lemma installBlobs_ok_iff {payload : Map} :
    (∃ q, installBlobs payload p = .ok q) ↔
      ∀ attachment ∈ attachmentsOf payload, Decodes attachment := by
  have hstep (blobs : Dir (List UInt8)) (attachment : Value) :
      (∃ blobs', installBlob blobs attachment = .ok blobs') ↔ Decodes attachment := by
    unfold installBlob Decodes
    cases inlineContent attachment with
    | none => exact ⟨fun _ _ h => (by cases h), fun _ => ⟨blobs, rfl⟩⟩
    | some content =>
        change (∃ blobs', (decodeBase64 content).map _ = .ok blobs') ↔ _
        cases hbytes : decodeBase64 content with
        | error e =>
            constructor
            · rintro ⟨blobs', h⟩
              cases h
            · intro h
              obtain ⟨bytes, hdecoded⟩ := h content rfl
              rw [hbytes] at hdecoded
              cases hdecoded
        | ok bytes =>
            refine ⟨fun _ content' h => ⟨bytes, ?_⟩, fun _ => ⟨_, rfl⟩⟩
            rw [← Option.some.inj h, hbytes]
  have hall (attachments : List Value) (blobs : Dir (List UInt8)) :
      (∃ blobs', attachments.foldlM installBlob blobs = .ok blobs') ↔
        ∀ attachment ∈ attachments, Decodes attachment := by
    constructor
    · rintro ⟨blobs', h⟩
      refine @Lists.foldlM_traces _ _ _ _ (fun taken _ => ∀ attachment ∈ taken, Decodes attachment)
        (fun taken c c' x hc hx attachment hmem => ?_) [] _ _ _ (fun _ h => (by cases h)) h
      rcases List.mem_append.mp hmem with hmem | hmem
      · exact hc attachment hmem
      · rw [List.mem_singleton.mp hmem]
        exact (hstep c x).mp ⟨c', hx⟩
    · intro h
      have hkeep (blobs : Dir (List UInt8)) (_ : True) (attachment : Value)
          (hmem : attachment ∈ attachments) :
          ∃ blobs', installBlob blobs attachment = .ok blobs' ∧ True := by
        obtain ⟨blobs', hblobs⟩ := (hstep blobs attachment).mpr (h attachment hmem)
        exact ⟨blobs', hblobs, trivial⟩
      obtain ⟨blobs', hrun, -⟩ := Lists.exists_foldlM_ok hkeep (c := blobs) trivial
      exact ⟨blobs', hrun⟩
  rw [← hall (attachmentsOf payload) p.blobs, installBlobs]
  cases (attachmentsOf payload).foldlM installBlob p.blobs with
  | error e => simp [Except.map]
  | ok blobs => simp [Except.map]

omit [Lowercase] in
/-- A record with contents that can be decoded is written exactly where its name can be. -/
lemma write_ok_iff {payload : Map}
    (hid : OrderedMap.get payload "message_id" = some (.string (idOf payload)))
    (hdecodes : ∀ attachment ∈ attachmentsOf (mergeMessagePayload
      (existingRecord p (safeSegment (idOf payload))) payload), Decodes attachment) :
    (∃ q, writeMessageProjection payload p = .ok q) ↔ ¬ Reserved (safeSegment (idOf payload)) := by
  obtain ⟨contents, hcontents⟩ : ∃ contents, ((attachmentsOf (mergeMessagePayload
      (existingRecord p (safeSegment (idOf payload))) payload)).mapM fun attachment =>
        (inlineContent attachment).mapM decodeBase64) = .ok contents := by
    refine Lists.exists_mapM_ok fun attachment hmem => ?_
    cases hcontent : inlineContent attachment with
    | none => exact ⟨none, rfl⟩
    | some content =>
        obtain ⟨bytes, hbytes⟩ := hdecodes attachment hmem content hcontent
        refine ⟨some bytes, ?_⟩
        rw [Option.mapM_some, hbytes]
        rfl
  have hname : (OrderedMap.get payload "message_id").bind Value.asStr = some (idOf payload) := by
    rw [hid]
    rfl
  unfold writeMessageProjection
  rw [hname]
  dsimp only
  rw [hcontents]
  constructor
  · rintro ⟨q, h⟩ hreserved
    change (if Reserved (safeSegment (idOf payload)) then _ else _) = _ at h
    rw [if_pos hreserved] at h
    cases h
  · intro hreserved
    refine ⟨{ p with messages := (p.messages.write (safeSegment (idOf payload))
      (upsertedRecord p (idOf payload) payload)) }, ?_⟩
    change (if Reserved (safeSegment (idOf payload)) then _ else _) = _
    rw [if_neg hreserved]
    rfl

omit [FloatText] [FloatRead] [Lowercase] in
lemma installBlobs_messages {payload : Map} (h : installBlobs payload p = .ok p') :
    p'.messages = p.messages := by
  unfold installBlobs at h
  cases hblobs : (attachmentsOf payload).foldlM installBlob p.blobs with
  | error e =>
      rw [hblobs] at h
      cases h
  | ok blobs =>
      rw [hblobs] at h
      rw [← Except.ok.inj h]

/-- An event is projected exactly where it can be. -/
lemma projectEvent_ok_iff (hevent : IsEvent scope event) (hp : Decodable p) :
    (∃ p', projectEvent scope fetchedAt p event = .ok p') ↔ CanProject event := by
  unfold projectEvent
  cases hevent with
  | removal hremoval =>
      rename_i messageId
      have hpayload : upsertPayload event = none := by rw [upsertPayload, hremoval.bare]; rfl
      have hname : messageName event = safeSegment messageId := by
        rw [messageName, hpayload, eventSubject, hremoval.subject]
        rfl
      rw [projectRecord_of_removal hremoval, projectRemoval]
      split_ifs with hreserved
      · constructor
        · rintro ⟨p', h⟩
          cases h
        · intro hcan
          exact absurd (hname ▸ hreserved) hcan.named
      · exact ⟨fun _ => ⟨by rwa [hname], fun _ h => by rw [hpayload] at h; cases h⟩,
          fun _ => ⟨_, rfl⟩⟩
  | upsert hupsert hid =>
      rename_i payload messageId
      have hpayload : upsertPayload event = some payload := by
        rw [upsertPayload, hupsert.carries]
        rfl
      have hname : messageName event = safeSegment (idOf payload) := by
        rw [messageName, hpayload]
        rfl
      have hcarries : OrderedMap.get (sourceRecord scope fetchedAt event).payload "payload" =
          some (.object payload) := hupsert.carries
      have hobject : (Value.object payload).asObject.getD [] = payload := rfl
      rw [projectRecord_of_upsert hupsert, projectUpsert, hcarries]
      dsimp only
      rw [hobject]
      have hwrites (q : Projection) (hq : installBlobs payload p = .ok q) :
          (∃ r, writeMessageProjection payload q = .ok r) ↔
            ¬ Reserved (safeSegment (idOf payload)) := by
        refine write_ok_iff hid (decodes_merged ?_ hupsert.payloadOf.nodup
          (installBlobs_ok_iff.mp ⟨q, hq⟩) _)
        unfold Decodable
        rwa [installBlobs_messages hq]
      constructor
      · rintro ⟨p', h⟩
        obtain ⟨q, hinstall, h⟩ := Lists.bind_eq_ok h
        obtain ⟨r, hr, -⟩ := Lists.bind_eq_ok h
        refine ⟨?_, fun payload' hpayload' => ?_⟩
        · rw [hname]
          exact (hwrites q hinstall).mp ⟨r, hr⟩
        · obtain rfl := Option.some.inj (hpayload.symm.trans hpayload')
          exact installBlobs_ok_iff.mp ⟨q, hinstall⟩
      · intro hcan
        obtain ⟨q, hinstall⟩ := installBlobs_ok_iff (p := p).mpr (hcan.decodes payload hpayload)
        obtain ⟨r, hr⟩ := (hwrites q hinstall).mpr (hname ▸ hcan.named)
        refine ⟨markViews payload (((OrderedMap.get payload "message_id").bind Value.asStr).getD "")
          (r.bury scope messageId none), ?_⟩
        rw [hinstall]
        change (writeMessageProjection payload q >>= _) = _
        rw [hr]
        rfl

lemma decodable_projectEvent (hevent : IsEvent scope event) (hp : Decodable p)
    (h : projectEvent scope fetchedAt p event = .ok p') : Decodable p' := by
  have hcan : CanProject event := (projectEvent_ok_iff hevent hp).mp ⟨p', h⟩
  intro name record hmessage
  rw [(projectEvent_ok hevent h).1] at hmessage
  split_ifs at hmessage
  · obtain ⟨payload, hpayload, rfl⟩ := Option.map_eq_some_iff.mp hmessage
    have hnodup : (OrderedMap.keys payload).Nodup := by
      cases hevent with
      | removal hremoval =>
          rw [upsertPayload, hremoval.bare] at hpayload
          cases hpayload
      | upsert hupsert =>
          rw [upsertPayload, hupsert.carries] at hpayload
          obtain rfl := Option.some.inj hpayload
          exact hupsert.payloadOf.nodup
    have hmerged := decodes_merged hp hnodup (hcan.decodes payload hpayload) name
    rw [attachmentsOf, mergeRecord, get_messageRecord _ (by decide)]
    exact hmerged
  · exact hp name record hmessage

/-! ### Runs of events -/

/-- What events leave at every name. -/
structure Leaves (scope : ScopeConfig) (events : List Map) (p : Projection) : Prop where
  messages : ∀ name, p.messages name = mergeAll (standing name events)
  tombstones : ∀ name, p.tombstones name =
    if scope.tombstonesEnabled then standingTombstone name events else none

omit [Lowercase] in
lemma leaves_empty : Leaves scope [] .empty :=
  ⟨fun _ => rfl, fun _ => (ite_self none).symm⟩

/-- **Each event goes on with what the events before it leave.** -/
lemma Leaves.concat {events : List Map} (hp : Leaves scope events p) (hevent : IsEvent scope event)
    (h : projectEvent scope fetchedAt p event = .ok p') : Leaves scope (events ++ [event]) p' := by
  obtain ⟨hmessages, htombstones, -⟩ := projectEvent_ok hevent h
  constructor
  · intro name
    rw [hmessages, hp.messages, standing, standing, List.foldl_append, List.foldl_cons,
      List.foldl_nil, standingStep]
    split_ifs
    · cases upsertPayload event with
      | none => rfl
      | some payload =>
          rw [mergeAll, mergeAll, List.foldl_append]
          rfl
    · rfl
  · intro name
    rw [htombstones, hp.tombstones, standingTombstone, standingTombstone, List.foldl_append,
      List.foldl_cons, List.foldl_nil]
    split_ifs <;> rfl

/-- Events one by one leave what they leave at every name. -/
lemma leaves_of_foldlM {events : List Map} (hevents : ∀ event ∈ events, IsEvent scope event)
    (h : events.foldlM (projectEvent scope fetchedAt) .empty = .ok p) :
    Leaves scope events p ∧ Decodable p ∧ ∀ event ∈ events, CanProject event := by
  have hempty : Decodable .empty := fun _ _ h => (by cases h)
  refine @Lists.foldlM_traces _ _ _ _ (fun taken p =>
    (∀ event ∈ taken, IsEvent scope event) → Leaves scope taken p ∧ Decodable p ∧
      ∀ event ∈ taken, CanProject event)
    (fun taken c c' event hc hevent htaken => ?_) [] _ _ _
    (fun _ => ⟨leaves_empty, hempty, fun _ h => (by cases h)⟩) h hevents
  have his : IsEvent scope event := htaken event (List.mem_append_right _ List.mem_cons_self)
  obtain ⟨hleaves, hdecodable, hcan⟩ := hc fun e he => htaken e (List.mem_append_left _ he)
  refine ⟨hleaves.concat his hevent, decodable_projectEvent his hdecodable hevent, ?_⟩
  intro e he
  rcases List.mem_append.mp he with he | he
  · exact hcan e he
  · rw [List.mem_singleton.mp he]
    exact (projectEvent_ok_iff his hdecodable).mp ⟨c', hevent⟩

/-- Events that can be projected can be projected one by one. -/
lemma exists_of_canProject (fetchedAt : String) {events : List Map}
    (hevents : ∀ event ∈ events, IsEvent scope event) (hcan : ∀ event ∈ events, CanProject event) :
    ∃ p, events.foldlM (projectEvent scope fetchedAt) .empty = .ok p := by
  have hempty : Decodable .empty := fun _ _ h => (by cases h)
  have hkeep (c : Projection) (hc : Decodable c) (event : Map) (hmem : event ∈ events) :
      ∃ c', projectEvent scope fetchedAt c event = .ok c' ∧ Decodable c' := by
    have his := hevents event hmem
    obtain ⟨c', hc'⟩ := (projectEvent_ok_iff his hc).mpr (hcan event hmem)
    exact ⟨c', hc', decodable_projectEvent his hc hc'⟩
  obtain ⟨p, hp, -⟩ := Lists.exists_foldlM_ok hkeep hempty
  exact ⟨p, hp⟩

/-! ### Entries and batches -/

/-- The events of entries, in the order of the entries. -/
def eventsOf (scope : ScopeConfig) (fetchedAt : String) (messages : List Value) : List Map :=
  messages.filterMap fun raw => (normalizeGraphEvent scope raw fetchedAt).toOption

omit [FloatRead] in
lemma isEvent_of_mem {messages : List Value} (h : event ∈ eventsOf scope fetchedAt messages) :
    IsEvent scope event := by
  obtain ⟨raw, -, hraw⟩ := List.mem_filterMap.mp h
  cases hevent : normalizeGraphEvent scope raw fetchedAt with
  | error e =>
      rw [hevent] at hraw
      cases hraw
  | ok event' =>
      rw [hevent] at hraw
      obtain rfl := Option.some.inj hraw
      exact isEvent_of_normalize hevent

/-- Entries one by one are their events one by one. -/
lemma foldlM_projectEntry {messages : List Value}
    (h : ∀ raw ∈ messages, ∃ event, normalizeGraphEvent scope raw fetchedAt = .ok event) :
    messages.foldlM (projectEntry scope fetchedAt) p =
      (eventsOf scope fetchedAt messages).foldlM (projectEvent scope fetchedAt) p := by
  induction messages generalizing p with
  | nil => rfl
  | cons raw rest ih =>
      obtain ⟨event, hevent⟩ := h raw List.mem_cons_self
      have hevents : eventsOf scope fetchedAt (raw :: rest) =
          event :: eventsOf scope fetchedAt rest := by
        rw [eventsOf, List.filterMap_cons, hevent]
        rfl
      have hentry : projectEntry scope fetchedAt p raw = projectEvent scope fetchedAt p event := by
        rw [projectEntry, hevent]
        rfl
      rw [hevents, List.foldlM_cons, List.foldlM_cons, hentry]
      exact bind_congr fun q => ih fun raw hmem => h raw (List.mem_cons_of_mem _ hmem)

section

omit [FloatText] [FloatRead] [Lowercase]

/-- The last events under their ids are events, with distinct ids. -/
lemma lastUnderId_spec (events : List Map) :
    (OrderedMap.keys (lastUnderId events)).Nodup ∧
      ∀ e ∈ lastUnderId events, e.1 = eventKey e.2 ∧ e.2 ∈ events := by
  have hrun (events taken : List Map) (last : OrderedMap String Map)
      (hlast : (OrderedMap.keys last).Nodup ∧ ∀ e ∈ last, e.1 = eventKey e.2 ∧ e.2 ∈ taken) :
      (OrderedMap.keys (events.foldl (fun last event =>
        OrderedMap.insert last (eventKey event) event) last)).Nodup ∧
      ∀ e ∈ events.foldl (fun last event => OrderedMap.insert last (eventKey event) event) last,
        e.1 = eventKey e.2 ∧ e.2 ∈ taken ++ events := by
    induction events generalizing taken last with
    | nil => rwa [List.append_nil]
    | cons event rest ih =>
        rw [List.append_cons]
        refine ih (taken ++ [event]) _
          ⟨OrderedMap.nodup_keys_insert hlast.1 _ _, fun e he => ?_⟩
        rcases OrderedMap.mem_insert he with rfl | hold
        · exact ⟨rfl, List.mem_append_right _ List.mem_cons_self⟩
        · exact ⟨(hlast.2 e hold).1, List.mem_append_left _ (hlast.2 e hold).2⟩
  exact hrun events [] [] ⟨List.nodup_nil, fun _ h => (by cases h)⟩

lemma mem_of_mem_byEventId {events : List Map} (h : event ∈ byEventId events) : event ∈ events := by
  obtain ⟨e, he, rfl⟩ := List.mem_map.mp h
  exact ((lastUnderId_spec events).2 e ((Lists.mem_sortBy _).mp he)).2

lemma nodup_byEventId (events : List Map) : ((byEventId events).map eventKey).Nodup := by
  obtain ⟨hnodup, hkeys⟩ := lastUnderId_spec events
  set sorted := sortBy (fun a b => compare a.1 b.1) (lastUnderId events) with hsorted
  have hsame : (byEventId events).map eventKey = sorted.map Prod.fst := by
    rw [byEventId, List.map_map]
    exact List.map_congr_left fun e he => ((hkeys e ((Lists.mem_sortBy _).mp he)).1).symm
  rw [hsame]
  exact ((Lists.sortBy_perm _ (lastUnderId events)).map Prod.fst).nodup_iff.mpr hnodup

end

omit [FloatRead] in
/-- The records of a batch are its events once for each id. -/
lemma sourceRecords_ok {messages : List Value} {records : List SourceRecord}
    (h : sourceRecords scope fetchedAt messages = .ok records) :
    (∀ raw ∈ messages, ∃ event, normalizeGraphEvent scope raw fetchedAt = .ok event) ∧
      records = (byEventId (eventsOf scope fetchedAt messages)).map
        (sourceRecord scope fetchedAt) := by
  obtain ⟨last, hlast, h⟩ := Lists.bind_eq_ok h
  have htraces : (∀ raw ∈ messages, ∃ event, normalizeGraphEvent scope raw fetchedAt = .ok event) ∧
      last = lastUnderId (eventsOf scope fetchedAt messages) := by
    refine @Lists.foldlM_traces _ _ _ _ (fun taken last =>
      (∀ raw ∈ taken, ∃ event, normalizeGraphEvent scope raw fetchedAt = .ok event) ∧
        last = lastUnderId (eventsOf scope fetchedAt taken)) ?_ [] _ _ _
      ⟨fun _ h => (by cases h), rfl⟩ hlast
    rintro taken c c' raw ⟨htaken, rfl⟩ hstep
    obtain ⟨event, hevent, hstep⟩ := Lists.bind_eq_ok hstep
    refine ⟨fun other hmem => ?_, ?_⟩
    · rcases List.mem_append.mp hmem with hmem | hmem
      · exact htaken other hmem
      · rw [List.mem_singleton.mp hmem]
        exact ⟨event, hevent⟩
    · have hone : eventsOf scope fetchedAt [raw] = [event] := by
        rw [eventsOf, List.filterMap_cons, hevent]
        rfl
      have hboth : eventsOf scope fetchedAt (taken ++ [raw]) =
          eventsOf scope fetchedAt taken ++ [event] := by
        rw [← hone]
        exact List.filterMap_append
      rw [hboth, lastUnderId, List.foldl_append]
      exact (Except.ok.inj hstep).symm
  refine ⟨htraces.1, ?_⟩
  rw [← Except.ok.inj h, htraces.2, byEventId, List.map_map]
  rfl

/-- **A batch leaves what its events leave in the order of their ids.** -/
lemma leaves_of_batch {events : List Map} {now : String}
    (hevents : ∀ event ∈ events, IsEvent scope event)
    (h : processBatch scope now ((byEventId events).map (sourceRecord scope fetchedAt)) .empty =
      .ok p) : Leaves scope (byEventId events) p := by
  have hrun : (byEventId events).foldlM (fun p event =>
      applyRecord scope now p (sourceRecord scope fetchedAt event)) .empty = .ok p := by
    rw [← h, processBatch, List.foldlM_map]
  have hempty : ∀ id, (Projection.empty.applied id).isSome → id ∈ ([] : List Map).map eventKey :=
    fun _ h => (by cases h)
  -- the ids behind a marker are those that were taken, so an event that comes has none
  refine (@Lists.foldlM_traces _ _ _ _ (fun taken p =>
    (taken.map eventKey).Nodup → (∀ event ∈ taken, IsEvent scope event) →
      Leaves scope taken p ∧ ∀ id, (p.applied id).isSome → id ∈ taken.map eventKey)
    (fun taken c c' event hc hevent hnodup htaken => ?_) [] _ _ _
    (fun _ _ => ⟨leaves_empty, hempty⟩) hrun (nodup_byEventId events)
    fun event hmem => hevents event (mem_of_mem_byEventId hmem)).1
  rw [List.map_append] at hnodup ⊢
  obtain ⟨hleaves, happlied⟩ := hc (List.Nodup.of_append_left hnodup)
    fun e he => htaken e (List.mem_append_left _ he)
  have his : IsEvent scope event := htaken event (List.mem_append_right _ List.mem_cons_self)
  have hnew : c.applied (sourceRecord scope fetchedAt event).recordId = none := by
    rw [← Option.not_isSome_iff_eq_none]
    intro hmarked
    exact List.disjoint_of_nodup_append hnodup (happlied _ hmarked) List.mem_cons_self
  rw [applyRecord, hnew] at hevent
  obtain ⟨q, hq, hevent⟩ := Lists.bind_eq_ok hevent
  obtain rfl := Except.ok.inj hevent
  have hconcat := hleaves.concat his hq
  refine ⟨⟨hconcat.messages, hconcat.tombstones⟩, fun id hid => ?_⟩
  have hq' : q.applied = c.applied := (projectEvent_ok his hq).2.2
  change (q.applied.write _ _ id).isSome = true at hid
  rw [hq', Dir.write_apply] at hid
  split_ifs at hid with hsame
  · exact List.mem_append_right _ (List.mem_singleton.mpr hsame)
  · exact List.mem_append_left _ (happlied id hid)

end Projecting

/-! ### Fetched batches -/

section Fetched

variable [FloatText] [FloatRead] [Lowercase] [JsonRead] {remote : Remote} {scope : ScopeConfig}
  {checkpoint : Option String} {fetchedAt now : String} {traffic : Traffic} {messages : List Value}
  {links : Map} {batch : SourceBatch} {p : Projection}

omit [FloatRead] in
lemma fetchGraphBatch_ok
    (hmessages : ((fetchGraphMessages remote scope checkpoint).run.run traffic).1 =
      .ok (messages, links))
    (hbatch : ((fetchGraphBatch remote scope checkpoint fetchedAt).run.run traffic).1 = .ok batch) :
    sourceRecords scope fetchedAt messages = .ok batch.records := by
  unfold fetchGraphBatch at hbatch
  rw [ExceptT.run_bind, StateT.run_bind] at hbatch
  rcases hrun : (fetchGraphMessages remote scope checkpoint).run.run traffic with ⟨r, traffic'⟩
  rw [hrun] at hmessages hbatch
  obtain rfl : r = .ok (messages, links) := hmessages
  cases hrecords : sourceRecords scope fetchedAt messages with
  | error e =>
      change ((ExceptT.mk (pure (sourceRecords scope fetchedAt messages)) >>= _ :
        Fetch Value SourceBatch).run.run traffic').1 = _ at hbatch
      rw [hrecords] at hbatch
      cases hbatch
  | ok records =>
      change ((ExceptT.mk (pure (sourceRecords scope fetchedAt messages)) >>= _ :
        Fetch Value SourceBatch).run.run traffic').1 = _ at hbatch
      rw [hrecords] at hbatch
      rw [← Except.ok.inj hbatch]

omit [Lowercase] [JsonRead] in
/-- A batch of at most one entry keeps the order of the source. -/
lemma sameInBothOrders_of_length_le {events : List Map} (h : events.length ≤ 1) :
    SameInBothOrders scope events := by
  have hsame : byEventId events = events := by
    match events, h with
    | [], _ => rfl
    | [event], _ => rfl
  intro name
  rw [hsame]
  exact ⟨rfl, fun _ => rfl⟩

end Fetched

/-! ### A message that moves to another folder -/

/-- A scope with two folders. -/
def twoFolders : ScopeConfig := { publicScope with includedContainerRefs := ["archive", "inbox"] }

/-- A source with a page of entries for the archive and one for the other folders. -/
def pages (archive others : List Value) : Remote where
  accessToken := .ok "token"
  heartbeat _ := .ok ()
  get _ request := .ok (.object
    [("value", .array (if request.url = deltaUrl twoFolders "archive" then archive else others)),
      ("@odata.deltaLink", .string "https://graph.microsoft.com/v1.0/next")])

/-- A message that is in the inbox. -/
def arrived : Value :=
  .object [("id", .string "m1"), ("parentFolderId", .string "inbox"), ("changeKey", .string "2")]

/-- The same message, gone from a folder. -/
def departed : Value :=
  .object [("id", .string "m1"), ("@removed", .object [("reason", .string "deleted")])]

section Concrete

variable [FloatText] [FloatRead] [Lowercase] [JsonRead]

/-- The time of a fetch. -/
def noon : String := "2026-01-01T12:00:00.000Z"

/-- The entries that a fetch of two folders returns. -/
def fetchedEntries (remote : Remote) : Except Value (List Value × Map) :=
  ((fetchGraphMessages remote twoFolders none).run.run noTraffic).1

/-- The batch that a fetch of two folders returns. -/
def fetchedBatch (remote : Remote) : Except Value SourceBatch :=
  ((fetchGraphBatch remote twoFolders none noon).run.run noTraffic).1

/-- A projection behind the batch of two folders. -/
def batchProjection (remote : Remote) : Except Value Projection :=
  (fetchedBatch remote).bind fun batch => processBatch twoFolders noon batch.records .empty

end Concrete

end Mailbox

end McpSurfaces
