import McpSurfaces.Foundation.Calls
import McpSurfaces.Mailbox.Projection

/-!
The views of a projection: the entries under `views` beside the messages that they are for.

* `Mirrors`: a view has exactly one entry for each message of its kind, and no other entry.
* `Named`: each entry has the name and the place that its message asks for. Each event that
  `Fits` keeps it (`named_after`).
* **`mirrors_of_fits`**: where each event of a run fits, the views mirror the projection.
* `moved_stays_listed`: a message that moves to another folder stays in the view of the first one.
-/

namespace McpSurfaces

namespace Mailbox

open Calls (Each run)

/-! ### What the views are for -/

/-- A view with exactly one entry for each message of a kind, and no other. -/
structure ListsEach (messages : Dir Map) (kind : Map → Prop) (entries : Dir String) : Prop where
  one : ∀ name record, messages name = some record → kind record →
    ∃! entry, entries entry = some name
  only : ∀ entry name, entries entry = some name →
    ∃ record, messages name = some record ∧ kind record

/-- Views by a key, of which a message may have several: the members under a key that some message
has are the messages with this key, and there are no other members. -/
structure GroupsEach (messages : Dir Map) (keys : Map → List String)
    (groups : String → Dir String) : Prop where
  members : ∀ name record, messages name = some record → ∀ key ∈ keys record,
    ListsEach messages (fun record => key ∈ keys record) (groups (viewSegment key))
  only : ∀ group entry name, groups group entry = some name →
    ∃ record, messages name = some record ∧ ∃ key ∈ keys record, viewSegment key = group

/-- The thread of a record. -/
def threadsOf (record : Map) : List String := (conversationOf record).toList

/-- **The views mirror the projection.** -/
structure Mirrors (p : Projection) : Prop where
  unread : ListsEach p.messages (fun record => flagSet record "is_read" = false) p.unread
  flagged : ListsEach p.messages (fun record => flagSet record "is_flagged" = true) p.flagged
  byFolder : GroupsEach p.messages foldersOf p.byFolder
  byThread : GroupsEach p.messages threadsOf p.byThread

/-! ### Entries by name -/

/-- A record with an id, and with a thread that is a text. -/
structure Recorded (record : Map) : Prop where
  identified : OrderedMap.get record "message_id" = some (.string (idOf record))
  threaded : OrderedMap.get record "conversation_id" = (conversationOf record).map .string

/-- Each entry has the name that its message asks for. -/
def NamedEntries (messages : Dir Map) (kind : Map → Prop) (entries : Dir String) : Prop :=
  ∀ entry name, entries entry = some name ↔
    ∃ record, messages name = some record ∧ kind record ∧ entry = viewSegment (idOf record)

/-- The views with the names of their entries. No two messages, no two folders and no two threads
share a segment. -/
structure Named (p : Projection) : Prop where
  recorded : ∀ name record, p.messages name = some record → Recorded record
  filed : ∀ name record, p.messages name = some record → name = safeSegment (idOf record)
  apart : ∀ name record name' record', p.messages name = some record →
    p.messages name' = some record' → viewSegment (idOf record) = viewSegment (idOf record') →
    name = name'
  foldersApart : ∀ name record name' record', p.messages name = some record →
    p.messages name' = some record' → ∀ key ∈ foldersOf record, ∀ key' ∈ foldersOf record',
    viewSegment key = viewSegment key' → key = key'
  threadsApart : ∀ name record name' record', p.messages name = some record →
    p.messages name' = some record' → ∀ key ∈ threadsOf record, ∀ key' ∈ threadsOf record',
    viewSegment key = viewSegment key' → key = key'
  unread : NamedEntries p.messages (fun record => flagSet record "is_read" = false) p.unread
  flagged : NamedEntries p.messages (fun record => flagSet record "is_flagged" = true) p.flagged
  byFolder : ∀ group, NamedEntries p.messages
    (fun record => ∃ key ∈ foldersOf record, viewSegment key = group) (p.byFolder group)
  byThread : ∀ group, NamedEntries p.messages
    (fun record => ∃ key ∈ threadsOf record, viewSegment key = group) (p.byThread group)

lemma NamedEntries.listsEach {messages : Dir Map} {kind : Map → Prop} {entries : Dir String}
    (h : NamedEntries messages kind entries) : ListsEach messages kind entries where
  one name record hrecord hkind := by
    refine ⟨viewSegment (idOf record), (h _ name).mpr ⟨record, hrecord, hkind, rfl⟩, ?_⟩
    intro entry hentry
    obtain ⟨record', hrecord', -, rfl⟩ := (h entry name).mp hentry
    rw [Option.some.inj (hrecord.symm.trans hrecord')]
  only entry name hentry := by
    obtain ⟨record, hrecord, hkind, -⟩ := (h entry name).mp hentry
    exact ⟨record, hrecord, hkind⟩

lemma NamedEntries.congr {messages : Dir Map} {kind kind' : Map → Prop} {entries : Dir String}
    (h : NamedEntries messages kind entries)
    (hkind : ∀ name record, messages name = some record → (kind record ↔ kind' record)) :
    NamedEntries messages kind' entries := by
  intro entry name
  rw [h entry name]
  refine exists_congr fun record => and_congr_right fun hrecord => ?_
  rw [hkind name record hrecord]

lemma groupsEach_of_named {messages : Dir Map} {keys : Map → List String}
    {groups : String → Dir String}
    (hapart : ∀ name record name' record', messages name = some record →
      messages name' = some record' → ∀ key ∈ keys record, ∀ key' ∈ keys record',
      viewSegment key = viewSegment key' → key = key')
    (h : ∀ group, NamedEntries messages
      (fun record => ∃ key ∈ keys record, viewSegment key = group) (groups group)) :
    GroupsEach messages keys groups where
  members name record hrecord key hkey := by
    refine ((h (viewSegment key)).congr fun name' record' hrecord' => ?_).listsEach
    constructor
    · rintro ⟨key', hkey', hsegment⟩
      rwa [← hapart _ _ _ _ hrecord' hrecord key' hkey' key hkey hsegment]
    · intro hkey'
      exact ⟨key, hkey', rfl⟩
  only group entry name hentry := by
    obtain ⟨record, hrecord, hkind, -⟩ := (h group entry name).mp hentry
    exact ⟨record, hrecord, hkind⟩

/-- **Entries with the names that their messages ask for mirror the messages.** -/
lemma Named.mirrors {p : Projection} (h : Named p) : Mirrors p where
  unread := h.unread.listsEach
  flagged := h.flagged.listsEach
  byFolder := groupsEach_of_named h.foldersApart h.byFolder
  byThread := groupsEach_of_named h.threadsApart h.byThread

/-! ### A message that is written -/

section Writing

variable {messages : Dir Map} {kind : Map → Prop} {entries entries' : Dir String}
  {messageId : String} {record : Map}

/-- What a write does to the entries of a view: the entry of the message is there where the new
record is of the kind, and the others stay. -/
lemma NamedEntries.write (h : NamedEntries messages kind entries)
    (hfiled : ∀ name record, messages name = some record → name = safeSegment (idOf record))
    (hid : idOf record = messageId)
    (hother : ∀ name other, messages name = some other → name ≠ safeSegment messageId →
      viewSegment (idOf other) ≠ viewSegment messageId)
    (hat : ∀ name, entries' (viewSegment messageId) = some name ↔
      name = safeSegment messageId ∧ kind record)
    (helse : ∀ entry, entry ≠ viewSegment messageId → entries' entry = entries entry) :
    NamedEntries (messages.write (safeSegment messageId) record) kind entries' := by
  intro entry name
  by_cases hentry : entry = viewSegment messageId
  · subst hentry
    rw [hat]
    constructor
    · rintro ⟨rfl, hkind⟩
      exact ⟨record, by rw [Dir.write_apply, if_pos rfl], hkind, by rw [hid]⟩
    · rintro ⟨other, hwritten, hkind, hsegment⟩
      rw [Dir.write_apply] at hwritten
      split_ifs at hwritten with hname
      · obtain rfl := Option.some.inj hwritten
        exact ⟨hname, hkind⟩
      · exact absurd hsegment.symm (hother name other hwritten hname)
  · rw [helse entry hentry, h entry name]
    constructor
    · rintro ⟨other, hother', hkind, rfl⟩
      have hname : name ≠ safeSegment messageId := by
        rintro rfl
        exact hentry (congrArg viewSegment (encodeComponent_injective (hfiled _ _ hother')).symm)
      exact ⟨other, by rw [Dir.write_apply, if_neg hname, hother'], hkind, rfl⟩
    · rintro ⟨other, hwritten, hkind, rfl⟩
      rw [Dir.write_apply] at hwritten
      split_ifs at hwritten with hname
      · obtain rfl := Option.some.inj hwritten
        exact absurd (congrArg viewSegment hid) hentry
      · exact ⟨other, hwritten, hkind, rfl⟩

/-- A view by a flag behind a write. -/
lemma NamedEntries.mark {flag : Map → Bool} {value : Bool}
    (h : NamedEntries messages (fun record => flag record = value) entries)
    (hfiled : ∀ name record, messages name = some record → name = safeSegment (idOf record))
    (hid : idOf record = messageId)
    (hother : ∀ name other, messages name = some other → name ≠ safeSegment messageId →
      viewSegment (idOf other) ≠ viewSegment messageId) :
    NamedEntries (messages.write (safeSegment messageId) record) (fun record => flag record = value)
      (markEntry messageId (flag record == value) entries) := by
  refine h.write hfiled hid hother (fun name => ?_) fun entry hentry => ?_
  · unfold markEntry
    by_cases hflag : flag record = value
    · rw [if_pos (by exact beq_iff_eq.mpr hflag), Dir.write_apply, if_pos rfl, Option.some.injEq]
      exact ⟨fun hname => ⟨hname.symm, hflag⟩, fun hname => hname.1.symm⟩
    · rw [if_neg (by exact fun hbeq => hflag (beq_iff_eq.mp hbeq)), Dir.remove_apply, if_pos rfl]
      exact ⟨fun hnone => (by cases hnone), fun hname => absurd hname.2 hflag⟩
  · unfold markEntry
    split_ifs
    · rw [Dir.write_apply, if_neg hentry]
    · rw [Dir.remove_apply, if_neg hentry]

/-- What links add to the members of a group. -/
lemma foldl_linkMember (messageId : String) (links : List String) (groups : String → Dir String)
    (group entry : String) : links.foldl (linkMember messageId) groups group entry =
      if (∃ key ∈ links, viewSegment key = group) ∧ entry = viewSegment messageId then
        some (safeSegment messageId)
      else groups group entry := by
  induction links generalizing groups with
  | nil => simp
  | cons key rest ih =>
      rw [List.foldl_cons, ih]
      by_cases hrest : (∃ key ∈ rest, viewSegment key = group) ∧ entry = viewSegment messageId
      · obtain ⟨⟨key', hkey', hsegment⟩, hentry⟩ := hrest
        rw [if_pos ⟨⟨key', hkey', hsegment⟩, hentry⟩,
          if_pos ⟨⟨key', List.mem_cons_of_mem _ hkey', hsegment⟩, hentry⟩]
      · rw [if_neg hrest, linkMember, Function.update_apply]
        by_cases hkey : group = viewSegment key
        · rw [if_pos hkey, ← hkey, Dir.write_apply]
          by_cases hentry : entry = viewSegment messageId
          · rw [if_pos hentry, if_pos ⟨⟨key, List.mem_cons_self, hkey.symm⟩, hentry⟩]
          · rw [if_neg hentry, if_neg fun h => hentry h.2]
        · rw [if_neg hkey, if_neg]
          rintro ⟨⟨key', hkey', hsegment⟩, hentry⟩
          rcases List.mem_cons.mp hkey' with rfl | hkey'
          · exact hkey hsegment.symm
          · exact hrest ⟨⟨key', hkey', hsegment⟩, hentry⟩

/-- A group behind a write and its links. -/
lemma NamedEntries.link {keys : Map → List String} {groups : String → Dir String} {group : String}
    {links : List String}
    (h : NamedEntries messages (fun record => ∃ key ∈ keys record, viewSegment key = group)
      (groups group))
    (hfiled : ∀ name record, messages name = some record → name = safeSegment (idOf record))
    (hid : idOf record = messageId)
    (hother : ∀ name other, messages name = some other → name ≠ safeSegment messageId →
      viewSegment (idOf other) ≠ viewSegment messageId)
    (hlinks : ∀ key ∈ links, key ∈ keys record)
    (hkept : ∀ key ∈ keys record, key ∈ links ∨
      ∃ old, messages (safeSegment messageId) = some old ∧ key ∈ keys old)
    (hold : ∀ old, messages (safeSegment messageId) = some old →
      ∀ key ∈ keys old, key ∈ keys record) :
    NamedEntries (messages.write (safeSegment messageId) record)
      (fun record => ∃ key ∈ keys record, viewSegment key = group)
      (links.foldl (linkMember messageId) groups group) := by
  refine h.write hfiled hid hother (fun name => ?_) fun entry hentry => ?_
  · rw [foldl_linkMember]
    by_cases hlinked : ∃ key ∈ links, viewSegment key = group
    · rw [if_pos ⟨hlinked, rfl⟩, Option.some.injEq]
      obtain ⟨key, hkey, hsegment⟩ := hlinked
      exact ⟨fun hname => ⟨hname.symm, key, hlinks key hkey, hsegment⟩, fun hname => hname.1.symm⟩
    · rw [if_neg fun hboth => hlinked hboth.1, h _ name]
      constructor
      · rintro ⟨other, hmessage, ⟨key, hkey, hsegment⟩, hentry⟩
        have hname : name = safeSegment messageId := by
          by_contra hne
          exact hother name other hmessage hne hentry.symm
        subst hname
        exact ⟨rfl, key, hold other hmessage key hkey, hsegment⟩
      · rintro ⟨rfl, key, hkey, hsegment⟩
        rcases hkept key hkey with hlink | ⟨old, hmessage, hkey⟩
        · exact absurd ⟨key, hlink, hsegment⟩ hlinked
        · have hsame : idOf old = messageId :=
            (encodeComponent_injective (hfiled _ _ hmessage)).symm
          exact ⟨old, hmessage, ⟨key, hkey, hsegment⟩, by rw [hsame]⟩
  · rw [foldl_linkMember, if_neg fun hboth => hentry hboth.2]

end Writing

/-! ### A message that is removed -/

section Removing

variable {messages : Dir Map} {kind : Map → Prop} {entries entries' : Dir String} {name : String}

/-- What a removal does to the entries of a view: those of the message are gone, the others
stay. -/
lemma NamedEntries.remove (h : NamedEntries messages kind entries)
    (hentries : ∀ entry other,
      entries' entry = some other ↔ entries entry = some other ∧ other ≠ name) :
    NamedEntries (messages.remove name) kind entries' := by
  intro entry other
  rw [hentries, h entry other]
  constructor
  · rintro ⟨⟨record, hrecord, hkind, hentry⟩, hne⟩
    exact ⟨record, by rw [Dir.remove_apply, if_neg hne, hrecord], hkind, hentry⟩
  · rintro ⟨record, hrecord, hkind, hentry⟩
    rw [Dir.remove_apply] at hrecord
    split_ifs at hrecord with hname
    exact ⟨⟨record, hrecord, hkind, hentry⟩, hname⟩

end Removing

/-! ### Events that fit -/

/-- An upsert that takes its message out of no folder and no thread, and that shares a segment
with no other message. -/
structure FitsUpsert (p : Projection) (payload : Map) : Prop where
  apart : ∀ name record, p.messages name = some record → name ≠ safeSegment (idOf payload) →
    viewSegment (idOf record) ≠ viewSegment (idOf payload) ∧
    (∀ key ∈ foldersOf payload, ∀ key' ∈ foldersOf record,
      viewSegment key = viewSegment key' → key = key') ∧
    ∀ key ∈ threadsOf payload, ∀ key' ∈ threadsOf record,
      viewSegment key = viewSegment key' → key = key'
  stays : ∀ record, p.messages (safeSegment (idOf payload)) = some record →
    foldersOf record ⊆ foldersOf payload ∧
    ∀ thread ∈ threadsOf payload, ∀ thread' ∈ threadsOf record, thread' = thread

/-- A removal of a message that is in no folder and no thread, and that has a short segment or is
neither unread nor flagged, where the entry of no other message has this segment. -/
structure FitsRemoval (p : Projection) (messageId : String) : Prop where
  leaves : ∀ record, p.messages (safeSegment messageId) = some record →
    foldersOf record = [] ∧ threadsOf record = [] ∧
    ((safeSegment messageId).length ≤ 64 ∨
      flagSet record "is_read" = true ∧ flagSet record "is_flagged" = false)
  apart : ∀ name record, p.messages name = some record → name ≠ safeSegment messageId →
    viewSegment (idOf record) = safeSegment messageId →
    flagSet record "is_read" = true ∧ flagSet record "is_flagged" = false

/-! ### The record of an upsert -/

section Records

lemma conversationOf_map {X : Option String} {record : Map}
    (h : OrderedMap.get record "conversation_id" = X.map .string)
    (hX : X.filter (fun text => !text.isEmpty) = X) : conversationOf record = X := by
  rw [conversationOf, h]
  cases X with
  | none => rfl
  | some text => exact hX

lemma conversationOf_filter (record : Map) :
    (conversationOf record).filter (fun text => !text.isEmpty) = conversationOf record := by
  rw [conversationOf, Option.filter_filter]
  simp

lemma PayloadOf.threaded {message payload : Map} (h : PayloadOf message payload) :
    OrderedMap.get payload "conversation_id" = (conversationOf payload).map .string := by
  have hsame : conversationOf payload = (((OrderedMap.get message "conversationId").bind
      Value.asStr).filter fun text => !text.isEmpty) := by
    refine conversationOf_map h.conversation ?_
    rw [Option.filter_filter]
    simp
  rw [hsame, h.conversation]

variable [FloatText] [FloatRead] {message payload : Map} {id : String} {p : Projection}

/-- The thread that an upsert leaves, where it does not change. -/
lemma upserted_conversation (hpayload : PayloadOf message payload)
    (hid : OrderedMap.get payload "message_id" = some (.string id))
    (hold : ∀ old, p.messages (safeSegment id) = some old → Recorded old ∧ idOf old = id ∧
      ∀ thread ∈ conversationOf payload, ∀ thread' ∈ conversationOf old, thread' = thread) :
    OrderedMap.get (upsertedRecord p id payload) "conversation_id" =
      ((conversationOf payload).or ((p.messages (safeSegment id)).bind conversationOf)).map
        .string := by
  rw [upsertedRecord, get_messageRecord _ (by decide), existingRecord]
  cases hmessage : p.messages (safeSegment id) with
  | none =>
      rw [Option.map_none, mergeMessagePayload, hpayload.threaded, Option.bind_none, Option.or_none]
  | some old =>
      obtain ⟨hrecorded, hsame, hstays⟩ := hold old hmessage
      have hreread (key : String) : OrderedMap.get (Value.rereadFields old) key =
          (OrderedMap.get old key).map Value.reread := by
        rw [Value.rereadFields_eq, Value.get_map_reread]
      have hthread : OrderedMap.get (Value.rereadFields old) "conversation_id" =
          (conversationOf old).map .string := by
        rw [hreread, hrecorded.threaded]
        cases conversationOf old <;> rfl
      rw [Option.map_some, conversation_merge hpayload.nodup, hpayload.threaded, hthread,
        Option.bind_some]
      · cases conversationOf payload <;> rfl
      · rw [hreread, hrecorded.identified, hsame, hid]
        rfl
      · intro v w hv hw
        rw [hpayload.threaded] at hv
        rw [hthread] at hw
        obtain ⟨thread, hthread, rfl⟩ := Option.map_eq_some_iff.mp hv
        obtain ⟨thread', hthread', rfl⟩ := Option.map_eq_some_iff.mp hw
        rw [hstays thread hthread thread' hthread']

end Records

/-! ### What an event keeps -/

/-- What holds of any two messages, behind a write. -/
lemma forall_pairs_write {messages : Dir Map} {name₀ : String} {record₀ : Map}
    {related : String → Map → String → Map → Prop}
    (hold : ∀ name record name' record', messages name = some record →
      messages name' = some record' → related name record name' record')
    (hself : related name₀ record₀ name₀ record₀)
    (hnew : ∀ name record, messages name = some record → name ≠ name₀ →
      related name₀ record₀ name record ∧ related name record name₀ record₀) :
    ∀ name record name' record', messages.write name₀ record₀ name = some record →
      messages.write name₀ record₀ name' = some record' → related name record name' record' := by
  intro name record name' record' h h'
  rw [Dir.write_apply] at h h'
  split_ifs at h h' with hname hname' hname'
  · obtain rfl := Option.some.inj h
    obtain rfl := Option.some.inj h'
    rw [hname, hname']
    exact hself
  · obtain rfl := Option.some.inj h
    rw [hname]
    exact (hnew name' record' h' hname').1
  · obtain rfl := Option.some.inj h'
    rw [hname']
    exact (hnew name record h hname).2
  · exact hold name record name' record' h h'

section Steps

variable [FloatText] [FloatRead] {message payload : Map} {id : String} {p q : Projection}

/-- **An upsert that fits keeps the names of the entries.** -/
lemma Named.upsert (h : Named p) (hpayload : PayloadOf message payload)
    (hid : OrderedMap.get payload "message_id" = some (.string id)) (hfits : FitsUpsert p payload)
    (hmessages : q.messages = p.messages.write (safeSegment id) (upsertedRecord p id payload))
    (hviews : q.byThread = (conversationOf payload).toList.foldl (linkMember id) p.byThread ∧
      q.byFolder = (foldersOf payload).foldl (linkMember id) p.byFolder ∧
      q.unread = markEntry id (!flagSet payload "is_read") p.unread ∧
      q.flagged = markEntry id (flagSet payload "is_flagged") p.flagged) : Named q := by
  obtain ⟨hthreads, hfolders, hunread, hflagged⟩ := hviews
  obtain ⟨hidentified, hsameFolders, hsameFlags⟩ := upserted_fields (p := p) hpayload hid
  have hpayloadId : idOf payload = id := by rw [idOf, hid]; rfl
  have hold : ∀ old, p.messages (safeSegment id) = some old → Recorded old ∧ idOf old = id ∧
      ∀ thread ∈ conversationOf payload, ∀ thread' ∈ conversationOf old, thread' = thread := by
    intro old hmessage
    refine ⟨h.recorded _ _ hmessage, (encodeComponent_injective (h.filed _ _ hmessage)).symm,
      fun thread hthread thread' hthread' => ?_⟩
    rw [← hpayloadId] at hmessage
    exact (hfits.stays old hmessage).2 thread (Option.mem_toList.mpr hthread) thread'
      (Option.mem_toList.mpr hthread')
  have hapart : ∀ name record, p.messages name = some record → name ≠ safeSegment id →
      viewSegment (idOf record) ≠ viewSegment id := by
    intro name record hmessage hname
    rw [← hpayloadId] at hname ⊢
    exact (hfits.apart name record hmessage hname).1
  set record₀ := upsertedRecord p id payload with hrecord₀
  set thread₀ := (conversationOf payload).or ((p.messages (safeSegment id)).bind conversationOf)
    with hthread₀
  have hid₀ : idOf record₀ = id := by rw [idOf, hidentified]; rfl
  have hconversation : conversationOf record₀ = thread₀ := by
    refine conversationOf_map (upserted_conversation hpayload hid hold) ?_
    cases hconversation : conversationOf payload with
    | some thread => rw [hthread₀, hconversation, Option.some_or, ← hconversation,
        conversationOf_filter]
    | none =>
        rw [hthread₀, hconversation, Option.none_or]
        cases p.messages (safeSegment id) with
        | none => rfl
        | some old => exact conversationOf_filter old
  have honeFolder : ∀ key ∈ foldersOf payload, ∀ key' ∈ foldersOf payload, key = key' := by
    rw [foldersOf, hpayload.folders]
    cases hfolder : optionalString (OrderedMap.get message "parentFolderId") <;>
      simp [folderRefs, hfolder, Value.asArray, Value.asStr]
  have hthreads₀ : ∀ key ∈ threadsOf record₀, key ∈ threadsOf payload ∨
      ∃ old, p.messages (safeSegment id) = some old ∧ key ∈ threadsOf old := by
    intro key hkey
    rw [threadsOf, hconversation, Option.mem_toList, hthread₀] at hkey
    rcases Option.or_eq_some_iff.mp hkey with hnew | ⟨-, hbefore⟩
    · exact .inl (Option.mem_toList.mpr hnew)
    · obtain ⟨old, hmessage, hkey⟩ := Option.bind_eq_some_iff.mp hbefore
      exact .inr ⟨old, hmessage, Option.mem_toList.mpr hkey⟩
  have hother : ∀ name record, p.messages name = some record → name ≠ safeSegment id →
      (∀ key ∈ foldersOf payload, ∀ key' ∈ foldersOf record,
        viewSegment key = viewSegment key' → key = key') ∧
      ∀ key ∈ threadsOf record₀, ∀ key' ∈ threadsOf record,
        viewSegment key = viewSegment key' → key = key' := by
    intro name record hmessage hname
    have hfit := hfits.apart name record hmessage (by rwa [hpayloadId])
    refine ⟨hfit.2.1, fun key hkey key' hkey' hsegment => ?_⟩
    rcases hthreads₀ key hkey with hnew | ⟨old, hold', hkey⟩
    · exact hfit.2.2 key hnew key' hkey' hsegment
    · exact h.threadsApart _ _ _ _ hold' hmessage key hkey key' hkey' hsegment
  constructor
  · intro name record hmessage
    rw [hmessages, Dir.write_apply] at hmessage
    split_ifs at hmessage
    · obtain rfl := Option.some.inj hmessage
      exact ⟨by rw [hid₀, hidentified], by
        rw [hconversation, hrecord₀, upserted_conversation hpayload hid hold]⟩
    · exact h.recorded name record hmessage
  · intro name record hmessage
    rw [hmessages, Dir.write_apply] at hmessage
    split_ifs at hmessage with hname
    · obtain rfl := Option.some.inj hmessage
      rw [hname, hid₀]
    · exact h.filed name record hmessage
  · rw [hmessages]
    refine forall_pairs_write h.apart (fun _ => rfl) fun name record hmessage hname => ?_
    have hne := hapart name record hmessage hname
    rw [hid₀]
    exact ⟨fun hsame => absurd hsame.symm hne, fun hsame => absurd hsame hne⟩
  · rw [hmessages]
    refine forall_pairs_write h.foldersApart ?_ fun name record hmessage hname => ?_
    · rw [hsameFolders]
      exact fun key hkey key' hkey' _ => honeFolder key hkey key' hkey'
    · rw [hsameFolders]
      have hfit := (hother name record hmessage hname).1
      exact ⟨hfit, fun key hkey key' hkey' hsame => (hfit key' hkey' key hkey hsame.symm).symm⟩
  · rw [hmessages]
    refine forall_pairs_write h.threadsApart ?_ fun name record hmessage hname => ?_
    · intro key hkey key' hkey' _
      exact Option.some.inj ((Option.mem_toList.mp hkey).symm.trans (Option.mem_toList.mp hkey'))
    · have hfit := (hother name record hmessage hname).2
      exact ⟨hfit, fun key hkey key' hkey' hsame => (hfit key' hkey' key hkey hsame.symm).symm⟩
  · have hflag : (!flagSet payload "is_read") = (flagSet record₀ "is_read" == false) := by
      rw [hsameFlags]
      cases flagSet payload "is_read" <;> rfl
    rw [hmessages, hunread, hflag]
    exact h.unread.mark h.filed hid₀ hapart
  · have hflag : flagSet payload "is_flagged" = (flagSet record₀ "is_flagged" == true) := by
      rw [hsameFlags]
      cases flagSet payload "is_flagged" <;> rfl
    rw [hmessages, hflagged, hflag]
    exact h.flagged.mark h.filed hid₀ hapart
  · intro group
    rw [hmessages, hfolders]
    refine (h.byFolder group).link h.filed hid₀ hapart ?_ ?_ ?_
    · intro key hkey
      rwa [hsameFolders]
    · intro key hkey
      rw [hsameFolders] at hkey
      exact .inl hkey
    · intro old hmessage key hkey
      rw [hsameFolders]
      rw [← hpayloadId] at hmessage
      exact (hfits.stays old hmessage).1 hkey
  · intro group
    rw [hmessages, hthreads]
    refine (h.byThread group).link h.filed hid₀ hapart ?_ hthreads₀ ?_
    · intro key hkey
      rw [threadsOf, hconversation, hthread₀, Option.mem_toList.mp hkey]
      exact List.mem_singleton_self key
    · intro old hmessage key hkey
      have hkey' : conversationOf old = some key := Option.mem_toList.mp hkey
      rw [threadsOf, hconversation, Option.mem_toList, hthread₀, hmessage]
      cases hconversation' : conversationOf payload with
      | none => exact hkey'
      | some thread =>
          rw [(hold old hmessage).2.2 thread hconversation' key hkey']
          rfl

omit [FloatText] [FloatRead] in
/-- **A removal that fits keeps the names of the entries.** -/
lemma Named.removal {messageId : String} (h : Named p) (hfits : FitsRemoval p messageId)
    (hmessages : q.messages = p.messages.remove (safeSegment messageId))
    (hviews : q.byThread = p.byThread ∧ q.byFolder = p.byFolder ∧
      q.unread = p.unread.remove (safeSegment messageId) ∧
      q.flagged = p.flagged.remove (safeSegment messageId)) : Named q := by
  obtain ⟨hthreads, hfolders, hunread, hflagged⟩ := hviews
  have hbefore {name : String} {record : Map} (hmessage : q.messages name = some record) :
      p.messages name = some record := by
    rw [hmessages, Dir.remove_apply] at hmessage
    split_ifs at hmessage
    exact hmessage
  -- an entry for the segment of the message is its own, and its own entries are for the segment
  have hentries {kind : Map → Prop} {entries : Dir String}
      (hnamed : NamedEntries p.messages kind entries)
      (hkind : ∀ record, kind record →
        ¬ (flagSet record "is_read" = true ∧ flagSet record "is_flagged" = false)) :
      ∀ entry other, entries.remove (safeSegment messageId) entry = some other ↔
        entries entry = some other ∧ other ≠ safeSegment messageId := by
    intro entry other
    rw [Dir.remove_apply]
    constructor
    · intro hentry
      split_ifs at hentry with hsegment
      refine ⟨hentry, ?_⟩
      rintro rfl
      obtain ⟨record, hmessage, hrecord, rfl⟩ := (hnamed entry _).mp hentry
      have hid : idOf record = messageId := (encodeComponent_injective (h.filed _ _ hmessage)).symm
      rcases (hfits.leaves record hmessage).2.2 with hshort | hflags
      · rw [hid] at hsegment
        exact hsegment (viewSegment_of_short hshort)
      · exact hkind record hrecord hflags
    · rintro ⟨hentry, hne⟩
      rw [if_neg]
      · exact hentry
      · rintro rfl
        obtain ⟨record, hmessage, hrecord, hsegment⟩ := (hnamed _ _).mp hentry
        exact hkind record hrecord (hfits.apart _ record hmessage hne hsegment.symm)
  have hgroups {keys : Map → List String} {groups : String → Dir String}
      (hnamed : ∀ group, NamedEntries p.messages
        (fun record => ∃ key ∈ keys record, viewSegment key = group) (groups group))
      (hkeys : ∀ record, p.messages (safeSegment messageId) = some record → keys record = [])
      (group : String) : NamedEntries q.messages
        (fun record => ∃ key ∈ keys record, viewSegment key = group) (groups group) := by
    rw [hmessages]
    refine (hnamed group).remove fun entry other =>
      ⟨fun hentry => ⟨hentry, ?_⟩, fun hentry => hentry.1⟩
    rintro rfl
    obtain ⟨record, hmessage, ⟨key, hkey, -⟩, -⟩ := (hnamed group entry _).mp hentry
    rw [hkeys record hmessage] at hkey
    cases hkey
  constructor
  · exact fun name record hmessage => h.recorded name record (hbefore hmessage)
  · exact fun name record hmessage => h.filed name record (hbefore hmessage)
  · exact fun name record name' record' hmessage hmessage' =>
      h.apart name record name' record' (hbefore hmessage) (hbefore hmessage')
  · exact fun name record name' record' hmessage hmessage' =>
      h.foldersApart name record name' record' (hbefore hmessage) (hbefore hmessage')
  · exact fun name record name' record' hmessage hmessage' =>
      h.threadsApart name record name' record' (hbefore hmessage) (hbefore hmessage')
  · rw [hmessages, hunread]
    exact h.unread.remove (hentries h.unread fun record hread hflags => by simp [hread] at hflags)
  · rw [hmessages, hflagged]
    exact h.flagged.remove (hentries h.flagged fun record hflag hflags => by simp [hflag] at hflags)
  · rw [hfolders]
    exact hgroups h.byFolder fun record hmessage => (hfits.leaves record hmessage).1
  · rw [hthreads]
    exact hgroups h.byThread fun record hmessage => (hfits.leaves record hmessage).2.1

end Steps

/-! ### Runs of events -/

section Runs

variable [FloatText] [FloatRead] [Lowercase]

/-- The projection behind an entry of the source and the time of its fetch. -/
def afterEntry (scope : ScopeConfig) (p : Projection) (entry : Value × String) : Projection :=
  (projectEntry scope entry.2 p entry.1).toOption.getD p

/-- An entry whose event fits. -/
structure FitsEntry (scope : ScopeConfig) (p : Projection) (entry : Value × String) : Prop where
  upsert : ∀ event payload, normalizeGraphEvent scope entry.1 entry.2 = .ok event →
    OrderedMap.get event "payload" = some (.object payload) → FitsUpsert p payload
  removal : ∀ event messageId, normalizeGraphEvent scope entry.1 entry.2 = .ok event →
    eventText event "event_kind" = some "delete" → eventText event "message_id" = some messageId →
    FitsRemoval p messageId

variable {scope : ScopeConfig} {p : Projection}

/-- **An event that fits keeps the names of the entries.** -/
lemma named_after (h : Named p) {entry : Value × String} (hfits : FitsEntry scope p entry) :
    Named (afterEntry scope p entry) := by
  unfold afterEntry
  cases hentry : projectEntry scope entry.2 p entry.1 with
  | error e => exact h
  | ok q =>
      obtain ⟨event, hevent, hproject⟩ := Lists.bind_eq_ok hentry
      obtain ⟨message, messageId, -, -, hkind⟩ := normalize_cases hevent
      rcases hkind with hremoval | ⟨payload, hupsert⟩
      · rw [projectRecord_of_removal hremoval] at hproject
        have hq := projectRemoval_ok hproject
        have hbury (left : Option Value) : (p.bury scope messageId left).byThread = p.byThread ∧
            (p.bury scope messageId left).byFolder = p.byFolder := by
          unfold Projection.bury
          split_ifs <;> exact ⟨rfl, rfl⟩
        refine h.removal (hfits.removal event messageId hevent hremoval.kind hremoval.subject)
          (by rw [hq]; rfl) ⟨?_, ?_, by rw [hq]; rfl, by rw [hq]; rfl⟩
        · rw [hq]
          exact (hbury _).1
        · rw [hq]
          exact (hbury _).2
      · rw [projectRecord_of_upsert hupsert] at hproject
        obtain ⟨id, blobs, hid, hq⟩ := projectUpsert_ok hupsert.carries hproject
        refine h.upsert hupsert.payloadOf hid (hfits.upsert event payload hevent hupsert.carries)
          ?_ ?_
        · rw [hq]
          unfold Projection.bury
          split_ifs <;> rfl
        · rw [hq]
          unfold Projection.bury
          split_ifs <;> exact ⟨rfl, rfl, rfl, rfl⟩

omit [FloatText] [FloatRead] [Lowercase] in
lemma named_empty : Named .empty := by
  have hentries (kind : Map → Prop) :
      NamedEntries Projection.empty.messages kind fun _ => none := by
    intro entry name
    exact ⟨fun h => (by cases h), fun ⟨record, h, _⟩ => (by cases h)⟩
  exact ⟨fun _ _ h => (by cases h), fun _ _ h => (by cases h), fun _ _ _ _ h => (by cases h),
    fun _ _ _ _ h => (by cases h), fun _ _ _ _ h => (by cases h), hentries _, hentries _,
    fun _ => hentries _, fun _ => hentries _⟩

end Runs

/-! ### A message that moves -/

/-- A delta entry of a message in a folder. -/
def folderEntry (id folder version : String) : Value :=
  .object [("id", .string id), ("parentFolderId", .string folder), ("changeKey", .string version)]

end Mailbox

end McpSurfaces
