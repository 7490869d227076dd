import McpSurfaces.EventLedger.Files
import McpSurfaces.Foundation.Runs

/-!
The append to the ledger directory, `append_event`, against `files`, `head` and `verify`.

* `files` are the event files of a listing of the directory, sorted by name. The listing
  comes in any order.
* `appendEvent` is one call: the event behind the last one is built, hashed and written,
  then its marker. A call whose marker is refused leaves its event.
* **`append_verify`**: below 10^12 events the directory verifies, `files` lists the events in
  the order they were appended, numbered from one, and `head` is the hash of the last.
-/

namespace McpSurfaces

namespace EventLedger

open Lists

/-! ### The directory -/

/-- `LedgerLayout`: the prefix of the event files, part of a file name. -/
structure LedgerLayout where
  filePrefix : String
  plain : '/' ∉ filePrefix.toList

/-- The ledger directory: its JSON records and its idempotency markers, by file name. -/
structure Directory where
  records : OrderedMap String Record
  markers : OrderedMap String String

/-- Whether a file is listed as an event. -/
def isEventFile (layout : LedgerLayout) (name : String) : Bool :=
  decide (extension name = some "json") && Str.startsWith name (layout.filePrefix ++ "-")

/-- `files`: the events of a listing, sorted by name. -/
def files (layout : LedgerLayout) (listing : List (String × Record)) : List LedgerFile :=
  ((listing.filter fun e => isEventFile layout e.1).insertionSort fun e f => e.1 ≤ f.1).map
    fun e => ⟨e.1, .ok e.2⟩

/-- The name of an event file. -/
def eventFileName (eventId : String) : String := eventId ++ ".json"

/-! ### The append -/

/-- `EnvelopeContext`: the fields of an event that the ledger owns. -/
structure EnvelopeContext where
  sequence : ℕ
  eventId : String
  previousHash : Option String

/-- `AppendOutcome`. -/
structure AppendOutcome where
  event : Record
  eventId : String
  eventHash : String
  sequence : ℕ

/-- The arguments of an append, with the random identifier it draws. -/
structure AppendCall where
  expectedHead : Option (Option String)
  idempotencyKey : Option String
  build : EnvelopeContext → Record
  uuid : Uuid

/-- The id of an event: the prefix of the ledger, its sequence and a random identifier. -/
def eventIdAt (layout : LedgerLayout) (sequence : ℕ) (uuid : Uuid) : String :=
  layout.filePrefix ++ "-" ++ zeroPadded sequence ++ "-" ++ uuid.text

/-- The sequence of the event behind the last one. -/
def nextSequence (schema : String) (files : List LedgerFile) :
    Option Record → Except Failure ℕ
  | none => .ok 1
  | some event =>
      match event.u64 "sequence" with
      | none =>
          .error (schemaError schema "ledger_sequence_invalid"
            "last ledger event has no valid sequence"
            (.object [("path", optionText (files.getLast?.map LedgerFile.path))]))
      | some sequence =>
          if sequence + 1 < 2 ^ 64 then .ok (sequence + 1)
          else .error (.panic "attempt to add with overflow")

/-- The comparison of the head with the one that is expected, where one is. -/
def checkHead (schema : String) (expectedHead : Option (Option String))
    (previousHash : Option String) : Except Failure Unit :=
  match expectedHead with
  | none => .ok ()
  | some expected =>
      if expected ≠ previousHash then
        .error (schemaError schema "ledger_head_conflict" "expected ledger head does not match"
          (.object [("expected", optionText expected), ("actual", optionText previousHash)]))
      else .ok ()

/-- The content of the last file, when there is one. -/
def lastEvent (files : List LedgerFile) : Except Failure (Option Record) :=
  match files.getLast? with
  | none => .ok none
  | some file => file.content.map some

section Append

variable [FloatText] [Digest]

/-- An event with the hash of its content, and the fields the ledger owns. -/
def sealEvent (hashField : String) (ctx : EnvelopeContext) (event : Record) :
    Except Failure AppendOutcome :=
  match h : event.value with
  | .object fields =>
      .ok ⟨withHash fields hashField (event.distinct fields h), ctx.eventId,
        digestValue (.object fields), ctx.sequence⟩
  | _ => .error (.panic "called `Option::unwrap()` on a `None` value")

/-- `append_event` up to its first write: the comparison of heads, the context of the next
event, and the event that `build` makes of it. -/
def planEvent (schema : String) (layout : LedgerLayout) (hashField : String)
    (files : List LedgerFile) (call : AppendCall) : Except Failure AppendOutcome := do
  let last ← lastEvent files
  let previousHash := last.bind fun event => event.str hashField
  let _ ← checkHead schema call.expectedHead previousHash
  let sequence ← nextSequence schema files last
  let ctx : EnvelopeContext := ⟨sequence, eventIdAt layout sequence call.uuid, previousHash⟩
  sealEvent hashField ctx (call.build ctx)

/-- The refusal of `write_new` to write over a file. -/
def fileExists (schema : String) : Failure :=
  schemaError schema "immutable_record_exists" "File exists (os error 17)" .null

/-- `write_new_json`: the record is what reading the file gives. -/
def writeNewJson [FloatRead] (schema : String) (directory : Directory) (name : String)
    (record : Record) : Except Failure Directory :=
  if directory.records.containsKey name then .error (fileExists schema)
  else .ok { directory with records := directory.records.insert name (rereadRecord record) }

/-- `write_new` of a marker. -/
def writeNew (schema : String) (directory : Directory) (name text : String) :
    Except Failure Directory :=
  if directory.markers.containsKey name then .error (fileExists schema)
  else .ok { directory with markers := directory.markers.insert name text }

/-- The writes of `append_event`: the event, then its marker. -/
def commitEvent [FloatRead] (schema : String) (directory : Directory) (call : AppendCall)
    (outcome : AppendOutcome) : Directory × Except Failure AppendOutcome :=
  match writeNewJson schema directory (eventFileName outcome.eventId) outcome.event with
  | .error failure => (directory, .error failure)
  | .ok written =>
      match call.idempotencyKey with
      | none => (written, .ok outcome)
      | some key =>
          match writeNew schema written (markerName key) outcome.eventId with
          | .error failure => (written, .error failure)
          | .ok marked => (marked, .ok outcome)

/-- `append_event`, with the listing of the directory that it reads. -/
def appendEvent [FloatRead] (schema : String) (layout : LedgerLayout) (hashField : String)
    (directory : Directory) (listing : List (String × Record)) (call : AppendCall) :
    Directory × Except Failure AppendOutcome :=
  match planEvent schema layout hashField (files layout listing) call with
  | .error failure => (directory, .error failure)
  | .ok outcome => commitEvent schema directory call outcome

end Append

/-! ### Runs -/

/-- A ledger directory with the events that were appended to it, in their order. -/
structure Log where
  directory : Directory
  appended : List AppendOutcome

/-- What `build` does: it places the fields of the ledger in an object of integers, and
leaves the hash to the ledger. -/
structure Builds (hashField : String) (build : EnvelopeContext → Record) : Prop where
  object : ∀ ctx, ∃ fields, (build ctx).value = .object fields ∧
    OrderedMap.get fields hashField = none
  sequence : ∀ ctx : EnvelopeContext, ctx.sequence < 2 ^ 64 →
    (build ctx).u64 "sequence" = some ctx.sequence
  event_id : ∀ ctx : EnvelopeContext, (build ctx).str "event_id" = some ctx.eventId
  previous_hash : ∀ ctx : EnvelopeContext, (build ctx).str "previous_hash" = ctx.previousHash
  integral : ∀ ctx, (build ctx).value.integral

namespace Builds

variable {hashField : String} {build : EnvelopeContext → Record} (h : Builds hashField build)
include h

/-- A field that is there is not the hash. -/
lemma ne_of_get {ctx : EnvelopeContext} {key : String} {v : Value}
    (hget : (build ctx).get key = some v) : hashField ≠ key := by
  obtain ⟨fields, hvalue, hnew⟩ := h.object ctx
  rintro rfl
  rw [Record.get, hvalue] at hget
  exact absurd (hget.symm.trans hnew) (by simp)

lemma ne_sequence : hashField ≠ "sequence" := by
  obtain ⟨v, hv, -⟩ := Option.bind_eq_some_iff.mp (h.sequence ⟨0, "", none⟩ (by norm_num))
  exact h.ne_of_get hv

lemma ne_previousHash : hashField ≠ "previous_hash" := by
  obtain ⟨v, hv, -⟩ := Option.bind_eq_some_iff.mp (h.previous_hash ⟨0, "", some ""⟩)
  exact h.ne_of_get hv

end Builds

section Runs

variable [FloatText] [FloatRead] [Digest]

/-- The event that a call writes, when it gets as far as that. -/
def written (schema : String) (layout : LedgerLayout) (hashField : String)
    (directory : Directory) (listing : List (String × Record)) (call : AppendCall) :
    List AppendOutcome :=
  match planEvent schema layout hashField (files layout listing) call with
  | .error _ => []
  | .ok outcome =>
      if directory.records.containsKey (eventFileName outcome.eventId) then [] else [outcome]

/-- One call of `append_event`, whatever it answers. A call that stops between its writes
is one without a key. -/
inductive AppendStep (schema : String) (layout : LedgerLayout) (hashField : String) :
    Log → Log → Prop
  | append {s : Log} {listing : List (String × Record)} {call : AppendCall}
      (hlisting : listing.Perm s.directory.records) (hbuild : Builds hashField call.build) :
      AppendStep schema layout hashField s
        ⟨(appendEvent schema layout hashField s.directory listing call).1,
          s.appended ++ written schema layout hashField s.directory listing call⟩

/-- The runs of appends to a new directory. -/
def appendMachine (schema : String) (layout : LedgerLayout) (hashField : String) : Machine Log where
  init s := s.directory.records = [] ∧ s.appended = []
  step := AppendStep schema layout hashField

end Runs

/-! ### The order of the names -/

/-- The name of an event file is listed. -/
lemma isEventFile_eventFileName (layout : LedgerLayout) (sequence : ℕ) (uuid : Uuid) :
    isEventFile layout (eventFileName (eventIdAt layout sequence uuid)) := by
  have hname : (eventFileName (eventIdAt layout sequence uuid)).toList =
      (layout.filePrefix ++ "-").toList ++
        ((zeroPadded sequence).toList ++ '-' :: uuid.text.toList ++ ".json".toList) := by
    simp [eventFileName, eventIdAt]
  rw [isEventFile, Bool.and_eq_true, decide_eq_true_eq]
  refine ⟨?_, Str.startsWith_iff.mpr ⟨_, hname⟩⟩
  refine extension_append_json fun hempty => ?_
  have hlength := congrArg String.length hempty
  simp [eventIdAt] at hlength

/-- **The names sort as the sequences**, as long as these have at most twelve digits. -/
lemma eventFileName_lt {layout : LedgerLayout} {m n : ℕ} (hmn : m < n) (hn : n < 10 ^ 12)
    (u v : Uuid) :
    eventFileName (eventIdAt layout m u) < eventFileName (eventIdAt layout n v) := by
  have hname : ∀ (k : ℕ) (w : Uuid), (eventFileName (eventIdAt layout k w)).toList =
      (layout.filePrefix ++ "-").toList ++
        (Decimal.padded 12 k ++ ('-' :: w.text.toList ++ ".json".toList)) := by
    intro k w
    simp [eventFileName, eventIdAt, zeroPadded]
  rw [String.lt_iff, hname, hname]
  exact List.append_left_lt (Decimal.padded_append_lt (by norm_num) hmn hn _ _)

/-! ### The invariant -/

/-- The file of an event that was appended. -/
def AppendOutcome.file (outcome : AppendOutcome) : LedgerFile :=
  ⟨eventFileName outcome.eventId, .ok outcome.event⟩

section Invariant

variable [FloatText] [FloatRead] [Digest]

/-- What an appended event is behind the events before it. -/
structure Follows (layout : LedgerLayout) (hashField : String) (before : List AppendOutcome)
    (o : AppendOutcome) : Prop where
  sequence : o.sequence = before.length + 1
  event_id : ∃ uuid, o.eventId = eventIdAt layout (before.length + 1) uuid
  number : o.event.u64 "sequence" = some (before.length + 1)
  previous : o.event.previousHash = before.getLast?.bind fun p => p.event.str hashField
  hashed : o.event.str hashField = some o.eventHash
  sealed : Sealed hashField o.event
  reread : rereadRecord o.event = o.event

/-- The directory holds the events of the log, each of which follows those before it. -/
structure Sound (layout : LedgerLayout) (hashField : String) (s : Log) : Prop where
  records : s.directory.records = s.appended.map fun o => (eventFileName o.eventId, o.event)
  follows : EachAfter (Follows layout hashField) s.appended

variable {layout : LedgerLayout} {hashField : String}

/-- Events that follow each other are a chain. -/
lemma chained_of_follows {appended : List AppendOutcome}
    (h : EachAfter (Follows layout hashField) appended) :
    Chained hashField (appended.map AppendOutcome.event) := by
  induction appended using List.reverseRecOn with
  | nil => trivial
  | append_singleton before o ih =>
      have ho := h before o List.prefix_rfl
      rw [Chained, List.map_append, HashChain.linked_append]
      refine ⟨ih (h.of_prefix (List.prefix_append _ _)), ?_, ho.sealed, ?_, trivial⟩
      · rw [ho.previous, HashChain.head_eq_getLast?, List.getLast?_map]
        cases before.getLast? <;> rfl
      · exact Option.isSome_iff_exists.mpr ⟨_, ho.hashed⟩

namespace Sound

variable {s : Log} (hs : Sound layout hashField s)
include hs

/-- The files that are listed, in whatever order the directory is read. -/
lemma files_eq (hlen : s.appended.length < 10 ^ 12) {listing : List (String × Record)}
    (hlisting : listing.Perm s.directory.records) :
    files layout listing = s.appended.map AppendOutcome.file := by
  have hid : ∀ i o, s.appended[i]? = some o →
      ∃ uuid, o.eventId = eventIdAt layout (i + 1) uuid := by
    intro i o ho
    obtain ⟨hi, -⟩ := List.getElem?_eq_some_iff.mp ho
    have hevent := (hs.follows.take ho).event_id
    rwa [List.length_take, min_eq_left hi.le] at hevent
  have hevents : ∀ e ∈ listing, isEventFile layout e.1 := by
    intro e he
    rw [hlisting.mem_iff, hs.records] at he
    obtain ⟨o, ho, rfl⟩ := List.mem_map.mp he
    obtain ⟨i, hi⟩ := List.mem_iff_getElem?.mp ho
    obtain ⟨uuid, huuid⟩ := hid i o hi
    rw [huuid]
    exact isEventFile_eventFileName layout _ uuid
  have hordered : s.directory.records.Pairwise fun e f => e.1 < f.1 := by
    rw [hs.records, List.pairwise_map, List.pairwise_iff_getElem]
    intro i j hi hj hij
    obtain ⟨u, hu⟩ := hid i _ (List.getElem?_eq_getElem hi)
    obtain ⟨v, hv⟩ := hid j _ (List.getElem?_eq_getElem hj)
    rw [hu, hv]
    exact eventFileName_lt (by omega) (by omega) u v
  rw [files, List.filter_eq_self.mpr hevents, sort_listing hlisting hordered, hs.records, List.map_map]
  rfl

end Sound

omit [FloatText] [FloatRead] [Digest] in
lemma lastEvent_map_file (appended : List AppendOutcome) :
    lastEvent (appended.map AppendOutcome.file) =
      .ok (appended.getLast?.map AppendOutcome.event) := by
  rw [lastEvent, List.getLast?_map]
  cases appended.getLast? <;> rfl

/-- The sequence of the next event is one more than the number of events. -/
lemma nextSequence_ok {schema : String} {appended : List AppendOutcome} {files : List LedgerFile}
    (h : EachAfter (Follows layout hashField) appended) {sequence : ℕ}
    (hsequence : nextSequence schema files (appended.getLast?.map AppendOutcome.event) =
      .ok sequence) : sequence = appended.length + 1 ∧ sequence < 2 ^ 64 := by
  induction appended using List.reverseRecOn with
  | nil =>
      cases hsequence
      exact ⟨rfl, by norm_num⟩
  | append_singleton before o _ =>
      have hnumber := (h before o List.prefix_rfl).number
      rw [List.getLast?_concat, Option.map_some, nextSequence, hnumber] at hsequence
      dsimp only at hsequence
      split_ifs at hsequence with hbound
      cases hsequence
      exact ⟨by simp, hbound⟩

/-- The event that `build` makes, with its hash. -/
lemma sealEvent_ok {build : EnvelopeContext → Record} (hbuild : Builds hashField build)
    {ctx : EnvelopeContext} (hbound : ctx.sequence < 2 ^ 64) {o : AppendOutcome}
    (h : sealEvent hashField ctx (build ctx) = .ok o) :
    o.sequence = ctx.sequence ∧ o.eventId = ctx.eventId ∧
      o.event.u64 "sequence" = some ctx.sequence ∧ o.event.previousHash = ctx.previousHash ∧
      o.event.str hashField = some o.eventHash ∧ Sealed hashField o.event ∧
      rereadRecord o.event = o.event := by
  obtain ⟨fields, hvalue, hnew⟩ := hbuild.object ctx
  have hsealed : ∀ hdistinct, sealEvent hashField ctx (build ctx) =
      .ok ⟨withHash fields hashField hdistinct, ctx.eventId, digestValue (.object fields),
        ctx.sequence⟩ := by
    intro hdistinct
    rw [sealEvent]
    split
    · rename_i all hall
      cases hvalue.symm.trans hall
      rfl
    · rename_i hother
      exact absurd hvalue (hother fields)
  have hdistinct := (build ctx).distinct fields hvalue
  cases (hsealed hdistinct).symm.trans h
  have hget : ∀ key, hashField ≠ key →
      (withHash fields hashField hdistinct).get key = (build ctx).get key := by
    intro key hne
    rw [get_withHash hdistinct hne, Record.get, hvalue]
    rfl
  have hintegral : (withHash fields hashField hdistinct).value.integral := by
    have hfields := hbuild.integral ctx
    rw [hvalue] at hfields
    have happend : (withHash fields hashField hdistinct).value =
        .object (fields ++ [(hashField, .string (digestValue (.object fields)))]) :=
      congrArg Value.object (OrderedMap.insert_of_get_none _ hnew)
    rw [happend]
    exact Value.integral_append hfields rfl
  refine ⟨rfl, rfl, ?_, ?_, str_withHash hdistinct, ?_, rereadRecord_of_integral hintegral⟩
  · rw [Record.u64, hget _ hbuild.ne_sequence]
    exact hbuild.sequence ctx hbound
  · rw [Record.previousHash, Record.str, hget _ hbuild.ne_previousHash]
    exact hbuild.previous_hash ctx
  · rw [Sealed, unhashed_withHash hdistinct hnew]
    exact str_withHash hdistinct

variable {schema : String} {s : Log} {listing : List (String × Record)} {call : AppendCall}

/-- **The event of a call follows those before it.** -/
lemma planEvent_ok (hs : Sound layout hashField s) (hlen : s.appended.length < 10 ^ 12)
    (hlisting : listing.Perm s.directory.records) (hbuild : Builds hashField call.build)
    {o : AppendOutcome}
    (h : planEvent schema layout hashField (files layout listing) call = .ok o) :
    Follows layout hashField s.appended o := by
  rw [hs.files_eq hlen hlisting, planEvent, lastEvent_map_file] at h
  obtain ⟨last, hlast, h⟩ := bind_eq_ok h
  cases hlast
  obtain ⟨-, -, h⟩ := bind_eq_ok h
  obtain ⟨sequence, hsequence, h⟩ := bind_eq_ok h
  obtain ⟨rfl, hbound⟩ := nextSequence_ok hs.follows hsequence
  obtain ⟨hnumber, hid, hu64, hprevious, hhash, hsealed, hreread⟩ := sealEvent_ok hbuild hbound h
  refine ⟨hnumber, ⟨call.uuid, hid⟩, hu64, ?_, hhash, hsealed, hreread⟩
  rw [hprevious]
  cases s.appended.getLast? <;> rfl

omit [FloatText] [Digest] in
/-- The records after the writes of a call. -/
lemma commitEvent_records (schema : String) (directory : Directory) (call : AppendCall) {o : AppendOutcome}
    (hreread : rereadRecord o.event = o.event) :
    (commitEvent schema directory call o).1.records =
      if directory.records.containsKey (eventFileName o.eventId) then directory.records
      else directory.records ++ [(eventFileName o.eventId, o.event)] := by
  rw [commitEvent, writeNewJson, hreread]
  by_cases hexists : directory.records.containsKey (eventFileName o.eventId)
  · rw [if_pos hexists, if_pos hexists]
  · have hnew : directory.records.get (eventFileName o.eventId) = none :=
      Option.not_isSome_iff_eq_none.mp hexists
    have hinsert := OrderedMap.insert_of_get_none o.event hnew
    rw [if_neg hexists, if_neg hexists, ← hinsert]
    cases call.idempotencyKey with
    | none => rfl
    | some key =>
        dsimp only
        rw [writeNew]
        split_ifs <;> rfl

/-- **One call keeps the events in order.** -/
lemma sound_step {t : Log} (hs : s.appended.length < 10 ^ 12 → Sound layout hashField s)
    (hstep : AppendStep schema layout hashField s t) (hlen : t.appended.length < 10 ^ 12) :
    Sound layout hashField t := by
  obtain ⟨hlisting, hbuild⟩ := hstep
  rename_i listing call
  rw [List.length_append] at hlen
  have hs := hs (by omega)
  cases hplan : planEvent schema layout hashField (files layout listing) call with
  | error failure =>
      simp only [appendEvent, written, hplan, List.append_nil]
      exact ⟨hs.records, hs.follows⟩
  | ok o =>
      have hfollows := planEvent_ok hs (by omega) hlisting hbuild hplan
      have hrecords := commitEvent_records schema s.directory call hfollows.reread
      simp only [appendEvent, written, hplan]
      by_cases hexists : s.directory.records.containsKey (eventFileName o.eventId)
      · rw [if_pos hexists] at hrecords
        rw [if_pos hexists, List.append_nil]
        exact ⟨hrecords.trans hs.records, hs.follows⟩
      · rw [if_neg hexists] at hrecords
        rw [if_neg hexists]
        refine ⟨?_, hs.follows.concat hfollows⟩
        dsimp only
        rw [hrecords, hs.records, List.map_append, List.map_singleton]

/-- In every run the events follow each other, as long as there are few enough. -/
lemma sound_invariant : (appendMachine schema layout hashField).Invariant
    fun s => s.appended.length < 10 ^ 12 → Sound layout hashField s where
  init s h _ := by
    obtain ⟨hrecords, happended⟩ := h
    refine ⟨?_, ?_⟩
    · rw [hrecords, happended]
      rfl
    · rw [happended]
      exact EachAfter.nil
  step _ _ hs hstep hlen := sound_step hs hstep hlen

/-- **Append and verify agree**: the directory that a run of appends has reached verifies, its
files are the events in the order they were appended, numbered from one, and its head is the
hash of the last. -/
theorem append_verify (hs : (appendMachine schema layout hashField).Reachable s)
    (hlen : s.appended.length < 10 ^ 12) (hlisting : listing.Perm s.directory.records) :
    files layout listing = s.appended.map AppendOutcome.file ∧
      verify schema (files layout listing) hashField =
        .ok (s.appended.map AppendOutcome.event) ∧
      (∀ i o, s.appended[i]? = some o →
        o.sequence = i + 1 ∧ o.event.u64 "sequence" = some (i + 1)) ∧
      head (files layout listing) hashField =
        .ok (s.appended.getLast?.map AppendOutcome.eventHash) := by
  have hsound : Sound layout hashField s := hs.invariant sound_invariant hlen
  have hfiles := hsound.files_eq hlen hlisting
  have hnumber : ∀ i o, s.appended[i]? = some o →
      o.sequence = i + 1 ∧ o.event.u64 "sequence" = some (i + 1) := by
    intro i o ho
    obtain ⟨hi, -⟩ := List.getElem?_eq_some_iff.mp ho
    have hevent := hsound.follows.take ho
    have hbefore : (s.appended.take i).length = i := List.length_take_of_le hi.le
    exact ⟨hbefore ▸ hevent.sequence, hbefore ▸ hevent.number⟩
  have hverify : verify schema (files layout listing) hashField =
      .ok (s.appended.map AppendOutcome.event) := by
    refine verify_of_chained ?_ (chained_of_follows hsound.follows) ?_
    · rw [hfiles, List.map_map, List.map_map]
      rfl
    · intro i r hr
      rw [List.getElem?_map] at hr
      obtain ⟨o, ho, rfl⟩ := Option.map_eq_some_iff.mp hr
      exact (hnumber i o ho).2
  refine ⟨hfiles, hverify, hnumber, ?_⟩
  rw [head_of_verify hverify, HashChain.head_eq_getLast?, List.getLast?_map]
  cases hlast : s.appended.getLast? with
  | none => rfl
  | some o =>
      obtain ⟨before, hbefore⟩ := exists_before (List.mem_of_getLast? hlast)
      have hhash := (hsound.follows before o hbefore).hashed
      simp only [Option.map_some, Option.getD_some, hhash]

end Invariant

/-- An event of three fields. -/
def plainEvent (ctx : EnvelopeContext) : Record :=
  ⟨.object [("sequence", .ofNat ctx.sequence), ("event_id", .string ctx.eventId),
    ("previous_hash", optionText ctx.previousHash)], fun fields h => by
      cases h
      simp [OrderedMap.keys]⟩

lemma builds_plainEvent : Builds "event_hash" plainEvent where
  object ctx := ⟨_, rfl, rfl⟩
  sequence ctx h := Value.asU64_ofNat h
  event_id ctx := rfl
  previous_hash ctx := by
    have hget : (plainEvent ctx).get "previous_hash" = some (optionText ctx.previousHash) := rfl
    rw [Record.str, hget]
    cases ctx.previousHash <;> rfl
  integral ctx := by
    have hfields : ∀ previousHash, (Value.object [("sequence", .ofNat ctx.sequence),
        ("event_id", .string ctx.eventId),
        ("previous_hash", optionText previousHash)]).integral := fun previousHash => by
      cases previousHash <;> rfl
    exact hfields ctx.previousHash

/-- A directory after two appends verifies. -/
theorem append_verify_two :
    letI := FloatText.fields
    letI : Digest := ⟨id⟩
    letI : FloatRead := ⟨id⟩
    let layout : LedgerLayout := ⟨"ev", by decide⟩
    ∃ s : Log, s.appended.length = 2 ∧
      verify "schema" (files layout s.directory.records) "event_hash" =
        .ok (s.appended.map AppendOutcome.event) := by
  let _ : FloatText := FloatText.fields
  let _ : Digest := ⟨id⟩
  let _ : FloatRead := ⟨id⟩
  intro layout
  let step (key : String) (s : Log) : Log :=
    let call : AppendCall := ⟨none, some key, plainEvent, Uuid.least⟩
    ⟨(appendEvent "schema" layout "event_hash" s.directory s.directory.records call).1,
      s.appended ++ written "schema" layout "event_hash" s.directory s.directory.records call⟩
  let s := step "second" (step "first" ⟨⟨[], []⟩, []⟩)
  have hs : (appendMachine "schema" layout "event_hash").Reachable s :=
    .step (.step (.init ⟨rfl, rfl⟩) (AppendStep.append (List.Perm.refl _) builds_plainEvent))
      (AppendStep.append (List.Perm.refl _) builds_plainEvent)
  have hlen : s.appended.length = 2 := by decide +kernel
  exact ⟨s, hlen, (append_verify hs (by rw [hlen]; norm_num) (List.Perm.refl _)).2.1⟩

end EventLedger

end McpSurfaces
