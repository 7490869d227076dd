import McpSurfaces.Foundation.Calls
import McpSurfaces.Foundation.Lists
import McpSurfaces.Mailbox.Delta

/-!
The cursor file of a scope over a history of configurations: `read_cursor`, `commit_cursor` and
the part of a generation between them that asks the source.

* `Fits`: a single folder meets no cursor, or one that was committed for this very folder.
* **`starts_own_of_fits`**: where each generation of a history fits, each folder starts from the
  link last returned for it, or from its base URL.
* `starts_from_other_folder`: a single folder starts from the link of the folder that was
  configured before it.
-/

namespace McpSurfaces

namespace Mailbox

open Calls (Each run)
open LedgerDomain (JsonRead utf8)

/-! ### The cursor file -/

/-- `commit_cursor`: what it writes. -/
def commitCursor (scope : ScopeConfig) (cursor now : String) : Except Value Value :=
  if (Str.trim cursor).isEmpty then
    .error (refusal "mailbox_cursor_invalid" "Cannot commit empty cursor")
  else
    .ok (.object [("scope_id", .string scope.scopeId), ("committed_cursor", .string cursor),
      ("committed_at", .string now)])

/-- `read_cursor`, from what the file holds. -/
def readCursor (scope : ScopeConfig) (file : Option Value) : Except Value (Option String) :=
  match file with
  | none => .ok none
  | some value =>
      if (value.get "scope_id").bind Value.asStr ≠ some scope.scopeId then
        .error (refusal "mailbox_cursor_scope_mismatch" "mailbox_cursor_scope_mismatch")
      else
        match (((value.get "committed_cursor").bind Value.asStr).map Str.trim).filter
            fun cursor => !cursor.isEmpty with
        | some cursor => .ok (some cursor)
        | none => .error (refusal "mailbox_cursor_invalid" "mailbox_cursor_invalid")

/-- What was committed is read, without the white space around it. -/
lemma readCursor_commitCursor {scope scope' : ScopeConfig} {cursor now : String} {file : Value}
    (h : commitCursor scope cursor now = .ok file) (hscope : scope'.scopeId = scope.scopeId) :
    readCursor scope' (some file) = .ok (some (Str.trim cursor)) := by
  rw [commitCursor] at h
  split_ifs at h with hblank
  obtain rfl := Except.ok.inj h
  have hkept : ((some (Str.trim cursor)).filter fun c => !c.isEmpty) = some (Str.trim cursor) :=
    Option.filter_eq_some_iff.mpr ⟨rfl, by simpa using hblank⟩
  rw [readCursor, hscope]
  have hid : ((Value.object [("scope_id", .string scope.scopeId), ("committed_cursor",
      .string cursor), ("committed_at", .string now)]).get "scope_id").bind Value.asStr =
        some scope.scopeId := rfl
  have hcursor : ((Value.object [("scope_id", .string scope.scopeId), ("committed_cursor",
      .string cursor), ("committed_at", .string now)]).get "committed_cursor").bind Value.asStr =
        some cursor := rfl
  simp only [hid, hcursor, ne_eq, not_true_eq_false, if_false, Option.map_some, hkept]

/-! ### Histories -/

/-- The cursor of a scope, the folders for which it was committed, and the delta link last
returned for each folder by a generation that committed its cursor. -/
structure Cursors where
  file : Option Value
  committed : Option (List String)
  links : String → Option String

/-- A scope without a cursor. -/
def Cursors.start : Cursors := ⟨none, none, fun _ => none⟩

/-- A generation of a history: the folders that are configured then, what it gets from outside,
and whether its messages can be normalised, staged and projected. -/
structure Round where
  folders : List String
  remote : Remote
  applies : List Value → Bool
  now : String

def ScopeConfig.withFolders (scope : ScopeConfig) (folders : List String) : ScopeConfig :=
  { scope with includedContainerRefs := folders }

section Histories

variable [FloatText] [JsonRead] (scope : ScopeConfig)

/-- What the fetch of a round returns, from a checkpoint. -/
def Round.fetch (r : Round) (checkpoint : Option String) : Except Value (List Value × Map) :=
  ((fetchGraphMessages r.remote (scope.withFolders r.folders) checkpoint).run.run ⟨[], 0⟩).1

/-- A round up to its commit: the file and the links behind it, where it commits one. -/
def Round.commit (r : Round) (s : Cursors) : Except Value (Option (Value × Map)) := do
  let checkpoint ← readCursor (scope.withFolders r.folders) s.file
  let (messages, links) ← r.fetch scope checkpoint
  match nextCheckpoint (scope.withFolders r.folders) links with
  | none => return none
  | some next =>
      if r.applies messages then do
        let file ← commitCursor (scope.withFolders r.folders) next r.now
        return some (file, links)
      else return none

/-- The link last returned for a folder, behind a fetch. -/
def lastReturned (links : Map) (before : String → Option String) (folder : String) :
    Option String :=
  ((OrderedMap.get links folder).bind Value.asStr).or (before folder)

/-- The cursor behind a round. -/
def Cursors.after (s : Cursors) (r : Round) : Cursors :=
  match r.commit scope s with
  | .ok (some (file, links)) =>
      { file := some file
        committed := some r.folders
        links := lastReturned links s.links }
  | _ => s

/-- Each folder of a round starts from the delta link last returned for it, or from its base
URL, which the source is asked for. -/
def StartsOwn (s : Cursors) (r : Round) : Prop :=
  ∃ checkpoint, readCursor (scope.withFolders r.folders) s.file = .ok checkpoint ∧
    ∀ folder ∈ r.folders,
      s.links folder = some (startUrl (scope.withFolders r.folders) checkpoint folder) ∨
        startUrl (scope.withFolders r.folders) checkpoint folder = deltaUrl scope folder ∧
          validateGraphPageUrl (deltaUrl scope folder) scope.graph.baseUrl = .ok ()

/-- A link without white space around it that is not the text of an object. -/
def PlainLink (link : String) : Prop := Str.trim link = link ∧ composite (some link) = none

/-- A single folder meets no cursor or one that was committed for this very folder, and its source
answers with plain links. -/
structure Fits (s : Cursors) (r : Round) : Prop where
  same : r.folders.length = 1 → ∀ folders ∈ s.committed, folders = r.folders
  plain : r.folders.length = 1 → ∀ link, r.remote.Links link → PlainLink link

/-! ### What a cursor tells -/

/-- A checkpoint that was committed for some folders: the link of the only one, or the map of the
links last returned. -/
def Describes (folders : List String) (checkpoint : String) (links : String → Option String) :
    Prop :=
  if folders.length = 1 then PlainLink checkpoint ∧ ∀ folder ∈ folders, links folder = some checkpoint
  else ∃ fields : Map, checkpoint = (Value.object fields).text ∧ (OrderedMap.keys fields).Nodup ∧
    ∀ e ∈ fields, ∃ link, e.2 = .string link ∧ links e.1 = some link

/-- The file holds a checkpoint for the folders for which it was committed. -/
def Cursors.Known (s : Cursors) : Prop :=
  match s.committed with
  | none => s.file = none
  | some folders => ∃ checkpoint now file, s.file = some file ∧
      commitCursor scope checkpoint now = .ok file ∧ Describes folders checkpoint s.links

omit [JsonRead] in
/-- The text of an object stands between braces. -/
lemma text_object_toList (fields : Map) : ∃ inner, (Value.object fields).text.toList =
    '{' :: (inner ++ ['}']) := by
  have hfields (rest : List (String × Value)) :
      ∃ inner, Value.fieldsChars rest = inner ++ ['}'] := by
    induction rest with
    | nil => exact ⟨[], rfl⟩
    | cons e rest ih =>
        obtain ⟨k, v⟩ := e
        obtain ⟨inner, hinner⟩ := ih
        refine ⟨',' :: (quoted k ++ ':' :: (v.chars ++ inner)), ?_⟩
        rw [Value.fieldsChars, hinner]
        simp only [List.cons_append, List.append_assoc]
  rw [Value.text_eq_ofList, String.toList_ofList]
  cases fields with
  | nil => exact ⟨[], rfl⟩
  | cons e rest =>
      obtain ⟨k, v⟩ := e
      obtain ⟨inner, hinner⟩ := hfields rest
      refine ⟨quoted k ++ ':' :: (v.chars ++ inner), ?_⟩
      rw [Value.chars, hinner]
      simp only [List.cons_append, List.append_assoc]

omit [JsonRead] in
/-- There is no white space around the text of an object. -/
lemma trim_text_object (fields : Map) :
    Str.trim (Value.object fields).text = (Value.object fields).text := by
  obtain ⟨inner, hinner⟩ := text_object_toList fields
  have hopen : Str.isWhitespace '{' = false := by decide
  have hclose : Str.isWhitespace '}' = false := by decide
  rw [Str.trim, Str.trimChars, hinner, List.dropWhile_cons_of_neg (by simp [hopen])]
  rw [← List.cons_append, List.reverse_append, List.reverse_singleton, List.singleton_append,
    List.dropWhile_cons_of_neg (by simp [hclose]), List.reverse_cons, List.reverse_reverse,
    List.cons_append, ← hinner, String.ofList_toList]

omit [FloatText] [JsonRead] in
lemma deltaUrl_validated (folder : String) :
    validateGraphPageUrl (deltaUrl scope folder) scope.graph.baseUrl = .ok () := by
  unfold deltaUrl
  simp only [String.append_assoc]
  exact validateGraphPageUrl_append _ _

/-! ### Rounds -/

variable {scope} {s : Cursors} {r : Round}

omit [FloatText] in
/-- What a fetch returns are links of the configured folders that the source answered with. -/
lemma folderLinks_of_fetch {checkpoint : Option String} {messages : List Value} {links : Map}
    (h : r.fetch scope checkpoint = .ok (messages, links)) :
    r.remote.FolderLinks (scope.withFolders r.folders) links :=
  (does_fetchGraphMessages r.remote (scope.withFolders r.folders) checkpoint ⟨[], 0⟩
    fun _ h => absurd h List.not_mem_nil).2 _ h

/-- A round leaves the cursor, or commits the next checkpoint of its links. -/
lemma after_cases (s : Cursors) (r : Round) :
    s.after scope r = s ∨ ∃ links next file,
      r.remote.FolderLinks (scope.withFolders r.folders) links ∧
      nextCheckpoint (scope.withFolders r.folders) links = some next ∧
      commitCursor (scope.withFolders r.folders) next r.now = .ok file ∧
      s.after scope r =
        { file := some file
          committed := some r.folders
          links := lastReturned links s.links } := by
  unfold Cursors.after
  split
  · rename_i file links hcommit
    right
    obtain ⟨checkpoint, -, hcommit⟩ := Lists.bind_eq_ok hcommit
    obtain ⟨⟨messages, fetched⟩, hfetch, hcommit⟩ := Lists.bind_eq_ok hcommit
    dsimp only at hcommit
    split at hcommit
    · cases hcommit
    · rename_i next hnext
      split_ifs at hcommit
      · obtain ⟨file', hfile, hcommit⟩ := Lists.bind_eq_ok hcommit
        obtain ⟨rfl, rfl⟩ := Prod.mk.inj (Option.some.inj (Except.ok.inj hcommit))
        exact ⟨fetched, next, file', folderLinks_of_fetch hfetch, hnext, hfile, rfl⟩
      · cases hcommit
  · exact .inl rfl

/-- The next checkpoint of a fetch describes its links, before those that were returned earlier. -/
lemma describes_next {links : Map} {next : String}
    (hlinks : r.remote.FolderLinks (scope.withFolders r.folders) links)
    (hnext : nextCheckpoint (scope.withFolders r.folders) links = some next)
    (hplain : r.folders.length = 1 → ∀ link, r.remote.Links link → PlainLink link)
    (before : String → Option String) :
    Describes r.folders next (lastReturned links before) := by
  unfold Describes
  split_ifs with hone
  · rw [nextCheckpoint, if_pos (by exact hone)] at hnext
    cases links with
    | nil => cases hnext
    | cons e rest =>
        have hvalue : e.2.asStr = some next := hnext
        obtain ⟨link, hlink, hanswered⟩ := hlinks.answered e List.mem_cons_self
        obtain rfl : link = next := by rw [hlink] at hvalue; exact Option.some.inj hvalue
        refine ⟨hplain hone link hanswered, fun folder hfolder => ?_⟩
        have hkey : e.1 ∈ r.folders := hlinks.configured e.1 List.mem_cons_self
        obtain ⟨only, honly⟩ := List.length_eq_one_iff.mp hone
        rw [honly, List.mem_singleton] at hkey hfolder
        rw [lastReturned, OrderedMap.get_cons, if_pos (hkey.trans hfolder.symm), Option.bind_some,
          hvalue, Option.some_or]
  · rw [nextCheckpoint, if_neg (by exact hone)] at hnext
    refine ⟨links, (Option.some.inj hnext).symm, hlinks.nodup, fun e he => ?_⟩
    obtain ⟨link, hlink, -⟩ := hlinks.answered e he
    refine ⟨link, hlink, ?_⟩
    rw [lastReturned, OrderedMap.get_of_mem hlinks.nodup he, hlink]
    rfl

lemma Describes.trim_eq {folders : List String} {checkpoint : String}
    {links : String → Option String} (h : Describes folders checkpoint links) :
    Str.trim checkpoint = checkpoint := by
  unfold Describes at h
  split_ifs at h
  · exact h.1.1
  · obtain ⟨fields, rfl, -⟩ := h
    exact trim_text_object fields

/-- **A round that fits leaves a cursor that tells where its folders are.** -/
lemma known_after (hs : s.Known scope) (hfits : Fits s r) : (s.after scope r).Known scope := by
  rcases after_cases s r with hsame | ⟨links, next, file, hlinks, hnext, hfile, heq⟩
  · rwa [hsame]
  · rw [heq]
    exact ⟨next, r.now, file, rfl, hfile, describes_next hlinks hnext hfits.plain s.links⟩

/-- **A round that fits starts its folders where they are.** -/
lemma starts_own_of_known (hread : JsonRead.Lawful) (hs : s.Known scope) (hfits : Fits s r) :
    StartsOwn scope s r := by
  have hbase (folder : String) :
      validateGraphPageUrl (deltaUrl scope folder) scope.graph.baseUrl = .ok () :=
    deltaUrl_validated scope folder
  unfold Cursors.Known at hs
  cases hcommitted : s.committed with
  | none =>
      rw [hcommitted] at hs
      refine ⟨none, by rw [hs]; rfl, fun folder _ => .inr ⟨?_, hbase folder⟩⟩
      unfold startUrl folderCursor
      split_ifs <;> rfl
  | some folders =>
      rw [hcommitted] at hs
      obtain ⟨checkpoint, now, file, hfile, hcommit, hdescribes⟩ := hs
      have hcursor : readCursor (scope.withFolders r.folders) s.file = .ok (some checkpoint) := by
        have hid : (scope.withFolders r.folders).scopeId = scope.scopeId := rfl
        rw [hfile, readCursor_commitCursor hcommit hid, hdescribes.trim_eq]
      refine ⟨some checkpoint, hcursor, fun folder hfolder => ?_⟩
      by_cases hone : r.folders.length = 1
      · obtain rfl := hfits.same hone folders hcommitted
        rw [Describes, if_pos hone] at hdescribes
        left
        rw [hdescribes.2 folder hfolder, startUrl, folderCursor, if_pos (by exact hone)]
        rfl
      · rw [startUrl, folderCursor, if_neg (by exact hone)]
        unfold Describes at hdescribes
        split_ifs at hdescribes
        · rw [hdescribes.1.2]
          exact .inr ⟨rfl, hbase folder⟩
        · obtain ⟨fields, rfl, hnodup, hlinks⟩ := hdescribes
          have hfields : composite (some (Value.object fields).text) = some fields := by
            have hscalar : ∀ e ∈ fields, e.2.Scalar := by
              intro e he
              obtain ⟨link, hlink, -⟩ := hlinks e he
              rw [hlink]
              trivial
            rw [composite, Option.bind_some, hread fields hnodup hscalar]
            rfl
          rw [hfields, Option.bind_some]
          cases hget : OrderedMap.get fields folder with
          | none => exact .inr ⟨rfl, hbase folder⟩
          | some v =>
              obtain ⟨link, hlink, hlast⟩ := hlinks _ (OrderedMap.mem_of_get hget)
              obtain rfl : v = .string link := hlink
              exact .inl hlast

/-- **Where each generation fits, each folder starts where it is**, or from its base URL. -/
theorem starts_own_of_fits (hread : JsonRead.Lawful) (rounds : List Round)
    (h : Each (Cursors.after scope) Fits .start rounds) :
    Each (Cursors.after scope) (StartsOwn scope) .start rounds := by
  have hrun (s : Cursors) (hs : s.Known scope) (rounds : List Round)
      (h : Each (Cursors.after scope) Fits s rounds) :
      Each (Cursors.after scope) (StartsOwn scope) s rounds := by
    induction rounds generalizing s with
    | nil => trivial
    | cons r rest ih =>
        exact ⟨starts_own_of_known hread hs h.1, ih _ (known_after hs h.1) h.2⟩
  exact hrun .start rfl rounds h

/-! ### A map and a single folder -/

end Histories

/-! ### Two folders in turn -/

/-- A source that answers every request with an empty page and one delta link. -/
def Remote.answering (link : String) : Remote where
  accessToken := .ok "token"
  get _ _ := .ok (.object [("value", .array []), ("@odata.deltaLink", .string link)])
  heartbeat _ := .ok ()

/-- A round with one folder. -/
def Round.single (folder link : String) : Round where
  folders := [folder]
  remote := .answering link
  applies _ := true
  now := "2026-01-01T00:00:00.000Z"

lemma links_answering {link found : String} (h : (Remote.answering link).Links found) :
    found = link := by
  obtain ⟨page, ⟨n, request, hpage⟩, hlink⟩ := h
  obtain rfl := Except.ok.inj hpage
  exact (Option.some.inj hlink).symm

/-- A link that does not begin with a brace is no map. -/
lemma composite_inverse [FloatText] {link : String} (h : link.toList.head? ≠ some '{') :
    @composite JsonRead.inverse (some link) = none := by
  let _ : JsonRead := JsonRead.inverse
  have hnot : ¬ ∃ fields : Map, (∀ e ∈ fields, e.2.Scalar) ∧
      utf8 (Value.object fields).text = utf8 link := by
    rintro ⟨fields, -, hbytes⟩
    obtain ⟨inner, hinner⟩ := text_object_toList fields
    rw [LedgerDomain.utf8_injective hbytes] at hinner
    rw [hinner] at h
    exact h rfl
  have hparse : JsonRead.parse (utf8 link) = none := dif_neg hnot
  rw [composite, Option.bind_some, hparse]
  rfl

/-- The inbox alone, twice. -/
theorem starts_own_of_inbox :
    letI := FloatText.fields
    letI := JsonRead.inverse
    Each (Cursors.after publicScope) (StartsOwn publicScope) .start
      [.single "inbox" "https://graph.microsoft.com/v1.0/inbox-1",
        .single "inbox" "https://graph.microsoft.com/v1.0/inbox-2"] := by
  let _ : FloatText := FloatText.fields
  let _ : JsonRead := JsonRead.inverse
  have hplain (link : String) (hlink : link ∈ ["https://graph.microsoft.com/v1.0/inbox-1",
      "https://graph.microsoft.com/v1.0/inbox-2"]) : PlainLink link := by
    have htrim : ∀ link ∈ ["https://graph.microsoft.com/v1.0/inbox-1",
        "https://graph.microsoft.com/v1.0/inbox-2"],
        Str.trim link = link ∧ link.toList.head? ≠ some '{' := by decide +kernel
    exact ⟨(htrim link hlink).1, composite_inverse (htrim link hlink).2⟩
  have hcommitted : (Cursors.start.after publicScope (.single "inbox"
      "https://graph.microsoft.com/v1.0/inbox-1")).committed = some ["inbox"] := by
    decide +kernel
  have hfirst : Fits .start (.single "inbox" "https://graph.microsoft.com/v1.0/inbox-1") := by
    refine ⟨fun _ folders h => (by cases h), fun _ link h => ?_⟩
    rw [links_answering h]
    exact hplain _ List.mem_cons_self
  have hsecond : Fits (Cursors.start.after publicScope (.single "inbox"
      "https://graph.microsoft.com/v1.0/inbox-1"))
      (.single "inbox" "https://graph.microsoft.com/v1.0/inbox-2") := by
    refine ⟨fun _ folders h => ?_, fun _ link h => ?_⟩
    · rw [hcommitted] at h
      exact (Option.some.inj h).symm
    · rw [links_answering h]
      exact hplain _ (List.mem_cons_of_mem _ List.mem_cons_self)
  exact starts_own_of_fits JsonRead.inverse_lawful _ ⟨hfirst, hsecond, trivial⟩

/-- After the inbox alone, the archive alone starts from the link of the inbox. -/
theorem starts_from_other_folder :
    letI := FloatText.fields
    letI := JsonRead.inverse
    ¬ ∀ (scope : ScopeConfig) (rounds : List Round),
      Each (Cursors.after scope) (StartsOwn scope) .start rounds := by
  let _ : FloatText := FloatText.fields
  let _ : JsonRead := JsonRead.inverse
  intro h
  have heach : Each (Cursors.after publicScope) (StartsOwn publicScope) .start
      [.single "inbox" "https://graph.microsoft.com/v1.0/inbox-1",
        .single "archive" "https://graph.microsoft.com/v1.0/archive-1"] := h publicScope _
  obtain ⟨-, ⟨checkpoint, hread, hown⟩, -⟩ := heach
  have hcursor : (readCursor (publicScope.withFolders ["archive"])
      (Cursors.start.after publicScope (.single "inbox"
        "https://graph.microsoft.com/v1.0/inbox-1")).file).toOption =
      some (some "https://graph.microsoft.com/v1.0/inbox-1") := by decide +kernel
  have hnone : (Cursors.start.after publicScope (.single "inbox"
      "https://graph.microsoft.com/v1.0/inbox-1")).links "archive" = none := by decide +kernel
  obtain rfl : checkpoint = some "https://graph.microsoft.com/v1.0/inbox-1" := by
    have hsome := congrArg Except.toOption hread
    exact (Option.some.inj (hcursor.symm.trans hsome)).symm
  rcases hown "archive" List.mem_cons_self with hlink | ⟨hstart, -⟩
  · cases hnone.symm.trans hlink
  · have hother : "https://graph.microsoft.com/v1.0/inbox-1" ≠ deltaUrl publicScope "archive" := by
      decide +kernel
    exact hother hstart

end Mailbox

end McpSurfaces
