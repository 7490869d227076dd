import McpSurfaces.EventLedger.Chain
import McpSurfaces.Filesystem.ReadFile
import McpSurfaces.Filesystem.WriteCalls
import McpSurfaces.Foundation.Calls
import McpSurfaces.Foundation.Lists
import McpSurfaces.Foundation.RecencyStore

/-!
Searches that are answered from what earlier ones brought: `search_tool` with its snapshots.

* `searchTool` takes a snapshot by the id that a call names, or by the key of its query, or runs
  ripgrep and stores what it prints; `after` is a call of the dispatcher, which empties the store
  behind a write that succeeds.
* `Server.taken` is not in the program: it says which search each snapshot is from, and on which
  disk it was taken.
* **`kept_after`**: no more snapshots are stored than fit, and every key leads to one of them.
* `Shows`: a page is a window of what the search that it answers brings. **`shows_run`**: the pages
  of a run do if a call names only snapshots of its own search, if no key is that of another search,
  and if the store is emptied wherever the disk changes for a search in it.
-/

namespace McpSurfaces

namespace Filesystem

open EventLedger (Digest)
open FileTree TextLines

namespace SearchSnapshots

/-! ### A search -/

inductive CachePolicy
  | auto
  | snapshot
  | refresh
  | bypass
deriving DecidableEq

namespace CachePolicy

def text : CachePolicy → String
  | auto => "auto"
  | snapshot => "snapshot"
  | refresh => "refresh"
  | bypass => "bypass"

def ofText (s : String) : Option CachePolicy :=
  [auto, snapshot, refresh, bypass].find? fun policy => policy.text = s

/-- Whether a search under the policy may be answered by its key. -/
def usesIndex (policy : CachePolicy) : Bool := policy ≠ bypass && policy ≠ refresh

end CachePolicy

/-- The bounds of what is captured of a search. -/
structure Bounds where
  maxEntries : ℕ
  maxBytes : ℕ
deriving DecidableEq

/-- The arguments that filter the entries of a search. -/
structure Filters where
  ignore : Value
  exclude : Value
  glob : Value
  searchCase : Value
deriving DecidableEq

/-- What was captured of a search: entries, and whether those are all. -/
structure Captured where
  entries : List String
  complete : Bool
deriving DecidableEq

/-- What ripgrep is asked for, and how its lines are read. -/
structure Command where
  grep : Bool
  arguments : List String
deriving DecidableEq

/-- A search call whose arguments were read. -/
structure SearchCall where
  grep : Bool
  scopeArg : String
  scope : Path
  pattern : String
  offset : ℕ
  limit : ℕ
  bounds : Bounds
  policy : CachePolicy
  outputMode : String
  snapshotId : Option String
  filters : Filters
deriving DecidableEq

/-- `MAX_SEARCH_CAPTURE_ENTRIES`. -/
def maxSearchCaptureEntries : ℕ := 10000

/-- `MAX_SEARCH_CAPTURE_BYTES`. -/
def maxSearchCaptureBytes : ℕ := 32 * 1024 * 1024

/-- The name of the operation. -/
def operationOf (grep : Bool) : String := if grep then "fs_grep_search" else "fs_glob_search"

/-- An argument that is a text. -/
def textArg (args : Map) (key : String) : Option String := (args.get key).bind Value.asStr

/-- A value as it is reported, or null. -/
def textOrNull (value : Option String) : Value := (value.map Value.string).getD .null

/-- `integer(..).clamp(low, high)`. -/
def clamped (args : Map) (key : String) (default low high : ℤ) : ℕ :=
  (min (max ((integer args key).getD default) low) high).toNat

/-- `grep_pattern_matches_empty`. -/
def grepPatternMatchesEmpty (pattern : String) : Bool :=
  Str.trim pattern ∈ ["^", "$", ".*", "^.*$", "(?s:.*)", "(?:)"]

/-- `Path::is_file`. -/
def isFile (t : DiskTree) (path : Path) : Bool :=
  match (t.find (pieces path)).bind t.entry with
  | some (.file _) => true
  | _ => false

/-- The scope that a call names. -/
def scopeArgOf (grep : Bool) (args : Map) : Except FsError String :=
  let directory := textArg args "directory"
  let path := textArg args "path"
  if grep then
    if directory.isSome && path.isSome then
      .error (.plain "grep_scope_ambiguous"
        (.object [("operation", .string (operationOf grep)), ("directory", textOrNull directory),
          ("path", textOrNull path),
          ("remediation", .string ("Pass exactly one of directory or path. directory is " ++
            "canonical; path remains a compatibility alias."))]))
    else .ok ((directory.or path).getD ".")
  else .ok (directory.getD ".")

/-- The entries that a call captures at most. -/
def maxMatchesOf (grep : Bool) (args : Map) (requested : ℕ) : ℕ :=
  if grep then
    match integer args "internal_capture_limit" with
    | some value => (min (max value 1) maxSearchCaptureEntries).toNat
    | none => clamped args "max_matches" 30 1 100
  else requested

/-- The refusal to read a file by a pattern that every line matches. -/
def matchAllError (scopeArg pattern : String) : FsError where
  code := "grep_match_all_single_file_refused"
  message := "Match-all grep on a single file is equivalent to reading the file."
  details := .object [("operation", .string "fs_grep_search"), ("pattern", .string pattern),
    ("path", .string scopeArg),
    ("replacement", .object [("tool", .string "fs_read_file_range"),
      ("arguments", .object [("path", .string scopeArg), ("start_line", .ofNat 1),
        ("end_line", .ofNat 100)]),
      ("note", .string "Choose the explicit line window required.")]),
    ("count_preflight", .object [("tool", .string "fs_grep_search"),
      ("arguments", .object [("pattern", .string pattern), ("path", .string scopeArg),
        ("output_mode", .string "count_matches"), ("allow_match_all", .bool true),
        ("max_matches", .ofNat 1), ("max_output_chars", .ofNat 1000)])]),
    ("override", .object [("allow_match_all", .bool true), ("max_matches", .ofNat 30),
      ("max_output_chars", .ofNat 4000)])]

/-- The policy that a call asks for. -/
def policyOf (args : Map) : Except FsError CachePolicy :=
  let text := (textArg args "cache_policy").getD "auto"
  match CachePolicy.ofText text with
  | some policy => .ok policy
  | none => .error ⟨"search_cache_policy_unsupported",
      "search_cache_policy_unsupported: " ++ text, .object [("cache_policy", .string text)]⟩

/-- The two checks of a content search. -/
def checkGrep (t : DiskTree) (scope : Path) (scopeArg pattern outputMode : String) (args : Map) :
    Except FsError Unit :=
  if grepPatternMatchesEmpty pattern ∧ isFile t scope ∧
      (args.get "allow_match_all").bind Value.asBool ≠ some true then
    .error (matchAllError scopeArg pattern)
  else if outputMode ∈ ["files_with_matches", "count_matches", "content"] then .ok ()
  else .error ⟨"grep_output_mode_unsupported", "grep_output_mode_unsupported: " ++ outputMode,
    .object [("output_mode", .string outputMode)]⟩

/-- The head of `search_tool`: the arguments are read and checked. -/
def searchCallOf (s : State) (t : DiskTree) (grep : Bool) (args : Map) :
    Except FsError SearchCall := do
  let scopeArg ← scopeArgOf grep args
  let (scope, _) ← resolveAllowed s t (some scopeArg.toList) (operationOf grep)
  let pattern ← match textArg args "pattern" with
    | some pattern => .ok pattern
    | none =>
        .error (.plain (if grep then "grep_requires_pattern" else "glob_requires_pattern")
          (.object []))
  let requested := clamped args "limit" (if grep then 30 else 100) 1 500
  let maxMatches := maxMatchesOf grep args requested
  let maxOutputChars :=
    if grep then clamped args "max_output_chars" 4000 256 20000 else maxSearchCaptureBytes
  let policy ← policyOf args
  let outputMode := (textArg args "output_mode").getD
    (if grep then "files_with_matches" else "content")
  if grep then checkGrep t scope scopeArg pattern outputMode args else .ok ()
  return {
    grep := grep
    scopeArg := scopeArg
    scope := scope
    pattern := pattern
    offset := (max ((integer args "offset").getD 0) 0).toNat
    limit := min requested maxMatches
    bounds := ⟨maxMatches, maxOutputChars⟩
    policy := policy
    outputMode := outputMode
    snapshotId := textArg args "snapshot_id"
    filters := ⟨(args.get "ignore").getD .null, (args.get "exclude").getD .null,
      (args.get "glob").getD .null, (args.get "search_case").getD .null⟩ }

/-! ### What ripgrep is asked -/

/-- `DEFAULT_GLOB_IGNORES`. -/
def defaultGlobIgnores : List String :=
  ["**/.git/**", "**/node_modules/**", "**/dist/**", "**/build/**", "**/coverage/**",
    "**/.next/**", "**/.turbo/**", "**/.cache/**", "**/.venv/**", "**/__pycache__/**",
    "**/target/**"]

/-- `DEFAULT_GREP_IGNORES`. -/
def defaultGrepIgnores : List String :=
  defaultGlobIgnores ++ ["**/.ai/runtime/**", "**/.ai/tmp/**", "**/.ai/output/**",
    "**/.narada/runtime/**", "**/.narada/tmp/**", "**/.tmp-tests/**"]

/-- The globs that leave out what is ignored. -/
def ignoring (ignores : List String) : List String :=
  ignores.flatMap fun glob => ["-g", "!" ++ glob]

/-- The texts in an array. -/
def textsIn (value : Value) : List String := (value.asArray.getD []).filterMap Value.asStr

/-- The option for the case of letters. -/
def caseOption (searchCase : Value) : List String :=
  match searchCase.asStr with
  | some "sensitive" => ["--case-sensitive"]
  | some "insensitive" => ["--ignore-case"]
  | some "smart" => ["--smart-case"]
  | _ => []

/-- The option for what is printed of a match. -/
def modeOption (outputMode : String) : String :=
  if outputMode = "content" then "-n" else if outputMode = "count_matches" then "-c" else "-l"

namespace SearchCall

variable (call : SearchCall)

/-- The arguments that `run_search_command` runs ripgrep with. -/
def rgArguments : List String :=
  let scope := String.ofList call.scope
  let filters := ignoring (textsIn call.filters.ignore) ++ ignoring (textsIn call.filters.exclude)
  if call.grep then
    ["--field-match-separator", "\x1f", "--with-filename", modeOption call.outputMode] ++
      caseOption call.filters.searchCase ++
      (call.filters.glob.asStr.elim [] fun glob => ["-g", glob]) ++
      ignoring defaultGrepIgnores ++ filters ++ ["--", call.pattern, scope]
  else
    ["--files", "--hidden", "--no-ignore", "-g", call.pattern] ++ ignoring defaultGlobIgnores ++
      filters ++ [scope]

/-- What the call searches for. -/
def command : Command := ⟨call.grep, call.rgArguments⟩

end SearchCall

/-- Backslashes as slashes. -/
def slashed (value : String) : String :=
  String.ofList (value.toList.map fun c => if c = '\\' then '/' else c)

/-- `normalize_search_result`. -/
def normalizeSearchResult (grep : Bool) (value : String) : String :=
  if grep then
    match Str.splitOnce value "\x1f" with
    | some (path, remainder) => slashed path ++ "\x1f" ++ remainder
    | none => slashed value
  else slashed value

/-- The entries that are made of the lines of ripgrep. -/
def Command.read (command : Command) (printed : Captured) : Captured :=
  ⟨printed.entries.map (normalizeSearchResult command.grep), printed.complete⟩

/-! ### The store -/

/-- The snapshots by their ids, with the keys of their queries. -/
abbrev SearchStore := RecencyStore String String Captured

/-- The snapshots that are stored at most. -/
def capacity : ℕ := 4

/-- `touch_snapshot`. -/
def touchSnapshot (store : SearchStore) (id : String) : SearchStore := store.touch capacity id

section Keys

variable [FloatText] [Digest]

/-- The text that names a query. -/
def SearchCall.keyText (call : SearchCall) : String :=
  "|".intercalate [toString call.grep, String.ofList call.scope, call.pattern, call.outputMode,
    call.filters.ignore.text, call.filters.exclude.text, call.filters.glob.text,
    call.filters.searchCase.text, toString call.bounds.maxEntries, toString call.bounds.maxBytes]

/-- The key of a query. -/
def SearchCall.key (call : SearchCall) : String := Digest.sha256 call.keyText

/-- The id of a snapshot. -/
def snapshotIdOf (key : String) (captured : Captured) : String :=
  let digest := Digest.sha256
    (key ++ "\n" ++ "\n".intercalate captured.entries ++ "\n" ++ toString captured.complete)
  "s_" ++ String.ofList (digest.toList.take 24)

end Keys

/-- Where the entries of an answer are from. -/
inductive Origin
  | named (id : String)
  | indexed (id : String)
  | ran
deriving DecidableEq

/-- The answer with a page. -/
structure SearchPage where
  outputMode : Option String
  offset : ℕ
  limit : ℕ
  count : ℕ
  countExact : Bool
  captureBounds : Option Bounds
  cacheHit : Bool
  snapshotReused : Bool
  cachePolicy : CachePolicy
  snapshotId : Option String
  requestedSnapshotId : Option String
  shown : List String
  hasMore : Bool

/-- The entries that a call shows. -/
def SearchCall.window (call : SearchCall) (entries : List String) : List String :=
  (entries.drop call.offset).take call.limit

/-- The end of `search_tool`: the page that is shown. -/
def pageOf (call : SearchCall) (origin : Origin) (captured : Captured)
    (snapshot : Option String) : Except FsError SearchPage :=
  let operation := operationOf call.grep
  if captured.complete = false ∧ captured.entries.length ≤ call.offset then
    .error ⟨operation ++ "_capture_boundary_reached",
      operation ++ "_capture_boundary_reached: the bounded search capture is exhausted",
      .object [("offset", .ofNat call.offset),
        ("captured_entries", .ofNat captured.entries.length), ("snapshot_id", textOrNull snapshot),
        ("remediation", .string ("Narrow the search path or pattern, then start a refreshed " ++
          "search."))]⟩
  else
    let shown := call.window captured.entries
    .ok {
      outputMode := if call.grep then some call.outputMode else none
      offset := call.offset
      limit := call.limit
      count := captured.entries.length
      countExact := captured.complete
      captureBounds := if call.grep then some call.bounds else none
      cacheHit := origin ≠ .ran
      snapshotReused := match origin with
        | .named _ => true
        | _ => false
      cachePolicy := call.policy
      snapshotId := snapshot
      requestedSnapshotId := call.snapshotId
      shown := shown
      hasMore := call.offset + shown.length < captured.entries.length || !captured.complete }

section Search

variable [FloatText] [Digest]

/-- The entries of an answer: of the snapshot that is named, of the one that the key leads to, or
of `ran`, which is what running ripgrep brings. -/
def capture (store : SearchStore) (call : SearchCall) (ran : Except FsError Captured) :
    Except FsError (Origin × Captured) :=
  match call.snapshotId with
  | some id =>
      match store.entries.get id with
      | some captured => .ok (.named id, captured)
      | none =>
          let operation := operationOf call.grep
          .error ⟨operation ++ "_snapshot_not_found", operation ++ "_snapshot_not_found: " ++ id,
            .object [("snapshot_id", .string id)]⟩
  | none =>
      match if call.policy.usesIndex then store.index.get call.key else none with
      | some (id, captured) => .ok (.indexed id, captured)
      | none => ran.map fun captured => (.ran, captured)

/-- What is stored of an answer, and the id that its entries then have. -/
def keep (store : SearchStore) (call : SearchCall) (origin : Origin) (captured : Captured) :
    Option String × SearchStore :=
  match origin with
  | .named id => (some id, touchSnapshot store id)
  | .indexed id => (some id, touchSnapshot store id)
  | .ran =>
      if call.policy = .bypass then (none, store)
      else
        let id := snapshotIdOf call.key captured
        (some id, touchSnapshot (store.put call.key id captured) id)

/-- `search_tool`, behind the checks of its arguments. -/
def searchTool (store : SearchStore) (call : SearchCall) (ran : Except FsError Captured) :
    Except FsError SearchPage × SearchStore :=
  match capture store call ran with
  | .error failure => (.error failure, store)
  | .ok (origin, captured) =>
      let kept := keep store call origin captured
      (pageOf call origin captured kept.1, kept.2)

end Search

/-! ### The server -/

/-- A capture that was stored: under which id and which key, of which search, on which disk. -/
structure Taken where
  id : String
  key : String
  command : Command
  bounds : Bounds
  disk : DiskTree
  captured : Captured

/-- The server with the disk, and what stands in its store as it was taken. -/
structure Server where
  store : SearchStore
  disk : DiskTree
  taken : List Taken

/-- A server that was started. -/
def Server.start (disk : DiskTree) : Server := ⟨.empty, disk, []⟩

/-- A call of the dispatcher, with the disk that it leaves: a search, with what ripgrep prints if
it is run, or a tool that writes, with its answer. -/
inductive Call
  | search (grep : Bool) (args : Map) (ran : Except FsError Captured) (left : DiskTree)
  | write (answer : Except FsError Value) (left : DiskTree)

/-- The disk that a call leaves. -/
def Call.left : Call → DiskTree
  | .search _ _ _ left => left
  | .write _ left => left

section Serving

variable [FloatText] [Digest] (s : State)

/-- What a search brings to the store. -/
def newlyTaken (srv : Server) (call : SearchCall) (ran : Except FsError Captured) : List Taken :=
  match capture srv.store call ran with
  | .ok (.ran, captured) =>
      if call.policy = .bypass then []
      else [⟨snapshotIdOf call.key captured, call.key, call.command, call.bounds, srv.disk,
        captured⟩]
  | _ => []

/-- The server behind a search whose arguments were read. -/
def afterSearch (srv : Server) (call : SearchCall) (ran : Except FsError Captured)
    (left : DiskTree) : Server :=
  let store := (searchTool srv.store call ran).2
  ⟨store, left, (newlyTaken srv call ran ++ srv.taken).filter fun t => t.id ∈ store.order⟩

/-- `call_tool`: the server behind a call. -/
def after (srv : Server) : Call → Server
  | .search grep args ran left =>
      match searchCallOf s srv.disk grep args with
      | .error _ => { srv with disk := left }
      | .ok call => afterSearch srv call (ran.map call.command.read) left
  | .write (.error _) left => { srv with disk := left }
  | .write (.ok _) left => ⟨.empty, left, []⟩

/-! ### What pages are to show -/

/-- What ripgrep may print with some arguments, as far as it is captured within some bounds. -/
abbrev Ripgrep := DiskTree → List String → Bounds → Captured → Prop

variable (rg : Ripgrep)

/-- What a search brings on a disk. -/
def Results (disk : DiskTree) (command : Command) (bounds : Bounds) (captured : Captured) : Prop :=
  ∃ printed, rg disk command.arguments bounds printed ∧ captured = command.read printed

/-- What is said to be printed when ripgrep is run is what it prints on the disk. -/
def Runs (srv : Server) : Call → Prop
  | .search grep args ran _ => ∀ call, searchCallOf s srv.disk grep args = .ok call →
      ∀ printed, ran = .ok printed → rg srv.disk call.rgArguments call.bounds printed
  | .write _ _ => True

/-- A page that is from the store is a window of what its own search brought on the disk on which
the snapshot was taken, and under `auto` it is one of what that search brings on the disk as it is.
The bounds of the search are those of the call, unless it names a snapshot. -/
def Shows (srv : Server) (call : SearchCall) (page : SearchPage) : Prop :=
  (page.cacheHit = true → ∃ t ∈ srv.taken, page.snapshotId = some t.id ∧
    (call.snapshotId = none → t.bounds = call.bounds) ∧
    Results rg t.disk call.command t.bounds t.captured ∧
    page.shown = call.window t.captured.entries) ∧
  (call.policy = .auto → ∃ bounds captured, (call.snapshotId = none → bounds = call.bounds) ∧
    Results rg srv.disk call.command bounds captured ∧ page.shown = call.window captured.entries)

/-- The page of a call, if it is a search that is answered, shows what it is to show. -/
def Right (srv : Server) : Call → Prop
  | .search grep args ran _ => ∀ call, searchCallOf s srv.disk grep args = .ok call →
      ∀ page, (searchTool srv.store call (ran.map call.command.read)).1 = .ok page →
        Shows rg srv call page
  | .write _ _ => True

/-- No more is stored than fits, and the index leads to what is stored. -/
def Bounded (store : SearchStore) : Prop :=
  store.entries.length ≤ capacity ∧ ∀ e ∈ store.index, e.2.1 ∈ store.entries.keys

/-- A search asks for what it may be answered with: the snapshot that it names was taken for the
same, and so was what is stored under its key if it is looked up. -/
def Asks (srv : Server) (call : SearchCall) : Prop :=
  (∀ id, call.snapshotId = some id → ∀ t ∈ srv.taken, t.id = id → t.command = call.command) ∧
  (call.snapshotId = none → call.policy.usesIndex = true → ∀ t ∈ srv.taken, t.key = call.key →
    t.command = call.command ∧ t.bounds = call.bounds)

/-- What stands in the store behind a call is what its searches bring on the disk that is left, if
they brought it before. -/
def Spares (srv : Server) (c : Call) : Prop :=
  ∀ t ∈ (after s srv c).taken, Results rg srv.disk t.command t.bounds t.captured →
    Results rg c.left t.command t.bounds t.captured

/-- The condition on a call. -/
def Meets (srv : Server) (c : Call) : Prop :=
  (match c with
    | .search grep args _ _ => ∀ call, searchCallOf s srv.disk grep args = .ok call →
        Asks srv call
    | .write _ _ => True) ∧ Spares s rg srv c

/-! ### The store -/

variable {s}

/-- A store that is linked and not too large. -/
def Kept (store : SearchStore) : Prop := store.Linked ∧ store.order.length ≤ capacity

section

omit [FloatText] [Digest]

lemma kept_empty : Kept .empty := ⟨RecencyStore.linked_empty, Nat.zero_le _⟩

lemma Kept.bounded {store : SearchStore} (h : Kept store) : Bounded store :=
  ⟨h.1.length_entries.trans_le h.2, fun _ he => h.1.mem_keys he⟩

end

variable {srv : Server} {call : SearchCall} {ran : Except FsError Captured} {origin : Origin}
  {captured : Captured}

/-- What an answer is from stands in the store. -/
lemma capture_eq_ok (h : capture srv.store call ran = .ok (origin, captured)) :
    match origin with
    | .named id => call.snapshotId = some id ∧ (id, captured) ∈ srv.store.entries
    | .indexed id => call.snapshotId = none ∧ call.policy.usesIndex = true ∧
        (call.key, id, captured) ∈ srv.store.index
    | .ran => call.snapshotId = none ∧ ran = .ok captured := by
  rw [capture] at h
  cases hid : call.snapshotId with
  | some id =>
      rw [hid] at h
      cases hget : srv.store.entries.get id with
      | none =>
          simp only [hget] at h
          cases h
      | some found =>
          simp only [hget] at h
          cases h
          exact ⟨rfl, OrderedMap.mem_of_get hget⟩
  | none =>
      rw [hid] at h
      cases hget : if call.policy.usesIndex then srv.store.index.get call.key else none with
      | none =>
          simp only [hget] at h
          cases ran with
          | error failure => cases h
          | ok found =>
              cases h
              exact ⟨rfl, rfl⟩
      | some entry =>
          obtain ⟨id, found⟩ := entry
          simp only [hget] at h
          cases h
          split_ifs at hget with huses
          exact ⟨rfl, huses, OrderedMap.mem_of_get hget⟩

/-- What a search does to the store: nothing, a touch of what stands in it, or a new snapshot. -/
lemma searchTool_cases (srv : Server) (call : SearchCall) (ran : Except FsError Captured) :
    ((searchTool srv.store call ran).2 = srv.store ∧ newlyTaken srv call ran = []) ∨
    (∃ id ∈ srv.store.entries.keys ∪ srv.store.index.map fun e => e.2.1,
      (searchTool srv.store call ran).2 = touchSnapshot srv.store id ∧
        newlyTaken srv call ran = []) ∨
    ∃ captured, ran = .ok captured ∧
      (searchTool srv.store call ran).2 = touchSnapshot
        (srv.store.put call.key (snapshotIdOf call.key captured) captured)
        (snapshotIdOf call.key captured) ∧
      newlyTaken srv call ran = [⟨snapshotIdOf call.key captured, call.key, call.command,
        call.bounds, srv.disk, captured⟩] := by
  cases hcapture : capture srv.store call ran with
  | error failure => simp [searchTool, newlyTaken, hcapture]
  | ok found =>
      obtain ⟨origin, captured⟩ := found
      have hfrom := capture_eq_ok hcapture
      rw [searchTool, newlyTaken, hcapture]
      cases origin with
      | named id =>
          refine .inr (.inl ⟨id, List.mem_union_iff.mpr (.inl ?_), rfl, rfl⟩)
          exact List.mem_map_of_mem hfrom.2
      | indexed id =>
          refine .inr (.inl ⟨id, List.mem_union_iff.mpr (.inr ?_), rfl, rfl⟩)
          exact List.mem_map_of_mem hfrom.2.2
      | ran =>
          by_cases hbypass : call.policy = .bypass
          · refine .inl ⟨?_, if_pos hbypass⟩
            simp only [keep, if_pos hbypass]
          · refine .inr (.inr ⟨captured, hfrom.2, ?_, if_neg hbypass⟩)
            simp only [keep, if_neg hbypass]

/-- **A call keeps the store as it should be.** -/
theorem kept_after (h : Kept srv.store) (c : Call) : Kept (after s srv c).store := by
  cases c with
  | write answer left =>
      cases answer with
      | error failure => exact h
      | ok value => exact kept_empty
  | search grep args ran left =>
      rw [after]
      cases hcall : searchCallOf s srv.disk grep args with
      | error failure => exact h
      | ok call =>
          show Kept (searchTool srv.store call (ran.map call.command.read)).2
          obtain ⟨hstore, -⟩ | ⟨id, hid, hstore, -⟩ | ⟨captured, -, hstore, -⟩ :=
            searchTool_cases srv call (ran.map call.command.read)
          · rw [hstore]
            exact h
          · rw [hstore]
            refine ⟨h.1.touch ?_, RecencyStore.length_order_touch id⟩
            obtain hid | hid := List.mem_union_iff.mp hid
            · exact hid
            · obtain ⟨e, he, rfl⟩ := List.mem_map.mp hid
              exact h.1.mem_keys he
          · rw [hstore]
            exact ⟨h.1.put_touch _ _ _, RecencyStore.length_order_touch _⟩

/-! ### What stands in the store -/

/-- What stands in the store was taken, and is what its search brings now. -/
structure Backed (srv : Server) : Prop where
  kept : Kept srv.store
  entries : ∀ e ∈ srv.store.entries, ∃ t ∈ srv.taken, t.id = e.1 ∧ t.captured = e.2
  index : ∀ e ∈ srv.store.index, ∃ t ∈ srv.taken,
    t.key = e.1 ∧ t.id = e.2.1 ∧ t.captured = e.2.2
  atFirst : ∀ t ∈ srv.taken, Results rg t.disk t.command t.bounds t.captured
  atLast : ∀ t ∈ srv.taken, Results rg srv.disk t.command t.bounds t.captured

omit [FloatText] [Digest] in
lemma backed_start (disk : DiskTree) : Backed rg (.start disk) :=
  ⟨kept_empty, nofun, nofun, nofun, nofun⟩

/-- What stands in the store behind a search stood there before, or is new. -/
lemma mem_afterSearch (srv : Server) (call : SearchCall) (ran : Except FsError Captured)
    (left : DiskTree) :
    (∀ e ∈ (afterSearch srv call ran left).store.entries, e ∈ srv.store.entries ∨
      ∃ t ∈ newlyTaken srv call ran, t.id = e.1 ∧ t.captured = e.2) ∧
    ∀ e ∈ (afterSearch srv call ran left).store.index, e ∈ srv.store.index ∨
      ∃ t ∈ newlyTaken srv call ran, t.key = e.1 ∧ t.id = e.2.1 ∧ t.captured = e.2.2 := by
  rw [afterSearch]
  obtain ⟨hstore, -⟩ | ⟨id, -, hstore, -⟩ | ⟨captured, -, hstore, hnew⟩ :=
    searchTool_cases srv call ran
  · rw [hstore]
    exact ⟨fun e he => .inl he, fun e he => .inl he⟩
  · rw [hstore]
    exact ⟨fun e he => .inl (RecencyStore.mem_of_mem_entries_trim he),
      fun e he => .inl (RecencyStore.mem_of_mem_index_trim he)⟩
  · rw [hstore, hnew]
    constructor
    · intro e he
      obtain rfl | he := OrderedMap.mem_insert (RecencyStore.mem_of_mem_entries_trim he)
      · exact .inr ⟨_, List.mem_singleton_self _, rfl, rfl⟩
      · exact .inl he
    · intro e he
      obtain rfl | he := OrderedMap.mem_insert (RecencyStore.mem_of_mem_index_trim he)
      · exact .inr ⟨_, List.mem_singleton_self _, rfl, rfl, rfl⟩
      · exact .inl he

/-- What a search takes is what it brings. -/
lemma results_of_newlyTaken (hruns : ∀ captured, ran = .ok captured →
      Results rg srv.disk call.command call.bounds captured) {t : Taken}
    (ht : t ∈ newlyTaken srv call ran) :
    t.disk = srv.disk ∧ Results rg srv.disk t.command t.bounds t.captured := by
  obtain ⟨-, hnew⟩ | ⟨id, -, -, hnew⟩ | ⟨captured, hran, -, hnew⟩ :=
    searchTool_cases srv call ran
  · rw [hnew] at ht
    cases ht
  · rw [hnew] at ht
    cases ht
  · rw [hnew, List.mem_singleton] at ht
    subst ht
    exact ⟨rfl, hruns captured hran⟩

omit [FloatText] [Digest] in
/-- What ripgrep is said to print is what the search brings. -/
lemma Runs.results {grep : Bool} {args : Map} {ran : Except FsError Captured} {left : DiskTree}
    (h : Runs s rg srv (.search grep args ran left))
    (hcall : searchCallOf s srv.disk grep args = .ok call) :
    ∀ captured, ran.map call.command.read = .ok captured →
      Results rg srv.disk call.command call.bounds captured := by
  intro captured hread
  cases ran with
  | error failure => cases hread
  | ok printed =>
      cases hread
      exact ⟨printed, h call hcall printed rfl, rfl⟩

/-- What stands in the store behind a search is backed, once the disk that is left spares it. -/
lemma Backed.afterSearch (h : Backed rg srv) (hkept : Kept (afterSearch srv call ran left).store)
    (hruns : ∀ captured, ran = .ok captured →
      Results rg srv.disk call.command call.bounds captured)
    (hspares : ∀ t ∈ (afterSearch srv call ran left).taken,
      Results rg srv.disk t.command t.bounds t.captured →
        Results rg left t.command t.bounds t.captured) :
    Backed rg (afterSearch srv call ran left) := by
  obtain ⟨hentries, hindex⟩ := mem_afterSearch srv call ran left
  have hmem : ∀ t ∈ newlyTaken srv call ran ++ srv.taken,
      t.id ∈ (SearchSnapshots.afterSearch srv call ran left).store.order →
      t ∈ (SearchSnapshots.afterSearch srv call ran left).taken := by
    intro t ht hid
    exact List.mem_filter.mpr ⟨ht, decide_eq_true hid⟩
  have hnow : ∀ t ∈ newlyTaken srv call ran ++ srv.taken,
      Results rg t.disk t.command t.bounds t.captured ∧
        Results rg srv.disk t.command t.bounds t.captured := by
    intro t ht
    obtain ht | ht := List.mem_append.mp ht
    · obtain ⟨hdisk, hresults⟩ := results_of_newlyTaken rg hruns ht
      exact ⟨hdisk ▸ hresults, hresults⟩
    · exact ⟨h.atFirst t ht, h.atLast t ht⟩
  refine ⟨hkept, fun e he => ?_, fun e he => ?_, fun t ht => ?_, fun t ht => ?_⟩
  · have hid : e.1 ∈ (SearchSnapshots.afterSearch srv call ran left).store.order :=
      (hkept.1.listed _).mp (List.mem_map_of_mem he)
    obtain hold | ⟨t, ht, hte, htc⟩ := hentries e he
    · obtain ⟨t, ht, hte, htc⟩ := h.entries e hold
      exact ⟨t, hmem t (List.mem_append_right _ ht) (hte ▸ hid), hte, htc⟩
    · exact ⟨t, hmem t (List.mem_append_left _ ht) (hte ▸ hid), hte, htc⟩
  · have hid := hkept.1.indexed e he
    obtain hold | ⟨t, ht, hkey, hte, htc⟩ := hindex e he
    · obtain ⟨t, ht, hkey, hte, htc⟩ := h.index e hold
      exact ⟨t, hmem t (List.mem_append_right _ ht) (hte ▸ hid), hkey, hte, htc⟩
    · exact ⟨t, hmem t (List.mem_append_left _ ht) (hte ▸ hid), hkey, hte, htc⟩
  · exact (hnow t (List.mem_of_mem_filter ht)).1
  · exact hspares t ht (hnow t (List.mem_of_mem_filter ht)).2

/-- **A call that spares what is stored** leaves it backed. -/
lemma Backed.after (h : Backed rg srv) {c : Call} (hruns : Runs s rg srv c)
    (hspares : Spares s rg srv c) : Backed rg (after s srv c) := by
  have hkept := kept_after (s := s) h.kept c
  cases c with
  | write answer left =>
      cases answer with
      | error failure =>
          exact ⟨h.kept, h.entries, h.index, h.atFirst, fun t ht => hspares t ht (h.atLast t ht)⟩
      | ok value => exact backed_start rg left
  | search grep args ran left =>
      rw [Spares, SearchSnapshots.after] at hspares
      rw [SearchSnapshots.after] at hkept ⊢
      cases hcall : searchCallOf s srv.disk grep args with
      | error failure =>
          rw [hcall] at hspares
          exact ⟨h.kept, h.entries, h.index, h.atFirst, fun t ht => hspares t ht (h.atLast t ht)⟩
      | ok call =>
          rw [hcall] at hspares hkept
          exact h.afterSearch rg hkept (hruns.results rg hcall) hspares

omit [FloatText] [Digest] in
/-- What a page shows. -/
lemma pageOf_eq_ok {snapshot : Option String} {page : SearchPage}
    (h : pageOf call origin captured snapshot = .ok page) :
    page.shown = call.window captured.entries ∧ page.snapshotId = snapshot ∧
      (page.cacheHit = true → origin ≠ .ran) := by
  by_cases hboundary : captured.complete = false ∧ captured.entries.length ≤ call.offset
  · simp only [pageOf, if_pos hboundary] at h
    cases h
  · simp only [pageOf, if_neg hboundary] at h
    cases h
    exact ⟨rfl, rfl, of_decide_eq_true⟩

/-- What a page shows, and the id that its entries have. -/
lemma searchTool_eq_ok {page : SearchPage} (h : (searchTool srv.store call ran).1 = .ok page) :
    ∃ origin captured, capture srv.store call ran = .ok (origin, captured) ∧
      page.shown = call.window captured.entries ∧
      (page.cacheHit = true → origin ≠ .ran) ∧
      ∀ id, origin = .named id ∨ origin = .indexed id → page.snapshotId = some id := by
  rw [searchTool] at h
  cases hcapture : capture srv.store call ran with
  | error failure =>
      rw [hcapture] at h
      cases h
  | ok found =>
      obtain ⟨origin, captured⟩ := found
      rw [hcapture] at h
      obtain ⟨hshown, hsnapshot, hhit⟩ := pageOf_eq_ok h
      refine ⟨origin, captured, rfl, hshown, hhit, fun id hid => ?_⟩
      obtain rfl | rfl := hid
      · exact hsnapshot
      · exact hsnapshot

/-- **A page of a search that asks for what it may be answered with** shows what it is to show. -/
lemma Backed.shows (h : Backed rg srv) (hasks : Asks srv call)
    (hruns : ∀ captured, ran = .ok captured →
      Results rg srv.disk call.command call.bounds captured) {page : SearchPage}
    (hpage : (searchTool srv.store call ran).1 = .ok page) : Shows rg srv call page := by
  obtain ⟨origin, captured, hcapture, hshown, hhit, hid⟩ := searchTool_eq_ok hpage
  have hfrom := capture_eq_ok hcapture
  cases origin with
  | named id =>
      obtain ⟨hnamed, hstored⟩ := hfrom
      obtain ⟨t, ht, rfl, rfl⟩ := h.entries _ hstored
      have hcommand := hasks.1 t.id hnamed t ht rfl
      have hnot : call.snapshotId ≠ none := by simp [hnamed]
      refine ⟨fun _ => ⟨t, ht, hid _ (.inl rfl), fun hnone => absurd hnone hnot,
        hcommand ▸ h.atFirst t ht, hshown⟩, fun _ => ?_⟩
      exact ⟨t.bounds, t.captured, fun hnone => absurd hnone hnot, hcommand ▸ h.atLast t ht, hshown⟩
  | indexed id =>
      obtain ⟨hnone, huses, hstored⟩ := hfrom
      obtain ⟨t, ht, hkey, rfl, rfl⟩ := h.index _ hstored
      obtain ⟨hcommand, hbounds⟩ := hasks.2 hnone huses t ht hkey
      refine ⟨fun _ => ⟨t, ht, hid _ (.inr rfl), fun _ => hbounds, hcommand ▸ h.atFirst t ht,
        hshown⟩, fun _ => ?_⟩
      exact ⟨t.bounds, t.captured, fun _ => hbounds, hcommand ▸ h.atLast t ht, hshown⟩
  | ran =>
      refine ⟨fun h => absurd rfl (hhit h), fun _ => ?_⟩
      exact ⟨call.bounds, captured, fun _ => rfl, hruns captured hfrom.2, hshown⟩

/-- The page of a call is right. -/
lemma Backed.right (h : Backed rg srv) {c : Call} (hruns : Runs s rg srv c)
    (hmeets : Meets s rg srv c) : Right s rg srv c := by
  cases c with
  | write answer left => trivial
  | search grep args ran left =>
      intro call hcall page hpage
      exact h.shows rg (hmeets.1 call hcall) (hruns.results rg hcall) hpage

/-- **Searches are answered as they would be now**: in every run from an empty store whose calls
meet the condition, every page that is from the store shows what its own search brought on the disk
on which the snapshot was taken, and every page under `auto` what it brings on the disk as it is;
no more is stored than fits, and the index leads to what is stored. -/
theorem shows_run {disk : DiskTree} {calls : List Call}
    (hruns : Calls.Each (after s) (Runs s rg) (.start disk) calls)
    (hmeets : Calls.Each (after s) (Meets s rg) (.start disk) calls) :
    Calls.Each (after s) (fun srv c => Right s rg srv c ∧ Bounded (after s srv c).store)
      (.start disk) calls := by
  refine Calls.Each.of_invariant (P := fun srv c => Runs s rg srv c ∧ Meets s rg srv c)
    (fun srv c (h : Backed rg srv) hc => h.after rg hc.1 hc.2.2) (fun srv c h hc => ?_)
    (backed_start rg disk) (hruns.and hmeets)
  exact ⟨h.right rg hc.1 hc.2, (kept_after h.kept c).bounded⟩

end Serving

/-! ### A disk that changes below the store -/

/-- What ripgrep prints of the disks of the example, asked for the files of the root. -/
def listNew : Ripgrep := fun disk _ _ printed =>
  printed = ⟨if (disk.entry [newName, rootName]).isSome then ["/root/./new.txt"] else [], true⟩

/-- The arguments of a search for files, by its key or by a snapshot. -/
def textsArgs (snapshotId : Option String) : Map :=
  ("pattern", .string "*.txt") ::
    snapshotId.elim [] fun id => [("snapshot_id", .string id)]

/-- The search that these arguments are read as. -/
def textsCall (snapshotId : Option String) : SearchCall where
  grep := false
  scopeArg := "."
  scope := "/root/.".toList
  pattern := "*.txt"
  offset := 0
  limit := 100
  bounds := ⟨100, maxSearchCaptureBytes⟩
  policy := .auto
  outputMode := "content"
  snapshotId := snapshotId
  filters := ⟨.null, .null, .null, .null⟩

/-- The id of the snapshot of that search. -/
def textsId : String := "s_false|/root/.|*.txt|conte"

lemma searchCallOf_texts {disk : DiskTree} (h : disk = twoDirectories ∨ disk = grownTree)
    {snapshotId : Option String} (hid : snapshotId = none ∨ snapshotId = some textsId) :
    searchCallOf plainState disk false (textsArgs snapshotId) = .ok (textsCall snapshotId) := by
  obtain rfl | rfl := h <;> obtain rfl | rfl := hid <;> decide +kernel

/-- A search for the files, with what ripgrep prints on its disk. -/
def texts (snapshotId : Option String) (printed : List String) (disk : DiskTree) : Call :=
  .search false (textsArgs snapshotId) (.ok ⟨printed, true⟩) disk

/-- A write that is answered. -/
def written : Call := .write (.ok .null) grownTree

/-- A write that fails once the file is written, as its audit record is not. -/
def unaudited : Call :=
  .write (.error (.plain "fs_write_file_audit_failed" (.object []))) grownTree

/-- A search that is answered from the store twice, and again behind a write. -/
def sparedCalls : List Call :=
  [texts none [] twoDirectories, texts none [] twoDirectories,
    texts (some textsId) [] twoDirectories, written, texts none ["/root/./new.txt"] grownTree]

lemma runs_texts {srv : Server} {snapshotId : Option String} {printed : List String}
    {left : DiskTree}
    (h : printed =
      if (srv.disk.entry [newName, rootName]).isSome then ["/root/./new.txt"] else []) :
    Runs plainState listNew srv (texts snapshotId printed left) := by
  rintro call - lines hlines
  cases hlines
  rw [listNew, h]

lemma meets_texts [FloatText] [Digest] {srv : Server} {snapshotId : Option String}
    {printed : List String} (hdisk : srv.disk = twoDirectories ∨ srv.disk = grownTree)
    (hid : snapshotId = none ∨ snapshotId = some textsId)
    (h : ∀ t ∈ srv.taken, t.command = (textsCall none).command ∧
      t.bounds = (textsCall none).bounds) :
    Meets plainState listNew srv (texts snapshotId printed srv.disk) := by
  refine ⟨fun call hcall => ?_, fun t _ hresults => hresults⟩
  rw [searchCallOf_texts hdisk hid] at hcall
  cases hcall
  exact ⟨fun _ _ t ht _ => (h t ht).1, fun _ _ t ht _ => h t ht⟩

/-- The answers to searches that are made again, also behind a write that is answered. -/
theorem shows_spared :
    letI := FloatText.fields
    letI : Digest := ⟨id⟩
    Calls.Each (after plainState)
      (fun srv c => Right plainState listNew srv c ∧ Bounded (after plainState srv c).store)
      (.start twoDirectories) sparedCalls :=
  letI := FloatText.fields
  letI : Digest := ⟨id⟩
  shows_run listNew
    ⟨runs_texts (by decide +kernel), runs_texts (by decide +kernel), runs_texts (by decide +kernel),
      trivial, runs_texts (by decide +kernel), trivial⟩
    ⟨meets_texts (.inl rfl) (.inl rfl) nofun,
      meets_texts (.inl rfl) (.inl rfl) (by decide +kernel),
      meets_texts (.inl rfl) (.inr rfl) (by decide +kernel), ⟨trivial, nofun⟩,
      meets_texts (.inr rfl) (.inl rfl) nofun, trivial⟩

/-- **A write that fails leaves snapshots of what was there before it.** -/
theorem stale_behind_failure :
    ¬ ∀ [FloatText] [Digest] (s : State) (rg : Ripgrep) (disk : DiskTree) (calls : List Call),
      Calls.Each (after s) (Runs s rg) (.start disk) calls →
      Calls.Each (after s) (fun srv c => Right s rg srv c ∧ Bounded (after s srv c).store)
        (.start disk) calls := by
  intro h
  let _ := FloatText.fields
  let _ : Digest := ⟨id⟩
  obtain ⟨-, -, ⟨hright, -⟩, -⟩ := h plainState listNew twoDirectories
    [texts none [] twoDirectories, unaudited, texts none ["/root/./new.txt"] grownTree]
    ⟨runs_texts (by decide +kernel), trivial, runs_texts (by decide +kernel), trivial⟩
  have hstale : ((searchTool (Calls.run (after plainState) (.start twoDirectories)
      [texts none [] twoDirectories, unaudited]).store (textsCall none)
        (.ok ⟨["/root/./new.txt"], true⟩)).1.toOption.map SearchPage.shown) = some [] := by
    decide +kernel
  obtain ⟨page, hpage, hshown⟩ := Option.map_eq_some_iff.mp hstale
  have hanswer := Lists.eq_ok_of_isSome (Option.isSome_of_eq_some hpage) page
  rw [hpage, Option.getD_some] at hanswer
  obtain ⟨-, hnow⟩ := hright _ (searchCallOf_texts (.inr rfl) (.inl rfl)) page hanswer
  obtain ⟨bounds, captured, -, ⟨printed, hprinted, rfl⟩, hwindow⟩ := hnow rfl
  rw [hshown, hprinted] at hwindow
  revert hwindow
  decide +kernel

end SearchSnapshots

end Filesystem

end McpSurfaces
