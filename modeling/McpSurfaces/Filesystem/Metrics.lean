import McpSurfaces.Filesystem.ReadFile

/-!
The metrics of files, page by page: `fs_file_metrics` over a list of matches.

* `fileMetrics`: a window of the matches, of which those are reported that name regular files. The
  next offset counts the files that are reported (`nextOffset_fileMetrics`).
* `Recovers`: following the next offset ends, and every regular file among the matches is reported
  once. **`recovers_iff`**: exactly when every match names a regular file.
-/

namespace McpSurfaces

namespace Filesystem

open ByteLines OffsetPaging TextLines

namespace Metrics

/-! ### Files -/

/-- A regular file: its metadata, and what reading it gives, in chunks, where it can be read. -/
structure FileFacts where
  len : ℕ
  mtime : String
  chunks : Option (List (List UInt8))

/-- The regular files of a disk. -/
abbrev Disk := String → Option FileFacts

/-- The loop of `count_lines`: the lines so far, whether there was a byte, and whether the last one
was a line feed. -/
def countLinesFrom : List (List UInt8) → ℕ → Bool → Bool → ℕ × Bool
  | [], lines, any, lastNewline => (if any && !lastNewline then lines + 1 else lines, false)
  | chunk :: rest, lines, _, _ =>
      if 0 ∈ chunk then (0, true)
      else countLinesFrom rest (lines + chunk.count 10) true (decide (chunk.getLast? = some 10))

/-- `count_lines`: the lines, and whether the file is binary. -/
def countLines (chunks : List (List UInt8)) : ℕ × Bool := countLinesFrom chunks 0 false false

inductive LineCountStatus
  | exact
  | binary
  | unavailable
  | tooLarge
  | scanBudgetExceeded
deriving DecidableEq

/-- `GENERATED_MARKERS`. -/
def generatedMarkers : List String :=
  ["/.ai/runtime/", "/.ai/tmp/", "/.ai/output/", "/.narada/runtime/", "/.narada/tmp/",
    "/.narada/local-filesystem-mcp/patch-outcomes/", "/.tmp-tests/"]

/-- `classify`. -/
def classify (path : Path) : String :=
  let slashes := path.map fun c => if c = '\\' then '/' else c
  let inner := (slashes.dropWhile (· = '/')).rdropWhile (· = '/')
  let normalized := ('/' :: inner ++ ['/']).map Char.toLower
  if generatedMarkers.any fun marker => decide (marker.toList <:+: normalized) then
    "generated_artifact"
  else "candidate_source"

/-! ### One page -/

/-- What is reported of a file. -/
structure FileMetric where
  path : String
  relativePath : Text
  rootRelativePath : Text
  lineCount : Option ℕ
  lineCountStatus : LineCountStatus
  byteCount : ℕ
  fileType : Text
  scopeClassification : String
  mtime : String

/-- The bounds of a scan. -/
structure ScanBounds where
  maxFile : ℕ
  maxTotal : ℕ

/-- The lines of a file, unless it is too large for the bounds, and the bytes that are reserved. -/
def lineCountOf (bounds : ScanBounds) (reserved : ℕ) (facts : FileFacts) :
    Option ℕ × LineCountStatus × ℕ :=
  if bounds.maxFile < facts.len then (none, .tooLarge, reserved)
  else if bounds.maxTotal < reserved + facts.len then (none, .scanBudgetExceeded, reserved)
  else match facts.chunks.map countLines with
    | some (_, true) => (none, .binary, reserved + facts.len)
    | some (count, false) => (some count, .exact, reserved + facts.len)
    | none => (none, .unavailable, reserved + facts.len)

/-- The report of a file. -/
def metricOf (directory root : Path) (path : String) (facts : FileFacts) (count : Option ℕ)
    (status : LineCountStatus) : FileMetric where
  path := path
  relativePath := Filesystem.relativePath directory path.toList
  rootRelativePath := Filesystem.relativePath root path.toList
  lineCount := count
  lineCountStatus := status
  byteCount := facts.len
  fileType :=
    if status = .binary then "binary".toList
    else (extension path.toList).getD "no_extension".toList
  scopeClassification := classify (Filesystem.relativePath root path.toList)
  mtime := facts.mtime

/-- The loop over the matches of a window, with the bytes that are reserved. -/
def scan (disk : Disk) (directory root : Path) (bounds : ScanBounds) :
    List Value → ℕ → List FileMetric × ℕ
  | [], reserved => ([], reserved)
  | item :: rest, reserved =>
      match item.asStr with
      | none => scan disk directory root bounds rest reserved
      | some path =>
          match disk path with
          | none => scan disk directory root bounds rest reserved
          | some facts =>
              let counted := lineCountOf bounds reserved facts
              let behind := scan disk directory root bounds rest counted.2.2
              (metricOf directory root path facts counted.1 counted.2.1 :: behind.1, behind.2)

/-- The answer with a page of the files. -/
structure MetricsPage where
  offset : ℕ
  limit : ℕ
  count : ℕ
  files : List FileMetric
  scanBudgetBytes : ℕ
  scanBytesReserved : ℕ

namespace MetricsPage

def hasMore (page : MetricsPage) : Bool := decide (page.offset + page.files.length < page.count)

def nextOffset (page : MetricsPage) : Option ℕ :=
  if page.hasMore then some (page.offset + page.files.length) else none

/-- The files that a page reports. -/
def reported (page : MetricsPage) : List String := page.files.map FileMetric.path

end MetricsPage

/-- The page of `fs_file_metrics` in the matches of its search. -/
def fileMetrics (disk : Disk) (directory root : Path) (found : List Value) (args : Map) :
    MetricsPage :=
  let offset := (max ((integer args "offset").getD 0) 0).toNat
  let limit := (min (max ((integer args "limit").getD 100) 1) 100).toNat
  let maxFile := (max ((integer args "max_bytes_per_file").getD (8 * 1024 * 1024)) 1).toNat
  let maxTotal := (max ((integer args "max_total_scan_bytes").getD (256 * 1024 * 1024)) 1).toNat
  let window := (found.drop offset).take limit
  let (files, reserved) := scan disk directory root ⟨maxFile, maxTotal⟩ window 0
  ⟨offset, limit, found.length, files, maxTotal, reserved⟩

/-! ### What is reported -/

/-- The file that a match names, where it is a regular one. -/
def regularFile (disk : Disk) (item : Value) : Option String :=
  item.asStr.filter fun path => (disk path).isSome

/-- The regular files among the matches. -/
def regularFiles (disk : Disk) (found : List Value) : List String :=
  found.filterMap (regularFile disk)

variable {disk : Disk} {directory root : Path} {found : List Value}

/-- A scan reports the regular files. -/
lemma reported_scan (bounds : ScanBounds) (window : List Value) (reserved : ℕ) :
    (scan disk directory root bounds window reserved).1.map FileMetric.path =
      regularFiles disk window := by
  induction window generalizing reserved with
  | nil => rfl
  | cons item rest ih =>
      cases hpath : item.asStr with
      | none =>
          have hskipped : regularFile disk item = none := by rw [regularFile, hpath]; rfl
          rw [scan, hpath, regularFiles, List.filterMap_cons_none hskipped]
          exact ih reserved
      | some path =>
          cases hfile : disk path with
          | none =>
              have hskipped : regularFile disk item = none := by
                rw [regularFile, hpath, Option.filter_some, hfile]
                rfl
              rw [regularFiles, List.filterMap_cons_none hskipped]
              simp only [scan, hpath, hfile]
              exact ih reserved
          | some facts =>
              have hreported : regularFile disk item = some path := by
                rw [regularFile, hpath, Option.filter_some, hfile]
                rfl
              rw [regularFiles, List.filterMap_cons_some hreported]
              simp only [scan, hpath, hfile, List.map_cons]
              exact congrArg _ (ih (lineCountOf bounds reserved facts).2.2)

lemma reported_fileMetrics (args : Map) :
    (fileMetrics disk directory root found args).reported = regularFiles disk
      ((found.drop (fileMetrics disk directory root found args).offset).take
        (fileMetrics disk directory root found args).limit) :=
  reported_scan _ _ _

/-- **The next offset** counts the files that are reported. -/
lemma nextOffset_fileMetrics (args : Map) :
    (fileMetrics disk directory root found args).nextOffset =
      let page := fileMetrics disk directory root found args
      if page.offset + page.reported.length < found.length then
        some (page.offset + page.reported.length)
      else none := by
  simp only [MetricsPage.nextOffset, MetricsPage.hasMore, MetricsPage.reported, List.length_map,
    decide_eq_true_eq]
  rfl

lemma limit_pos (args : Map) : 0 < (fileMetrics disk directory root found args).limit := by
  change 0 < (min (max ((integer args "limit").getD 100) 1) 100).toNat
  omega

/-- The arguments of a call, at an offset. -/
def argsAt (args : ℕ → Map) (i offset : ℕ) : Map := (args i).insert "offset" (.ofNat offset)

lemma offset_argsAt {args : ℕ → Map} {i offset : ℕ} (h : offset < 2 ^ 63) :
    (fileMetrics disk directory root found (argsAt args i offset)).offset = offset := by
  change (max ((integer (argsAt args i offset) "offset").getD 0) 0).toNat = offset
  rw [argsAt, integer_insert_self _ _ h, Option.getD_some]
  omega

/-! ### Following the pages -/

/-- The answer to the call number `i`, at an offset. -/
def answer (disk : Disk) (directory root : Path) (found : List Value) (args : ℕ → Map)
    (i offset : ℕ) : Except Unit MetricsPage :=
  .ok (fileMetrics disk directory root found (argsAt args i offset))

/-- The calls that follow the next offset end, and they report every regular file among the matches
once. -/
def Recovers (disk : Disk) (directory root : Path) (found : List Value) (args : ℕ → Map) : Prop :=
  ∃ pages, Follows (answer disk directory root found args) MetricsPage.nextOffset 0 0 pages ∧
    (pages.flatMap MetricsPage.reported).Perm (regularFiles disk found)

/-- The pages report at least as many files as there are matches. -/
lemma length_le_reported {args : ℕ → Map} {pages : List MetricsPage}
    (hlength : found.length < 2 ^ 63)
    (h : Follows (answer disk directory root found args) MetricsPage.nextOffset 0 0 pages) :
    found.length ≤ (pages.flatMap MetricsPage.reported).length := by
  have hnext : ∀ (i offset : ℕ) page, offset < 2 ^ 63 →
      answer disk directory root found args i offset = .ok page →
      (∀ behind, page.nextOffset = some behind →
        id behind = id offset + page.reported.length ∧ behind < 2 ^ 63) ∧
      (page.nextOffset = none → found.length ≤ id offset + page.reported.length) := by
    intro i offset page hoffset hpage
    obtain rfl := Except.ok.inj hpage
    rw [nextOffset_fileMetrics]
    simp only [offset_argsAt hoffset, id]
    refine ⟨fun behind hbehind => ?_, fun hend => ?_⟩
    · split_ifs at hbehind
      obtain rfl := Option.some.inj hbehind
      exact ⟨rfl, by omega⟩
    · by_contra hmore
      rw [if_pos (not_le.mp hmore)] at hend
      cases hend
  have hcount := length_le_of_follows hnext (by decide) h
  rwa [id, Nat.zero_add] at hcount

/-- Where every match names a regular file, a page is a window of them. -/
lemma windowed_fileMetrics {args : ℕ → Map} {i offset : ℕ} (hlength : found.length < 2 ^ 63)
    (hoffset : offset < 2 ^ 63) (hregular : ∀ item ∈ found, (regularFile disk item).isSome) :
    Windowed MetricsPage.reported MetricsPage.nextOffset id (fun offset => offset < 2 ^ 63)
      (regularFiles disk found) offset
      (fileMetrics disk directory root found (argsAt args i offset)) := by
  have hmap : ∀ {items : List Value}, (∀ item ∈ items, (regularFile disk item).isSome) →
      regularFiles disk items = items.map fun item => (regularFile disk item).getD "" := by
    intro items hitems
    rw [regularFiles, ← List.filterMap_eq_map]
    refine List.filterMap_congr fun item hitem => ?_
    obtain ⟨path, hpath⟩ := Option.isSome_iff_exists.mp (hitems item hitem)
    simp only [hpath, Function.comp_apply, Option.getD_some]
  have hcount : (regularFiles disk found).length = found.length := by
    rw [hmap hregular, List.length_map]
  have hnext := @nextOffset_fileMetrics disk directory root found (argsAt args i offset)
  simp only [offset_argsAt hoffset] at hnext
  refine ⟨⟨_, @limit_pos disk directory root found (argsAt args i offset), ?_⟩, fun hmore => ?_, fun hdone => ?_⟩
  · rw [reported_fileMetrics, offset_argsAt hoffset, hmap hregular, ← List.map_drop,
      ← List.map_take]
    exact hmap fun item hitem => hregular item (List.mem_of_mem_drop (List.mem_of_mem_take hitem))
  · rw [hcount] at hmore
    exact ⟨_, by rw [hnext, if_pos hmore], rfl, by omega⟩
  · rw [hcount] at hdone
    rw [hnext, if_neg (not_lt.mpr hdone)]

/-- **Following the pages** reports every regular file once exactly when every match names one. -/
theorem recovers_iff {args : ℕ → Map} (hlength : found.length < 2 ^ 63) :
    Recovers disk directory root found args ↔
      ∀ item ∈ found, ∃ path, item.asStr = some path ∧ (disk path).isSome := by
  have hnames : ∀ item, (regularFile disk item).isSome ↔
      ∃ path, item.asStr = some path ∧ (disk path).isSome := by
    intro item
    rw [regularFile]
    cases item.asStr <;> simp [Option.filter]
  simp only [← hnames]
  constructor
  · rintro ⟨pages, hpages, hperm⟩
    have hcount := length_le_reported hlength hpages
    rw [hperm.length_eq, regularFiles] at hcount
    have hall := (List.length_filterMap_le (regularFile disk) found).antisymm hcount
    exact List.filterMap_length_eq_length.mp hall
  · intro hregular
    have hwindowed : ∀ (i offset : ℕ) (page : MetricsPage), offset < 2 ^ 63 →
        answer disk directory root found args i offset = .ok page →
        Windowed MetricsPage.reported MetricsPage.nextOffset id (fun offset => offset < 2 ^ 63)
          (regularFiles disk found) offset page := by
      intro i offset page hoffset hpage
      obtain rfl := Except.ok.inj hpage
      exact windowed_fileMetrics hlength hoffset hregular
    obtain ⟨pages, hpages⟩ := exists_follows
      (fun i offset (hoffset : offset < 2 ^ 63) => ⟨_, rfl, hwindowed i offset _ hoffset rfl⟩) 0
      (show (0 : ℕ) < 2 ^ 63 by decide)
    refine ⟨pages, hpages, ?_⟩
    have hall := flatMap_of_follows hwindowed
      (show (0 : ℕ) < 2 ^ 63 by decide) hpages
    rw [hall, id, List.drop_zero]

/-! ### A file that has vanished -/

/-- A disk with one file. -/
def oneFile : Disk := fun path =>
  if path = "/root/a.txt" then some ⟨2, "2024-01-01T00:00:00.000Z", some [[97, 10]]⟩ else none

/-- A page of the only file. -/
theorem recovers_present :
    Recovers oneFile "/root".toList "/root".toList [.string "/root/a.txt"] fun _ => [] :=
  (recovers_iff (by decide)).mpr (by decide)

/-- A match that has vanished is behind every page. -/
theorem not_recovers_vanished :
    ¬ ∀ (disk : Disk) (directory root : Path) (found : List Value) (args : ℕ → Map),
      found.length < 2 ^ 63 → Recovers disk directory root found args := by
  intro h
  obtain ⟨pages, hpages, hperm⟩ := h oneFile "/root".toList "/root".toList
    [.string "/root/a.txt", .string "/root/b.txt"] (fun _ => []) (by decide)
  have hcount := length_le_reported (by decide) hpages
  rw [hperm.length_eq] at hcount
  exact absurd hcount (by decide)

end Metrics

end Filesystem

end McpSurfaces
