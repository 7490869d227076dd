import McpSurfaces.Filesystem.Paths
import McpSurfaces.Foundation.FileOps

/-!
How `fs_apply_patch` plans a patch, and what it then does to files.

* `planFile` checks a section of a patch and computes what it leaves; `planPatch` does so for all
  sections, on the files as they are before any of them is applied.
* **`planned_of_planPatch`**: what a plan says of the files that it was made from.
-/

namespace McpSurfaces

namespace Filesystem

open TextLines FileOps Lists

/-! ### The surface -/

/-- What the surface rests on: a volume, `resolve_allowed` with the path and its root (a path that
it has resolved is absolute, and is left as it is), the digest of bytes, and how a failed read is
described. -/
structure Surface (φ : Type) where
  volume : Volume Path φ
  resolve : Path → Except FsError (Path × Path)
  resolve_resolved : ∀ {name path root path' root'}, resolve name = .ok (path, root) →
    resolve path = .ok (path', root') → path' = path
  sha256 : Content → Text
  readFailure : Path → String

abbrev Disk (φ : Type) := FileOps.Disk φ Content

/-- A section with what it was planned on and what it leaves. -/
structure PlannedPatch where
  parsed : ParsedPatchFile
  source : Path
  target : Path
  root : Path
  before : Option Content
  targetBefore : Option Content
  after : Option Content
deriving DecidableEq

/-- The bytes of a file that are counted. -/
def Content.size : Content → ℕ
  | .text chars => (chars.map Char.utf8Size).sum
  | .binary bytes => bytes.length

/-- A text as JSON. -/
def textValue (text : Text) : Value := .string (String.ofList text)

/-! ### Checks -/

/-- `assert_not_authority_root`. -/
def assertNotAuthorityRoot (path root : Path) : Except FsError Unit :=
  if samePath path root then
    .error (.plain "filesystem_authority_root_mutation_refused" (.object [
      ("operation", .string "fs_apply_patch"), ("path", textValue path), ("root", textValue root),
      ("remediation", .string ("Choose a descendant path; an allowed authority root cannot " ++
        "itself be moved, overwritten, or deleted."))]))
  else .ok ()

/-- `TRANSIENT_EXECUTABLE_EXTENSIONS`. -/
def transientExecutableExtensions : List String :=
  [".cmd", ".bat", ".ps1", ".psm1", ".js", ".mjs", ".cjs", ".ts"]

/-- `assert_mutation_target_allowed`. -/
def assertMutationTargetAllowed (path root : Path) : Except FsError Unit :=
  let normalized := normalizePath path
  let transient := "/.ai/tmp/".toList <:+: normalized ∨ "/.ai/temp/".toList <:+: normalized ∨
    startsWith normalized ".ai/tmp/" ∨ startsWith normalized ".ai/temp/"
  let executable := (extension path).any fun value =>
    transientExecutableExtensions.contains (String.ofList ('.' :: value.map Char.toLower))
  if transient ∧ executable then
    .error (.plain "transient_executable_write_disallowed" (.object [
      ("operation", .string "fs_apply_patch"), ("path", textValue path), ("root", textValue root),
      ("relative_path", textValue (relativePath root path)),
      ("refusal_reason", textValue ("transient_executable_write_disallowed:".toList ++ path)),
      ("remediation", .string ("Do not create or edit executable wrappers/scripts under .ai/tmp " ++
        "or .ai/temp. Use structured_command_start or the owning MCP surface directly and " ++
        "preserve its execution_ref as evidence."))]))
  else .ok ()

/-- `MAX_TEXT_MUTATION_BYTES`. -/
def maxTextMutationBytes : ℕ := 8 * 1024 * 1024

/-- The limit on the size of a file that there is. -/
def checkSize (code : String) (path : Path) (node : Node Content) : Except FsError Unit :=
  if (node.content.any fun content => maxTextMutationBytes < content.size) = true then
    .error (.plain code (.object [("path", textValue path),
      ("max_bytes", .ofNat maxTextMutationBytes)]))
  else .ok ()

/-- The bytes of a file that there is. A directory cannot be read. -/
def readExisting {φ : Type} (s : Surface φ) (code : String) (path root : Path)
    (node : Node Content) : Except FsError (Option Content) :=
  match node with
  | .absent => .ok none
  | .file content => .ok (some content)
  | .directory => .error ⟨code, code ++ ": " ++ s.readFailure path, pathDetails path root⟩

/-! ### Expected digests -/

/-- `valid_sha256`. -/
def validSha256 (value : Text) : Bool :=
  value.length = 64 && value.all fun c =>
    c.isDigit || ('a' ≤ c && c ≤ 'f') || ('A' ≤ c && c ≤ 'F')

/-- The digests by their keys: paths with slashes. -/
def expectedEntries : List (String × Value) → OrderedMap Text Text →
    Except FsError (OrderedMap Text Text)
  | [], expected => .ok expected
  | (key, value) :: rest, expected =>
      let hash := (value.asStr.getD "").toList
      if !validSha256 hash then
        .error (.plain "expected_sha256_value_invalid" (.object [("key", .string key)]))
      else
        expectedEntries rest (expected.insert
          (key.toList.map fun c => if c = '\\' then '/' else c) (hash.map Char.toLower))

/-- `expected_patch_hashes`. -/
def expectedPatchHashes (args : Value) : Except FsError (OrderedMap Text Text) :=
  match args.get "expected_sha256" with
  | none => .ok []
  | some value =>
      match value.asObject with
      | none => .error (.plain "expected_sha256_must_be_object" (.object []))
      | some entries => expectedEntries entries []

/-- The keys that a digest of a section may stand under. -/
def hashKeys (file : ParsedPatchFile) (source target : Path) : List Text :=
  file.oldPath.toList ++ file.newPath.toList ++ [normalizePath source, normalizePath target]

/-- `match_expected_patch_hash`, with the keys that matched. -/
def matchExpectedPatchHash {φ : Type} (s : Surface φ) (expected : OrderedMap Text Text)
    (before : Option Content) : List Text → Except FsError (List Text)
  | [] => .ok []
  | key :: keys =>
      match expected.get key with
      | none => matchExpectedPatchHash s expected before keys
      | some want =>
          let actual := before.map s.sha256
          if actual = some want then do
            let matched ← matchExpectedPatchHash s expected before keys
            return key :: matched
          else
            .error (.plain "fs_apply_patch_expected_sha256_mismatch" (.object [
              ("key", textValue key), ("expected_sha256", textValue want),
              ("actual_sha256", (actual.map textValue).getD .null)]))

/-! ### Plans -/

/-- The deadline of a call, and before which sections it has passed. -/
structure Deadline where
  timeoutMs : ℕ
  late : ℕ → Bool

section Planning

variable {φ : Type} (s : Surface φ) (d : Disk φ)

/-- A path, or the refusal of a section that has none. -/
def required (code : String) : Option Path → Except FsError Path
  | none => .error (.plain code (.object []))
  | some path => .ok path

/-- A check that is made on a condition. -/
def checkIf (c : Prop) [Decidable c] (check : Except FsError Unit) : Except FsError Unit :=
  if c then check else .ok ()

/-- What the target of a section holds. A target that is compared as its source is not read. -/
def readTarget (source target root : Path) (before : Option Content) :
    Except FsError (Option Content) :=
  if samePath source target then .ok before
  else readExisting s "patch_target_read_failed" target root (d (s.volume.place target))

/-- One section: its plan, and the keys of the digests that matched. -/
def planFile (expected : OrderedMap Text Text) (deadline : Deadline) (index : ℕ)
    (file : ParsedPatchFile) : Except FsError (PlannedPatch × List Text) := do
  checkIf (deadline.late index = true) (.error (.plain "fs_apply_patch_timed_out" (.object [
    ("phase", .string "planning"), ("timeout_ms", .ofNat deadline.timeoutMs)])))
  let sourceName ← required "patch_path_required" (file.oldPath.or file.newPath)
  let targetName ← required "patch_target_path_required"
    ((file.moveTo.or file.newPath).or file.oldPath)
  let (source, sourceRoot) ← s.resolve sourceName
  let (target, targetRoot) ← s.resolve targetName
  checkIf (sourceRoot ≠ targetRoot) (.error (.plain "patch_cross_root_move_refused" (.object [
    ("source", textValue source), ("target", textValue target)])))
  checkIf (file.delete ∨ ¬ samePath source target) (assertNotAuthorityRoot source sourceRoot)
  assertNotAuthorityRoot target targetRoot
  checkIf (¬ file.delete) (assertMutationTargetAllowed target targetRoot)
  checkSize "fs_apply_patch_source_too_large" source (d (s.volume.place source))
  checkIf (¬ samePath source target)
    (checkSize "fs_apply_patch_target_too_large" target (d (s.volume.place target)))
  let before ← readExisting s "patch_source_read_failed" source sourceRoot
    (d (s.volume.place source))
  let targetBefore ← readTarget s d source target targetRoot before
  checkIf (file.oldPath.isSome ∧ before.isNone)
    (.error (.plain "patch_source_not_found" (pathDetails source sourceRoot)))
  let matched ← matchExpectedPatchHash s expected before (hashKeys file source target)
  let content ← applyPatchContent (before.getD (.text [])) file.hunks file.delete
  return ({
    parsed := file
    source := source
    target := target
    root := targetRoot
    before := before
    targetBefore := targetBefore
    after := if file.delete then none else some content }, matched)

/-- The sections from one index on. -/
def planFiles (expected : OrderedMap Text Text) (deadline : Deadline) (index : ℕ) :
    List ParsedPatchFile → Except FsError (List PlannedPatch × List Text)
  | [] => .ok ([], [])
  | file :: files => do
      let (plan, matched) ← planFile s d expected deadline index file
      let (plans, matched') ← planFiles expected deadline (index + 1) files
      return (plan :: plans, matched ++ matched')

/-- The plans of a patch: the text is parsed, all sections are planned on the files as they are,
and every expected digest belongs to one of them. -/
def planPatch (args : Value) (patch : Text) (deadline : Deadline) :
    Except FsError (List PlannedPatch) := do
  let files ← parsePatch patch
  checkIf (files = []) (.error (.plain "patch_contains_no_files"
    (.object [("expected_format", .string "unified_diff_or_codex_apply_patch")])))
  let expected ← expectedPatchHashes args
  let (plans, matched) ← planFiles s d expected deadline 0 files
  let unmatched := expected.keys.filter fun key => key ∉ matched
  checkIf (unmatched ≠ []) (.error (.plain "fs_apply_patch_expected_sha256_unmatched"
    (.object [("unmatched_expected_sha256_keys", textsOf unmatched)])))
  return plans

end Planning

/-! ### Operations on files -/

/-- What `apply_planned_patch` does for a section. The deadline is checked first, and the record
for the audit, which is kept elsewhere, comes last. -/
def PlannedPatch.applyOps (plan : PlannedPatch) : List (Op Path Content) :=
  .check :: (match plan.after with
    | some after => [.makeParents plan.target, .write plan.target after] ++
        (if samePath plan.source plan.target then [] else [.removeExisting plan.source])
    | none => [.remove plan.source]) ++ [.check]

def applyOps (plans : List PlannedPatch) : List (Op Path Content) :=
  plans.flatMap PlannedPatch.applyOps

/-- A file gets the bytes that it had, or goes. -/
def restoreOps (path : Path) : Option Content → List (Op Path Content)
  | some before => [.tryParents path, .write path before]
  | none => [.removeExisting path]

/-- What `rollback_planned_patch` does for a section. -/
def PlannedPatch.rollbackOps (plan : PlannedPatch) : List (Op Path Content) :=
  restoreOps plan.source plan.before ++
    if samePath plan.source plan.target then [] else restoreOps plan.target plan.targetBefore

def rollbackOps (plans : List PlannedPatch) : List (Op Path Content) :=
  plans.reverse.flatMap PlannedPatch.rollbackOps

/-! ### What a plan was made from -/

section Planned

variable {φ : Type} {s : Surface φ} {d : Disk φ}

/-- The checks that a section passes, and what its plan holds. -/
structure Planned (s : Surface φ) (d : Disk φ) (file : ParsedPatchFile) (plan : PlannedPatch) :
    Prop where
  parsed : plan.parsed = file
  source : ∃ name, required "patch_path_required" (file.oldPath.or file.newPath) = .ok name ∧
    s.resolve name = .ok (plan.source, plan.root)
  target : ∃ name, required "patch_target_path_required"
      ((file.moveTo.or file.newPath).or file.oldPath) = .ok name ∧
    s.resolve name = .ok (plan.target, plan.root)
  sourceRoot : file.delete ∨ ¬ samePath plan.source plan.target →
    assertNotAuthorityRoot plan.source plan.root = .ok ()
  targetRoot : assertNotAuthorityRoot plan.target plan.root = .ok ()
  allowed : ¬ file.delete → assertMutationTargetAllowed plan.target plan.root = .ok ()
  sourceSize : checkSize "fs_apply_patch_source_too_large" plan.source
    (d (s.volume.place plan.source)) = .ok ()
  targetSize : ¬ samePath plan.source plan.target →
    checkSize "fs_apply_patch_target_too_large" plan.target
      (d (s.volume.place plan.target)) = .ok ()
  before : readExisting s "patch_source_read_failed" plan.source plan.root
    (d (s.volume.place plan.source)) = .ok plan.before
  targetBefore : readTarget s d plan.source plan.target plan.root plan.before =
    .ok plan.targetBefore
  found : file.oldPath.isSome → plan.before ≠ none
  after : ∃ content, applyPatchContent (plan.before.getD (.text [])) file.hunks file.delete =
    .ok content ∧ plan.after = if file.delete then none else some content

lemma checkIf_ok {c : Prop} [Decidable c] {check : Except FsError Unit} {u : Unit} :
    checkIf c check = .ok u ↔ (c → check = .ok ()) := by
  rw [checkIf]
  split_ifs with hc
  · exact ⟨fun h _ => h, fun h => h hc⟩
  · exact ⟨fun _ h => absurd h hc, fun _ => rfl⟩

/-- **What a plan says of the files that it was made from.** -/
theorem planned_of_planFile {expected : OrderedMap Text Text} {deadline : Deadline} {index : ℕ}
    {file : ParsedPatchFile} {plan : PlannedPatch} {matched : List Text}
    (h : planFile s d expected deadline index file = .ok (plan, matched)) :
    Planned s d file plan := by
  rw [planFile] at h
  obtain ⟨_, _, h⟩ := bind_eq_ok h
  obtain ⟨sourceName, hsourceName, h⟩ := bind_eq_ok h
  obtain ⟨targetName, htargetName, h⟩ := bind_eq_ok h
  obtain ⟨⟨source, sourceRoot⟩, hsource, h⟩ := bind_eq_ok h
  obtain ⟨⟨target, targetRoot⟩, htarget, h⟩ := bind_eq_ok h
  obtain ⟨_, hroots, h⟩ := bind_eq_ok h
  obtain ⟨_, hsourceRoot, h⟩ := bind_eq_ok h
  obtain ⟨_, htargetRoot, h⟩ := bind_eq_ok h
  obtain ⟨_, hallowed, h⟩ := bind_eq_ok h
  obtain ⟨_, hsourceSize, h⟩ := bind_eq_ok h
  obtain ⟨_, htargetSize, h⟩ := bind_eq_ok h
  obtain ⟨before, hbefore, h⟩ := bind_eq_ok h
  obtain ⟨targetBefore, htargetBefore, h⟩ := bind_eq_ok h
  obtain ⟨_, hfound, h⟩ := bind_eq_ok h
  obtain ⟨_, _, h⟩ := bind_eq_ok h
  obtain ⟨content, hcontent, h⟩ := bind_eq_ok h
  cases h
  obtain rfl : sourceRoot = targetRoot := by
    by_contra hne
    cases checkIf_ok.mp hroots hne
  exact {
    parsed := rfl
    source := ⟨sourceName, hsourceName, hsource⟩
    target := ⟨targetName, htargetName, htarget⟩
    sourceRoot := checkIf_ok.mp hsourceRoot
    targetRoot := htargetRoot
    allowed := checkIf_ok.mp hallowed
    sourceSize := hsourceSize
    targetSize := checkIf_ok.mp htargetSize
    before := hbefore
    targetBefore := htargetBefore
    found := fun hold hnone => by cases checkIf_ok.mp hfound ⟨hold, Option.isNone_iff_eq_none.mpr hnone⟩
    after := ⟨content, hcontent, rfl⟩ }

lemma matchExpectedPatchHash_nil (before : Option Content) (keys : List Text) :
    matchExpectedPatchHash s [] before keys = .ok [] := by
  induction keys with
  | nil => rfl
  | cons key keys ih =>
      rw [matchExpectedPatchHash]
      exact ih

/-- A section that passes the checks is planned, when no digests are expected. -/
theorem planFile_of_planned {deadline : Deadline} {index : ℕ} {file : ParsedPatchFile}
    {plan : PlannedPatch} (hlate : deadline.late index = false) (h : Planned s d file plan) :
    planFile s d [] deadline index file = .ok (plan, []) := by
  obtain ⟨rfl, ⟨sourceName, hsourceName, hsource⟩, ⟨targetName, htargetName, htarget⟩,
    hsourceRoot, htargetRoot, hallowed, hsourceSize, htargetSize, hbefore, htargetBefore, hfound,
    content, hcontent, hafter⟩ := h
  have hroots : ¬ plan.root ≠ plan.root := fun hne => hne rfl
  have hfound' : ¬ (plan.parsed.oldPath.isSome ∧ plan.before.isNone) := fun hnone =>
    hfound hnone.1 (Option.isNone_iff_eq_none.mp hnone.2)
  rw [planFile, checkIf, hlate, if_neg Bool.false_ne_true, hsourceName, htargetName]
  simp only [bind, Except.bind]
  rw [hsource, htarget]
  dsimp only
  rw [checkIf, if_neg hroots, checkIf_ok (u := ()).mpr hsourceRoot, htargetRoot,
    checkIf_ok (u := ()).mpr hallowed, hsourceSize, checkIf_ok (u := ()).mpr htargetSize, hbefore]
  dsimp only
  rw [htargetBefore]
  dsimp only
  rw [checkIf, if_neg hfound', matchExpectedPatchHash_nil, hcontent]
  dsimp only
  rw [← hafter]
  rfl

/-- Sections are planned one by one. -/
lemma planned_of_planFiles {expected : OrderedMap Text Text} {deadline : Deadline}
    {files : List ParsedPatchFile} :
    ∀ {index : ℕ} {plans : List PlannedPatch} {matched : List Text},
      planFiles s d expected deadline index files = .ok (plans, matched) →
      List.Forall₂ (Planned s d) files plans := by
  induction files with
  | nil =>
      intro index plans matched h
      cases h
      exact .nil
  | cons file files ih =>
      intro index plans matched h
      rw [planFiles] at h
      obtain ⟨⟨plan, found⟩, hplan, h⟩ := bind_eq_ok h
      obtain ⟨⟨plans', matched'⟩, hplans, h⟩ := bind_eq_ok h
      cases h
      exact .cons (planned_of_planFile hplan) (ih hplans)

/-- **A patch is planned section by section.** -/
theorem planned_of_planPatch {args : Value} {patch : Text} {deadline : Deadline}
    {plans : List PlannedPatch} (h : planPatch s d args patch deadline = .ok plans) :
    ∃ files, parsePatch patch = .ok files ∧ List.Forall₂ (Planned s d) files plans := by
  rw [planPatch] at h
  obtain ⟨files, hfiles, h⟩ := bind_eq_ok h
  obtain ⟨_, _, h⟩ := bind_eq_ok h
  obtain ⟨expected, -, h⟩ := bind_eq_ok h
  obtain ⟨⟨plans', matched⟩, hplans, h⟩ := bind_eq_ok h
  obtain ⟨_, _, h⟩ := bind_eq_ok h
  cases h
  exact ⟨files, hfiles, planned_of_planFiles hplans⟩

/-- What was read of a file that is no directory. -/
lemma readExisting_ok {code : String} {path root : Path} {node : Node Content}
    {before : Option Content} :
    readExisting s code path root node = .ok before ↔
      node ≠ .directory ∧ before = node.content := by
  cases node <;> simp [readExisting, Node.content, eq_comm]

end Planned

/-! ### What sections change -/

section Changed

variable {φ : Type}

/-- The files that a section may change: its target, the directories above it, and a source that
goes. -/
def PlannedPatch.changed (v : Volume Path φ) (plan : PlannedPatch) : List φ :=
  match plan.after with
  | some _ => v.place plan.target :: v.above plan.target ++
      if samePath plan.source plan.target then [] else [v.place plan.source]
  | none => [v.place plan.source]

variable {s : Surface φ} {plan : PlannedPatch} {x : φ}

/-- The operations of a section change what it may change. -/
lemma not_mem_touches (hx : x ∉ plan.changed s.volume) : ∀ op ∈ plan.applyOps,
    x ∉ op.touches s.volume := by
  rw [PlannedPatch.changed] at hx
  rw [PlannedPatch.applyOps]
  cases hafter : plan.after with
  | none =>
      rw [hafter] at hx
      simpa [Op.touches] using hx
  | some after =>
      rw [hafter] at hx
      by_cases hsame : samePath plan.source plan.target
      · simp only [hsame, if_true, List.append_nil, List.mem_cons, not_or] at hx ⊢
        simpa [Op.touches] using ⟨hx.2, hx.1⟩
      · simp only [hsame, if_false, List.cons_append, List.mem_cons, List.mem_append,
          List.not_mem_nil, or_false, not_or] at hx ⊢
        simpa [Op.touches] using ⟨hx.2.1, hx.1, hx.2.2⟩

variable [DecidableEq φ] {d d' : Disk φ} {plans : List PlannedPatch}

lemma applyOps_frame (h : Runs s.volume (applyOps plans) d d')
    (hx : ∀ plan ∈ plans, x ∉ plan.changed s.volume) : d' x = d x := by
  refine h.frame fun op hop => ?_
  obtain ⟨plan, hplan, hop⟩ := List.mem_flatMap.mp hop
  exact not_mem_touches (hx plan hplan) op hop

end Changed

end Filesystem

end McpSurfaces
