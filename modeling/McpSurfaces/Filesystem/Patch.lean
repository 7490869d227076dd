import McpSurfaces.EventLedger.Chain
import McpSurfaces.Foundation.TextLines

/-!
Patches of the filesystem surface: `parse_patch` with its two formats, and
`apply_patch_content`.

* A parser goes through the lines of a patch once; where the source reads a section up to the
  next header and goes on there, the parser goes on behind the header it has read, since the
  lines of the section are none.
* `applyHunk` replaces the lines of a hunk where its header says (`hunkPosition`) or, without a
  number in the header, where they are found.
-/

namespace McpSurfaces

namespace Filesystem

open TextLines

/-! ### Failures -/

/-- `FsError`. -/
structure FsError where
  code : String
  message : String
  details : Value
deriving DecidableEq

/-- A failure whose message is its code. -/
def FsError.plain (code : String) (details : Value) : FsError := ⟨code, code, details⟩

/-- `patch_parse_error`. -/
def patchParseError (code : String) (line : ℕ) : FsError :=
  .plain code (.object [("line", .ofNat line)])

/-- Lines as JSON. -/
def textsOf (ls : List Text) : Value := .array (ls.map fun line => .string (String.ofList line))

/-! ### Parsed patches -/

/-- A hunk: the old start of its header, and its lines with what they are marked with. -/
structure ParsedPatchHunk where
  oldStart : Option ℕ
  lines : List (Char × Text)
deriving DecidableEq

structure ParsedPatchFile where
  oldPath : Option Text
  newPath : Option Text
  moveTo : Option Text
  delete : Bool
  hunks : List ParsedPatchHunk
deriving DecidableEq

/-- `str::starts_with` and `str::strip_prefix` of a fixed text. -/
def stripLead (lead : String) (text : Text) : Option Text :=
  if lead.toList <+: text then some (text.drop lead.length) else none

def startsWith (text : Text) (lead : String) : Bool := lead.toList.isPrefixOf text

/-- A path without the side of the diff before it. -/
def stripSide (path : Text) : Text :=
  if startsWith path "a/" || startsWith path "b/" then path.drop 2 else path

/-- `clean_patch_path`. -/
def cleanPatchPath (value : Text) : Except FsError Text :=
  let path := stripSide ((Str.trimChars value).map fun c => if c = '\\' then '/' else c)
  if path = [] ∨ path = "/dev/null".toList ∨ "..".toList ∈ path.splitOn '/' then
    .error (.plain "patch_path_invalid" (.object [("path", .string (String.ofList value))]))
  else .ok path

/-- `parse_hunk_start`: the number behind the first minus sign of a header. -/
def parseHunkStart (header : Text) : Option ℕ := do
  let word ← (words header).find? fun word => startsWith word "-"
  let number ← ((word.dropWhile (· = '-')).splitOn ',').head?
  parseUsize number

/-! ### The format of Codex -/

/-- The mark of a line of a hunk, and the rest of it. Other lines are context. -/
def codexLine : Text → Char × Text
  | '+' :: body => ('+', body)
  | '-' :: body => ('-', body)
  | ' ' :: body => (' ', body)
  | line => (' ', line)

/-- The hunks up to a hunk that may be empty. -/
def closeHunk (hunks : List ParsedPatchHunk) (current : ParsedPatchHunk) : List ParsedPatchHunk :=
  if current.lines = [] then hunks else hunks ++ [current]

/-- A section whose hunks are read. -/
structure OpenSection where
  file : ParsedPatchFile
  current : ParsedPatchHunk

/-- A section with the last of its hunks. -/
def OpenSection.close (s : OpenSection) : ParsedPatchFile :=
  { s.file with hunks := closeHunk s.file.hunks s.current }

/-- One more line of a section. -/
def OpenSection.push (s : OpenSection) (line : Text) : OpenSection :=
  if startsWith line "@@" then
    ⟨{ s.file with hunks := closeHunk s.file.hunks s.current }, ⟨parseHunkStart line, []⟩⟩
  else { s with current := { s.current with lines := s.current.lines ++ [codexLine line] } }

/-- A section behind its headers. -/
def openSection (oldPath newPath moveTo : Option Text) (delete : Bool) : OpenSection where
  file := ⟨oldPath, newPath, moveTo, delete, []⟩
  current := ⟨none, []⟩

/-- The header of a section: its paths, and whether it deletes. -/
def codexHeader (number : ℕ) (line : Text) :
    Except FsError (Option Text × Option Text × Bool) :=
  match stripLead "*** Update File: " line with
  | some path => do
      let path ← cleanPatchPath path
      return (some path, some path, false)
  | none =>
      match stripLead "*** Add File: " line with
      | some path => do
          let path ← cleanPatchPath path
          return (none, some path, false)
      | none =>
          match stripLead "*** Delete File: " line with
          | some path => do
              let path ← cleanPatchPath path
              return (some path, none, true)
          | none => .error (patchParseError "patch_file_header_invalid" number)

/-- The sections behind the begin marker, at the line of a number. -/
def codexSections (number : ℕ) (section? : Option OpenSection) :
    List Text → Except FsError (List ParsedPatchFile)
  | [] => .error (patchParseError "patch_end_marker_missing" (number - 1))
  | line :: rest =>
      match section?.filter fun _ => !startsWith line "*** " with
      | some open? => codexSections (number + 1) (some (open?.push line)) rest
      | none =>
          if line = "*** End Patch".toList then .ok (section?.map OpenSection.close).toList
          else do
            let (oldPath, newPath, delete) ← codexHeader number line
            let files ← match rest with
              | [] => codexSections (number + 1) (some (openSection oldPath newPath none delete)) []
              | next :: behind =>
                  match stripLead "*** Move to: " next with
                  | some path => do
                      let path ← cleanPatchPath path
                      codexSections (number + 2)
                        (some (openSection oldPath newPath (some path) delete)) behind
                  | none =>
                      codexSections (number + 1) (some (openSection oldPath newPath none delete))
                        (next :: behind)
            return (section?.map OpenSection.close).toList ++ files

/-- Whether a line begins a patch of this format. -/
def isBeginMarker (line : Text) : Bool :=
  line.rdropWhile Str.isWhitespace = "*** Begin Patch".toList

/-- `parse_codex_patch`. -/
def parseCodexPatch (text : Text) : Except FsError (List ParsedPatchFile) :=
  let ls := lines text
  match ls.dropWhile fun line => !isBeginMarker line with
  | [] => .error (patchParseError "patch_begin_marker_missing" 1)
  | _ :: rest => codexSections (ls.length - rest.length + 1) none rest

/-! ### Unified diffs -/

/-- The path of a file header, up to a tab. -/
def headerPath (header : Text) : Text := (((header.drop 4).splitOn '\t').head?).getD []

/-- The path of a side of a diff; the null device stands for a missing file. -/
def sidePath (raw : Text) : Except FsError (Option Text) :=
  if raw = "/dev/null".toList then .ok none else (cleanPatchPath raw).map some

/-- The hunks of a file, with the one that is read. -/
def unifiedHunks (number : ℕ) (hunks : List ParsedPatchHunk) (current : Option ParsedPatchHunk) :
    List Text → Except FsError (List ParsedPatchHunk)
  | [] => .ok (hunks ++ current.toList)
  | line :: rest =>
      if startsWith line "@@" then
        unifiedHunks (number + 1) (hunks ++ current.toList) (some ⟨parseHunkStart line, []⟩) rest
      else
        match current with
        | none => unifiedHunks (number + 1) hunks none rest
        | some hunk =>
            if line = "\\ No newline at end of file".toList then
              unifiedHunks (number + 1) hunks (some hunk) rest
            else
              match line with
              | [] => .error (patchParseError "patch_hunk_line_invalid" number)
              | mark :: body =>
                  if mark = ' ' ∨ mark = '+' ∨ mark = '-' then
                    unifiedHunks (number + 1) hunks
                      (some { hunk with lines := hunk.lines ++ [(mark, body)] }) rest
                  else .error (patchParseError "patch_hunk_line_invalid" number)

/-- The files of a diff at the line of a number. Behind the headers of a file its lines are
read as hunks up to the next header, and then passed over. -/
def unifiedFiles (number : ℕ) : List Text → Except FsError (List ParsedPatchFile)
  | [] => .ok []
  | line :: rest =>
      if !startsWith line "--- " then unifiedFiles (number + 1) rest
      else
        match rest with
        | [] => .error (patchParseError "patch_new_file_header_missing" (number + 1))
        | header :: body =>
            if !startsWith header "+++ " then
              .error (patchParseError "patch_new_file_header_missing" (number + 1))
            else do
              let oldPath ← sidePath (headerPath line)
              let newPath ← sidePath (headerPath header)
              let hunks ← unifiedHunks (number + 2) [] none
                (body.takeWhile fun line => !startsWith line "--- ")
              let files ← unifiedFiles (number + 2) body
              return ⟨oldPath, newPath, none, newPath.isNone, hunks⟩ :: files

/-- `parse_unified_patch`. -/
def parseUnifiedPatch (text : Text) : Except FsError (List ParsedPatchFile) :=
  unifiedFiles 1 (lines text)

/-- `parse_patch`. -/
def parsePatch (text : Text) : Except FsError (List ParsedPatchFile) :=
  if (lines text).any isBeginMarker then parseCodexPatch text else parseUnifiedPatch text

/-! ### Application -/

/-- The bytes of a file: a text, or bytes that are no UTF-8. -/
inductive Content
  | text (text : Text)
  | binary (bytes : List UInt8)
deriving DecidableEq

/-- The lines of a hunk that are replaced. -/
def ParsedPatchHunk.old (h : ParsedPatchHunk) : List Text :=
  (h.lines.filter fun line => line.1 ≠ '+').map Prod.snd

/-- The lines of a hunk that replace them. -/
def ParsedPatchHunk.replacement (h : ParsedPatchHunk) : List Text :=
  (h.lines.filter fun line => line.1 ≠ '-').map Prod.snd

/-- `find_patch_context`. -/
def findPatchContext (ls context : List Text) (start : ℕ) : Option ℕ :=
  if context = [] then some (min start ls.length)
  else if ls.length < context.length ∨ ls.length - context.length < start then none
  else (List.range' start (ls.length - context.length + 1 - start)).find? fun index =>
    (ls.drop index).take context.length = context

/-- The sum of two `isize`. -/
def addIsize (a b : ℤ) : ℤ := Int.bmod (a + b) (2 ^ 64)

/-- The lines behind some hunks, how many more there are than before, and where the last hunk
ends. -/
structure Patched where
  lines : List Text
  delta : ℤ
  cursor : ℕ
deriving DecidableEq

/-- The lines around a place, for a failure. -/
def nearby (ls : List Text) (place count : ℕ) : Value :=
  textsOf ((ls.drop (place - 2)).take (max count 1 + 4))

/-- Where a hunk is applied. -/
def hunkPosition (index : ℕ) (p : Patched) (h : ParsedPatchHunk) : Except FsError ℕ :=
  match h.oldStart with
  | some start => .ok (addIsize (Int.bmod (start - 1 : ℕ) (2 ^ 64)) p.delta).toNat
  | none =>
      match findPatchContext p.lines h.old p.cursor with
      | some position => .ok position
      | none =>
          .error (.plain "patch_context_not_found" (.object [("hunk_index", .ofNat index),
            ("context", textsOf h.old), ("search_start_line", .ofNat (p.cursor + 1)),
            ("nearby", nearby p.lines p.cursor h.old.length)]))

/-- One hunk. -/
def applyHunk (index : ℕ) (p : Patched) (h : ParsedPatchHunk) : Except FsError Patched := do
  let position ← hunkPosition index p h
  if p.lines.length < position + h.old.length ∨
      (p.lines.drop position).take h.old.length ≠ h.old then
    .error (.plain "patch_context_mismatch" (.object [("hunk_index", .ofNat index),
      ("line", .ofNat (position + 1)), ("expected", textsOf h.old),
      ("nearby", nearby p.lines position h.old.length)]))
  else
    return {
      lines := p.lines.take position ++ h.replacement ++ p.lines.drop (position + h.old.length)
      delta := addIsize p.delta (h.replacement.length - h.old.length)
      cursor := position + h.replacement.length }

/-- The hunks from one index on. -/
def applyHunks (index : ℕ) (p : Patched) : List ParsedPatchHunk → Except FsError Patched
  | [] => .ok p
  | h :: hunks => do
      let p ← applyHunk index p h
      applyHunks (index + 1) p hunks

/-- The lines of a text that is patched. -/
def patchedLines (text : Text) : List Text :=
  if text = [] then []
  else ((trimLineEnds text).splitOn '\n').map fun line => line.rdropWhile (· = '\r')

/-- The line end of a text. -/
def newlineOf (text : Text) : Text := if ['\r', '\n'] <:+: text then ['\r', '\n'] else ['\n']

/-- `apply_patch_content`. -/
def applyPatchContent (before : Content) (hunks : List ParsedPatchHunk) (deleting : Bool) :
    Except FsError Content :=
  match before with
  | .binary _ => .error (.plain "patch_source_not_utf8" (.object []))
  | .text text => do
      let p ← applyHunks 0 ⟨patchedLines text, 0, 0⟩ hunks
      if deleting then return .text []
      else
        let output := (newlineOf text).intercalate p.lines
        if text.getLast? = some '\n' ∨ (hunks ≠ [] ∧ text = []) then
          return .text (output ++ newlineOf text)
        else return .text output

end Filesystem

end McpSurfaces
