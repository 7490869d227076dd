import McpSurfaces.Filesystem.Patch

/-!
Paths of the filesystem surface: how they are compared (`normalize_path`, `same_path`, `within`),
what they are relative to a root (`relative_path`), and their names and extensions.
-/

namespace McpSurfaces

namespace Filesystem

open TextLines

abbrev Path := Text

/-! ### Comparison -/

/-- `normalize_path`: slashes for backslashes, none at the end, and letters in lower case. -/
def normalizePath (path : Path) : Text :=
  ((path.map fun c => if c = '\\' then '/' else c).rdropWhile (· = '/')).map Char.toLower

/-- `same_path`. -/
def samePath (left right : Path) : Prop := normalizePath left = normalizePath right

instance (left right : Path) : Decidable (samePath left right) :=
  inferInstanceAs (Decidable (_ = _))

/-- `within`. -/
def within (root path : Path) : Prop :=
  normalizePath path = normalizePath root ∨ normalizePath root ++ ['/'] <+: normalizePath path

instance (root path : Path) : Decidable (within root path) :=
  inferInstanceAs (Decidable (_ ∨ _))

/-! ### Components -/

/-- A part of a path that `Path::components` leaves out: an empty one, or a dot. -/
def isDull (part : Text) : Bool := part = [] || part = ['.']

/-- The components of an absolute path behind its root. -/
def components (path : Path) : List Text := (path.splitOn '/').filter fun part => !isDull part

/-- The parts of a path behind those of a root. -/
def stripParts : List Text → List Text → Option (List Text)
  | [], parts => some ((parts.dropWhile isDull).rdropWhile isDull)
  | name :: names, parts =>
      match parts.dropWhile isDull with
      | [] => none
      | part :: rest => if part = name then stripParts names rest else none

/-- `relative_path`: the path behind the root, or the path. -/
def relativePath (root path : Path) : Text :=
  let behind := (stripParts (components root) (path.splitOn '/')).map ['/'].intercalate
  (behind.getD path).map fun c => if c = '\\' then '/' else c

/-- `Path::file_name`. -/
def fileName (path : Path) : Option Text :=
  (components path).getLast?.filter fun name => name ≠ "..".toList

/-- `Path::extension`: what is behind the last dot of a name, unless the name begins with it. -/
def extension (path : Path) : Option Text := do
  let name ← fileName path
  let behind := name.rtakeWhile (· ≠ '.')
  if behind.length + 1 < name.length then some behind else none

/-- `path_details`. -/
def pathDetails (path root : Path) : Value :=
  .object [("path", .string (String.ofList path)), ("root", .string (String.ofList root)),
    ("relative_path", .string (String.ofList (relativePath root path)))]

end Filesystem

end McpSurfaces
