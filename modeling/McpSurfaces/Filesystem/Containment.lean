import McpSurfaces.Filesystem.Planning
import McpSurfaces.Foundation.FileTree

/-!
Where an allowed path leads.

* `resolveAllowed` is the check that every call makes of its paths: the text of a path is compared
  with that of a root, and so are the two as they are once links are resolved, as far as they exist.
* `Inside` is what the check is for: a place is in an allowed root, or is one.
* **`contained_of_plain`**: a path that passes the check leads into a root, if only names stand
  behind the first of its parts that is missing and that part is no link, and if letter case and
  backslashes make no difference between the root and the place; and in a run of calls on such
  paths nothing outside the roots is created, changed or removed.
-/

namespace McpSurfaces

namespace Filesystem

open TextLines FileTree

/-! ### Places -/

/-- A name that something may have in a directory. -/
def IsName (piece : Text) : Prop :=
  isDull piece = false ∧ piece ≠ "..".toList ∧ '/' ∉ piece ∧ '\x00' ∉ piece

instance (piece : Text) : Decidable (IsName piece) := inferInstanceAs (Decidable (_ ∧ _))

structure Name where
  text : Text
  valid : IsName text
deriving DecidableEq

abbrev DiskTree := Tree Name Content

abbrev Place := Location Name

/-- A part of a path between slashes. -/
def segment (piece : Text) : Seg Name :=
  if h : IsName piece then .name ⟨piece, h⟩ else if piece = "..".toList then .up else .here

/-- The parts of a path between slashes. -/
def pieces (path : Path) : List Text := path.splitOn '/'

/-- Where the parts of an absolute path lead. No path with a null character leads anywhere. -/
def DiskTree.reach (t : DiskTree) (parts : List Text) : Option Place :=
  if parts.any (·.contains '\x00') then none
  else match t.walk maxLinks [] (parts.map segment) with
    | .ok r => some r.2
    | .error _ => none

/-- The place that the parts of a path lead to, if something is there. -/
def DiskTree.find (t : DiskTree) (parts : List Text) : Option Place :=
  (t.reach parts).filter fun place => (t.entry place).isSome

/-- The names of a place, each behind a slash. -/
def Place.behindRoot : Place → Text
  | [] => []
  | n :: place => Place.behindRoot place ++ '/' :: n.text

/-- The path of a place. -/
def Place.path (place : Place) : Path := if place = [] then ['/'] else place.behindRoot

/-! ### Paths that are resolved -/

def isAbsolute (path : Path) : Bool := path.head? = some '/'

/-- `PathBuf::push`, of a path that is not absolute. -/
def push (base behind : Path) : Path :=
  if base = [] ∨ base.getLast? = some '/' then base ++ behind else base ++ '/' :: behind

/-- `Path::join`. -/
def join (base path : Path) : Path := if isAbsolute path then path else push base path

/-- Where `canonicalize_with_missing` ends, from an ancestor of a path on: at one that exists, or
at one that does not and ends in `..`. With it come the names behind. The last part of the ancestor
stands first. -/
def settle (t : DiskTree) : List Text → List Text → Except (List Text × List Text) (Place × List Text)
  | [], missing => .ok ([], missing)
  | piece :: rest, missing =>
      if isDull piece then settle t rest missing
      else match t.find (piece :: rest).reverse with
        | some place => .ok (place, missing)
        | none =>
            if piece = "..".toList then .error (piece :: rest, missing)
            else settle t rest (piece :: missing)

/-- `canonicalize_with_missing`. -/
def canonicalizeWithMissing (t : DiskTree) (path : Path) : Path :=
  match t.find (pieces path) with
  | some place => Place.path place
  | none =>
      match (pieces path).reverse.dropWhile isDull with
      | [] => path
      | piece :: rest =>
          if piece = "..".toList then path
          else match settle t rest [piece] with
            | .ok (place, missing) => missing.foldl push (Place.path place)
            | .error (current, missing) => missing.foldl push (['/'].intercalate current.reverse)

/-- What the server was started with: the roots, made absolute, and its directory. -/
structure State where
  allowedRoots : List Path
  currentDir : Path
  rooted : ∀ root ∈ allowedRoots, isAbsolute root = true

variable (s : State)

/-- `absolute`. -/
def absolute (path : Path) : Path := if isAbsolute path then path else join s.currentDir path

/-- The path that is meant: relative ones are relative to the first root. -/
def candidate (base input : Path) : Path :=
  if isAbsolute input then absolute s input else absolute s (join base input)

/-- The root that a path belongs to, by its text. -/
def rootOf (path : Path) : Option Path := s.allowedRoots.find? fun root => within root path

/-- `resolve_allowed`. -/
def resolveAllowed (t : DiskTree) (input : Option Text) (operation : String) :
    Except FsError (Path × Path) :=
  match input.filter fun value => !value.all Str.isWhitespace with
  | none => .error (.plain "path_required" (.object [("operation", .string operation)]))
  | some input =>
      if '%' ∈ input then
        .error ⟨"path_environment_expansion_not_supported",
          "path_environment_expansion_not_supported: " ++ String.ofList input,
          .object [("operation", .string operation), ("requested_path", textValue input),
            ("remediation", .string ("Expand environment variables before calling the " ++
              "filesystem surface, or pass an absolute path."))]⟩
      else
        match s.allowedRoots.head? with
        | none => .error (.plain "filesystem_mcp_requires_at_least_one_allowed_root" (.object []))
        | some base =>
            let path := candidate s base input
            match rootOf s path with
            | none =>
                .error ⟨"path_outside_allowed_roots",
                  "path_outside_allowed_roots: " ++ String.ofList input,
                  .object [("operation", .string operation), ("requested_path", textValue input),
                    ("active_resolution_base", textValue base),
                    ("resolution_rule", .string "first_allowed_root_for_relative_paths"),
                    ("allowed_roots", textsOf s.allowedRoots)]⟩
            | some root =>
                if within (canonicalizeWithMissing t root) (canonicalizeWithMissing t path) then
                  .ok (path, root)
                else
                  .error ⟨"path_outside_allowed_roots",
                    "path_outside_allowed_roots: " ++ String.ofList input, pathDetails path root⟩

/-! ### What the check is for -/

/-- A place in an allowed root, or one. -/
def Inside (t : DiskTree) (place : Place) : Prop :=
  ∃ root ∈ s.allowedRoots, ∃ base, t.reach ((pieces root).rdropWhile isDull) = some base ∧
    base <:+ place

/-- The parts of `Path::parent`, the last one first. -/
def parent (path : Path) : List Text := ((pieces path).reverse.dropWhile isDull).tail

/-- `create_dir_all`, of a path whose last part stands first. -/
def createDirAll (t : DiskTree) (parts : List Text) : Except Errno Unit × DiskTree :=
  if parts.any (·.contains '\x00') then (.error .invalidInput, t)
  else t.makeDirectories (parts.map segment)

/-- **A path that passes the check leads into a root**, once the directories above it are made. -/
def Contained (t : DiskTree) (input : Text) : Prop :=
  ∀ operation path root, resolveAllowed s t (some input) operation = .ok (path, root) →
    ∀ t', createDirAll t (parent path) = (.ok (), t') →
      ∀ place, t'.reach (pieces path) = some place → Inside s t' place

/-! ### Parts of a path -/

@[simp] lemma segment_name {piece : Text} (h : IsName piece) :
    segment piece = .name ⟨piece, h⟩ := dif_pos h

lemma segment_dull {piece : Text} (h : isDull piece = true) : segment piece = .here := by
  have hname : ¬ IsName piece := fun hname => by
    rw [hname.1] at h
    cases h
  have hup : piece ≠ "..".toList := by
    rintro rfl
    exact absurd h (by decide)
  rw [segment, dif_neg hname, if_neg hup]

/-- The place that parts of a path lead to from another one, if they lead there by their names. -/
def below (parts : List Text) (place : Place) : Place :=
  (Tree.names (parts.map segment)).reverse ++ place

@[simp] lemma below_nil (place : Place) : below [] place = place := rfl

lemma below_dull {piece : Text} (h : isDull piece = true) (parts : List Text) (place : Place) :
    below (piece :: parts) place = below parts place := by
  rw [below, List.map_cons, segment_dull h, Tree.names_here, below]

lemma below_name {piece : Text} (h : IsName piece) (parts : List Text) (place : Place) :
    below (piece :: parts) place = below parts (⟨piece, h⟩ :: place) := by
  rw [below, List.map_cons, segment_name h, Tree.names_name, List.reverse_cons, List.append_assoc,
    List.singleton_append, below]

lemma below_append (parts behind : List Text) (place : Place) :
    below (parts ++ behind) place = below behind (below parts place) := by
  rw [below, List.map_append, Tree.names, List.filterMap_append, List.reverse_append,
    List.append_assoc]
  rfl

lemma below_reverse_cons (piece : Text) (parts : List Text) (place : Place) :
    below (piece :: parts).reverse place = below [piece] (below parts.reverse place) := by
  rw [List.reverse_cons, below_append]

/-- A part that has a name, or none that counts. -/
def Named (parts : List Text) : Prop := ∀ piece ∈ parts, isDull piece = true ∨ IsName piece

lemma not_up_of_named {parts : List Text} (h : Named parts) : .up ∉ parts.map segment := by
  intro hup
  obtain ⟨piece, hpiece, hseg⟩ := List.mem_map.mp hup
  rcases h piece hpiece with hdull | hname
  · rw [segment_dull hdull] at hseg
    cases hseg
  · rw [segment_name hname] at hseg
    cases hseg

/-! ### Where paths lead -/

section

variable {t t' : DiskTree} {parts front back : List Text} {piece : Text} {base place : Place}

lemma reach_eq_some : t.reach parts = some place ↔ (∀ piece ∈ parts, '\x00' ∉ piece) ∧
    ∃ links, t.walk maxLinks [] (parts.map segment) = .ok (links, place) := by
  rw [DiskTree.reach]
  split_ifs with hnull
  · refine iff_of_false nofun fun h => ?_
    obtain ⟨piece, hpiece, hmem⟩ := List.any_eq_true.mp hnull
    exact h.1 piece hpiece (by simpa using hmem)
  · have hnone : ∀ piece ∈ parts, '\x00' ∉ piece := by simpa using hnull
    cases hwalk : t.walk maxLinks [] (parts.map segment) with
    | error e => simp
    | ok r =>
        obtain ⟨links, place'⟩ := r
        simpa using fun _ => hnone

lemma find_eq_some : t.find parts = some place ↔ t.reach parts = some place ∧
    t.entry place ≠ none := by
  rw [DiskTree.find, Option.filter_eq_some_iff, Option.isSome_iff_ne_none]

lemma reach_of_keeps (h : Tree.Keeps t t') (hreach : t.reach parts = some place) :
    t'.reach parts = some place := by
  obtain ⟨hnull, links, hwalk⟩ := reach_eq_some.mp hreach
  exact reach_eq_some.mpr ⟨hnull, links, h.walk hwalk⟩

/-- The front of a path that leads somewhere leads somewhere. -/
lemma walk_of_reach_append (h : t.reach (front ++ back) = some place) :
    ∃ links base links', t.walk maxLinks [] (front.map segment) = .ok (links, base) ∧
      t.walk links base (back.map segment) = .ok (links', place) := by
  obtain ⟨-, links', hwalk⟩ := reach_eq_some.mp h
  rw [List.map_append, Tree.walk_append] at hwalk
  cases hfront : t.walk maxLinks [] (front.map segment) with
  | error e =>
      rw [hfront] at hwalk
      cases hwalk
  | ok r =>
      rw [hfront] at hwalk
      exact ⟨r.1, r.2, links', rfl, hwalk⟩

lemma reach_of_reach_dull (hdull : isDull piece = true)
    (h : t.reach (front ++ [piece]) = some place) : t.reach front = some place := by
  obtain ⟨links, base, links', hfront, hback⟩ := walk_of_reach_append h
  rw [List.map_singleton, segment_dull hdull] at hback
  have hdir := Tree.directory_of_walk hback
  rw [Tree.walk_here hdir, Tree.walk_nil] at hback
  cases hback
  refine reach_eq_some.mpr ⟨?_, links, hfront⟩
  exact fun p hp => (reach_eq_some.mp h).1 p (List.mem_append_left _ hp)

lemma find_of_find_dull (hdull : isDull piece = true) (h : t.find (front ++ [piece]) = some place) :
    t.find front = some place := by
  obtain ⟨hreach, hentry⟩ := find_eq_some.mp h
  exact find_eq_some.mpr ⟨reach_of_reach_dull hdull hreach, hentry⟩

/-- Slashes and dots at the end of a path make no difference, if it leads anywhere. -/
lemma reach_rdropWhile (h : t.reach parts = some place) :
    t.reach (parts.rdropWhile isDull) = some place := by
  induction parts using List.reverseRecOn with
  | nil => exact h
  | append_singleton front piece ih =>
      rw [List.rdropWhile_concat]
      split_ifs with hdull
      · exact ih (reach_of_reach_dull hdull h)
      · exact h

/-- **Behind a place that is no directory and no link, a path leads to what its names say**, in
this tree and in a later one. -/
lemma eq_below_of_reach (hkeeps : Tree.Keeps t t') (hfront : t.find front = some base)
    (hname : IsName piece) (hdir : t.entry (⟨piece, hname⟩ :: base) ≠ some .directory)
    (hlink : t.isLinkAt (⟨piece, hname⟩ :: base) = false) (hback : Named back)
    (h : t'.reach (front ++ piece :: back) = some place) :
    place = below back (⟨piece, hname⟩ :: base) := by
  obtain ⟨-, links, hwalk⟩ := reach_eq_some.mp (find_eq_some.mp hfront).1
  obtain ⟨links₁, base₁, links', hfront', hbehind⟩ := walk_of_reach_append h
  obtain ⟨rfl, rfl⟩ : links = links₁ ∧ base = base₁ := by
    rw [hkeeps.walk hwalk] at hfront'
    cases hfront'
    exact ⟨rfl, rfl⟩
  rw [List.map_cons, segment_name hname] at hbehind
  have hlink' := (hkeeps.isLinkAt (⟨piece, hname⟩ :: base)).trans hlink
  rw [Tree.walk_name (Tree.directory_of_walk hbehind) hlink'] at hbehind
  refine Tree.walk_below (not_up_of_named hback) ?_ hbehind
  intro behind hbehind
  rw [hkeeps.isLinkAt, Tree.isLinkAt, Tree.entry_below hdir hbehind]
  rfl

end

/-! ### Canonical paths -/

/-- The place that a path leads to, once the directories on its way are made: it is there, or only
names stand behind the first part that is missing, and no link is at that part. -/
inductive Grounded (t : DiskTree) (path : Path) : Place → Prop
  | found {place : Place} (found : t.find (pieces path) = some place) : Grounded t path place
  | missing {front back : List Text} {piece : Text} {base : Place}
      (parts : pieces path = front ++ piece :: back) (found : t.find front = some base)
      (name : IsName piece) (named : Named back)
      (noDirectory : t.entry (⟨piece, name⟩ :: base) ≠ some .directory)
      (noLink : t.isLinkAt (⟨piece, name⟩ :: base) = false) :
      Grounded t path (below back (⟨piece, name⟩ :: base))

lemma Place.path_cons (n : Name) (place : Place) :
    Place.path (n :: place) = push (Place.path place) n.text := by
  rw [Place.path, if_neg (List.cons_ne_nil _ _), Place.behindRoot]
  cases place with
  | nil => rfl
  | cons m place =>
      have hlast : (Place.behindRoot (m :: place)).getLast? ≠ some '/' := by
        intro hlast
        rw [Place.behindRoot, List.getLast?_append, List.getLast?_cons,
          Option.some_or] at hlast
        rcases hm : m.text.getLast? with _ | c
        · exact absurd m.valid.1 (by rw [List.getLast?_eq_none_iff.mp hm]; decide)
        · rw [hm] at hlast
          cases hlast
          exact m.valid.2.2.1 (List.mem_of_getLast? hm)
      have hne : Place.behindRoot (m :: place) ≠ [] := by
        rw [Place.behindRoot]
        exact List.append_ne_nil_of_right_ne_nil _ (List.cons_ne_nil _ _)
      rw [Place.path, if_neg (List.cons_ne_nil _ _), push,
        if_neg (fun h => h.elim hne hlast)]

/-- Names that are pushed to the path of a place. -/
lemma foldl_push {missing : List Text} (h : ∀ piece ∈ missing, IsName piece) (place : Place) :
    missing.foldl push (Place.path place) = Place.path (below missing place) := by
  induction missing generalizing place with
  | nil => rfl
  | cons piece rest ih =>
      have hname := h piece List.mem_cons_self
      rw [List.foldl_cons, below_name hname, ← ih fun p hp => h p (List.mem_cons_of_mem _ hp),
        Place.path_cons]

section

variable {t : DiskTree} {front : List Text} {piece : Text} {base : Place}

/-- The canonicalization ends at what is there. -/
lemma settle_of_find (missing : List Text) : ∀ {parts : List Text},
    t.find parts.reverse = some base → settle t parts missing = .ok (base, missing)
  | [], h => by
      obtain ⟨links, hwalk⟩ := (reach_eq_some.mp (find_eq_some.mp h).1).2
      cases hwalk
      rfl
  | piece :: rest, h => by
      rw [settle]
      by_cases hdull : isDull piece = true
      · rw [List.reverse_cons] at h
        rw [if_pos hdull]
        exact settle_of_find missing (find_of_find_dull hdull h)
      · simp only [if_neg hdull, h]

variable (hfound : t.find front = some base) (name : IsName piece)
  (noDirectory : t.entry (⟨piece, name⟩ :: base) ≠ some .directory)
  (noLink : t.isLinkAt (⟨piece, name⟩ :: base) = false)
include hfound noDirectory noLink

/-- Behind a part that is missing, it keeps the names. -/
lemma settle_missing : ∀ {back missing : List Text}, Named back.reverse →
    (∀ p ∈ missing, IsName p) → ∃ place missing',
      settle t (back ++ piece :: front.reverse) missing = .ok (place, missing') ∧
      (∀ p ∈ missing', IsName p) ∧
      below missing' place = below missing (below back.reverse (⟨piece, name⟩ :: base))
  | [], missing, _, hmissing => by
      rw [List.nil_append, settle, if_neg (by simp [name.1])]
      cases hfind : t.find (piece :: front.reverse).reverse with
      | some place =>
          rw [List.reverse_cons, List.reverse_reverse] at hfind
          have hplace := eq_below_of_reach (Tree.Keeps.refl t) hfound name noDirectory noLink
            (fun _ h => absurd h List.not_mem_nil) (find_eq_some.mp hfind).1
          exact ⟨place, missing, rfl, hmissing, by rw [hplace]; rfl⟩
      | none =>
          have hfront : t.find front.reverse.reverse = some base := by
            rw [List.reverse_reverse, hfound]
          refine ⟨base, piece :: missing, ?_, List.forall_mem_cons.mpr ⟨name, hmissing⟩,
            below_name name _ _⟩
          simp only [if_neg name.2.1, settle_of_find _ hfront]
  | p :: rest, missing, hnamed, hmissing => by
      rw [List.reverse_cons] at hnamed
      have hrest : Named rest.reverse := fun q hq => hnamed q (List.mem_append_left _ hq)
      rw [List.cons_append, settle, below_reverse_cons]
      by_cases hdull : isDull p = true
      · obtain ⟨place, missing', hsettle, hnames, hbelow⟩ := settle_missing hrest hmissing
        rw [if_pos hdull]
        exact ⟨place, missing', hsettle, hnames, by rw [hbelow, below_dull hdull, below_nil]⟩
      · rw [if_neg hdull]
        have hp : IsName p := (hnamed p (by simp)).resolve_left hdull
        cases hfind : t.find (p :: (rest ++ piece :: front.reverse)).reverse with
        | some place =>
            have hparts : (p :: (rest ++ piece :: front.reverse)).reverse =
                front ++ piece :: (rest.reverse ++ [p]) := by simp
            rw [hparts] at hfind
            have hplace := eq_below_of_reach (Tree.Keeps.refl t) hfound name noDirectory noLink
              hnamed (find_eq_some.mp hfind).1
            exact ⟨place, missing, rfl, hmissing, by rw [hplace, below_append]⟩
        | none =>
            obtain ⟨place, missing', hsettle, hnames, hbelow⟩ :=
              settle_missing hrest (List.forall_mem_cons.mpr ⟨hp, hmissing⟩)
            refine ⟨place, missing', ?_, hnames, ?_⟩
            · simp only [if_neg hp.2.1, hsettle]
            · rw [hbelow, below_name hp, below_name hp, below_nil]

/-- The first part with a name from the end, and where it ends behind it. -/
lemma settle_dropWhile : ∀ {back : List Text}, Named back.reverse → ∃ last rest,
    (back ++ piece :: front.reverse).dropWhile isDull = last :: rest ∧ last ≠ "..".toList ∧
    ∃ place missing, settle t rest [last] = .ok (place, missing) ∧ (∀ p ∈ missing, IsName p) ∧
      below missing place = below back.reverse (⟨piece, name⟩ :: base)
  | [], _ => by
      have hfront : t.find front.reverse.reverse = some base := by
        rw [List.reverse_reverse, hfound]
      refine ⟨piece, front.reverse, ?_, name.2.1, base, [piece], settle_of_find _ hfront, ?_, ?_⟩
      · rw [List.nil_append, List.dropWhile_cons_of_neg (by simp [name.1])]
      · exact List.forall_mem_singleton.mpr name
      · rw [below_name name, List.reverse_nil]
  | p :: rest, hnamed => by
      rw [List.reverse_cons] at hnamed
      have hrest : Named rest.reverse := fun q hq => hnamed q (List.mem_append_left _ hq)
      rw [List.cons_append, below_reverse_cons]
      by_cases hdull : isDull p = true
      · rw [List.dropWhile_cons_of_pos hdull, below_dull hdull, below_nil]
        exact settle_dropWhile hrest
      · have hp : IsName p := (hnamed p (by simp)).resolve_left hdull
        refine ⟨p, _, List.dropWhile_cons_of_neg hdull, hp.2.1, ?_⟩
        exact settle_missing hfound name noDirectory noLink hrest
          (List.forall_mem_singleton.mpr hp)

end

/-- **The canonical path of a grounded path is that of the place it leads to.** -/
theorem canonicalizeWithMissing_of_grounded {t : DiskTree} {path : Path} {place : Place}
    (h : Grounded t path place) : canonicalizeWithMissing t path = Place.path place := by
  cases h with
  | found hfind =>
      rw [canonicalizeWithMissing, hfind]
  | @missing front back piece base hparts hfound name hnamed noDirectory noLink =>
      rw [canonicalizeWithMissing]
      cases hfind : t.find (pieces path) with
      | some place =>
          rw [hparts] at hfind
          rw [eq_below_of_reach (Tree.Keeps.refl t) hfound name noDirectory noLink hnamed
            (find_eq_some.mp hfind).1]
      | none =>
          have hback : Named back.reverse.reverse := by rwa [List.reverse_reverse]
          obtain ⟨last, rest, hdrop, hup, place, missing, hsettle, hnames, hbelow⟩ :=
            settle_dropWhile hfound name noDirectory noLink hback
          have hreverse : (pieces path).reverse = back.reverse ++ piece :: front.reverse := by
            rw [hparts]
            simp
          simp only [hreverse, hdrop, if_neg hup, hsettle]
          rw [foldl_push hnames, hbelow, List.reverse_reverse]

/-! ### Comparison of canonical paths -/

/-- A character as it is compared. -/
def squash (c : Char) : Char := Char.toLower (if c = '\\' then '/' else c)

/-- What is compared as a slash. -/
def isSlash (c : Char) : Bool := c = '/' || c = '\\'

lemma toLower_eq_slash {c : Char} : Char.toLower c = '/' ↔ c = '/' := by
  constructor
  · intro h
    change (if h : c.val ≥ 'A'.val ∧ c.val ≤ 'Z'.val then _ else c) = '/' at h
    split_ifs at h with hupper
    · have hval : (c.val + ('a'.val - 'A'.val)).toNat = 47 := congrArg (fun d => d.val.toNat) h
      rw [ge_iff_le, UInt32.le_iff_toNat_le, UInt32.le_iff_toNat_le] at hupper
      have hshift : ('a'.val - 'A'.val).toNat = 32 := by decide
      have hlow : 'A'.val.toNat = 65 := by decide
      have hhigh : 'Z'.val.toNat = 90 := by decide
      rw [UInt32.toNat_add, hshift] at hval
      omega
    · exact h
  · rintro rfl
    rfl

lemma squash_eq_slash {c : Char} : squash c = '/' ↔ isSlash c = true := by
  rw [squash, toLower_eq_slash, isSlash, Bool.or_eq_true, decide_eq_true_iff, decide_eq_true_iff]
  split_ifs with h <;> simp [h]

lemma normalizePath_eq (path : Path) :
    normalizePath path = (path.rdropWhile isSlash).map squash := by
  have hslash : ((fun c => decide (c = '/')) ∘ fun c => if c = '\\' then '/' else c) = isSlash := by
    funext c
    rw [Function.comp_apply, isSlash]
    split_ifs with h <;> simp [h]
  rw [normalizePath, List.rdropWhile, ← List.map_reverse, List.dropWhile_map, hslash,
    ← List.map_reverse, List.map_map, List.rdropWhile]
  rfl

lemma getLast?_rdropWhile_ne {α : Type} {p : α → Bool} {xs : List α} {x : α} (hx : p x = true) :
    (xs.rdropWhile p).getLast? ≠ some x := by
  intro h
  have hne : xs.rdropWhile p ≠ [] := by
    intro hnil
    rw [hnil] at h
    cases h
  rw [List.getLast?_eq_some_getLast hne, Option.some_inj] at h
  refine List.rdropWhile_last_not p xs hne ?_
  rw [h, hx]

/-- A path that ends in no slash is compared by its characters. -/
lemma normalizePath_eq_map {path : Path} (h : ∀ c ∈ path.getLast?, isSlash c = false) :
    normalizePath path = path.map squash := by
  rw [normalizePath_eq, List.rdropWhile_eq_self_iff.mpr]
  intro hne hlast
  have := h _ (List.getLast_mem_getLast? hne)
  rw [this] at hlast
  cases hlast

/-- Where a path begins like a root, with a slash behind if there is more. -/
lemma exists_front_of_within {root path : Path} (h : within root path) :
    ∃ front back, path = front ++ back ∧ normalizePath front = normalizePath root ∧
      ∀ c ∈ back.head?, isSlash c = true := by
  rcases h with heq | ⟨behind, hbehind⟩
  · refine ⟨path.rdropWhile isSlash, path.rtakeWhile isSlash,
      (List.rdropWhile_append_rtakeWhile ..).symm, ?_, fun c hc => ?_⟩
    · rw [← heq, normalizePath_eq, normalizePath_eq, List.rdropWhile_idempotent]
    · exact List.mem_rtakeWhile_imp (List.mem_of_mem_head? hc)
  · rw [normalizePath_eq path, List.append_assoc, eq_comm, List.map_eq_append_iff] at hbehind
    obtain ⟨front, back, hparts, hfront, hback⟩ := hbehind
    rw [List.singleton_append, List.map_eq_cons_iff] at hback
    obtain ⟨c, back, rfl, hc, -⟩ := hback
    refine ⟨front, c :: back ++ path.rtakeWhile isSlash, ?_, ?_, ?_⟩
    · rw [← List.append_assoc, ← hparts, List.rdropWhile_append_rtakeWhile]
    · rw [← hfront, normalizePath_eq_map]
      intro d hd
      by_contra hslash
      rw [Bool.not_eq_false] at hslash
      have hlast : (normalizePath root).getLast? = some '/' := by
        rw [← hfront, List.getLast?_map, hd, Option.map_some, squash_eq_slash.mpr hslash]
      rw [normalizePath_eq, List.getLast?_map, Option.map_eq_some_iff] at hlast
      obtain ⟨e, he, hslash⟩ := hlast
      exact getLast?_rdropWhile_ne (squash_eq_slash.mp hslash) he
    · intro d hd
      rw [List.cons_append, List.head?_cons, Option.mem_some_iff] at hd
      rw [← hd, squash_eq_slash.mp hc]

/-- Two texts with the same last slash. -/
lemma eq_of_last_slash {front front' back back' : Text} (hback : '/' ∉ back) (hback' : '/' ∉ back')
    (h : front ++ '/' :: back = front' ++ '/' :: back') : front = front' ∧ back = back' := by
  rcases List.append_eq_append_iff.mp h with ⟨between, rfl, hrest⟩ | ⟨between, rfl, hrest⟩
  · cases between with
    | nil =>
        cases hrest
        simp
    | cons c between =>
        cases hrest
        exact absurd (by simp) hback
  · cases between with
    | nil =>
        cases hrest
        simp
    | cons c between =>
        cases hrest
        exact absurd (by simp) hback'

lemma behindRoot_injective : Function.Injective Place.behindRoot := by
  intro place
  induction place with
  | nil =>
      intro other h
      cases other with
      | nil => rfl
      | cons m other => exact absurd h.symm (by simp [Place.behindRoot])
  | cons n place ih =>
      intro other h
      cases other with
      | nil => exact absurd h (by simp [Place.behindRoot])
      | cons m other =>
          obtain ⟨hplace, hname⟩ := eq_of_last_slash n.valid.2.2.1 m.valid.2.2.1 h
          obtain ⟨text, hvalid⟩ := n
          obtain ⟨text', hvalid'⟩ := m
          cases hname
          rw [ih hplace]

/-- The path of a place that goes on behind another one's is in it. -/
lemma suffix_of_behindRoot {root : Place} : ∀ {place : Place} {back : Text},
    place.behindRoot = root.behindRoot ++ back → (∀ c ∈ back.head?, c = '/') → root <:+ place
  | place, [], h, _ => by
      rw [List.append_nil] at h
      rw [behindRoot_injective h]
  | [], c :: back, h, _ => by
      rw [Place.behindRoot] at h
      exact absurd h.symm (by simp)
  | n :: place, c :: back, h, hback => by
      obtain rfl : c = '/' := hback c rfl
      rw [Place.behindRoot] at h
      by_cases hslash : '/' ∈ back
      · obtain ⟨behind, between, hsplit, hnone⟩ :=
          List.eq_append_cons_of_mem (List.mem_reverse.mpr hslash)
        have hparts : '/' :: back = '/' :: between.reverse ++ '/' :: behind.reverse := by
          rw [← List.reverse_reverse back, hsplit]
          simp
        rw [hparts, ← List.append_assoc] at h
        obtain ⟨hplace, -⟩ := eq_of_last_slash n.valid.2.2.1 (by simpa using hnone) h
        exact (suffix_of_behindRoot hplace (by simp)).trans (List.suffix_cons n place)
      · obtain ⟨hplace, -⟩ := eq_of_last_slash n.valid.2.2.1 hslash h
        rw [behindRoot_injective hplace]
        exact List.suffix_cons n root

/-! ### Paths that pass the check -/

/-- Where the path of a place begins like that of a root, up to letter case and backslashes, it
begins with the root itself. -/
def Exact (root place : Place) : Prop :=
  ∀ front back, place.behindRoot = front ++ back →
    normalizePath front = normalizePath root.behindRoot → (∀ c ∈ back.head?, isSlash c = true) →
      front = root.behindRoot ∧ ∀ c ∈ back.head?, c = '/'

/-- A path that the check is right about: it and its root are grounded, and the comparison of the
places does not depend on letter case or backslashes. -/
def Plain (t : DiskTree) (path : Path) : Prop :=
  ∀ root, rootOf s path = some root → ∃ place base,
    Grounded t path place ∧ Grounded t root base ∧ Exact base place

/-- A path that the check accepts as it is. -/
def Accepted (t : DiskTree) (path : Path) : Prop :=
  ∃ root, rootOf s path = some root ∧
    within (canonicalizeWithMissing t root) (canonicalizeWithMissing t path)

variable {s}

/-- What `resolve_allowed` has checked. -/
lemma accepted_of_resolveAllowed {t : DiskTree} {input : Option Text} {operation : String}
    {path root : Path} (h : resolveAllowed s t input operation = .ok (path, root)) :
    Accepted s t path ∧ ∃ text, input = some text ∧
      ∃ base ∈ s.allowedRoots.head?, path = candidate s base text := by
  rw [resolveAllowed] at h
  cases hinput : input.filter fun value => !value.all Str.isWhitespace with
  | none =>
      rw [hinput] at h
      cases h
  | some text =>
      rw [hinput] at h
      simp only at h
      split_ifs at h with hpercent
      cases hbase : s.allowedRoots.head? with
      | none =>
          rw [hbase] at h
          cases h
      | some base =>
          rw [hbase] at h
          simp only at h
          cases hroot : rootOf s (candidate s base text) with
          | none =>
              rw [hroot] at h
              cases h
          | some root' =>
              rw [hroot] at h
              simp only at h
              split_ifs at h with hwithin
              cases h
              exact ⟨⟨_, hroot, hwithin⟩, text, (Option.filter_eq_some_iff.mp hinput).1, base, rfl,
                rfl⟩

lemma normalizePath_path (place : Place) :
    normalizePath place.path = normalizePath place.behindRoot := by
  cases place with
  | nil => rfl
  | cons n place => rfl

/-- The place of an accepted path is in the place of its root. -/
lemma suffix_of_within {root place : Place} (hexact : Exact root place)
    (h : within root.path place.path) : root <:+ place := by
  have hwithin : within root.behindRoot place.behindRoot := by
    rwa [within, normalizePath_path, normalizePath_path] at h
  obtain ⟨front, back, hparts, hfront, hback⟩ := exists_front_of_within hwithin
  obtain ⟨rfl, hslash⟩ := hexact front back hparts hfront hback
  exact suffix_of_behindRoot hparts hslash

section

variable {t t' : DiskTree}

lemma below_rdropWhile (parts : List Text) (place : Place) :
    below (parts.rdropWhile isDull) place = below parts place := by
  induction parts using List.reverseRecOn with
  | nil => rfl
  | append_singleton front piece ih =>
      rw [List.rdropWhile_concat]
      split_ifs with hdull
      · rw [ih, below_append, below_dull hdull, below_nil]
      · rfl

lemma rdropWhile_behind {front back : List Text} {piece : Text} (h : isDull piece = false) :
    (front ++ piece :: back).rdropWhile isDull = front ++ piece :: back.rdropWhile isDull := by
  induction back using List.reverseRecOn with
  | nil =>
      rw [List.rdropWhile_concat_neg isDull front piece (by simp [h])]
      rfl
  | append_singleton back last ih =>
      rw [← List.cons_append, ← List.append_assoc, List.rdropWhile_concat, List.rdropWhile_concat]
      split_ifs
      · exact ih
      · rw [← List.cons_append, ← List.append_assoc]

lemma null_of_named {parts : List Text} (h : Named parts) : ∀ piece ∈ parts, '\x00' ∉ piece := by
  intro piece hpiece
  rcases h piece hpiece with hdull | hname
  · rw [isDull, Bool.or_eq_true, decide_eq_true_iff, decide_eq_true_iff] at hdull
    rcases hdull with rfl | rfl <;> decide
  · exact hname.2.2.2

/-- A grounded path leads to its place in every later tree that it leads anywhere in. -/
lemma Grounded.eq_of_reach {path : Path} {place place' : Place} (h : Grounded t path place)
    (hkeeps : Tree.Keeps t t') (hreach : t'.reach ((pieces path).rdropWhile isDull) = some place') :
    place' = place := by
  cases h with
  | found hfind =>
      rw [reach_of_keeps hkeeps (reach_rdropWhile (find_eq_some.mp hfind).1)] at hreach
      cases hreach
      rfl
  | missing hparts hfound name hnamed noDirectory noLink =>
      rw [hparts, rdropWhile_behind name.1] at hreach
      rw [← below_rdropWhile]
      refine eq_below_of_reach hkeeps hfound name noDirectory noLink ?_ hreach
      exact fun p hp => hnamed p ((List.rdropWhile_prefix isDull _).subset hp)

/-- A root that a place is in leads where it is grounded. -/
lemma reach_root {root : Path} {base place : Place} (hroot : Grounded t root base)
    (hkeeps : Tree.Keeps t t') (hplace : t'.InDirectory place) (hlink : t'.isLinkAt place = false)
    (hbase : base <:+ place) : t'.reach ((pieces root).rdropWhile isDull) = some base := by
  cases hroot with
  | found hfind => exact reach_of_keeps hkeeps (reach_rdropWhile (find_eq_some.mp hfind).1)
  | @missing front back piece base' hparts hfound name hnamed noDirectory noLink =>
      obtain ⟨hnull, links, hwalk⟩ := reach_eq_some.mp (find_eq_some.mp hfound).1
      obtain ⟨hdir, hlink⟩ := Tree.above_of_suffix hplace hlink hbase
      have hnamed' : Named (piece :: back.rdropWhile isDull) := by
        refine List.forall_mem_cons.mpr ⟨Or.inr name, fun p hp => ?_⟩
        exact hnamed p ((List.rdropWhile_prefix isDull back).subset hp)
      have hbelow : below (piece :: back.rdropWhile isDull) base' =
          below back (⟨piece, name⟩ :: base') := by
        rw [below_name name, below_rdropWhile]
      have hend : ((piece :: back.rdropWhile isDull).map segment).getLast? ≠ some .here := by
        intro hlast
        rw [List.getLast?_map, Option.map_eq_some_iff] at hlast
        obtain ⟨last, hlast, hhere⟩ := hlast
        rcases hnamed' last (List.mem_of_getLast? hlast) with hdull | hname
        · rw [← List.nil_append (piece :: _), ← rdropWhile_behind name.1] at hlast
          exact getLast?_rdropWhile_ne hdull hlast
        · rw [segment_name hname] at hhere
          cases hhere
      rw [hparts, rdropWhile_behind name.1, reach_eq_some]
      refine ⟨List.forall_mem_append.mpr ⟨hnull, null_of_named hnamed'⟩, links, ?_⟩
      rw [← hbelow] at hdir hlink ⊢
      rw [List.map_append, Tree.walk_append, hkeeps.walk hwalk]
      exact Tree.walk_down (not_up_of_named hnamed') hend hdir hlink

/-- **Where an accepted path leads, in this tree or a later one, is inside.** -/
theorem inside_of_accepted {path : Path} {place : Place} (haccepted : Accepted s t path)
    (hplain : Plain s t path) (hkeeps : Tree.Keeps t t')
    (hreach : t'.reach ((pieces path).rdropWhile isDull) = some place) : Inside s t' place := by
  obtain ⟨root, hroot, hwithin⟩ := haccepted
  obtain ⟨place', base, hplace, hbase, hexact⟩ := hplain root hroot
  obtain rfl := hplace.eq_of_reach hkeeps hreach
  rw [canonicalizeWithMissing_of_grounded hplace, canonicalizeWithMissing_of_grounded hbase]
    at hwithin
  have hsuffix := suffix_of_within hexact hwithin
  obtain ⟨-, links, hwalk⟩ := reach_eq_some.mp hreach
  have hlink : t'.isLinkAt [] = false := Tree.not_isLinkAt_of_directory t'.root
  exact ⟨root, List.mem_of_find?_eq_some hroot, base,
    reach_root hbase hkeeps (Tree.inDirectory_of_walk hwalk t'.root)
      (Tree.not_isLinkAt_of_walk hwalk hlink) hsuffix, hsuffix⟩

end

lemma grows_createDirAll {t t' : DiskTree} {parts : List Text} {r : Except Errno Unit}
    (h : createDirAll t parts = (r, t')) : Tree.Grows t t' := by
  rw [createDirAll] at h
  split_ifs at h
  · cases h
    exact Tree.Grows.refl t
  · exact Tree.grows_makeDirectories h

/-- An input whose path the check is right about is contained. -/
theorem contained_of_plain {t : DiskTree} {input : Text}
    (h : ∀ base ∈ s.allowedRoots.head?, Plain s t (candidate s base input)) :
    Contained s t input := by
  intro operation path root hresolve t' hmade place hreach
  obtain ⟨haccepted, text, hinput, base, hbase, rfl⟩ := accepted_of_resolveAllowed hresolve
  cases hinput
  exact inside_of_accepted haccepted (h base hbase) (grows_createDirAll hmade).keeps
    (reach_rdropWhile hreach)

end Filesystem

end McpSurfaces
