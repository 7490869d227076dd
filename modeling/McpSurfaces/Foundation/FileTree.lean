import Mathlib.Data.List.Basic
import Mathlib.Logic.Function.Basic
import Mathlib.Tactic.Common

/-!
Trees of directories, files and symbolic links, and how an operating system finds its way in them.

* A `Tree` has an entry at every location that something is at, below directories only.
* `Tree.walk` follows a path: `..` leaves the directory that was reached, and a link is replaced by
  its target. What the last part of a path names need not be there.
* `Keeps`: a later tree in which the directories and the links are still there.
  **`Keeps.walk`**: paths lead where they led.
* **`walk_below`**: behind a place with no links below it, a path leads to what its names say.
-/

namespace McpSurfaces

namespace FileTree

/-- A part of a path: the directory itself, the one above it, or a name in it. -/
inductive Seg (ν : Type)
  | here
  | up
  | name (n : ν)
deriving DecidableEq

/-- What is at a location. -/
inductive Entry (ν κ : Type)
  | directory
  | file (content : κ)
  | link (absolute : Bool) (target : List (Seg ν))

namespace Entry

variable {ν κ : Type}

def isDirectory : Entry ν κ → Bool
  | .directory => true
  | _ => false

@[simp] lemma isDirectory_iff {e : Entry ν κ} : e.isDirectory = true ↔ e = .directory := by
  cases e <;> simp [isDirectory]

def isLink : Entry ν κ → Bool
  | .link _ _ => true
  | _ => false

end Entry

/-- A location: the names on the way to it, the last one first. -/
abbrev Location (ν : Type) := List ν

/-- Entries by their locations. What is not at the root is in a directory. -/
structure Tree (ν κ : Type) where
  entry : Location ν → Option (Entry ν κ)
  root : entry [] = some .directory
  parent : ∀ {n : ν} {above : Location ν}, entry (n :: above) ≠ none → entry above = some .directory

inductive Errno
  | notFound
  | notDirectory
  | alreadyExists
  | loop
  | invalidInput
deriving DecidableEq

/-- The links that are followed on one way. -/
def maxLinks : ℕ := 40

namespace Tree

variable {ν κ : Type} (t : Tree ν κ)

def isDirectoryAt (place : Location ν) : Bool := (t.entry place).any Entry.isDirectory

def isLinkAt (place : Location ν) : Bool := (t.entry place).any Entry.isLink

variable {t}

lemma isDirectoryAt_iff {place : Location ν} :
    t.isDirectoryAt place = true ↔ t.entry place = some .directory := by
  rw [isDirectoryAt, Option.any_eq_true]
  simp

lemma isLinkAt_iff {place : Location ν} :
    t.isLinkAt place = true ↔ ∃ absolute target, t.entry place = some (.link absolute target) := by
  rw [isLinkAt, Option.any_eq_true]
  constructor
  · rintro ⟨e, he, hlink⟩
    cases e with
    | link absolute target => exact ⟨absolute, target, he⟩
    | directory => cases hlink
    | file content => cases hlink
  · rintro ⟨absolute, target, h⟩
    exact ⟨_, h, rfl⟩

lemma not_isLinkAt_of_directory {place : Location ν} (h : t.entry place = some .directory) :
    t.isLinkAt place = false := by
  rw [isLinkAt, h]
  rfl

/-- A directory is in directories. -/
lemma directory_of_suffix {place above : Location ν} (h : t.entry place = some .directory)
    (habove : above <:+ place) : t.entry above = some .directory := by
  induction place with
  | nil =>
      obtain rfl := List.suffix_nil.mp habove
      exact h
  | cons n place ih =>
      rcases List.suffix_cons_iff.mp habove with rfl | habove
      · exact h
      · exact ih (t.parent (by rw [h]; simp)) habove

/-- Nothing is below what is no directory. -/
lemma entry_below {place below : Location ν} (h : t.entry place ≠ some .directory)
    (hbelow : below ≠ []) : t.entry (below ++ place) = none := by
  obtain ⟨n, below, rfl⟩ := List.exists_cons_of_ne_nil hbelow
  by_contra hentry
  exact h (directory_of_suffix (t.parent hentry) (List.suffix_append below place))

/-! ### Ways -/

section Walk

variable (t)

/-- The way of a path, on which `follow` goes on behind a link. -/
def walkWith (links : ℕ) (follow : Location ν → List (Seg ν) → Except Errno (ℕ × Location ν)) :
    Location ν → List (Seg ν) → Except Errno (ℕ × Location ν)
  | place, [] => .ok (links, place)
  | place, seg :: rest =>
      match t.entry place with
      | none => .error .notFound
      | some .directory =>
          match seg with
          | .here => walkWith links follow place rest
          | .up => walkWith links follow place.tail rest
          | .name n =>
              match t.entry (n :: place) with
              | some (.link absolute target) =>
                  follow (if absolute then [] else place) (target ++ rest)
              | _ => walkWith links follow (n :: place) rest
      | some _ => .error .notDirectory

/-- The way of a path, on which so many links may be followed: how many are left, and where it
leads. -/
def walk : ℕ → Location ν → List (Seg ν) → Except Errno (ℕ × Location ν)
  | 0 => t.walkWith 0 fun _ _ => .error .loop
  | links + 1 => t.walkWith (links + 1) (walk links)

variable {t}

@[simp] lemma walk_nil (links : ℕ) (place : Location ν) :
    t.walk links place [] = .ok (links, place) := by
  cases links <;> rfl

lemma walk_cons {links : ℕ} {place : Location ν} {seg : Seg ν} {rest : List (Seg ν)} :
    t.walk links place (seg :: rest) =
      match t.entry place with
      | none => .error .notFound
      | some .directory =>
          match seg with
          | .here => t.walk links place rest
          | .up => t.walk links place.tail rest
          | .name n =>
              match t.entry (n :: place) with
              | some (.link absolute target) =>
                  match links with
                  | 0 => .error .loop
                  | links + 1 => t.walk links (if absolute then [] else place) (target ++ rest)
              | _ => t.walk links (n :: place) rest
      | some _ => .error .notDirectory := by
  cases links <;> rfl

section

variable {links : ℕ} {place : Location ν} {rest : List (Seg ν)}

/-- What is no directory has no way on. -/
lemma walk_blocked {seg : Seg ν} (hplace : t.entry place ≠ some .directory) :
    t.walk links place (seg :: rest) =
      .error ((t.entry place).elim .notFound fun _ => .notDirectory) := by
  rw [walk_cons]
  cases hentry : t.entry place with
  | none => rfl
  | some e =>
      cases e with
      | directory => exact absurd hentry hplace
      | file content => rfl
      | link absolute target => rfl

lemma directory_of_walk {seg : Seg ν} {r : ℕ × Location ν}
    (h : t.walk links place (seg :: rest) = .ok r) : t.entry place = some .directory := by
  by_contra hplace
  rw [walk_blocked hplace] at h
  cases h

lemma walk_here (hplace : t.entry place = some .directory) :
    t.walk links place (.here :: rest) = t.walk links place rest := by
  rw [walk_cons, hplace]

lemma walk_up (hplace : t.entry place = some .directory) :
    t.walk links place (.up :: rest) = t.walk links place.tail rest := by
  rw [walk_cons, hplace]

lemma walk_name {n : ν} (hplace : t.entry place = some .directory)
    (hn : t.isLinkAt (n :: place) = false) :
    t.walk links place (.name n :: rest) = t.walk links (n :: place) rest := by
  rw [walk_cons, hplace]
  cases hentry : t.entry (n :: place) with
  | none => simp only [hentry]
  | some e =>
      cases e with
      | directory => simp only [hentry]
      | file content => simp only [hentry]
      | link absolute target =>
          rw [isLinkAt, hentry] at hn
          cases hn

lemma walk_link {n : ν} {absolute : Bool} {target : List (Seg ν)}
    (hplace : t.entry place = some .directory)
    (hn : t.entry (n :: place) = some (.link absolute target)) :
    t.walk (links + 1) place (.name n :: rest) =
      t.walk links (if absolute then [] else place) (target ++ rest) := by
  rw [walk_cons, hplace]
  simp only [hn]

lemma walk_loop {n : ν} (hplace : t.entry place = some .directory)
    (hn : t.isLinkAt (n :: place) = true) :
    t.walk 0 place (.name n :: rest) = .error .loop := by
  obtain ⟨absolute, target, hn⟩ := isLinkAt_iff.mp hn
  rw [walk_cons, hplace]
  simp only [hn]

end

/-- A property of ways: it holds where they end, and is passed on by every step. -/
theorem walk_induction (t : Tree ν κ) {motive : ℕ → Location ν → List (Seg ν) → Prop}
    (nil : ∀ links place, motive links place [])
    (blocked : ∀ links place seg rest, t.entry place ≠ some .directory →
      motive links place (seg :: rest))
    (here : ∀ links place rest, t.entry place = some .directory → motive links place rest →
      motive links place (.here :: rest))
    (up : ∀ links place rest, t.entry place = some .directory → motive links place.tail rest →
      motive links place (.up :: rest))
    (name : ∀ links place n rest, t.entry place = some .directory →
      t.isLinkAt (n :: place) = false → motive links (n :: place) rest →
      motive links place (.name n :: rest))
    (link : ∀ links place n rest absolute target, t.entry place = some .directory →
      t.entry (n :: place) = some (.link absolute target) →
      motive links (if absolute then [] else place) (target ++ rest) →
      motive (links + 1) place (.name n :: rest))
    (loop : ∀ place n rest, t.entry place = some .directory → t.isLinkAt (n :: place) = true →
      motive 0 place (.name n :: rest)) :
    ∀ links place segs, motive links place segs := by
  intro links
  induction links with
  | zero =>
      intro place segs
      induction segs generalizing place with
      | nil => exact nil 0 place
      | cons seg rest ih =>
          by_cases hplace : t.entry place = some .directory
          · cases seg with
            | here => exact here _ _ _ hplace (ih _)
            | up => exact up _ _ _ hplace (ih _)
            | name n =>
                cases hn : t.isLinkAt (n :: place) with
                | false => exact name _ _ _ _ hplace hn (ih _)
                | true => exact loop _ _ _ hplace hn
          · exact blocked _ _ _ _ hplace
  | succ links ihlinks =>
      intro place segs
      induction segs generalizing place with
      | nil => exact nil _ place
      | cons seg rest ih =>
          by_cases hplace : t.entry place = some .directory
          · cases seg with
            | here => exact here _ _ _ hplace (ih _)
            | up => exact up _ _ _ hplace (ih _)
            | name n =>
                cases hn : t.isLinkAt (n :: place) with
                | false => exact name _ _ _ _ hplace hn (ih _)
                | true =>
                    obtain ⟨absolute, target, hn⟩ := isLinkAt_iff.mp hn
                    exact link _ _ _ _ _ _ hplace hn (ihlinks _ _)
          · exact blocked _ _ _ _ hplace

/-! ### Ways in parts -/

/-- **A way goes on from where its front leads.** -/
theorem walk_append (links : ℕ) (place : Location ν) (front back : List (Seg ν)) :
    t.walk links place (front ++ back) =
      (t.walk links place front).bind fun r => t.walk r.1 r.2 back := by
  induction links, place, front using walk_induction t with
  | nil links place =>
      rw [List.nil_append, walk_nil]
      rfl
  | blocked links place seg rest hplace =>
      rw [List.cons_append, walk_blocked hplace, walk_blocked hplace]
      rfl
  | here links place rest hplace ih =>
      rw [List.cons_append, walk_here hplace, walk_here hplace, ih]
  | up links place rest hplace ih =>
      rw [List.cons_append, walk_up hplace, walk_up hplace, ih]
  | name links place n rest hplace hn ih =>
      rw [List.cons_append, walk_name hplace hn, walk_name hplace hn, ih]
  | link links place n rest absolute target hplace hn ih =>
      rw [List.cons_append, walk_link hplace hn, walk_link hplace hn, ← List.append_assoc, ih]
  | loop place n rest hplace hn =>
      rw [List.cons_append, walk_loop hplace hn, walk_loop hplace hn]
      rfl

/-- A way does not end at a link. -/
lemma not_isLinkAt_of_walk {links : ℕ} {place : Location ν} {segs : List (Seg ν)}
    {r : ℕ × Location ν} (h : t.walk links place segs = .ok r)
    (hplace : t.isLinkAt place = false) : t.isLinkAt r.2 = false := by
  induction links, place, segs using walk_induction t with
  | nil links place =>
      rw [walk_nil] at h
      cases h
      exact hplace
  | blocked links place seg rest hblocked => exact absurd (directory_of_walk h) hblocked
  | here links place rest hdir ih =>
      rw [walk_here hdir] at h
      exact ih h hplace
  | up links place rest hdir ih =>
      rw [walk_up hdir] at h
      exact ih h (not_isLinkAt_of_directory (directory_of_suffix hdir (List.tail_suffix _)))
  | name links place n rest hdir hn ih =>
      rw [walk_name hdir hn] at h
      exact ih h hn
  | link links place n rest absolute target hdir hn ih =>
      rw [walk_link hdir hn] at h
      refine ih h ?_
      split_ifs
      · exact not_isLinkAt_of_directory t.root
      · exact hplace
  | loop place n rest hdir hn =>
      rw [walk_loop hdir hn] at h
      cases h

/-- What is at a location, or may be made there. -/
def InDirectory (t : Tree ν κ) (place : Location ν) : Prop :=
  t.entry place.tail = some .directory

lemma inDirectory_of_directory {place : Location ν} (h : t.entry place = some .directory) :
    t.InDirectory place :=
  directory_of_suffix h (List.tail_suffix _)

lemma inDirectory_of_entry {place : Location ν} (h : t.entry place ≠ none) :
    t.InDirectory place := by
  cases place with
  | nil => exact t.root
  | cons n place => exact t.parent h

/-- What is above a place is in directories, too, and no link. -/
lemma above_of_suffix {place above : Location ν} (hplace : t.InDirectory place)
    (hlink : t.isLinkAt place = false) (h : above <:+ place) :
    t.InDirectory above ∧ t.isLinkAt above = false := by
  cases place with
  | nil =>
      rw [List.suffix_nil.mp h]
      exact ⟨hplace, hlink⟩
  | cons n place =>
      rcases List.suffix_cons_iff.mp h with rfl | habove
      · exact ⟨hplace, hlink⟩
      · have hdir := directory_of_suffix hplace habove
        exact ⟨inDirectory_of_directory hdir, not_isLinkAt_of_directory hdir⟩

/-- A way ends in a directory. -/
lemma inDirectory_of_walk {links : ℕ} {place : Location ν} {segs : List (Seg ν)}
    {r : ℕ × Location ν} (h : t.walk links place segs = .ok r) (hplace : t.InDirectory place) :
    t.InDirectory r.2 := by
  induction links, place, segs using walk_induction t with
  | nil links place =>
      rw [walk_nil] at h
      cases h
      exact hplace
  | blocked links place seg rest hblocked => exact absurd (directory_of_walk h) hblocked
  | here links place rest hdir ih =>
      rw [walk_here hdir] at h
      exact ih h hplace
  | up links place rest hdir ih =>
      rw [walk_up hdir] at h
      exact ih h (inDirectory_of_directory (directory_of_suffix hdir (List.tail_suffix _)))
  | name links place n rest hdir hn ih =>
      rw [walk_name hdir hn] at h
      exact ih h hdir
  | link links place n rest absolute target hdir hn ih =>
      rw [walk_link hdir hn] at h
      refine ih h ?_
      split_ifs
      · exact t.root
      · exact hplace
  | loop place n rest hdir hn =>
      rw [walk_loop hdir hn] at h
      cases h

/-! ### Ways by names -/

/-- The names of a path. -/
def names (segs : List (Seg ν)) : List ν :=
  segs.filterMap fun seg => match seg with
    | .name n => some n
    | _ => none

@[simp] lemma names_nil : names ([] : List (Seg ν)) = [] := rfl

@[simp] lemma names_here (rest : List (Seg ν)) : names (.here :: rest) = names rest := rfl

@[simp] lemma names_name (n : ν) (rest : List (Seg ν)) :
    names (.name n :: rest) = n :: names rest := rfl

/-- **With no links below a place, a path leads to what its names say.** -/
theorem walk_below {links : ℕ} {place : Location ν} {segs : List (Seg ν)} {r : ℕ × Location ν}
    (hup : .up ∉ segs)
    (hlinks : ∀ below, below ≠ [] → t.isLinkAt (below ++ place) = false)
    (h : t.walk links place segs = .ok r) : r.2 = (names segs).reverse ++ place := by
  induction segs generalizing place with
  | nil =>
      rw [walk_nil] at h
      cases h
      rfl
  | cons seg rest ih =>
      have hdir := directory_of_walk h
      have hup' : .up ∉ rest := fun hmem => hup (List.mem_cons_of_mem _ hmem)
      cases seg with
      | here =>
          rw [walk_here hdir] at h
          exact ih hup' hlinks h
      | up => exact absurd List.mem_cons_self hup
      | name n =>
          rw [walk_name hdir (hlinks [n] (List.cons_ne_nil _ _))] at h
          have hbelow : ∀ below, below ≠ [] → t.isLinkAt (below ++ n :: place) = false := by
            intro below _
            simpa using hlinks (below ++ [n]) (by simp)
          rw [ih hup' hbelow h, names_name, List.reverse_cons, List.append_assoc,
            List.singleton_append]

lemma mem_names {n : ν} {segs : List (Seg ν)} : n ∈ names segs ↔ .name n ∈ segs := by
  rw [names, List.mem_filterMap]
  constructor
  · rintro ⟨seg, hseg, hn⟩
    cases seg with
    | here => cases hn
    | up => cases hn
    | name m =>
        cases hn
        exact hseg
  · exact fun h => ⟨_, h, rfl⟩

lemma names_ne_nil {segs : List (Seg ν)} (hne : segs ≠ []) (hup : .up ∉ segs)
    (hend : segs.getLast? ≠ some .here) : names segs ≠ [] := by
  obtain ⟨front, last, rfl⟩ := (List.eq_nil_or_concat' segs).resolve_left hne
  rw [List.getLast?_concat] at hend
  cases last with
  | here => exact absurd rfl hend
  | up => exact absurd (by simp) hup
  | name n =>
      have hn : n ∈ names (front ++ [.name n]) := mem_names.mpr (by simp)
      exact List.ne_nil_of_mem hn

/-- **A path leads to what its names say**, if that is in a directory and no link. The path does
not go on behind it. -/
theorem walk_down {links : ℕ} {place : Location ν} {segs : List (Seg ν)} (hup : .up ∉ segs)
    (hend : segs.getLast? ≠ some .here)
    (hdir : t.InDirectory ((names segs).reverse ++ place))
    (hlink : t.isLinkAt ((names segs).reverse ++ place) = false) :
    t.walk links place segs = .ok (links, (names segs).reverse ++ place) := by
  induction segs generalizing place with
  | nil => exact walk_nil _ _
  | cons seg rest ih =>
      have hup' : .up ∉ rest := fun hmem => hup (List.mem_cons_of_mem _ hmem)
      have hend' : rest.getLast? ≠ some .here := by
        intro hlast
        rw [List.getLast?_cons, hlast] at hend
        exact hend rfl
      have hplace : t.entry place = some .directory := by
        obtain ⟨n, behind, hnames⟩ := List.exists_cons_of_ne_nil
          (List.reverse_ne_nil_iff.mpr (names_ne_nil (List.cons_ne_nil _ _) hup hend))
        refine directory_of_suffix hdir ?_
        rw [hnames, List.cons_append, List.tail_cons]
        exact List.suffix_append _ _
      cases seg with
      | here =>
          rw [walk_here hplace]
          exact ih hup' hend' hdir hlink
      | up => exact absurd List.mem_cons_self hup
      | name n =>
          rw [names_name, List.reverse_cons, List.append_assoc, List.singleton_append] at hdir hlink ⊢
          have hn : t.isLinkAt (n :: place) = false := by
            cases hnames : (names rest).reverse with
            | nil =>
                rw [hnames] at hlink
                exact hlink
            | cons m behind =>
                rw [hnames] at hdir
                exact not_isLinkAt_of_directory
                  (directory_of_suffix hdir (List.suffix_append behind (n :: place)))
          rw [walk_name hplace hn]
          exact ih hup' hend' hdir hlink

end Walk

/-! ### Later trees -/

/-- A later tree: its directories are there still, and the links are the same. -/
structure Keeps (t t' : Tree ν κ) : Prop where
  directories : ∀ {place}, t.entry place = some .directory → t'.entry place = some .directory
  links : ∀ {place absolute target},
    t'.entry place = some (.link absolute target) ↔ t.entry place = some (.link absolute target)

namespace Keeps

variable {t t' t'' : Tree ν κ}

lemma refl (t : Tree ν κ) : Keeps t t := ⟨id, Iff.rfl⟩

lemma trans (h : Keeps t t') (h' : Keeps t' t'') : Keeps t t'' :=
  ⟨fun hdir => h'.directories (h.directories hdir), h'.links.trans h.links⟩

lemma isLinkAt (h : Keeps t t') (place : Location ν) : t'.isLinkAt place = t.isLinkAt place := by
  rw [Bool.eq_iff_iff, isLinkAt_iff, isLinkAt_iff]
  simp only [h.links]

/-- **Paths lead where they led.** -/
theorem walk (h : Keeps t t') {links : ℕ} {place : Location ν} {segs : List (Seg ν)}
    {r : ℕ × Location ν} (hwalk : t.walk links place segs = .ok r) :
    t'.walk links place segs = .ok r := by
  induction links, place, segs using walk_induction t with
  | nil links place =>
      rw [walk_nil] at hwalk ⊢
      exact hwalk
  | blocked links place seg rest hblocked => exact absurd (directory_of_walk hwalk) hblocked
  | here links place rest hdir ih =>
      rw [walk_here hdir] at hwalk
      rw [walk_here (h.directories hdir)]
      exact ih hwalk
  | up links place rest hdir ih =>
      rw [walk_up hdir] at hwalk
      rw [walk_up (h.directories hdir)]
      exact ih hwalk
  | name links place n rest hdir hn ih =>
      rw [walk_name hdir hn] at hwalk
      rw [walk_name (h.directories hdir) ((h.isLinkAt _).trans hn)]
      exact ih hwalk
  | link links place n rest absolute target hdir hn ih =>
      rw [walk_link hdir hn] at hwalk
      rw [walk_link (h.directories hdir) (h.links.mpr hn)]
      exact ih hwalk
  | loop place n rest hdir hn =>
      rw [walk_loop hdir hn] at hwalk
      cases hwalk

end Keeps

/-! ### Directories that are made -/

section

variable [DecidableEq ν]

/-- A tree with nothing in it. -/
def bare : Tree ν κ where
  entry place := if place = [] then some .directory else none
  root := rfl
  parent h := absurd (if_neg (List.cons_ne_nil _ _)) h

/-- A tree with an entry more, another one, or one less. -/
def set (t : Tree ν κ) (n : ν) (place : Location ν) (e : Option (Entry ν κ))
    (hplace : t.entry place = some .directory)
    (hentry : t.entry (n :: place) ≠ some .directory) : Tree ν κ where
  entry := Function.update t.entry (n :: place) e
  root := by rw [Function.update_of_ne (List.cons_ne_nil _ _).symm, t.root]
  parent := by
    intro m above hm
    have hkept : t.entry above = some .directory := by
      by_cases heq : m :: above = n :: place
      · cases heq
        exact hplace
      · rw [Function.update_of_ne heq] at hm
        exact t.parent hm
    rw [Function.update_of_ne ?_, hkept]
    rintro rfl
    exact hentry hkept

@[simp] lemma set_entry {t : Tree ν κ} {n : ν} {place : Location ν} {e : Option (Entry ν κ)}
    {hplace : t.entry place = some .directory} {hentry : t.entry (n :: place) ≠ some .directory} :
    (t.set n place e hplace hentry).entry = Function.update t.entry (n :: place) e := rfl

/-- Whether a path leads to a directory. The last part of the path stands first. -/
def leadsToDirectory (t : Tree ν κ) (path : List (Seg ν)) : Bool :=
  match t.walk maxLinks [] path.reverse with
  | .ok r => t.isDirectoryAt r.2
  | .error _ => false

/-- `mkdir`. The last part of the path stands first. -/
def makeDirectory (t : Tree ν κ) : List (Seg ν) → Except Errno (Tree ν κ)
  | [] => .error .alreadyExists
  | .here :: rest => makeDirectory t rest
  | .up :: rest =>
      match t.walk maxLinks [] (rest.reverse ++ [.up]) with
      | .ok _ => .error .alreadyExists
      | .error e => .error e
  | .name n :: rest =>
      match t.walk maxLinks [] rest.reverse with
      | .error e => .error e
      | .ok (_, place) =>
          if hplace : t.isDirectoryAt place = true then
            if hentry : (t.entry (n :: place)).isNone = true then
              .ok (t.set n place (some .directory) (isDirectoryAt_iff.mp hplace)
                (by rw [Option.isNone_iff_eq_none.mp hentry]; simp))
            else .error .alreadyExists
          else .error ((t.entry place).elim .notFound fun _ => .notDirectory)

/-- `create_dir_all`: the directories of a path that are not there are made. What is made stays
made if a later one cannot be. -/
def makeDirectories (t : Tree ν κ) : List (Seg ν) → Except Errno Unit × Tree ν κ
  | [] => (.ok (), t)
  | .here :: rest => makeDirectories t rest
  | seg :: rest =>
      match t.makeDirectory (seg :: rest) with
      | .ok t' => (.ok (), t')
      | .error .notFound =>
          match makeDirectories t rest with
          | (.error e, t') => (.error e, t')
          | (.ok (), t') =>
              match t'.makeDirectory (seg :: rest) with
              | .ok t'' => (.ok (), t'')
              | .error e => (if t'.leadsToDirectory (seg :: rest) then .ok () else .error e, t')
      | .error e => (if t.leadsToDirectory (seg :: rest) then .ok () else .error e, t)

end

/-- A later tree, with some directories more. -/
def Grows (t t' : Tree ν κ) : Prop :=
  ∀ place, t'.entry place = t.entry place ∨
    (t.entry place = none ∧ t'.entry place = some .directory)

namespace Grows

variable {t t' t'' : Tree ν κ}

lemma refl (t : Tree ν κ) : Grows t t := fun _ => Or.inl rfl

lemma trans (h : Grows t t') (h' : Grows t' t'') : Grows t t'' := by
  intro place
  rcases h' place with hsame | ⟨hnone, hmade⟩
  · rw [hsame]
    exact h place
  · rcases h place with hsame | ⟨-, hmade'⟩
    · exact Or.inr ⟨hsame ▸ hnone, hmade⟩
    · rw [hmade'] at hnone
      cases hnone

lemma keeps (h : Grows t t') : Keeps t t' where
  directories {place} hdir := by
    rcases h place with hsame | ⟨hnone, -⟩
    · rw [hsame, hdir]
    · rw [hnone] at hdir
      cases hdir
  links {place absolute target} := by
    rcases h place with hsame | ⟨hnone, hmade⟩
    · rw [hsame]
    · rw [hnone, hmade]
      simp

end Grows

section

variable [DecidableEq ν] {t t' : Tree ν κ}

lemma grows_set_directory {n : ν} {place : Location ν} {hplace : t.entry place = some .directory}
    {hentry : t.entry (n :: place) ≠ some .directory} (hnone : t.entry (n :: place) = none) :
    Grows t (t.set n place (some .directory) hplace hentry) := by
  intro above
  by_cases heq : above = n :: place
  · rw [heq, set_entry, Function.update_self]
    exact Or.inr ⟨hnone, rfl⟩
  · rw [set_entry, Function.update_of_ne heq]
    exact Or.inl rfl

lemma grows_makeDirectory {path : List (Seg ν)} (h : t.makeDirectory path = .ok t') :
    Grows t t' := by
  induction path with
  | nil => cases h
  | cons seg rest ih =>
      cases seg with
      | here => exact ih h
      | up =>
          rw [makeDirectory] at h
          split at h <;> cases h
      | name n =>
          rw [makeDirectory] at h
          split at h
          · cases h
          split_ifs at h with hplace hentry
          cases h
          exact grows_set_directory (Option.isNone_iff_eq_none.mp hentry)

/-- **Directories are made where nothing is**, whether or not all of them are. -/
theorem grows_makeDirectories {path : List (Seg ν)} {r : Except Errno Unit}
    (h : t.makeDirectories path = (r, t')) : Grows t t' := by
  induction path generalizing t' r with
  | nil =>
      cases h
      exact Grows.refl t
  | cons seg rest ih =>
      by_cases hhere : seg = .here
      · subst hhere
        exact ih h
      rw [makeDirectories.eq_3 _ _ _ hhere] at h
      split at h
      · next t₁ hmade =>
          cases h
          exact grows_makeDirectory hmade
      · split at h
        · next e t₁ hrest =>
            cases h
            exact ih hrest
        · next t₁ hrest =>
            split at h
            · next t₂ hmade =>
                cases h
                exact (ih hrest).trans (grows_makeDirectory hmade)
            · cases h
              exact ih hrest
      · cases h
        exact Grows.refl t

end

/-! ### Files and links -/

/-- The place of the last part of a path itself, also if a link is there. The last part of the path
stands first. -/
def ownPlace (t : Tree ν κ) : List (Seg ν) → Except Errno (Location ν)
  | .name n :: rest => (t.walk maxLinks [] rest.reverse).map fun r => n :: r.2
  | path => (t.walk maxLinks [] path.reverse).map fun r => r.2

/-- A path leads to its own place, unless a link is there. -/
lemma walk_of_ownPlace {t : Tree ν κ} {path : List (Seg ν)} {place : Location ν}
    (h : t.ownPlace path = .ok place) (hplace : t.InDirectory place)
    (hlink : t.isLinkAt place = false) :
    ∃ links, t.walk maxLinks [] path.reverse = .ok (links, place) := by
  have hwhole : (t.walk maxLinks [] path.reverse).map (fun r => r.2) = .ok place →
      ∃ links, t.walk maxLinks [] path.reverse = .ok (links, place) := by
    intro hmap
    cases hwalk : t.walk maxLinks [] path.reverse with
    | error e =>
        rw [hwalk] at hmap
        cases hmap
    | ok r =>
        rw [hwalk] at hmap
        cases hmap
        exact ⟨_, rfl⟩
  cases path with
  | nil => exact hwhole h
  | cons seg rest =>
      cases seg with
      | here => exact hwhole h
      | up => exact hwhole h
      | name n =>
          rw [ownPlace] at h
          cases hwalk : t.walk maxLinks [] rest.reverse with
          | error e =>
              rw [hwalk] at h
              cases h
          | ok r =>
              rw [hwalk] at h
              cases h
              refine ⟨r.1, ?_⟩
              rw [List.reverse_cons, walk_append, hwalk]
              exact (walk_name hplace hlink).trans (walk_nil _ _)

/-- A later tree that differs below some locations only. -/
def SameBut (bases : List (Location ν)) (t t' : Tree ν κ) : Prop :=
  ∀ place, (∀ base ∈ bases, ¬ base <:+ place) → t'.entry place = t.entry place

/-- Some of what is at a location or below it is gone. -/
def Thinned (base : Location ν) (t t' : Tree ν κ) : Prop :=
  ∀ place, t'.entry place = t.entry place ∨ (base <:+ place ∧ t'.entry place = none)

/-- What is at a location or below it is at another one. -/
structure Moved (source target : Location ν) (t t' : Tree ν κ) : Prop where
  there : ∀ below, t'.entry (below ++ target) = t.entry (below ++ source)
  gone : ∀ place, ¬ target <:+ place → source <:+ place → t'.entry place = none
  others : ∀ place, ¬ target <:+ place → ¬ source <:+ place → t'.entry place = t.entry place

section

variable {t t' : Tree ν κ}

lemma Thinned.sameBut {base : Location ν} (h : Thinned base t t') : SameBut [base] t t' :=
  fun place hplace => (h place).resolve_right fun hgone =>
    hplace base (List.mem_singleton_self _) hgone.1

lemma Moved.sameBut {source target : Location ν} (h : Moved source target t t') :
    SameBut [source, target] t t' :=
  fun place hplace => h.others place (hplace _ (by simp)) (hplace _ (by simp))

variable [DecidableEq ν] {n : ν} {place : Location ν}

variable {e : Option (Entry ν κ)} {hplace : t.entry place = some .directory}
  {hentry : t.entry (n :: place) ≠ some .directory}

lemma sameBut_set : SameBut [n :: place] t (t.set n place e hplace hentry) := by
  intro above habove
  rw [set_entry, Function.update_of_ne]
  rintro rfl
  exact habove _ (List.mem_singleton_self _) List.suffix_rfl

/-- A file that is written in place of no link, or removed, leaves the directories and the links. -/
lemma keeps_set (hlink : t.isLinkAt (n :: place) = false)
    (he : ∀ absolute target, e ≠ some (.link absolute target)) :
    Keeps t (t.set n place e hplace hentry) where
  directories {above} hdir := by
    rw [set_entry, Function.update_of_ne, hdir]
    rintro rfl
    exact hentry hdir
  links {above absolute target} := by
    by_cases heq : above = n :: place
    · rw [heq, set_entry, Function.update_self]
      refine ⟨fun h => absurd h (he _ _), fun h => ?_⟩
      rw [isLinkAt, h] at hlink
      cases hlink
    · rw [set_entry, Function.update_of_ne heq]

end

end Tree

end FileTree

end McpSurfaces
