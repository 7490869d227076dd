import McpSurfaces.Filesystem.Containment

/-!
What write-mode calls do to a tree of files.

* `Action` is what a call asks of the operating system, `Action.Leaves` what that does. The paths
  are those that the call has resolved, as the tree was when it began, and those of its backups.
* `CallStep` is a call that begins, or an action of the one that has begun.
* **`files_contained`**: a path that the check is right about leads into a root; and in a run of
  careful steps no file outside the roots is created, changed or removed.
-/

namespace McpSurfaces

namespace Filesystem

open TextLines FileTree

/-! ### Actions -/

/-- What a call asks of the operating system: `create_dir_all` of the directory above a path or of
the path, `create_dir`, `write`, `remove_file`, `remove_dir` or `remove_dir_all`, and `rename`. -/
inductive Action
  | makeParents (path : Path)
  | makeDirectories (path : Path)
  | makeDirectory (path : Path)
  | write (path : Path)
  | removeFile (path : Path)
  | removeDirectory (path : Path)
  | rename (source target : Path)

namespace Action

def paths : Action → List Path
  | .makeParents path | .makeDirectories path | .makeDirectory path | .write path
  | .removeFile path | .removeDirectory path => [path]
  | .rename source target => [source, target]

/-- The paths of what is removed or moved. -/
def removed : Action → List Path
  | .removeFile path | .removeDirectory path => [path]
  | .rename source target => [source, target]
  | _ => []

/-- The paths of what is removed or moved, and of files that are written. -/
def touched : Action → List Path
  | .write path => [path]
  | action => action.removed

/-- Whether directories are removed or moved. -/
def moves : Action → Bool
  | .removeDirectory _ | .rename _ _ => true
  | _ => false

end Action

/-- The place of the last part of a path itself, also if a link is there. -/
def DiskTree.ownPlace (t : DiskTree) (path : Path) : Option Place :=
  let parts := (pieces path).rdropWhile isDull
  if parts.any (·.contains '\x00') then none
  else match Tree.ownPlace t (parts.map segment).reverse with
    | .ok place => some place
    | .error _ => none

/-- What an action that succeeds, or that breaks off, leaves. A file may hold anything then. -/
def Action.Leaves (t t' : DiskTree) : Action → Prop
  | .makeParents path => t' = (createDirAll t (parent path)).2
  | .makeDirectories path => t' = (createDirAll t (pieces path).reverse).2
  | .makeDirectory path => (∀ piece ∈ pieces path, '\x00' ∉ piece) ∧
      Tree.makeDirectory t ((pieces path).reverse.map segment) = .ok t'
  | .write path => ∃ n place content hplace hentry, t.reach (pieces path) = some (n :: place) ∧
      t' = Tree.set t n place (some (.file content)) hplace hentry
  | .removeFile path => ∃ n place hplace hentry, t.ownPlace path = some (n :: place) ∧
      t' = Tree.set t n place none hplace hentry
  | .removeDirectory path => ∃ place, (t.ownPlace path = some place ∨
      t.reach (pieces path) = some place) ∧ t.entry place ≠ none ∧ Tree.Thinned place t t'
  | .rename source target => ∃ old new, t.ownPlace source = some old ∧
      t.ownPlace target = some new ∧ t.entry old ≠ none ∧ Tree.InDirectory t new ∧
      Tree.Moved old new t t'

/-! ### Runs -/

/-- `Path::parent`, as a path. -/
def parentPath (path : Path) : Path :=
  match (parent path).dropWhile isDull with
  | [] => ['/']
  | parts => ['/'].intercalate parts.reverse

/-- `backup_sibling`, with the time and the number that make its name unused. -/
def backupSibling (path : Path) (stamp : Text) : Path :=
  push (parentPath path)
    ('.' :: (fileName path).getD "target".toList ++ ".overwrite-backup-".toList ++ stamp)

/-- The tree that the call began on, the tree now, and whether the call has moved or removed
directories. -/
structure Progress where
  start : DiskTree
  now : DiskTree
  moved : Bool

variable (s : State)

/-- A path that a call acts on: one that it has resolved, or the backup of one. -/
def Known (t : DiskTree) (path : Path) : Prop :=
  ∃ input operation resolved root, resolveAllowed s t input operation = .ok (resolved, root) ∧
    (path = resolved ∨ ∃ stamp, path = backupSibling resolved stamp)

/-- A call begins, or the one that has begun acts. -/
inductive CallStep : Progress → Option Action → Progress → Prop
  | call (c : Progress) : CallStep c none ⟨c.now, c.now, false⟩
  | act (c : Progress) (action : Action) (t : DiskTree)
      (known : ∀ path ∈ action.paths, Known s c.start path) (leaves : action.Leaves c.now t) :
      CallStep c (some action) ⟨c.start, t, c.moved || action.moves⟩

/-- A path that the check accepts, and is right about, on a tree. -/
def Checked (t : DiskTree) (path : Path) : Prop := Accepted s t path ∧ Plain s t path

/-- The check is right about the paths that an action touches, as it was made when the call began;
if the call has moved or removed directories since, also as it would be made now. What is removed
or moved is no link. -/
structure CarefulAction (c : Progress) (action : Action) : Prop where
  checked : ∀ path ∈ action.touched,
    (c.moved = false ∧ Checked s c.start path) ∨ Checked s c.now path
  unlinked : ∀ path ∈ action.removed, ∀ place, c.now.ownPlace path = some place →
    Tree.isLinkAt c.now place = false

def CarefulStep (c c' : Progress) : Prop :=
  ∃ label, CallStep s c label c' ∧ ∀ action ∈ label, CarefulAction s c action

/-- A place holds the same file or link, or none still. -/
def SameFile (place : Place) (t t' : DiskTree) : Prop :=
  ∀ e, e ≠ .directory → (t'.entry place = some e ↔ t.entry place = some e)

/-! ### Careful steps -/

section

variable {s} {c : Progress} {action : Action} {t t' : DiskTree} {path : Path} {place : Place}

lemma SameFile.refl (place : Place) (t : DiskTree) : SameFile place t t := fun _ _ => Iff.rfl

lemma SameFile.trans {t'' : DiskTree} (h : SameFile place t t') (h' : SameFile place t' t'') :
    SameFile place t t'' := fun e he => (h' e he).trans (h e he)

lemma sameFile_of_grows (h : Tree.Grows t t') : SameFile place t t' := by
  intro e he
  rcases h place with hsame | ⟨hnone, hmade⟩
  · rw [hsame]
  · rw [hnone, hmade]
    simpa using fun heq => he heq.symm

lemma Inside.of_suffix {base : Place} (h : Inside s t base) (hbase : base <:+ place) :
    Inside s t place := by
  obtain ⟨root, hroot, top, hreach, htop⟩ := h
  exact ⟨root, hroot, top, hreach, htop.trans hbase⟩

/-- What changes below places inside changes nothing outside. -/
lemma sameFile_of_sameBut {bases : List Place} (h : Tree.SameBut bases t t')
    (hbases : ∀ base ∈ bases, Inside s t base) (hplace : ¬ Inside s t place) :
    SameFile place t t' := by
  intro e _
  rw [h place fun base hbase hsuffix => hplace ((hbases base hbase).of_suffix hsuffix)]

/-- A path leads to its own place, unless a link is there. -/
lemma reach_of_ownPlace (h : t.ownPlace path = some place) (hplace : Tree.InDirectory t place)
    (hlink : Tree.isLinkAt t place = false) :
    t.reach ((pieces path).rdropWhile isDull) = some place := by
  rw [DiskTree.ownPlace] at h
  split_ifs at h with hnull
  split at h
  · next place' hown =>
      cases h
      obtain ⟨links, hwalk⟩ := Tree.walk_of_ownPlace hown hplace hlink
      rw [List.reverse_reverse] at hwalk
      exact reach_eq_some.mpr ⟨by simpa using hnull, links, hwalk⟩
  · cases h

/-- The tree when the call began, while nothing has moved. -/
def Progress.Steady (c : Progress) : Prop := c.moved = false → Tree.Keeps c.start c.now

variable (hsteady : c.Steady) (hcareful : CarefulAction s c action)
include hsteady hcareful

/-- What an action touches is inside. -/
lemma inside_of_careful (hpath : path ∈ action.touched)
    (hreach : c.now.reach ((pieces path).rdropWhile isDull) = some place) :
    Inside s c.now place := by
  rcases hcareful.checked path hpath with ⟨hmoved, haccepted, hplain⟩ | ⟨haccepted, hplain⟩
  · exact inside_of_accepted haccepted hplain (hsteady hmoved) hreach
  · exact inside_of_accepted haccepted hplain (Tree.Keeps.refl _) hreach

/-- So is what it removes or moves. -/
lemma inside_of_ownPlace (hpath : path ∈ action.removed) (htouched : path ∈ action.touched)
    (hown : c.now.ownPlace path = some place) (hplace : Tree.InDirectory c.now place) :
    Inside s c.now place :=
  inside_of_careful hsteady hcareful htouched
    (reach_of_ownPlace hown hplace (hcareful.unlinked path hpath place hown))

/-- **A careful action leaves what is outside.** -/
lemma sameFile_of_careful (hleaves : action.Leaves c.now t) (hplace : ¬ Inside s c.now place) :
    SameFile place c.now t := by
  have hown : ∀ {path base}, path ∈ action.removed → path ∈ action.touched →
      c.now.ownPlace path = some base → Tree.InDirectory c.now base → Inside s c.now base :=
    fun hpath htouched => inside_of_ownPlace hsteady hcareful hpath htouched
  cases action with
  | makeParents path =>
      obtain rfl := hleaves
      exact sameFile_of_grows (grows_createDirAll rfl)
  | makeDirectories path =>
      obtain rfl := hleaves
      exact sameFile_of_grows (grows_createDirAll rfl)
  | makeDirectory path => exact sameFile_of_grows (Tree.grows_makeDirectory hleaves.2)
  | write path =>
      obtain ⟨n, place', content, hdir, hentry, hreach, rfl⟩ := hleaves
      have hinside := inside_of_careful hsteady hcareful (List.mem_singleton_self path)
        (reach_rdropWhile hreach)
      exact sameFile_of_sameBut Tree.sameBut_set (List.forall_mem_singleton.mpr hinside) hplace
  | removeFile path =>
      obtain ⟨n, place', hdir, hentry, hpath, rfl⟩ := hleaves
      have hinside := hown (List.mem_singleton_self path) (List.mem_singleton_self path) hpath hdir
      exact sameFile_of_sameBut Tree.sameBut_set (List.forall_mem_singleton.mpr hinside) hplace
  | removeDirectory path =>
      obtain ⟨base, hpath, hentry, hthinned⟩ := hleaves
      have hinside : Inside s c.now base := by
        rcases hpath with hpath | hreach
        · exact hown (List.mem_singleton_self path) (List.mem_singleton_self path) hpath
            (Tree.inDirectory_of_entry hentry)
        · exact inside_of_careful hsteady hcareful (List.mem_singleton_self path)
            (reach_rdropWhile hreach)
      exact sameFile_of_sameBut hthinned.sameBut (List.forall_mem_singleton.mpr hinside) hplace
  | rename source target =>
      obtain ⟨old, new, hsource, htarget, hentry, hdir, hmoved⟩ := hleaves
      have hfirst : source ∈ [source, target] := List.mem_cons_self
      have hlast : target ∈ [source, target] := List.mem_cons_of_mem _ List.mem_cons_self
      have hold := hown hfirst hfirst hsource (Tree.inDirectory_of_entry hentry)
      have hnew := hown hlast hlast htarget hdir
      refine sameFile_of_sameBut hmoved.sameBut ?_ hplace
      exact List.forall_mem_cons.mpr ⟨hold, List.forall_mem_singleton.mpr hnew⟩

omit hsteady in
/-- A careful action that moves nothing leaves the directories and the links. -/
lemma keeps_of_careful (hleaves : action.Leaves c.now t) (hmoves : action.moves = false) :
    Tree.Keeps c.now t := by
  cases action with
  | makeParents path =>
      obtain rfl := hleaves
      exact (grows_createDirAll rfl).keeps
  | makeDirectories path =>
      obtain rfl := hleaves
      exact (grows_createDirAll rfl).keeps
  | makeDirectory path => exact (Tree.grows_makeDirectory hleaves.2).keeps
  | write path =>
      obtain ⟨n, place', content, hdir, hentry, hreach, rfl⟩ := hleaves
      obtain ⟨-, links, hwalk⟩ := reach_eq_some.mp hreach
      refine Tree.keeps_set ?_ (by simp)
      exact Tree.not_isLinkAt_of_walk hwalk (Tree.not_isLinkAt_of_directory c.now.root)
  | removeFile path =>
      obtain ⟨n, place', hdir, hentry, hpath, rfl⟩ := hleaves
      exact Tree.keeps_set (hcareful.unlinked path (List.mem_singleton_self path) _ hpath) (by simp)
  | removeDirectory path => cases hmoves
  | rename source target => cases hmoves

end

/-! ### Careful runs -/

lemma steady_of_step {s : State} {c c' : Progress} (hsteady : c.Steady) (h : CarefulStep s c c') :
    c'.Steady := by
  obtain ⟨label, hstep, hcareful⟩ := h
  cases hstep with
  | call => exact fun _ => Tree.Keeps.refl _
  | act action t known leaves =>
      intro hmoved
      rw [Bool.or_eq_false_iff] at hmoved
      exact (hsteady hmoved.1).trans (keeps_of_careful (hcareful action rfl) leaves hmoved.2)

lemma sameFile_of_step {s : State} {c c' : Progress} {place : Place} (hsteady : c.Steady)
    (h : CarefulStep s c c') (hplace : ¬ Inside s c.now place) :
    SameFile place c.now c'.now := by
  obtain ⟨label, hstep, hcareful⟩ := h
  cases hstep with
  | call => exact SameFile.refl _ _
  | act action t known leaves =>
      exact sameFile_of_careful hsteady (hcareful action rfl) leaves hplace

/-- **Files stay inside**: an accepted path that the check is right about leads into a root; and
in a run of careful steps, what is outside the roots all the time is as it was. -/
theorem files_contained (s : State) :
    (∀ t input, (∀ base ∈ s.allowedRoots.head?, Plain s t (candidate s base input)) →
      Contained s t input) ∧
    ∀ t c place, Relation.ReflTransGen
      (fun a b => CarefulStep s a b ∧ ¬ Inside s a.now place) ⟨t, t, false⟩ c →
      SameFile place t c.now := by
  refine ⟨fun t input h => contained_of_plain h, fun t c place hrun => ?_⟩
  have hinvariant : c.Steady ∧ SameFile place t c.now := by
    induction hrun with
    | refl => exact ⟨fun _ => Tree.Keeps.refl t, SameFile.refl place t⟩
    | tail _ hstep ih =>
        exact ⟨steady_of_step ih.1 hstep.1, ih.2.trans (sameFile_of_step ih.1 hstep.1 hstep.2)⟩
  exact hinvariant.2

lemma candidate_eq {s : State} {base path : Path} (h : isAbsolute path = true) :
    candidate s base path = path := by
  rw [candidate, if_pos h, absolute, if_pos h]

/-! ### Two directories -/

def rootName : Name := ⟨"root".toList, by decide⟩

def outsideName : Name := ⟨"outside".toList, by decide⟩

def newName : Name := ⟨"new.txt".toList, by decide⟩

/-- An empty root. -/
def oneDirectory : DiskTree := Tree.set .bare rootName [] (some .directory) rfl nofun

/-- An empty root, and an empty directory beside it. -/
def twoDirectories : DiskTree :=
  Tree.set oneDirectory outsideName [] (some .directory) oneDirectory.root nofun

/-- A server with one root. -/
def plainState : State := ⟨["/root".toList], "/root".toList, by decide⟩

/-- A new file in the root. -/
def newPath : Path := "/root/new.txt".toList

lemma exact_newPath : Exact [rootName] [newName, rootName] := by
  intro front back hparts hfront hback
  have hlength : front.length < 14 := by
    have := congrArg List.length hparts
    rw [List.length_append, show (Place.behindRoot [newName, rootName]).length = 13 from rfl] at this
    omega
  have hchecked : ∀ k < 14,
      normalizePath ((Place.behindRoot [newName, rootName]).take k) =
        normalizePath (Place.behindRoot [rootName]) →
      ((Place.behindRoot [newName, rootName]).drop k).head?.all isSlash = true →
      (Place.behindRoot [newName, rootName]).take k = Place.behindRoot [rootName] ∧
        ((Place.behindRoot [newName, rootName]).drop k).head?.all (· = '/') = true := by
    decide +kernel
  rw [hparts] at hchecked
  have h := hchecked front.length hlength
  rw [List.take_left, List.drop_left] at h
  obtain ⟨hexact, hslash⟩ := h hfront (by simpa [Option.all_eq_true] using hback)
  exact ⟨hexact, by simpa [Option.all_eq_true] using hslash⟩

lemma plain_newPath : Plain plainState twoDirectories newPath := by
  intro root hroot
  obtain rfl : root = "/root".toList := by
    have hfound : rootOf plainState newPath = some "/root".toList := by decide +kernel
    rw [hfound, Option.some_inj] at hroot
    exact hroot.symm
  refine ⟨[newName, rootName], [rootName], ?_, .found (by decide +kernel), exact_newPath⟩
  exact @Grounded.missing twoDirectories newPath [[], "root".toList] [] "new.txt".toList [rootName]
    (by decide +kernel) (by decide +kernel) (by decide) nofun nofun (by decide +kernel)

/-- The tree with the file. -/
def grownTree : DiskTree :=
  Tree.set twoDirectories newName [rootName] (some (.file (.text "new".toList))) rfl nofun

lemma leaves_grownTree : (Action.write newPath).Leaves twoDirectories grownTree := by
  have hreach : twoDirectories.reach (pieces newPath) = some [newName, rootName] := by
    decide +kernel
  exact ⟨newName, [rootName], .text "new".toList, rfl, nofun, hreach, rfl⟩

theorem newPath_contained : Contained plainState twoDirectories newPath ∧
    SameFile [outsideName] twoDirectories grownTree := by
  have hresolve : resolveAllowed plainState twoDirectories (some newPath) "fs_write_file" =
      .ok (newPath, "/root".toList) := by decide +kernel
  obtain ⟨haccepted, -⟩ := accepted_of_resolveAllowed hresolve
  have hstep : CarefulStep plainState ⟨twoDirectories, twoDirectories, false⟩
      ⟨twoDirectories, grownTree, false⟩ := by
    refine ⟨some (.write newPath), .act _ (.write newPath) _ ?_ ?_, ?_⟩
    · rintro path hpath
      obtain rfl := List.mem_singleton.mp hpath
      exact ⟨_, _, _, _, hresolve, Or.inl rfl⟩
    · exact leaves_grownTree
    · rintro action haction
      cases haction
      refine ⟨fun path hpath => ?_, fun path hpath => absurd hpath List.not_mem_nil⟩
      obtain rfl := List.mem_singleton.mp hpath
      exact Or.inl ⟨rfl, haccepted, plain_newPath⟩
  have houtside : ¬ Inside plainState twoDirectories [outsideName] := by
    rintro ⟨root, hroot, base, hreach, hbase⟩
    obtain rfl := List.mem_singleton.mp hroot
    have hfound : twoDirectories.reach ((pieces "/root".toList).rdropWhile isDull) =
        some [rootName] := by decide +kernel
    rw [hfound] at hreach
    cases hreach
    exact absurd hbase (by decide +kernel)
  refine ⟨(files_contained plainState).1 twoDirectories newPath ?_,
    (files_contained plainState).2 twoDirectories ⟨twoDirectories, grownTree, false⟩ [outsideName]
      (.single ⟨hstep, houtside⟩)⟩
  rintro base hbase
  cases hbase
  rw [candidate_eq (by decide)]
  exact plain_newPath

/-- A path on which a directory is missing that `..` leaves again. -/
def escapingPath : Path := "/root/new/../../outside/new.txt".toList

/-- **Not every accepted path leads into a root.** -/
theorem not_contained : ¬ ∀ s t input, Contained s t input := by
  intro h
  have hresolve : resolveAllowed plainState twoDirectories (some escapingPath) "fs_write_file" =
      .ok (escapingPath, "/root".toList) := by decide +kernel
  have hmade : (createDirAll twoDirectories (parent escapingPath)).1 = .ok () := by decide +kernel
  have hreach : (createDirAll twoDirectories (parent escapingPath)).2.reach (pieces escapingPath) =
      some [newName, outsideName] := by decide +kernel
  have hpair : createDirAll twoDirectories (parent escapingPath) =
      (.ok (), (createDirAll twoDirectories (parent escapingPath)).2) := by
    rw [← hmade]
  obtain ⟨root, hroot, base, hbase, hinside⟩ :=
    h plainState twoDirectories escapingPath _ _ _ hresolve _ hpair _ hreach
  obtain rfl := List.mem_singleton.mp hroot
  have hfound : (createDirAll twoDirectories (parent escapingPath)).2.reach
      ((pieces "/root".toList).rdropWhile isDull) = some [rootName] := by decide +kernel
  rw [hfound] at hbase
  cases hbase
  exact absurd hinside (by decide +kernel)

/-! ### Patches -/

end Filesystem

end McpSurfaces
