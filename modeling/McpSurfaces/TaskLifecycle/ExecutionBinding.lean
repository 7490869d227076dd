import McpSurfaces.Filesystem.Paths
import McpSurfaces.Foundation.Fallible
import McpSurfaces.Foundation.Str

/-!
The execution binding of a task: `normalize_execution_binding`, the test of its scope
(`validate_execution_binding_scope`), and where its directories are.

* `resolve`: where the components of a path lead, with `..` resolved lexically.
* `Stays`: the directories of a binding are at the site root or below it, or the repository of a
  `.narada` site. `Leads`: behind the site root they do not climb, or come down where they
  climbed.
* **`stays_iff_leads`**: the scope that is tested keeps a binding inside its site exactly when its
  paths lead there, as long as no backslash is in them.
* `binding_outside`: `/site/../etc` is accepted for `/site`.
-/

namespace McpSurfaces

namespace TaskLifecycle

open TextLines Filesystem

/-! ### Paths -/

/-- What the paths are read against: the current directory, and the files that are there. -/
structure Host where
  current : Path
  exist : Path → Bool

/-- `Path::is_absolute`. -/
def isAbsolutePath (path : Path) : Bool := path.head? = some '/'

/-- `Path::join`, with a relative path. -/
def joinPath (root name : Path) : Path :=
  if root = [] ∨ root.getLast? = some '/' then root ++ name else root ++ '/' :: name

/-- `Path::parent` of an absolute path: what is in front of its last component and the separators
before that. -/
def parentPath (path : Path) : Option Path :=
  path.inits.find? fun above => above ≠ [] ∧ components path ≠ [] ∧
    components above = (components path).dropLast

def absolutePath (host : Host) (path : Path) : Path :=
  if isAbsolutePath path then path else joinPath host.current path

/-- `normalized_path_string`, where letters differ in case. -/
def normalizedPathString (host : Host) (path : Path) : Text :=
  ((absolutePath host path).map fun c => if c = '\\' then '/' else c).rdropWhile (· = '/')

/-- `path_within_root`. -/
def pathWithinRoot (host : Host) (candidate root : Path) : Prop :=
  normalizedPathString host candidate = normalizedPathString host root ∨
    normalizedPathString host root ++ ['/'] <+: normalizedPathString host candidate

instance (host : Host) (candidate root : Path) : Decidable (pathWithinRoot host candidate root) :=
  inferInstanceAs (Decidable (_ ∨ _))

/-! ### Bindings -/

def bindingKeys : List String :=
  ["workspace_root", "executor_kind", "executor_profile", "executor_id", "repository_root",
    "site_root", "correlation_key"]

def executorKinds : List String := ["manual", "operator", "worker_delegation", "delegated_task"]

/-- `binding_string`. -/
def bindingString (input : Map) (key : String) (required : Bool) :
    Except String (Option String) :=
  match input.get key with
  | none => .ok none
  | some value =>
      if value = .null ∧ required = false then .ok none else
      match value.asStr with
      | none => .error ("execution_binding_" ++ key ++ "_must_be_string")
      | some text =>
          if Str.trim text = "" then
            if required then .error ("execution_binding_" ++ key ++ "_required") else .ok none
          else .ok (some (Str.trim text))

/-- `absolute_binding_path`. -/
def absoluteBindingPath (value field : String) : Except String String :=
  if isAbsolutePath value.toList then .ok value else .error (field ++ "_must_be_absolute")

/-- An optional text of a binding. -/
def bindingText : Option String → Value
  | some text => .string text
  | none => .null

/-- A path of a binding that may be left out. -/
def optionalBindingPath (value : Option String) (field : String) :
    Except String (Option String) :=
  match value with
  | none => .ok none
  | some value => (absoluteBindingPath value field).map some

def checkBindingKeys (input : Map) : Except String Unit :=
  match input.keys.find? (· ∉ bindingKeys) with
  | some key => .error ("execution_binding_unknown_fields: " ++ key)
  | none => .ok ()

/-- `normalize_execution_binding`. -/
def normalizeExecutionBinding (root : String) (value : Option Value) (correlationKey : String) :
    Except String Value := do
  let input := (value.bind Value.asObject).getD []
  checkBindingKeys input
  let workspace ← bindingString input "workspace_root" true
  let workspace ← absoluteBindingPath (workspace.getD root) "execution_binding_workspace_root"
  let kind ← bindingString input "executor_kind" true
  if kind.getD "manual" ∉ executorKinds then
    throw ("execution_binding_executor_kind_invalid: " ++ kind.getD "manual")
  let key ← bindingString input "correlation_key" true
  let profile ← bindingString input "executor_profile" false
  let executor ← bindingString input "executor_id" false
  let repository ← bindingString input "repository_root" false
  let repository ← optionalBindingPath repository "execution_binding_repository_root"
  let site ← bindingString input "site_root" false
  let site ← absoluteBindingPath (site.getD root) "execution_binding_site_root"
  return .object [("workspace_root", .string workspace),
    ("executor_kind", .string (kind.getD "manual")), ("executor_profile", bindingText profile),
    ("executor_id", bindingText executor), ("repository_root", bindingText repository),
    ("site_root", .string site), ("correlation_key", .string (key.getD correlationKey))]

/-- A path under a key of a binding. -/
def bindingPath (binding : Map) (key : String) : Option Path :=
  ((binding.get key).bind Value.asStr).map String.toList

/-- The name of a contained site, up to the case of its letters. -/
def IsSiteName (name : Text) : Prop := name.map Char.toLower = ".narada".toList

instance (name : Text) : Decidable (IsSiteName name) := inferInstanceAs (Decidable (_ = _))

/-- The repository around a `.narada` site. -/
def IsRepositoryOf (host : Host) (authority path : Path) : Prop :=
  (∃ name ∈ fileName authority, IsSiteName name) ∧
    normalizedPathString host path =
      normalizedPathString host ((parentPath authority).getD authority) ∧
    (parentPath authority).any fun above => host.exist (joinPath above ".git".toList)

instance (host : Host) (authority path : Path) : Decidable (IsRepositoryOf host authority path) :=
  inferInstanceAs (Decidable ((∃ name ∈ fileName authority, IsSiteName name) ∧ _))

def Authorized (host : Host) (authority path : Path) : Prop :=
  pathWithinRoot host path authority ∨ IsRepositoryOf host authority path

instance (host : Host) (authority path : Path) : Decidable (Authorized host authority path) :=
  inferInstanceAs (Decidable (_ ∨ _))

def containedSite (siteRoot : Path) : Path := joinPath siteRoot ".narada".toList

/-- The site of a binding is the site, or the one that the repository at the site contains. -/
def OwnSite (host : Host) (siteRoot authority : Path) : Prop :=
  normalizedPathString host authority = normalizedPathString host siteRoot ∨
    normalizedPathString host authority = normalizedPathString host (containedSite siteRoot) ∧
      host.exist (joinPath siteRoot ".git".toList) ∧
      host.exist (joinPath (containedSite siteRoot) "config.json".toList)

instance (host : Host) (siteRoot authority : Path) : Decidable (OwnSite host siteRoot authority) :=
  inferInstanceAs (Decidable (_ ∨ _))

/-- `validate_execution_binding_scope`. -/
def validateExecutionBindingScope (host : Host) (binding : Value) (siteRoot : Path) :
    Except String Unit :=
  match binding.asObject with
  | none => .error "execution_binding_invalid"
  | some binding =>
      let authority := (bindingPath binding "site_root").getD siteRoot
      if ¬ OwnSite host siteRoot authority then
        .error "task_lifecycle_execution_binding_site_root_mismatch"
      else match bindingPath binding "workspace_root" with
        | none => .error "execution_binding_workspace_root_required"
        | some workspace =>
            if ¬ Authorized host authority workspace then
              .error "task_lifecycle_execution_binding_workspace_outside_site_root"
            else if ∃ repository ∈ bindingPath binding "repository_root",
                ¬ Authorized host authority repository then
              .error "task_lifecycle_execution_binding_repository_outside_site_root"
            else .ok ()

/-- The binding of a task that is created. -/
def executionBinding (host : Host) (root : String) (value : Option Value)
    (correlationKey : String) : Except String Value := do
  let binding ← normalizeExecutionBinding root value correlationKey
  validateExecutionBindingScope host binding root.toList
  return binding

/-! ### Where paths lead -/

/-- The names behind a component, with `..` resolved lexically. -/
def enter (names : List Text) (part : Text) : List Text :=
  if part = "..".toList then names.dropLast else names ++ [part]

def resolve (parts : List Text) : List Text := parts.foldl enter []

/-- Where a path leads. -/
def place (host : Host) (path : Path) : List Text := resolve (components (absolutePath host path))

/-- What a relative path does: how many names it climbs, and the names that it comes down by. -/
def climb (parts : List Text) : ℕ × List Text :=
  parts.foldl (fun (up, names) part =>
    if part = "..".toList ∧ names = [] then (up + 1, []) else (up, enter names part)) (0, [])

/-- The directories that a binding names. -/
def directories (binding : Value) : List Path :=
  ["workspace_root", "repository_root"].filterMap (bindingPath (binding.asObject.getD []))

/-- The directory around a declared site. -/
def Declared (host : Host) (site : List Text) : Prop :=
  ∃ dir name, IsSiteName name ∧ site = place host dir ++ [name] ∧
    host.exist (joinPath dir ".git".toList)

/-- A path leads to the site root or below it, or to the repository around it. -/
def Inside (host : Host) (siteRoot path : Path) : Prop :=
  place host siteRoot <+: place host path ∨
    Declared host (place host siteRoot) ∧ place host path = (place host siteRoot).dropLast

/-- All directories of a binding are where they belong. -/
def Stays (host : Host) (siteRoot : Path) (binding : Value) : Prop :=
  ∀ path ∈ directories binding, Inside host siteRoot path

/-- Behind the site root a path comes down by the names that it climbed, if it climbed; or by all
of them but that of the site. -/
def ComesDown (host : Host) (siteRoot path : Path) : Prop :=
  let site := components (absolutePath host siteRoot)
  let way := climb ((components (absolutePath host path)).drop site.length)
  let climbed := (resolve site).drop ((resolve site).length - way.1)
  climbed <+: way.2 ∨ Declared host (resolve site) ∧ climbed ≠ [] ∧ way.2 = climbed.dropLast

def Leads (host : Host) (siteRoot : Path) (binding : Value) : Prop :=
  ∀ path ∈ directories binding, ComesDown host siteRoot path

/-- No path has a backslash, which the test of the scope takes for a slash. -/
def Plain (host : Host) (siteRoot : Path) (binding : Value) : Prop :=
  '\\' ∉ host.current ∧ '\\' ∉ siteRoot ∧
    ∀ key ∈ ["workspace_root", "repository_root", "site_root"],
      ∀ path ∈ bindingPath (binding.asObject.getD []) key, '\\' ∉ path

/-! ### Components -/

lemma components_nil : components [] = [] := by decide

lemma components_append_cons (a b : Path) :
    components (a ++ '/' :: b) = components a ++ components b := by
  rw [components, List.splitOn_append_cons_self, List.filter_append]
  rfl

lemma components_joinPath (a b : Path) :
    components (joinPath a b) = components a ++ components b := by
  rw [joinPath]
  split_ifs with h
  · rcases h with rfl | hlast
    · rw [components_nil]
      rfl
    · obtain ⟨init, rfl⟩ := List.getLast?_eq_some_iff.mp hlast
      rw [List.append_assoc, List.singleton_append, components_append_cons,
        components_append_cons, components_nil, List.append_nil]
  · exact components_append_cons a b

lemma components_absolutePath (host : Host) (path : Path) :
    components (absolutePath host path) =
      (if isAbsolutePath path then [] else components host.current) ++ components path := by
  rw [absolutePath]
  split_ifs
  · rfl
  · exact components_joinPath _ _

lemma isAbsolutePath_containedSite (siteRoot : Path) :
    isAbsolutePath (containedSite siteRoot) = isAbsolutePath siteRoot := by
  rw [containedSite, joinPath]
  cases siteRoot with
  | nil => rfl
  | cons c rest => split_ifs <;> rfl

lemma components_rdropWhile (path : Path) :
    components (path.rdropWhile (· = '/')) = components path := by
  induction path using List.reverseRecOn with
  | nil => rfl
  | append_singleton init c ih =>
      by_cases hc : c = '/'
      · subst hc
        rw [List.rdropWhile_concat_pos _ _ _ (by decide), ih, components_append_cons,
          components_nil, List.append_nil]
      · rw [List.rdropWhile_concat_neg _ _ _ (by simpa using hc)]

/-- What is left of the components in a path without backslashes, when it is normalised. -/
lemma components_normalizedPathString {host : Host} {path : Path} (hcurrent : '\\' ∉ host.current)
    (hpath : '\\' ∉ path) :
    components (normalizedPathString host path) = components (absolutePath host path) := by
  have hplain : '\\' ∉ absolutePath host path := by
    rw [absolutePath, joinPath]
    split_ifs <;> simp [hcurrent, hpath]
  have hmap : ((absolutePath host path).map fun c => if c = '\\' then '/' else c) =
      absolutePath host path := by
    refine (List.map_congr_left fun c hc => ?_).trans (List.map_id _)
    have hne : c ≠ '\\' := by
      rintro rfl
      exact hplain hc
    exact if_neg hne
  rw [normalizedPathString, components_rdropWhile, hmap]

lemma components_parentPath {path above : Path} (h : parentPath path = some above) :
    components path ≠ [] ∧ components above = (components path).dropLast := by
  have hfound := List.find?_some h
  rw [decide_eq_true_eq] at hfound
  exact hfound.2

lemma parentPath_initial {path above : Path} (h : parentPath path = some above) :
    above <+: path ∧ above ≠ [] := by
  have hfound := List.find?_some h
  rw [decide_eq_true_eq] at hfound
  exact ⟨(List.mem_inits _ _).mp (List.mem_of_find?_eq_some h), hfound.1⟩

lemma isAbsolutePath_parentPath {path above : Path} (h : parentPath path = some above)
    (hpath : isAbsolutePath path) : isAbsolutePath above := by
  obtain ⟨⟨rest, rfl⟩, hne⟩ := parentPath_initial h
  cases above with
  | nil => exact absurd rfl hne
  | cons c cs => exact hpath

/-! ### What the test of the scope tells -/

section Scope

variable {host : Host} {authority path siteRoot : Path}

lemma components_of_pathWithinRoot (hcurrent : '\\' ∉ host.current) (hauth : '\\' ∉ authority)
    (hpath : '\\' ∉ path) (h : pathWithinRoot host path authority) :
    ∃ behind, components (absolutePath host path) =
      components (absolutePath host authority) ++ behind := by
  rw [← components_normalizedPathString hcurrent hauth,
    ← components_normalizedPathString hcurrent hpath]
  rcases h with h | ⟨rest, h⟩
  · exact ⟨[], by rw [h, List.append_nil]⟩
  · exact ⟨components rest, by
      rw [← h, List.append_assoc, List.singleton_append, components_append_cons]⟩

/-- The repository around a site is all of the site's path but the last name. -/
lemma components_of_isRepositoryOf (hcurrent : '\\' ∉ host.current) (hauth : '\\' ∉ authority)
    (hpath : '\\' ∉ path) (habs : isAbsolutePath authority)
    (h : IsRepositoryOf host authority path) :
    ∃ dir name, IsSiteName name ∧ host.exist (joinPath dir ".git".toList) ∧
      components (absolutePath host dir) = components (absolutePath host path) ∧
      components (absolutePath host authority) =
        components (absolutePath host path) ++ [name] := by
  obtain ⟨⟨name, hname, hsite⟩, heq, hgit⟩ := h
  cases hdir : parentPath authority with
  | none =>
      rw [hdir] at hgit
      cases hgit
  | some dir =>
  rw [hdir, Option.any_some] at hgit
  rw [hdir, Option.getD_some] at heq
  obtain ⟨hne, hcomps⟩ := components_parentPath hdir
  have hdirPlain : '\\' ∉ dir := fun hc => hauth ((parentPath_initial hdir).1.subset hc)
  have hpathDir : components (absolutePath host dir) = components (absolutePath host path) := by
    rw [← components_normalizedPathString hcurrent hdirPlain,
      ← components_normalizedPathString hcurrent hpath, heq]
  refine ⟨dir, name, hsite, hgit, hpathDir, ?_⟩
  have hdirAbs : absolutePath host dir = dir := if_pos (isAbsolutePath_parentPath hdir habs)
  have hauthAbs : absolutePath host authority = authority := if_pos habs
  rw [← hpathDir, hdirAbs, hauthAbs, hcomps]
  have hlast : (components authority).getLast? = some name :=
    (Option.mem_filter_iff.mp hname).1
  obtain ⟨init, hinit⟩ := List.getLast?_eq_some_iff.mp hlast
  rw [hinit, List.dropLast_concat]

/-- A directory that is accepted is behind the site root, or the repository around it. -/
lemma components_of_authorized (hcurrent : '\\' ∉ host.current) (hsite : '\\' ∉ siteRoot)
    (hauth : '\\' ∉ authority) (hpath : '\\' ∉ path) (habs : isAbsolutePath authority)
    (hown : OwnSite host siteRoot authority) (h : Authorized host authority path) :
    (∃ behind, components (absolutePath host path) =
      components (absolutePath host siteRoot) ++ behind) ∨
    ∃ dir name, IsSiteName name ∧ host.exist (joinPath dir ".git".toList) ∧
      components (absolutePath host dir) = components (absolutePath host path) ∧
      components (absolutePath host siteRoot) =
        components (absolutePath host path) ++ [name] := by
  have hcontained : '\\' ∉ containedSite siteRoot := by
    rw [containedSite, joinPath]
    split_ifs <;> simp [hsite]
  rcases hown with hown | ⟨hown, -, -⟩
  · have hcomps : components (absolutePath host authority) =
        components (absolutePath host siteRoot) := by
      rw [← components_normalizedPathString hcurrent hauth,
        ← components_normalizedPathString hcurrent hsite, hown]
    rcases h with h | h
    · left
      rw [← hcomps]
      exact components_of_pathWithinRoot hcurrent hauth hpath h
    · right
      rw [← hcomps]
      exact components_of_isRepositoryOf hcurrent hauth hpath habs h
  · left
    have hjoin : components (absolutePath host (containedSite siteRoot)) =
        components (absolutePath host siteRoot) ++ [".narada".toList] := by
      rw [components_absolutePath, components_absolutePath, isAbsolutePath_containedSite,
        containedSite, components_joinPath, List.append_assoc]
      rfl
    have hcomps : components (absolutePath host authority) =
        components (absolutePath host siteRoot) ++ [".narada".toList] := by
      rw [← hjoin, ← components_normalizedPathString hcurrent hauth,
        ← components_normalizedPathString hcurrent hcontained, hown]
    rcases h with h | h
    · obtain ⟨behind, hbehind⟩ := components_of_pathWithinRoot hcurrent hauth hpath h
      exact ⟨".narada".toList :: behind, by rw [hbehind, hcomps, List.append_assoc]; rfl⟩
    · obtain ⟨dir, name, -, -, -, hname⟩ :=
        components_of_isRepositoryOf hcurrent hauth hpath habs h
      refine ⟨[], ?_⟩
      rw [List.append_nil]
      exact (List.append_inj' (hname.symm.trans hcomps) rfl).1

end Scope

/-! ### Where accepted paths lead -/

section Ways

lemma enter_up (names : List Text) : enter names "..".toList = names.dropLast := if_pos rfl

lemma enter_name {names : List Text} {part : Text} (h : part ≠ "..".toList) :
    enter names part = names ++ [part] := if_neg h

lemma foldl_enter (names parts : List Text) :
    parts.foldl enter names =
      names.take (names.length - (climb parts).1) ++ (climb parts).2 := by
  induction parts using List.reverseRecOn with
  | nil => simp [climb]
  | append_singleton init part ih =>
      rw [List.foldl_append, ih]
      have hclimb : climb (init ++ [part]) =
          if part = "..".toList ∧ (climb init).2 = [] then ((climb init).1 + 1, [])
          else ((climb init).1, enter (climb init).2 part) := by
        rw [climb, List.foldl_append]
        rfl
      rw [hclimb]
      by_cases hup : part = "..".toList
      · subst hup
        by_cases hnil : (climb init).2 = []
        · rw [if_pos ⟨rfl, hnil⟩, hnil, List.append_nil, List.append_nil, List.foldl_cons,
            List.foldl_nil, enter_up, List.dropLast_eq_take, List.take_take, List.length_take]
          congr 1
          omega
        · rw [if_neg fun h => hnil h.2, List.foldl_cons, List.foldl_nil, enter_up, enter_up,
            List.dropLast_append_of_ne_nil hnil]
      · rw [if_neg fun h => hup h.1, List.foldl_cons, List.foldl_nil, enter_name hup,
          enter_name hup, List.append_assoc]

lemma resolve_append (names parts : List Text) :
    resolve (names ++ parts) = (resolve names).take ((resolve names).length - (climb parts).1) ++
      (climb parts).2 := by
  rw [resolve, List.foldl_append]
  exact foldl_enter _ _

variable {host : Host} {siteRoot path : Path}

/-- A path behind the site root is inside exactly when it comes down where it climbed. -/
lemma inside_iff_of_behind {behind : List Text} (h : components (absolutePath host path) =
      components (absolutePath host siteRoot) ++ behind) :
    Inside host siteRoot path ↔ ComesDown host siteRoot path := by
  have hdrop : (components (absolutePath host path)).drop
      (components (absolutePath host siteRoot)).length = behind := by
    rw [h, List.drop_left]
  rw [Inside, ComesDown, hdrop, place, place, h, resolve_append]
  generalize resolve (components (absolutePath host siteRoot)) = site
  obtain ⟨up, names⟩ := climb behind
  generalize hk : site.length - up = k
  have hsite : site = site.take k ++ site.drop k := (List.take_append_drop k site).symm
  have hbelow : site.take k ++ site.drop k <+: site.take k ++ names ↔ site.drop k <+: names :=
    List.prefix_append_right_inj _
  rw [List.take_append_drop] at hbelow
  refine or_congr hbelow (and_congr_right fun hdeclared => ?_)
  obtain ⟨dir, name, -, hname, -⟩ := hdeclared
  cases hclimbed : site.drop k with
  | nil =>
      have htake : site.take k = site := by rw [hsite, hclimbed, List.append_nil, List.take_take,
        Nat.min_self]
      constructor
      · intro heq
        have hlength := congrArg List.length heq
        rw [htake, List.length_append, List.length_dropLast, hname, List.length_append] at hlength
        simp at hlength
        omega
      · intro heq
        exact absurd rfl heq.1
  | cons first rest =>
      have hlast : site.dropLast = site.take k ++ (first :: rest).dropLast := by
        conv_lhs => rw [hsite, hclimbed]
        exact List.dropLast_append_of_ne_nil (List.cons_ne_nil _ _)
      rw [hlast, List.append_cancel_left_eq]
      exact (and_iff_right (List.cons_ne_nil _ _)).symm

/-- The repository around a site is inside, and is reached without a climb. -/
lemma inside_of_repository {dir : Path} {name : Text} (hname : IsSiteName name)
    (hgit : host.exist (joinPath dir ".git".toList))
    (hdir : components (absolutePath host dir) = components (absolutePath host path))
    (h : components (absolutePath host siteRoot) = components (absolutePath host path) ++ [name]) :
    Inside host siteRoot path ∧ ComesDown host siteRoot path := by
  have hup : name ≠ "..".toList := by
    rintro rfl
    exact absurd hname (by decide)
  have hsite : place host siteRoot = place host path ++ [name] := by
    rw [place, place, h, resolve, List.foldl_append, List.foldl_cons, List.foldl_nil,
      enter_name hup]
    rfl
  constructor
  · refine .inr ⟨⟨dir, name, hname, ?_, hgit⟩, by rw [hsite, List.dropLast_concat]⟩
    rw [hsite, place, place, hdir]
  · left
    have hdrop : (components (absolutePath host path)).drop
        (components (absolutePath host siteRoot)).length = [] := by
      rw [h, List.length_append]
      exact List.drop_eq_nil_of_le (Nat.le_add_right _ _)
    rw [hdrop]
    have hclimb : climb [] = (0, []) := rfl
    rw [hclimb, Nat.sub_zero, List.drop_length]

end Ways

/-- The site of a binding is absolute. -/
lemma siteRoot_of_normalizeExecutionBinding {root : String} {value : Option Value} {key : String}
    {binding : Value} (h : normalizeExecutionBinding root value key = .ok binding) :
    ∃ site, bindingPath (binding.asObject.getD []) "site_root" = some site ∧
      isAbsolutePath site := by
  obtain ⟨_, -, h⟩ := Lists.bind_eq_ok h
  obtain ⟨_, -, h⟩ := Lists.bind_eq_ok h
  obtain ⟨_, -, h⟩ := Lists.bind_eq_ok h
  obtain ⟨_, -, h⟩ := Lists.bind_eq_ok h
  obtain ⟨-, h⟩ := guard_ok h
  obtain ⟨_, -, h⟩ := Lists.bind_eq_ok h
  obtain ⟨_, -, h⟩ := Lists.bind_eq_ok h
  obtain ⟨_, -, h⟩ := Lists.bind_eq_ok h
  obtain ⟨_, -, h⟩ := Lists.bind_eq_ok h
  obtain ⟨_, -, h⟩ := Lists.bind_eq_ok h
  obtain ⟨text, -, h⟩ := Lists.bind_eq_ok h
  obtain ⟨site, hsite, h⟩ := Lists.bind_eq_ok h
  obtain rfl := Except.ok.inj h
  rw [absoluteBindingPath] at hsite
  split_ifs at hsite with habs
  obtain rfl := Except.ok.inj hsite
  exact ⟨_, rfl, habs⟩

/-- What a scope that is accepted tells of the directories. -/
lemma authorized_of_validate {host : Host} {binding : Value} {siteRoot site : Path}
    (hsite : bindingPath (binding.asObject.getD []) "site_root" = some site)
    (h : validateExecutionBindingScope host binding siteRoot = .ok ()) :
    OwnSite host siteRoot site ∧ ∀ path ∈ directories binding, Authorized host site path := by
  rw [validateExecutionBindingScope] at h
  cases hobject : binding.asObject with
  | none =>
      rw [hobject] at h
      cases h
  | some fields =>
  rw [hobject, Option.getD_some] at hsite
  simp only [hobject, hsite, Option.getD_some] at h
  by_cases hown : OwnSite host siteRoot site
  swap
  · rw [if_pos hown] at h
    cases h
  rw [if_neg (not_not.mpr hown)] at h
  cases hwork : bindingPath fields "workspace_root" with
  | none =>
      rw [hwork] at h
      cases h
  | some workspace =>
  simp only [hwork] at h
  split_ifs at h with hworkspace hrepository
  refine ⟨hown, ?_⟩
  intro path hpath
  rw [directories, hobject, List.mem_filterMap] at hpath
  obtain ⟨key, hkey, hpath⟩ := hpath
  rcases List.mem_pair.mp hkey with rfl | rfl
  · obtain rfl := Option.some.inj (hwork.symm.trans hpath)
    exact hworkspace
  · exact not_not.mp fun hnot => hrepository ⟨path, hpath, hnot⟩

instance (host : Host) (siteRoot : Path) (binding : Value) :
    Decidable (Plain host siteRoot binding) :=
  inferInstanceAs (Decidable (_ ∧ _ ∧ _))

/-- **The directories of a binding that is accepted stay inside the site exactly when their paths
lead there**, as long as no path has a backslash. -/
theorem stays_iff_leads {host : Host} {root : String} {value : Option Value} {key : String}
    {binding : Value} (h : executionBinding host root value key = .ok binding)
    (hplain : Plain host root.toList binding) :
    Stays host root.toList binding ↔ Leads host root.toList binding := by
  obtain ⟨_, hnormal, h⟩ := Lists.bind_eq_ok h
  obtain ⟨_, hscope, h⟩ := Lists.bind_eq_ok h
  obtain rfl := Except.ok.inj h
  obtain ⟨site, hsite, habs⟩ := siteRoot_of_normalizeExecutionBinding hnormal
  obtain ⟨hown, hauthorized⟩ := authorized_of_validate hsite hscope
  obtain ⟨hcurrent, hroot, hpaths⟩ := hplain
  refine forall₂_congr fun path hpath => ?_
  obtain ⟨name, hname, hget⟩ := List.mem_filterMap.mp hpath
  have hclean : '\\' ∉ path :=
    hpaths name (by rcases List.mem_pair.mp hname with rfl | rfl <;> decide) path hget
  rcases components_of_authorized hcurrent hroot (hpaths "site_root" (by decide) site hsite) hclean
    habs hown (hauthorized path hpath) with ⟨behind, hbehind⟩ | ⟨dir, last, hlast, hgit, hdir, hrep⟩
  · exact inside_iff_of_behind hbehind
  · obtain ⟨hin, hcomes⟩ := inside_of_repository hlast hgit hdir hrep
    exact iff_of_true hin hcomes

/-- A host with no repository at its site. -/
def bareHost : Host := ⟨"/".toList, fun _ => false⟩

/-- The binding that a workspace makes under `/site`. -/
def workspaceBinding (workspace : String) : Value :=
  .object [("workspace_root", .string workspace), ("executor_kind", .string "manual"),
    ("executor_profile", .null), ("executor_id", .null), ("repository_root", .null),
    ("site_root", .string "/site"), ("correlation_key", .string "k")]

/-- A workspace below the site, and its way. -/
theorem stays_below : Stays bareHost "/site".toList (workspaceBinding "/site/a/../b") := by
  have haccepted : executionBinding bareHost "/site"
      (some (.object [("workspace_root", .string "/site/a/../b")])) "k" =
      .ok (workspaceBinding "/site/a/../b") := by decide
  refine (stays_iff_leads haccepted (by decide)).mpr fun path hpath => .inl ?_
  obtain rfl : path = "/site/a/../b".toList := List.mem_singleton.mp hpath
  decide

/-- A workspace that climbs out of the site is accepted. -/
theorem binding_outside :
    ¬ ∀ (host : Host) (root : String) (value : Option Value) (key : String) (binding : Value),
      executionBinding host root value key = .ok binding → Stays host root.toList binding := by
  intro h
  have haccepted : executionBinding bareHost "/site"
      (some (.object [("workspace_root", .string "/site/../etc")])) "k" =
      .ok (workspaceBinding "/site/../etc") := by decide
  rcases h _ _ _ _ _ haccepted "/site/../etc".toList (by decide) with hbelow | ⟨hdeclared, -⟩
  · exact absurd hbelow (by decide)
  · obtain ⟨_, _, -, -, hgit⟩ := hdeclared
    cases hgit

end TaskLifecycle

end McpSurfaces
