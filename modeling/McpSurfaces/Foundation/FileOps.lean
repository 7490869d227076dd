import Mathlib.Logic.Function.Basic
import Mathlib.Tactic

/-!
Files, and what operations on them leave.

* A `Volume` says which file a path names, and which directories are above it. Two paths may name
  one file, as they do through linked directories or on a volume that ignores case.
* `Op.Done` is what an operation leaves that succeeds, `Op.Partial` what one may leave that fails or
  that a crash cuts short.
* `Runs`, `Stops` and `Tries` are operations that all succeed, operations of which one does not, and
  operations whose failures are ignored.
* **`Runs.frame`**: a file that no operation touches is as it was.
-/

namespace McpSurfaces

namespace FileOps

/-- What a name stands for. -/
inductive Node (κ : Type)
  | absent
  | file (content : κ)
  | directory

namespace Node

variable {κ : Type}

/-- The bytes of a file, if it is one. -/
def content : Node κ → Option κ
  | .file content => some content
  | _ => none

@[simp] lemma content_file (content : κ) : (Node.file content).content = some content := rfl

@[simp] lemma content_absent : (Node.absent : Node κ).content = none := rfl

instance : ∀ node : Node κ, Decidable (node = .absent)
  | .absent => isTrue rfl
  | .file _ => isFalse nofun
  | .directory => isFalse nofun

end Node

/-- The file that a path names, and the directories above it. -/
structure Volume (π φ : Type) where
  place : π → φ
  above : π → List φ

/-- What the files of a volume hold. -/
abbrev Disk (φ κ : Type) := φ → Node κ

/-- An operation. The outcome of `tryParents` is ignored, and `check` changes no file. -/
inductive Op (π κ : Type)
  | check
  | makeParents (path : π)
  | tryParents (path : π)
  | write (path : π) (content : κ)
  | remove (path : π)
  | removeExisting (path : π)
deriving DecidableEq

section

variable {π φ κ : Type} (v : Volume π φ)

/-- A disk with some of the directories above a path. -/
def Volume.SomeParents (path : π) (d d' : Disk φ κ) : Prop :=
  ∀ x, d' x = d x ∨ (x ∈ v.above path ∧ d x = .absent ∧ d' x = .directory)

variable {v} in
lemma Volume.SomeParents.frame {path : π} {d d' : Disk φ κ} {x : φ} (h : v.SomeParents path d d')
    (hx : x ∉ v.above path) : d' x = d x :=
  (h x).resolve_right fun hmade => hx hmade.1

variable {v} in
lemma Volume.SomeParents.directory {path : π} {d d' : Disk φ κ} {x : φ}
    (h : v.SomeParents path d d') (hx : d x = .directory) : d' x = .directory := by
  rcases h x with hsame | ⟨-, -, hmade⟩
  · rw [hsame, hx]
  · exact hmade

variable [DecidableEq φ]

/-- A disk with the directories above a path. -/
def Volume.withParents (path : π) (d : Disk φ κ) : Disk φ κ := fun x =>
  if x ∈ v.above path ∧ d x = .absent then .directory else d x

/-- The removal of a file. -/
def Volume.Removed (path : π) (d d' : Disk φ κ) : Prop :=
  (∃ content, d (v.place path) = .file content) ∧
    d' = Function.update d (v.place path) .absent

variable {v} in
/-- With no directories above a path, none are made. -/
lemma Volume.withParents_eq_self {path : π} (h : v.above path = []) (d : Disk φ κ) :
    v.withParents path d = d := by
  funext x
  rw [Volume.withParents, h]
  simp

/-- What an operation leaves that succeeds. -/
def Op.Done (op : Op π κ) (d d' : Disk φ κ) : Prop :=
  match op with
  | .check => d' = d
  | .makeParents path =>
      (∀ x ∈ v.above path, (d x).content = none) ∧ d' = v.withParents path d
  | .tryParents path => v.SomeParents path d d'
  | .write path content =>
      d (v.place path) ≠ .directory ∧ d' = Function.update d (v.place path) (.file content)
  | .remove path => v.Removed path d d'
  | .removeExisting path =>
      if d (v.place path) = .absent then d' = d else v.Removed path d d'

/-- What an operation may leave that does not succeed. A file that is written may hold anything. -/
def Op.Partial (op : Op π κ) (d d' : Disk φ κ) : Prop :=
  match op with
  | .makeParents path | .tryParents path => v.SomeParents path d d'
  | .write path _ => d' = d ∨ (d (v.place path) ≠ .directory ∧
      ∃ content, d' = Function.update d (v.place path) (.file content))
  | .check | .remove _ | .removeExisting _ => d' = d

/-- Operations that all succeed. -/
inductive Runs : List (Op π κ) → Disk φ κ → Disk φ κ → Prop
  | nil {d : Disk φ κ} : Runs [] d d
  | cons {op : Op π κ} {ops : List (Op π κ)} {d d₁ d' : Disk φ κ} (done : op.Done v d d₁)
      (rest : Runs ops d₁ d') : Runs (op :: ops) d d'

/-- Operations of which one does not succeed, and the others are not tried. -/
inductive Stops : List (Op π κ) → Disk φ κ → Disk φ κ → Prop
  | here {op : Op π κ} {ops : List (Op π κ)} {d d' : Disk φ κ} (stop : op.Partial v d d') :
      Stops (op :: ops) d d'
  | later {op : Op π κ} {ops : List (Op π κ)} {d d₁ d' : Disk φ κ} (done : op.Done v d d₁)
      (rest : Stops ops d₁ d') : Stops (op :: ops) d d'

/-- Operations whose failures are ignored: all are tried. -/
inductive Tries : List (Op π κ) → Disk φ κ → Disk φ κ → Prop
  | nil {d : Disk φ κ} : Tries [] d d
  | cons {op : Op π κ} {ops : List (Op π κ)} {d d₁ d' : Disk φ κ}
      (tried : op.Done v d d₁ ∨ op.Partial v d d₁) (rest : Tries ops d₁ d') :
      Tries (op :: ops) d d'

variable {v}

/-- The files whose contents an operation may change. -/
def Op.touches (v : Volume π φ) : Op π κ → List φ
  | .check => []
  | .makeParents path | .tryParents path => v.above path
  | .write path _ | .remove path | .removeExisting path => [v.place path]

variable {op : Op π κ} {ops : List (Op π κ)} {d d' : Disk φ κ} {x : φ}

lemma Volume.withParents_someParents (path : π) : v.SomeParents path d (v.withParents path d) := by
  intro x
  rw [Volume.withParents]
  split_ifs with hx
  · exact Or.inr ⟨hx.1, hx.2, rfl⟩
  · exact Or.inl rfl

lemma Volume.Removed.frame {path : π} (h : v.Removed path d d') (hx : x ≠ v.place path) :
    d' x = d x := by
  rw [h.2, Function.update_of_ne hx]

lemma Op.Done.frame (h : op.Done v d d') (hx : x ∉ op.touches v) : d' x = d x := by
  cases op with
  | check => exact congrFun h x
  | makeParents path =>
      obtain ⟨-, rfl⟩ := h
      exact (v.withParents_someParents path).frame hx
  | tryParents path => exact Volume.SomeParents.frame h hx
  | write path content =>
      obtain ⟨-, rfl⟩ := h
      exact Function.update_of_ne (by simpa [Op.touches] using hx) _ _
  | remove path => exact Volume.Removed.frame h (by simpa [Op.touches] using hx)
  | removeExisting path =>
      rw [Op.Done] at h
      split_ifs at h
      · exact congrFun h x
      · exact h.frame (by simpa [Op.touches] using hx)

/-- **A file that no operation touches is as it was.** -/
theorem Runs.frame (h : Runs v ops d d') (hx : ∀ op ∈ ops, x ∉ op.touches v) : d' x = d x := by
  induction h with
  | nil => rfl
  | cons done rest ih =>
      rw [ih fun op hop => hx op (List.mem_cons_of_mem _ hop), done.frame (hx _ List.mem_cons_self)]

/-! ### Directories stay -/

lemma update_directory {y : φ} {node : Node κ} (hy : d y ≠ .directory) (hx : d x = .directory) :
    Function.update d y node x = .directory := by
  rw [Function.update_of_ne, hx]
  rintro rfl
  exact hy hx

lemma Volume.Removed.directory {path : π} (h : v.Removed path d d') (hx : d x = .directory) :
    d' x = .directory := by
  obtain ⟨⟨content, hfile⟩, rfl⟩ := h
  exact update_directory (by simp [hfile]) hx

lemma Op.Done.directory (h : op.Done v d d') (hx : d x = .directory) : d' x = .directory := by
  cases op with
  | check => exact (congrFun h x).trans hx
  | makeParents path =>
      obtain ⟨-, rfl⟩ := h
      exact (v.withParents_someParents path).directory hx
  | tryParents path => exact Volume.SomeParents.directory h hx
  | write path content =>
      obtain ⟨hnot, rfl⟩ := h
      exact update_directory hnot hx
  | remove path => exact Volume.Removed.directory h hx
  | removeExisting path =>
      rw [Op.Done] at h
      split_ifs at h
      · exact (congrFun h x).trans hx
      · exact h.directory hx

lemma Op.Partial.directory (h : op.Partial v d d') (hx : d x = .directory) :
    d' x = .directory := by
  cases op with
  | check => exact (congrFun h x).trans hx
  | makeParents path => exact Volume.SomeParents.directory h hx
  | tryParents path => exact Volume.SomeParents.directory h hx
  | write path content =>
      rcases h with rfl | ⟨hnot, content', rfl⟩
      · exact hx
      · exact update_directory hnot hx
  | remove path => exact (congrFun h x).trans hx
  | removeExisting path => exact (congrFun h x).trans hx

lemma Stops.directory (h : Stops v ops d d') (hx : d x = .directory) : d' x = .directory := by
  induction h with
  | here stop => exact stop.directory hx
  | later done rest ih => exact ih (done.directory hx)

lemma Runs.directory (h : Runs v ops d d') (hx : d x = .directory) : d' x = .directory := by
  induction h with
  | nil => exact hx
  | cons done rest ih => exact ih (done.directory hx)

lemma Runs.append {ops' : List (Op π κ)} {d₁ : Disk φ κ} (h : Runs v ops d d₁)
    (h' : Runs v ops' d₁ d') : Runs v (ops ++ ops') d d' := by
  induction h with
  | nil => exact h'
  | cons done rest ih => exact .cons done (ih h')

lemma Runs.of_append {ops' : List (Op π κ)} (h : Runs v (ops ++ ops') d d') :
    ∃ d₁, Runs v ops d d₁ ∧ Runs v ops' d₁ d' := by
  induction ops generalizing d with
  | nil => exact ⟨d, .nil, h⟩
  | cons op ops ih =>
      cases h with
      | cons done rest =>
          obtain ⟨d₁, hfront, hback⟩ := ih rest
          exact ⟨d₁, .cons done hfront, hback⟩

/-- A file that is there afterwards was there, or is what some operation wrote. -/
lemma Op.Done.file {content : κ} (h : op.Done v d d') (hx : d' x = .file content) :
    d x = .file content ∨ ∃ path, op = .write path content ∧ x = v.place path := by
  have hremoved : ∀ {path : π}, v.Removed path d d' → d x = .file content := by
    rintro path ⟨-, rfl⟩
    by_cases heq : x = v.place path
    · rw [heq, Function.update_self] at hx
      cases hx
    · rwa [Function.update_of_ne heq] at hx
  have hparents : ∀ {path : π}, v.SomeParents path d d' → d x = .file content := by
    intro path hparents
    rcases hparents x with hsame | ⟨-, -, hmade⟩
    · rwa [hsame] at hx
    · rw [hmade] at hx
      cases hx
  cases op with
  | check => exact Or.inl ((congrFun h x).symm.trans hx)
  | makeParents path =>
      obtain ⟨-, rfl⟩ := h
      exact Or.inl (hparents (v.withParents_someParents path))
  | tryParents path => exact Or.inl (hparents h)
  | write path written =>
      obtain ⟨-, rfl⟩ := h
      by_cases heq : x = v.place path
      · rw [heq, Function.update_self] at hx
        cases hx
        exact Or.inr ⟨path, rfl, heq⟩
      · rw [Function.update_of_ne heq] at hx
        exact Or.inl hx
  | remove path => exact Or.inl (hremoved h)
  | removeExisting path =>
      rw [Op.Done] at h
      split_ifs at h
      · exact Or.inl ((congrFun h x).symm.trans hx)
      · exact Or.inl (hremoved h)

lemma Runs.file {content : κ} (h : Runs v ops d d') (hx : d' x = .file content) :
    d x = .file content ∨ ∃ path, .write path content ∈ ops ∧ x = v.place path := by
  induction h with
  | nil => exact Or.inl hx
  | cons done rest ih =>
      rcases ih hx with hx | ⟨path, hmem, heq⟩
      · rcases done.file hx with hx | ⟨path, rfl, heq⟩
        · exact Or.inl hx
        · exact Or.inr ⟨path, List.mem_cons_self, heq⟩
      · exact Or.inr ⟨path, List.mem_cons_of_mem _ hmem, heq⟩

end

end FileOps

end McpSurfaces
