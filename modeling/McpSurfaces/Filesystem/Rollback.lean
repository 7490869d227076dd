import McpSurfaces.Filesystem.Planning

/-!
What `rollback_planned_patch` leaves behind a patch that failed.

* `FailedPatch` is a patch that fails somewhere, and is rolled back by writes and removals that
  all succeed.
* `restores_of_runs`: the rollback gives every file back that it restores.
* **`rollback_restores_iff`**: the files of a patch are as they were exactly if those that the
  rollback passes over are.
-/

namespace McpSurfaces

namespace Filesystem

open TextLines FileOps Lists

variable {φ : Type}

/-- Every path that is read as a file has directories above it. -/
def Rooted (v : Volume Path φ) (d : Disk φ) : Prop :=
  ∀ path content, d (v.place path) = .file content → ∀ x ∈ v.above path, d x = .directory

section

variable [DecidableEq φ]

/-- A patch that fails: it is planned on the disk `d₀`, some operation of it does not succeed, which
leaves `d₁`, and the rollback leaves `d₂`. -/
structure FailedPatch (s : Surface φ) where
  args : Value
  patch : Text
  deadline : Deadline
  plans : List PlannedPatch
  (d₀ d₁ d₂ : Disk φ)
  rooted : Rooted s.volume d₀
  planned : planPatch s d₀ args patch deadline = .ok plans
  failed : Stops s.volume (applyOps plans) d₀ d₁
  rolledBack : Runs s.volume (rollbackOps plans) d₁ d₂

end

/-- The files that the rollback of a section restores. -/
def PlannedPatch.restored (v : Volume Path φ) (plan : PlannedPatch) : List φ :=
  v.place plan.source ::
    if samePath plan.source plan.target then [] else [v.place plan.target]

/-- The files that the rollback of some sections restores. -/
def restored (v : Volume Path φ) (plans : List PlannedPatch) : List φ :=
  plans.flatMap (PlannedPatch.restored v)

lemma restored_cons (v : Volume Path φ) (plan : PlannedPatch) (plans : List PlannedPatch) :
    restored v (plan :: plans) = plan.restored v ++ restored v plans :=
  List.flatMap_cons

lemma mem_restored_source (v : Volume Path φ) {plan : PlannedPatch} {plans : List PlannedPatch}
    (h : plan ∈ plans) : v.place plan.source ∈ restored v plans :=
  List.mem_flatMap.mpr ⟨plan, h, List.mem_cons_self⟩

lemma mem_restored_target (v : Volume Path φ) {plan : PlannedPatch} {plans : List PlannedPatch}
    (h : plan ∈ plans) (hother : ¬ samePath plan.source plan.target) :
    v.place plan.target ∈ restored v plans := by
  refine List.mem_flatMap.mpr ⟨plan, h, ?_⟩
  rw [PlannedPatch.restored, if_neg hother]
  simp

variable {s : Surface φ} {d₀ d d' : Disk φ} {plan : PlannedPatch} {plans : List PlannedPatch}

/-- What a section was planned on. -/
lemma Planned.before_eq {file : ParsedPatchFile} (h : Planned s d₀ file plan) :
    d₀ (s.volume.place plan.source) ≠ .directory ∧
      plan.before = (d₀ (s.volume.place plan.source)).content :=
  readExisting_ok.mp h.before

lemma Planned.targetBefore_eq {file : ParsedPatchFile} (h : Planned s d₀ file plan)
    (hother : ¬ samePath plan.source plan.target) :
    d₀ (s.volume.place plan.target) ≠ .directory ∧
      plan.targetBefore = (d₀ (s.volume.place plan.target)).content := by
  have htarget := h.targetBefore
  rw [readTarget, if_neg hother] at htarget
  exact readExisting_ok.mp htarget

/-- The files that a section restores are no directories. -/
lemma Planned.not_directory {file : ParsedPatchFile} (h : Planned s d₀ file plan) {x : φ}
    (hx : x ∈ plan.restored s.volume) : d₀ x ≠ .directory := by
  rw [PlannedPatch.restored] at hx
  split_ifs at hx with hsame
  · obtain rfl := List.mem_singleton.mp hx
    exact h.before_eq.1
  · rcases List.mem_cons.mp hx with rfl | hx
    · exact h.before_eq.1
    · obtain rfl := List.mem_singleton.mp hx
      exact (h.targetBefore_eq hsame).1

/-- Restoring a file may make directories above it, which are there. -/
lemma someParents_of_rooted (hrooted : Rooted s.volume d₀) {path : Path} {content : Content} {x : φ}
    (hfile : d₀ (s.volume.place path) = .file content) (hx : d₀ x ≠ .directory)
    (h : s.volume.SomeParents path d d') : d' x = d x :=
  h.frame fun habove => hx (hrooted path content hfile x habove)

variable [DecidableEq φ]

/-! ### One file -/

lemma removedExisting_frame {path : Path}
    (h : (Op.removeExisting path : Op Path Content).Done s.volume d d')
    (hx : x ≠ s.volume.place path) : d' x = d x :=
  h.frame (by simpa [Op.touches] using hx)

/-- **A file is restored**, and no other one that was no directory changes. -/
lemma restoreOps_runs (hrooted : Rooted s.volume d₀) {path : Path}
    (hpath : d₀ (s.volume.place path) ≠ .directory)
    (h : Runs s.volume (restoreOps path (d₀ (s.volume.place path)).content) d d') :
    d' (s.volume.place path) = d₀ (s.volume.place path) ∧
      ∀ x, x ≠ s.volume.place path → d₀ x ≠ .directory → d' x = d x := by
  cases hnode : d₀ (s.volume.place path) with
  | directory => exact absurd hnode hpath
  | absent =>
      rw [hnode] at h
      cases h with
      | cons done rest =>
          cases rest
          refine ⟨?_, fun x hx _ => removedExisting_frame done hx⟩
          rw [Op.Done] at done
          split_ifs at done with habsent
          · rw [done, habsent]
          · rw [done.2, Function.update_self]
  | file content =>
      rw [hnode] at h
      cases h with
      | cons parents rest =>
          cases rest with
          | cons written rest =>
              cases rest
              obtain ⟨-, rfl⟩ := written
              refine ⟨Function.update_self _ _ _, fun x hx hdirectory => ?_⟩
              rw [Function.update_of_ne hx]
              exact someParents_of_rooted hrooted hnode hdirectory parents

/-! ### All sections -/

/-- **A section is rolled back**: its files are restored, and no others change. -/
lemma rollbackOps_runs (hrooted : Rooted s.volume d₀) {file : ParsedPatchFile}
    (hplan : Planned s d₀ file plan) (h : Runs s.volume plan.rollbackOps d d') {x : φ}
    (hx : d₀ x ≠ .directory) :
    d' x = if x ∈ plan.restored s.volume then d₀ x else d x := by
  obtain ⟨hsource, hbefore⟩ := hplan.before_eq
  rw [PlannedPatch.rollbackOps, hbefore] at h
  obtain ⟨d₁, hfront, hback⟩ := h.of_append
  obtain ⟨hsourceBack, hothers⟩ := restoreOps_runs hrooted hsource hfront
  have hfirst : d₁ x = if x = s.volume.place plan.source then d₀ x else d x := by
    split_ifs with hx'
    · rw [hx', hsourceBack]
    · exact hothers x hx' hx
  rw [PlannedPatch.restored]
  by_cases hsame : samePath plan.source plan.target
  · rw [if_pos hsame] at hback ⊢
    cases hback
    simpa using hfirst
  · rw [if_neg hsame] at hback ⊢
    obtain ⟨htarget, htargetBefore⟩ := hplan.targetBefore_eq hsame
    rw [htargetBefore] at hback
    obtain ⟨htargetBack, hothers'⟩ := restoreOps_runs hrooted htarget hback
    by_cases hx' : x = s.volume.place plan.target
    · rw [if_pos (by simp [hx']), hx', htargetBack]
    · rw [hothers' x hx' hx, hfirst]
      simp [hx']

/-- **The rollback gives every file back that it restores**, and changes no others. -/
theorem restores_of_runs (hrooted : Rooted s.volume d₀)
    (hplans : ∀ plan ∈ plans, ∃ file, Planned s d₀ file plan) {x : φ} (hx : d₀ x ≠ .directory) :
    ∀ {d d' : Disk φ}, Runs s.volume (plans.flatMap PlannedPatch.rollbackOps) d d' →
      d' x = if x ∈ restored s.volume plans then d₀ x else d x := by
  induction plans with
  | nil =>
      intro d d' h
      cases h
      simp [restored]
  | cons plan plans ih =>
      intro d d' h
      obtain ⟨file, hplan⟩ := hplans plan List.mem_cons_self
      rw [List.flatMap_cons] at h
      obtain ⟨d₁, hfront, hback⟩ := h.of_append
      rw [ih (fun p hp => hplans p (List.mem_cons_of_mem _ hp)) hback,
        rollbackOps_runs hrooted hplan hfront hx, restored_cons]
      by_cases hmem : x ∈ restored s.volume plans
      · simp [hmem]
      · simp [hmem]

/-! ### What is left -/

namespace FailedPatch

/-- Every file that a section names is there exactly if it was, with the bytes that it had. -/
def LeavesFiles (f : FailedPatch s) : Prop :=
  ∀ plan ∈ f.plans, ∀ path, path = plan.source ∨ path = plan.target →
    f.d₂ (s.volume.place path) = f.d₀ (s.volume.place path)

/-- The files that the rollback passes over are as they were when the patch failed: the targets that
are compared as their sources, and are no file that it restores. -/
def Untouched (f : FailedPatch s) : Prop :=
  ∀ plan ∈ f.plans, samePath plan.source plan.target →
    s.volume.place plan.target ∉ restored s.volume f.plans →
      f.d₁ (s.volume.place plan.target) = f.d₀ (s.volume.place plan.target)

/-- **A failed patch leaves the files as they were** exactly if those that the rollback passes over
were not touched before it failed. -/
theorem rollback_restores_iff (f : FailedPatch s) : f.LeavesFiles ↔ f.Untouched := by
  obtain ⟨files, -, hfiles⟩ := planned_of_planPatch f.planned
  have hplanned : ∀ plan ∈ f.plans.reverse, ∃ file, Planned s f.d₀ file plan := by
    intro plan hplan
    obtain ⟨file, -, h⟩ := exists_related hfiles.flip (List.mem_reverse.mp hplan)
    exact ⟨file, h⟩
  have hmem : ∀ x, x ∈ restored s.volume f.plans.reverse ↔ x ∈ restored s.volume f.plans := by
    intro x
    simp only [restored, List.mem_flatMap, List.mem_reverse]
  have hrestores : ∀ x, f.d₀ x ≠ .directory →
      f.d₂ x = if x ∈ restored s.volume f.plans then f.d₀ x else f.d₁ x := by
    intro x hx
    rw [restores_of_runs f.rooted hplanned hx f.rolledBack]
    simp only [hmem]
  have hdirectory : ∀ x ∈ restored s.volume f.plans, f.d₀ x ≠ .directory := by
    intro x hx
    obtain ⟨plan, hplan, hx⟩ := List.mem_flatMap.mp hx
    obtain ⟨file, h⟩ := hplanned plan (List.mem_reverse.mpr hplan)
    exact h.not_directory hx
  have hrestored : ∀ x ∈ restored s.volume f.plans, f.d₂ x = f.d₀ x := fun x hx => by
    rw [hrestores x (hdirectory x hx), if_pos hx]
  constructor
  · intro hleaves plan hplan hsame hpassed
    by_cases hnode : f.d₀ (s.volume.place plan.target) = .directory
    · rw [f.failed.directory hnode, hnode]
    · rw [← hleaves plan hplan plan.target (Or.inr rfl), hrestores _ hnode, if_neg hpassed]
  · rintro huntouched plan hplan path (rfl | rfl)
    · exact hrestored _ (mem_restored_source s.volume hplan)
    · by_cases hpassed : s.volume.place plan.target ∈ restored s.volume f.plans
      · exact hrestored _ hpassed
      have hsame : samePath plan.source plan.target := by
        by_contra hother
        exact hpassed (mem_restored_target s.volume hplan hother)
      have hd₁ := huntouched plan hplan hsame hpassed
      by_cases hnode : f.d₀ (s.volume.place plan.target) = .directory
      · rw [f.rolledBack.directory (hd₁.trans hnode), hnode]
      · rw [hrestores _ hnode, if_neg hpassed, hd₁]

/-- The characters of bytes, with a letter for each kind, as their digest. -/
def plainDigest : Content → Text
  | .text chars => 't' :: chars
  | .binary bytes => 'b' :: bytes.map fun byte => Char.ofNat byte.toNat

/-- A surface whose paths are files of their own below one root. -/
def plainSurface : Surface Path where
  volume := ⟨id, fun _ => []⟩
  resolve name := .ok (if startsWith name "/" then name else "/root/".toList ++ name, "/root".toList)
  resolve_resolved := by
    intro name path root path' root' h h'
    have habsolute : startsWith path "/" := by
      cases h
      split_ifs with hname
      · exact hname
      · rfl
    simp only [habsolute, if_true, Except.ok.injEq, Prod.mk.injEq] at h'
    exact h'.1.symm
  sha256 := plainDigest
  readFailure _ := "Is a directory (os error 21)"

/-- A disk with one file. -/
def soleFile (text : String) : Disk Path := fun path =>
  if path = "/root/a.txt".toList then .file (.text text.toList) else .absent

lemma soleFile_ne_directory (text : String) (path : Path) : soleFile text path ≠ .directory := by
  rw [soleFile]
  split_ifs <;> nofun

/-- What a file becomes that is moved to its name in capitals. -/
def movedPlan : PlannedPatch where
  parsed := {
    oldPath := some "a.txt".toList
    newPath := some "a.txt".toList
    moveTo := some "A.txt".toList
    delete := false
    hunks := [⟨none, [('-', "a".toList), ('+', "b".toList)]⟩] }
  source := "/root/a.txt".toList
  target := "/root/A.txt".toList
  root := "/root".toList
  before := some (.text "a\n".toList)
  targetBefore := some (.text "a\n".toList)
  after := some (.text "b\n".toList)

/-- A move to the name in capitals that fails behind the write, when its audit record is written. -/
def failedMove : FailedPatch plainSurface where
  args := .object []
  patch := ("*** Begin Patch\n*** Update File: a.txt\n*** Move to: A.txt\n@@\n-a\n+b\n" ++
    "*** End Patch").toList
  deadline := ⟨10000, fun _ => false⟩
  plans := [movedPlan]
  d₀ := soleFile "a\n"
  d₁ := Function.update (soleFile "a\n") "/root/A.txt".toList (.file (.text "b\n".toList))
  d₂ := Function.update
    (Function.update (soleFile "a\n") "/root/A.txt".toList (.file (.text "b\n".toList)))
    "/root/a.txt".toList (.file (.text "a\n".toList))
  rooted := fun _ _ _ _ hx => absurd hx List.not_mem_nil
  planned := by decide +kernel
  failed := by
    have hops : applyOps [movedPlan] = [.check, .makeParents movedPlan.target,
        .write movedPlan.target (.text "b\n".toList), .check] := by decide +kernel
    rw [hops]
    refine .later rfl (.later ⟨fun _ hx => absurd hx List.not_mem_nil, ?_⟩
      (.later ⟨soleFile_ne_directory _ _, rfl⟩ (.here rfl)))
    exact (plainSurface.volume.withParents_eq_self rfl _).symm
  rolledBack := by
    have hops : rollbackOps [movedPlan] = [.tryParents movedPlan.source,
        .write movedPlan.source (.text "a\n".toList)] := by decide +kernel
    rw [hops]
    refine .cons (fun x => Or.inl rfl) (.cons ⟨?_, rfl⟩ .nil)
    rw [Function.update_of_ne (by decide +kernel)]
    exact soleFile_ne_directory _ _

/-- **Not every failed patch leaves the files as they were**: the file in capitals stays. -/
theorem not_leavesFiles : ¬ ∀ f : FailedPatch plainSurface, f.LeavesFiles := by
  intro h
  have hstays := h failedMove movedPlan List.mem_cons_self _ (Or.inr rfl)
  have hd₂ : failedMove.d₂ = Function.update
      (Function.update (soleFile "a\n") "/root/A.txt".toList (.file (.text "b\n".toList)))
      "/root/a.txt".toList (.file (.text "a\n".toList)) := rfl
  have hd₀ : failedMove.d₀ = soleFile "a\n" := rfl
  have htarget : plainSurface.volume.place movedPlan.target = "/root/A.txt".toList := rfl
  rw [hd₂, hd₀, htarget, Function.update_of_ne (by decide +kernel), Function.update_self, soleFile,
    if_neg (by decide +kernel)] at hstays
  cases hstays

end FailedPatch

end Filesystem

end McpSurfaces
