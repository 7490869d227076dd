import McpSurfaces.Filesystem.Rollback
import McpSurfaces.Filesystem.UnifiedApply

/-!
What a patch of several sections means.

* `OneByOne` applies sections as patches of their own, each planned on what the ones before it left.
* `added_exactly`: a section that adds a file to an empty place leaves the lines that it adds.
* **`patched_means_sequence`**: a patch whose sections are independent, and which adds files to
  empty places, means the sequence of its sections.
-/

namespace McpSurfaces

namespace Filesystem

open TextLines FileOps Lists

section

variable {φ : Type} [DecidableEq φ]

/-- Sections that are applied one at a time, each as a patch of its own. -/
inductive OneByOne (s : Surface φ) : List ParsedPatchFile → Disk φ → Disk φ → Prop
  | nil {d : Disk φ} : OneByOne s [] d d
  | cons {file : ParsedPatchFile} {files : List ParsedPatchFile} {plan : PlannedPatch}
      {deadline : Deadline} {d d₁ d' : Disk φ}
      (planned : planFiles s d [] deadline 0 [file] = .ok ([plan], []))
      (applied : Runs s.volume (applyOps [plan]) d d₁) (rest : OneByOne s files d₁ d') :
      OneByOne s (file :: files) d d'

/-- A patch that is reported as patched. -/
structure PatchedCall (s : Surface φ) where
  args : Value
  patch : Text
  deadline : Deadline
  files : List ParsedPatchFile
  plans : List PlannedPatch
  (d d' : Disk φ)
  parsed : parsePatch patch = .ok files
  planned : planPatch s d args patch deadline = .ok plans
  applied : Runs s.volume (applyOps plans) d d'
  fits : ∀ file ∈ files, (file.hunks.flatMap ParsedPatchHunk.lines).length < 2 ^ 63

end

/-! ### Sections again -/

section Again

variable {φ : Type} {s : Surface φ} {d d' : Disk φ} {file : ParsedPatchFile} {plan : PlannedPatch}

/-- A file that can be read, if there is one, and is not too large. -/
def Readable (node : Node Content) : Prop :=
  node ≠ .directory ∧ ∀ content, node = .file content → content.size ≤ maxTextMutationBytes

lemma checkSize_ok {code : String} {path : Path} {node : Node Content} :
    checkSize code path node = .ok () ↔
      ∀ content, node = .file content → content.size ≤ maxTextMutationBytes := by
  rw [checkSize]
  cases node <;> simp [Node.content]

/-- What a patch makes of bytes is a text. -/
lemma text_of_applyPatchContent {before content : Content} {hunks : List ParsedPatchHunk}
    {deleting : Bool} (h : applyPatchContent before hunks deleting = .ok content) :
    (∃ text, before = .text text) ∧ ∃ text, content = .text text := by
  cases before with
  | binary bytes => cases h
  | text text =>
      refine ⟨⟨text, rfl⟩, ?_⟩
      rw [applyPatchContent] at h
      obtain ⟨p, -, h⟩ := bind_eq_ok h
      dsimp only at h
      split_ifs at h <;> cases h <;> exact ⟨_, rfl⟩

/-- What a section leaves is a text, and it leaves nothing exactly if it deletes. -/
lemma Planned.after_text (h : Planned s d file plan) :
    (plan.after = none ↔ file.delete) ∧ ∀ content ∈ plan.after, ∃ text, content = .text text := by
  obtain ⟨content, hcontent, hafter⟩ := h.after
  rw [hafter]
  cases hdelete : file.delete
  · exact ⟨by simp, by simpa using (text_of_applyPatchContent hcontent).2⟩
  · exact ⟨by simp, by simp⟩

/-- What the source of a section must hold to be planned as before: what it held, or, when it is
deleted without a look at its lines, any text. -/
def SourceAgain (d d' : Disk φ) (file : ParsedPatchFile) (x : φ) : Prop :=
  d' x = d x ∨ (file.delete ∧ file.hunks = [] ∧
    ∃ text, d' x = .file (.text text) ∧ Content.size (.text text) ≤ maxTextMutationBytes)

/-- **A section is planned as before** on a disk that has its source as before. -/
theorem Planned.again (h : Planned s d file plan)
    (hsource : SourceAgain d d' file (s.volume.place plan.source))
    (htarget : ¬ samePath plan.source plan.target → Readable (d' (s.volume.place plan.target))) :
    ∃ plan', Planned s d' file plan' ∧ plan'.applyOps = plan.applyOps := by
  obtain ⟨hnode, hbefore⟩ := readExisting_ok.mp h.before
  have hreadable : Readable (d' (s.volume.place plan.source)) := by
    rcases hsource with hsame | ⟨-, -, text, htext, hsize⟩
    · rw [hsame]
      exact ⟨hnode, checkSize_ok.mp h.sourceSize⟩
    · rw [htext]
      exact ⟨nofun, by rintro content ⟨⟩; exact hsize⟩
  have hfound : file.oldPath.isSome → (d' (s.volume.place plan.source)).content ≠ none := by
    intro hold
    rcases hsource with hsame | ⟨-, -, text, htext, -⟩
    · rw [hsame, ← hbefore]
      exact h.found hold
    · simp [htext]
  have hafter : ∃ content, applyPatchContent
      ((d' (s.volume.place plan.source)).content.getD (.text [])) file.hunks file.delete =
        .ok content ∧ plan.after = if file.delete then none else some content := by
    rcases hsource with hsame | ⟨hdelete, hhunks, text, htext, -⟩
    · rw [hsame, ← hbefore]
      exact h.after
    · obtain ⟨content, -, hafter⟩ := h.after
      rw [htext, hhunks, hdelete]
      exact ⟨.text [], rfl, by rw [hafter, if_pos hdelete, if_pos rfl]⟩
  refine ⟨{ plan with
    before := (d' (s.volume.place plan.source)).content
    targetBefore := if samePath plan.source plan.target
      then (d' (s.volume.place plan.source)).content
      else (d' (s.volume.place plan.target)).content }, ?_, rfl⟩
  refine { h with
    sourceSize := checkSize_ok.mpr hreadable.2
    targetSize := fun hother => checkSize_ok.mpr (htarget hother).2
    before := readExisting_ok.mpr ⟨hreadable.1, rfl⟩
    targetBefore := ?_
    found := hfound
    after := hafter }
  rw [readTarget]
  dsimp only
  split_ifs with hsame
  · rfl
  · exact readExisting_ok.mpr ⟨(htarget hsame).1, rfl⟩

end Again

/-! ### Independent sections -/

section Independent

variable {φ : Type}

/-- What a section leaves is not too large to be patched. -/
def PlannedPatch.Small (plan : PlannedPatch) : Prop :=
  ∀ content ∈ plan.after, content.size ≤ maxTextMutationBytes

/-- A later section does not depend on an earlier one: the earlier one does not change the source of
the later, unless that is deleted without a look at its lines, nor the file that the later one moves
it to, unless it leaves something small there that is written over. -/
structure Independent (v : Volume Path φ) (earlier later : PlannedPatch) : Prop where
  source : v.place later.source ∉ earlier.changed v ∨
    (later.parsed.delete ∧ later.parsed.hunks = [] ∧ earlier.Small)
  target : ¬ samePath later.source later.target → v.place later.target ∉ earlier.changed v ∨
    (¬ later.parsed.delete ∧ earlier.Small)

variable [DecidableEq φ] {s : Surface φ} {d₀ d d' : Disk φ} {plan : PlannedPatch}
  {plans done : List PlannedPatch} {x : φ}

/-- A file that is there behind some sections was there, or is what one of them leaves. -/
lemma applyOps_file (h : Runs s.volume (applyOps done) d d') {content : Content}
    (hx : d' x = .file content) : d x = .file content ∨
      ∃ plan ∈ done, plan.after = some content ∧ x = s.volume.place plan.target := by
  refine (h.file hx).imp_right ?_
  rintro ⟨path, hwrite, rfl⟩
  obtain ⟨plan, hplan, hwrite⟩ := List.mem_flatMap.mp hwrite
  refine ⟨plan, hplan, ?_⟩
  rw [PlannedPatch.applyOps] at hwrite
  cases hafter : plan.after with
  | none => simp [hafter] at hwrite
  | some after =>
      by_cases hsame : samePath plan.source plan.target
      · simp_all
      · simp_all

/-- The file that a section moves another to, or writes, is no directory. -/
lemma target_of_runs {after : Content} (hafter : plan.after = some after)
    (h : Runs s.volume plan.applyOps d d') : d (s.volume.place plan.target) ≠ .directory := by
  rw [PlannedPatch.applyOps, hafter] at h
  simp only [List.cons_append, List.nil_append] at h
  cases h with
  | cons checked h =>
      cases h with
      | cons made h =>
          cases h with
          | cons written h =>
              intro hdirectory
              refine written.1 (made.directory ?_)
              rw [congrFun checked]
              exact hdirectory

/-- The file that a section deletes is there. -/
lemma source_of_runs (hafter : plan.after = none) (h : Runs s.volume plan.applyOps d d') :
    ∃ content, d (s.volume.place plan.source) = .file content := by
  rw [PlannedPatch.applyOps, hafter] at h
  cases h with
  | cons checked h =>
      cases h with
      | cons removed h =>
          obtain ⟨content, hcontent⟩ := removed.1
          exact ⟨content, by rw [← hcontent, congrFun checked]⟩

variable (hdone : ∀ plan ∈ done, ∃ file, Planned s d₀ file plan)
  (hrun : Runs s.volume (applyOps done) d₀ d) {file : ParsedPatchFile}
  (hplan : Planned s d₀ file plan) (hindependent : ∀ earlier ∈ done,
    Independent s.volume earlier plan) (hnext : Runs s.volume plan.applyOps d d')
include hdone hrun hplan hindependent hnext

/-- The source of a section, behind sections that it does not depend on. -/
lemma sourceAgain_of_independent : SourceAgain d₀ d file (s.volume.place plan.source) := by
  by_cases hchanged : ∀ earlier ∈ done, s.volume.place plan.source ∉ earlier.changed s.volume
  · exact Or.inl (applyOps_frame hrun hchanged)
  push Not at hchanged
  obtain ⟨earlier, hearlier, hmem⟩ := hchanged
  obtain ⟨hdelete, hhunks, -⟩ :=
    (hindependent earlier hearlier).source.resolve_left (not_not.mpr hmem)
  rw [hplan.parsed] at hdelete hhunks
  obtain ⟨content, hcontent⟩ := source_of_runs (hplan.after_text.1.mpr hdelete) hnext
  rcases applyOps_file hrun hcontent with hsame | ⟨writer, hwriter, hafter, hplace⟩
  · exact Or.inl (hcontent.trans hsame.symm)
  · obtain ⟨file', hfile'⟩ := hdone writer hwriter
    obtain ⟨text, rfl⟩ := hfile'.after_text.2 content hafter
    have hwritten : s.volume.place plan.source ∈ writer.changed s.volume := by
      rw [PlannedPatch.changed, hafter, hplace]
      exact List.mem_cons_self
    have hsmall := ((hindependent writer hwriter).source.resolve_left (not_not.mpr hwritten)).2.2
    exact Or.inr ⟨hdelete, hhunks, text, hcontent, hsmall _ hafter⟩

omit hdone in
/-- The target of a section, behind sections that it does not depend on. -/
lemma readable_of_independent (hother : ¬ samePath plan.source plan.target) :
    Readable (d (s.volume.place plan.target)) := by
  have htarget := hplan.targetBefore
  rw [readTarget, if_neg hother] at htarget
  have hsize := checkSize_ok.mp (hplan.targetSize hother)
  by_cases hchanged : ∀ earlier ∈ done, s.volume.place plan.target ∉ earlier.changed s.volume
  · rw [Readable, applyOps_frame hrun hchanged]
    exact ⟨(readExisting_ok.mp htarget).1, hsize⟩
  push Not at hchanged
  obtain ⟨earlier, hearlier, hmem⟩ := hchanged
  obtain ⟨hkeeps, -⟩ :=
    ((hindependent earlier hearlier).target hother).resolve_left (not_not.mpr hmem)
  rw [hplan.parsed] at hkeeps
  obtain ⟨after, hafter⟩ := Option.ne_none_iff_exists'.mp fun hnone =>
    hkeeps (hplan.after_text.1.mp hnone)
  refine ⟨target_of_runs hafter hnext, fun content hcontent => ?_⟩
  rcases applyOps_file hrun hcontent with hsame | ⟨writer, hwriter, hwrites, hplace⟩
  · exact hsize content hsame
  · have hwritten : s.volume.place plan.target ∈ writer.changed s.volume := by
      rw [PlannedPatch.changed, hwrites, hplace]
      exact List.mem_cons_self
    have hsmall :=
      (((hindependent writer hwriter).target hother).resolve_left (not_not.mpr hwritten)).2
    exact hsmall content hwrites

omit hdone hrun hplan hindependent hnext

/-- **Independent sections are applied one at a time** as they are together. -/
theorem oneByOne_of_independent {files : List ParsedPatchFile}
    (hplans : List.Forall₂ (Planned s d₀) files plans) :
    ∀ {done : List PlannedPatch} {d d' : Disk φ},
      (∀ plan ∈ done, ∃ file, Planned s d₀ file plan) → Runs s.volume (applyOps done) d₀ d →
      Runs s.volume (applyOps plans) d d' →
      (∀ earlier ∈ done, ∀ later ∈ plans, Independent s.volume earlier later) →
      plans.Pairwise (Independent s.volume) → OneByOne s files d d' := by
  induction hplans with
  | nil =>
      intro done d d' _ _ h _ _
      cases h
      exact .nil
  | @cons file plan files plans hplan hplans ih =>
      intro done d d' hdone hrun h hearlier hpairwise
      rw [applyOps, List.flatMap_cons] at h
      obtain ⟨d₁, hnext, hrest⟩ := h.of_append
      have hindependent : ∀ earlier ∈ done, Independent s.volume earlier plan :=
        fun earlier he => hearlier earlier he plan List.mem_cons_self
      obtain ⟨plan', hplan', hops⟩ := hplan.again
        (sourceAgain_of_independent hdone hrun hplan hindependent hnext)
        (readable_of_independent hrun hplan hindependent hnext)
      rw [List.pairwise_cons] at hpairwise
      have halone : planFiles s d [] ⟨0, fun _ => false⟩ 0 [file] = .ok ([plan'], []) := by
        rw [planFiles, planFile_of_planned rfl hplan']
        rfl
      have happlied : Runs s.volume (applyOps [plan']) d d₁ := by
        rw [applyOps, List.flatMap_singleton, hops]
        exact hnext
      refine .cons halone happlied ?_
      · refine @ih (done ++ [plan]) _ _ ?_ ?_ hrest ?_ hpairwise.2
        · rintro p hp
          rcases List.mem_append.mp hp with hp | hp
          · exact hdone p hp
          · obtain rfl := List.mem_singleton.mp hp
            exact ⟨file, hplan⟩
        · rw [applyOps, List.flatMap_append, List.flatMap_singleton]
          exact hrun.append hnext
        · rintro earlier he later hlater
          rcases List.mem_append.mp he with he | he
          · exact hearlier earlier he later (List.mem_cons_of_mem _ hlater)
          · obtain rfl := List.mem_singleton.mp he
            exact hpairwise.1 later hlater

end Independent

/-! ### Files that are added -/

section Added

/-- The lines that a section adds. -/
def ParsedPatchFile.added (file : ParsedPatchFile) : List Text :=
  file.hunks.flatMap fun h => (h.lines.filter fun line => line.1 = '+').map Prod.snd

/-- Hunks that have lines. -/
def HaveLines (hunks : List ParsedPatchHunk) : Prop := ∀ h ∈ hunks, h.lines ≠ []

lemma haveLines_closeHunk {hunks : List ParsedPatchHunk} (h : HaveLines hunks)
    (current : ParsedPatchHunk) : HaveLines (closeHunk hunks current) := by
  rw [closeHunk]
  split_ifs with hlines
  · exact h
  · intro hunk hmem
    rcases List.mem_append.mp hmem with hmem | hmem
    · exact h hunk hmem
    · obtain rfl := List.mem_singleton.mp hmem
      exact hlines

lemma haveLines_push {open? : OpenSection} (h : HaveLines open?.file.hunks) (line : Text) :
    HaveLines (open?.push line).file.hunks := by
  rw [OpenSection.push]
  split_ifs
  · exact haveLines_closeHunk h _
  · exact h

/-- A section that is read has lines in its hunks. -/
lemma haveLines_codexSections {number : ℕ} {section? : Option OpenSection} {ls : List Text}
    (hsection : ∀ open? ∈ section?, HaveLines open?.file.hunks) {files : List ParsedPatchFile}
    (h : codexSections number section? ls = .ok files) : ∀ file ∈ files, HaveLines file.hunks := by
  have hclose : ∀ {section? : Option OpenSection},
      (∀ open? ∈ section?, HaveLines open?.file.hunks) →
        ∀ file ∈ (section?.map OpenSection.close).toList, HaveLines file.hunks := by
    intro section? hsection file hfile
    simp only [Option.mem_toList, Option.map_eq_some_iff] at hfile
    obtain ⟨open?, hopen, rfl⟩ := hfile
    exact haveLines_closeHunk (hsection open? hopen) _
  have hfresh : ∀ oldPath newPath moveTo delete, ∀ open? ∈ some (openSection oldPath newPath moveTo delete),
      HaveLines open?.file.hunks := by
    rintro oldPath newPath moveTo delete open? ⟨⟩ hunk hmem
    cases hmem
  induction number, section?, ls using codexSections.induct generalizing files with
  | case1 number section? =>
      rw [codexSections] at h
      cases h
  | case2 number section? line rest open? hopen ih =>
      rw [codexSections, hopen] at h
      refine ih ?_ h
      rintro open' ⟨⟩
      exact haveLines_push (hsection open? (Option.filter_eq_some_iff.mp hopen).1) line
  | case3 number section? rest hnone =>
      rw [codexSections, hnone] at h
      simp only [if_true] at h
      cases h
      exact hclose hsection
  | case4 number section? line rest hnone hend ih =>
      rw [codexSections, hnone] at h
      simp only [if_neg hend] at h
      obtain ⟨⟨oldPath, newPath, delete⟩, -, h⟩ := bind_eq_ok h
      have hfiles : ∀ {files' : List ParsedPatchFile}, (∀ file ∈ files', HaveLines file.hunks) →
          ∀ file ∈ (section?.map OpenSection.close).toList ++ files', HaveLines file.hunks :=
        fun hfiles' file hfile =>
          (List.mem_append.mp hfile).elim (hclose hsection file) (hfiles' file)
      specialize ih oldPath newPath delete
      cases rest with
      | nil =>
          obtain ⟨files', hfiles', h⟩ := bind_eq_ok h
          cases h
          exact hfiles (ih (hfresh _ _ _ _) hfiles')
      | cons next behind =>
          dsimp only at h ih
          split at h
          · obtain ⟨path, -, h⟩ := bind_eq_ok h
            obtain ⟨files', hfiles', h⟩ := bind_eq_ok h
            cases h
            exact hfiles (ih.1 path (hfresh _ _ _ _) hfiles')
          · obtain ⟨files', hfiles', h⟩ := bind_eq_ok h
            cases h
            exact hfiles (ih.2 (hfresh _ _ _ _) hfiles')

lemma haveLines_parseCodexPatch {patch : Text} {files : List ParsedPatchFile}
    (h : parseCodexPatch patch = .ok files) : ∀ file ∈ files, HaveLines file.hunks := by
  rw [parseCodexPatch] at h
  split at h
  · cases h
  · exact haveLines_codexSections (by simp) h

/-- Without a line behind the cursor, only the empty context is found. -/
lemma findPatchContext_end {ls context : List Text} {position : ℕ}
    (h : findPatchContext ls context ls.length = some position) :
    context = [] ∧ position = ls.length := by
  rw [findPatchContext] at h
  split_ifs at h with hempty hshort
  · exact ⟨hempty, by simpa using h.symm⟩
  · have := List.length_pos_iff.mpr hempty
    omega

/-- **Hunks behind the last line** add their lines, and have no others. -/
lemma applyHunks_end {hunks : List ParsedPatchHunk}
    (hstart : ∀ h ∈ hunks, ∀ start ∈ h.oldStart, start ≤ 1) :
    ∀ {index : ℕ} {p q : Patched}, p.delta = p.lines.length → p.cursor = p.lines.length →
      p.lines.length + (hunks.flatMap ParsedPatchHunk.lines).length < 2 ^ 63 →
      applyHunks index p hunks = .ok q →
      q.lines = p.lines ++ hunks.flatMap ParsedPatchHunk.replacement ∧ ∀ h ∈ hunks, h.old = [] := by
  induction hunks with
  | nil =>
      intro index p q _ _ _ h
      cases h
      simp
  | cons hunk hunks ih =>
      intro index p q hdelta hcursor hfits h
      rw [List.flatMap_cons, List.length_append] at hfits
      rw [applyHunks] at h
      obtain ⟨r, hr, h⟩ := bind_eq_ok h
      rw [applyHunk] at hr
      obtain ⟨position, hposition, hr⟩ := bind_eq_ok hr
      have hplace : position = p.lines.length := by
        rw [hunkPosition] at hposition
        cases hold : hunk.oldStart with
        | none =>
            rw [hold, hcursor] at hposition
            dsimp only at hposition
            cases hfound : findPatchContext p.lines hunk.old p.lines.length with
            | none =>
                rw [hfound] at hposition
                cases hposition
            | some found =>
                rw [hfound] at hposition
                cases hposition
                exact (findPatchContext_end hfound).2
        | some start =>
            have hfirst := hstart hunk List.mem_cons_self start hold
            rw [hold, hdelta] at hposition
            dsimp only at hposition
            rw [bmod_eq_self (by omega) (by omega), addIsize_eq (by omega) (by omega)] at hposition
            cases hposition
            omega
      split_ifs at hr with hmatch
      cases hr
      have hold : hunk.old = [] := by
        by_contra hne
        have := List.length_pos_iff.mpr hne
        exact hmatch (Or.inl (by omega))
      have hreplacement : hunk.replacement.length ≤ hunk.lines.length := by
        rw [ParsedPatchHunk.replacement, List.length_map]
        exact List.length_filter_le _ _
      have hkept : p.lines.take position ++ hunk.replacement ++
          p.lines.drop (position + hunk.old.length) = p.lines ++ hunk.replacement := by
        rw [hplace, hold]
        simp
      have hsum : addIsize p.delta (hunk.replacement.length - hunk.old.length) =
          p.lines.length + hunk.replacement.length := by
        rw [hold, hdelta, List.length_nil, addIsize_eq] <;> omega
      rw [hkept, hsum, hplace] at h
      obtain ⟨hlines, hrest⟩ := ih (fun h hh => hstart h (List.mem_cons_of_mem _ hh)) (by simp)
        (by simp) (by simp only [List.length_append]; omega) h
      refine ⟨?_, List.forall_mem_cons.mpr ⟨hold, hrest⟩⟩
      rw [hlines, List.flatMap_cons, List.append_assoc]

/-- A hunk without old lines has only lines that it adds. -/
lemma replacement_of_old {h : ParsedPatchHunk} (hold : h.old = []) :
    h.replacement = (h.lines.filter fun line => line.1 = '+').map Prod.snd := by
  rw [ParsedPatchHunk.old, List.map_eq_nil_iff, List.filter_eq_nil_iff] at hold
  rw [ParsedPatchHunk.replacement]
  refine congrArg _ (List.filter_congr fun line hline => ?_)
  have hadded : line.1 = '+' := by simpa using hold line hline
  rw [hadded]
  rfl

/-- **A file that is added to an empty place** gets the lines that are added. -/
theorem added_exactly {φ : Type} {s : Surface φ} {d : Disk φ} {file : ParsedPatchFile}
    {plan : PlannedPatch} (h : Planned s d file plan) (hkeeps : file.delete = false)
    (hempty : plan.before.getD (.text []) = .text []) (hlines : HaveLines file.hunks)
    (hstart : ∀ hunk ∈ file.hunks, ∀ start ∈ hunk.oldStart, start ≤ 1)
    (hfits : (file.hunks.flatMap ParsedPatchHunk.lines).length < 2 ^ 63) :
    plan.after = some (.text (unlines file.added)) := by
  obtain ⟨content, hcontent, hafter⟩ := h.after
  rw [hafter, hkeeps, if_neg Bool.false_ne_true]
  rw [hempty, applyPatchContent_nil, hkeeps] at hcontent
  cases hrun : applyHunks 0 ⟨[], 0, 0⟩ file.hunks with
  | error failure =>
      rw [hrun] at hcontent
      cases hcontent
  | ok p =>
      rw [hrun] at hcontent
      obtain ⟨hadded, hold⟩ := applyHunks_end hstart rfl rfl (by simpa using hfits) hrun
      have hadded' : p.lines = file.added := by
        rw [hadded, List.nil_append]
        exact List.flatMap_congr fun hunk hmem => replacement_of_old (hold hunk hmem)
      rw [Except.map, Except.ok.injEq, if_neg Bool.false_ne_true, hadded'] at hcontent
      rw [← hcontent]
      by_cases hhunks : file.hunks = []
      · rw [if_pos hhunks, ParsedPatchFile.added, hhunks]
        rfl
      · rw [if_neg hhunks, written, if_neg]
        rw [← hadded', hadded, List.nil_append, List.flatMap_eq_nil_iff]
        intro hnone
        obtain ⟨hunk, hmem⟩ := List.exists_mem_of_ne_nil _ hhunks
        obtain ⟨line, hline⟩ := List.exists_mem_of_ne_nil _ (hlines hunk hmem)
        have hold' := hold hunk hmem
        have hnew := replacement_of_old hold'
        rw [hnone hunk hmem, eq_comm, List.map_eq_nil_iff, List.filter_eq_nil_iff] at hnew
        rw [ParsedPatchHunk.old, List.map_eq_nil_iff, List.filter_eq_nil_iff] at hold'
        have hadd : line.1 = '+' := by simpa using hold' line hline
        exact hnew line hline (by simpa using hadd)

end Added

/-! ### The whole patch -/

namespace PatchedCall

variable {φ : Type} [DecidableEq φ] {s : Surface φ}

/-- A section that adds a file. -/
def Adds (plan : PlannedPatch) : Prop :=
  plan.parsed.oldPath = none ∧ plan.parsed.delete = false

/-- Added files hold exactly the lines that are added. Only the format of Codex adds files. -/
def AddsExactly (c : PatchedCall s) : Prop :=
  (lines c.patch).any isBeginMarker → ∀ plan ∈ c.plans, Adds plan →
    plan.after = some (.text (unlines plan.parsed.added))

/-- **A patch means the sequence of its sections.** -/
def MeansSequence (c : PatchedCall s) : Prop :=
  OneByOne s c.files c.d c.d' ∧ c.AddsExactly

/-- No section depends on an earlier one, and files are added to empty places, by hunks without
line numbers (or the first one). -/
structure Unrelated (c : PatchedCall s) : Prop where
  independent : c.plans.Pairwise (Independent s.volume)
  empty : ∀ plan ∈ c.plans, Adds plan → plan.before.getD (.text []) = .text []
  unnumbered : ∀ plan ∈ c.plans, Adds plan →
    ∀ hunk ∈ plan.parsed.hunks, ∀ start ∈ hunk.oldStart, start ≤ 1

/-- **A patch with unrelated sections means the sequence of its sections.** -/
theorem patched_means_sequence (c : PatchedCall s) (h : c.Unrelated) : c.MeansSequence := by
  obtain ⟨files, hfiles, hplans⟩ := planned_of_planPatch c.planned
  obtain rfl : c.files = files := by simpa using c.parsed.symm.trans hfiles
  constructor
  · have hnone : ∀ plan ∈ ([] : List PlannedPatch), ∃ file, Planned s c.d file plan := by simp
    exact oneByOne_of_independent hplans hnone .nil c.applied (by simp) h.independent
  · intro hcodex plan hplan hadds
    obtain ⟨file, hfile, hplanned⟩ := exists_related hplans.flip hplan
    have hparsed := c.parsed
    rw [parsePatch, if_pos hcodex] at hparsed
    have hempty := h.empty plan hplan hadds
    have hunnumbered := h.unnumbered plan hplan hadds
    have hkeeps := hadds.2
    rw [hplanned.parsed] at hunnumbered hkeeps ⊢
    exact added_exactly hplanned hkeeps hempty (haveLines_parseCodexPatch hparsed file hfile)
      hunnumbered (c.fits file hfile)

/-! ### Two calls -/

open FailedPatch

/-- A section that replaces a line of the only file. -/
def replaceLine (old new : String) : ParsedPatchFile :=
  ⟨some "a.txt".toList, some "a.txt".toList, none, false,
    [⟨none, [('-', old.toList), ('+', new.toList)]⟩]⟩

/-- Its plan on the contents of the file. -/
def replaceLinePlan (before after old new : String) : PlannedPatch where
  parsed := replaceLine old new
  source := "/root/a.txt".toList
  target := "/root/a.txt".toList
  root := "/root".toList
  before := some (.text before.toList)
  targetBefore := some (.text before.toList)
  after := some (.text after.toList)

/-- What a file is written over with is what it holds. -/
lemma runs_write {d : Disk Path} {plan : PlannedPatch} {content : Content}
    (hafter : plan.after = some content) (hsame : samePath plan.source plan.target)
    (hnode : d plan.target ≠ .directory) :
    Runs plainSurface.volume (applyOps [plan]) d
      (Function.update d plan.target (.file content)) := by
  rw [applyOps, List.flatMap_singleton, PlannedPatch.applyOps, hafter]
  simp only [hsame, if_true, List.append_nil, List.cons_append, List.nil_append]
  refine .cons rfl (.cons ⟨fun _ hx => absurd hx List.not_mem_nil, ?_⟩ (.cons ⟨hnode, rfl⟩ (.cons rfl .nil)))
  exact (plainSurface.volume.withParents_eq_self rfl d).symm

/-- A section that adds another file, and its plan. -/
def addLine : ParsedPatchFile :=
  ⟨none, some "b.txt".toList, none, false, [⟨none, [('+', "c".toList)]⟩]⟩

def addLinePlan : PlannedPatch where
  parsed := addLine
  source := "/root/b.txt".toList
  target := "/root/b.txt".toList
  root := "/root".toList
  before := none
  targetBefore := none
  after := some (.text "c\n".toList)

/-- A patch that replaces a line of a file and adds another file. -/
def unrelatedSections : PatchedCall plainSurface where
  args := .object []
  patch := ("*** Begin Patch\n*** Update File: a.txt\n@@\n-a\n+x\n" ++
    "*** Add File: b.txt\n+c\n*** End Patch").toList
  deadline := ⟨10000, fun _ => false⟩
  files := [replaceLine "a" "x", addLine]
  plans := [replaceLinePlan "a\n" "x\n" "a" "x", addLinePlan]
  d := soleFile "a\n"
  d' := Function.update (Function.update (soleFile "a\n") "/root/a.txt".toList
    (.file (.text "x\n".toList))) "/root/b.txt".toList (.file (.text "c\n".toList))
  parsed := by decide +kernel
  planned := by decide +kernel
  applied := by
    have hfirst : Runs plainSurface.volume (applyOps [replaceLinePlan "a\n" "x\n" "a" "x"])
        (soleFile "a\n") _ := runs_write rfl rfl (soleFile_ne_directory _ _)
    have hsecond : Runs plainSurface.volume (applyOps [addLinePlan])
        (Function.update (soleFile "a\n") "/root/a.txt".toList (.file (.text "x\n".toList))) _ :=
      runs_write rfl rfl (by
        rw [addLinePlan, Function.update_of_ne (by decide +kernel)]
        exact soleFile_ne_directory _ _)
    exact hfirst.append hsecond
  fits := by decide

/-- **The sections of that patch are applied one at a time.** -/
theorem unrelatedSections_meansSequence : unrelatedSections.MeansSequence := by
  refine patched_means_sequence unrelatedSections ⟨?_, ?_, ?_⟩
  · refine List.pairwise_pair.mpr ⟨Or.inl ?_, fun hother => absurd rfl hother⟩
    decide +kernel
  · refine List.forall_mem_cons.mpr ⟨fun hadds => ?_, List.forall_mem_singleton.mpr fun _ => rfl⟩
    cases hadds.1
  · exact List.forall_mem_cons.mpr ⟨fun _ => by simp [replaceLinePlan, replaceLine],
      List.forall_mem_singleton.mpr fun _ => by simp [addLinePlan, addLine]⟩

/-- The only file behind a section that replaces a line of it. -/
lemma replaced_of_runs {d d' : Disk Path} {deadline : Deadline} {plan : PlannedPatch}
    {old new : String} (hplan : planFiles plainSurface d [] deadline 0 [replaceLine old new] =
      .ok ([plan], []))
    (h : Runs plainSurface.volume (applyOps [plan]) d d') :
    ∃ content, applyPatchContent ((d "/root/a.txt".toList).content.getD (.text []))
      (replaceLine old new).hunks false = .ok content ∧
        d' "/root/a.txt".toList = .file content := by
  obtain ⟨hplanned, -⟩ := List.forall₂_cons.mp (planned_of_planFiles hplan)
  obtain ⟨name, hname, hsource⟩ := hplanned.source
  obtain ⟨name', hname', htarget⟩ := hplanned.target
  cases hname
  cases hname'
  rw [plainSurface, Except.ok.injEq, Prod.mk.injEq] at hsource htarget
  obtain ⟨content, hcontent, hafter⟩ := hplanned.after
  rw [(readExisting_ok.mp hplanned.before).2, ← hsource.1] at hcontent
  refine ⟨content, hcontent, ?_⟩
  have hsame : samePath plan.source plan.target := by
    rw [← hsource.1, ← htarget.1]
    rfl
  rw [applyOps, List.flatMap_singleton, PlannedPatch.applyOps, hafter] at h
  simp only [replaceLine, Bool.false_eq_true, if_false, hsame, if_true, List.append_nil,
    List.cons_append, List.nil_append] at h
  cases h with
  | cons checked h =>
      cases h with
      | cons made h =>
          cases h with
          | cons written h =>
              cases h with
              | cons audited h =>
                  cases h
                  rw [congrFun audited, written.2, ← htarget.1]
                  exact Function.update_self _ _ _

/-- A patch with two sections for one file. -/
def lostUpdate : PatchedCall plainSurface where
  args := .object []
  patch := ("*** Begin Patch\n*** Update File: a.txt\n@@\n-a\n+x\n" ++
    "*** Update File: a.txt\n@@\n-b\n+y\n*** End Patch").toList
  deadline := ⟨10000, fun _ => false⟩
  files := [replaceLine "a" "x", replaceLine "b" "y"]
  plans := [replaceLinePlan "a\nb\n" "x\nb\n" "a" "x",
    replaceLinePlan "a\nb\n" "a\ny\n" "b" "y"]
  d := soleFile "a\nb\n"
  d' := Function.update (Function.update (soleFile "a\nb\n") "/root/a.txt".toList
    (.file (.text "x\nb\n".toList))) "/root/a.txt".toList (.file (.text "a\ny\n".toList))
  parsed := by decide +kernel
  planned := by decide +kernel
  applied := by
    have hfirst : Runs plainSurface.volume (applyOps [replaceLinePlan "a\nb\n" "x\nb\n" "a" "x"])
        (soleFile "a\nb\n") _ := runs_write rfl rfl (soleFile_ne_directory _ _)
    have hsecond : Runs plainSurface.volume (applyOps [replaceLinePlan "a\nb\n" "a\ny\n" "b" "y"])
        (Function.update (soleFile "a\nb\n") "/root/a.txt".toList
          (.file (.text "x\nb\n".toList))) _ :=
      runs_write rfl rfl (by
        rw [replaceLinePlan, Function.update_self]
        nofun)
    exact hfirst.append hsecond
  fits := by decide

/-- **Not every patch means the sequence of its sections**: the first of two edits of a file is
lost. -/
theorem not_meansSequence : ¬ ∀ c : PatchedCall plainSurface, c.MeansSequence := by
  intro h
  obtain ⟨hsequence, -⟩ := h lostUpdate
  cases hsequence with
  | cons planned applied rest =>
      cases rest with
      | cons planned' applied' rest =>
          cases rest
          obtain ⟨content, hcontent, hfirst⟩ := replaced_of_runs planned applied
          obtain ⟨content', hcontent', hsecond⟩ := replaced_of_runs planned' applied'
          have hx : content = .text "x\nb\n".toList := by
            have hrun : applyPatchContent (.text "a\nb\n".toList) (replaceLine "a" "x").hunks false =
                .ok (.text "x\nb\n".toList) := by decide +kernel
            exact Except.ok.inj (hcontent.symm.trans hrun)
          have hxy : content' = .text "x\ny\n".toList := by
            have hrun : applyPatchContent (.text "x\nb\n".toList) (replaceLine "b" "y").hunks false =
                .ok (.text "x\ny\n".toList) := by decide +kernel
            rw [hfirst, hx] at hcontent'
            exact Except.ok.inj (hcontent'.symm.trans hrun)
          have hlost : lostUpdate.d' "/root/a.txt".toList = .file (.text "a\ny\n".toList) :=
            congrArg Node.file rfl
          rw [hxy, hlost] at hsecond
          exact absurd hsecond (by simp)

end PatchedCall

end Filesystem

end McpSurfaces
