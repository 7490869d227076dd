import McpSurfaces.Filesystem.Rollback
import McpSurfaces.Foundation.Runs

/-!
The outcome records of `fs_apply_patch`, across calls and crashes.

* `Outcome` is the record of an operation as far as it is read again.
* `Step` is one call of `fs_apply_patch` or `fs_patch_outcome_show` with one operation id and one
  patch text, as it is answered or cut short by a crash.
* **`inAfterState_of_runs`**: sections that keep apart leave the state that was planned.
* **`outcome_truthful`**: over every run in which no record of a patch that has begun is lost, none
  that failed before it began is asked for again, and sections keep apart, a patch is carried out
  at most once and its outcomes are true.
-/

namespace McpSurfaces

namespace Filesystem

open TextLines FileOps Lists

/-! ### Records -/

/-- The status of a record. -/
inductive Status
  | accepted
  | applying
  | checked
  | patched
  | failedRolledBack
  | failedBeforeMutation
  | interruptedBeforeMutation
  | patchedRecovered
  | interruptedPartial
deriving DecidableEq

/-- What a file of a patch is in a state: whether it exists, and its digest. -/
structure StateEntry where
  path : Path
  exists? : Bool
  sha256 : Option Text
deriving DecidableEq

/-- A record, as far as the calls read it: a recovery plan has the states before and after. -/
structure Outcome where
  status : Status
  patchSha256 : Text
  mutationStarted : Bool
  retrySafe : Option Bool
  recoveryCount : Option ℕ
  recoveryPlan : Option (List StateEntry × List StateEntry)
  operationReplayed : Bool
deriving DecidableEq

/-- The contents of the files of a section, before or after it (`patch_states`). -/
def PlannedPatch.states (plan : PlannedPatch) (after : Bool) : List (Path × Option Content) :=
  (plan.target, if after then plan.after else plan.targetBefore) ::
    if samePath plan.source plan.target then []
    else [(plan.source, if after then none else plan.before)]

section Records

variable {φ : Type} (s : Surface φ)

/-- The entry of a file with some contents, or without any. -/
def entryOf (state : Path × Option Content) : StateEntry :=
  ⟨state.1, state.2.isSome, state.2.map s.sha256⟩

/-- The states of all sections. -/
def stateSet (plans : List PlannedPatch) (after : Bool) : List StateEntry :=
  plans.flatMap fun plan => (plan.states after).map (entryOf s)

/-- A record without a recovery plan. -/
def Outcome.plain (status : Status) (sha : Text) (mutationStarted : Bool) (retrySafe : Option Bool)
    (recoveryCount : Option ℕ) : Outcome :=
  ⟨status, sha, mutationStarted, retrySafe, recoveryCount, none, false⟩

def acceptedOutcome (sha : Text) (count : ℕ) : Outcome :=
  .plain .accepted sha false none (some count)

def failedBeforeOutcome (sha : Text) : Outcome :=
  .plain .failedBeforeMutation sha false (some true) none

def checkedOutcome (sha : Text) (count : ℕ) : Outcome := .plain .checked sha false none (some count)

def applyingOutcome (sha : Text) (count : ℕ) (plans : List PlannedPatch) : Outcome where
  status := .applying
  patchSha256 := sha
  mutationStarted := true
  retrySafe := none
  recoveryCount := some count
  recoveryPlan := some (stateSet s plans false, stateSet s plans true)
  operationReplayed := false

def patchedOutcome (sha : Text) (count : ℕ) : Outcome := .plain .patched sha true none (some count)

def rolledBackOutcome (sha : Text) : Outcome := .plain .failedRolledBack sha true none none

/-- The record of an earlier call, as it is answered again. -/
def Outcome.replay (o : Outcome) : Outcome := { o with operationReplayed := true }

/-- The records behind which a patch is tried again. -/
def Outcome.Retryable (o : Outcome) : Prop :=
  o.status = .interruptedBeforeMutation ∧ o.retrySafe = some true

/-- How often a patch was tried again, if it may be tried now. -/
def Starts (record : Option Outcome) (count : ℕ) : Prop :=
  match record with
  | none => count = 0
  | some o => o.Retryable ∧ count = o.recoveryCount.getD 0 + 1

variable [DecidableEq φ] (d : Disk φ)

/-- Whether a file is as an entry says. -/
def entryMatches (entry : StateEntry) : Bool :=
  match s.resolve entry.path with
  | .error _ => false
  | .ok (resolved, _) =>
      match d (s.volume.place resolved) with
      | .absent => !entry.exists?
      | .directory => false
      | .file content => entry.exists? && entry.sha256 = some (s.sha256 content)

/-- `patch_state_set_matches`. -/
def patchStateSetMatches (entries : Option (List StateEntry)) : Bool :=
  match entries with
  | none | some [] => false
  | some entries => entries.all (entryMatches s d)

/-- `reconcile_patch_outcome`, of a record whose owner is gone. -/
def reconcileOutcome (o : Outcome) : Outcome :=
  let (status, retrySafe) :=
    if o.status = .accepted then (Status.interruptedBeforeMutation, true)
    else if patchStateSetMatches s d (o.recoveryPlan.map Prod.snd) then (.patchedRecovered, false)
    else if patchStateSetMatches s d (o.recoveryPlan.map Prod.fst) then
      (.interruptedBeforeMutation, true)
    else (.interruptedPartial, false)
  { o with status := status, retrySafe := some retrySafe }

end Records

/-! ### Writing a record -/

/-- Where a crash cuts `write_patch_outcome` short: before the old record is removed, between its
removal and the renaming of the new one, or behind that. -/
inductive CrashPoint
  | before
  | between
  | behind
deriving DecidableEq

/-- The record that there is behind `write_patch_outcome`, if it is not cut short. -/
def saved (old : Option Outcome) (new : Outcome) : Option CrashPoint → Option Outcome
  | none | some .behind => some new
  | some .before => old
  | some .between => none

/-! ### Calls -/

/-- A call, with one operation id and one patch text. -/
inductive Call
  | apply (args : Value) (deadline : Deadline)
  | showOutcome

/-- How a call ends: it is refused, answered with a record, or cut short, perhaps while it writes a
record. -/
inductive Answer
  | refused
  | outcome (o : Outcome)
  | crashed (writing : Option (Status × CrashPoint))

/-- The answer of a call whose last step is to write a record. -/
def Answer.unless (answer : Answer) (new : Outcome) : Option CrashPoint → Answer
  | none => answer
  | some point => .crashed (some (new.status, point))

/-- A patch that was applied, wholly or in part, with the disk before and after. -/
structure Application (φ : Type) where
  plans : List PlannedPatch
  before : Disk φ
  after : Disk φ

/-- The files and the record of the operation. What was applied so far, the last first, is not
stored. -/
structure Site (φ : Type) where
  disk : Disk φ
  record : Option Outcome
  applied : List (Application φ)

/-- `dry_run`. -/
def isDryRun (args : Value) : Bool :=
  match args.get "dry_run" with
  | some (.bool dry) => dry
  | _ => false

/-- The operations of `apply_planned_patch` up to the last one that changes a file. -/
def mutationOps (plans : List PlannedPatch) : List (Op Path Content) := (applyOps plans).dropLast

/-- A site with another record. -/
def Site.withRecord {φ : Type} (site : Site φ) (record : Option Outcome) : Site φ :=
  { site with record := record }

/-- A site whose files an application has changed. -/
def Site.patchedBy {φ : Type} (site : Site φ) (plans : List PlannedPatch) (d : Disk φ)
    (record : Option Outcome) : Site φ :=
  ⟨d, record, ⟨plans, site.disk, d⟩ :: site.applied⟩

section Calls

variable {φ : Type} [DecidableEq φ] (s : Surface φ) (patch : Text)

/-- The plans of a call that goes on to change files. -/
structure Planning (site : Site φ) (args : Value) (deadline : Deadline)
    (plans : List PlannedPatch) (count : ℕ) : Prop where
  starts : Starts site.record count
  planned : planPatch s site.disk args patch deadline = .ok plans
  real : isDryRun args = false

/-- The digest of the patch text. -/
def patchSha : Text := s.sha256 (.text patch)

/-- One call. -/
inductive Step (site : Site φ) : Call → Answer → Site φ → Prop
  /-- Arguments that are not accepted, or a record that is missing or cannot be read. -/
  | refused {call : Call} : Step site call .refused site
  | replayed {args : Value} {deadline : Deadline} {o : Outcome} (record : site.record = some o)
      (final : ¬ o.Retryable) : Step site (.apply args deadline) (.outcome o.replay) site
  | accepting {args : Value} {deadline : Deadline} {count : ℕ} (starts : Starts site.record count)
      (point : CrashPoint) :
      Step site (.apply args deadline) (.crashed (some (.accepted, point)))
        (site.withRecord (saved site.record (acceptedOutcome (patchSha s patch) count) (some point)))
  | planFailed {args : Value} {deadline : Deadline} {count : ℕ} {failure : FsError}
      (starts : Starts site.record count)
      (failed : planPatch s site.disk args patch deadline = .error failure)
      (crash : Option CrashPoint) :
      Step site (.apply args deadline)
        (Answer.unless .refused (failedBeforeOutcome (patchSha s patch)) crash)
        (site.withRecord (saved (some (acceptedOutcome (patchSha s patch) count))
          (failedBeforeOutcome (patchSha s patch)) crash))
  | checked {args : Value} {deadline : Deadline} {plans : List PlannedPatch} {count : ℕ}
      (starts : Starts site.record count)
      (planned : planPatch s site.disk args patch deadline = .ok plans)
      (dry : isDryRun args = true) (crash : Option CrashPoint) :
      Step site (.apply args deadline)
        (Answer.unless (.outcome (checkedOutcome (patchSha s patch) count))
          (checkedOutcome (patchSha s patch) count) crash)
        (site.withRecord (saved (some (acceptedOutcome (patchSha s patch) count))
          (checkedOutcome (patchSha s patch) count) crash))
  | beginning {args : Value} {deadline : Deadline} {plans : List PlannedPatch} {count : ℕ}
      (planning : Planning s patch site args deadline plans count) (point : CrashPoint) :
      Step site (.apply args deadline) (.crashed (some (.applying, point)))
        (site.patchedBy plans site.disk (saved (some (acceptedOutcome (patchSha s patch) count))
          (applyingOutcome s (patchSha s patch) count plans) (some point)))
  | interrupted {args : Value} {deadline : Deadline} {plans : List PlannedPatch} {count : ℕ}
      {d : Disk φ} (planning : Planning s patch site args deadline plans count)
      (stopped : Stops s.volume (mutationOps plans) site.disk d ∨
        Runs s.volume (mutationOps plans) site.disk d) :
      Step site (.apply args deadline) (.crashed none)
        (site.patchedBy plans d (some (applyingOutcome s (patchSha s patch) count plans)))
  | rollingBack {args : Value} {deadline : Deadline} {plans : List PlannedPatch} {count : ℕ}
      {d d' : Disk φ} {tried : List (Op Path Content)}
      (planning : Planning s patch site args deadline plans count)
      (failed : Stops s.volume (applyOps plans) site.disk d) (front : tried <+: rollbackOps plans)
      (rollback : Tries s.volume tried d d') :
      Step site (.apply args deadline) (.crashed none)
        (site.patchedBy plans d' (some (applyingOutcome s (patchSha s patch) count plans)))
  | rolledBack {args : Value} {deadline : Deadline} {plans : List PlannedPatch} {count : ℕ}
      {d d' : Disk φ} (planning : Planning s patch site args deadline plans count)
      (failed : Stops s.volume (applyOps plans) site.disk d)
      (rollback : Tries s.volume (rollbackOps plans) d d') (crash : Option CrashPoint) :
      Step site (.apply args deadline)
        (Answer.unless .refused (rolledBackOutcome (patchSha s patch)) crash)
        (site.patchedBy plans d'
          (saved (some (applyingOutcome s (patchSha s patch) count plans))
            (rolledBackOutcome (patchSha s patch)) crash))
  | patched {args : Value} {deadline : Deadline} {plans : List PlannedPatch} {count : ℕ}
      {d : Disk φ} (planning : Planning s patch site args deadline plans count)
      (applied : Runs s.volume (applyOps plans) site.disk d) (crash : Option CrashPoint) :
      Step site (.apply args deadline)
        (Answer.unless (.outcome (patchedOutcome (patchSha s patch) count))
          (patchedOutcome (patchSha s patch) count) crash)
        (site.patchedBy plans d
          (saved (some (applyingOutcome s (patchSha s patch) count plans))
            (patchedOutcome (patchSha s patch) count) crash))
  /-- A record that is final, or whose owner is active. -/
  | shown {o : Outcome} (record : site.record = some o) : Step site .showOutcome (.outcome o) site
  | reconciled {o : Outcome} (record : site.record = some o)
      (unfinished : o.status = .accepted ∨ o.status = .applying) (crash : Option CrashPoint) :
      Step site .showOutcome
        (Answer.unless (.outcome (reconcileOutcome s site.disk o))
          (reconcileOutcome s site.disk o) crash)
        (site.withRecord (saved (some o) (reconcileOutcome s site.disk o) crash))

end Calls

/-! ### Planned states -/

section States

variable {φ : Type}

/-- What there is of a file with some contents, or without any. -/
def nodeOf : Option Content → Node Content
  | none => .absent
  | some content => .file content

lemma nodeOf_content {node : Node Content} (h : node ≠ .directory) : nodeOf node.content = node := by
  cases node <;> simp_all [nodeOf, Node.content]

/-- The files that a section names. -/
def PlannedPatch.named (v : Volume Path φ) (plan : PlannedPatch) : List φ :=
  [v.place plan.source, v.place plan.target]

/-- Sections that keep apart: what is compared as one path is one file, what is deleted is not
moved onto a file, and no section may change a file that another names. -/
structure Apart (v : Volume Path φ) (plans : List PlannedPatch) : Prop where
  same : ∀ plan ∈ plans,
    (samePath plan.source plan.target ↔ v.place plan.source = v.place plan.target)
  deletes : ∀ plan ∈ plans, plan.after = none →
    samePath plan.source plan.target ∨ plan.targetBefore = none
  apart : plans.Pairwise fun earlier later =>
    (∀ x ∈ earlier.named v, x ∉ later.changed v) ∧ ∀ x ∈ later.named v, x ∉ earlier.changed v

/-- The files of a patch are in the state that was planned. -/
def InAfterState (v : Volume Path φ) (plans : List PlannedPatch) (d : Disk φ) : Prop :=
  ∀ plan ∈ plans, ∀ state ∈ plan.states true, d (v.place state.1) = nodeOf state.2

/-- An application that has left a file of its sections other than it was. -/
def Application.Effective (v : Volume Path φ) (a : Application φ) : Prop :=
  ∃ plan ∈ a.plans, ∃ x ∈ plan.named v, a.after x ≠ a.before x

variable [DecidableEq φ] {s : Surface φ} {d₀ d d' : Disk φ} {plan : PlannedPatch}
  {plans : List PlannedPatch}

/-- A section that writes leaves its target written, and a source that is moved gone. -/
lemma written_of_runs {after : Content} (hafter : plan.after = some after)
    (hsame : samePath plan.source plan.target ↔
      s.volume.place plan.source = s.volume.place plan.target)
    (h : Runs s.volume plan.applyOps d d') :
    d' (s.volume.place plan.target) = .file after ∧
      (¬ samePath plan.source plan.target → d' (s.volume.place plan.source) = .absent) := by
  rw [PlannedPatch.applyOps, hafter] at h
  by_cases hpath : samePath plan.source plan.target
  · simp only [hpath, if_true, List.append_nil, List.cons_append, List.nil_append] at h
    refine ⟨?_, fun hother => absurd hpath hother⟩
    cases h with
    | cons checked h =>
        cases h with
        | cons made h =>
            cases h with
            | cons written h =>
                cases h with
                | cons audited h =>
                    cases h
                    rw [congrFun audited, written.2, Function.update_self]
  · simp only [hpath, if_false, List.cons_append, List.nil_append] at h
    have hne : s.volume.place plan.source ≠ s.volume.place plan.target :=
      fun heq => hpath (hsame.mpr heq)
    cases h with
    | cons checked h =>
        cases h with
        | cons made h =>
            cases h with
            | cons written h =>
                cases h with
                | cons moved h =>
                    cases h with
                    | cons audited h =>
                        cases h
                        rw [congrFun audited, congrFun audited]
                        refine ⟨?_, fun _ => ?_⟩
                        · rw [removedExisting_frame moved hne.symm, written.2,
                            Function.update_self]
                        · rw [Op.Done] at moved
                          split_ifs at moved with habsent
                          · rw [moved, habsent]
                          · rw [moved.2, Function.update_self]

/-- A section that deletes leaves its source gone. -/
lemma deleted_of_runs (hafter : plan.after = none) (h : Runs s.volume plan.applyOps d d') :
    d' (s.volume.place plan.source) = .absent := by
  rw [PlannedPatch.applyOps, hafter] at h
  cases h with
  | cons checked h =>
      cases h with
      | cons removed h =>
          cases h with
          | cons audited h =>
              cases h
              rw [congrFun audited, removed.2, Function.update_self]

/-- **Sections that keep apart leave the state that was planned.** -/
theorem inAfterState_of_runs (hplans : ∀ plan ∈ plans, ∃ file, Planned s d₀ file plan)
    (hapart : Apart s.volume plans) (h : Runs s.volume (applyOps plans) d₀ d') :
    InAfterState s.volume plans d' := by
  intro plan hplan
  obtain ⟨file, hplanned⟩ := hplans plan hplan
  obtain ⟨front, back, rfl⟩ := List.append_of_mem hplan
  have hpairs := List.pairwise_append.mp hapart.apart
  have hpairs' := List.pairwise_cons.mp hpairs.2.1
  have hsame := hapart.same plan hplan
  -- Later sections change no file of this one, and neither do earlier ones.
  have hfront : ∀ x ∈ plan.named s.volume, ∀ p ∈ front, x ∉ p.changed s.volume :=
    fun x hx p hp => (hpairs.2.2 p hp plan List.mem_cons_self).2 x hx
  have hback : ∀ x ∈ plan.named s.volume, ∀ p ∈ back, x ∉ p.changed s.volume :=
    fun x hx p hp => (hpairs'.1 p hp).1 x hx
  have hsource : s.volume.place plan.source ∈ plan.named s.volume := List.mem_cons_self
  have htarget : s.volume.place plan.target ∈ plan.named s.volume :=
    List.mem_cons_of_mem _ List.mem_cons_self
  rw [applyOps, List.flatMap_append, List.flatMap_cons] at h
  obtain ⟨d₁, hrun, h⟩ := h.of_append
  obtain ⟨d₂, hthis, hrest⟩ := h.of_append
  rw [PlannedPatch.states]
  cases hafter : plan.after with
  | some after =>
      obtain ⟨hwritten, hmoved⟩ := written_of_runs hafter hsame hthis
      by_cases hpath : samePath plan.source plan.target
      · simp only [hpath, if_true, List.forall_mem_singleton]
        rw [applyOps_frame hrest (hback _ htarget), hwritten]
        rfl
      · simp only [hpath, if_false, if_true, List.forall_mem_cons]
        rw [applyOps_frame hrest (hback _ htarget), hwritten, applyOps_frame hrest (hback _ hsource),
          hmoved hpath]
        exact ⟨rfl, rfl, by simp⟩
  | none =>
      have hgone := deleted_of_runs hafter hthis
      by_cases hpath : samePath plan.source plan.target
      · simp only [hpath, if_true, List.forall_mem_singleton]
        rw [← hsame.mp hpath, applyOps_frame hrest (hback _ hsource), hgone]
        rfl
      · have hnone := (hapart.deletes plan hplan hafter).resolve_left hpath
        obtain ⟨hnode, hbefore⟩ := hplanned.targetBefore_eq hpath
        have hne : s.volume.place plan.target ∉ plan.changed s.volume := by
          rw [PlannedPatch.changed, hafter, List.mem_singleton]
          exact fun heq => hpath (hsame.mpr heq.symm)
        have habsent : d₀ (s.volume.place plan.target) = .absent := by
          rw [← nodeOf_content hnode, ← hbefore, hnone]
          rfl
        have hkept : d₂ (s.volume.place plan.target) = d₁ (s.volume.place plan.target) :=
          hthis.frame (not_mem_touches hne)
        simp only [hpath, if_false, if_true, List.forall_mem_cons]
        rw [applyOps_frame hrest (hback _ htarget), hkept, applyOps_frame hrun (hfront _ htarget),
          habsent, applyOps_frame hrest (hback _ hsource), hgone]
        exact ⟨rfl, rfl, by simp⟩

/-! ### Recorded states -/

section

omit [DecidableEq φ]

/-- An entry that matches is about the contents that it was made from. -/
lemma node_of_entryMatches (hsha : Function.Injective s.sha256) {state : Path × Option Content}
    (hpath : ∃ name root, s.resolve name = .ok (state.1, root))
    (h : entryMatches s d (entryOf s state) = true) :
    d (s.volume.place state.1) = nodeOf state.2 := by
  obtain ⟨name, root, hname⟩ := hpath
  obtain ⟨path, content⟩ := state
  rw [entryMatches, entryOf] at h
  dsimp only at h hname ⊢
  cases hresolve : s.resolve path with
  | error failure =>
      rw [hresolve] at h
      cases h
  | ok resolved =>
      obtain ⟨resolved, root'⟩ := resolved
      have hresolved := s.resolve_resolved hname hresolve
      rw [hresolve] at h
      dsimp only at h
      rw [hresolved] at h
      cases hnode : d (s.volume.place path) with
      | absent => cases content <;> simp_all [nodeOf]
      | directory => simp [hnode] at h
      | file found =>
          cases content with
          | none => simp [hnode] at h
          | some content =>
              have hdigest : s.sha256 content = s.sha256 found := by simpa [hnode] using h
              rw [hsha hdigest]
              rfl

/-- The paths of a section are resolved. -/
lemma Planned.resolved {file : ParsedPatchFile} (h : Planned s d₀ file plan) (after : Bool) :
    ∀ state ∈ plan.states after, ∃ name root, s.resolve name = .ok (state.1, root) := by
  obtain ⟨sourceName, -, hsource⟩ := h.source
  obtain ⟨targetName, -, htarget⟩ := h.target
  intro state hstate
  rw [PlannedPatch.states] at hstate
  rcases List.mem_cons.mp hstate with rfl | hstate
  · exact ⟨_, _, htarget⟩
  · by_cases hpath : samePath plan.source plan.target
    · simp [hpath] at hstate
    · rw [if_neg hpath, List.mem_singleton] at hstate
      rw [hstate]
      exact ⟨_, _, hsource⟩

/-- **A recorded state that matches** is the one that was planned. -/
lemma states_of_matches (hsha : Function.Injective s.sha256)
    (hplans : ∀ plan ∈ plans, ∃ file, Planned s d₀ file plan) {after : Bool}
    (h : patchStateSetMatches s d (some (stateSet s plans after)) = true) :
    ∀ plan ∈ plans, ∀ state ∈ plan.states after,
      d (s.volume.place state.1) = nodeOf state.2 := by
  have hall : ∀ entry ∈ stateSet s plans after, entryMatches s d entry = true := by
    cases hset : stateSet s plans after with
    | nil =>
        rw [hset] at h
        cases h
    | cons entry entries =>
        rw [hset, patchStateSetMatches, List.all_eq_true] at h
        · exact h
        · simp
  intro plan hplan state hstate
  obtain ⟨file, hplanned⟩ := hplans plan hplan
  exact node_of_entryMatches hsha (hplanned.resolved after state hstate)
    (hall _ (List.mem_flatMap.mpr ⟨plan, hplan, List.mem_map_of_mem hstate⟩))

/-- In the state before, nothing has changed. -/
lemma not_effective_of_matches (hsha : Function.Injective s.sha256)
    (hplans : ∀ plan ∈ plans, ∃ file, Planned s d₀ file plan) (hapart : Apart s.volume plans)
    (h : patchStateSetMatches s d (some (stateSet s plans false)) = true) :
    ¬ Application.Effective s.volume ⟨plans, d₀, d⟩ := by
  have hstates := states_of_matches hsha hplans h
  rintro ⟨plan, hplan, x, hx, hne⟩
  obtain ⟨file, hplanned⟩ := hplans plan hplan
  obtain ⟨hsource, hbefore⟩ := hplanned.before_eq
  have hplanStates := hstates plan hplan
  have hsame := hapart.same plan hplan
  refine hne ?_
  dsimp only
  rw [PlannedPatch.states] at hplanStates
  rw [PlannedPatch.named, List.mem_cons, List.mem_singleton] at hx
  by_cases hpath : samePath plan.source plan.target
  · have htargetBefore := hplanned.targetBefore
    rw [readTarget, if_pos hpath, Except.ok.injEq] at htargetBefore
    have hx' : x = s.volume.place plan.source := hx.elim id fun hx => hx.trans (hsame.mp hpath).symm
    have hnode := hplanStates _ List.mem_cons_self
    simp only [Bool.false_eq_true, if_false] at hnode
    rw [hx']
    rw [← hsame.mp hpath, ← htargetBefore, hbefore, nodeOf_content hsource] at hnode
    exact hnode
  · obtain ⟨htarget, htargetBefore⟩ := hplanned.targetBefore_eq hpath
    have hnode := hplanStates _ List.mem_cons_self
    have hnode' := hplanStates (plan.source, plan.before) (by simp [hpath])
    simp only [Bool.false_eq_true, if_false] at hnode
    rcases hx with rfl | rfl
    · rw [hnode', hbefore, nodeOf_content hsource]
    · rw [hnode, htargetBefore, nodeOf_content htarget]

end

end States

/-! ### Runs -/

section Runs

variable {φ : Type} [DecidableEq φ] (s : Surface φ) (patch : Text)

/-- At most one application has left the files other than they were. -/
def AtMostOnce (site : Site φ) : Prop :=
  site.applied.Pairwise fun a b => ¬ (a.Effective s.volume ∧ b.Effective s.volume)

/-- The answer of a call is true: what is reported as patched is in the state that was planned last,
and a real call is not answered with an earlier record that says to retry, unless the patch was
applied. -/
structure Truthful (call : Call) (answer : Answer) (site : Site φ) : Prop where
  state : ∀ o, answer = .outcome o → o.status = .patched ∨ o.status = .patchedRecovered →
    ∃ a rest, site.applied = a :: rest ∧ InAfterState s.volume a.plans site.disk
  retry : ∀ args deadline o, call = .apply args deadline → isDryRun args = false →
    answer = .outcome o → o.operationReplayed = true → o.retrySafe = some true →
    ∃ a ∈ site.applied, a.Effective s.volume

/-- What the record of a call depends on: no crash falls between the removal of the record of a
patch that has begun and the renaming of the new one, no real call follows a call that failed before
it began, and the sections keep apart. -/
structure Careful (site : Site φ) (call : Call) (answer : Answer) : Prop where
  kept : ∀ status ∈ [Status.patched, .patchedRecovered, .interruptedPartial, .failedRolledBack],
    answer ≠ .crashed (some (status, .between))
  begun : ∀ args deadline o, call = .apply args deadline → isDryRun args = false →
    site.record = some o → o.status ≠ .failedBeforeMutation
  apart : ∀ args deadline plans, call = .apply args deadline →
    planPatch s site.disk args patch deadline = .ok plans → Apart s.volume plans

/-- The sites of an operation. -/
def operationMachine : Machine (Site φ) where
  init site := site.record = none ∧ site.applied = []
  step site site' := ∃ call answer, Step s patch site call answer site'

/-- The sites of an operation whose calls are careful. -/
def carefulMachine : Machine (Site φ) where
  init := (operationMachine s patch).init
  step site site' := ∃ call answer, Step s patch site call answer site' ∧
    Careful s patch site call answer

/-- **One operation id, at most one application, and a truthful outcome**: in every site of a
machine, and behind every further call that it allows. -/
def TrueOutcomes (m : Machine (Site φ)) (allowed : Site φ → Call → Answer → Prop) : Prop :=
  ∀ site, m.Reachable site → AtMostOnce s site ∧
    ∀ call answer site', Step s patch site call answer site' → allowed site call answer →
      AtMostOnce s site' ∧ Truthful s call answer site'

variable {s patch} {site site' : Site φ} {call : Call} {answer : Answer}

/-- No application has left files other than they were. -/
def Site.Quiet (v : Volume Path φ) (site : Site φ) : Prop := ∀ a ∈ site.applied, ¬ a.Effective v

/-- What a record says of the applications so far. -/
def RecordKept (s : Surface φ) (site : Site φ) (o : Outcome) : Prop :=
  match o.status with
  | .accepted | .checked | .failedBeforeMutation | .interruptedBeforeMutation =>
      site.Quiet s.volume
  | .applying => ∃ a rest, site.applied = a :: rest ∧ site.disk = a.after ∧
      o.recoveryPlan = some (stateSet s a.plans false, stateSet s a.plans true) ∧
      Apart s.volume a.plans ∧ ∀ plan ∈ a.plans, ∃ file, Planned s a.before file plan
  | .patched | .patchedRecovered =>
      ∃ a rest, site.applied = a :: rest ∧ InAfterState s.volume a.plans site.disk
  | .failedRolledBack | .interruptedPartial => True

/-- The invariant of an operation. -/
structure OperationInv (s : Surface φ) (site : Site φ) : Prop where
  earlier : ∀ a ∈ site.applied.tail, ¬ a.Effective s.volume
  unrecorded : site.record = none → site.Quiet s.volume
  recorded : ∀ o, site.record = some o → RecordKept s site o ∧
    (o.retrySafe = some true → o.status = .failedBeforeMutation ∨ o.Retryable)

section

omit [DecidableEq φ]

lemma Site.Quiet.of_starts (hinv : OperationInv s site) {count : ℕ}
    (h : Starts site.record count) : site.Quiet s.volume := by
  cases hrecord : site.record with
  | none => exact hinv.unrecorded hrecord
  | some o =>
      rw [hrecord] at h
      have hkept := (hinv.recorded o hrecord).1
      rw [RecordKept, h.1.1] at hkept
      exact hkept

/-- An operation whose applications left nothing behind, with a record that says so. -/
lemma OperationInv.of_quiet (h : site.Quiet s.volume) {o : Outcome}
    (hstatus : o.status = .accepted ∨ o.status = .checked ∨ o.status = .failedBeforeMutation ∨
      o.status = .interruptedBeforeMutation)
    (hretry : o.retrySafe = some true → o.status = .failedBeforeMutation ∨ o.Retryable) :
    OperationInv s (site.withRecord (some o)) where
  earlier a ha := h a (List.mem_of_mem_tail ha)
  unrecorded := nofun
  recorded := by
    rintro o ⟨⟩
    refine ⟨?_, hretry⟩
    rw [RecordKept]
    rcases hstatus with hstatus | hstatus | hstatus | hstatus <;> rw [hstatus] <;> exact h

/-- An operation whose applications left nothing behind, without a record. -/
lemma OperationInv.of_quiet_unrecorded (h : site.Quiet s.volume) :
    OperationInv s (site.withRecord none) where
  earlier a ha := h a (List.mem_of_mem_tail ha)
  unrecorded _ := h
  recorded := nofun

/-- An operation behind one more application. -/
lemma OperationInv.of_applied {plans : List PlannedPatch} {d : Disk φ} {record : Option Outcome}
    (h : site.Quiet s.volume)
    (hnone : record = none → ¬ Application.Effective s.volume ⟨plans, site.disk, d⟩)
    (hsome : ∀ o, record = some o → RecordKept s (site.patchedBy plans d record) o ∧
      (o.retrySafe = some true → o.status = .failedBeforeMutation ∨ o.Retryable)) :
    OperationInv s (site.patchedBy plans d record) where
  earlier a ha := h a ha
  unrecorded hrecord := List.forall_mem_cons.mpr ⟨hnone hrecord, h⟩
  recorded := hsome

lemma not_effective_self {plans : List PlannedPatch} {d : Disk φ} :
    ¬ Application.Effective s.volume ⟨plans, d, d⟩ := by
  rintro ⟨plan, -, x, -, hne⟩
  exact hne rfl

lemma Planning.all_planned {args : Value} {deadline : Deadline} {plans : List PlannedPatch}
    {count : ℕ} (h : Planning s patch site args deadline plans count) :
    ∀ plan ∈ plans, ∃ file, Planned s site.disk file plan := by
  obtain ⟨files, -, hplans⟩ := planned_of_planPatch h.planned
  intro plan hplan
  obtain ⟨file, -, hfile⟩ := exists_related hplans.flip hplan
  exact ⟨file, hfile⟩

/-- The record of a patch that is being applied. -/
lemma recordKept_applying {args : Value} {deadline : Deadline} {plans : List PlannedPatch}
    {count : ℕ} (h : Planning s patch site args deadline plans count)
    (hapart : Apart s.volume plans) (d : Disk φ) (record : Option Outcome) :
    RecordKept s (site.patchedBy plans d record)
      (applyingOutcome s (patchSha s patch) count plans) :=
  ⟨_, _, rfl, rfl, rfl, hapart, h.all_planned⟩

/-- What `reconcileOutcome` makes of a record that is not final. -/
lemma OperationInv.reconcile (hsha : Function.Injective s.sha256) (hinv : OperationInv s site)
    {o : Outcome} (hrecord : site.record = some o)
    (hunfinished : o.status = .accepted ∨ o.status = .applying) :
    (site.Quiet s.volume ∧ (reconcileOutcome s site.disk o).status = .interruptedBeforeMutation ∧
        (reconcileOutcome s site.disk o).retrySafe = some true) ∨
      ((reconcileOutcome s site.disk o).retrySafe = some false ∧
        ((reconcileOutcome s site.disk o).status = .interruptedPartial ∨
          (reconcileOutcome s site.disk o).status = .patchedRecovered ∧
            ∃ a rest, site.applied = a :: rest ∧ InAfterState s.volume a.plans site.disk)) := by
  have hkept := (hinv.recorded o hrecord).1
  rw [RecordKept] at hkept
  rcases hunfinished with hstatus | hstatus
  · rw [hstatus] at hkept
    exact Or.inl ⟨hkept, by simp [reconcileOutcome, hstatus], by simp [reconcileOutcome, hstatus]⟩
  · rw [hstatus] at hkept
    obtain ⟨a, rest, happlied, hdisk, hplan, hapart, hplanned⟩ := hkept
    by_cases hafter : patchStateSetMatches s site.disk (some (stateSet s a.plans true)) = true
    · refine Or.inr ⟨by simp [reconcileOutcome, hstatus, hplan, hafter],
        Or.inr ⟨by simp [reconcileOutcome, hstatus, hplan, hafter], a, rest, happlied, ?_⟩⟩
      exact states_of_matches hsha hplanned hafter
    by_cases hbefore : patchStateSetMatches s site.disk (some (stateSet s a.plans false)) = true
    · refine Or.inl ⟨?_, by simp [reconcileOutcome, hstatus, hplan, hafter, hbefore],
        by simp [reconcileOutcome, hstatus, hplan, hafter, hbefore]⟩
      have hquiet := not_effective_of_matches hsha hplanned hapart hbefore
      rw [hdisk] at hquiet
      have hearlier := hinv.earlier
      rw [happlied] at hearlier
      rw [Site.Quiet, happlied]
      exact List.forall_mem_cons.mpr ⟨hquiet, hearlier⟩
    · exact Or.inr ⟨by simp [reconcileOutcome, hstatus, hplan, hafter, hbefore],
        Or.inl (by simp [reconcileOutcome, hstatus, hplan, hafter, hbefore])⟩

end

/-- The record behind `write_patch_outcome`: the new one, or what a crash leaves. -/
lemma saved_cases {old : Option Outcome} {new : Outcome} {crash : Option CrashPoint}
    {motive : Option Outcome → Prop} (hnew : motive (some new))
    (hbefore : crash = some .before → motive old) (hbetween : crash = some .between → motive none) :
    motive (saved old new crash) := by
  rcases crash with _ | point
  · exact hnew
  · cases point
    · exact hbefore rfl
    · exact hbetween rfl
    · exact hnew

/-- **Every careful call keeps the invariant.** -/
theorem OperationInv.step (hsha : Function.Injective s.sha256) (hinv : OperationInv s site)
    (h : Step s patch site call answer site') (hcareful : Careful s patch site call answer) :
    OperationInv s site' := by
  cases h with
  | refused => exact hinv
  | replayed _ _ => exact hinv
  | shown _ => exact hinv
  | accepting starts point =>
      have hquiet := Site.Quiet.of_starts hinv starts
      refine saved_cases (motive := fun record => OperationInv s (site.withRecord record)) ?_ ?_ ?_
      · exact of_quiet hquiet (Or.inl rfl) nofun
      · exact fun _ => hinv
      · exact fun _ => of_quiet_unrecorded hquiet
  | planFailed starts _ crash =>
      have hquiet := Site.Quiet.of_starts hinv starts
      refine saved_cases (motive := fun record => OperationInv s (site.withRecord record)) ?_ ?_ ?_
      · exact of_quiet hquiet (Or.inr (Or.inr (Or.inl rfl))) fun _ => Or.inl rfl
      · exact fun _ => of_quiet hquiet (Or.inl rfl) nofun
      · exact fun _ => of_quiet_unrecorded hquiet
  | checked starts _ _ crash =>
      have hquiet := Site.Quiet.of_starts hinv starts
      refine saved_cases (motive := fun record => OperationInv s (site.withRecord record)) ?_ ?_ ?_
      · exact of_quiet hquiet (Or.inr (Or.inl rfl)) nofun
      · exact fun _ => of_quiet hquiet (Or.inl rfl) nofun
      · exact fun _ => of_quiet_unrecorded hquiet
  | beginning planning point =>
      have hquiet := Site.Quiet.of_starts hinv planning.starts
      refine saved_cases (motive := fun record => OperationInv s (site.patchedBy _ _ record)) ?_ ?_ ?_
      · refine of_applied hquiet nofun ?_
        rintro o ⟨⟩
        exact ⟨recordKept_applying planning (hcareful.apart _ _ _ rfl planning.planned) _ _, nofun⟩
      · refine fun _ => of_applied hquiet nofun ?_
        rintro o ⟨⟩
        exact ⟨List.forall_mem_cons.mpr ⟨not_effective_self, hquiet⟩, nofun⟩
      · exact fun _ => of_applied hquiet (fun _ => not_effective_self) (by simp)
  | interrupted planning _ =>
      refine of_applied (Site.Quiet.of_starts hinv planning.starts) nofun ?_
      rintro o ⟨⟩
      exact ⟨recordKept_applying planning (hcareful.apart _ _ _ rfl planning.planned) _ _, nofun⟩
  | rollingBack planning _ _ _ =>
      refine of_applied (Site.Quiet.of_starts hinv planning.starts) nofun ?_
      rintro o ⟨⟩
      exact ⟨recordKept_applying planning (hcareful.apart _ _ _ rfl planning.planned) _ _, nofun⟩
  | rolledBack planning _ _ crash =>
      have hquiet := Site.Quiet.of_starts hinv planning.starts
      refine saved_cases (motive := fun record => OperationInv s (site.patchedBy _ _ record)) ?_ ?_ ?_
      · refine of_applied hquiet nofun ?_
        rintro o ⟨⟩
        exact ⟨trivial, nofun⟩
      · refine fun _ => of_applied hquiet nofun ?_
        rintro o ⟨⟩
        exact ⟨recordKept_applying planning (hcareful.apart _ _ _ rfl planning.planned) _ _, nofun⟩
      · rintro rfl
        exact absurd rfl (hcareful.kept .failedRolledBack (by simp))
  | patched planning applied crash =>
      have hquiet := Site.Quiet.of_starts hinv planning.starts
      have hapart := hcareful.apart _ _ _ rfl planning.planned
      refine saved_cases (motive := fun record => OperationInv s (site.patchedBy _ _ record)) ?_ ?_ ?_
      · refine of_applied hquiet nofun ?_
        rintro o ⟨⟩
        exact ⟨⟨_, _, rfl, inAfterState_of_runs planning.all_planned hapart applied⟩, nofun⟩
      · refine fun _ => of_applied hquiet nofun ?_
        rintro o ⟨⟩
        exact ⟨recordKept_applying planning hapart _ _, nofun⟩
      · rintro rfl
        exact absurd rfl (hcareful.kept .patched (by simp))
  | @reconciled o record unfinished crash =>
      refine saved_cases (motive := fun record => OperationInv s (site.withRecord record)) ?_ ?_ ?_
      · rcases hinv.reconcile hsha record unfinished with ⟨hquiet, hstatus, hretry⟩ | ⟨hretry, hstatus⟩
        · exact of_quiet hquiet (Or.inr (Or.inr (Or.inr hstatus))) fun _ => Or.inr ⟨hstatus, hretry⟩
        · refine ⟨hinv.earlier, nofun, ?_⟩
          rintro o ⟨⟩
          refine ⟨?_, fun htrue => by simp [hretry] at htrue⟩
          rw [RecordKept]
          rcases hstatus with hstatus | ⟨hstatus, hstate⟩
          · rw [hstatus]
            trivial
          · rw [hstatus]
            exact hstate
      · intro _
        rw [← record]
        exact hinv
      · rintro rfl
        rcases hinv.reconcile hsha record unfinished with ⟨hquiet, -⟩ | ⟨-, hstatus | ⟨hstatus, -⟩⟩
        · exact of_quiet_unrecorded hquiet
        · exact absurd (by rw [Answer.unless, hstatus])
            (hcareful.kept .interruptedPartial (by simp))
        · exact absurd (by rw [Answer.unless, hstatus])
            (hcareful.kept .patchedRecovered (by simp))

omit [DecidableEq φ] in
lemma OperationInv.atMostOnce (hinv : OperationInv s site) : AtMostOnce s site := by
  have hearlier := hinv.earlier
  rw [AtMostOnce]
  cases happlied : site.applied with
  | nil => exact .nil
  | cons a rest =>
      rw [happlied, List.tail_cons] at hearlier
      refine List.pairwise_cons.mpr ⟨fun b hb heffective => hearlier b hb heffective.2, ?_⟩
      exact List.Pairwise.imp_of_mem (fun _ hb _ heffective => hearlier _ hb heffective.2)
        (List.pairwise_of_forall (R := fun _ _ => True) fun _ _ => trivial)

/-- A record that is answered is the one that is stored. -/
lemma Step.record_of_outcome {o : Outcome} (h : Step s patch site call (.outcome o) site') :
    ∃ o', site'.record = some o' ∧ o'.status = o.status := by
  generalize hanswer : Answer.outcome o = answer at h
  cases h with
  | refused => cases hanswer
  | replayed record _ =>
      cases hanswer
      exact ⟨_, record, rfl⟩
  | shown record =>
      cases hanswer
      exact ⟨_, record, rfl⟩
  | accepting _ _ => cases hanswer
  | beginning _ _ => cases hanswer
  | interrupted _ _ => cases hanswer
  | rollingBack _ _ _ _ => cases hanswer
  | planFailed _ _ crash => cases crash <;> cases hanswer
  | rolledBack _ _ _ crash => cases crash <;> cases hanswer
  | checked _ _ _ crash =>
      cases crash <;> cases hanswer
      exact ⟨_, rfl, rfl⟩
  | patched _ _ crash =>
      cases crash <;> cases hanswer
      exact ⟨_, rfl, rfl⟩
  | reconciled _ _ crash =>
      cases crash <;> cases hanswer
      exact ⟨_, rfl, rfl⟩

/-- **A careful call is answered truly.** -/
theorem OperationInv.truthful (hsha : Function.Injective s.sha256) (hinv : OperationInv s site)
    (h : Step s patch site call answer site') (hcareful : Careful s patch site call answer) :
    Truthful s call answer site' where
  state o hanswer hstatus := by
    obtain ⟨o', hrecord, hsame⟩ := (hanswer ▸ h).record_of_outcome
    have hkept := ((hinv.step hsha h hcareful).recorded o' hrecord).1
    rw [RecordKept, hsame] at hkept
    rcases hstatus with hstatus | hstatus
    · rw [hstatus] at hkept
      exact hkept
    · rw [hstatus] at hkept
      exact hkept
  retry args deadline o hcall hreal hanswer hreplayed hretry := by
    exfalso
    cases h with
    | refused => cases hanswer
    | shown _ => cases hcall
    | reconciled _ _ _ => cases hcall
    | accepting _ _ => cases hanswer
    | beginning _ _ => cases hanswer
    | interrupted _ _ => cases hanswer
    | rollingBack _ _ _ _ => cases hanswer
    | planFailed _ _ crash => cases crash <;> cases hanswer
    | rolledBack _ _ _ crash => cases crash <;> cases hanswer
    | checked _ _ dry _ =>
        cases hcall
        rw [hreal] at dry
        cases dry
    | patched _ _ crash =>
        cases crash <;> cases hanswer
        cases hreplayed
    | @replayed _ _ stored record final =>
        cases hanswer
        rcases (hinv.recorded stored record).2 hretry with hstatus | hretryable
        · exact hcareful.begun args deadline stored hcall hreal record hstatus
        · exact final hretryable

end Runs

open FailedPatch

lemma plainDigest_injective : Function.Injective plainSurface.sha256 := by
  have hbyte : Function.Injective fun byte : UInt8 => Char.ofNat byte.toNat := by
    intro b b' h
    have hvalid : ∀ b : UInt8, (Char.ofNat b.toNat).toNat = b.toNat := by
      intro b
      have := b.toNat_lt
      rw [Char.ofNat, dif_pos (Or.inl (by omega))]
      rfl
    have hnat := congrArg Char.toNat h
    simp only [hvalid] at hnat
    exact UInt8.toNat_inj.mp hnat
  intro content content' h
  cases content with
  | text chars =>
      cases content' with
      | text chars' =>
          cases h
          rfl
      | binary bytes' => cases h
  | binary bytes =>
      cases content' with
      | text chars' => cases h
      | binary bytes' =>
          have hbytes := (List.cons.inj h).2
          rw [List.map_injective_iff.mpr hbyte hbytes]

/-- A patch text without sections. -/
def noPatch : Text := "no patch".toList

lemma planPatch_noPatch : planPatch plainSurface (fun _ => .absent) (.object []) noPatch
    ⟨10000, fun _ => false⟩ = .error (.plain "patch_contains_no_files"
      (.object [("expected_format", .string "unified_diff_or_codex_apply_patch")])) := by
  decide +kernel

/-- A site without files. -/
def emptySite : Site Path := ⟨fun _ => .absent, none, []⟩

/-- It behind a call whose patch has no sections. -/
def failedSite : Site Path :=
  emptySite.withRecord (some (failedBeforeOutcome (patchSha plainSurface noPatch)))

lemma failedSite_reachable : (operationMachine plainSurface noPatch).Reachable failedSite :=
  .step (.init ⟨rfl, rfl⟩) ⟨_, _, @Step.planFailed _ _ plainSurface noPatch emptySite (.object [])
    ⟨10000, fun _ => false⟩ 0 _ rfl planPatch_noPatch none⟩

end Filesystem

end McpSurfaces
