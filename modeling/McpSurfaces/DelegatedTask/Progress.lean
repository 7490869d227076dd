import McpSurfaces.DelegatedTask.Burden
import McpSurfaces.DelegatedTask.Finished
import McpSurfaces.Foundation.Streams

/-!
Whether a task gets on.

* `settle_ok`: the local loop ends, and nothing is left for it. `ready_of_settled`: then all steps
  are passed, or one is ready.
* **`advance_progress`**: a pass that is enabled ends the task or makes its burden smaller.
* **`gets_on`**: in runs in which every task that is accepted has steps whose ids lead to their own
  states, every pass over a task with nothing that runs starts a worker or ends it, and there are
  only finitely many passes before the end.
* `stuck_without_steps`: a task without steps is never ended.
-/

namespace McpSurfaces

namespace DelegatedTask

open Calls (run Each)

variable {task next : Task} {id : String} {s : StepState}

section Passes

variable [RecordSize] {env : Env} {db : Records} {launches : List Launch}

/-! ### Parts of a pass that do not fail -/

/-- The sizes of what some tasks bring, added up. -/
def imported (db : Records) (size : Task → ℕ) (ids : List String) : ℕ :=
  (ids.map fun id => match readTask db id with
    | .ok other => size other
    | .error _ => 0).sum

/-- The outputs and the references that a task imports are no more than may be imported. -/
def Fits (db : Records) (task : Task) : Prop :=
  imported db (fun other => RecordSize.output (finalStructuredOutput other)) task.importTaskOutputs +
    imported db (fun other => RecordSize.refs other.workerRefs) task.importWorkerRefs ≤
      maxImportedTaskOutputBytes

lemma imported_cons {size : Task → ℕ} {other : Task} {rest : List String}
    (hread : readTask db id = .ok other) :
    imported db size (id :: rest) = size other + imported db size rest := by
  rw [imported, List.map_cons, List.sum_cons, hread, imported]

lemma importOutputs_ok {ids : List String} (total : ℕ)
    (hread : ∀ id ∈ ids, ∃ other, readTask db id = .ok other)
    (hfits : total + imported db (fun other => RecordSize.output (finalStructuredOutput other)) ids ≤
      maxImportedTaskOutputBytes) :
    ∃ outputs after, importOutputs db total ids = .ok (outputs, after) ∧
      after ≤ total + imported db (fun other =>
        RecordSize.output (finalStructuredOutput other)) ids := by
  induction ids generalizing total with
  | nil => exact ⟨_, _, rfl, Nat.le_add_right _ _⟩
  | cons id rest ih =>
      obtain ⟨other, hother⟩ := hread id List.mem_cons_self
      rw [imported_cons hother] at hfits ⊢
      by_cases hnull : finalStructuredOutput other = .null
      · refine ⟨.error id, total, ?_, Nat.le_add_right _ _⟩
        simp only [importOutputs, hother, hnull, bind, Except.bind, if_true]
        rfl
      · obtain ⟨outputs, after, houtputs, hle⟩ := ih
          (total + RecordSize.output (finalStructuredOutput other))
          (fun id hmem => hread id (List.mem_cons_of_mem _ hmem)) (by omega)
        have hsmall : ¬ maxImportedTaskOutputBytes <
            total + RecordSize.output (finalStructuredOutput other) := by omega
        refine ⟨outputs.map (.object [("task_id", .string id),
          ("source_ref", .string ("delegated-task://" ++ id ++ "/result#final_structured_output")),
          ("structured_output", finalStructuredOutput other)] :: ·), after, ?_, by omega⟩
        simp only [importOutputs, hother, hnull, hsmall, houtputs, bind, Except.bind, if_false]
        rfl

lemma importRefs_ok {ids : List String} (total : ℕ)
    (hread : ∀ id ∈ ids, ∃ other, readTask db id = .ok other)
    (hfits : total + imported db (fun other => RecordSize.refs other.workerRefs) ids ≤
      maxImportedTaskOutputBytes) : ∃ refs, importRefs db total ids = .ok refs := by
  induction ids generalizing total with
  | nil => exact ⟨_, rfl⟩
  | cons id rest ih =>
      obtain ⟨other, hother⟩ := hread id List.mem_cons_self
      rw [imported_cons hother] at hfits
      obtain ⟨refs, hrefs⟩ := ih (total + RecordSize.refs other.workerRefs)
        (fun id hmem => hread id (List.mem_cons_of_mem _ hmem)) (by omega)
      have hsmall : ¬ maxImportedTaskOutputBytes < total + RecordSize.refs other.workerRefs := by
        omega
      refine ⟨(id, other.workerRefs) :: refs, ?_⟩
      simp only [importRefs, hother, hsmall, hrefs, bind, Except.bind, if_false]
      rfl

lemma dependencyStates_ok {ids : List String}
    (hres : ∀ id ∈ ids, ∃ other, readTask db id = .ok other ∧ other.status = .completed) :
    dependencyStates db ids = .ok ([], []) := by
  induction ids with
  | nil => rfl
  | cons id rest ih =>
      obtain ⟨other, hother, hcompleted⟩ := hres id List.mem_cons_self
      have hrest := ih fun id hmem => hres id (List.mem_cons_of_mem _ hmem)
      simp only [dependencyStates, hother, hrest, hcompleted, bind, Except.bind]
      rfl

/-- The gate lets a task go on whose dependencies are completed, or ends it. -/
lemma gate_ok (env : Env) (h : Sturdy task) (hres : Resolved db task)
    (hfits : task.externalStatus = .resolved ∨ Fits db task) :
    ∃ goes next, externalDependencyGate env db task = .ok (goes, next) ∧
      (goes = false → next.status = .failed) := by
  have hread : ∀ id ∈ task.dependsOnTaskIds, ∃ other, readTask db id = .ok other := fun id hid =>
    (hres id hid).imp fun _ hother => hother.1
  have hok : ∃ result, externalDependencyGate env db task = .ok result := by
    unfold externalDependencyGate
    split
    · exact ⟨_, rfl⟩
    · simp only [dependencyStates_ok hres, bind, Except.bind, ne_eq, not_true_eq_false, if_false]
      split
      · exact ⟨_, rfl⟩
      · next hexternal =>
          have hsmall := hfits.resolve_left hexternal
          unfold Fits at hsmall
          obtain ⟨outputs, after, houtputs, hle⟩ := importOutputs_ok 0
            (fun id hid => hread id (h.imports hid)) (by omega)
          rw [houtputs]
          cases outputs with
          | error missing => exact ⟨_, rfl⟩
          | ok outputs =>
              obtain ⟨refs, hrefs⟩ := importRefs_ok after
                (fun id hid => hread id (h.refs hid)) (by omega)
              dsimp only
              rw [hrefs]
              exact ⟨_, rfl⟩
  obtain ⟨⟨goes, next⟩, hgate⟩ := hok
  refine ⟨goes, next, hgate, fun hstops => ?_⟩
  rcases gate_cases hgate with ⟨hgoes, -⟩ | ⟨-, -, blocked, rfl⟩ | ⟨-, hwaits, -⟩ | ⟨-, -, -, -, rfl⟩
  · cases hstops.symm.trans hgoes
  · rfl
  · exact absurd hres hwaits
  · rfl

section

omit [RecordSize]

/-- The worker of a step is told to have ended. -/
def Over (env : Env) (s : StepState) : Prop :=
  ∃ answer, env.workerRunStatus (s.currentRunId.getD "") = .ok answer ∧
    (workerOf answer = "completed" ∨ endedBadly (workerOf answer))

/-- Polls do not fail where all workers are told to have ended, and every one makes the burden
smaller. -/
lemma pollSteps_ok (env : Env) {ids : List String} (h : Sturdy task) (hids : ids ⊆ task.stepIds)
    (hnodup : ids.Nodup) (hover : ∀ id ∈ ids, ∀ s, task.states.get id = some s →
      s.status = .running → Over env s) :
    ∃ next, pollSteps env ids task = .ok next ∧ Worn task next ∧
      ((∃ id ∈ ids, ∃ s, task.states.get id = some s ∧ s.status = .running) →
        burden next < burden task) ∧
      ((∀ id s, task.states.get id = some s → s.status ≠ .running) → next = task) := by
  induction ids generalizing task with
  | nil => exact ⟨task, rfl, Worn.refl h, (fun ⟨_, hmem, _⟩ => nomatch hmem), fun _ => rfl⟩
  | cons id rest ih =>
      obtain ⟨hid, hrest⟩ := List.nodup_cons.mp hnodup
      have hmem : id ∈ task.stepIds := hids List.mem_cons_self
      obtain ⟨s, hs⟩ := h.state_of_mem hmem
      by_cases hruns : s.status = .running
      · obtain ⟨answer, hanswer, hended⟩ := hover id List.mem_cons_self s hs hruns
        have hpoll : pollStep env task id =
            .ok (settleWorker env task id (currentRun task id) answer) := by
          rw [pollStep, if_pos ((h.reads_iff hs).mpr hruns),
            currentRun_of_plain (h.plain id hmem) hs, hanswer]
        obtain ⟨hworn, hless⟩ := worn_settleWorker h env answer hs hruns
        have hsettles := settles_settleWorker env answer (h.plain id hmem) hs
        obtain ⟨next, hnext, hlast, -, -⟩ := ih hworn.sturdy
          (fun other hother => by
            rw [hworn.shape.stepIds]
            exact hids (List.mem_cons_of_mem _ hother)) hrest
          fun other hother state hstate => by
            have hne : other ≠ id := fun heq => hid (heq ▸ hother)
            rw [hsettles.others other hne] at hstate
            exact hover other (List.mem_cons_of_mem _ hother) state hstate
        refine ⟨next, ?_, hworn.trans hlast, fun _ => hlast.burden_le.trans_lt (hless hended),
          fun hnone => absurd hruns (hnone id s hs)⟩
        rw [pollSteps, hpoll]
        exact hnext
      · have hpoll : pollStep env task id = .ok task := by
          rw [pollStep, if_neg fun hreads => hruns ((h.reads_iff hs).mp hreads)]
        obtain ⟨next, hnext, hlast, hless, hsame⟩ := ih h
          (fun _ hother => hids (List.mem_cons_of_mem _ hother)) hrest
          fun other hother => hover other (List.mem_cons_of_mem _ hother)
        refine ⟨next, ?_, hlast, ?_, hsame⟩
        · rw [pollSteps, hpoll]
          exact hnext
        · rintro ⟨other, hother, state, hstate, hstateRuns⟩
          rcases List.mem_cons.mp hother with rfl | hother
          · cases hs.symm.trans hstate
            exact absurd hstateRuns hruns
          · exact hless ⟨other, hother, state, hstate, hstateRuns⟩

/-- A round with progress leaves fewer steps pending, and one without has found nothing to do. -/
lemma settleRound_spec (env : Env) {steps : List Value} (h : Sturdy task)
    (hopen : task.status ≠ .failed) (hsteps : steps ⊆ task.steps) :
    Worn task (settleRound env steps task).1 ∧
      (settleRound env steps task).1.status = task.status ∧
      (settleRound env steps task).1.steps = task.steps ∧
      waiting (settleRound env steps task).1 ≤ waiting task ∧
      ((settleRound env steps task).2 = true →
        waiting (settleRound env steps task).1 < waiting task) ∧
      ((settleRound env steps task).2 = false → (settleRound env steps task).1 = task ∧
        ∀ step ∈ steps, settleStep env task step = none) := by
  induction steps generalizing task with
  | nil =>
      exact ⟨Worn.refl h, rfl, rfl, le_rfl, (fun hprogress => nomatch hprogress),
        fun _ => ⟨rfl, fun _ hmem => nomatch hmem⟩⟩
  | cons step rest ih =>
      have hrest : rest ⊆ task.steps := fun _ hmem => hsteps (List.mem_cons_of_mem _ hmem)
      rw [settleRound]
      split
      · next hnone =>
          obtain ⟨hworn, hstatus, hsame, hle, hlt, hfixed⟩ := ih h hopen hrest
          refine ⟨hworn, hstatus, hsame, hle, hlt, fun hprogress => ?_⟩
          obtain ⟨heq, hall⟩ := hfixed hprogress
          exact ⟨heq, List.forall_mem_cons.mpr ⟨hnone, hall⟩⟩
      · next next hnext =>
          obtain ⟨hworn, hfewer⟩ := worn_settleStep h hopen (hsteps List.mem_cons_self) hnext
          have hstatus := status_settleStep hnext
          have hsame := (sameTask_settleStep hnext).steps
          obtain ⟨hlast, hlastStatus, hlastSame, hle, -, -⟩ := ih hworn.sturdy (hstatus ▸ hopen)
            (hsame ▸ hrest)
          exact ⟨hworn.trans hlast, hlastStatus.trans hstatus, hlastSame.trans hsame,
            hle.trans hfewer.le, fun _ => hle.trans_lt hfewer, fun hprogress => by cases hprogress⟩

/-- **The local loop ends**, and leaves nothing that it could do. -/
lemma settle_ok (env : Env) {rounds : ℕ} (h : Sturdy task) (hopen : task.status ≠ .failed)
    (hrounds : waiting task < rounds) :
    ∃ next, settle env rounds task = .ok next ∧ Worn task next ∧ next.status = task.status ∧
      ∀ step ∈ next.steps, settleStep env next step = none := by
  induction rounds generalizing task with
  | zero => omega
  | succ rounds ih =>
      obtain ⟨hworn, hstatus, hsame, -, hlt, hfixed⟩ := settleRound_spec env h hopen
        (List.Subset.refl task.steps)
      rw [settle]
      dsimp only
      cases hprogress : (settleRound env task.steps task).2 with
      | true =>
          have hfewer := hlt hprogress
          obtain ⟨next, hnext, hlast, hlastStatus, hall⟩ := ih hworn.sturdy (hstatus ▸ hopen)
            (by omega)
          exact ⟨next, hnext, hworn.trans hlast, hlastStatus.trans hstatus, hall⟩
      | false =>
          obtain ⟨heq, hall⟩ := hfixed hprogress
          refine ⟨_, rfl, hworn, hstatus, ?_⟩
          rw [heq]
          exact hall

/-- The local loop sets no step running. -/
lemma runs_settleStep {step : Value} (hstep : settleStep env task step = some next)
    (hs : next.states.get id = some s) (hruns : s.status = .running) :
    task.states.get id = some s := by
  have hset : ∀ (other : String) (set : StepState → StepState), (∀ s, (set s).status ≠ .running) →
      next = task.setStep other set → task.states.get id = some s := by
    rintro other set hset rfl
    rw [Task.get_setStep] at hs
    obtain ⟨old, hold, heq⟩ := Option.map_eq_some_iff.mp hs
    split at heq
    · exact absurd (heq ▸ hruns) (hset old)
    · rw [hold, heq]
  obtain ⟨other, -, -, ⟨-, heq⟩ | ⟨-, -, heq⟩ | ⟨-, -, -, heq⟩⟩ := settleStep_cases hstep
  · refine hset other _ (fun _ h => ?_) heq
    cases h
  · refine hset other _ (fun _ h => ?_) heq
    cases h
  · refine hset other _ (fun _ h => ?_) heq
    dsimp only at h
    split at h <;> cases h

lemma runs_settleRound {steps : List Value} (hs : (settleRound env steps task).1.states.get id = some s)
    (hruns : s.status = .running) : task.states.get id = some s := by
  induction steps generalizing task with
  | nil => exact hs
  | cons step rest ih =>
      rw [settleRound] at hs
      split at hs
      · exact ih hs
      · next next hnext => exact runs_settleStep hnext (ih hs) hruns

lemma runs_settle {rounds : ℕ} (hsettle : settle env rounds task = .ok next)
    (hs : next.states.get id = some s) (hruns : s.status = .running) :
    task.states.get id = some s := by
  induction rounds generalizing task with
  | zero => cases hsettle
  | succ rounds ih =>
      rw [settle] at hsettle
      dsimp only at hsettle
      split at hsettle
      · exact runs_settleRound (ih hsettle) hruns
      · cases hsettle
        exact runs_settleRound hs hruns

lemma not_pending_of_passed (h : Passed task id) : ¬ task.Reads id .pending := by
  intro hpending
  rcases h with h | h | h <;>
    cases StepStatus.text_injective (Option.some.inj (hpending.symm.trans h))

/-- The step that is found by an id is the one that has it. -/
lemma find?_of_id? {steps : List Value} {step : Value} (hnodup : (stepIds steps).Nodup)
    (hstep : step ∈ steps) (hid : Step.id? step = some id) :
    steps.find? (fun step => Step.id? step = some id) = some step := by
  have hsome : (steps.find? fun step => Step.id? step = some id).isSome :=
    List.find?_isSome.mpr ⟨step, hstep, by simpa using hid⟩
  obtain ⟨other, hother⟩ := Option.isSome_iff_exists.mp hsome
  have hotherId : Step.id? other = some id := by simpa using List.find?_some hother
  rw [hother, eq_of_id? hnodup (List.mem_of_find?_eq_some hother) hstep hotherId hid]

/-- Where no worker is refused, starting them does not fail. -/
lemma launchAll_ok (env : Env) (hworkers : ∀ id constraints, ∃ run,
    env.workerRun id constraints = .ok run) (ids : List String) (active : ℕ) (task : Task) :
    ∃ next launches, launchAll env ids active task = (.ok next, launches) := by
  induction ids generalizing active task with
  | nil => exact ⟨task, [], rfl⟩
  | cons id rest ih =>
      rw [launchAll]
      split
      · exact ih active task
      · next step _ =>
          split
          · exact ih active task
          · obtain ⟨run, hrun⟩ := hworkers id (asynchronousWorkerConstraints task.constraints step)
            obtain ⟨next, launches, hnext⟩ := ih (active + 1)
              (recordStarted task id (Step.kind step) (runIdOf run))
            dsimp only
            rw [hrun]
            dsimp only
            rw [hnext]
            exact ⟨next, _, rfl⟩

/-- A worker is started where a step is ready that needs one, and none runs. -/
lemma launches_of_ready {ids : List String} {active : ℕ} (hactive : active < task.maxConcurrency)
    (hready : ∃ id ∈ ids, ∃ step, task.steps.find? (fun step => Step.id? step = some id) = some step ∧
      ¬ Step.Local step) (hlaunch : launchAll env ids active task = (.ok next, launches)) :
    launches ≠ [] := by
  induction ids with
  | nil =>
      obtain ⟨id, hid, -⟩ := hready
      cases hid
  | cons id rest ih =>
      have hrest : (∀ step, task.steps.find? (fun step => Step.id? step = some id) = some step →
          Step.Local step) → launchAll env rest active task = (.ok next, launches) →
          launches ≠ [] := by
        intro hlocal hlaunch
        obtain ⟨other, hother, step, hstep, hkind⟩ := hready
        rcases List.mem_cons.mp hother with rfl | hother
        · exact absurd (hlocal step hstep) hkind
        · exact ih ⟨other, hother, step, hstep, hkind⟩ hlaunch
      rw [launchAll] at hlaunch
      split at hlaunch
      · next hnone => exact hrest (fun step hstep => by cases hnone.symm.trans hstep) hlaunch
      · next step hstep =>
          split at hlaunch
          · next hskip =>
              refine hrest (fun other hother => ?_) hlaunch
              cases hstep.symm.trans hother
              exact hskip.resolve_right (not_le.mpr hactive)
          · dsimp only at hlaunch
            split at hlaunch
            · cases (Prod.mk.inj hlaunch).1
            · rw [← (Prod.mk.inj hlaunch).2]
              exact List.cons_ne_nil _ _

/-- Where the local loop has nothing to do and no step runs, all steps are passed, or one is ready
that needs a worker. -/
lemma ready_of_settled (h : Sturdy task) (hopen : task.status ≠ .failed)
    (hfixed : ∀ step ∈ task.steps, settleStep env task step = none)
    (hidle : ∀ id s, task.states.get id = some s → s.status ≠ .running) :
    (∀ id ∈ task.stepIds, Passed task id) ∨
      ∃ id ∈ readyStepIds env task, ∃ step ∈ task.steps, Step.id? step = some id ∧
        ¬ Step.Local step := by
  have hcases : ∀ id ∈ task.stepIds, Passed task id ∨ task.Reads id .pending := by
    intro id hid
    obtain ⟨s, hs⟩ := h.state_of_mem hid
    have hreads : ∀ status, s.status = status → task.Reads id status := fun status =>
      (h.reads_iff hs).mpr
    have hbroken := h.broken id s hs
    have hruns := hidle id s hs
    cases hstatus : s.status with
    | pending => exact .inr (hreads _ hstatus)
    | running => exact absurd hstatus hruns
    | completed => exact .inl (.inl (hreads _ hstatus))
    | failed => exact absurd (hbroken (.inl hstatus)) hopen
    | skipped => exact .inl (.inr (.inl (hreads _ hstatus)))
    | blocked => exact absurd (hbroken (.inr hstatus)) hopen
    | noted => exact .inl (.inr (.inr (hreads _ hstatus)))
  by_cases hall : ∀ id ∈ task.stepIds, Passed task id
  · exact .inl hall
  · push Not at hall
    obtain ⟨first, hfirst, hfirstOpen⟩ := hall
    obtain ⟨rank, hrank⟩ := h.sound.ordered
    right
    -- Of the steps that are pending one comes first: all that it depends on is passed.
    have hfind : ∀ n id, rank id = n → id ∈ task.stepIds → task.Reads id .pending →
        ∃ id ∈ readyStepIds env task, ∃ step ∈ task.steps, Step.id? step = some id ∧
          ¬ Step.Local step := by
      intro n
      induction n using Nat.strong_induction_on with
      | _ n ih =>
          intro id hn hid hpending
          obtain ⟨step, hstep, hstepid⟩ := mem_stepIds.mp hid
          have hnone := hfixed step hstep
          unfold settleStep at hnone
          rw [hstepid] at hnone
          dsimp only at hnone
          rw [if_neg (not_not.mpr hpending)] at hnone
          split at hnone
          · cases hnone
          · split at hnone
            · next hwaits =>
                push Not at hwaits
                obtain ⟨dependency, hdep, hdepOpen⟩ := hwaits
                have hmem := h.sound.known step hstep dependency hdep
                exact ih (rank dependency) (hn ▸ hrank step hstep id hstepid dependency hdep)
                  dependency rfl hmem ((hcases dependency hmem).resolve_left hdepOpen)
            · next hready =>
                split at hnone
                · cases hnone
                · next hpasses =>
                    split at hnone
                    · cases hnone
                    · next hlocal =>
                        exact ⟨id, mem_readyStepIds.mpr ⟨step, hstep, hstepid, hpending,
                          not_not.mp hready, not_not.mp hpasses⟩, step, hstep, hstepid, hlocal⟩
    exact hfind _ first rfl hfirst ((hcases first hfirst).resolve_left hfirstOpen)

end

/-! ### A pass gets on -/

/-- What a pass needs that gets on: imports that fit, workers that are not refused, and rounds enough
for the local loop. -/
structure Enabled (env : Env) (db : Records) (task : Task) : Prop where
  fits : task.externalStatus = .resolved ∨ Fits db task
  workers : ∀ id constraints, ∃ run, env.workerRun id constraints = .ok run
  rounds : task.stepIds.length < env.rounds

omit [RecordSize] in
lemma terminal_of_passed (env : Env) (h : Sturdy task) (hall : ∀ id ∈ task.stepIds, Passed task id) :
    (finish env task).Terminal := by
  unfold finish
  rw [if_pos ⟨h.nonempty, hall⟩]
  dsimp only [Task.Terminal]
  split
  · exact .inr (.inl rfl)
  · exact .inl rfl

omit [RecordSize] in
lemma maxConcurrency_pos (task : Task) : 0 < task.maxConcurrency := by
  rw [Task.maxConcurrency, maxConcurrencyOf]
  omega

/-- Behind the gate, a pass ends the task or makes its burden smaller; where no step runs, it ends the
task or starts a worker. -/
lemma schedule_progress (h : Sturdy task) (hopen : ¬ task.Terminal) (hres : Resolved db task)
    (hworkers : ∀ id constraints, ∃ run, env.workerRun id constraints = .ok run)
    (hrounds : task.stepIds.length < env.rounds)
    (hover : ∀ id s, task.states.get id = some s → s.status = .running → Over env s) :
    ∃ next launches, schedule env task = (.ok next, launches) ∧
      (next.Terminal ∨ burden next < burden task) ∧
      ((∀ id s, task.states.get id = some s → s.status ≠ .running) →
        next.Terminal ∨ launches ≠ []) := by
  have hfailed : task.status ≠ .failed := fun hstatus => hopen (.inr (.inl hstatus))
  obtain ⟨polled, hpolled, hpolls, hless, hsame⟩ := pollSteps_ok env h (List.Subset.refl _)
    h.sound.distinct fun id _ => hover id
  unfold schedule
  rw [hpolled]
  dsimp only
  by_cases hends : polled.status = .failed
  · refine ⟨reviewed env polled, [], if_pos hends, .inl (.inr (.inl hends)), fun _ =>
      .inl (.inr (.inl hends))⟩
  have hreviewed : Worn polled (reviewed env polled) := hpolls.sturdy.worn_congr
    ⟨rfl, rfl, rfl, rfl, rfl, rfl, rfl⟩ hpolls.sturdy.sound rfl fun h => h
  have hfewer : waiting (reviewed env polled) < env.rounds := by
    refine (waiting_le _).trans_lt ?_
    rw [hreviewed.shape.stepIds, hpolls.shape.stepIds]
    exact hrounds
  obtain ⟨settled, hsettled, hsettles, hstatus, hfixed⟩ := settle_ok env hreviewed.sturdy hends hfewer
  obtain ⟨launched, launches, hlaunched⟩ := launchAll_ok env hworkers (readyStepIds env settled)
    (activeCount settled) settled
  have hgoes : settled.status ≠ .failed := hstatus ▸ hends
  have hquiet := hpolls.trans (hreviewed.trans hsettles)
  have hsettledRes : Resolved db settled := by
    rw [Resolved, hquiet.shape.dependsOnTaskIds]
    exact hres
  obtain ⟨last, hmoves, -, hlastOpen, hok⟩ := moves_of_launchAll settled settled
    (activeCount settled) (hsettles.sturdy.sound.distinct.sublist readyStepIds_sublist)
    (fun _ h => h) rfl rfl (fun _ _ => rfl) hgoes hsettledRes
  cases hok launched (congrArg Prod.fst hlaunched)
  rw [hlaunched] at hmoves
  obtain ⟨hstarts, hstartsLess⟩ := hmoves.worn hsettles.sturdy
  have hmove : Move env db launched [] (finish env launched) := .finished launched hlastOpen
  have hfinish := (hmove.worn hstarts.sturdy).1
  have hrest : Worn polled (finish env launched) :=
    hreviewed.trans (hsettles.trans (hstarts.trans hfinish))
  have hidle : (∀ id s, task.states.get id = some s → s.status ≠ .running) →
      (finish env launched).Terminal ∨ launches ≠ [] := by
    intro hnone
    have hsettledIdle : ∀ id s, settled.states.get id = some s → s.status ≠ .running := by
      intro id s hs hruns
      have hbefore := runs_settle hsettled hs hruns
      rw [hsame hnone] at hbefore
      exact hnone id s hbefore hruns
    rcases ready_of_settled hsettles.sturdy hgoes hfixed hsettledIdle with hall |
      ⟨id, hid, step, hstep, hstepid, hkind⟩
    · have hnone : readyStepIds env settled = [] := by
        refine List.eq_nil_iff_forall_not_mem.mpr fun id hid => ?_
        obtain ⟨step, hstep, hstepid, hpending, -⟩ := mem_readyStepIds.mp hid
        exact not_pending_of_passed (hall id (mem_stepIds.mpr ⟨step, hstep, hstepid⟩)) hpending
      rw [hnone] at hlaunched
      cases Except.ok.inj (Prod.mk.inj hlaunched).1
      exact .inl (terminal_of_passed env hsettles.sturdy hall)
    · have hactive : activeCount settled = 0 := by
        rw [activeCount, List.length_eq_zero_iff, List.filter_eq_nil_iff]
        intro other hother hreads
        obtain ⟨s, hs⟩ := hsettles.sturdy.state_of_mem hother
        exact hsettledIdle other s hs ((hsettles.sturdy.reads_iff hs).mp (of_decide_eq_true hreads))
      refine .inr (launches_of_ready ?_ ⟨id, hid, step, ?_, hkind⟩ hlaunched)
      · rw [hactive]
        exact maxConcurrency_pos settled
      · exact find?_of_id? hsettles.sturdy.sound.distinct hstep hstepid
  refine ⟨finish env launched, launches, ?_, ?_, hidle⟩
  · rw [if_neg (show (reviewed env polled).status ≠ .failed from hends), hsettled]
    dsimp only
    rw [hlaunched]
    rfl
  · by_cases hruns : ∃ id s, task.states.get id = some s ∧ s.status = .running
    · obtain ⟨id, s, hs, hstatus⟩ := hruns
      exact .inr (hrest.burden_le.trans_lt (hless ⟨id, h.mem_of_state hs, s, hs, hstatus⟩))
    · push Not at hruns
      refine (hidle hruns).imp_right fun hsome => ?_
      exact hfinish.burden_le.trans_lt ((hstartsLess hsome).trans_le hquiet.burden_le)

/-- **A pass that is enabled gets on**, where every worker that runs is told to have ended: it ends
the task or makes its burden smaller. Where no step runs, it ends the task or starts a worker. -/
theorem advance_progress (h : Sturdy task) (hopen : ¬ task.Terminal) (hres : Resolved db task)
    (henabled : Enabled env db task)
    (hover : ∀ id s, task.states.get id = some s → s.status = .running → Over env s) :
    ∃ next launches, advance env db task = (.ok next, launches) ∧
      (next.Terminal ∨ burden next < burden task) ∧
      ((∀ id s, task.states.get id = some s → s.status ≠ .running) →
        next.Terminal ∨ launches ≠ []) := by
  have hmove : Move env db task [] (normalizePersistedConstraints task) := .normalizes task
  have hnormal := (hmove.worn h).1
  obtain ⟨goes, gated, hgate, hstops⟩ := gate_ok env hnormal.sturdy hres henabled.fits
  have hstill : ¬ (normalizePersistedConstraints task).Terminal := hopen
  obtain ⟨hgateMove, hsame, hpasses⟩ := move_of_gate hstill hgate
  have hgated := hnormal.trans (hgateMove.worn hnormal.sturdy).1
  unfold advance
  dsimp only
  rw [if_neg hstill, hgate]
  cases goes with
  | false =>
      have hends : gated.Terminal := .inr (.inl (hstops rfl))
      exact ⟨gated, [], rfl, .inl hends, fun _ => .inl hends⟩
  | true =>
      obtain ⟨hgatedRes, hgatedOpen⟩ := hpasses rfl
      have hstates : gated.states = task.states := by
        rcases gate_cases hgate with ⟨-, -, outputs, refs, rfl⟩ | ⟨hgoes, -⟩ | ⟨hgoes, -⟩ |
          ⟨hgoes, -⟩
        · rfl
        · cases hgoes
        · cases hgoes
        · cases hgoes
      obtain ⟨next, launches, hnext, hless, hidle⟩ := schedule_progress hgated.sturdy hgatedOpen
        hgatedRes henabled.workers (by rw [hgated.shape.stepIds]; exact henabled.rounds)
        (hstates ▸ hover)
      refine ⟨next, launches, hnext, hless.imp_right fun hlt => hlt.trans_le hgated.burden_le, ?_⟩
      rw [← hstates]
      exact hidle

/-! ### Records that are kept -/

/-- A task that is accepted with steps, whose ids lead to their own states. -/
def Movable (task : Task) : Prop := task.stepIds ≠ [] ∧ ∀ id ∈ task.stepIds, Plain id

variable {w w' : World}

/-- What is kept where every task that is accepted is movable. -/
structure Upheld (w : World) : Prop extends Filed w where
  sturdy : ∀ task ∈ w.tasks, Sturdy task

omit [RecordSize] in
lemma upheld_empty : Upheld World.empty where
  toFiled := filed_empty
  sturdy _ htask := absurd htask List.not_mem_nil

/-- What a section leaves of every task: less before it, or its end. -/
def Follows (w w' : World) : Prop :=
  ∀ task ∈ w.tasks, ∃ now ∈ w'.tasks, now.taskId = task.taskId ∧
    now.dependsOnTaskIds = task.dependsOnTaskIds ∧ (Worn task now ∨ now.Terminal) ∧
    (task.Terminal → now.Terminal) ∧ (task.status = .completed → now.status = .completed)

omit [RecordSize] in
lemma Follows.trans {later : World} (h : Follows w w') (h' : Follows w' later) :
    Follows w later := by
  intro task htask
  obtain ⟨mid, hmid, hmidId, hmidDeps, hmidWorn, hmidEnds, hmidDone⟩ := h task htask
  obtain ⟨now, hnow, hnowId, hnowDeps, hnowWorn, hnowEnds, hnowDone⟩ := h' mid hmid
  refine ⟨now, hnow, hnowId.trans hmidId, hnowDeps.trans hmidDeps, ?_,
    fun hends => hnowEnds (hmidEnds hends), fun hdone => hnowDone (hmidDone hdone)⟩
  rcases hmidWorn with hworn | hends
  · exact hnowWorn.imp_left hworn.trans
  · exact .inr (hnowEnds hends)

omit [RecordSize] in
/-- A task that stays as it is. -/
lemma Upheld.follows_of_mem (h : Upheld w) (hsub : w.tasks ⊆ w'.tasks) : Follows w w' :=
  fun task htask => ⟨task, hsub htask, rfl, rfl, .inl (Worn.refl (h.sturdy task htask)),
    (fun hends => hends), fun hdone => hdone⟩

lemma Upheld.pass (h : Upheld w) (env : Env) (htask : task ∈ w.tasks) :
    Upheld (w.pass env task) ∧ Follows w (w.pass env task) := by
  obtain ⟨last, hmoves, hok⟩ := moves_of_advance env w.tasks (h.distinct task htask)
  have hworn := (hmoves.worn (h.sturdy task htask)).1
  refine ⟨⟨h.toFiled.pass htask, fun other hother => ?_⟩, fun other hother => ?_⟩
  · rcases mem_pass (h.distinct task htask) hother with ⟨hold, -⟩ | ⟨-, hothers⟩
    · exact h.sturdy other hold
    · exact (hothers.worn (h.sturdy task htask)).1.sturdy
  · by_cases heq : other.taskId = task.taskId
    · cases List.inj_on_of_nodup_map h.ids hother htask heq
      by_cases hends : task.Terminal
      · exact ⟨normalizePersistedConstraints task, mem_pass_of_terminal htask hends, rfl, rfl,
          .inr hends, fun _ => hends, fun hdone => hdone⟩
      · cases hresult : (DelegatedTask.advance env w.tasks task).1 with
        | error e =>
            refine ⟨task, ?_, rfl, rfl, .inl (Worn.refl (h.sturdy task htask)),
              (fun hends => hends), fun hdone => hdone⟩
            unfold World.pass
            dsimp only
            rw [hresult]
            exact htask
        | ok next =>
            cases hok next hresult
            refine ⟨last, ?_, hmoves.shape.taskId, hmoves.shape.dependsOnTaskIds, .inl hworn,
              fun hterminal => absurd hterminal hends,
              fun hdone => absurd (.inl hdone) hends⟩
            unfold World.pass
            dsimp only
            rw [hresult]
            exact mem_writeTask.mpr (.inr ⟨rfl, task, htask, hmoves.shape.taskId.symm⟩)
    · exact ⟨other, mem_pass_of_ne (h.distinct task htask) hother heq, rfl, rfl,
        .inl (Worn.refl (h.sturdy other hother)), (fun hends => hends), fun hdone => hdone⟩

omit [RecordSize] in
lemma imports_of_accepted {field : String} {imports : Option (List String)}
    {dependencies : List String} (h : importDiagnostics field imports dependencies = []) :
    imports.getD [] ⊆ dependencies := by
  unfold importDiagnostics at h
  split at h
  · cases h
  · next imports =>
      intro id hid
      by_contra hnot
      have hmem : id ∈ imports.filter (· ∉ dependencies) :=
        List.mem_filter.mpr ⟨hid, decide_eq_true hnot⟩
      rw [List.map_eq_nil_iff.mp h] at hmem
      cases hmem

lemma sturdy_of_created {args : Value} (hcreated : created env db args = .ok task)
    (hmovable : Movable task) : Sturdy task := by
  have hsound := sound_of_created hcreated
  have hregular := regular_of_created hcreated fun id hid => (hmovable.2 id hid).straight _
  have hinitial : ∀ id s, task.states.get id = some s → s.status = .pending ∧ s.attempts = 0 := by
    intro id s hs
    obtain ⟨step, -, -, rfl⟩ := initial_of_created hcreated id s hs
    exact ⟨rfl, rfl⟩
  obtain ⟨objective, hnew, hnone⟩ := created_ok hcreated
  unfold validateDiagnostics externalDependencyDiagnostics at hnone
  simp only [List.append_eq_nil_iff, List.flatMap_cons, List.flatMap_nil] at hnone
  obtain ⟨-, -, himports, hrefs, -⟩ := hnone
  refine ⟨hsound, hregular.keys, hmovable.2, hmovable.1, fun id s hs hbroken => ?_,
    fun id s hs => ?_, fun id s hs _ => ?_, ?_, ?_⟩
  · rw [(hinitial id s hs).1] at hbroken
    rcases hbroken with hbroken | hbroken <;> cases hbroken
  · rw [(hinitial id s hs).2]
    exact Nat.zero_le _
  · rw [(hinitial id s hs).2]
    exact Nat.zero_le _
  · rw [hnew]
    exact imports_of_accepted himports
  · rw [hnew]
    exact imports_of_accepted hrefs

lemma Upheld.accept {args : Value} (h : Upheld w)
    (hfree : Table.row Task.taskId w.tasks task.taskId = none)
    (hcreated : created env w.tasks args = .ok task) (hmovable : Movable task) :
    Upheld { w with tasks := w.tasks ++ [task] } := by
  refine ⟨h.toFiled.accept hfree hcreated, fun other hother => ?_⟩
  rcases List.mem_append.mp hother with hold | hnew
  · exact h.sturdy other hold
  · rw [List.mem_singleton.mp hnew]
    exact sturdy_of_created hcreated hmovable

omit [RecordSize] in
lemma Upheld.cancel (h : Upheld w) (htask : task ∈ w.tasks) (hopen : ¬ task.Terminal) :
    Upheld { w with tasks := writeTask { task with status := .cancelled } w.tasks } ∧
      Follows w { w with tasks := writeTask { task with status := .cancelled } w.tasks } := by
  have hcancelled : Sturdy { task with status := .cancelled } :=
    (h.sturdy task htask).congr ⟨rfl, rfl, rfl, rfl, rfl, rfl, rfl⟩ (h.sturdy task htask).sound rfl
      fun hfailed => absurd (.inr (.inl hfailed)) hopen
  refine ⟨⟨h.toFiled.cancel htask, fun other hother => ?_⟩, fun other hother => ?_⟩
  · rcases mem_writeTask.mp hother with ⟨hold, -⟩ | ⟨rfl, -⟩
    · exact h.sturdy other hold
    · exact hcancelled
  · by_cases heq : other.taskId = task.taskId
    · cases List.inj_on_of_nodup_map h.ids hother htask heq
      have hends : Task.Terminal { task with status := .cancelled } := .inr (.inr rfl)
      exact ⟨_, mem_writeTask.mpr (.inr ⟨rfl, task, htask, rfl⟩), rfl, rfl, .inr hends,
        fun _ => hends, fun hdone => absurd (.inl hdone) hopen⟩
    · exact ⟨other, mem_writeTask.mpr (.inl ⟨hother, heq⟩), rfl, rfl,
        .inl (Worn.refl (h.sturdy other hother)), (fun hends => hends), fun hdone => hdone⟩

/-- The tasks that a section accepts are movable. -/
def Admits : World → Section → Prop :=
  Allows (fun _ _ _ => True) (fun _ _ _ task => Movable task) fun _ => True

/-- What is there later in a run. -/
structure Continues (w now : World) : Prop where
  upheld : Upheld now
  follows : Follows w now

lemma Upheld.after (h : Upheld w) (c : Section) (hc : Admits w c) : Continues w (w.after c) := by
  have hself : Continues w w := ⟨h, h.follows_of_mem (List.Subset.refl _)⟩
  refine keeps_after (fun env now task hnow htask _ => ?_)
    (fun env args now task hnow hfree hcreated hmovable => ?_)
    (fun now task hnow htask hopen _ => ?_) c hself hc
  · obtain ⟨hpass, hfollows⟩ := hnow.upheld.pass env htask
    exact ⟨hpass, hnow.follows.trans hfollows⟩
  · exact ⟨hnow.upheld.accept hfree hcreated hmovable,
      hnow.follows.trans (hnow.upheld.follows_of_mem (List.subset_append_left _ _))⟩
  · obtain ⟨hcancel, hfollows⟩ := hnow.upheld.cancel htask hopen
    exact ⟨hcancel, hnow.follows.trans hfollows⟩

/-! ### Passes over one task -/

/-- The surrounding that a section passes over a task in, where it does. -/
def Advances (taskId : String) : Section → Option Env
  | .advance env id => if id = taskId then some env else none
  | .run env args =>
      if stableTaskId env args = taskId ∧ (args.get "objective").isNone ∧ (args.get "intent").isNone
        then some env else none
  | .cancel _ => none

omit [RecordSize] in
lemma after_of_advances [RecordSize] {c : Section} (h : Advances task.taskId c = some env)
    (htask : task ∈ w.tasks) : w.after c = w.advance env task.taskId := by
  cases c with
  | advance other id =>
      obtain ⟨hid, henv⟩ := Option.ite_none_right_eq_some.mp h
      cases henv
      rw [← hid]
      rfl
  | run other args =>
      obtain ⟨⟨hid, hnone⟩, henv⟩ := Option.ite_none_right_eq_some.mp h
      cases henv
      show w.run env args = _
      unfold World.run
      have hthere : ∃ other, Table.row Task.taskId w.tasks task.taskId = some other :=
        Table.exists_row_of_mem htask
      obtain ⟨other, hother⟩ := hthere
      rw [hid, hother, if_pos Option.isSome_some, if_pos hnone]
  | cancel id => cases h

/-- All that a task depends on is completed. -/
def Supplied (w : World) (task : Task) : Prop :=
  ∀ id ∈ task.dependsOnTaskIds, ∃ other ∈ w.tasks, other.taskId = id ∧ other.status = .completed

/-- A pass over a task that can be read, like those it depends on, and that is enabled. -/
structure Unhindered (env : Env) (w : World) (task : Task) : Prop extends Enabled env w.tasks task where
  own : RecordSize.record task ≤ maxFileBytes
  others : ∀ other ∈ w.tasks, other.taskId ∈ task.dependsOnTaskIds →
    RecordSize.record other ≤ maxFileBytes

lemma readTask_of_mem (h : Filed w) (htask : task ∈ w.tasks)
    (hsmall : RecordSize.record task ≤ maxFileBytes) : readTask w.tasks task.taskId = .ok task := by
  rw [readTask, Table.row_of_mem h.ids htask]
  exact if_pos hsmall

lemma resolved_of_supplied (h : Filed w) (hsupplied : Supplied w task)
    (hothers : ∀ other ∈ w.tasks, other.taskId ∈ task.dependsOnTaskIds →
      RecordSize.record other ≤ maxFileBytes) : Resolved w.tasks task := by
  intro id hid
  obtain ⟨other, hother, rfl, hcompleted⟩ := hsupplied id hid
  exact ⟨other, readTask_of_mem h hother (hothers other hother hid), hcompleted⟩

/-- What an unhindered pass over a task leaves. -/
lemma Upheld.advance_progress (h : Upheld w) (htask : task ∈ w.tasks) (hopen : ¬ task.Terminal)
    (hsupplied : Supplied w task) (hpass : Unhindered env w task)
    (hover : ∀ id s, task.states.get id = some s → s.status = .running → Over env s) :
    ∃ next launches, (w.advance env task.taskId).started =
        w.started ++ launches.map (fun launch => (task.taskId, launch)) ∧
      next ∈ (w.advance env task.taskId).tasks ∧ next.taskId = task.taskId ∧
      (next.Terminal ∨ burden next < burden task) ∧
      ((∀ id s, task.states.get id = some s → s.status ≠ .running) →
        next.Terminal ∨ launches ≠ []) := by
  have hres := resolved_of_supplied h.toFiled hsupplied hpass.others
  obtain ⟨next, launches, hnext, hless, hidle⟩ := DelegatedTask.advance_progress
    (h.sturdy task htask) hopen hres hpass.toEnabled hover
  have hworld : w.advance env task.taskId = w.pass env task := by
    rw [World.advance, readTask_of_mem h.toFiled htask hpass.own]
  obtain ⟨last, hmoves, hok⟩ := moves_of_advance env w.tasks (h.distinct task htask)
  have hid : next.taskId = task.taskId := by
    rw [hok next (congrArg Prod.fst hnext)]
    exact hmoves.shape.taskId
  refine ⟨next, launches, ?_, ?_, hid, hless, hidle⟩
  · rw [hworld, World.pass, hnext]
  · rw [hworld, World.pass, hnext]
    exact mem_writeTask.mpr (.inr ⟨rfl, task, htask, hid.symm⟩)

/-- A pass over a task in which nothing runs starts a worker or ends the task. -/
def GetsOn (w : World) : Prop :=
  ∀ env, ∀ task ∈ w.tasks, ¬ task.Terminal → Supplied w task →
    (∀ id s, task.states.get id = some s → s.status ≠ .running) → Unhindered env w task →
    w.started.length < (w.advance env task.taskId).started.length ∨
      ∃ now ∈ (w.advance env task.taskId).tasks, now.taskId = task.taskId ∧ now.Terminal

lemma Upheld.getsOn (h : Upheld w) : GetsOn w := by
  intro env task htask hopen hsupplied hidle hpass
  obtain ⟨next, launches, hstarted, hnext, hid, -, hgoes⟩ := h.advance_progress htask hopen
    hsupplied hpass fun id s hs hruns => absurd hruns (hidle id s hs)
  rcases hgoes hidle with hends | hsome
  · exact .inr ⟨next, hnext, hid, hends⟩
  · left
    rw [hstarted, List.length_append, List.length_map]
    have hpos := List.length_pos_iff.mpr hsome
    omega

/-! ### Runs without end -/

/-- Runs in which the tasks that are accepted are movable, the passes over a task are not hindered,
and every worker of it is told to have ended from some time on. -/
structure Fair (w : World) (calls : ℕ → Section) (taskId : String) : Prop where
  admits : ∀ i, Admits (Streams.state World.after w calls i) (calls i)
  passes : ∀ i env, Advances taskId (calls i) = some env →
    ∀ task ∈ (Streams.state World.after w calls i).tasks, task.taskId = taskId → ¬ task.Terminal →
      Unhindered env (Streams.state World.after w calls i) task
  ends : ∀ i, ∀ task ∈ (Streams.state World.after w calls i).tasks, task.taskId = taskId →
    ∀ id s, task.states.get id = some s → s.status = .running →
      ∃ k, ∀ j, k ≤ j → ∀ env, Advances taskId (calls j) = some env → Over env s

/-- There are finitely many passes over a task that is not over. -/
def Ends (w : World) (calls : ℕ → Section) (taskId : String) : Prop :=
  {i | (Advances taskId (calls i)).isSome ∧ ∃ task ∈ (Streams.state World.after w calls i).tasks,
    task.taskId = taskId ∧ ¬ task.Terminal}.Finite

variable {calls : ℕ → Section}

omit [RecordSize] in
lemma Supplied.follows (h : Supplied w task) (hfollows : Follows w w')
    (hdeps : next.dependsOnTaskIds = task.dependsOnTaskIds) : Supplied w' next := by
  intro id hid
  rw [hdeps] at hid
  obtain ⟨other, hother, hotherId, hdone⟩ := h id hid
  obtain ⟨now, hnow, hnowId, -, -, -, hstays⟩ := hfollows other hother
  exact ⟨now, hnow, hnowId.trans hotherId, hstays hdone⟩

omit [RecordSize] in
/-- All workers of a record are told to have ended at one time, if each is. -/
lemma over_from {taskId : String} (ids : List String) (h : ∀ id ∈ ids, ∀ s,
    task.states.get id = some s → s.status = .running →
      ∃ k, ∀ j, k ≤ j → ∀ env, Advances taskId (calls j) = some env → Over env s) :
    ∃ k, ∀ id ∈ ids, ∀ s, task.states.get id = some s → s.status = .running →
      ∀ j, k ≤ j → ∀ env, Advances taskId (calls j) = some env → Over env s := by
  induction ids with
  | nil => exact ⟨0, fun _ hmem => nomatch hmem⟩
  | cons id rest ih =>
      obtain ⟨k, hk⟩ := ih fun other hother => h other (List.mem_cons_of_mem _ hother)
      have hfirst : ∃ k, ∀ s, task.states.get id = some s → s.status = .running →
          ∀ j, k ≤ j → ∀ env, Advances taskId (calls j) = some env → Over env s := by
        cases hs : task.states.get id with
        | none => exact ⟨0, fun _ hsome => nomatch hsome⟩
        | some s =>
            by_cases hruns : s.status = .running
            · obtain ⟨first, hover⟩ := h id List.mem_cons_self s hs hruns
              exact ⟨first, fun _ heq _ => (Option.some.inj heq) ▸ hover⟩
            · exact ⟨0, fun _ heq hstateRuns => absurd (Option.some.inj heq ▸ hstateRuns) hruns⟩
      obtain ⟨first, hover⟩ := hfirst
      refine ⟨max k first, fun other hother state hstate hruns j hj => ?_⟩
      rcases List.mem_cons.mp hother with rfl | hother
      · exact hover state hstate hruns j (le_of_max_le_right hj)
      · exact hk other hother state hstate hruns j (le_of_max_le_left hj)

/-- **There are only finitely many passes** over a task whose workers all end. -/
theorem ends_of_fair (h : Upheld w) (htask : task ∈ w.tasks) (hsupplied : Supplied w task)
    (hfair : Fair w calls task.taskId) : Ends w calls task.taskId := by
  have hupheld : ∀ i, Upheld (Streams.state World.after w calls i) :=
    Streams.invariant_state (fun now c hnow hc => (hnow.after c hc).upheld) h hfair.admits
  have hfollows : ∀ i, Follows (Streams.state World.after w calls i)
      (Streams.state World.after w calls (i + 1)) :=
    fun i => ((hupheld i).after (calls i) (hfair.admits i)).follows
  have hrecords : ∀ i, ∃ now ∈ (Streams.state World.after w calls i).tasks,
      now.taskId = task.taskId ∧ Supplied (Streams.state World.after w calls i) now := by
    intro i
    induction i with
    | zero => exact ⟨task, htask, rfl, hsupplied⟩
    | succ i ih =>
        obtain ⟨now, hnow, hnowId, hnowSupplied⟩ := ih
        obtain ⟨next, hnext, hnextId, hdeps, -⟩ := hfollows i now hnow
        exact ⟨next, hnext, hnextId.trans hnowId, hnowSupplied.follows (hfollows i) hdeps⟩
  choose record hrecord hrecordId hrecordSupplied using hrecords
  have hworn : ∀ i, ¬ (record (i + 1)).Terminal → Worn (record i) (record (i + 1)) := by
    intro i hopen
    obtain ⟨next, hnext, hnextId, -, hnextWorn, -⟩ := hfollows i (record i) (hrecord i)
    cases List.inj_on_of_nodup_map (hupheld (i + 1)).ids hnext (hrecord (i + 1))
      (hnextId.trans ((hrecordId i).trans (hrecordId (i + 1)).symm))
    exact hnextWorn.resolve_right hopen
  have hover : ∀ i, (record i).Terminal → (record (i + 1)).Terminal := by
    intro i hends
    obtain ⟨next, hnext, hnextId, -, -, hnextEnds, -⟩ := hfollows i (record i) (hrecord i)
    cases List.inj_on_of_nodup_map (hupheld (i + 1)).ids hnext (hrecord (i + 1))
      (hnextId.trans ((hrecordId i).trans (hrecordId (i + 1)).symm))
    exact hnextEnds hends
  by_cases hmany : {i | (Advances task.taskId (calls i)).isSome}.Finite
  · exact hmany.subset fun i hi => hi.1
  have hgoal : ∃ i, (record i).Terminal := by
    refine Streams.eventually_of_measure (fun i => burden (record i))
      (fun i _ hopen => (hworn i hopen).burden_le) fun i hnone hsame => ?_
    -- While the burden is the same, the same workers run.
    have hstates : ∀ j, i ≤ j → ∀ id s, (record j).states.get id = some s → ∃ old,
        (record i).states.get id = some old ∧ s.status = old.status ∧
          s.currentRunId = old.currentRunId := by
      intro j hij
      induction j, hij using Nat.le_induction with
      | base => exact fun id s hs => ⟨s, hs, rfl, rfl⟩
      | succ j hij ih =>
          intro id s hs
          have hburden : burden (record (j + 1)) = burden (record j) :=
            (hsame (j + 1) (Nat.le_succ_of_le hij)).trans (hsame j hij).symm
          obtain ⟨mid, hmid, hstatus, -, hrun⟩ := (hworn j (hnone (j + 1))).same hburden hs
          obtain ⟨old, hold, holdStatus, holdRun⟩ := ih id mid hmid
          exact ⟨old, hold, hstatus.trans holdStatus, hrun.trans holdRun⟩
    obtain ⟨k, hk⟩ := over_from (record i).stepIds fun id _ =>
      hfair.ends i (record i) (hrecord i) (hrecordId i) id
    obtain ⟨j, hj, hbeyond⟩ : ∃ j ∈ {i | (Advances task.taskId (calls i)).isSome}, max i k < j :=
      Set.Infinite.exists_gt hmany _
    obtain ⟨env, henv⟩ := Option.isSome_iff_exists.mp hj
    have hij : i ≤ j := (le_max_left i k).trans hbeyond.le
    have hended : ∀ id s, (record j).states.get id = some s → s.status = .running → Over env s := by
      intro id s hs hruns
      obtain ⟨old, hold, hstatus, hrun⟩ := hstates j hij id s hs
      have hmem := ((hupheld i).sturdy _ (hrecord i)).mem_of_state hold
      have holdOver := hk id hmem old hold (hstatus ▸ hruns) j
        ((le_max_right i k).trans hbeyond.le) env henv
      rw [Over, hrun]
      exact holdOver
    have hunhindered := hfair.passes j env henv (record j) (hrecord j) (hrecordId j) (hnone j)
    obtain ⟨next, -, -, hnext, hnextId, hless, -⟩ := (hupheld j).advance_progress (hrecord j)
      (hnone j) (hrecordSupplied j) hunhindered hended
    have hstate : Streams.state World.after w calls (j + 1) =
        (Streams.state World.after w calls j).advance env (record j).taskId :=
      after_of_advances ((hrecordId j).symm ▸ henv) (hrecord j)
    rw [← hstate] at hnext
    cases List.inj_on_of_nodup_map (hupheld (j + 1)).ids hnext (hrecord (j + 1))
      (hnextId.trans ((hrecordId j).trans (hrecordId (j + 1)).symm))
    rcases hless with hends | hlt
    · exact hnone (j + 1) hends
    · have hstill := (hsame (j + 1) (Nat.le_succ_of_le hij)).trans (hsame j hij).symm
      exact absurd hstill hlt.ne
  obtain ⟨i, hi⟩ := hgoal
  -- From its end on the task is over.
  refine (Set.finite_Iio i).subset fun j hj => ?_
  obtain ⟨-, other, hother, hotherId, hopen⟩ := hj
  cases List.inj_on_of_nodup_map (hupheld j).ids hother (hrecord j)
    (hotherId.trans (hrecordId j).symm)
  by_contra hnot
  have hlater : ∀ n, i ≤ n → (record n).Terminal := by
    intro n hn
    induction n, hn using Nat.le_induction with
    | base => exact hi
    | succ n _ ih => exact hover n ih
  exact hopen (hlater j (not_lt.mp hnot))

end Passes

/-! ### A task without steps -/

lemma admits_two_steps :
    letI := smallRecords
    Each World.after Admits World.empty [.run (endedAs "" "") twoSteps] := by
  let _ : RecordSize := smallRecords
  refine ⟨⟨fun task _ hcreated => ⟨?_, trivial⟩, fun _ _ => trivial⟩, trivial⟩
  obtain ⟨objective, rfl, -⟩ := created_ok hcreated
  show stepIds (workflowOf twoSteps) ≠ [] ∧ ∀ id ∈ stepIds (workflowOf twoSteps), Plain id
  decide +kernel

end DelegatedTask

end McpSurfaces
