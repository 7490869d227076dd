import McpSurfaces.DelegatedTask.Sections
import McpSurfaces.Foundation.Fallible

/-!
A pass as a sequence of moves.

* `Move`: all that a part of a pass can do to a record, and the workers that it starts. `Moves`:
  moves one after another.
* **`moves_of_advance`**: a pass that ends makes moves from the record that it reads to the one
  that it writes, and a pass that fails has made moves until then.
-/

namespace McpSurfaces

namespace DelegatedTask

variable [RecordSize]

/-- All tasks that a task depends on are completed. -/
def Resolved (db : Records) (task : Task) : Prop :=
  ∀ id ∈ task.dependsOnTaskIds, ∃ other, readTask db id = .ok other ∧ other.status = .completed

/-- Some task that a task depends on has failed. -/
def Obstructed (db : Records) (task : Task) : Prop :=
  ∃ id ∈ task.dependsOnTaskIds, ∃ other, readTask db id = .ok other ∧
    (other.status = .failed ∨ other.status = .cancelled)

/-- Some output that a task imports is missing. -/
def Unsupplied (db : Records) (task : Task) : Prop :=
  ∃ id ∈ task.importTaskOutputs, ∃ other, readTask db id = .ok other ∧
    finalStructuredOutput other = .null

/-- All that a part of a pass can do. -/
inductive Move (env : Env) (db : Records) : Task → List Launch → Task → Prop
  | normalizes (task : Task) : Move env db task [] (normalizePersistedConstraints task)
  | obstructed (task : Task) (blocked : List String) (h : Obstructed db task)
      (hopen : ¬ task.Terminal) :
      Move env db task [] (setOutcomeVerdicts env
        { blockPending blocked task with externalStatus := .blocked, status := .failed } "failed")
  | waits (task : Task) (h : ¬ Resolved db task) :
      Move env db task [] { task with externalStatus := .waiting }
  | unsupplied (task : Task) (h : Unsupplied db task) (hresolved : Resolved db task)
      (hexternal : task.externalStatus ≠ .resolved) (hopen : ¬ task.Terminal) :
      Move env db task [] (setOutcomeVerdicts env
        { task with externalStatus := .blocked, status := .failed } "failed")
  | resolves (task : Task) (outputs : List Value) (refs : List (String × List WorkerRef))
      (h : Resolved db task) :
      Move env db task []
        { task with
          importedTaskOutputs := outputs
          importedWorkerRefs := refs
          externalStatus := .resolved }
  | polled (task : Task) (id : String) (answer : Value) (hid : id ∈ task.stepIds)
      (h : task.Reads id .running)
      (hanswer : env.workerRunStatus (currentRun task id) = .ok answer)
      (hresolved : Resolved db task) :
      Move env db task [] (settleWorker env task id (currentRun task id) answer)
  | reviewed (task : Task) : Move env db task [] (DelegatedTask.reviewed env task)
  | settled (task next : Task) (step : Value) (hstep : step ∈ task.steps)
      (h : settleStep env task step = some next) (hopen : task.status ≠ .failed) :
      Move env db task [] next
  | started (task before : Task) (id : String) (step run : Value) (hstep : step ∈ task.steps)
      (hid : Step.id? step = some id) (hready : id ∈ readyStepIds env before)
      (hsteps : before.steps = task.steps) (hkeys : before.states.keys = task.states.keys)
      (hstate : before.states.get id = task.states.get id) (hkind : ¬ Step.Local step)
      (hrun : env.workerRun id (asynchronousWorkerConstraints task.constraints step) = .ok run)
      (hopen : task.status ≠ .failed) (hresolved : Resolved db task) :
      Move env db task [⟨id, runIdOf run, asynchronousWorkerConstraints task.constraints step⟩]
        (recordStarted task id (Step.kind step) (runIdOf run))
  | finished (task : Task) (hopen : task.status ≠ .failed) :
      Move env db task [] (finish env task)

/-- Moves one after another. -/
inductive Moves (env : Env) (db : Records) (task : Task) : List Launch → Task → Prop
  | refl : Moves env db task [] task
  | tail {launches more : List Launch} {next last : Task} (h : Moves env db task launches next)
      (hmove : Move env db next more last) : Moves env db task (launches ++ more) last

variable {env : Env} {db : Records} {task next last : Task} {launches more : List Launch}

lemma Moves.quiet (h : Moves env db task launches next) (hmove : Move env db next [] last) :
    Moves env db task launches last := by
  have htail := h.tail hmove
  rwa [List.append_nil] at htail

lemma Moves.trans (h : Moves env db task launches next) (hmore : Moves env db next more last) :
    Moves env db task (launches ++ more) last := by
  induction hmore with
  | refl =>
      rw [List.append_nil]
      exact h
  | tail _ hmove ih =>
      rw [← List.append_assoc]
      exact ih.tail hmove

lemma Moves.single (hmove : Move env db task launches next) : Moves env db task launches next :=
  Moves.refl.tail hmove

/-! ### What the parts of a pass leave -/

/-- What all parts of a pass but the first leave of a record. -/
structure SameTask (task next : Task) : Prop where
  taskId : next.taskId = task.taskId
  constraints : next.constraints = task.constraints
  steps : next.steps = task.steps
  execution : next.execution = task.execution
  acceptance : next.acceptance = task.acceptance
  dependsOnTaskIds : next.dependsOnTaskIds = task.dependsOnTaskIds
  importTaskOutputs : next.importTaskOutputs = task.importTaskOutputs
  importWorkerRefs : next.importWorkerRefs = task.importWorkerRefs
  keys : next.states.keys = task.states.keys

section

omit [RecordSize]

lemma SameTask.refl (task : Task) : SameTask task task :=
  ⟨rfl, rfl, rfl, rfl, rfl, rfl, rfl, rfl, rfl⟩

lemma SameTask.trans (h : SameTask task next) (h' : SameTask next last) : SameTask task last where
  taskId := h'.taskId.trans h.taskId
  constraints := h'.constraints.trans h.constraints
  steps := h'.steps.trans h.steps
  execution := h'.execution.trans h.execution
  acceptance := h'.acceptance.trans h.acceptance
  dependsOnTaskIds := h'.dependsOnTaskIds.trans h.dependsOnTaskIds
  importTaskOutputs := h'.importTaskOutputs.trans h.importTaskOutputs
  importWorkerRefs := h'.importWorkerRefs.trans h.importWorkerRefs
  keys := h'.keys.trans h.keys

lemma sameTask_setStep (task : Task) (id : String) (set : StepState → StepState) :
    SameTask task (task.setStep id set) where
  taskId := rfl
  constraints := rfl
  steps := rfl
  execution := rfl
  acceptance := rfl
  dependsOnTaskIds := rfl
  importTaskOutputs := rfl
  importWorkerRefs := rfl
  keys := Task.keys_setStep

lemma states_failStep (env : Env) (task : Task) (id : String) :
    (failStep env task id).states = (task.setStep id fun s => { s with status := .failed }).states :=
  rfl

lemma states_recordWorkerTerminal (env : Env) (task : Task) (stepId runId status : String)
    (run : Value) : (recordWorkerTerminal env task stepId runId status run).states =
      (task.setStep stepId fun s =>
        { s with
          workerStatus := some (effectiveStatus env task stepId status run)
          workerOutputContract := some
            (if ContractFailed (recordedOutput env (requiredContractFields task stepId) run)
              (requiredContractFields task stepId) then "failed" else "passed")
          workerOutput := (recordedOutput env (requiredContractFields task stepId) run).or
            s.workerOutput }).states := rfl

lemma states_recordStarted (task : Task) (id kind runId : String) :
    (recordStarted task id kind runId).states = (task.setStep id fun s =>
      { s with
        status := .running
        attempts := s.attempts + 1
        currentRunId := some runId
        runIds := s.runIds ++ [runId] }).states := rfl

lemma sameTask_failStep (env : Env) (task : Task) (id : String) :
    SameTask task (failStep env task id) :=
  ⟨rfl, rfl, rfl, rfl, rfl, rfl, rfl, rfl, by rw [states_failStep, Task.keys_setStep]⟩

lemma sameTask_recordWorkerTerminal (env : Env) (task : Task) (stepId runId status : String)
    (run : Value) : SameTask task (recordWorkerTerminal env task stepId runId status run) :=
  ⟨rfl, rfl, rfl, rfl, rfl, rfl, rfl, rfl, by rw [states_recordWorkerTerminal, Task.keys_setStep]⟩

lemma sameTask_settleWorker (env : Env) (task : Task) (stepId runId : String) (answer : Value) :
    SameTask task (settleWorker env task stepId runId answer) := by
  have hrecorded := sameTask_recordWorkerTerminal env task stepId runId (workerOf answer)
    (runOf answer)
  unfold settleWorker
  dsimp only
  split_ifs
  · exact hrecorded.trans (sameTask_failStep env _ stepId)
  · exact hrecorded.trans (sameTask_setStep _ stepId _)
  · exact hrecorded.trans (sameTask_setStep _ stepId _)
  · exact hrecorded.trans (sameTask_failStep env _ stepId)
  · exact SameTask.refl task

lemma sameTask_reviewed (env : Env) (task : Task) : SameTask task (reviewed env task) :=
  ⟨rfl, rfl, rfl, rfl, rfl, rfl, rfl, rfl, rfl⟩

@[simp] lemma status_reviewed (env : Env) (task : Task) :
    (reviewed env task).status = task.status := rfl

/-- What a step becomes without a worker. -/
lemma settleStep_cases {step : Value} (h : settleStep env task step = some next) :
    ∃ id, Step.id? step = some id ∧ task.Reads id .pending ∧
      (((∃ dependency ∈ Step.dependsOn step, Broken task dependency) ∧
          next = task.setStep id fun s =>
            { s with
              status := .blocked
              blockedBy := (Step.dependsOn step).filter (Broken task ·) }) ∨
        ((∀ dependency ∈ Step.dependsOn step, Passed task dependency) ∧ ¬ Passes env task step ∧
          next = task.setStep id fun s => { s with status := .skipped }) ∨
        ((∀ dependency ∈ Step.dependsOn step, Passed task dependency) ∧ Passes env task step ∧
          Step.Local step ∧ next = task.setStep id fun s =>
            { s with status := if Step.kind step = "note" then .noted else .completed })) := by
  unfold settleStep at h
  split at h
  · cases h
  · next id hid =>
      dsimp only at h
      split at h
      · cases h
      · next hpending =>
          refine ⟨id, hid, not_not.mp hpending, ?_⟩
          split at h
          · next hblocked =>
              obtain ⟨dependency, hdep⟩ := List.exists_mem_of_ne_nil _ hblocked
              obtain ⟨hdep, hbroken⟩ := List.mem_filter.mp hdep
              exact .inl ⟨⟨dependency, hdep, of_decide_eq_true hbroken⟩, (Option.some.inj h).symm⟩
          · split at h
            · cases h
            · next hready =>
                split at h
                · next hpasses =>
                    exact .inr (.inl ⟨not_not.mp hready, hpasses, (Option.some.inj h).symm⟩)
                · next hpasses =>
                    split at h
                    · next hlocal =>
                        exact .inr (.inr ⟨not_not.mp hready, not_not.mp hpasses, hlocal,
                          (Option.some.inj h).symm⟩)
                    · cases h

lemma sameTask_settleStep {step : Value} (h : settleStep env task step = some next) :
    SameTask task next := by
  obtain ⟨id, -, -, ⟨-, rfl⟩ | ⟨-, -, rfl⟩ | ⟨-, -, -, rfl⟩⟩ := settleStep_cases h <;>
    exact sameTask_setStep task id _

lemma status_settleStep {step : Value} (h : settleStep env task step = some next) :
    next.status = task.status := by
  obtain ⟨id, -, -, ⟨-, rfl⟩ | ⟨-, -, rfl⟩ | ⟨-, -, -, rfl⟩⟩ := settleStep_cases h <;> rfl

lemma sameTask_recordStarted (task : Task) (id kind runId : String) :
    SameTask task (recordStarted task id kind runId) :=
  ⟨rfl, rfl, rfl, rfl, rfl, rfl, rfl, rfl, by rw [states_recordStarted, Task.keys_setStep]⟩

lemma sameTask_finish (env : Env) (task : Task) : SameTask task (finish env task) := by
  unfold finish
  dsimp only
  split_ifs <;> exact ⟨rfl, rfl, rfl, rfl, rfl, rfl, rfl, rfl, rfl⟩

end

lemma Resolved.same (h : Resolved db task) (hsame : SameTask task next) : Resolved db next := by
  rw [Resolved, hsame.dependsOnTaskIds]
  exact h

/-! ### What becomes of a worker -/

/-- The worker of a step has ended, and the step fails for good. -/
def FailsForGood (env : Env) (task : Task) (id : String) (answer : Value) : Prop :=
  let recorded := recordWorkerTerminal env task id (currentRun task id) (workerOf answer)
    (runOf answer)
  (workerOf answer = "completed" ∧
      (recorded.stepField id "worker_output_contract").bind Value.asStr = some "failed") ∨
    (endedBadly (workerOf answer) ∧ recorded.maxRetries < attemptsOf recorded id)

omit [RecordSize] in
/-- What becomes of a step whose worker is told of. -/
lemma settleWorker_cases {id : String} {answer : Value}
    (h : settleWorker env task id (currentRun task id) answer = next) :
    (FailsForGood env task id answer ∧ next = failStep env (recordWorkerTerminal env task id
        (currentRun task id) (workerOf answer) (runOf answer)) id) ∨
      (workerOf answer = "completed" ∧ ¬ FailsForGood env task id answer ∧
        next = (recordWorkerTerminal env task id (currentRun task id) (workerOf answer)
          (runOf answer)).setStep id fun s => { s with status := .completed }) ∨
      (endedBadly (workerOf answer) ∧
        attemptsOf (recordWorkerTerminal env task id (currentRun task id) (workerOf answer)
          (runOf answer)) id ≤ task.maxRetries ∧
        next = (recordWorkerTerminal env task id (currentRun task id) (workerOf answer)
          (runOf answer)).setStep id fun s => { s with status := .pending, currentRunId := none }) ∨
      (workerOf answer ≠ "completed" ∧ ¬ endedBadly (workerOf answer) ∧ next = task) := by
  have hretries : (recordWorkerTerminal env task id (currentRun task id) (workerOf answer)
      (runOf answer)).maxRetries = task.maxRetries := rfl
  have hbad : endedBadly (workerOf answer) → workerOf answer ≠ "completed" := by
    rintro (h | h | h | h) <;> rw [h] <;> decide
  rw [settleWorker] at h
  split at h
  · next hcompleted =>
      split at h
      · next hcontract => exact .inl ⟨.inl ⟨hcompleted, hcontract⟩, h.symm⟩
      · next hcontract =>
          refine .inr (.inl ⟨hcompleted, ?_, h.symm⟩)
          rintro (⟨-, hfailed⟩ | ⟨hended, -⟩)
          · exact hcontract hfailed
          · exact hbad hended hcompleted
  · next hother =>
      split at h
      · next hended =>
          split at h
          · next hfew => exact .inr (.inr (.inl ⟨hended, hfew, h.symm⟩))
          · next hmany => exact .inl ⟨.inr ⟨hended, not_le.mp hmany⟩, h.symm⟩
      · next hruns => exact .inr (.inr (.inr ⟨hother, hruns, h.symm⟩))

/-! ### Polls and rounds are moves -/

lemma moves_of_pollSteps {ids : List String} (hids : ids ⊆ task.stepIds) (hres : Resolved db task)
    (h : pollSteps env ids task = .ok next) :
    Moves env db task [] next ∧ SameTask task next := by
  induction ids generalizing task with
  | nil =>
      cases h
      exact ⟨Moves.refl, SameTask.refl _⟩
  | cons id rest ih =>
      rw [pollSteps] at h
      obtain ⟨polled, hpolled, hrest⟩ := Lists.bind_eq_ok h
      unfold pollStep at hpolled
      split at hpolled
      · next hruns =>
          split at hpolled
          · cases hpolled
          · next answer hanswer =>
              cases hpolled
              have hsame := sameTask_settleWorker env task id (currentRun task id) answer
              have hmove : Move env db task [] _ := .polled task id answer
                (hids List.mem_cons_self) hruns hanswer hres
              obtain ⟨hmoves, hlast⟩ := ih (by
                rw [Task.stepIds, hsame.steps]
                exact fun _ hmem => hids (List.mem_cons_of_mem _ hmem)) (hres.same hsame) hrest
              exact ⟨(Moves.single hmove).trans hmoves, hsame.trans hlast⟩
      · cases hpolled
        exact ih (fun _ hmem => hids (List.mem_cons_of_mem _ hmem)) hres hrest

lemma moves_of_settleRound (env : Env) (db : Records) {steps : List Value}
    (hsteps : steps ⊆ task.steps) (hopen : task.status ≠ .failed) :
    Moves env db task [] (settleRound env steps task).1 ∧
      SameTask task (settleRound env steps task).1 ∧
      (settleRound env steps task).1.status = task.status := by
  induction steps generalizing task with
  | nil => exact ⟨Moves.refl, SameTask.refl task, rfl⟩
  | cons step rest ih =>
      rw [settleRound]
      split
      · exact ih (fun _ hmem => hsteps (List.mem_cons_of_mem _ hmem)) hopen
      · next next hnext =>
          have hsame := sameTask_settleStep hnext
          have hstatus := status_settleStep hnext
          have hmove : Move env db task [] next := .settled task next step
            (hsteps List.mem_cons_self) hnext hopen
          have hrest : rest ⊆ next.steps := by
            rw [hsame.steps]
            exact fun _ hmem => hsteps (List.mem_cons_of_mem _ hmem)
          obtain ⟨hmoves, hlast, hend⟩ := ih hrest (hstatus ▸ hopen)
          exact ⟨(Moves.single hmove).trans hmoves, hsame.trans hlast, hend.trans hstatus⟩

lemma moves_of_settle (db : Records) {rounds : ℕ} (hopen : task.status ≠ .failed)
    (h : settle env rounds task = .ok next) :
    Moves env db task [] next ∧ SameTask task next ∧ next.status = task.status := by
  induction rounds generalizing task with
  | zero => cases h
  | succ rounds ih =>
      obtain ⟨hmoves, hsame, hstatus⟩ := moves_of_settleRound env db (List.Subset.refl task.steps)
        hopen
      rw [settle] at h
      dsimp only at h
      split at h
      · obtain ⟨hrest, hlast, hend⟩ := ih (hstatus.symm ▸ hopen) h
        exact ⟨hmoves.trans hrest, hsame.trans hlast, hend.trans hstatus⟩
      · cases h
        exact ⟨hmoves, hsame, hstatus⟩

/-! ### Starts are moves -/

omit [RecordSize] in
lemma mem_readyStepIds {id : String} :
    id ∈ readyStepIds env task ↔
      ∃ step ∈ task.steps, Step.id? step = some id ∧ task.Reads id .pending ∧ Ready env task step := by
  rw [readyStepIds, List.mem_filterMap]
  refine exists_congr fun step => and_congr_right fun _ => ?_
  constructor
  · intro h
    obtain ⟨other, hid, hother⟩ := Option.bind_eq_some_iff.mp h
    split at hother
    · next hready =>
        cases hother
        exact ⟨hid, hready⟩
    · cases hother
  · rintro ⟨hid, hready⟩
    rw [hid, Option.bind_some, if_pos hready]

omit [RecordSize] in
lemma readyStepIds_sublist : (readyStepIds env task).Sublist task.stepIds := by
  rw [readyStepIds, Task.stepIds, stepIds]
  induction task.steps with
  | nil => exact List.Sublist.refl _
  | cons step rest ih =>
      rw [List.filterMap_cons, List.filterMap_cons]
      cases Step.id? step with
      | none => exact ih
      | some id =>
          dsimp only [Option.bind_some]
          split
          · next hnone =>
              split at hnone
              · cases hnone
              · exact ih.trans (List.sublist_cons_self _ _)
          · next other hother =>
              split at hother
              · cases hother
                exact ih.cons_cons _
              · cases hother

lemma moves_of_launchAll (before task : Task) {ids : List String} (active : ℕ) (hnodup : ids.Nodup)
    (hready : ∀ id ∈ ids, id ∈ readyStepIds env before) (hsteps : before.steps = task.steps)
    (hkeys : before.states.keys = task.states.keys)
    (hstates : ∀ id ∈ ids, before.states.get id = task.states.get id)
    (hopen : task.status ≠ .failed) (hres : Resolved db task) :
    ∃ last, Moves env db task (launchAll env ids active task).2 last ∧ SameTask task last ∧
      last.status ≠ .failed ∧ ∀ next, (launchAll env ids active task).1 = .ok next → next = last := by
  induction ids generalizing task active with
  | nil => exact ⟨task, Moves.refl, SameTask.refl task, hopen, fun _ h => (Except.ok.inj h).symm⟩
  | cons id rest ih =>
      obtain ⟨hid, hrest⟩ := List.nodup_cons.mp hnodup
      have hskip : ∃ last, Moves env db task (launchAll env rest active task).2 last ∧
          SameTask task last ∧ last.status ≠ .failed ∧
          ∀ next, (launchAll env rest active task).1 = .ok next → next = last :=
        ih task active hrest (fun _ h => hready _ (List.mem_cons_of_mem _ h)) hsteps hkeys
          (fun _ h => hstates _ (List.mem_cons_of_mem _ h)) hopen hres
      rw [launchAll]
      split
      · exact hskip
      · next step hstep =>
          split
          · exact hskip
          · next hstarts =>
              rw [not_or] at hstarts
              dsimp only
              split
              · exact ⟨task, Moves.refl, SameTask.refl task, hopen, fun _ h => nomatch h⟩
              · next run hrun =>
                  have hsame := sameTask_recordStarted task id (Step.kind step) (runIdOf run)
                  have hmem : step ∈ task.steps := List.mem_of_find?_eq_some hstep
                  have hstepid : Step.id? step = some id := by
                    simpa using List.find?_some hstep
                  have hmove : Move env db task [_] _ := .started task before id step run hmem
                    hstepid (hready id List.mem_cons_self) hsteps hkeys
                    (hstates id List.mem_cons_self) hstarts.1 hrun hopen hres
                  obtain ⟨last, hmoves, hlast, hend, hok⟩ := ih
                    (recordStarted task id (Step.kind step) (runIdOf run)) (active + 1) hrest
                    (fun _ h => hready _ (List.mem_cons_of_mem _ h)) (hsteps.trans hsame.steps.symm)
                    (hkeys.trans hsame.keys.symm) (fun other hother => by
                      have hne : other ≠ id := fun heq => hid (heq ▸ hother)
                      rw [states_recordStarted, Task.get_setStep_of_ne hne]
                      exact hstates other (List.mem_cons_of_mem _ hother))
                    (fun h => nomatch h) (hres.same hsame)
                  refine ⟨last, ?_, hsame.trans hlast, hend, hok⟩
                  have hall := (Moves.single hmove).trans hmoves
                  exact hall

/-! ### The pass -/

lemma resolved_of_dependencyStates {ids blocked waiting : List String}
    (h : dependencyStates db ids = .ok (blocked, waiting)) :
    (∀ id ∈ blocked, id ∈ ids ∧ ∃ other, readTask db id = .ok other ∧
        (other.status = .failed ∨ other.status = .cancelled)) ∧
      (∀ id ∈ waiting, id ∈ ids ∧ ∃ other, readTask db id = .ok other ∧
        other.status ≠ .completed) ∧
      (blocked = [] → waiting = [] → ∀ id ∈ ids, ∃ other, readTask db id = .ok other ∧
        other.status = .completed) := by
  induction ids generalizing blocked waiting with
  | nil =>
      cases h
      exact ⟨(fun _ h => nomatch h), (fun _ h => nomatch h), (fun _ _ _ h => nomatch h)⟩
  | cons id rest ih =>
      rw [dependencyStates] at h
      obtain ⟨other, hother, h⟩ := Lists.bind_eq_ok h
      obtain ⟨⟨moreBlocked, moreWaiting⟩, hrest, h⟩ := Lists.bind_eq_ok h
      obtain ⟨hblocked, hwaiting, hall⟩ := ih hrest
      have hgrow : ∀ {p : String → Prop} {ids : List String}, (∀ id ∈ ids, id ∈ rest ∧ p id) →
          ∀ i ∈ ids, i ∈ id :: rest ∧ p i := fun h i hi =>
        ⟨List.mem_cons_of_mem _ (h i hi).1, (h i hi).2⟩
      dsimp only at h
      split at h
      · next hcompleted =>
          cases h
          refine ⟨hgrow hblocked, hgrow hwaiting, fun hb hw i hi => ?_⟩
          rcases List.mem_cons.mp hi with rfl | hi
          · exact ⟨other, hother, hcompleted⟩
          · exact hall hb hw i hi
      · next hfailed =>
          cases h
          refine ⟨fun i hi => ?_, hgrow hwaiting, fun hb => nomatch hb⟩
          rcases List.mem_cons.mp hi with rfl | hi
          · exact ⟨List.mem_cons_self, other, hother, .inl hfailed⟩
          · exact hgrow hblocked i hi
      · next hcancelled =>
          cases h
          refine ⟨fun i hi => ?_, hgrow hwaiting, fun hb => nomatch hb⟩
          rcases List.mem_cons.mp hi with rfl | hi
          · exact ⟨List.mem_cons_self, other, hother, .inr hcancelled⟩
          · exact hgrow hblocked i hi
      · next hcompleted _ _ =>
          cases h
          refine ⟨hgrow hblocked, fun i hi => ?_, fun _ hw => nomatch hw⟩
          rcases List.mem_cons.mp hi with rfl | hi
          · exact ⟨List.mem_cons_self, other, hother, fun h => hcompleted h⟩
          · exact hgrow hwaiting i hi

lemma unsupplied_of_importOutputs {ids : List String} {total after : ℕ} {id : String}
    (h : importOutputs db total ids = .ok (.error id, after)) :
    ∃ id ∈ ids, ∃ other, readTask db id = .ok other ∧ finalStructuredOutput other = .null := by
  induction ids generalizing total with
  | nil => cases h
  | cons first rest ih =>
      rw [importOutputs] at h
      obtain ⟨other, hother, h⟩ := Lists.bind_eq_ok h
      dsimp only at h
      split at h
      · next hnull => exact ⟨first, List.mem_cons_self, other, hother, hnull⟩
      · obtain ⟨-, h⟩ := guard_ok h
        obtain ⟨⟨others, total⟩, hrest, h⟩ := Lists.bind_eq_ok h
        dsimp only at h
        cases others with
        | ok outputs => cases h
        | error missing =>
            cases h
            obtain ⟨i, hi, found⟩ := ih hrest
            exact ⟨i, List.mem_cons_of_mem _ hi, found⟩

omit [RecordSize] in
lemma keys_blockPending (blocked : List String) :
    (blockPending blocked task).states.keys = task.states.keys :=
  keys_mapValues (fun _ => StepState.block blocked) task.states

omit [RecordSize] in
lemma get_blockPending (blocked : List String) (id : String) :
    (blockPending blocked task).states.get id =
      (task.states.get id).map (StepState.block blocked) :=
  get_mapValues (fun _ => StepState.block blocked) task.states id

/-- What the gate leaves: it lets the pass go on, or a dependency has failed, or one is waited for,
or an output that is imported is missing. -/
lemma gate_cases {goes : Bool} (h : externalDependencyGate env db task = .ok (goes, next)) :
    (goes = true ∧ Resolved db task ∧ ∃ outputs refs, next =
        { task with
          importedTaskOutputs := outputs
          importedWorkerRefs := refs
          externalStatus := .resolved }) ∨
      (goes = false ∧ Obstructed db task ∧ ∃ blocked, next = setOutcomeVerdicts env
        { blockPending blocked task with externalStatus := .blocked, status := .failed } "failed") ∨
      (goes = false ∧ ¬ Resolved db task ∧ next = { task with externalStatus := .waiting }) ∨
      (goes = false ∧ Unsupplied db task ∧ Resolved db task ∧ task.externalStatus ≠ .resolved ∧
        next = setOutcomeVerdicts env
          { task with externalStatus := .blocked, status := .failed } "failed") := by
  unfold externalDependencyGate at h
  split at h
  · next hnone =>
      cases h
      have hres : Resolved db task := fun id hid => by
        rw [hnone] at hid
        cases hid
      exact .inl ⟨rfl, hres, task.importedTaskOutputs, task.importedWorkerRefs, rfl⟩
  · obtain ⟨⟨blocked, waiting⟩, hstates, h⟩ := Lists.bind_eq_ok h
    obtain ⟨hblocked, hwaiting, hall⟩ := resolved_of_dependencyStates hstates
    dsimp only at h
    split at h
    · next hsome =>
        cases h
        obtain ⟨id, hid⟩ := List.exists_mem_of_ne_nil _ hsome
        exact .inr (.inl ⟨rfl, ⟨id, hblocked id hid⟩, blocked, rfl⟩)
    · next hnone =>
        split at h
        · next hsome =>
            cases h
            obtain ⟨id, hid⟩ := List.exists_mem_of_ne_nil _ hsome
            obtain ⟨hmem, other, hother, hstatus⟩ := hwaiting id hid
            refine .inr (.inr (.inl ⟨rfl, fun hres => ?_, rfl⟩))
            obtain ⟨same, hsame, hcompleted⟩ := hres id hmem
            cases hother.symm.trans hsame
            exact hstatus hcompleted
        · next hdone =>
            have hres : Resolved db task := hall (not_not.mp hnone) (not_not.mp hdone)
            split at h
            · next hresolved =>
                cases h
                refine .inl ⟨rfl, hres, task.importedTaskOutputs, task.importedWorkerRefs, ?_⟩
                rw [← hresolved]
            · next hexternal =>
                obtain ⟨⟨outputs, total⟩, houtputs, h⟩ := Lists.bind_eq_ok h
                cases outputs with
                | error missing =>
                    cases h
                    exact .inr (.inr (.inr ⟨rfl, unsupplied_of_importOutputs houtputs, hres,
                      hexternal, rfl⟩))
                | ok outputs =>
                    obtain ⟨refs, -, h⟩ := Lists.bind_eq_ok h
                    cases h
                    exact .inl ⟨rfl, hres, outputs, refs, rfl⟩

/-- What the gate does is a move. -/
lemma move_of_gate {goes : Bool} (hopen : ¬ task.Terminal)
    (h : externalDependencyGate env db task = .ok (goes, next)) :
    Move env db task [] next ∧ SameTask task next ∧
      (goes = true → Resolved db next ∧ ¬ next.Terminal) := by
  rcases gate_cases h with ⟨-, hres, outputs, refs, rfl⟩ | ⟨rfl, hobstructed, blocked, rfl⟩ |
    ⟨rfl, hwaits, rfl⟩ | ⟨rfl, hmissing, hres, hexternal, rfl⟩
  · exact ⟨.resolves task outputs refs hres, ⟨rfl, rfl, rfl, rfl, rfl, rfl, rfl, rfl, rfl⟩,
      fun _ => ⟨hres, hopen⟩⟩
  · exact ⟨.obstructed task blocked hobstructed hopen,
      ⟨rfl, rfl, rfl, rfl, rfl, rfl, rfl, rfl, keys_blockPending blocked⟩, fun h => nomatch h⟩
  · exact ⟨.waits task hwaits, ⟨rfl, rfl, rfl, rfl, rfl, rfl, rfl, rfl, rfl⟩, fun h => nomatch h⟩
  · exact ⟨.unsupplied task hmissing hres hexternal hopen,
      ⟨rfl, rfl, rfl, rfl, rfl, rfl, rfl, rfl, rfl⟩, fun h => nomatch h⟩

lemma moves_of_schedule (env : Env) (hnodup : task.stepIds.Nodup) (hres : Resolved db task) :
    ∃ last, Moves env db task (schedule env task).2 last ∧
      ∀ next, (schedule env task).1 = .ok next → next = last := by
  unfold schedule
  split
  · exact ⟨task, Moves.refl, fun _ h => nomatch h⟩
  · next polled hpolled =>
      obtain ⟨hpolls, hsame⟩ := moves_of_pollSteps (List.Subset.refl _) hres hpolled
      have hreviewed := hpolls.quiet (.reviewed polled)
      have hkept := hsame.trans (sameTask_reviewed env polled)
      dsimp only
      split
      · exact ⟨reviewed env polled, hreviewed, fun _ h => (Except.ok.inj h).symm⟩
      · next hopen =>
          split
          · exact ⟨reviewed env polled, hreviewed, fun _ h => nomatch h⟩
          · next settled hsettled =>
              obtain ⟨hsettles, hstill, hstatus⟩ := moves_of_settle db hopen hsettled
              have hall := hkept.trans hstill
              have hids : settled.stepIds.Nodup := by
                rw [Task.stepIds, hall.steps]
                exact hnodup
              obtain ⟨last, hlaunches, -, hend, hok⟩ := moves_of_launchAll settled settled
                (activeCount settled) (hids.sublist readyStepIds_sublist) (fun _ h => h) rfl rfl
                (fun _ _ => rfl)
                (hstatus.symm ▸ hopen) (hres.same hall)
              have hmoves := (hreviewed.trans hsettles).trans hlaunches
              cases hresult : (launchAll env (readyStepIds env settled) (activeCount settled)
                  settled).1 with
              | error e => exact ⟨last, hmoves, fun _ h => nomatch h⟩
              | ok launched =>
                  cases hok launched hresult
                  exact ⟨finish env last, hmoves.quiet (.finished last hend),
                    fun next h => (Except.ok.inj h).symm⟩

section

omit [RecordSize]

/-- Only the constraints of a step are normalized. -/
lemma get_normalizeStep (step : Value) {key : String} (hkey : key ≠ "constraints") :
    (normalizeStep step).get key = step.get key := by
  unfold normalizeStep
  split
  · next fields constraints _ =>
      show OrderedMap.get (OrderedMap.insert fields _ _) key = OrderedMap.get fields key
      rw [OrderedMap.get_insert, if_neg hkey.symm]
  · rfl

lemma id?_normalizeStep (step : Value) : Step.id? (normalizeStep step) = Step.id? step := by
  rw [Step.id?, get_normalizeStep step (by decide), Step.id?]

lemma dependsOn_normalizeStep (step : Value) :
    Step.dependsOn (normalizeStep step) = Step.dependsOn step := by
  rw [Step.dependsOn, get_normalizeStep step (by decide), Step.dependsOn]

lemma kind_normalizeStep (step : Value) : Step.kind (normalizeStep step) = Step.kind step := by
  rw [Step.kind, get_normalizeStep step (by decide), Step.kind]

lemma stepIds_normalize : (normalizePersistedConstraints task).stepIds = task.stepIds := by
  show ((task.steps.map normalizeStep).filterMap Step.id?) = task.steps.filterMap Step.id?
  rw [List.filterMap_map]
  exact congrArg (fun f => task.steps.filterMap f) (funext id?_normalizeStep)

lemma Sound.normalize (h : Sound task.steps) :
    Sound (normalizePersistedConstraints task).steps where
  named step hstep := by
    obtain ⟨old, hold, rfl⟩ := List.mem_map.mp hstep
    rw [id?_normalizeStep]
    exact h.named old hold
  distinct := by
    have hids : stepIds (normalizePersistedConstraints task).steps = stepIds task.steps :=
      stepIds_normalize
    rw [hids]
    exact h.distinct
  known step hstep dependency hdep := by
    have hids : stepIds (normalizePersistedConstraints task).steps = stepIds task.steps :=
      stepIds_normalize
    obtain ⟨old, hold, rfl⟩ := List.mem_map.mp hstep
    rw [hids]
    exact h.known old hold dependency (dependsOn_normalizeStep old ▸ hdep)
  ordered := by
    obtain ⟨rank, hrank⟩ := h.ordered
    refine ⟨rank, fun step hstep id hid dependency hdep => ?_⟩
    obtain ⟨old, hold, rfl⟩ := List.mem_map.mp hstep
    exact hrank old hold id (id?_normalizeStep old ▸ hid) dependency
      (dependsOn_normalizeStep old ▸ hdep)

end

/-- How a pass can end that does not fail. -/
lemma advance_cases (h : advance env db task = (.ok next, launches)) :
    (task.Terminal ∧ next = normalizePersistedConstraints task ∧ launches = []) ∨
      (¬ task.Terminal ∧
        externalDependencyGate env db (normalizePersistedConstraints task) = .ok (false, next) ∧
        launches = []) ∨
      (¬ task.Terminal ∧ ∃ gated polled,
        externalDependencyGate env db (normalizePersistedConstraints task) = .ok (true, gated) ∧
        pollSteps env gated.stepIds gated = .ok polled ∧
        ((polled.status = .failed ∧ next = reviewed env polled ∧ launches = []) ∨
          (polled.status ≠ .failed ∧ ∃ settled launched,
            settle env env.rounds (reviewed env polled) = .ok settled ∧
            launchAll env (readyStepIds env settled) (activeCount settled) settled =
              (.ok launched, launches) ∧
            next = finish env launched))) := by
  have hterminal : (normalizePersistedConstraints task).Terminal ↔ task.Terminal := Iff.rfl
  unfold advance at h
  dsimp only at h
  split at h
  · next hends =>
      obtain ⟨hnext, hlaunches⟩ := Prod.mk.inj h
      exact .inl ⟨hends, (Except.ok.inj hnext).symm, hlaunches.symm⟩
  · next hopen =>
      split at h
      · cases (Prod.mk.inj h).1
      · next gated hgate =>
          obtain ⟨hnext, hlaunches⟩ := Prod.mk.inj h
          cases Except.ok.inj hnext
          exact .inr (.inl ⟨hopen, hgate, hlaunches.symm⟩)
      · next gated hgate =>
          refine .inr (.inr ⟨hopen, gated, ?_⟩)
          unfold schedule at h
          split at h
          · cases (Prod.mk.inj h).1
          · next polled hpolled =>
              refine ⟨polled, hgate, hpolled, ?_⟩
              dsimp only at h
              split at h
              · next hfailed =>
                  obtain ⟨hnext, hlaunches⟩ := Prod.mk.inj h
                  exact .inl ⟨hfailed, (Except.ok.inj hnext).symm, hlaunches.symm⟩
              · next hfine =>
                  refine .inr ⟨hfine, ?_⟩
                  split at h
                  · cases (Prod.mk.inj h).1
                  · next settled hsettled =>
                      obtain ⟨hnext, hlaunches⟩ := Prod.mk.inj h
                      cases hresult : (launchAll env (readyStepIds env settled)
                          (activeCount settled) settled).1 with
                      | error e =>
                          rw [hresult] at hnext
                          cases hnext
                      | ok launched =>
                          rw [hresult] at hnext
                          exact ⟨settled, launched, hsettled, Prod.ext hresult hlaunches,
                            (Except.ok.inj hnext).symm⟩

/-- A task that is over is left as it is. -/
lemma advance_of_terminal (h : task.Terminal) :
    advance env db task = (.ok (normalizePersistedConstraints task), []) := by
  have hnormal : (normalizePersistedConstraints task).Terminal := h
  unfold advance
  dsimp only
  rw [if_pos hnormal]

/-- **A pass is a sequence of moves**: to the record that it writes, or until it fails. -/
theorem moves_of_advance (env : Env) (db : Records) (hnodup : task.stepIds.Nodup) :
    ∃ last, Moves env db task (advance env db task).2 last ∧
      ∀ next, (advance env db task).1 = .ok next → next = last := by
  have hfirst : Moves env db task [] _ := Moves.single (.normalizes task)
  unfold advance
  dsimp only
  split
  · exact ⟨_, hfirst, fun _ h => (Except.ok.inj h).symm⟩
  · next hopen =>
      split
      · exact ⟨_, hfirst, fun _ h => nomatch h⟩
      · next gated hgate =>
          obtain ⟨hmove, -, -⟩ := move_of_gate hopen hgate
          exact ⟨gated, hfirst.quiet hmove, fun _ h => (Except.ok.inj h).symm⟩
      · next gated hgate =>
          obtain ⟨hmove, hsame, hgoes⟩ := move_of_gate hopen hgate
          obtain ⟨hres, -⟩ := hgoes rfl
          have hids : gated.stepIds.Nodup := by
            rw [Task.stepIds, hsame.steps]
            have hids : (normalizePersistedConstraints task).stepIds.Nodup := by
              rwa [stepIds_normalize]
            exact hids
          obtain ⟨last, hmoves, hok⟩ := moves_of_schedule env hids hres
          exact ⟨last, (hfirst.quiet hmove).trans hmoves, hok⟩

/-! ### The shape of a record -/

omit [RecordSize] in
@[simp] lemma maxRetries_normalize :
    (normalizePersistedConstraints task).maxRetries = task.maxRetries := by
  show maxRetriesOf (.object (normalizedConstraints (some task.constraints))) task.execution = _
  rw [maxRetriesOf, get_object_normalized _ (by decide)]
  rfl

/-- What every move leaves of a record. -/
structure SameShape (task next : Task) : Prop where
  taskId : next.taskId = task.taskId
  stepIds : next.stepIds = task.stepIds
  keys : next.states.keys = task.states.keys
  maxRetries : next.maxRetries = task.maxRetries
  dependsOnTaskIds : next.dependsOnTaskIds = task.dependsOnTaskIds
  importTaskOutputs : next.importTaskOutputs = task.importTaskOutputs
  importWorkerRefs : next.importWorkerRefs = task.importWorkerRefs

omit [RecordSize] in
lemma SameTask.shape (h : SameTask task next) : SameShape task next where
  taskId := h.taskId
  stepIds := by rw [Task.stepIds, h.steps, Task.stepIds]
  keys := h.keys
  maxRetries := by rw [Task.maxRetries, h.constraints, h.execution, Task.maxRetries]
  dependsOnTaskIds := h.dependsOnTaskIds
  importTaskOutputs := h.importTaskOutputs
  importWorkerRefs := h.importWorkerRefs

omit [RecordSize] in
lemma SameShape.trans {last : Task} (h : SameShape task next) (h' : SameShape next last) :
    SameShape task last where
  taskId := h'.taskId.trans h.taskId
  stepIds := h'.stepIds.trans h.stepIds
  keys := h'.keys.trans h.keys
  maxRetries := h'.maxRetries.trans h.maxRetries
  dependsOnTaskIds := h'.dependsOnTaskIds.trans h.dependsOnTaskIds
  importTaskOutputs := h'.importTaskOutputs.trans h.importTaskOutputs
  importWorkerRefs := h'.importWorkerRefs.trans h.importWorkerRefs

lemma Move.shape (h : Move env db task launches next) : SameShape task next := by
  cases h with
  | normalizes => exact ⟨rfl, stepIds_normalize, rfl, maxRetries_normalize, rfl, rfl, rfl⟩
  | obstructed blocked => exact ⟨rfl, rfl, keys_blockPending blocked, rfl, rfl, rfl, rfl⟩
  | waits => exact ⟨rfl, rfl, rfl, rfl, rfl, rfl, rfl⟩
  | unsupplied => exact ⟨rfl, rfl, rfl, rfl, rfl, rfl, rfl⟩
  | resolves => exact ⟨rfl, rfl, rfl, rfl, rfl, rfl, rfl⟩
  | polled id answer => exact (sameTask_settleWorker env task id _ answer).shape
  | reviewed => exact (sameTask_reviewed env task).shape
  | settled next step hstep h => exact (sameTask_settleStep h).shape
  | started before id step run => exact (sameTask_recordStarted task id _ _).shape
  | finished => exact (sameTask_finish env task).shape

lemma Moves.shape (h : Moves env db task launches next) : SameShape task next := by
  induction h with
  | refl => exact ⟨rfl, rfl, rfl, rfl, rfl, rfl, rfl⟩
  | tail _ hmove ih => exact ih.trans hmove.shape

/-- Each step has an id of its own, which leads to no state but its own, and a state. -/
structure Regular (task : Task) : Prop where
  distinct : task.stepIds.Nodup
  keys : task.states.keys = task.stepIds
  straight : ∀ id ∈ task.stepIds, Straight task.stepIds id

section

omit [RecordSize]

lemma Regular.shape (h : Regular task) (hsame : SameShape task next) : Regular next where
  distinct := hsame.stepIds ▸ h.distinct
  keys := by rw [hsame.keys, h.keys, hsame.stepIds]
  straight := hsame.stepIds ▸ h.straight

/-- An id of which something is read leads to its own state. -/
lemma Regular.plain_of_reads (h : Regular task) {id : String} (hid : id ∈ task.stepIds)
    {status : StepStatus} (hread : task.Reads id status) : Plain id :=
  Task.plain_of_read (h.straight id hid) (fun _ hkey => h.keys ▸ hkey) hread

/-- What is read of a step, its state says. -/
lemma Regular.state_of_reads (h : Regular task) {id : String} (hid : id ∈ task.stepIds)
    {status : StepStatus} (hread : task.Reads id status) :
    ∃ s, task.states.get id = some s ∧ s.status = status :=
  Task.state_of_reads (h.straight id hid) (fun _ hkey => h.keys ▸ hkey) hread

end

end DelegatedTask

end McpSurfaces
