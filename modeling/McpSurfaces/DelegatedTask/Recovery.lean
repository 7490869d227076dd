import McpSurfaces.DelegatedTask.Runs
import McpSurfaces.DelegatedTask.Workers

/-!
Whether a step that is there for the case of a failure is ever started.

* `Due`: such a step is pending, what it depends on has ended, and its condition holds.
* `Recovered`: it is started before its task is over.
* **`never_recovered`**: once a step of a task has failed for good, no step of the task is started
  any more.
* `repair_never_runs`: the repair step of a template, behind a review that has failed.
-/

namespace McpSurfaces

namespace DelegatedTask

open Calls (run Each)

/-! ### Steps for the case of a failure -/

/-- A condition that holds only where a step has failed or is blocked. -/
def FailureOnly (condition : String) : Prop :=
  ∀ (resultText : String) (task : Task),
    (∀ s ∈ task.states.values, s.status ≠ .failed ∧ s.status ≠ .blocked) →
      conditionPasses resultText task (some condition) = false

/-- A step of a task has failed for good. -/
def HasFailed (task : Task) : Prop := ∃ id s, task.states.get id = some s ∧ s.status = .failed

/-- A step that is there for the case of a failure may run. -/
structure Due (resultText : String) (task : Task) (id : String) : Prop where
  pending : ∃ s, task.states.get id = some s ∧ s.status = .pending
  explicit : ∃ step ∈ task.steps, Step.id? step = some id ∧
    (∀ dependency ∈ Step.dependsOn step, ∃ s, task.states.get dependency = some s ∧
      s.status ≠ .pending ∧ s.status ≠ .running) ∧
    ∃ condition ∈ Step.condition step, FailureOnly condition ∧
      conditionPasses resultText task (some condition) = true

section Runs

variable [RecordSize]

/-- A worker is started for a step, before its task is over. -/
def Recovered (w : World) (more : List Section) (taskId stepId : String) : Prop :=
  ∃ early late, more = early ++ late ∧
    runsOf (run World.after w early).started taskId stepId ≠ runsOf w.started taskId stepId ∧
    ∃ now ∈ (run World.after w early).tasks, now.taskId = taskId ∧ ¬ now.Terminal

variable {env : Env} {db : Records} {task next : Task} {launches : List Launch}

/-! ### A failure ends the task -/

/-- A task with a step that has failed has failed. -/
def EndsFailed (task : Task) : Prop := HasFailed task → task.status = .failed

section

omit [RecordSize]

/-- A step is set to a status that is not failed. -/
lemma hasFailed_of_setStep {id : String} {set : StepState → StepState}
    (hset : ∀ s, (set s).status = .failed → s.status = .failed)
    (h : HasFailed (task.setStep id set)) : HasFailed task := by
  obtain ⟨other, s, hs, hfailed⟩ := h
  rw [Task.get_setStep] at hs
  obtain ⟨old, hold, rfl⟩ := Option.map_eq_some_iff.mp hs
  refine ⟨other, old, hold, ?_⟩
  split at hfailed
  · exact hset old hfailed
  · exact hfailed

lemma hasFailed_congr (hstates : next.states = task.states) :
    HasFailed next ↔ HasFailed task := by
  rw [HasFailed, hstates, HasFailed]

lemma endsFailed_settleWorker (h : EndsFailed task) (id : String) (answer : Value) :
    EndsFailed (settleWorker env task id (currentRun task id) answer) := by
  have hrecorded : ∀ {status run}, HasFailed (recordWorkerTerminal env task id (currentRun task id)
      status run) → task.status = .failed := fun hfailed => by
    rw [hasFailed_congr (states_recordWorkerTerminal env task id _ _ _)] at hfailed
    refine h (hasFailed_of_setStep (fun _ hs => ?_) hfailed)
    exact hs
  have hresult : settleWorker env task id (currentRun task id) answer =
    settleWorker env task id (currentRun task id) answer := rfl
  rcases settleWorker_cases hresult with ⟨-, heq⟩ | ⟨-, -, heq⟩ | ⟨-, -, heq⟩ | ⟨-, -, heq⟩
  · rw [heq]
    exact fun _ => rfl
  · rw [heq]
    refine fun hfailed => hrecorded (hasFailed_of_setStep (fun _ hs => ?_) hfailed)
    cases hs
  · rw [heq]
    refine fun hfailed => hrecorded (hasFailed_of_setStep (fun _ hs => ?_) hfailed)
    cases hs
  · rw [heq]
    exact h

lemma endsFailed_settleStep (h : EndsFailed task) {step : Value}
    (hstep : settleStep env task step = some next) : EndsFailed next := by
  have hstatus := status_settleStep hstep
  intro hfailed
  rw [hstatus]
  refine h ?_
  obtain ⟨id, -, -, ⟨-, rfl⟩ | ⟨-, -, rfl⟩ | ⟨-, -, -, rfl⟩⟩ := settleStep_cases hstep
  · refine hasFailed_of_setStep (fun _ hs => ?_) hfailed
    cases hs
  · refine hasFailed_of_setStep (fun _ hs => ?_) hfailed
    cases hs
  · refine hasFailed_of_setStep (fun _ hs => ?_) hfailed
    dsimp only at hs
    split at hs <;> cases hs

lemma states_finish (env : Env) (task : Task) : (finish env task).states = task.states := by
  unfold finish
  dsimp only
  split_ifs <;> rfl

end

lemma endsFailed_move (h : EndsFailed task) (hmove : Move env db task launches next) :
    EndsFailed next := by
  cases hmove with
  | normalizes => exact h
  | obstructed => exact fun _ => rfl
  | waits => exact h
  | unsupplied => exact fun _ => rfl
  | resolves => exact h
  | polled id answer => exact endsFailed_settleWorker h id answer
  | reviewed => exact h
  | settled next step hstep hsettled => exact endsFailed_settleStep h hsettled
  | started before id step run hstep hid hready hsteps hkeys hstate hkind hrun hopen =>
      intro hfailed
      rw [hasFailed_congr (states_recordStarted task id _ _)] at hfailed
      refine absurd (h (hasFailed_of_setStep (fun _ hs => ?_) hfailed)) hopen
      cases hs
  | finished hopen =>
      intro hfailed
      exact absurd (h ((hasFailed_congr (states_finish env task)).mp hfailed)) hopen

lemma endsFailed_moves (h : EndsFailed task) (hmoves : Moves env db task launches next) :
    EndsFailed next := by
  induction hmoves with
  | refl => exact h
  | tail _ hmove ih => exact endsFailed_move ih hmove

/-- Every task with a step that has failed has failed. -/
structure Ended (w : World) : Prop extends Filed w where
  failed : ∀ task ∈ w.tasks, EndsFailed task

omit [RecordSize] in
lemma ended_empty : Ended World.empty where
  toFiled := filed_empty
  failed _ htask := absurd htask List.not_mem_nil

lemma ended_run (sections : List Section) : Ended (run World.after World.empty sections) := by
  refine keeps_run Ended (fun env w task hw htask => ⟨hw.toFiled.pass htask, fun other hother => ?_⟩)
    (fun env args w task hw hfree hcreated =>
      ⟨hw.toFiled.accept hfree hcreated, fun other hother => ?_⟩)
    (fun w task hw htask hopen => ⟨hw.toFiled.cancel htask, fun other hother => ?_⟩) sections
    ended_empty
  · rcases mem_pass (hw.distinct task htask) hother with ⟨hold, -⟩ | ⟨-, hmoves⟩
    · exact hw.failed other hold
    · exact endsFailed_moves (hw.failed task htask) hmoves
  · rcases List.mem_append.mp hother with hold | hnew
    · exact hw.failed other hold
    · rw [List.mem_singleton.mp hnew]
      rintro ⟨id, s, hs, hfailed⟩
      obtain ⟨step, -, -, rfl⟩ := initial_of_created hcreated id s hs
      cases hfailed
  · rcases mem_writeTask.mp hother with ⟨hold, -⟩ | ⟨rfl, -⟩
    · exact hw.failed other hold
    · exact fun hfailed => absurd (.inr (.inl (hw.failed task htask hfailed))) hopen

/-! ### A task that is over stays as it is -/

/-- A task is over, its states are given, and so are the workers of its steps. -/
structure Closed (w : World) (taskId : String) (status : TaskStatus)
    (states : OrderedMap String StepState) (runs : String → List String) : Prop extends Filed w where
  terminal : status.Terminal
  record : ∃ task ∈ w.tasks, task.taskId = taskId ∧ task.status = status ∧ task.states = states
  runs : ∀ stepId, runsOf w.started taskId stepId = runs stepId

variable {w : World} {taskId : String} {status : TaskStatus} {states : OrderedMap String StepState}
  {runs : String → List String}

omit [RecordSize] in
/-- There is one record of a task that is over. -/
lemma Closed.eq (h : Closed w taskId status states runs) (htask : task ∈ w.tasks)
    (hid : task.taskId = taskId) : task.status = status ∧ task.states = states := by
  obtain ⟨other, hother, hsame, hstatus, hstates⟩ := h.record
  have heq : task = other :=
    List.inj_on_of_nodup_map h.ids htask hother (hid.trans hsame.symm)
  exact heq ▸ ⟨hstatus, hstates⟩

lemma Closed.pass (h : Closed w taskId status states runs) (htask : task ∈ w.tasks) :
    Closed (w.pass env task) taskId status states runs := by
  obtain ⟨other, hother, hsame, hstatus, hstates⟩ := h.record
  have hstarted : (w.pass env task).started = w.started ++
      (advance env w.tasks task).2.map fun launch => (task.taskId, launch) := rfl
  by_cases hid : task.taskId = taskId
  · obtain ⟨hends, hkeeps⟩ := h.eq htask hid
    have hterminal : task.Terminal := by
      rw [Task.Terminal, hends]
      exact h.terminal
    refine ⟨h.toFiled.pass htask, h.terminal, ⟨normalizePersistedConstraints task, ?_, hid, hends,
      hkeeps⟩, fun stepId => ?_⟩
    · exact mem_pass_of_terminal htask hterminal
    · rw [hstarted, advance_of_terminal hterminal, List.map_nil, List.append_nil]
      exact h.runs stepId
  · refine ⟨h.toFiled.pass htask, h.terminal, ⟨other, ?_, hsame, hstatus, hstates⟩, fun stepId => ?_⟩
    · exact mem_pass_of_ne (h.distinct task htask) hother fun heq => hid (heq.symm.trans hsame)
    · have hother : taskId ≠ task.taskId := fun heq => hid heq.symm
      rw [hstarted, runsOf_append, if_neg hother, List.append_nil]
      exact h.runs stepId

lemma Closed.later (h : Closed w taskId status states runs) (more : List Section) :
    Closed (run World.after w more) taskId status states runs := by
  refine keeps_run (Closed · taskId status states runs) (fun env w task hw htask => hw.pass htask)
    (fun env args w task hw hfree hcreated => ?_) (fun w task hw htask hopen => ?_) more h
  · obtain ⟨other, hother, hsame, hstatus, hstates⟩ := hw.record
    exact ⟨hw.toFiled.accept hfree hcreated, hw.terminal,
      ⟨other, List.mem_append_left _ hother, hsame, hstatus, hstates⟩, hw.runs⟩
  · obtain ⟨other, hother, hsame, hstatus, hstates⟩ := hw.record
    refine ⟨hw.toFiled.cancel htask, hw.terminal,
      ⟨other, mem_writeTask.mpr (.inl ⟨hother, fun hid => hopen ?_⟩), hsame, hstatus, hstates⟩,
      hw.runs⟩
    obtain ⟨hends, -⟩ := hw.eq htask (hid.symm.trans hsame)
    rw [Task.Terminal, hends]
    exact hw.terminal

omit [RecordSize] in
lemma closed_of_hasFailed (h : Ended w) (htask : task ∈ w.tasks) (hfailed : HasFailed task) :
    Closed w task.taskId .failed task.states (runsOf w.started task.taskId) where
  toFiled := h.toFiled
  terminal := .inr (.inl rfl)
  record := ⟨task, htask, rfl, h.failed task htask hfailed, rfl⟩
  runs _ := rfl

/-- A step of a task that is over is not started. -/
lemma not_startable_again (h : Closed w taskId status states runs) (more : List Section) (stepId : String) :
    ¬ Recovered w more taskId stepId := by
  rintro ⟨early, late, -, hstarted, -⟩
  exact hstarted (((h.later early).runs stepId).trans (h.runs stepId).symm)

/-- **Once a step has failed for good, no step that is due for that case is ever started**: its
task is over, and the step is left pending. -/
theorem never_recovered (sections more : List Section) {resultText stepId : String}
    (htask : task ∈ (run World.after World.empty sections).tasks) (hfailed : HasFailed task)
    (hdue : Due resultText task stepId) :
    task.Terminal ∧
      ¬ Recovered (run World.after World.empty sections) more task.taskId stepId ∧
      ∃ later ∈ (run World.after World.empty (sections ++ more)).tasks,
        later.taskId = task.taskId ∧ later.Terminal ∧
        ∃ s, later.states.get stepId = some s ∧ s.status = .pending := by
  have hended := ended_run sections
  have hclosed := closed_of_hasFailed hended htask hfailed
  obtain ⟨later, hlater, hid, hstatus, hstates⟩ := (hclosed.later more).record
  refine ⟨.inr (.inl (hended.failed task htask hfailed)), not_startable_again hclosed more stepId,
    later, ?_, hid, ?_, ?_⟩
  · rw [Calls.run_append]
    exact hlater
  · rw [Task.Terminal, hstatus]
    exact .inr (.inl rfl)
  · rw [hstates]
    exact hdue.pending

end Runs

/-! ### A review that fails -/

/-- `review_failed` holds only where a step has failed. -/
lemma failureOnly_reviewFailed : FailureOnly "review_failed" := by
  intro resultText task hnone
  have hbasic : basicPasses resultText task "review_failed" =
      some (task.states.values.any fun s => s.kind = "review" ∧ s.status = .failed) := by
    unfold basicPasses
    rw [if_neg (by decide), if_neg (by decide), if_neg (by decide), if_pos rfl]
  have htrim : ((some "review_failed").map Str.trim).filter (· ≠ "") = some "review_failed" := by
    decide
  unfold conditionPasses passesWithin
  rw [htrim]
  dsimp only
  rw [hbasic]
  refine List.any_eq_false.mpr fun s hs hfailed => ?_
  exact (hnone s hs).1 (of_decide_eq_true hfailed).2

/-- The arguments of a task with the template. -/
def repairable : Value :=
  .object [("task_id", .string "t"), ("objective", .string "o"),
    ("workflow", .object [("template_id", .string "implement_review_repair_verify")])]

/-- The work is done, and its review fails. -/
def failingReview : List Section :=
  [.run (endedAs "" "") repairable, .advance (endedAs "run-implement" "completed") "t",
    .advance (endedAs "run-review" "failed") "t"]

/-- What a review that fails leaves. -/
lemma repair_due :
    letI := smallRecords
    ∃ task ∈ (run World.after World.empty failingReview).tasks, task.taskId = "t" ∧
      HasFailed task ∧ Due "" task "repair" := by
  let _ : RecordSize := smallRecords
  have hrecord : (run World.after World.empty failingReview).tasks.any (fun task =>
      task.taskId = "t" ∧
        (task.states.get "review").map StepState.status = some .failed ∧
        (task.states.get "repair").map StepState.status = some .pending ∧
        (task.steps.any fun step => Step.id? step = some "repair" ∧
          Step.dependsOn step = ["review"] ∧ Step.condition step = some "review_failed") ∧
        conditionPasses "" task (some "review_failed") = true) = true := by
    decide +kernel
  obtain ⟨task, htask, hall⟩ := List.any_eq_true.mp hrecord
  obtain ⟨hid, hreview, hrepair, hstep, hpasses⟩ := of_decide_eq_true hall
  obtain ⟨review, hget, hfailed⟩ := Option.map_eq_some_iff.mp hreview
  obtain ⟨repair, hrepairs, hpending⟩ := Option.map_eq_some_iff.mp hrepair
  obtain ⟨step, hmem, hstep⟩ := List.any_eq_true.mp hstep
  obtain ⟨hstepid, hdepends, hcondition⟩ := of_decide_eq_true hstep
  refine ⟨task, htask, hid, ⟨"review", review, hget, hfailed⟩, ⟨repair, hrepairs, hpending⟩,
    step, hmem, hstepid, fun dependency hdep => ?_, "review_failed", hcondition,
    failureOnly_reviewFailed, hpasses⟩
  rw [hdepends, List.mem_singleton] at hdep
  subst hdep
  refine ⟨review, hget, ?_, ?_⟩ <;> rw [hfailed] <;> decide

/-- Behind a review that fails, the repair step is left pending. -/
theorem repair_left_pending :
    letI := smallRecords
    ∃ task : Task, ¬ Recovered (run World.after World.empty failingReview) [] task.taskId "repair" := by
  let _ : RecordSize := smallRecords
  obtain ⟨task, htask, -, hfailed, hdue⟩ := repair_due
  exact ⟨task, (never_recovered failingReview [] htask hfailed hdue).2.1⟩

/-- **The repair step of the template never runs**, though its review has failed and it is due. -/
theorem repair_never_runs :
    letI := smallRecords
    ∃ task ∈ (run World.after World.empty failingReview).tasks,
      HasFailed task ∧ Due "" task "repair" ∧
      ∀ more, ¬ Recovered (run World.after World.empty failingReview) more task.taskId "repair" := by
  let _ : RecordSize := smallRecords
  obtain ⟨task, htask, -, hfailed, hdue⟩ := repair_due
  exact ⟨task, htask, hfailed, hdue, fun more => not_startable_again
    (closed_of_hasFailed (ended_run failingReview) htask hfailed) more "repair"⟩

end DelegatedTask

end McpSurfaces
