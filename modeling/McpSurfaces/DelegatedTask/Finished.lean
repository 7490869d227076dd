import McpSurfaces.DelegatedTask.Runs

/-!
Whether the steps of a finished task are finished.

* `Finished`: a task that is over has no step that is pending or running, and no worker that runs;
  and a step is completed only where its last worker was.
* `Orderly`: a pass in which a step that fails for good is the last one, a worker that is told to
  have completed was seen to end, all imports are there, and every worker has a run of its own.
* **`finished_of_orderly`**: in a run of such passes, where no task is cancelled that has steps to
  do, every task is finished.
* `sibling_left_running`: one of two steps that run fails, and its task is over while the other runs.
-/

namespace McpSurfaces

namespace DelegatedTask

open Calls (run Each)

variable {task next : Task} {id : String} {s : StepState}

/-! ### Finished tasks -/

/-- No step of a task is pending or running. -/
def Idle (task : Task) : Prop :=
  ∀ id s, task.states.get id = some s → s.status ≠ .pending ∧ s.status ≠ .running

/-- The last worker that is recorded for a step. -/
def lastRef (refs : List WorkerRef) (id : String) : Option WorkerRef :=
  refs.reverse.find? fun ref => ref.stepId = id

/-- A step is completed because of what it is, or its last worker was. -/
def Earned (task : Task) (id : String) : Prop :=
  (∃ step ∈ task.steps, Step.id? step = some id ∧ Step.Local step) ∨
    ∃ ref, lastRef task.workerRefs id = some ref ∧ ref.status = "completed"

structure Finished (task : Task) : Prop where
  idle : task.Terminal → Idle task
  ended : task.Terminal → ∀ ref ∈ task.workerRefs, ref.status ≠ "running"
  earned : ∀ id s, task.states.get id = some s → s.status = .completed → Earned task id

/-! ### References to workers -/

/-- A reference that keeps its step and its run. -/
def Closing (close : WorkerRef → WorkerRef) (status : String) : Prop :=
  ∀ ref, (close ref).stepId = ref.stepId ∧ (close ref).runId = ref.runId ∧
    (close ref).status = status

/-- Where every worker has a run of its own, the reference to a run is closed and no other. -/
lemma closeRef_eq_map {runId : String} {close : WorkerRef → WorkerRef} {refs : List WorkerRef}
    (h : (refs.map WorkerRef.runId).Nodup) :
    closeRef runId close refs = refs.map fun ref => if ref.runId = runId then close ref else ref := by
  induction refs with
  | nil => rfl
  | cons ref rest ih =>
      rw [List.map_cons, List.nodup_cons] at h
      rw [List.map_cons, closeRef]
      by_cases hrun : ref.runId = runId
      · rw [if_pos hrun, if_pos hrun]
        refine congrArg _ ?_
        refine (List.map_id rest).symm.trans (List.map_congr_left fun other hother => ?_)
        have hne : other.runId ≠ runId := fun heq =>
          h.1 (hrun.trans heq.symm ▸ List.mem_map_of_mem hother)
        exact (if_neg hne).symm
      · rw [if_neg hrun, if_neg hrun, ih h.2]

lemma runIds_closeRef {runId status : String} {close : WorkerRef → WorkerRef}
    (h : Closing close status) (refs : List WorkerRef) :
    (closeRef runId close refs).map WorkerRef.runId = refs.map WorkerRef.runId := by
  induction refs with
  | nil => rfl
  | cons ref rest ih =>
      rw [closeRef]
      split
      · rw [List.map_cons, List.map_cons, (h ref).2.1]
      · rw [List.map_cons, List.map_cons, ih]

lemma lastRef_map {refs : List WorkerRef} {change : WorkerRef → WorkerRef}
    (hchange : ∀ ref, (change ref).stepId = ref.stepId) (id : String) :
    lastRef (refs.map change) id = (lastRef refs id).map change := by
  rw [lastRef, ← List.map_reverse, List.find?_map, lastRef]
  refine congrArg (fun p => Option.map change (refs.reverse.find? p)) (funext fun ref => ?_)
  show decide ((change ref).stepId = id) = decide (ref.stepId = id)
  rw [hchange]

lemma lastRef_append_self {refs : List WorkerRef} {ref : WorkerRef} (h : ref.stepId = id) :
    lastRef (refs ++ [ref]) id = some ref := by
  rw [lastRef, List.reverse_append, List.reverse_singleton, List.singleton_append,
    List.find?_cons_of_pos (by simpa using h)]

lemma lastRef_append_of_ne {refs : List WorkerRef} {ref : WorkerRef} (h : ref.stepId ≠ id) :
    lastRef (refs ++ [ref]) id = lastRef refs id := by
  rw [lastRef, List.reverse_append, List.reverse_singleton, List.singleton_append,
    List.find?_cons_of_neg (by simpa using h), lastRef]

lemma mem_of_lastRef {refs : List WorkerRef} {ref : WorkerRef} (h : lastRef refs id = some ref) :
    ref ∈ refs ∧ ref.stepId = id :=
  ⟨List.mem_reverse.mp (List.mem_of_find?_eq_some h), by simpa using List.find?_some h⟩

/-! ### What is kept of a record -/

/-- What every part of a pass keeps of a record. -/
structure Kept (task : Task) : Prop extends Regular task where
  sound : Sound task.steps
  runs : (task.workerRefs.map WorkerRef.runId).Nodup
  running : ∀ ref ∈ task.workerRefs, ref.status = "running" →
    ∃ s, task.states.get ref.stepId = some s ∧ s.status = .running ∧
      s.currentRunId = some ref.runId
  recorded : ∀ id s, task.states.get id = some s → s.status = .running →
    ∃ ref, lastRef task.workerRefs id = some ref ∧ s.currentRunId = some ref.runId
  plain : ∀ id s, task.states.get id = some s → s.status = .running → Plain id
  earned : ∀ id s, task.states.get id = some s → s.status = .completed → Earned task id
  broken : ∀ id s, task.states.get id = some s → s.status = .failed ∨ s.status = .blocked →
    task.status = .failed

namespace Kept

/-- A record of which the steps, the states and the references are kept. -/
lemma congr (h : Kept task) (hsteps : next.steps = task.steps) (hstates : next.states = task.states)
    (hrefs : next.workerRefs = task.workerRefs)
    (hstatus : task.status = .failed → next.status = .failed) : Kept next where
  distinct := by
    rw [Task.stepIds, hsteps]
    exact h.distinct
  keys := by
    rw [hstates, Task.stepIds, hsteps]
    exact h.keys
  straight := by
    rw [Task.stepIds, hsteps]
    exact h.straight
  sound := hsteps ▸ h.sound
  runs := hrefs ▸ h.runs
  running := by
    rw [hrefs, hstates]
    exact h.running
  recorded := by
    rw [hrefs, hstates]
    exact h.recorded
  plain := by
    rw [hstates]
    exact h.plain
  earned id s hs hcompleted := by
    rw [hstates] at hs
    have hearned := h.earned id s hs hcompleted
    rw [Earned, hsteps, hrefs]
    exact hearned
  broken id s hs hbroken := hstatus (h.broken id s (hstates ▸ hs) hbroken)

lemma normalize (h : Kept task) : Kept (normalizePersistedConstraints task) where
  toRegular := h.toRegular.shape ⟨rfl, stepIds_normalize, rfl, maxRetries_normalize, rfl, rfl, rfl⟩
  sound := h.sound.normalize
  runs := h.runs
  running := h.running
  recorded := h.recorded
  plain := h.plain
  earned id s hs hcompleted := by
    rcases h.earned id s hs hcompleted with ⟨step, hstep, hid, hlocal⟩ | hlast
    · refine .inl ⟨normalizeStep step, List.mem_map_of_mem hstep, ?_, ?_⟩
      · rw [id?_normalizeStep, hid]
      · rw [Step.Local, kind_normalizeStep]
        exact hlocal
    · exact .inr hlast
  broken := h.broken

/-- A step that does not run is set: it stays as it is but for its status. -/
lemma setStep (h : Kept task) {set : StepState → StepState} {s : StepState}
    (hs : task.states.get id = some s) (hidle : s.status ≠ .running)
    (hset : (set s).status ≠ .running) (hearned : (set s).status = .completed → Earned task id)
    (hbroken : (set s).status = .failed ∨ (set s).status = .blocked → task.status = .failed) :
    Kept (task.setStep id set) where
  toRegular := h.toRegular.shape (sameTask_setStep task id set).shape
  sound := h.sound
  runs := h.runs
  running ref href hruns := by
    obtain ⟨old, hold, hstatus, hrun⟩ := h.running ref href hruns
    have hne : ref.stepId ≠ id := fun heq => by
      rw [heq, hs] at hold
      cases hold
      exact hidle hstatus
    exact ⟨old, (Task.get_setStep_of_ne hne).trans hold, hstatus, hrun⟩
  recorded other new hnew hruns := by
    by_cases heq : other = id
    · rw [heq, Task.get_setStep_self, hs] at hnew
      cases hnew
      exact absurd hruns hset
    · exact h.recorded other new ((Task.get_setStep_of_ne heq).symm.trans hnew) hruns
  plain other new hnew hruns := by
    by_cases heq : other = id
    · rw [heq, Task.get_setStep_self, hs] at hnew
      cases hnew
      exact absurd hruns hset
    · exact h.plain other new ((Task.get_setStep_of_ne heq).symm.trans hnew) hruns
  earned other new hnew hcompleted := by
    by_cases heq : other = id
    · rw [heq, Task.get_setStep_self, hs] at hnew
      cases hnew
      exact heq ▸ hearned hcompleted
    · exact h.earned other new ((Task.get_setStep_of_ne heq).symm.trans hnew) hcompleted
  broken other new hnew hnewBroken := by
    by_cases heq : other = id
    · rw [heq, Task.get_setStep_self, hs] at hnew
      cases hnew
      exact hbroken hnewBroken
    · exact h.broken other new ((Task.get_setStep_of_ne heq).symm.trans hnew) hnewBroken

/-- A step that runs ends: its state is set, and the reference to its run is closed. -/
lemma ends (h : Kept task) {new : StepState} {close : WorkerRef → WorkerRef} {ended : String}
    (hs : task.states.get id = some s) (hruns : s.status = .running)
    (hsteps : next.steps = task.steps) (hkeys : next.states.keys = task.states.keys)
    (hself : next.states.get id = some new)
    (hothers : ∀ other, other ≠ id → next.states.get other = task.states.get other)
    (hrefs : next.workerRefs = closeRef (s.currentRunId.getD "") close task.workerRefs)
    (hclose : Closing close ended) (hended : ended ≠ "running") (hnew : new.status ≠ .running)
    (hcompleted : new.status = .completed → ended = "completed")
    (hbroken : new.status = .failed ∨ new.status = .blocked → next.status = .failed)
    (hstatus : task.status = .failed → next.status = .failed) : Kept next := by
  obtain ⟨last, hlast, hrun⟩ := h.recorded id s hs hruns
  have hrunId : s.currentRunId.getD "" = last.runId := by rw [hrun, Option.getD_some]
  rw [hrunId, closeRef_eq_map h.runs] at hrefs
  have hstep : ∀ ref, (if ref.runId = last.runId then close ref else ref).stepId = ref.stepId :=
    fun ref => by
      split
      · exact (hclose ref).1
      · rfl
  have hrunOf : ∀ ref, (if ref.runId = last.runId then close ref else ref).runId = ref.runId :=
    fun ref => by
      split
      · exact (hclose ref).2.1
      · rfl
  have hlasts : ∀ other, lastRef next.workerRefs other = (lastRef task.workerRefs other).map
      fun ref => if ref.runId = last.runId then close ref else ref := fun other => by
    rw [hrefs, lastRef_map hstep]
  have hids : next.stepIds = task.stepIds := by rw [Task.stepIds, hsteps, Task.stepIds]
  refine ⟨⟨hids ▸ h.distinct, by rw [hkeys, h.keys, hids], hids ▸ h.straight⟩, hsteps ▸ h.sound,
    ?_, fun ref href hrefRuns => ?_, fun other state hstate hstateRuns => ?_,
    fun other state hstate hstateRuns => ?_, fun other state hstate hdone => ?_,
    fun other state hstate hstateBroken => ?_⟩
  · have hruns : next.workerRefs.map WorkerRef.runId = task.workerRefs.map WorkerRef.runId := by
      rw [hrefs, List.map_map]
      exact List.map_congr_left fun ref _ => hrunOf ref
    rw [hruns]
    exact h.runs
  · rw [hrefs] at href
    obtain ⟨old, hold, rfl⟩ := List.mem_map.mp href
    split at hrefRuns
    · exact absurd ((hclose old).2.2.symm.trans hrefRuns) hended
    · next hother =>
        obtain ⟨state, hstate, hstatus, hcurrent⟩ := h.running old hold hrefRuns
        have hne : old.stepId ≠ id := fun heq => by
          rw [heq, hs] at hstate
          cases hstate
          exact hother (Option.some.inj (hcurrent.symm.trans hrun))
        rw [if_neg hother]
        exact ⟨state, (hothers _ hne).trans hstate, hstatus, hcurrent⟩
  · by_cases heq : other = id
    · rw [heq, hself] at hstate
      cases hstate
      exact absurd hstateRuns hnew
    · obtain ⟨ref, href, hcurrent⟩ := h.recorded other state
        ((hothers other heq).symm.trans hstate) hstateRuns
      exact ⟨_, by rw [hlasts, href]; rfl, hcurrent.trans (by rw [hrunOf])⟩
  · by_cases heq : other = id
    · rw [heq, hself] at hstate
      cases hstate
      exact absurd hstateRuns hnew
    · exact h.plain other state ((hothers other heq).symm.trans hstate) hstateRuns
  · by_cases heq : other = id
    · rw [heq, hself] at hstate
      cases hstate
      refine .inr ⟨close last, ?_, (hclose last).2.2.trans (hcompleted hdone)⟩
      rw [hlasts, heq, hlast, Option.map_some, if_pos rfl]
    · rcases h.earned other state ((hothers other heq).symm.trans hstate) hdone with
        ⟨step, hmem, hfound⟩ | ⟨ref, href, hrefDone⟩
      · exact .inl ⟨step, hsteps ▸ hmem, hfound⟩
      · refine .inr ⟨ref, ?_, hrefDone⟩
        -- The last worker of another step has another run.
        have hne : ref.runId ≠ last.runId := fun hsame => heq (by
          have hsameRef := List.inj_on_of_nodup_map h.runs (mem_of_lastRef href).1
            (mem_of_lastRef hlast).1 hsame
          rw [← (mem_of_lastRef href).2, hsameRef, (mem_of_lastRef hlast).2])
        rw [hlasts, href, Option.map_some, if_neg hne]
  · by_cases heq : other = id
    · rw [heq, hself] at hstate
      cases hstate
      exact hbroken hstateBroken
    · exact hstatus (h.broken other state ((hothers other heq).symm.trans hstate) hstateBroken)

end Kept

/-! ### Polls -/

section Polls

variable {env : Env} {ids : List String} {answer : Value}

/-- The worker of a step that runs is told of. -/
def Told (env : Env) (task : Task) (id : String) (answer : Value) : Prop :=
  ∃ s, task.states.get id = some s ∧ s.status = .running ∧
    env.workerRunStatus (s.currentRunId.getD "") = .ok answer

/-- The output that is required of a step is missing. -/
def LacksOutput (env : Env) (task : Task) (id : String) (answer : Value) : Prop :=
  ContractFailed (recordedOutput env (requiredContractFields task id) (runOf answer))
    (requiredContractFields task id)

instance : Decidable (LacksOutput env task id answer) :=
  inferInstanceAs (Decidable (ContractFailed _ _))

/-- A step fails for good with what is told of its worker. -/
def FailsWith (env : Env) (task : Task) (id : String) (answer : Value) : Prop :=
  (workerOf answer = "completed" ∧ LacksOutput env task id answer) ∨
    (endedBadly (workerOf answer) ∧ task.maxRetries < attemptsOf task id)

lemma currentRun_of_plain (hplain : Plain id) (hs : task.states.get id = some s) :
    currentRun task id = s.currentRunId.getD "" := by
  rw [currentRun, Task.stepField_of_plain hplain, hs, Option.bind_some,
    StepState.pointer_currentRunId]
  cases s.currentRunId <;> rfl

lemma failsForGood_iff (env : Env) (answer : Value) (hplain : Plain id)
    (hs : task.states.get id = some s) :
    FailsForGood env task id answer ↔ FailsWith env task id answer := by
  have hget : (recordWorkerTerminal env task id (currentRun task id) (workerOf answer)
      (runOf answer)).states.get id = some
      { s with
        workerStatus := some (effectiveStatus env task id (workerOf answer) (runOf answer))
        workerOutputContract := some (if LacksOutput env task id answer then "failed" else "passed")
        workerOutput := (recordedOutput env (requiredContractFields task id) (runOf answer)).or
          s.workerOutput } := by
    rw [states_recordWorkerTerminal, Task.get_setStep_self, hs]
    rfl
  refine or_congr (and_congr_right fun _ => ?_) (and_congr_right fun _ => ?_)
  · rw [Task.stepField_of_plain hplain, hget, Option.bind_some,
      StepState.pointer_workerOutputContract]
    show some (if LacksOutput env task id answer then "failed" else "passed") = some "failed" ↔ _
    split <;> simp_all
  · rw [attemptsOf, hget, attemptsOf, hs]
    exact Iff.rfl

lemma failsWith_congr (hsame : SameTask task next)
    (hget : next.states.get id = task.states.get id) :
    FailsWith env next id answer ↔ FailsWith env task id answer := by
  have hrequired : requiredContractFields next id = requiredContractFields task id := by
    rw [requiredContractFields, hsame.steps, acceptanceRequiredFields, hsame.acceptance]
    rfl
  rw [FailsWith, LacksOutput, hrequired, hsame.shape.maxRetries, attemptsOf, hget]
  rfl

lemma not_running_of_ended (hended : workerOf answer = "completed" ∨ endedBadly (workerOf answer)) :
    effectiveStatus env task id (workerOf answer) (runOf answer) ≠ "running" := by
  unfold effectiveStatus
  dsimp only
  split
  · decide
  · rcases hended with h | h | h | h | h <;> rw [h] <;> decide

lemma completed_of_observed (hworker : workerOf answer = "completed")
    (hobserved : ¬ RuntimeTerminalMissing (runOf answer)) (houtput : ¬ LacksOutput env task id answer) :
    effectiveStatus env task id (workerOf answer) (runOf answer) = "completed" := by
  unfold effectiveStatus
  dsimp only
  exact (if_neg (not_or.mpr ⟨houtput, hobserved⟩)).trans hworker

/-- A step that runs is asked about, and no other is. -/
lemma pollStep_cases (h : Regular task) (hid : id ∈ task.stepIds)
    (hpoll : pollStep env task id = .ok next) :
    (¬ task.Reads id .running ∧ next = task) ∨ ∃ s answer, task.states.get id = some s ∧
      s.status = .running ∧ Plain id ∧ env.workerRunStatus (s.currentRunId.getD "") = .ok answer ∧
      next = settleWorker env task id (currentRun task id) answer := by
  unfold pollStep at hpoll
  split at hpoll
  · next hreads =>
      split at hpoll
      · cases hpoll
      · next answer hanswer =>
          obtain ⟨s, hs, hruns⟩ := h.state_of_reads hid hreads
          have hplain := h.plain_of_reads hid hreads
          rw [currentRun_of_plain hplain hs] at hanswer
          exact .inr ⟨s, answer, hs, hruns, hplain, hanswer, (Except.ok.inj hpoll).symm⟩
  · next hidle => exact .inl ⟨hidle, (Except.ok.inj hpoll).symm⟩

/-- What a poll makes of its step and of its task. -/
structure Settles (env : Env) (task : Task) (id : String) (answer : Value) (next : Task) : Prop where
  same : SameTask task next
  refs : next.workerRefs.map WorkerRef.runId = task.workerRefs.map WorkerRef.runId
  others : ∀ other, other ≠ id → next.states.get other = task.states.get other
  fails : FailsWith env task id answer → next.status = .failed
  stays : ¬ FailsWith env task id answer → next.status = task.status
  ends : workerOf answer = "completed" ∨ FailsWith env task id answer →
    ∀ s, next.states.get id = some s → s.status ≠ .pending ∧ s.status ≠ .running
  runs : ∀ s, next.states.get id = some s → s.status = .running → next = task

/-- The state of a step that runs, as its worker is recorded. -/
lemma get_recordWorkerTerminal (env : Env) (hs : task.states.get id = some s) (runId status : String)
    (run : Value) : ∃ new, (recordWorkerTerminal env task id runId status run).states.get id =
      some new ∧ new.status = s.status := by
  rw [states_recordWorkerTerminal, Task.get_setStep_self, hs]
  exact ⟨_, rfl, rfl⟩

lemma get_recordWorkerTerminal_of_ne {other : String} (hne : other ≠ id) (runId status : String)
    (run : Value) : (recordWorkerTerminal env task id runId status run).states.get other =
      task.states.get other := by
  rw [states_recordWorkerTerminal, Task.get_setStep_of_ne hne]

/-- The reference to a run is closed with the status that the run is recorded with. -/
lemma refs_recordWorkerTerminal (env : Env) (task : Task) (id runId status : String) (run : Value) :
    ∃ close, Closing close (effectiveStatus env task id status run) ∧
      (recordWorkerTerminal env task id runId status run).workerRefs =
        closeRef runId close task.workerRefs := by
  refine ⟨_, ?_, rfl⟩
  exact fun _ => ⟨rfl, rfl, rfl⟩

lemma settles_settleWorker (env : Env) (answer : Value) (hplain : Plain id)
    (hs : task.states.get id = some s) :
    Settles env task id answer (settleWorker env task id (currentRun task id) answer) := by
  have hfails := failsForGood_iff env answer hplain hs
  have hresult : settleWorker env task id (currentRun task id) answer =
    settleWorker env task id (currentRun task id) answer := rfl
  obtain ⟨recorded, hrecorded, -⟩ := get_recordWorkerTerminal env hs (currentRun task id)
    (workerOf answer) (runOf answer)
  have hothers : ∀ (set : StepState → StepState) other, other ≠ id →
      ((recordWorkerTerminal env task id (currentRun task id) (workerOf answer)
        (runOf answer)).setStep id set).states.get other = task.states.get other :=
    fun set other hne => by
      rw [Task.get_setStep_of_ne hne, get_recordWorkerTerminal_of_ne hne]
  have hself : ∀ (set : StepState → StepState),
      ((recordWorkerTerminal env task id (currentRun task id) (workerOf answer)
        (runOf answer)).setStep id set).states.get id = some (set recorded) := fun set => by
    rw [Task.get_setStep_self, hrecorded, Option.map_some]
  have hsame := sameTask_settleWorker env task id (currentRun task id) answer
  obtain ⟨close, hclose, hclosed⟩ := refs_recordWorkerTerminal env task id (currentRun task id)
    (workerOf answer) (runOf answer)
  have hrefs : (recordWorkerTerminal env task id (currentRun task id) (workerOf answer)
      (runOf answer)).workerRefs.map WorkerRef.runId = task.workerRefs.map WorkerRef.runId := by
    rw [hclosed, runIds_closeRef hclose]
  rcases settleWorker_cases hresult with ⟨hgood, heq⟩ | ⟨hworker, hgood, heq⟩ |
    ⟨hbad, hfew, heq⟩ | ⟨hworker, hbad, heq⟩
  · rw [heq] at hsame ⊢
    refine ⟨hsame, hrefs, fun other hne => ?_, fun _ => rfl, fun h => absurd (hfails.mp hgood) h,
      fun _ new hnew => ?_, fun new hnew hruns => ?_⟩
    · rw [states_failStep]
      exact hothers _ other hne
    · rw [states_failStep, hself] at hnew
      cases hnew
      exact ⟨(fun h => nomatch h), fun h => nomatch h⟩
    · rw [states_failStep, hself] at hnew
      cases hnew
      cases hruns
  · rw [heq] at hsame ⊢
    refine ⟨hsame, hrefs, hothers _, fun h => absurd (hfails.mpr h) hgood, fun _ => rfl,
      fun _ new hnew => ?_, fun new hnew hruns => ?_⟩
    · rw [hself] at hnew
      cases hnew
      exact ⟨(fun h => nomatch h), fun h => nomatch h⟩
    · rw [hself] at hnew
      cases hnew
      cases hruns
  · have hno : ¬ (workerOf answer = "completed" ∨ FailsWith env task id answer) := by
      have hnot : workerOf answer ≠ "completed" := by
        rcases hbad with h | h | h | h <;> rw [h] <;> decide
      rintro (h | ⟨h, -⟩ | ⟨-, hmany⟩)
      · exact hnot h
      · exact hnot h
      · have hattempts : attemptsOf (recordWorkerTerminal env task id (currentRun task id)
            (workerOf answer) (runOf answer)) id = attemptsOf task id := by
          rw [attemptsOf, states_recordWorkerTerminal, Task.get_setStep_self, attemptsOf, hs]
          rfl
        omega
    rw [heq] at hsame ⊢
    refine ⟨hsame, hrefs, hothers _, fun h => absurd (.inr h) hno, fun _ => rfl, fun h => absurd h hno,
      fun new hnew hruns => ?_⟩
    rw [hself] at hnew
    cases hnew
    cases hruns
  · have hno : ¬ (workerOf answer = "completed" ∨ FailsWith env task id answer) := by
      rintro (h | ⟨h, -⟩ | ⟨h, -⟩)
      · exact hworker h
      · exact hworker h
      · exact hbad h
    rw [heq]
    exact ⟨SameTask.refl task, rfl, fun _ _ => rfl, fun h => absurd (.inr h) hno, fun _ => rfl,
      fun h => absurd h hno, fun _ _ _ => rfl⟩

/-- A poll keeps a record, where a worker that is told to have completed was seen to end. -/
lemma Kept.settleWorker (h : Kept task) (hs : task.states.get id = some s)
    (hruns : s.status = .running)
    (hobserved : workerOf answer = "completed" → ¬ RuntimeTerminalMissing (runOf answer)) :
    Kept (settleWorker env task id (currentRun task id) answer) := by
  have hplain := h.plain id s hs hruns
  have hrun := currentRun_of_plain hplain hs
  have hresult : DelegatedTask.settleWorker env task id (currentRun task id) answer =
    DelegatedTask.settleWorker env task id (currentRun task id) answer := rfl
  obtain ⟨recorded, hrecorded, -⟩ := get_recordWorkerTerminal env hs (currentRun task id)
    (workerOf answer) (runOf answer)
  obtain ⟨close, hclose, hrefs⟩ := refs_recordWorkerTerminal env task id (currentRun task id)
    (workerOf answer) (runOf answer)
  have hclosed : (recordWorkerTerminal env task id (currentRun task id) (workerOf answer)
      (runOf answer)).workerRefs = closeRef (s.currentRunId.getD "") close task.workerRefs :=
    hrefs.trans (by rw [hrun])
  have hothers : ∀ (set : StepState → StepState) other, other ≠ id →
      ((recordWorkerTerminal env task id (currentRun task id) (workerOf answer)
        (runOf answer)).setStep id set).states.get other = task.states.get other :=
    fun set other hne => by
      rw [Task.get_setStep_of_ne hne, get_recordWorkerTerminal_of_ne hne]
  have hself : ∀ (set : StepState → StepState),
      ((recordWorkerTerminal env task id (currentRun task id) (workerOf answer)
        (runOf answer)).setStep id set).states.get id = some (set recorded) := fun set => by
    rw [Task.get_setStep_self, hrecorded, Option.map_some]
  have hsame := sameTask_settleWorker env task id (currentRun task id) answer
  rcases settleWorker_cases hresult with ⟨hgood, heq⟩ | ⟨hworker, hgood, heq⟩ |
    ⟨hbad, -, heq⟩ | ⟨-, -, heq⟩
  · rw [heq] at hsame ⊢
    have hstates := states_failStep env (recordWorkerTerminal env task id (currentRun task id)
      (workerOf answer) (runOf answer)) id
    refine h.ends hs hruns hsame.steps hsame.keys ((congrArg (OrderedMap.get · id) hstates).trans
      (hself _)) (fun other hne => (congrArg (OrderedMap.get · other) hstates).trans
        (hothers _ other hne)) hclosed hclose ?_ (fun h => ?_) (fun h => ?_) (fun _ => rfl)
      fun _ => rfl
    · exact not_running_of_ended (hgood.imp And.left And.left)
    · cases h
    · cases h
  · rw [heq] at hsame ⊢
    refine h.ends hs hruns hsame.steps hsame.keys (hself _) (hothers _) hclosed hclose
      (not_running_of_ended (.inl hworker)) (fun h => ?_) (fun _ => ?_) (fun h => ?_) fun h => h
    · cases h
    · exact completed_of_observed hworker (hobserved hworker) fun hlacks =>
        hgood ((failsForGood_iff env answer hplain hs).mpr (.inl ⟨hworker, hlacks⟩))
    · rcases h with h | h <;> cases h
  · rw [heq] at hsame ⊢
    refine h.ends hs hruns hsame.steps hsame.keys (hself _) (hothers _) hclosed hclose
      (not_running_of_ended (.inr hbad)) (fun h => ?_) (fun h => ?_) (fun h => ?_) fun h => h
    · cases h
    · cases h
    · rcases h with h | h <;> cases h
  · rw [heq]
    exact h

/-- A worker that is told to have completed was seen to end. -/
def Observed (env : Env) (task : Task) : Prop :=
  ∀ id answer, Told env task id answer → workerOf answer = "completed" →
    ¬ RuntimeTerminalMissing (runOf answer)

/-- What is told after a poll was told before. -/
lemma Settles.told {other : String} {told : Value} (h : Settles env task id answer next)
    (htold : Told env next other told) :
    Told env task other told ∧ (FailsWith env next other told ↔ FailsWith env task other told) := by
  obtain ⟨s, hs, hruns, hanswer⟩ := htold
  by_cases heq : other = id
  · subst heq
    have hsame := h.runs s hs hruns
    subst hsame
    exact ⟨⟨s, hs, hruns, hanswer⟩, Iff.rfl⟩
  · exact ⟨⟨s, (h.others other heq).symm.trans hs, hruns, hanswer⟩,
      failsWith_congr h.same (h.others other heq)⟩

lemma Settles.observed (h : Settles env task id answer next) (hobserved : Observed env task) :
    Observed env next := fun other told htold => hobserved other told (h.told htold).1

/-- A step that runs is asked about, and no other is. -/
lemma Kept.pollStep (h : Kept task) (hid : id ∈ task.stepIds) (hobserved : Observed env task)
    (hpoll : pollStep env task id = .ok next) :
    (¬ task.Reads id .running ∧ next = task) ∨ ∃ s answer, task.states.get id = some s ∧
      s.status = .running ∧ env.workerRunStatus (s.currentRunId.getD "") = .ok answer ∧
      Settles env task id answer next ∧ Kept next ∧ Observed env next := by
  rcases pollStep_cases h.toRegular hid hpoll with hidle | ⟨s, answer, hs, hruns, hplain, hanswer, rfl⟩
  · exact .inl hidle
  · have hsettles := settles_settleWorker env answer hplain hs
    exact .inr ⟨s, answer, hs, hruns, hanswer, hsettles,
      h.settleWorker hs hruns (hobserved id answer ⟨s, hs, hruns, hanswer⟩),
      hsettles.observed hobserved⟩

lemma Settles.rest {rest : List String} (h : Settles env task id answer next)
    (hids : id :: rest ⊆ task.stepIds) : rest ⊆ next.stepIds := by
  rw [h.same.shape.stepIds]
  exact fun _ hmem => hids (List.mem_cons_of_mem _ hmem)

/-- What polls leave of a record. -/
structure Asked (task next : Task) : Prop where
  kept : Kept next
  same : SameTask task next
  refs : next.workerRefs.map WorkerRef.runId = task.workerRefs.map WorkerRef.runId
  status : next.status = .failed ∨ next.status = task.status
  runs : ∀ id s, next.states.get id = some s → s.status = .running → task.states.get id = some s

lemma asked_pollSteps (h : Kept task) (hids : ids ⊆ task.stepIds) (hobserved : Observed env task)
    (hpoll : pollSteps env ids task = .ok next) : Asked task next := by
  induction ids generalizing task with
  | nil =>
      cases hpoll
      exact ⟨h, SameTask.refl _, rfl, .inr rfl, fun _ _ hs _ => hs⟩
  | cons id rest ih =>
      rw [pollSteps] at hpoll
      obtain ⟨polled, hpolled, hrest⟩ := Lists.bind_eq_ok hpoll
      rcases h.pollStep (hids List.mem_cons_self) hobserved hpolled with ⟨-, rfl⟩ |
        ⟨s, answer, hs, hruns, hanswer, hsettles, hkept, hmore⟩
      · exact ih h (fun _ hmem => hids (List.mem_cons_of_mem _ hmem)) hobserved hrest
      · have hlast := ih hkept (hsettles.rest hids) hmore hrest
        refine ⟨hlast.kept, hsettles.same.trans hlast.same, hlast.refs.trans hsettles.refs, ?_,
          fun other state hstate hstateRuns => ?_⟩
        · rcases hlast.status with hfailed | hsame
          · exact .inl hfailed
          · by_cases hfails : FailsWith env task id answer
            · exact .inl (hsame.trans (hsettles.fails hfails))
            · exact .inr (hsame.trans (hsettles.stays hfails))
        · have hasked := hlast.runs other state hstate hstateRuns
          by_cases heq : other = id
          · subst heq
            have hsame := hsettles.runs state hasked hstateRuns
            subst hsame
            exact hasked
          · exact (hsettles.others other heq).symm.trans hasked

/-- A task fails while its steps are asked about where a step fails for good. -/
lemma fails_of_pollSteps (h : Kept task) (hids : ids ⊆ task.stepIds) (hobserved : Observed env task)
    (hpoll : pollSteps env ids task = .ok next) (hfailed : next.status = .failed)
    (hopen : task.status ≠ .failed) :
    ∃ id answer, Told env task id answer ∧ FailsWith env task id answer := by
  induction ids generalizing task with
  | nil =>
      cases hpoll
      exact absurd hfailed hopen
  | cons id rest ih =>
      rw [pollSteps] at hpoll
      obtain ⟨polled, hpolled, hrest⟩ := Lists.bind_eq_ok hpoll
      rcases h.pollStep (hids List.mem_cons_self) hobserved hpolled with ⟨-, rfl⟩ |
        ⟨s, answer, hs, hruns, hanswer, hsettles, hkept, hmore⟩
      · exact ih h (fun _ hmem => hids (List.mem_cons_of_mem _ hmem)) hobserved hrest hopen
      · by_cases hfails : FailsWith env task id answer
        · exact ⟨id, answer, ⟨s, hs, hruns, hanswer⟩, hfails⟩
        obtain ⟨other, told, htold, hfailsWith⟩ := ih hkept (hsettles.rest hids) hmore hrest
          fun hstatus => hopen ((hsettles.stays hfails).symm.trans hstatus)
        obtain ⟨hbefore, hiff⟩ := hsettles.told htold
        exact ⟨other, told, hbefore, hiff.mp hfailsWith⟩

/-- Nothing is left where no step is pending and all workers have ended for good. -/
lemma idle_of_pollSteps (h : Kept task) (hids : ids ⊆ task.stepIds) (hobserved : Observed env task)
    (hpoll : pollSteps env ids task = .ok next)
    (hall : ∀ id s, task.states.get id = some s → s.status ≠ .pending ∧ (s.status = .running →
      id ∈ ids ∧ ∃ told, Told env task id told ∧
        (workerOf told = "completed" ∨ FailsWith env task id told))) : Idle next := by
  induction ids generalizing task with
  | nil =>
      cases hpoll
      exact fun id s hs => ⟨(hall id s hs).1, fun hruns => nomatch ((hall id s hs).2 hruns).1⟩
  | cons id rest ih =>
      rw [pollSteps] at hpoll
      obtain ⟨polled, hpolled, hrest⟩ := Lists.bind_eq_ok hpoll
      rcases h.pollStep (hids List.mem_cons_self) hobserved hpolled with ⟨hidle, rfl⟩ |
        ⟨s, answer, hs, hruns, hanswer, hsettles, hkept, hmore⟩
      · refine ih h (fun _ hmem => hids (List.mem_cons_of_mem _ hmem)) hobserved hrest
          fun other state hstate => ⟨(hall other state hstate).1, fun hstateRuns => ?_⟩
        obtain ⟨hmem, hends⟩ := (hall other state hstate).2 hstateRuns
        rcases List.mem_cons.mp hmem with rfl | hmem
        · exact absurd ((Task.reads_iff_of_plain (h.plain other state hstate hstateRuns)).mpr
            ⟨state, hstate, hstateRuns⟩) hidle
        · exact ⟨hmem, hends⟩
      · refine ih hkept (hsettles.rest hids) hmore hrest fun other state hstate => ?_
        by_cases heq : other = id
        · subst heq
          obtain ⟨-, told, ⟨same, hsame, -, htold⟩, hends⟩ := (hall other s hs).2 hruns
          cases hs.symm.trans hsame
          cases hanswer.symm.trans htold
          obtain ⟨hpending, hover⟩ := hsettles.ends hends state hstate
          exact ⟨hpending, fun hstateRuns => absurd hstateRuns hover⟩
        · have hbefore := (hsettles.others other heq).symm.trans hstate
          refine ⟨(hall other state hbefore).1, fun hstateRuns => ?_⟩
          obtain ⟨hmem, told, ⟨same, hsame, hsameRuns, htold⟩, hends⟩ :=
            (hall other state hbefore).2 hstateRuns
          refine ⟨(List.mem_cons.mp hmem).resolve_left heq, told,
            ⟨same, (hsettles.others other heq).trans hsame, hsameRuns, htold⟩, ?_⟩
          exact hends.imp_right
            (failsWith_congr hsettles.same (hsettles.others other heq)).mpr

end Polls

/-! ### Rounds, starts and the end -/

section Phases

variable {env : Env} {ids : List String}

/-- What a part of a pass leaves that fails no task and takes up no step. -/
structure Quiet (task next : Task) : Prop where
  kept : Kept next
  same : SameTask task next
  refs : next.workerRefs.map WorkerRef.runId = task.workerRefs.map WorkerRef.runId
  status : next.status = task.status
  runs : ∀ id s, next.states.get id = some s → s.status = .running → task.states.get id = some s

lemma Quiet.trans {last : Task} (h : Quiet task next) (h' : Quiet next last) : Quiet task last where
  kept := h'.kept
  same := h.same.trans h'.same
  refs := h'.refs.trans h.refs
  status := h'.status.trans h.status
  runs id s hs hruns := h.runs id s (h'.runs id s hs hruns) hruns

/-- In a task that has not failed no dependency is broken. -/
lemma Kept.not_broken (h : Kept task) (hopen : task.status ≠ .failed) (hid : id ∈ task.stepIds) :
    ¬ Broken task id := by
  rintro (hreads | hreads)
  · obtain ⟨s, hs, hfailed⟩ := h.toRegular.state_of_reads hid hreads
    exact hopen (h.broken id s hs (.inl hfailed))
  · obtain ⟨s, hs, hblocked⟩ := h.toRegular.state_of_reads hid hreads
    exact hopen (h.broken id s hs (.inr hblocked))

lemma quiet_setStep (h : Kept task) {set : StepState → StepState} (hs : task.states.get id = some s)
    (hidle : s.status ≠ .running) (hset : (set s).status ≠ .running)
    (hearned : (set s).status = .completed → Earned task id)
    (hbroken : ¬ ((set s).status = .failed ∨ (set s).status = .blocked)) :
    Quiet task (task.setStep id set) where
  kept := h.setStep hs hidle hset hearned fun hnew => absurd hnew hbroken
  same := sameTask_setStep task id set
  refs := rfl
  status := rfl
  runs other state hstate hruns := by
    by_cases heq : other = id
    · rw [heq, Task.get_setStep_self, hs] at hstate
      cases hstate
      exact absurd hruns hset
    · exact (Task.get_setStep_of_ne heq).symm.trans hstate

lemma quiet_settleStep (h : Kept task) (hopen : task.status ≠ .failed) {step : Value}
    (hmem : step ∈ task.steps) (hstep : settleStep env task step = some next) : Quiet task next := by
  obtain ⟨id, hid, hpending, hcases⟩ := settleStep_cases hstep
  have hthere : id ∈ task.stepIds := mem_stepIds.mpr ⟨step, hmem, hid⟩
  obtain ⟨s, hs, hstatus⟩ := h.toRegular.state_of_reads hthere hpending
  have hidle : s.status ≠ .running := by
    rw [hstatus]
    decide
  rcases hcases with ⟨⟨dependency, hdep, hbroken⟩, -⟩ | ⟨-, -, rfl⟩ | ⟨-, -, hlocal, rfl⟩
  · exact absurd hbroken (h.not_broken hopen (h.sound.known step hmem dependency hdep))
  · refine quiet_setStep h hs hidle (fun h => ?_) (fun h => ?_) ?_
    · cases h
    · cases h
    · rintro (h | h) <;> cases h
  · refine quiet_setStep h hs hidle ?_ (fun _ => .inl ⟨step, hmem, hid, hlocal⟩) ?_
    · dsimp only
      split <;> decide
    · dsimp only
      split <;> decide

lemma quiet_settleRound (env : Env) (h : Kept task) (hopen : task.status ≠ .failed)
    {steps : List Value} (hsteps : steps ⊆ task.steps) :
    Quiet task (settleRound env steps task).1 := by
  induction steps generalizing task with
  | nil => exact ⟨h, SameTask.refl task, rfl, rfl, fun _ _ hs _ => hs⟩
  | cons step rest ih =>
      rw [settleRound]
      split
      · exact ih h hopen fun _ hmem => hsteps (List.mem_cons_of_mem _ hmem)
      · next next hnext =>
          have hquiet := quiet_settleStep h hopen (hsteps List.mem_cons_self) hnext
          refine hquiet.trans (ih hquiet.kept (hquiet.status ▸ hopen) ?_)
          rw [hquiet.same.steps]
          exact fun _ hmem => hsteps (List.mem_cons_of_mem _ hmem)

lemma quiet_settle (h : Kept task) (hopen : task.status ≠ .failed) {rounds : ℕ}
    (hsettle : settle env rounds task = .ok next) : Quiet task next := by
  induction rounds generalizing task with
  | zero => cases hsettle
  | succ rounds ih =>
      have hquiet := quiet_settleRound env h hopen (List.Subset.refl task.steps)
      rw [settle] at hsettle
      dsimp only at hsettle
      split at hsettle
      · exact hquiet.trans (ih hquiet.kept (hquiet.status ▸ hopen) hsettle)
      · cases hsettle
        exact hquiet

/-- The end of a task that has not failed keeps its record, and leaves no step where it ends it. -/
lemma kept_finish (env : Env) (h : Kept task) (hopen : ¬ task.Terminal) :
    Kept (finish env task) ∧ (finish env task).states = task.states ∧
      ((finish env task).Terminal → Idle (finish env task)) := by
  have hfailed : task.status ≠ .failed := fun hstatus => hopen (.inr (.inl hstatus))
  have hbroken : ∀ id s, task.states.get id = some s → ¬ (s.status = .failed ∨ s.status = .blocked) :=
    fun id s hs hbroken => hfailed (h.broken id s hs hbroken)
  unfold finish
  dsimp only
  split
  · next hpassed =>
      refine ⟨h.congr rfl rfl rfl fun hstatus => absurd hstatus hfailed, rfl, fun _ id s hs => ?_⟩
      have hmem : id ∈ task.stepIds := by
        rw [← h.keys]
        exact OrderedMap.get_isSome_iff.mp (congrArg Option.isSome hs)
      rcases hpassed.2 id hmem with hreads | hreads | hreads <;>
      · obtain ⟨state, hstate, hstatus⟩ := h.toRegular.state_of_reads hmem hreads
        cases hs.symm.trans hstate
        rw [hstatus]
        decide
  · split
    · next hends =>
        obtain ⟨⟨id, hid, hid'⟩, -⟩ := hends
        exact absurd hid' (h.not_broken hfailed hid)
    · exact ⟨h, rfl, fun hends => absurd hends hopen⟩

/-! ### Starts -/

/-- Every worker that is started has a run of its own. -/
structure Fresh (env : Env) (task : Task) (ids : List String) : Prop where
  new : ∀ id ∈ ids, ∀ constraints run, env.workerRun id constraints = .ok run →
    runIdOf run ∉ task.workerRefs.map WorkerRef.runId
  apart : ∀ id ∈ ids, ∀ other ∈ ids, id ≠ other → ∀ constraints more run again,
    env.workerRun id constraints = .ok run → env.workerRun other more = .ok again →
    runIdOf run ≠ runIdOf again

lemma Fresh.same (h : Fresh env task ids)
    (hrefs : next.workerRefs.map WorkerRef.runId = task.workerRefs.map WorkerRef.runId) :
    Fresh env next ids where
  new id hid constraints run hrun := by
    rw [hrefs]
    exact h.new id hid constraints run hrun
  apart := h.apart

lemma Fresh.sublist {more : List String} (h : Fresh env task more) (hids : ids ⊆ more) :
    Fresh env task ids where
  new id hid := h.new id (hids hid)
  apart id hid other hother := h.apart id (hids hid) other (hids hother)

/-- A worker is started, in a run of its own, for a step that is pending. -/
lemma Kept.recordStarted (h : Kept task) (kind : String) (hopen : task.status ≠ .failed)
    (hs : task.states.get id = some s) (hpending : s.status = .pending) (hplain : Plain id)
    {runId : String} (hfresh : runId ∉ task.workerRefs.map WorkerRef.runId) :
    Kept (recordStarted task id kind runId) := by
  have hself : (DelegatedTask.recordStarted task id kind runId).states.get id = some
      { s with
        status := .running
        attempts := s.attempts + 1
        currentRunId := some runId
        runIds := s.runIds ++ [runId] } := by
    rw [states_recordStarted, Task.get_setStep_self, hs]
    rfl
  have hothers : ∀ other, other ≠ id →
      (DelegatedTask.recordStarted task id kind runId).states.get other = task.states.get other :=
    fun other hne => by rw [states_recordStarted, Task.get_setStep_of_ne hne]
  have hsame := sameTask_recordStarted task id kind runId
  refine ⟨h.toRegular.shape hsame.shape, h.sound, ?_, fun ref href hruns => ?_,
    fun other state hstate hruns => ?_, fun other state hstate hruns => ?_,
    fun other state hstate hdone => ?_, fun other state hstate hbroken => ?_⟩
  · show ((task.workerRefs ++ [_]).map WorkerRef.runId).Nodup
    rw [List.map_append]
    exact List.nodup_append.mpr ⟨h.runs, List.nodup_singleton _, fun a ha b hb hab => hfresh (by
      rw [List.map_singleton, List.mem_singleton] at hb
      rwa [hab, hb] at ha)⟩
  · rcases List.mem_append.mp href with hold | hnew
    · obtain ⟨state, hstate, hstatus, hrun⟩ := h.running ref hold hruns
      have hne : ref.stepId ≠ id := fun heq => by
        rw [heq, hs] at hstate
        cases hstate
        cases hpending.symm.trans hstatus
      exact ⟨state, (hothers _ hne).trans hstate, hstatus, hrun⟩
    · rw [List.mem_singleton.mp hnew]
      exact ⟨_, hself, rfl, rfl⟩
  · by_cases heq : other = id
    · subst heq
      rw [hself] at hstate
      cases hstate
      exact ⟨_, lastRef_append_self rfl, rfl⟩
    · obtain ⟨ref, href, hrun⟩ := h.recorded other state ((hothers other heq).symm.trans hstate) hruns
      refine ⟨ref, (lastRef_append_of_ne ?_).trans href, hrun⟩
      exact fun hid => heq hid.symm
  · by_cases heq : other = id
    · exact heq ▸ hplain
    · exact h.plain other state ((hothers other heq).symm.trans hstate) hruns
  · by_cases heq : other = id
    · subst heq
      rw [hself] at hstate
      cases hstate
      cases hdone
    · rcases h.earned other state ((hothers other heq).symm.trans hstate) hdone with
        hlocal | ⟨ref, href, hcompleted⟩
      · exact .inl hlocal
      · refine .inr ⟨ref, (lastRef_append_of_ne ?_).trans href, hcompleted⟩
        exact fun hid => heq hid.symm
  · by_cases heq : other = id
    · subst heq
      rw [hself] at hstate
      cases hstate
      rcases hbroken with hbroken | hbroken <;> cases hbroken
    · exact absurd (h.broken other state ((hothers other heq).symm.trans hstate) hbroken) hopen

lemma kept_launchAll (h : Kept task) (hopen : ¬ task.Terminal) (hnodup : ids.Nodup)
    (hpending : ∀ id ∈ ids, Plain id ∧ ∃ s, task.states.get id = some s ∧ s.status = .pending)
    (hfresh : Fresh env task ids) {active : ℕ} {launches : List Launch}
    (hlaunch : launchAll env ids active task = (.ok next, launches)) :
    Kept next ∧ ¬ next.Terminal := by
  induction ids generalizing task active launches with
  | nil =>
      cases (Prod.mk.inj hlaunch).1
      exact ⟨h, hopen⟩
  | cons id rest ih =>
      obtain ⟨hid, hrest⟩ := List.nodup_cons.mp hnodup
      have hskip : ∀ {launches}, launchAll env rest active task = (.ok next, launches) →
          Kept next ∧ ¬ next.Terminal :=
        ih h hopen hrest (fun other hmem => hpending other (List.mem_cons_of_mem _ hmem))
          (hfresh.sublist (List.subset_cons_self _ _))
      rw [launchAll] at hlaunch
      split at hlaunch
      · exact hskip hlaunch
      · next step hstep =>
          split at hlaunch
          · exact hskip hlaunch
          · dsimp only at hlaunch
            split at hlaunch
            · cases (Prod.mk.inj hlaunch).1
            · next run hrun =>
                obtain ⟨hplain, s, hs, hwaits⟩ := hpending id List.mem_cons_self
                have hfailed : task.status ≠ .failed := fun hstatus => hopen (.inr (.inl hstatus))
                have hnew := hfresh.new id List.mem_cons_self _ run hrun
                have hkept := h.recordStarted (Step.kind step) hfailed hs hwaits hplain hnew
                refine ih hkept (fun hends => ?_) hrest (fun other hmem => ?_) ⟨?_, ?_⟩
                  (Prod.ext (Prod.mk.inj hlaunch).1 rfl)
                · rcases hends with hends | hends | hends <;> cases hends
                · obtain ⟨hotherPlain, state, hstate, hotherWaits⟩ :=
                    hpending other (List.mem_cons_of_mem _ hmem)
                  have hne : other ≠ id := fun heq => hid (heq ▸ hmem)
                  refine ⟨hotherPlain, state, ?_, hotherWaits⟩
                  rw [states_recordStarted, Task.get_setStep_of_ne hne]
                  exact hstate
                · intro other hmem constraints again hagain hused
                  have hused : runIdOf again ∈ (task.workerRefs ++ [_]).map WorkerRef.runId := hused
                  rw [List.map_append, List.mem_append, List.map_singleton, List.mem_singleton]
                    at hused
                  rcases hused with hold | hsame
                  · exact hfresh.new other (List.mem_cons_of_mem _ hmem) constraints again hagain hold
                  · exact hfresh.apart id List.mem_cons_self other (List.mem_cons_of_mem _ hmem)
                      (fun heq => hid (heq ▸ hmem)) _ constraints run again hrun hagain hsame.symm
                · exact fun other hmem third hthird => hfresh.apart other
                    (List.mem_cons_of_mem _ hmem) third (List.mem_cons_of_mem _ hthird)

end Phases

/-! ### Passes -/

section Passes

variable [RecordSize] {env : Env} {db : Records} {launches : List Launch}

/-- Some step runs. -/
def Busy (task : Task) : Prop := ∃ id s, task.states.get id = some s ∧ s.status = .running

/-- A pass over a task that leaves it finished where it ends it. -/
structure Orderly (env : Env) (db : Records) (task : Task) : Prop where
  /-- Where a step fails for good, no step is pending and no other goes on. -/
  last : ∀ id answer, Told env task id answer → FailsWith env task id answer →
    ∀ other s, task.states.get other = some s → s.status ≠ .pending ∧ (s.status = .running →
      ∃ told, Told env task other told ∧
        (workerOf told = "completed" ∨ FailsWith env task other told))
  /-- A worker that is told to have completed was seen to end. -/
  observed : Observed env task
  /-- The outputs that are imported are there. -/
  supplied : Unsupplied db task → task.externalStatus = .resolved ∨ Idle task
  /-- Every worker that is started has a run of its own. -/
  fresh : Fresh env task task.stepIds

section

omit [RecordSize]

lemma child_normalizeStep (step : Value) {key : String} (hkey : key ≠ "constraints") :
    (normalizeStep step).child key = step.child key := by
  have hget := get_normalizeStep step hkey
  unfold normalizeStep at hget ⊢
  split at hget
  · next fields constraints hconstraints => exact hget
  · rfl

lemma requiredContractFields_normalize (task : Task) (id : String) :
    requiredContractFields (normalizePersistedConstraints task) id =
      requiredContractFields task id := by
  have hfields : ∀ step, (normalizeStep step).pointer ["output_schema", "required"] =
      step.pointer ["output_schema", "required"] := fun step => by
    rw [Value.pointer_cons, child_normalizeStep step (by decide), Value.pointer_cons]
  show ((task.steps.map normalizeStep).filter _).foldl _ _ = _
  rw [List.filter_map, List.foldl_map, requiredContractFields]
  simp only [hfields, Function.comp_def, id?_normalizeStep]
  rfl

lemma failsWith_normalize {answer : Value} :
    FailsWith env (normalizePersistedConstraints task) id answer ↔ FailsWith env task id answer := by
  rw [FailsWith, LacksOutput, requiredContractFields_normalize, maxRetries_normalize]
  rfl

/-- The gate of a pass that goes on sets nothing that is asked about. -/
lemma failsWith_gated {answer : Value} {outputs : List Value} {refs : List (String × List WorkerRef)} :
    FailsWith env
      { normalizePersistedConstraints task with
        importedTaskOutputs := outputs
        importedWorkerRefs := refs
        externalStatus := .resolved } id answer ↔ FailsWith env task id answer :=
  have hsame : SameTask (normalizePersistedConstraints task)
      { normalizePersistedConstraints task with
        importedTaskOutputs := outputs
        importedWorkerRefs := refs
        externalStatus := .resolved } := ⟨rfl, rfl, rfl, rfl, rfl, rfl, rfl, rfl, rfl⟩
  (failsWith_congr hsame rfl).trans failsWith_normalize

/-- Where dependencies have failed, the steps that are pending are blocked. -/
lemma kept_obstructed (env : Env) (h : Kept task) (hquiet : ¬ Busy task) (blocked : List String) :
    Kept (setOutcomeVerdicts env
        { blockPending blocked task with externalStatus := .blocked, status := .failed } "failed") ∧
      Idle (blockPending blocked task) := by
  have hstates : ∀ id s, (blockPending blocked task).states.get id = some s →
      ∃ old, task.states.get id = some old ∧ s.status ≠ .pending ∧ s.status ≠ .running ∧
        (s.status = .completed → old.status = .completed) := by
    intro id s hs
    rw [get_blockPending] at hs
    obtain ⟨old, hold, rfl⟩ := Option.map_eq_some_iff.mp hs
    have hidle : old.status ≠ .running := fun hruns => hquiet ⟨id, old, hold, hruns⟩
    refine ⟨old, hold, ?_⟩
    unfold StepState.block
    split
    · exact ⟨(fun h => nomatch h), (fun h => nomatch h), fun h => nomatch h⟩
    · next hopen => exact ⟨hopen, hidle, fun h => h⟩
  have hidle : Idle (blockPending blocked task) := fun id s hs => by
    obtain ⟨old, -, hpending, hruns, -⟩ := hstates id s hs
    exact ⟨hpending, hruns⟩
  refine ⟨⟨h.toRegular.shape ⟨rfl, rfl, keys_blockPending blocked, rfl, rfl, rfl, rfl⟩, h.sound, h.runs,
    fun ref href hruns => ?_, fun id s hs hruns => ?_, fun id s hs hruns => ?_,
    fun id s hs hdone => ?_, fun _ _ _ _ => rfl⟩, hidle⟩
  · obtain ⟨s, hs, hstatus, -⟩ := h.running ref href hruns
    exact absurd ⟨_, s, hs, hstatus⟩ hquiet
  · exact absurd hruns (hidle id s hs).2
  · exact absurd hruns (hidle id s hs).2
  · obtain ⟨old, hold, -, -, hcompleted⟩ := hstates id s hs
    exact h.earned id old hold (hcompleted hdone)

end

/-- What a pass leaves of a record. -/
lemma kept_advance (h : Kept task) (hover : task.Terminal → Idle task)
    (hmet : Busy task → ¬ Obstructed db task)
    (hpass : ¬ task.Terminal → Resolved db task → Orderly env db task)
    (hadvance : advance env db task = (.ok next, launches)) :
    Kept next ∧ (next.Terminal → Idle next) ∧ (Busy next → Busy task ∨ Resolved db task) := by
  rcases advance_cases hadvance with ⟨hends, rfl, -⟩ | ⟨hopen, hgate, -⟩ |
    ⟨hopen, gated, polled, hgate, hpoll, hcases⟩
  · exact ⟨h.normalize, hover, fun hbusy => .inl hbusy⟩
  · rcases gate_cases hgate with ⟨hgoes, -⟩ | ⟨-, hobstructed, blocked, rfl⟩ | ⟨-, -, rfl⟩ |
      ⟨-, hmissing, hres, hexternal, rfl⟩
    · cases hgoes
    · have hquiet : ¬ Busy (normalizePersistedConstraints task) := fun hbusy =>
        hmet hbusy hobstructed
      obtain ⟨hkept, hidle⟩ := kept_obstructed env h.normalize hquiet blocked
      refine ⟨hkept, fun _ => hidle, fun hbusy => ?_⟩
      obtain ⟨id, s, hs, hruns⟩ := hbusy
      exact absurd hruns (hidle id s hs).2
    · exact ⟨h.normalize.congr rfl rfl rfl fun h => h, fun hends => absurd hends hopen,
        fun hbusy => .inl hbusy⟩
    · refine ⟨h.normalize.congr rfl rfl rfl fun _ => rfl, fun _ => ?_, fun hbusy => .inl hbusy⟩
      exact ((hpass hopen hres).supplied hmissing).resolve_left hexternal
  · rcases gate_cases hgate with ⟨-, hres, outputs, refs, rfl⟩ | ⟨hgoes, -⟩ | ⟨hgoes, -⟩ |
      ⟨hgoes, -⟩
    · have horderly := hpass hopen hres
      have hgated : Kept
          { normalizePersistedConstraints task with
            importedTaskOutputs := outputs
            importedWorkerRefs := refs
            externalStatus := .resolved } := h.normalize.congr rfl rfl rfl fun h => h
      have hobserved : Observed env _ := horderly.observed
      have hasked := asked_pollSteps hgated (List.Subset.refl _) hobserved hpoll
      have hreviewed : Kept (reviewed env polled) := hasked.kept.congr rfl rfl rfl fun h => h
      have hfailed : task.status ≠ .failed := fun hstatus => hopen (.inr (.inl hstatus))
      rcases hcases with ⟨hends, rfl, -⟩ | ⟨hfine, settled, launched, hsettle, hlaunch, rfl⟩
      · refine ⟨hreviewed, fun _ => ?_, fun _ => .inr hres⟩
        obtain ⟨id, answer, htold, hfails⟩ := fails_of_pollSteps hgated (List.Subset.refl _)
          hobserved hpoll hends hfailed
        have hall := horderly.last id answer htold (failsWith_gated.mp hfails)
        have hidle : Idle polled := by
          refine idle_of_pollSteps hgated (List.Subset.refl _) hobserved hpoll
            fun other s hs => ⟨(hall other s hs).1, fun hruns => ?_⟩
          obtain ⟨told, hotherTold, hover⟩ := (hall other s hs).2 hruns
          refine ⟨?_, told, hotherTold, hover.imp_right failsWith_gated.mpr⟩
          rw [← hgated.keys]
          exact OrderedMap.get_isSome_iff.mp (congrArg Option.isSome hs)
        exact hidle
      · have hstatus : (reviewed env polled).status = task.status :=
          hasked.status.resolve_left hfine
        have hquiet := quiet_settle hreviewed (hstatus.symm ▸ hfailed) hsettle
        have hstill : ¬ settled.Terminal := by
          rw [Task.Terminal, hquiet.status, hstatus]
          exact hopen
        have hids : settled.stepIds = task.stepIds := by
          rw [hquiet.same.shape.stepIds]
          exact hasked.same.shape.stepIds.trans stepIds_normalize
        have hready : readyStepIds env settled ⊆ task.stepIds :=
          hids ▸ readyStepIds_sublist.subset
        have hfresh : Fresh env settled (readyStepIds env settled) :=
          (horderly.fresh.sublist hready).same (hquiet.refs.trans hasked.refs)
        have hwaits : ∀ id ∈ readyStepIds env settled, Plain id ∧
            ∃ s, settled.states.get id = some s ∧ s.status = .pending := fun id hid => by
          obtain ⟨step, hstep, hstepid, hpending, -⟩ := mem_readyStepIds.mp hid
          have hmem : id ∈ settled.stepIds := mem_stepIds.mpr ⟨step, hstep, hstepid⟩
          exact ⟨hquiet.kept.toRegular.plain_of_reads hmem hpending,
            hquiet.kept.toRegular.state_of_reads hmem hpending⟩
        obtain ⟨hlaunched, hgoes⟩ := kept_launchAll hquiet.kept hstill
          (hquiet.kept.distinct.sublist readyStepIds_sublist) hwaits hfresh hlaunch
        obtain ⟨hkept, -, hidle⟩ := kept_finish env hlaunched hgoes
        exact ⟨hkept, hidle, fun _ => .inr hres⟩
    · cases hgoes
    · cases hgoes
    · cases hgoes

/-! ### All records -/

/-- What every section leaves, where passes are orderly. -/
structure Attended (w : World) : Prop extends Filed w where
  kept : ∀ task ∈ w.tasks, Kept task
  idle : ∀ task ∈ w.tasks, task.Terminal → Idle task
  met : ∀ task ∈ w.tasks, Busy task → ∀ id ∈ task.dependsOnTaskIds,
    ∃ other ∈ w.tasks, other.taskId = id ∧ other.status = .completed

variable {w : World}

omit [RecordSize] in
lemma attended_empty : Attended World.empty where
  toFiled := filed_empty
  kept _ htask := absurd htask List.not_mem_nil
  idle _ htask := absurd htask List.not_mem_nil
  met _ htask := absurd htask List.not_mem_nil

/-- A task that has a step that runs has no dependency that has failed. -/
lemma Attended.not_obstructed (h : Attended w) (htask : task ∈ w.tasks) (hbusy : Busy task) :
    ¬ Obstructed w.tasks task := by
  rintro ⟨id, hid, other, hread, hstatus⟩
  obtain ⟨hother, hotherId⟩ := mem_of_readTask hread
  obtain ⟨same, hsame, hsameId, hcompleted⟩ := h.met task htask hbusy id hid
  cases List.inj_on_of_nodup_map h.ids hother hsame (hotherId.trans hsameId.symm)
  rcases hstatus with hstatus | hstatus <;> cases hcompleted.symm.trans hstatus

/-- A task that is completed stays so. -/
lemma completed_pass (h : Filed w) (htask : task ∈ w.tasks) {id : String}
    (hid : ∃ other ∈ w.tasks, other.taskId = id ∧ other.status = .completed) :
    ∃ other ∈ (w.pass env task).tasks, other.taskId = id ∧ other.status = .completed := by
  obtain ⟨other, hother, hotherId, hcompleted⟩ := hid
  by_cases hsame : other.taskId = task.taskId
  · cases List.inj_on_of_nodup_map h.ids hother htask hsame
    exact ⟨normalizePersistedConstraints task, mem_pass_of_terminal hother (.inl hcompleted),
      hotherId, hcompleted⟩
  · exact ⟨other, mem_pass_of_ne (h.distinct task htask) hother hsame, hotherId, hcompleted⟩

/-- A pass that is orderly where it does something. -/
def Attends (env : Env) (db : Records) (task : Task) : Prop :=
  ¬ task.Terminal → Resolved db task → Orderly env db task

lemma Attended.pass (h : Attended w) (htask : task ∈ w.tasks) (hpass : Attends env w.tasks task) :
    Attended (w.pass env task) := by
  have hall : ∀ other ∈ (w.pass env task).tasks, Kept other ∧ (other.Terminal → Idle other) ∧
      (Busy other → ∀ id ∈ other.dependsOnTaskIds,
        ∃ third ∈ w.tasks, third.taskId = id ∧ third.status = .completed) := by
    intro other hother
    rcases mem_pass (h.distinct task htask) hother with ⟨hold, -⟩ | ⟨hok, hmoves⟩
    · exact ⟨h.kept other hold, h.idle other hold, h.met other hold⟩
    · obtain ⟨hkept, hidle, hbusy⟩ := kept_advance (h.kept task htask) (h.idle task htask)
        (h.not_obstructed htask) hpass (Prod.ext hok rfl)
      refine ⟨hkept, hidle, fun hruns id hid => ?_⟩
      rw [hmoves.shape.dependsOnTaskIds] at hid
      rcases hbusy hruns with hbusy | hres
      · exact h.met task htask hbusy id hid
      · obtain ⟨third, hread, hcompleted⟩ := hres id hid
        obtain ⟨hthird, hthirdId⟩ := mem_of_readTask hread
        exact ⟨third, hthird, hthirdId, hcompleted⟩
  exact ⟨h.toFiled.pass htask, fun other hother => (hall other hother).1,
    fun other hother => (hall other hother).2.1, fun other hother hbusy id hid =>
      completed_pass h.toFiled htask ((hall other hother).2.2 hbusy id hid)⟩

/-- The record of a task that is accepted, whose step ids lead to no state but their own. -/
lemma kept_created {args : Value} (hcreated : created env db args = .ok task)
    (hstraight : ∀ id ∈ task.stepIds, Straight task.stepIds id) : Kept task ∧ ¬ Busy task := by
  have hinitial := initial_of_created hcreated
  have hpending : ∀ id s, task.states.get id = some s → s.status = .pending := fun id s hs => by
    obtain ⟨step, -, -, rfl⟩ := hinitial id s hs
    rfl
  have hrefs : task.workerRefs = [] := by
    obtain ⟨objective, rfl, -⟩ := created_ok hcreated
    rfl
  refine ⟨⟨regular_of_created hcreated hstraight, sound_of_created hcreated, ?_,
    fun ref href => ?_, fun id s hs hruns => ?_, fun id s hs hruns => ?_, fun id s hs hdone => ?_,
    fun id s hs hbroken => ?_⟩, ?_⟩
  · rw [hrefs]
    exact List.nodup_nil
  · rw [hrefs] at href
    cases href
  · cases (hpending id s hs).symm.trans hruns
  · cases (hpending id s hs).symm.trans hruns
  · cases (hpending id s hs).symm.trans hdone
  · rcases hbroken with hbroken | hbroken <;> cases (hpending id s hs).symm.trans hbroken
  · rintro ⟨id, s, hs, hruns⟩
    cases (hpending id s hs).symm.trans hruns

lemma Attended.accept {args : Value} (h : Attended w)
    (hfree : Table.row Task.taskId w.tasks task.taskId = none)
    (hcreated : created env w.tasks args = .ok task)
    (hstraight : ∀ id ∈ task.stepIds, Straight task.stepIds id) :
    Attended { w with tasks := w.tasks ++ [task] } := by
  obtain ⟨hkept, hquiet⟩ := kept_created hcreated hstraight
  have hopen : ¬ task.Terminal := by
    obtain ⟨objective, rfl, -⟩ := created_ok hcreated
    show ¬ TaskStatus.Terminal .acceptedForExecution
    decide
  refine ⟨h.toFiled.accept hfree hcreated, fun other hother => ?_, fun other hother hends => ?_,
    fun other hother hbusy id hid => ?_⟩
  · rcases List.mem_append.mp hother with hold | hnew
    · exact h.kept other hold
    · rwa [List.mem_singleton.mp hnew]
  · rcases List.mem_append.mp hother with hold | hnew
    · exact h.idle other hold hends
    · rw [List.mem_singleton.mp hnew] at hends
      exact absurd hends hopen
  · rcases List.mem_append.mp hother with hold | hnew
    · obtain ⟨third, hthird, hfound⟩ := h.met other hold hbusy id hid
      exact ⟨third, List.mem_append_left _ hthird, hfound⟩
    · rw [List.mem_singleton.mp hnew] at hbusy
      exact absurd hbusy hquiet

omit [RecordSize] in
lemma Attended.cancel (h : Attended w) (htask : task ∈ w.tasks) (hopen : ¬ task.Terminal)
    (hidle : Idle task) :
    Attended { w with tasks := writeTask { task with status := .cancelled } w.tasks } := by
  have hcancelled : Kept { task with status := .cancelled } :=
    (h.kept task htask).congr rfl rfl rfl fun hfailed => absurd (.inr (.inl hfailed)) hopen
  refine ⟨h.toFiled.cancel htask, fun other hother => ?_, fun other hother hends => ?_,
    fun other hother hbusy id hid => ?_⟩
  · rcases mem_writeTask.mp hother with ⟨hold, -⟩ | ⟨rfl, -⟩
    · exact h.kept other hold
    · exact hcancelled
  · rcases mem_writeTask.mp hother with ⟨hold, -⟩ | ⟨rfl, -⟩
    · exact h.idle other hold hends
    · exact hidle
  · rcases mem_writeTask.mp hother with ⟨hold, -⟩ | ⟨rfl, -⟩
    · obtain ⟨third, hthird, hthirdId, hcompleted⟩ := h.met other hold hbusy id hid
      refine ⟨third, mem_writeTask.mpr (.inl ⟨hthird, fun hsame => ?_⟩), hthirdId, hcompleted⟩
      cases List.inj_on_of_nodup_map h.ids hthird htask hsame
      exact hopen (.inl hcompleted)
    · obtain ⟨id', s, hs, hruns⟩ := hbusy
      exact absurd hruns (hidle id' s hs).2

omit [RecordSize] in
lemma Attended.finished (h : Attended w) (htask : task ∈ w.tasks) : Finished task where
  idle := h.idle task htask
  ended hends ref href hruns := by
    obtain ⟨s, hs, hstatus, -⟩ := (h.kept task htask).running ref href hruns
    exact (h.idle task htask hends _ s hs).2 hstatus
  earned := (h.kept task htask).earned

/-- **Every task is finished** in a run whose passes are orderly, where the step ids of every task
lead to no state but their own, and where no task is cancelled that has steps to do. -/
theorem finished_of_orderly (sections : List Section)
    (h : Each World.after (fun w s => Allows Attends
      (fun _ _ _ task => ∀ id ∈ task.stepIds, Straight task.stepIds id) Idle w s)
      World.empty sections) :
    ∀ task ∈ (run World.after World.empty sections).tasks, Finished task := by
  intro task htask
  have hattended : Attended (run World.after World.empty sections) := by
    refine Calls.invariant_run (fun w s hw hs => ?_) attended_empty h
    refine keeps_after (fun env w task hw htask hpass => hw.pass htask hpass)
      (fun env args w task hw hfree hcreated hstraight => hw.accept hfree hcreated hstraight)
      (fun w task hw htask hopen hidle => hw.cancel htask hopen hidle) s hw hs
  exact hattended.finished htask

end Passes

/-! ### A step that fails while another runs -/

/-- All workers are told to have completed, and none is started. -/
def completing : Env := .plain (fun _ => toldAs "completed") fun _ _ => .error .null

lemma fresh_endedAs (runId status : String) {ids : List String} (hrefs : task.workerRefs = []) :
    Fresh (endedAs runId status) task ids where
  new id _ constraints run _ hmem := by
    rw [hrefs] at hmem
    cases hmem
  apart id _ other _ hne constraints more run again hrun hagain hsame := by
    cases hrun
    cases hagain
    have happend : "run-" ++ id = "run-" ++ other := hsame
    exact hne (by simpa using happend)

/-- What is there behind the start of two steps. -/
lemma two_started :
    letI := smallRecords
    ∀ task ∈ (run World.after World.empty [.run (endedAs "" "") twoSteps]).tasks,
      task.states.keys = ["a", "b"] ∧ task.importTaskOutputs = [] ∧
        ∀ id ∈ ["a", "b"], requiredContractFields task id = [] := by
  decide +kernel

lemma attends_when_completing :
    letI := smallRecords
    Each World.after (fun w s => Allows Attends
      (fun _ _ _ task => ∀ id ∈ task.stepIds, Straight task.stepIds id) Idle w s)
      World.empty [.run (endedAs "" "") twoSteps, .advance completing "t"] := by
  let _ : RecordSize := smallRecords
  refine ⟨⟨fun task _ hcreated => ?_, fun task htask => nomatch htask⟩, fun task htask => ?_, trivial⟩
  · have hstraight : ∀ id ∈ ["a", "b"], Straight ["a", "b"] id := by decide +kernel
    obtain ⟨objective, heq, -⟩ := created_ok hcreated
    have hids : task.stepIds = ["a", "b"] := by
      rw [heq]
      show stepIds (workflowOf twoSteps) = ["a", "b"]
      decide +kernel
    rw [← hids] at hstraight
    obtain ⟨-, hquiet⟩ := kept_created hcreated hstraight
    refine ⟨hstraight, fun _ _ => ⟨fun id answer htold => ?_, fun id answer htold => ?_, ?_, ?_⟩⟩
    · obtain ⟨s, hs, hruns, -⟩ := htold
      exact absurd ⟨id, s, hs, hruns⟩ hquiet
    · obtain ⟨s, hs, hruns, -⟩ := htold
      exact absurd ⟨id, s, hs, hruns⟩ hquiet
    · rintro ⟨id, hid, -⟩
      rw [heq] at hid
      cases hid
    · exact fresh_endedAs "" "" (by rw [heq]; rfl)
  · obtain ⟨hkeys, himports, hrequired⟩ := two_started task (mem_of_readTask htask).1
    have htold : ∀ id answer, Told completing task id answer →
        id ∈ ["a", "b"] ∧ .ok answer = toldAs "completed" := by
      rintro id answer ⟨s, hs, -, hanswer⟩
      exact ⟨hkeys ▸ OrderedMap.get_isSome_iff.mp (congrArg Option.isSome hs), hanswer.symm⟩
    refine fun _ _ => ⟨fun id answer hanswer hfails => ?_, fun id answer hanswer _ => ?_, ?_,
      ⟨?_, ?_⟩⟩
    · obtain ⟨hid, heq⟩ := htold id answer hanswer
      cases heq
      rcases hfails with ⟨-, hlacks⟩ | ⟨hbad, -⟩
      · exact absurd (hrequired id hid) hlacks.1
      · exact absurd hbad (by decide)
    · obtain ⟨hid, heq⟩ := htold id answer hanswer
      cases heq
      decide
    · rintro ⟨id, hid, -⟩
      rw [himports] at hid
      cases hid
    · exact fun _ _ _ _ hrun => nomatch hrun
    · exact fun _ _ _ _ _ _ _ _ _ hrun => nomatch hrun

/-- Both steps are completed, and the task with them. -/
theorem finished_when_completing :
    letI := smallRecords
    (∀ task ∈ (run World.after World.empty [.run (endedAs "" "") twoSteps,
        .advance completing "t"]).tasks, Finished task) ∧
      ∃ task ∈ (run World.after World.empty [.run (endedAs "" "") twoSteps,
        .advance completing "t"]).tasks, task.status = .completed :=
  ⟨@finished_of_orderly smallRecords _ attends_when_completing, by decide +kernel⟩

/-- **A step that fails ends its task while another step runs.** -/
theorem sibling_left_running :
    letI := smallRecords
    ∃ task ∈ (run World.after World.empty [.run (endedAs "" "") twoSteps,
      .advance (endedAs "run-a" "failed") "t"]).tasks, ¬ Finished task := by
  let _ : RecordSize := smallRecords
  have hrecord : ∃ task ∈ (run World.after World.empty [.run (endedAs "" "") twoSteps,
      .advance (endedAs "run-a" "failed") "t"]).tasks, task.status = .failed ∧
        (task.states.get "b").map StepState.status = some .running := by
    decide +kernel
  obtain ⟨task, htask, hstatus, hruns⟩ := hrecord
  obtain ⟨s, hs, hrunning⟩ := Option.map_eq_some_iff.mp hruns
  exact ⟨task, htask, fun h => (h.idle (.inr (.inl hstatus)) "b" s hs).2 hrunning⟩

end DelegatedTask

end McpSurfaces
