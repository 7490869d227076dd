import McpSurfaces.DelegatedTask.Runs

/-!
Whether every worker that is started is recorded, and how many are started for a step.

* `Accounted`: the record of a task names every worker that was started for it, and no step was
  given more workers than it has attempts.
* `Steady`: in the order of the steps, no worker is refused behind one that is started.
* **`accounted_of_proper`**: in a run whose passes are steady, for tasks whose step ids lead to no
  state but their own, all workers are accounted for.
* `surplus_behind_refused`: a worker that is refused leaves one that is started unrecorded, and the
  next pass starts another for the same step.
-/

namespace McpSurfaces

namespace DelegatedTask

open Calls (run Each)

/-- The runs that were started for a step. -/
def runsOf (started : List (String × Launch)) (taskId stepId : String) : List String :=
  (started.filter fun e => e.1 = taskId ∧ e.2.stepId = stepId).map fun e => e.2.runId

/-- Every worker is in the record of its step, and no step has too many. -/
def Accounted (w : World) : Prop :=
  (∀ e ∈ w.started, ∃ task ∈ w.tasks, task.taskId = e.1 ∧
      ∃ s, task.states.get e.2.stepId = some s ∧ e.2.runId ∈ s.runIds) ∧
    ∀ task ∈ w.tasks, ∀ stepId,
      (runsOf w.started task.taskId stepId).length ≤ task.maxRetries + 1

/-! ### One task -/

/-- The runs of one step among those that are started. -/
def runsIn (launches : List Launch) (stepId : String) : List String :=
  (launches.filter fun launch => launch.stepId = stepId).map Launch.runId

/-- The states of a task record the runs that were started for its steps. -/
structure Counted (task : Task) (runs : String → List String) : Prop where
  recorded : ∀ id s, task.states.get id = some s → s.runIds = runs id
  attempts : ∀ id s, task.states.get id = some s → s.attempts = s.runIds.length
  bound : ∀ id s, task.states.get id = some s → s.attempts ≤ task.maxRetries + 1
  more : ∀ id s, task.states.get id = some s → s.status = .pending → s.attempts ≤ task.maxRetries
  others : ∀ id, task.states.get id = none → runs id = []

namespace Counted

variable {task next : Task} {runs : String → List String}

lemma congr (h : Counted task runs) (hstates : next.states = task.states)
    (hretries : next.maxRetries = task.maxRetries) : Counted next runs := by
  constructor
  · rw [hstates]
    exact h.recorded
  · rw [hstates]
    exact h.attempts
  · rw [hstates, hretries]
    exact h.bound
  · rw [hstates, hretries]
    exact h.more
  · rw [hstates]
    exact h.others

/-- States that keep their runs. -/
lemma of_states (h : Counted task runs) (hretries : next.maxRetries = task.maxRetries)
    (hstates : ∀ id s, next.states.get id = some s → ∃ old, task.states.get id = some old ∧
      s.runIds = old.runIds ∧ s.attempts = old.attempts ∧
      (s.status = .pending → s.attempts ≤ task.maxRetries))
    (hothers : ∀ id, next.states.get id = none → task.states.get id = none) :
    Counted next runs where
  recorded id s hs := by
    obtain ⟨old, hold, hruns, -, -⟩ := hstates id s hs
    rw [hruns]
    exact h.recorded id old hold
  attempts id s hs := by
    obtain ⟨old, hold, hruns, hattempts, -⟩ := hstates id s hs
    rw [hruns, hattempts]
    exact h.attempts id old hold
  bound id s hs := by
    obtain ⟨old, hold, -, hattempts, -⟩ := hstates id s hs
    rw [hattempts, hretries]
    exact h.bound id old hold
  more id s hs hpending := by
    obtain ⟨old, -, -, -, hmore⟩ := hstates id s hs
    rw [hretries]
    exact hmore hpending
  others id hid := h.others id (hothers id hid)

lemma setStep (h : Counted task runs) {id : String} {set : StepState → StepState}
    (hset : ∀ s, task.states.get id = some s → (set s).runIds = s.runIds ∧
      (set s).attempts = s.attempts ∧
      ((set s).status = .pending → s.attempts ≤ task.maxRetries)) :
    Counted (task.setStep id set) runs := by
  refine h.of_states rfl (fun other s hs => ?_) fun other hnone => ?_
  · rw [Task.get_setStep] at hs
    obtain ⟨old, hold, hnew⟩ := Option.map_eq_some_iff.mp hs
    refine ⟨old, hold, ?_⟩
    split at hnew
    · next hid =>
        subst hid hnew
        obtain ⟨hruns, hattempts, hmore⟩ := hset old hold
        exact ⟨hruns, hattempts, fun hpending => hattempts.le.trans (hmore hpending)⟩
    · subst hnew
      exact ⟨rfl, rfl, fun hpending => h.more other old hold hpending⟩
  · rw [Task.get_setStep] at hnone
    exact Option.map_eq_none_iff.mp hnone

end Counted

section Moves

variable [RecordSize] {env : Env} {db : Records} {task next : Task} {launches : List Launch}
  {runs : String → List String}

section

omit [RecordSize]

lemma runsIn_nil (stepId : String) : runsIn [] stepId = [] := rfl

lemma attemptsOf_of_state {id : String} {s : StepState} (hs : task.states.get id = some s) :
    attemptsOf task id = s.attempts := by
  rw [attemptsOf, hs]
  rfl

lemma Counted.recordWorkerTerminal (h : Counted task runs) (env : Env) (stepId runId status : String)
    (run : Value) : Counted (recordWorkerTerminal env task stepId runId status run) runs := by
  refine Counted.congr ?_ (states_recordWorkerTerminal env task stepId runId status run) rfl
  exact h.setStep fun s hs => ⟨rfl, rfl, h.more stepId s hs⟩

lemma Counted.failStep (h : Counted task runs) (id : String) :
    Counted (failStep env task id) runs := by
  refine Counted.congr ?_ (states_failStep env task id) rfl
  exact h.setStep fun _ _ => ⟨rfl, rfl, fun hpending => nomatch hpending⟩

lemma Counted.settleWorker (h : Counted task runs) (id : String) (answer : Value) :
    Counted (settleWorker env task id (currentRun task id) answer) runs := by
  have hrecorded := h.recordWorkerTerminal env id (currentRun task id) (workerOf answer)
    (runOf answer)
  have hresult : DelegatedTask.settleWorker env task id (currentRun task id) answer =
    DelegatedTask.settleWorker env task id (currentRun task id) answer := rfl
  rcases settleWorker_cases hresult with ⟨-, heq⟩ | ⟨-, -, heq⟩ | ⟨-, hfew, heq⟩ | ⟨-, -, heq⟩
  · rw [heq]
    exact hrecorded.failStep id
  · rw [heq]
    exact hrecorded.setStep fun _ _ => ⟨rfl, rfl, fun hpending => nomatch hpending⟩
  · rw [heq]
    refine hrecorded.setStep fun s hs => ⟨rfl, rfl, fun _ => ?_⟩
    rw [attemptsOf_of_state hs] at hfew
    exact hfew
  · rw [heq]
    exact h

lemma Counted.settleStep (h : Counted task runs) {step : Value}
    (hstep : settleStep env task step = some next) : Counted next runs := by
  obtain ⟨id, -, -, ⟨-, rfl⟩ | ⟨-, -, rfl⟩ | ⟨-, -, -, rfl⟩⟩ := settleStep_cases hstep
  · exact h.setStep fun _ _ => ⟨rfl, rfl, fun hpending => nomatch hpending⟩
  · exact h.setStep fun _ _ => ⟨rfl, rfl, fun hpending => nomatch hpending⟩
  · refine h.setStep fun _ _ => ⟨rfl, rfl, fun hpending => ?_⟩
    dsimp only at hpending
    split at hpending <;> cases hpending

lemma Counted.blockPending (h : Counted task runs) (blocked : List String) :
    Counted (blockPending blocked task) runs := by
  refine h.of_states rfl (fun id s hs => ?_) fun id hnone => ?_
  · rw [get_blockPending] at hs
    obtain ⟨old, hold, rfl⟩ := Option.map_eq_some_iff.mp hs
    refine ⟨old, hold, ?_⟩
    unfold StepState.block
    split
    · exact ⟨rfl, rfl, fun hpending => nomatch hpending⟩
    · next hopen => exact ⟨rfl, rfl, fun hpending => absurd hpending hopen⟩
  · rw [get_blockPending] at hnone
    exact Option.map_eq_none_iff.mp hnone

/-- A worker is started for a step that is pending. -/
lemma Counted.recordStarted (h : Counted task runs) {id : String} (kind runId : String) {s : StepState}
    (hs : task.states.get id = some s) (hpending : s.status = .pending) :
    Counted (recordStarted task id kind runId)
      fun stepId => runs stepId ++ if stepId = id then [runId] else [] := by
  have hstate : ∀ other, (DelegatedTask.recordStarted task id kind runId).states.get other =
      (task.states.get other).map fun s => if other = id then
        { s with
          status := .running
          attempts := s.attempts + 1
          currentRunId := some runId
          runIds := s.runIds ++ [runId] } else s := fun other => by
    rw [states_recordStarted, Task.get_setStep]
  have hcases : ∀ other new, (DelegatedTask.recordStarted task id kind runId).states.get other =
      some new → (other = id ∧ new.runIds = s.runIds ++ [runId] ∧ new.attempts = s.attempts + 1 ∧
        new.status = .running) ∨ (other ≠ id ∧ task.states.get other = some new) := by
    intro other new hnew
    rw [hstate] at hnew
    obtain ⟨old, hold, hset⟩ := Option.map_eq_some_iff.mp hnew
    split at hset
    · next hid =>
        subst hid hset
        cases hs.symm.trans hold
        exact .inl ⟨rfl, rfl, rfl, rfl⟩
    · next hid =>
        subst hset
        exact .inr ⟨hid, hold⟩
  have hmore := h.more id s hs hpending
  refine ⟨fun other new hnew => ?_, fun other new hnew => ?_, fun other new hnew => ?_,
    fun other new hnew hopen => ?_, fun other hnone => ?_⟩
  · rcases hcases other new hnew with ⟨rfl, hruns, -, -⟩ | ⟨hne, hold⟩
    · rw [hruns, if_pos rfl, h.recorded other s hs]
    · rw [if_neg hne, List.append_nil]
      exact h.recorded other new hold
  · rcases hcases other new hnew with ⟨rfl, hruns, hattempts, -⟩ | ⟨hne, hold⟩
    · rw [hruns, hattempts, List.length_append, ← h.attempts other s hs, List.length_singleton]
    · exact h.attempts other new hold
  · rcases hcases other new hnew with ⟨rfl, -, hattempts, -⟩ | ⟨hne, hold⟩
    · rw [hattempts]
      exact Nat.add_le_add_right hmore 1
    · exact h.bound other new hold
  · rcases hcases other new hnew with ⟨rfl, -, -, hruns⟩ | ⟨hne, hold⟩
    · cases hruns.symm.trans hopen
    · exact h.more other new hold hopen
  · rw [hstate] at hnone
    have hold := Option.map_eq_none_iff.mp hnone
    have hne : other ≠ id := fun heq => by
      rw [heq, hs] at hold
      cases hold
    rw [if_neg hne, List.append_nil]
    exact h.others other hold

end

lemma Counted.move (h : Counted task runs) (hregular : Regular task)
    (hmove : Move env db task launches next) :
    Counted next fun stepId => runs stepId ++ runsIn launches stepId := by
  have hquiet : ∀ {next : Task}, Counted next runs →
      Counted next fun stepId => runs stepId ++ runsIn [] stepId := fun hnext => by
    simpa only [runsIn_nil, List.append_nil] using hnext
  cases hmove with
  | normalizes => exact hquiet (h.congr rfl maxRetries_normalize)
  | obstructed blocked => exact hquiet ((h.blockPending blocked).congr rfl rfl)
  | waits => exact hquiet (h.congr rfl rfl)
  | unsupplied => exact hquiet (h.congr rfl rfl)
  | resolves => exact hquiet (h.congr rfl rfl)
  | polled id answer => exact hquiet (h.settleWorker id answer)
  | reviewed => exact hquiet (h.congr rfl rfl)
  | settled next step hstep hsettled => exact hquiet (h.settleStep hsettled)
  | finished =>
      refine hquiet (h.congr ?_ (sameTask_finish env task).shape.maxRetries)
      unfold finish
      dsimp only
      split_ifs <;> rfl
  | started before id step run hstep hid hready hsteps hkeys hstate =>
      obtain ⟨-, -, -, hpending, -⟩ := mem_readyStepIds.mp hready
      have hids : before.stepIds = task.stepIds := by rw [Task.stepIds, hsteps, Task.stepIds]
      have hbefore : Regular before :=
        ⟨hids ▸ hregular.distinct, by rw [hkeys, hregular.keys, hids], hids ▸ hregular.straight⟩
      have hmem : id ∈ before.stepIds := hids ▸ mem_stepIds.mpr ⟨step, hstep, hid⟩
      obtain ⟨s, hs, hstatus⟩ := hbefore.state_of_reads hmem hpending
      have hstarted := h.recordStarted (Step.kind step) (runIdOf run)
        (hstate ▸ hs) hstatus
      have hruns : ∀ stepId, runsIn [⟨id, runIdOf run,
          asynchronousWorkerConstraints task.constraints step⟩] stepId =
          if stepId = id then [runIdOf run] else [] := fun stepId => by
        rw [runsIn, List.filter_singleton]
        by_cases heq : stepId = id
        · rw [if_pos heq, heq]
          simp
        · rw [if_neg heq]
          simp [Ne.symm heq]
      simpa only [hruns] using hstarted

lemma Counted.moves (h : Counted task runs) (hregular : Regular task)
    (hmoves : Moves env db task launches next) :
    Counted next fun stepId => runs stepId ++ runsIn launches stepId := by
  induction hmoves with
  | refl => simpa only [runsIn_nil, List.append_nil] using h
  | tail hbefore hmove ih =>
      have hnext := ih.move (hregular.shape hbefore.shape) hmove
      simpa only [runsIn, List.filter_append, List.map_append, List.append_assoc] using hnext

/-! ### Passes that fail -/

section

omit [RecordSize]

/-- A worker would be started for a step. -/
def Startable (env : Env) (task : Task) (id : String) : Prop :=
  ∃ step ∈ task.steps, Step.id? step = some id ∧
    ∃ run, env.workerRun id (asynchronousWorkerConstraints task.constraints step) = .ok run

/-- In the order of the steps, no worker is refused behind one that is started. -/
def Steady (env : Env) (task : Task) : Prop :=
  let task := normalizePersistedConstraints task
  task.stepIds.Pairwise fun a b => Startable env task a → Startable env task b

lemma find?_of_startable (hnodup : task.stepIds.Nodup) {id : String} {step : Value}
    (hfind : task.steps.find? (fun step => Step.id? step = some id) = some step)
    (h : Startable env task id) :
    ∃ run, env.workerRun id (asynchronousWorkerConstraints task.constraints step) = .ok run := by
  obtain ⟨other, hother, hid, hrun⟩ := h
  have hstep : Step.id? step = some id := by simpa using List.find?_some hfind
  rwa [← eq_of_id? hnodup hother (List.mem_of_find?_eq_some hfind) hid hstep]

lemma Startable.started {id stepId kind runId : String} (h : Startable env task id) :
    Startable env (recordStarted task stepId kind runId) id := h

lemma launchAll_of_startable (task : Task) (active : ℕ) {ids : List String}
    (hnodup : task.stepIds.Nodup)
    (h : ∀ id ∈ ids, Startable env task id) :
    ∃ next, (launchAll env ids active task).1 = .ok next := by
  induction ids generalizing task active with
  | nil => exact ⟨task, rfl⟩
  | cons id rest ih =>
      have hrest : ∀ id ∈ rest, Startable env task id := fun _ hmem =>
        h _ (List.mem_cons_of_mem _ hmem)
      rw [launchAll]
      split
      · exact ih task active hnodup hrest
      · next step hfind =>
          split
          · exact ih task active hnodup hrest
          · obtain ⟨run, hrun⟩ := find?_of_startable hnodup hfind (h id List.mem_cons_self)
            dsimp only
            rw [hrun]
            exact ih (recordStarted task id (Step.kind step) (runIdOf run)) (active + 1) hnodup hrest

/-- Where no worker is refused behind one that is started, a pass that fails has started none. -/
lemma launches_of_error {ids : List String} {active : ℕ} {e : Fault} (hnodup : task.stepIds.Nodup)
    (hsteady : ids.Pairwise fun a b => Startable env task a → Startable env task b)
    (h : (launchAll env ids active task).1 = .error e) : (launchAll env ids active task).2 = [] := by
  induction ids generalizing active with
  | nil => rfl
  | cons id rest ih =>
      obtain ⟨hfirst, hrest⟩ := List.pairwise_cons.mp hsteady
      rw [launchAll] at h ⊢
      split at h
      · exact ih hrest h
      · next step hfind =>
          split at h
          · next hskip =>
              rw [if_pos hskip]
              exact ih hrest h
          · next hstarts =>
              rw [if_neg hstarts]
              dsimp only at h ⊢
              split at h
              · rfl
              · next run hrun =>
                  have hstartable : Startable env task id := by
                    have hid : Step.id? step = some id := by simpa using List.find?_some hfind
                    exact ⟨step, List.mem_of_find?_eq_some hfind, hid, run, hrun⟩
                  obtain ⟨next, hnext⟩ := launchAll_of_startable
                    (recordStarted task id (Step.kind step) (runIdOf run)) (active + 1) hnodup
                    fun other hother => (hfirst other hother hstartable).started
                  cases hnext.symm.trans h

lemma Startable.same {id : String} (hsame : SameTask task next) :
    Startable env next id ↔ Startable env task id := by
  rw [Startable, hsame.steps, hsame.constraints, Startable]

end

lemma advance_of_error {e : Fault} (hnodup : task.stepIds.Nodup) (hsteady : Steady env task)
    (h : (advance env db task).1 = .error e) : (advance env db task).2 = [] := by
  unfold advance at h ⊢
  dsimp only at h ⊢
  split at h
  · cases h
  · next hopen =>
      rw [if_neg hopen]
      split at h
      · rfl
      · rfl
      · next gated hgate =>
          obtain ⟨-, hgated, hgoes⟩ := move_of_gate hopen hgate
          obtain ⟨hres, -⟩ := hgoes rfl
          unfold schedule at h ⊢
          split at h
          · rfl
          · next polled hpolled =>
              obtain ⟨-, hsame⟩ := moves_of_pollSteps (List.Subset.refl _) hres hpolled
              have hreviewed := (hgated.trans hsame).trans (sameTask_reviewed env polled)
              dsimp only at h ⊢
              split at h
              · cases h
              · next hfine =>
                  rw [if_neg hfine]
                  split at h
                  · rfl
                  · next settled hsettled =>
                      obtain ⟨-, hsettles, -⟩ := moves_of_settle db hfine hsettled
                      have hall := hreviewed.trans hsettles
                      have hids : settled.stepIds = task.stepIds :=
                        hall.shape.stepIds.trans stepIds_normalize
                      have herror : (launchAll env (readyStepIds env settled) (activeCount settled)
                          settled).1 = .error e := by
                        dsimp only at h
                        cases hresult : (launchAll env (readyStepIds env settled)
                            (activeCount settled) settled).1 with
                        | error e' =>
                            rw [hresult] at h
                            exact h
                        | ok launched =>
                            rw [hresult] at h
                            cases h
                      refine launches_of_error (hids ▸ hnodup) ?_ herror
                      have hsteps : settled.stepIds.Pairwise fun a b =>
                          Startable env settled a → Startable env settled b := by
                        simp only [Startable.same hall]
                        rw [hall.shape.stepIds]
                        exact hsteady
                      exact hsteps.sublist readyStepIds_sublist

end Moves

/-! ### Runs -/

section Runs

variable [RecordSize]

/-- What is known of the records and of the workers that were started. -/
structure Recorded (w : World) : Prop extends Filed w where
  straight : ∀ task ∈ w.tasks, ∀ id ∈ task.stepIds, Straight task.stepIds id
  counted : ∀ task ∈ w.tasks, Counted task (runsOf w.started task.taskId)

section

omit [RecordSize]

lemma Recorded.regular {w : World} (h : Recorded w) {task : Task} (htask : task ∈ w.tasks) :
    Regular task := ⟨h.distinct task htask, h.keys task htask, h.straight task htask⟩

lemma Recorded.accounted {w : World} (h : Recorded w) : Accounted w := by
  have hruns : ∀ task ∈ w.tasks, ∀ id, (runsOf w.started task.taskId id = [] ∧
      task.states.get id = none) ∨ ∃ s, task.states.get id = some s ∧
        s.runIds = runsOf w.started task.taskId id := by
    intro task htask id
    cases hs : task.states.get id with
    | none => exact .inl ⟨(h.counted task htask).others id hs, rfl⟩
    | some s => exact .inr ⟨s, rfl, (h.counted task htask).recorded id s hs⟩
  constructor
  · intro e he
    obtain ⟨task, htask, hid⟩ := List.mem_map.mp (h.known e he)
    refine ⟨task, htask, hid, ?_⟩
    have hmem : e.2.runId ∈ runsOf w.started task.taskId e.2.stepId :=
      List.mem_map.mpr ⟨e, List.mem_filter.mpr ⟨he, decide_eq_true ⟨hid.symm, rfl⟩⟩, rfl⟩
    rcases hruns task htask e.2.stepId with ⟨hnone, -⟩ | ⟨s, hs, hsame⟩
    · rw [hnone] at hmem
      cases hmem
    · exact ⟨s, hs, hsame ▸ hmem⟩
  · intro task htask id
    rcases hruns task htask id with ⟨hnone, -⟩ | ⟨s, hs, hsame⟩
    · rw [hnone]
      exact Nat.zero_le _
    · rw [← hsame, ← (h.counted task htask).attempts id s hs]
      exact (h.counted task htask).bound id s hs

lemma runsOf_append (started : List (String × Launch)) (taskId other stepId : String)
    (launches : List Launch) :
    runsOf (started ++ launches.map fun launch => (taskId, launch)) other stepId =
      runsOf started other stepId ++ if other = taskId then runsIn launches stepId else [] := by
  rw [runsOf, List.filter_append, List.map_append, ← runsOf, List.filter_map, List.map_map, runsIn]
  congr 1
  by_cases h : other = taskId
  · subst h
    simp [Function.comp_def]
  · simp [Function.comp_def, h, Ne.symm h]

end

/-- A pass in which no worker is refused behind one that is started. -/
lemma Recorded.pass {env : Env} {w : World} {task : Task} (h : Recorded w) (htask : task ∈ w.tasks)
    (hsteady : Steady env task) : Recorded (w.pass env task) where
  toFiled := h.toFiled.pass htask
  straight other hother := by
    rcases mem_pass (h.distinct task htask) hother with ⟨hold, -⟩ | ⟨-, hmoves⟩
    · exact h.straight other hold
    · rw [hmoves.shape.stepIds]
      exact h.straight task htask
  counted other hother := by
    have hstarted : (w.pass env task).started = w.started ++
        (advance env w.tasks task).2.map fun launch => (task.taskId, launch) := rfl
    rw [hstarted]
    rcases mem_pass (h.distinct task htask) hother with ⟨hold, hid | ⟨e, he⟩⟩ | ⟨-, hmoves⟩
    · have hsame : runsOf (w.started ++ (advance env w.tasks task).2.map fun launch =>
          (task.taskId, launch)) other.taskId = runsOf w.started other.taskId := by
        funext stepId
        rw [runsOf_append, if_neg hid, List.append_nil]
      rw [hsame]
      exact h.counted other hold
    · rw [advance_of_error (h.distinct task htask) hsteady he, List.map_nil, List.append_nil]
      exact h.counted other hold
    · have hmore : runsOf (w.started ++ (advance env w.tasks task).2.map fun launch =>
          (task.taskId, launch)) other.taskId = fun stepId =>
            runsOf w.started task.taskId stepId ++ runsIn (advance env w.tasks task).2 stepId := by
        funext stepId
        rw [hmoves.shape.taskId, runsOf_append, if_pos rfl]
      rw [hmore]
      exact (h.counted task htask).moves (h.regular htask) hmoves

lemma Recorded.accept {env : Env} {args : Value} {w : World} {task : Task} (h : Recorded w)
    (hfree : Table.row Task.taskId w.tasks task.taskId = none)
    (hcreated : created env w.tasks args = .ok task)
    (hstraight : ∀ id ∈ task.stepIds, Straight task.stepIds id) :
    Recorded { w with tasks := w.tasks ++ [task] } where
  toFiled := h.toFiled.accept hfree hcreated
  straight other hother := by
    rcases List.mem_append.mp hother with hold | hnew
    · exact h.straight other hold
    · rw [List.mem_singleton.mp hnew]
      exact hstraight
  counted other hother := by
    rcases List.mem_append.mp hother with hold | hnew
    · exact h.counted other hold
    · rw [List.mem_singleton.mp hnew]
      have hnone : runsOf w.started task.taskId = fun _ => [] := by
        funext stepId
        rw [runsOf, List.map_eq_nil_iff, List.filter_eq_nil_iff]
        intro e he hsame
        have hid := (of_decide_eq_true hsame).1
        exact Table.row_eq_none_iff.mp hfree (hid ▸ h.known e he)
      have hinitial := initial_of_created hcreated
      rw [hnone]
      refine ⟨fun id s hs => ?_, fun id s hs => ?_, fun id s hs => ?_, fun id s hs _ => ?_,
        fun _ _ => rfl⟩ <;> obtain ⟨step, -, -, rfl⟩ := hinitial id s hs
      · rfl
      · rfl
      · exact Nat.zero_le _
      · exact Nat.zero_le _

omit [RecordSize] in
lemma Recorded.cancel {w : World} {task : Task} (h : Recorded w) (htask : task ∈ w.tasks) :
    Recorded { w with tasks := writeTask { task with status := .cancelled } w.tasks } where
  toFiled := h.toFiled.cancel htask
  straight other hother := by
    rcases mem_writeTask.mp hother with ⟨hold, -⟩ | ⟨rfl, -⟩
    · exact h.straight other hold
    · exact h.straight task htask
  counted other hother := by
    rcases mem_writeTask.mp hother with ⟨hold, -⟩ | ⟨rfl, -⟩
    · exact h.counted other hold
    · exact (h.counted task htask).congr rfl rfl

/-- Passes refuse no worker behind one that they start, and the step ids of the tasks that are
accepted lead to no state but their own. -/
def Proper : World → Section → Prop :=
  Allows (fun env _ task => Steady env task)
    (fun _ _ _ task => ∀ id ∈ task.stepIds, Straight task.stepIds id) fun _ => True

/-- **In a run whose passes are steady, every worker that is started is recorded**, and no step is
given more workers than it has attempts. -/
theorem accounted_of_proper (sections : List Section)
    (h : Each World.after Proper World.empty sections) :
    Accounted (run World.after World.empty sections) := by
  have hempty : Recorded World.empty :=
    { toFiled := filed_empty
      straight := fun _ htask => absurd htask List.not_mem_nil
      counted := fun _ htask => absurd htask List.not_mem_nil }
  refine (Calls.invariant_run (fun w s hw hs => ?_) hempty h).accounted
  exact keeps_after (fun env w task hw htask hsteady => hw.pass htask hsteady)
    (fun env args w task hw hfree hcreated hstraight => hw.accept hfree hcreated hstraight)
    (fun w task hw htask _ _ => hw.cancel htask) s hw hs

end Runs

/-! ### A worker that is refused -/

/-- Workers are started for both steps. -/
def willing : Env := .plain (fun _ => toldAs "running") fun id _ => startedAs ("run-" ++ id)

/-- A worker is started for the first step and refused for the second. -/
def reluctant : Env :=
  .plain (fun _ => toldAs "running") fun id _ =>
    if id = "a" then startedAs "run-a" else .error (.string "worker_run_failed")

lemma proper_when_willing :
    letI := smallRecords
    Each World.after Proper World.empty [.run willing twoSteps] := by
  let _ : RecordSize := smallRecords
  refine ⟨⟨fun task _ hcreated => ?_, fun task htask => nomatch htask⟩, trivial⟩
  obtain ⟨objective, rfl, -⟩ := created_ok hcreated
  have hall : ∀ id ∈ ["a", "b"], Startable willing (normalizePersistedConstraints
      (newTask (stableTaskId willing twoSteps) objective twoSteps)) id := by
    intro id hid
    simp only [List.mem_cons, List.not_mem_nil, or_false] at hid
    rcases hid with rfl | rfl
    · exact ⟨stepOf "a" "worker" [], List.mem_cons_self, rfl, _, rfl⟩
    · exact ⟨stepOf "b" "worker" [], List.mem_cons_of_mem _ List.mem_cons_self, rfl, _, rfl⟩
  have hstraight : ∀ id ∈ ["a", "b"], Straight ["a", "b"] id := by decide +kernel
  exact ⟨hstraight, List.pairwise_of_forall_mem_list fun a _ b hb _ => hall b hb⟩

/-- Two workers are started and recorded. -/
theorem accounted_when_willing :
    letI := smallRecords
    Accounted (run World.after World.empty [.run willing twoSteps]) ∧
      (run World.after World.empty [.run willing twoSteps]).started.length = 2 :=
  ⟨@accounted_of_proper smallRecords _ proper_when_willing, by decide +kernel⟩

/-- What a refused worker leaves: one that was started, of which no state tells. -/
lemma started_when_reluctant :
    letI := smallRecords
    let w := run World.after World.empty [.run reluctant twoSteps]
    (w.started.map fun e => (e.1, e.2.stepId, e.2.runId)) = [("t", "a", "run-a")] ∧
      ∀ task ∈ w.tasks, ∀ entry ∈ task.states, entry.2.runIds = [] := by
  decide +kernel

/-- The next pass starts another worker for the same step. -/
lemma started_again :
    letI := smallRecords
    let w := run World.after World.empty [.run reluctant twoSteps, .advance willing "t"]
    runsOf w.started "t" "a" = ["run-a", "run-a"] ∧
      ∃ task ∈ w.tasks, task.taskId = "t" ∧ task.maxRetries = 0 := by
  decide +kernel

/-- **A worker that is refused leaves an earlier one unrecorded**, and the next pass starts one too
many. -/
theorem surplus_behind_refused :
    letI := smallRecords
    ¬ Accounted (run World.after World.empty [.run reluctant twoSteps]) ∧
      ¬ Accounted (run World.after World.empty [.run reluctant twoSteps, .advance willing "t"]) := by
  let _ : RecordSize := smallRecords
  obtain ⟨hstarted, hnone⟩ := started_when_reluctant
  obtain ⟨hagain, task, htask, hid, hretries⟩ := started_again
  refine ⟨fun h => ?_, fun h => ?_⟩
  · have hmem : ("t", "a", "run-a") ∈ (run World.after World.empty
        [.run reluctant twoSteps]).started.map fun e => (e.1, e.2.stepId, e.2.runId) := by
      rw [hstarted]
      exact List.mem_singleton_self _
    obtain ⟨e, he, -⟩ := List.mem_map.mp hmem
    obtain ⟨task, htask, -, s, hs, hrun⟩ := h.1 e he
    rw [hnone task htask _ (OrderedMap.mem_of_get hs)] at hrun
    cases hrun
  · have hfew := h.2 task htask "a"
    rw [hid, hagain, hretries] at hfew
    exact absurd hfew (by decide)

end DelegatedTask

end McpSurfaces
