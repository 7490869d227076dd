import McpSurfaces.DelegatedTask.Runs

/-!
What is before a task.

* `tally`: a number of each step, added up. `waiting` counts the steps that are pending, `burden` the
  workers that may still be started and those that run.
* `Sturdy`: what is kept of a task with steps, whose ids lead to their own states.
* `Worn`: what a part of a pass leaves: every step is as it was, or has less before it.
  **`Moves.worn`**: so do all moves, and a worker that is started makes the burden smaller.
-/

namespace McpSurfaces

namespace DelegatedTask

variable {task next : Task} {id : String} {s : StepState}

/-! ### Numbers of steps -/

/-- A number of each step, added up. -/
def tally (f : StepState → ℕ) (task : Task) : ℕ :=
  (task.stepIds.map fun id => ((task.states.get id).map f).getD 0).sum

variable {f : StepState → ℕ}

lemma tally_le (hids : next.stepIds = task.stepIds)
    (h : ∀ id s, next.states.get id = some s → ∃ old, task.states.get id = some old ∧ f s ≤ f old) :
    tally f next ≤ tally f task := by
  rw [tally, hids]
  refine List.sum_le_sum fun id _ => ?_
  cases hs : next.states.get id with
  | none => exact Nat.zero_le _
  | some s =>
      obtain ⟨old, hold, hle⟩ := h id s hs
      rw [hold]
      exact hle

lemma tally_lt (hids : next.stepIds = task.stepIds)
    (h : ∀ id s, next.states.get id = some s → ∃ old, task.states.get id = some old ∧ f s ≤ f old)
    (hid : id ∈ task.stepIds) {new : StepState} (hnew : next.states.get id = some new)
    (hs : task.states.get id = some s) (hlt : f new < f s) : tally f next < tally f task := by
  rw [tally, hids]
  refine List.sum_lt_sum _ _ (fun other _ => ?_) ⟨id, hid, ?_⟩
  · cases hstate : next.states.get other with
    | none => exact Nat.zero_le _
    | some state =>
        obtain ⟨old, hold, hle⟩ := h other state hstate
        rw [hold]
        exact hle
  · rw [hnew, hs]
    exact hlt

/-- A step is set to a state with a smaller number. -/
lemma tally_setStep_lt {set : StepState → StepState} (hid : id ∈ task.stepIds)
    (hs : task.states.get id = some s) (hlt : f (set s) < f s) :
    tally f (task.setStep id set) < tally f task := by
  refine tally_lt rfl (fun other state hstate => ?_) hid
    (Task.get_setStep_self.trans (congrArg _ hs)) hs hlt
  rw [Task.get_setStep] at hstate
  obtain ⟨old, hold, rfl⟩ := Option.map_eq_some_iff.mp hstate
  refine ⟨old, hold, ?_⟩
  split
  · next heq =>
      subst heq
      cases hs.symm.trans hold
      exact hlt.le
  · exact le_rfl

/-- How many steps are pending. -/
def waiting : Task → ℕ := tally fun s => if s.status = .pending then 1 else 0

lemma waiting_le (task : Task) : waiting task ≤ task.stepIds.length := by
  rw [waiting, tally]
  refine (List.sum_le_card_nsmul _ 1 fun n hn => ?_).trans_eq (by simp)
  obtain ⟨id, -, rfl⟩ := List.mem_map.mp hn
  cases task.states.get id with
  | none => exact Nat.zero_le 1
  | some s =>
      show (if s.status = .pending then 1 else 0) ≤ 1
      split <;> omega

/-- The workers that may still be started for a step, and the one that runs. -/
def load (retries : ℕ) (s : StepState) : ℕ :=
  match s.status with
  | .pending => 2 * (retries + 1 - s.attempts)
  | .running => 2 * (retries + 1 - s.attempts) + 1
  | _ => 0

def burden (task : Task) : ℕ := tally (load task.maxRetries) task

/-! ### What is kept of a task -/

/-- A task with steps whose ids lead to their own states: no step has failed or is blocked unless the
task has failed, no step has too many attempts, and imports come from dependencies. -/
structure Sturdy (task : Task) : Prop where
  sound : Sound task.steps
  keys : task.states.keys = task.stepIds
  plain : ∀ id ∈ task.stepIds, Plain id
  nonempty : task.stepIds ≠ []
  broken : ∀ id s, task.states.get id = some s → s.status = .failed ∨ s.status = .blocked →
    task.status = .failed
  attempts : ∀ id s, task.states.get id = some s → s.attempts ≤ task.maxRetries + 1
  more : ∀ id s, task.states.get id = some s → s.status = .pending → s.attempts ≤ task.maxRetries
  imports : task.importTaskOutputs ⊆ task.dependsOnTaskIds
  refs : task.importWorkerRefs ⊆ task.dependsOnTaskIds

namespace Sturdy

lemma mem_of_state (h : Sturdy task) (hs : task.states.get id = some s) : id ∈ task.stepIds := by
  rw [← h.keys]
  exact OrderedMap.get_isSome_iff.mp (congrArg Option.isSome hs)

lemma reads_iff (h : Sturdy task) (hs : task.states.get id = some s) {status : StepStatus} :
    task.Reads id status ↔ s.status = status := by
  rw [Task.reads_iff_of_plain (h.plain id (h.mem_of_state hs)), hs]
  exact ⟨fun ⟨state, heq, hstatus⟩ => (Option.some.inj heq) ▸ hstatus, fun hstatus => ⟨s, rfl, hstatus⟩⟩

lemma state_of_mem (h : Sturdy task) (hid : id ∈ task.stepIds) : ∃ s, task.states.get id = some s := by
  rw [← h.keys] at hid
  exact Option.isSome_iff_exists.mp (OrderedMap.get_isSome_iff.mpr hid)

/-- States that keep their bounds. -/
lemma of_states (h : Sturdy task) (hshape : SameShape task next) (hsound : Sound next.steps)
    (hstates : ∀ id s, next.states.get id = some s → ∃ old, task.states.get id = some old ∧
      s.attempts = old.attempts ∧ (s.status = .pending → s.attempts ≤ task.maxRetries) ∧
      (s.status = .failed ∨ s.status = .blocked → next.status = .failed)) : Sturdy next where
  sound := hsound
  keys := by rw [hshape.keys, h.keys, hshape.stepIds]
  plain := hshape.stepIds ▸ h.plain
  nonempty := hshape.stepIds ▸ h.nonempty
  broken id s hs := by
    obtain ⟨-, -, -, -, hbroken⟩ := hstates id s hs
    exact hbroken
  attempts id s hs := by
    obtain ⟨old, hold, heq, -⟩ := hstates id s hs
    rw [heq, hshape.maxRetries]
    exact h.attempts id old hold
  more id s hs hpending := by
    obtain ⟨-, -, -, hmore, -⟩ := hstates id s hs
    rw [hshape.maxRetries]
    exact hmore hpending
  imports := by
    rw [hshape.importTaskOutputs, hshape.dependsOnTaskIds]
    exact h.imports
  refs := by
    rw [hshape.importWorkerRefs, hshape.dependsOnTaskIds]
    exact h.refs

/-- A record of which the states are kept, and that is not left to go on after it has failed. -/
lemma congr (h : Sturdy task) (hshape : SameShape task next) (hsound : Sound next.steps)
    (hstates : next.states = task.states) (hstatus : task.status = .failed → next.status = .failed) :
    Sturdy next := by
  refine h.of_states hshape hsound fun id s hs => ?_
  rw [hstates] at hs
  exact ⟨s, hs, rfl, h.more id s hs, fun hbroken => hstatus (h.broken id s hs hbroken)⟩

lemma setStep (h : Sturdy task) {set : StepState → StepState} (hs : task.states.get id = some s)
    (hattempts : (set s).attempts = s.attempts)
    (hmore : (set s).status = .pending → s.attempts ≤ task.maxRetries)
    (hbroken : (set s).status = .failed ∨ (set s).status = .blocked → task.status = .failed) :
    Sturdy (task.setStep id set) := by
  refine h.of_states (sameTask_setStep task id set).shape h.sound fun other state hstate => ?_
  rw [Task.get_setStep] at hstate
  obtain ⟨old, hold, rfl⟩ := Option.map_eq_some_iff.mp hstate
  refine ⟨old, hold, ?_⟩
  split
  · next heq =>
      subst heq
      cases hs.symm.trans hold
      exact ⟨hattempts, fun hpending => hattempts.le.trans (hmore hpending), hbroken⟩
  · exact ⟨rfl, h.more other old hold, h.broken other old hold⟩

end Sturdy

/-! ### What moves leave -/

/-- A step is as it was, or has less before it. -/
def Wears (retries : ℕ) (old new : StepState) : Prop :=
  (new.status = old.status ∧ new.attempts = old.attempts ∧ new.currentRunId = old.currentRunId) ∨
    load retries new < load retries old

lemma load_congr {retries : ℕ} {old new : StepState} (hstatus : new.status = old.status)
    (hattempts : new.attempts = old.attempts) : load retries new = load retries old := by
  rw [load, hstatus, hattempts, load]

lemma Wears.le {retries : ℕ} {old new : StepState} (h : Wears retries old new) :
    load retries new ≤ load retries old := by
  rcases h with ⟨hstatus, hattempts, -⟩ | hlt
  · exact (load_congr hstatus hattempts).le
  · exact hlt.le

lemma Wears.trans {retries : ℕ} {old mid new : StepState} (h : Wears retries old mid)
    (h' : Wears retries mid new) : Wears retries old new := by
  rcases h with ⟨hstatus, hattempts, hrun⟩ | hlt
  · rcases h' with ⟨hstatus', hattempts', hrun'⟩ | hlt'
    · exact .inl ⟨hstatus'.trans hstatus, hattempts'.trans hattempts, hrun'.trans hrun⟩
    · exact .inr (hlt'.trans_eq (load_congr hstatus hattempts))
  · exact .inr (h'.le.trans_lt hlt)

/-- What a part of a pass leaves. -/
structure Worn (task next : Task) : Prop where
  sturdy : Sturdy next
  shape : SameShape task next
  wears : ∀ id new, next.states.get id = some new →
    ∃ old, task.states.get id = some old ∧ Wears task.maxRetries old new

namespace Worn

variable {last : Task}

lemma refl (h : Sturdy task) : Worn task task :=
  ⟨h, (SameTask.refl task).shape, fun _ new hnew => ⟨new, hnew, .inl ⟨rfl, rfl, rfl⟩⟩⟩

lemma trans (h : Worn task next) (h' : Worn next last) : Worn task last where
  sturdy := h'.sturdy
  shape := h.shape.trans h'.shape
  wears id new hnew := by
    obtain ⟨mid, hmid, hwears'⟩ := h'.wears id new hnew
    obtain ⟨old, hold, hwears⟩ := h.wears id mid hmid
    rw [h.shape.maxRetries] at hwears'
    exact ⟨old, hold, hwears.trans hwears'⟩

lemma burden_le (h : Worn task next) : burden next ≤ burden task := by
  rw [burden, h.shape.maxRetries, burden]
  refine tally_le h.shape.stepIds fun id new hnew => ?_
  obtain ⟨old, hold, hwears⟩ := h.wears id new hnew
  exact ⟨old, hold, hwears.le⟩

/-- A step with less before it makes the burden smaller. -/
lemma burden_lt (h : Worn task next) {new : StepState} (hnew : next.states.get id = some new)
    (hs : task.states.get id = some s) (hlt : load task.maxRetries new < load task.maxRetries s) :
    burden next < burden task := by
  rw [burden, h.shape.maxRetries, burden]
  refine tally_lt h.shape.stepIds (fun id new hnew => ?_) ?_ hnew hs hlt
  · obtain ⟨old, hold, hwears⟩ := h.wears id new hnew
    exact ⟨old, hold, hwears.le⟩
  · rw [← h.shape.stepIds]
    exact h.sturdy.mem_of_state hnew

/-- Where the burden is the same, so is what runs. -/
lemma same (h : Worn task next) (hburden : burden next = burden task) {new : StepState}
    (hnew : next.states.get id = some new) : ∃ old, task.states.get id = some old ∧
      new.status = old.status ∧ new.attempts = old.attempts ∧
      new.currentRunId = old.currentRunId := by
  obtain ⟨old, hold, hsame | hlt⟩ := h.wears id new hnew
  · exact ⟨old, hold, hsame⟩
  · exact absurd hburden (h.burden_lt hnew hold hlt).ne

end Worn

namespace Sturdy

lemma worn_congr (h : Sturdy task) (hshape : SameShape task next) (hsound : Sound next.steps)
    (hstates : next.states = task.states) (hstatus : task.status = .failed → next.status = .failed) :
    Worn task next where
  sturdy := h.congr hshape hsound hstates hstatus
  shape := hshape
  wears _ new hnew := ⟨new, hstates ▸ hnew, .inl ⟨rfl, rfl, rfl⟩⟩

lemma worn_setStep (h : Sturdy task) (set : StepState → StepState) (hs : task.states.get id = some s)
    (hattempts : (set s).attempts = s.attempts)
    (hmore : (set s).status = .pending → s.attempts ≤ task.maxRetries)
    (hbroken : (set s).status = .failed ∨ (set s).status = .blocked → task.status = .failed)
    (hwears : Wears task.maxRetries s (set s)) : Worn task (task.setStep id set) where
  sturdy := h.setStep hs hattempts hmore hbroken
  shape := (sameTask_setStep task id set).shape
  wears other new hnew := by
    rw [Task.get_setStep] at hnew
    obtain ⟨old, hold, rfl⟩ := Option.map_eq_some_iff.mp hnew
    refine ⟨old, hold, ?_⟩
    split
    · next heq =>
        subst heq
        cases hs.symm.trans hold
        exact hwears
    · exact .inl ⟨rfl, rfl, rfl⟩

/-- A step that runs, or is pending with a worker to come, has something before it. -/
lemma load_pos (h : Sturdy task) (hs : task.states.get id = some s)
    (hstatus : s.status = .pending ∨ s.status = .running) : 0 < load task.maxRetries s := by
  rcases hstatus with hstatus | hstatus
  · have hmore := h.more id s hs hstatus
    rw [load, hstatus]
    dsimp only
    omega
  · rw [load, hstatus]
    exact Nat.succ_pos _

/-- A step that needs no worker any more is taken up and settled. -/
lemma worn_settled (h : Sturdy task) (set : StepState → StepState) (hs : task.states.get id = some s)
    (hattempts : (set s).attempts = s.attempts)
    (hstatus : s.status = .pending ∨ s.status = .running)
    (hset : (set s).status ≠ .pending ∧ (set s).status ≠ .running)
    (hbroken : (set s).status = .failed ∨ (set s).status = .blocked → task.status = .failed) :
    Worn task (task.setStep id set) := by
  refine h.worn_setStep set hs hattempts (fun hpending => absurd hpending hset.1) hbroken (.inr ?_)
  have hnone : load task.maxRetries (set s) = 0 := by
    unfold load
    split
    · next hpending => exact absurd hpending hset.1
    · next hruns => exact absurd hruns hset.2
    · rfl
  rw [hnone]
  exact h.load_pos hs hstatus

/-- The worker of a step is recorded: nothing changes of the step that is counted. -/
lemma worn_recorded (h : Sturdy task) (env : Env) (hs : task.states.get id = some s)
    (runId status : String) (run : Value) :
    Worn task (recordWorkerTerminal env task id runId status run) := by
  have hset := h.worn_setStep (fun s =>
    { s with
      workerStatus := some (effectiveStatus env task id status run)
      workerOutputContract := some
        (if ContractFailed (recordedOutput env (requiredContractFields task id) run)
          (requiredContractFields task id) then "failed" else "passed")
      workerOutput := (recordedOutput env (requiredContractFields task id) run).or
        s.workerOutput }) hs rfl (h.more id s hs) (h.broken id s hs) (.inl ⟨rfl, rfl, rfl⟩)
  have hsame := sameTask_recordWorkerTerminal env task id runId status run
  exact ⟨hset.sturdy.congr ⟨rfl, rfl, rfl, rfl, rfl, rfl, rfl⟩ h.sound rfl fun h => h, hsame.shape,
    hset.wears⟩

end Sturdy

section Passes

variable [RecordSize] {env : Env} {db : Records} {launches : List Launch} {answer : Value}

section

omit [RecordSize]

lemma worn_failStep (h : Sturdy task) (env : Env) (hs : task.states.get id = some s)
    (hstatus : s.status = .pending ∨ s.status = .running) : Worn task (failStep env task id) := by
  have hfailed : Worn task { task with status := .failed } :=
    h.worn_congr ⟨rfl, rfl, rfl, rfl, rfl, rfl, rfl⟩ h.sound rfl fun _ => rfl
  have hset := hfailed.sturdy.worn_settled (fun s => { s with status := .failed }) hs rfl hstatus
    ⟨(fun h => nomatch h), fun h => nomatch h⟩ fun _ => rfl
  exact hfailed.trans (hset.trans (hset.sturdy.worn_congr ⟨rfl, rfl, rfl, rfl, rfl, rfl, rfl⟩
    h.sound rfl fun h => h))

/-- What a poll leaves; a worker that has ended makes the burden smaller. -/
lemma worn_settleWorker (h : Sturdy task) (env : Env) (answer : Value)
    (hs : task.states.get id = some s) (hruns : s.status = .running) :
    Worn task (settleWorker env task id (currentRun task id) answer) ∧
      (workerOf answer = "completed" ∨ endedBadly (workerOf answer) →
        burden (settleWorker env task id (currentRun task id) answer) < burden task) := by
  have hresult : settleWorker env task id (currentRun task id) answer =
    settleWorker env task id (currentRun task id) answer := rfl
  have hrecorded := h.worn_recorded env hs (currentRun task id) (workerOf answer) (runOf answer)
  have hself : ∃ recorded, (recordWorkerTerminal env task id (currentRun task id) (workerOf answer)
      (runOf answer)).states.get id = some recorded ∧ recorded.status = .running ∧
        recorded.attempts = s.attempts := by
    rw [states_recordWorkerTerminal, Task.get_setStep_self, hs]
    exact ⟨_, rfl, hruns, rfl⟩
  obtain ⟨recorded, hget, hstatus, hattempts⟩ := hself
  have hload : load task.maxRetries s = 2 * (task.maxRetries + 1 - s.attempts) + 1 := by
    rw [load, hruns]
  have hless : ∀ (last : Task) (new : StepState), Worn task last → last.states.get id = some new →
      load task.maxRetries new < load task.maxRetries s → burden last < burden task :=
    fun _ _ hworn hnew hlt => hworn.burden_lt hnew hs hlt
  rcases settleWorker_cases hresult with ⟨-, heq⟩ | ⟨-, -, heq⟩ | ⟨-, hfew, heq⟩ |
    ⟨hcompleted, hbad, heq⟩
  · rw [heq]
    have hworn := hrecorded.trans (worn_failStep hrecorded.sturdy env hget (.inr hstatus))
    refine ⟨hworn, fun _ => hless _ { recorded with status := .failed } hworn ?_ ?_⟩
    · rw [states_failStep, Task.get_setStep_self, hget]
      rfl
    · rw [hload]
      exact Nat.succ_pos _
  · rw [heq]
    have hworn := hrecorded.trans (hrecorded.sturdy.worn_settled
      (fun s => { s with status := .completed }) hget rfl (.inr hstatus)
      ⟨(fun h => nomatch h), fun h => nomatch h⟩ fun h => nomatch h)
    refine ⟨hworn, fun _ => hless _ { recorded with status := .completed } hworn ?_ ?_⟩
    · rw [Task.get_setStep_self, hget]
      rfl
    · rw [hload]
      exact Nat.succ_pos _
  · rw [heq]
    have hretry : recorded.attempts ≤ task.maxRetries := by
      rw [attemptsOf, hget] at hfew
      exact hfew
    have hlt : load task.maxRetries { recorded with status := .pending, currentRunId := none } <
        load task.maxRetries s := by
      rw [hload, load]
      dsimp only
      omega
    have hworn := hrecorded.trans (hrecorded.sturdy.worn_setStep
      (fun s => { s with status := .pending, currentRunId := none }) hget rfl (fun _ => hretry)
      (fun h => by rcases h with h | h <;> cases h) (.inr ?_))
    · refine ⟨hworn, fun _ => hless _ _ hworn ?_ hlt⟩
      rw [Task.get_setStep_self, hget]
      rfl
    · show load task.maxRetries _ < load task.maxRetries recorded
      have hsame : load task.maxRetries recorded = load task.maxRetries s :=
        load_congr (hstatus.trans hruns.symm) hattempts
      rw [hsame]
      exact hlt
  · rw [heq]
    refine ⟨Worn.refl h, fun hended => ?_⟩
    rcases hended with hended | hended
    · exact absurd hended hcompleted
    · exact absurd hended hbad

/-- In a task that has not failed no dependency is broken. -/
lemma Sturdy.not_broken (h : Sturdy task) (hopen : task.status ≠ .failed) (hid : id ∈ task.stepIds) :
    ¬ Broken task id := by
  obtain ⟨s, hs⟩ := h.state_of_mem hid
  rintro (hreads | hreads)
  · exact hopen (h.broken id s hs (.inl ((h.reads_iff hs).mp hreads)))
  · exact hopen (h.broken id s hs (.inr ((h.reads_iff hs).mp hreads)))

/-- A step that is settled was pending, and is not any more. -/
lemma worn_settleStep (h : Sturdy task) (hopen : task.status ≠ .failed) {step : Value}
    (hmem : step ∈ task.steps) (hstep : settleStep env task step = some next) :
    Worn task next ∧ waiting next < waiting task := by
  obtain ⟨id, hid, hpending, hcases⟩ := settleStep_cases hstep
  have hthere : id ∈ task.stepIds := mem_stepIds.mpr ⟨step, hmem, hid⟩
  obtain ⟨s, hs⟩ := h.state_of_mem hthere
  have hstatus := (h.reads_iff hs).mp hpending
  have hfewer : ∀ set : StepState → StepState, (set s).status ≠ .pending →
      waiting (task.setStep id set) < waiting task := fun set hset => by
    refine tally_setStep_lt hthere hs ?_
    rw [if_neg hset, if_pos hstatus]
    exact Nat.one_pos
  rcases hcases with ⟨⟨dependency, hdep, hbroken⟩, -⟩ | ⟨-, -, rfl⟩ | ⟨-, -, -, rfl⟩
  · exact absurd hbroken (h.not_broken hopen (h.sound.known step hmem dependency hdep))
  · refine ⟨h.worn_settled _ hs rfl (.inl hstatus) ⟨(fun h => nomatch h), fun h => nomatch h⟩
      (fun h => ?_), hfewer _ fun h => nomatch h⟩
    rcases h with h | h <;> cases h
  · refine ⟨h.worn_settled _ hs rfl (.inl hstatus) ?_ (fun h => ?_), hfewer _ ?_⟩
    · dsimp only
      split <;> exact ⟨(fun h => nomatch h), fun h => nomatch h⟩
    · dsimp only at h
      split at h <;> rcases h with h | h <;> cases h
    · dsimp only
      split <;> exact fun h => nomatch h

/-- A worker is started for a step that is pending. -/
lemma worn_recordStarted (h : Sturdy task) (hopen : task.status ≠ .failed)
    (hs : task.states.get id = some s) (hpending : s.status = .pending) (kind runId : String) :
    Worn task (recordStarted task id kind runId) ∧
      burden (recordStarted task id kind runId) < burden task := by
  have hmore := h.more id s hs hpending
  have hstates : ∀ other new, (recordStarted task id kind runId).states.get other = some new →
      ∃ old, task.states.get other = some old ∧ ((other = id ∧ old = s ∧ new.status = .running ∧
        new.attempts = s.attempts + 1) ∨ new = old) := by
    intro other new hnew
    rw [states_recordStarted, Task.get_setStep] at hnew
    obtain ⟨old, hold, rfl⟩ := Option.map_eq_some_iff.mp hnew
    refine ⟨old, hold, ?_⟩
    split
    · next heq =>
        subst heq
        cases hs.symm.trans hold
        exact .inl ⟨rfl, rfl, rfl, rfl⟩
    · exact .inr rfl
  have hless : ∀ new : StepState, new.status = .running → new.attempts = s.attempts + 1 →
      load task.maxRetries new < load task.maxRetries s := by
    intro new hruns hattempts
    rw [load, hruns, load, hpending]
    dsimp only
    omega
  have hworn : Worn task (recordStarted task id kind runId) := by
    refine ⟨⟨h.sound, ?_, h.plain, h.nonempty, fun other new hnew hbroken => ?_,
      fun other new hnew => ?_, fun other new hnew hwaits => ?_, h.imports, h.refs⟩,
      (sameTask_recordStarted task id kind runId).shape, fun other new hnew => ?_⟩
    · exact (sameTask_recordStarted task id kind runId).keys.trans h.keys
    · obtain ⟨old, hold, ⟨-, -, hruns, -⟩ | rfl⟩ := hstates other new hnew
      · rw [hruns] at hbroken
        rcases hbroken with hbroken | hbroken <;> cases hbroken
      · exact absurd (h.broken other _ hold hbroken) hopen
    · obtain ⟨old, hold, ⟨-, -, -, hattempts⟩ | rfl⟩ := hstates other new hnew
      · rw [hattempts]
        exact Nat.succ_le_succ hmore
      · exact h.attempts other _ hold
    · obtain ⟨old, hold, ⟨-, -, hruns, -⟩ | rfl⟩ := hstates other new hnew
      · cases hruns.symm.trans hwaits
      · exact h.more other _ hold hwaits
    · obtain ⟨old, hold, ⟨-, rfl, hruns, hattempts⟩ | rfl⟩ := hstates other new hnew
      · exact ⟨_, hold, .inr (hless new hruns hattempts)⟩
      · exact ⟨_, hold, .inl ⟨rfl, rfl, rfl⟩⟩
  refine ⟨hworn, ?_⟩
  have hself : ∃ new, (recordStarted task id kind runId).states.get id = some new ∧
      new.status = .running ∧ new.attempts = s.attempts + 1 := by
    rw [states_recordStarted, Task.get_setStep_self, hs]
    exact ⟨_, rfl, rfl, rfl⟩
  obtain ⟨new, hnew, hruns, hattempts⟩ := hself
  exact hworn.burden_lt hnew hs (hless new hruns hattempts)

lemma worn_blockPending (h : Sturdy task) (blocked : List String) : Worn task (setOutcomeVerdicts env
    { blockPending blocked task with externalStatus := .blocked, status := .failed } "failed") := by
  have hstates : ∀ id new, (blockPending blocked task).states.get id = some new →
      ∃ old, task.states.get id = some old ∧ new.attempts = old.attempts ∧
        ((old.status = .pending ∧ new.status = .blocked) ∨ new = old) := by
    intro id new hnew
    rw [get_blockPending] at hnew
    obtain ⟨old, hold, rfl⟩ := Option.map_eq_some_iff.mp hnew
    refine ⟨old, hold, ?_⟩
    unfold StepState.block
    split
    · next hpending => exact ⟨rfl, .inl ⟨hpending, rfl⟩⟩
    · exact ⟨rfl, .inr rfl⟩
  have hshape : SameShape task (setOutcomeVerdicts env
      { blockPending blocked task with externalStatus := .blocked, status := .failed } "failed") :=
    ⟨rfl, rfl, keys_blockPending blocked, rfl, rfl, rfl, rfl⟩
  refine ⟨h.of_states hshape h.sound fun id new hnew => ?_, hshape, fun id new hnew => ?_⟩
  · obtain ⟨old, hold, hattempts, ⟨-, hblocked⟩ | rfl⟩ := hstates id new hnew
    · exact ⟨old, hold, hattempts, (fun hpending => by cases hblocked.symm.trans hpending),
        fun _ => rfl⟩
    · exact ⟨_, hold, rfl, h.more id _ hold, fun _ => rfl⟩
  · obtain ⟨old, hold, -, ⟨hpending, hblocked⟩ | rfl⟩ := hstates id new hnew
    · refine ⟨old, hold, .inr ?_⟩
      have hnone : load task.maxRetries new = 0 := by rw [load, hblocked]
      rw [hnone]
      exact h.load_pos hold (.inl hpending)
    · exact ⟨_, hold, .inl ⟨rfl, rfl, rfl⟩⟩

end

/-- What a move leaves; a worker that is started makes the burden smaller. -/
lemma Move.worn (hmove : Move env db task launches next) (h : Sturdy task) :
    Worn task next ∧ (launches ≠ [] → burden next < burden task) := by
  cases hmove with
  | normalizes =>
      exact ⟨h.worn_congr ⟨rfl, stepIds_normalize, rfl, maxRetries_normalize, rfl, rfl, rfl⟩
        h.sound.normalize rfl fun h => h, fun hsome => absurd rfl hsome⟩
  | obstructed blocked => exact ⟨worn_blockPending h blocked, fun hsome => absurd rfl hsome⟩
  | waits =>
      exact ⟨h.worn_congr ⟨rfl, rfl, rfl, rfl, rfl, rfl, rfl⟩ h.sound rfl fun h => h,
        fun hsome => absurd rfl hsome⟩
  | unsupplied =>
      exact ⟨h.worn_congr ⟨rfl, rfl, rfl, rfl, rfl, rfl, rfl⟩ h.sound rfl fun _ => rfl,
        fun hsome => absurd rfl hsome⟩
  | resolves =>
      exact ⟨h.worn_congr ⟨rfl, rfl, rfl, rfl, rfl, rfl, rfl⟩ h.sound rfl fun h => h,
        fun hsome => absurd rfl hsome⟩
  | polled id answer hid hreads =>
      obtain ⟨s, hs⟩ := h.state_of_mem hid
      exact ⟨(worn_settleWorker h env answer hs ((h.reads_iff hs).mp hreads)).1,
        fun hsome => absurd rfl hsome⟩
  | reviewed =>
      exact ⟨h.worn_congr ⟨rfl, rfl, rfl, rfl, rfl, rfl, rfl⟩ h.sound rfl fun h => h,
        fun hsome => absurd rfl hsome⟩
  | settled next step hstep hsettle hopen =>
      exact ⟨(worn_settleStep h hopen hstep hsettle).1, fun hsome => absurd rfl hsome⟩
  | started before id step run hstep hid hready hsteps hkeys hstate hkind hrun hopen =>
      obtain ⟨-, -, -, hpending, -⟩ := mem_readyStepIds.mp hready
      have hids : before.stepIds = task.stepIds := by rw [Task.stepIds, hsteps, Task.stepIds]
      have hmem : id ∈ task.stepIds := mem_stepIds.mpr ⟨step, hstep, hid⟩
      obtain ⟨s, hs, hstatus⟩ := (Task.reads_iff_of_plain (h.plain id hmem)).mp hpending
      have hworn := worn_recordStarted h hopen (hstate ▸ hs) hstatus (Step.kind step) (runIdOf run)
      exact ⟨hworn.1, fun _ => hworn.2⟩
  | finished hopen =>
      have hshape := (sameTask_finish env task).shape
      refine ⟨h.worn_congr hshape ?_ ?_ fun hstatus => absurd hstatus hopen,
        fun hsome => absurd rfl hsome⟩
      · rw [(sameTask_finish env task).steps]
        exact h.sound
      · unfold finish
        dsimp only
        split_ifs <;> rfl

lemma Moves.worn (hmoves : Moves env db task launches next) (h : Sturdy task) :
    Worn task next ∧ (launches ≠ [] → burden next < burden task) := by
  induction hmoves with
  | refl => exact ⟨Worn.refl h, fun hsome => absurd rfl hsome⟩
  | @tail before more mid last hbefore hmove ih =>
      obtain ⟨hworn, hlt⟩ := ih
      obtain ⟨hlast, hlastLt⟩ := hmove.worn hworn.sturdy
      refine ⟨hworn.trans hlast, fun hsome => ?_⟩
      by_cases hnone : before = []
      · have hmore : more ≠ [] := fun hmore => hsome (by rw [hnone, hmore, List.append_nil])
        exact (hlastLt hmore).trans_le hworn.burden_le
      · exact hlast.burden_le.trans_lt (hlt hnone)

end Passes

end DelegatedTask

end McpSurfaces
