import McpSurfaces.Foundation.OrderedMap
import McpSurfaces.Json.Pointer

/-!
The record of a delegated task.

* `Step`: a step of a workflow is the JSON object that the caller gave, read through its fields.
* `StepState`, `WorkerRef`, `WorkerOutput`, `Task`: what `task.json` holds. Times, owners and texts
  that no modelled function decides by are left out.
* `Task.stepStatus`: the status of a step, read through a pointer that its id is a part of.
* **`status_of_straight`**, **`stepStatus_of_plain`**: what the status of such an id is.
-/

namespace McpSurfaces

namespace DelegatedTask

/-! ### Steps of a workflow -/

namespace Step

variable (step : Value)

def id? : Option String := (step.get "id").bind Value.asStr

def kind : String := ((step.get "kind").bind Value.asStr).getD "worker"

/-- The dependencies that are texts. -/
def dependsOn : List String :=
  (((step.get "depends_on").bind Value.asArray).getD []).filterMap Value.asStr

def condition : Option String := (step.get "if").bind Value.asStr

/-- A step that the task takes itself: no worker is started for it. -/
def Local : Prop := kind step = "gate" ∨ kind step = "join" ∨ kind step = "note"

instance : Decidable (Local step) := inferInstanceAs (Decidable (_ ∨ _))

end Step

/-! ### States -/

inductive StepStatus where
  | pending
  | running
  | completed
  | failed
  | skipped
  | blocked
  | noted
deriving DecidableEq, Repr

def StepStatus.text : StepStatus → String
  | pending => "pending"
  | running => "running"
  | completed => "completed"
  | failed => "failed"
  | skipped => "skipped"
  | blocked => "blocked"
  | noted => "noted"

lemma StepStatus.text_injective : Function.Injective StepStatus.text := by
  intro a b h
  cases a <;> cases b <;> first
    | rfl
    | exact absurd h (by decide)

inductive TaskStatus where
  | acceptedForExecution
  | running
  | completed
  | failed
  | cancelled
deriving DecidableEq, Repr

/-- `task_is_terminal`. -/
def TaskStatus.Terminal (s : TaskStatus) : Prop := s = .completed ∨ s = .failed ∨ s = .cancelled

instance (s : TaskStatus) : Decidable s.Terminal := inferInstanceAs (Decidable (_ ∨ _))

/-- The state of a step in `result.step_states`. -/
structure StepState where
  kind : String
  status : StepStatus
  attempts : ℕ
  runIds : List String
  currentRunId : Option String
  workerStatus : Option String
  workerOutputContract : Option String
  workerOutput : Option Value
  blockedBy : List String
  blockedByExternalTasks : List String
deriving DecidableEq, Repr

namespace StepState

/-- The state of a step at the beginning. -/
def initial (kind : String) : StepState where
  kind := kind
  status := .pending
  attempts := 0
  runIds := []
  currentRunId := none
  workerStatus := none
  workerOutputContract := none
  workerOutput := none
  blockedBy := []
  blockedByExternalTasks := []

/-- A state as it stands in the record. -/
def toValue (stepId : String) (s : StepState) : Value :=
  .object ([("step_id", .string stepId), ("kind", .string s.kind), ("status", .string s.status.text),
      ("attempts", .ofNat s.attempts), ("run_ids", .array (s.runIds.map .string)),
      ("current_run_id", (s.currentRunId.map .string).getD .null), ("error", .null),
      ("summary", .null), ("blocked_by", .array (s.blockedBy.map .string)),
      ("blocked_by_external_tasks", .array (s.blockedByExternalTasks.map .string)),
      ("worker_status", (s.workerStatus.map .string).getD .null),
      ("worker_output_contract", (s.workerOutputContract.map .string).getD .null)] ++
    (s.workerOutput.map fun output => [("worker_output", output)]).getD [])

end StepState

/-- An entry of `result.worker_refs`. -/
structure WorkerRef where
  stepId : String
  stepKind : String
  runId : String
  status : String
  output : Option Value
  error : Option Value
deriving DecidableEq, Repr

/-- An entry of `result.worker_outputs`. -/
structure WorkerOutput where
  stepId : String
  runId : String
  status : String
  output : Option Value
  error : Option Value
deriving DecidableEq, Repr

/-- `external_dependencies.status`. -/
inductive ExternalStatus where
  | pending
  | waiting
  | blocked
  | resolved
deriving DecidableEq, Repr

/-- A task record. -/
structure Task where
  taskId : String
  status : TaskStatus
  objective : String
  constraints : Value
  steps : List Value
  execution : Value
  acceptance : Value
  dependsOnTaskIds : List String
  importTaskOutputs : List String
  importWorkerRefs : List String
  externalStatus : ExternalStatus
  states : OrderedMap String StepState
  workerRefs : List WorkerRef
  workerOutputs : List WorkerOutput
  importedTaskOutputs : List Value
  importedWorkerRefs : List (String × List WorkerRef)
  outputContractVerdict : String
  objectiveVerdict : String
  acceptanceVerdict : String
  acceptanceChecks : List Value
deriving DecidableEq, Repr

/-- The ids of the steps, in their order. -/
def stepIds (steps : List Value) : List String := steps.filterMap Step.id?

/-- `max_retries`. -/
def maxRetriesOf (constraints execution : Value) : ℕ :=
  min ((((constraints.get "max_retries").or (execution.get "max_retries")).bind
    Value.asU64).getD 0) 10

/-- `max_concurrency`. -/
def maxConcurrencyOf (constraints execution : Value) : ℕ :=
  min (max ((((constraints.get "max_concurrency").or (execution.get "max_concurrency")).bind
    Value.asU64).getD 1) 1) 32

namespace Task

variable (task : Task)

def Terminal : Prop := task.status.Terminal

instance : Decidable task.Terminal := inferInstanceAs (Decidable (TaskStatus.Terminal _))

def stepIds : List String := DelegatedTask.stepIds task.steps

def maxRetries : ℕ := maxRetriesOf task.constraints task.execution

def maxConcurrency : ℕ := maxConcurrencyOf task.constraints task.execution

/-- `result.step_states` as it stands in the record. -/
def statesValue : Value :=
  .object (task.states.map fun entry => (entry.1, entry.2.toValue entry.1))

/-- What stands at `/result/step_states/{id}/{field}`. -/
def stepField (id field : String) : Option Value :=
  task.statesValue.pointer (pointerTokens id ++ [field])

/-- `step_status`. -/
def stepStatus (id : String) : Option String := (task.stepField id "status").bind Value.asStr

/-- A step is read to have a status. -/
def Reads (id : String) (s : StepStatus) : Prop := task.stepStatus id = some s.text

instance (id : String) (s : StepStatus) : Decidable (task.Reads id s) :=
  inferInstanceAs (Decidable (_ = _))

/-- The state of a step is set: `task["result"]["step_states"][step_id][…] = …`. -/
def setStep (id : String) (set : StepState → StepState) : Task :=
  { task with
    states := task.states.map fun entry =>
      (entry.1, if entry.1 = id then set entry.2 else entry.2) }

end Task

/-! ### What a status is read from -/

/-- An id whose pointer leads to its own state. -/
def Plain (id : String) : Prop := pointerTokens id = [id]

instance (id : String) : Decidable (Plain id) := inferInstanceAs (Decidable (_ = _))

/-- An id whose pointer leads to no state but its own. -/
def Straight (ids : List String) (id : String) : Prop :=
  match pointerTokens id with
  | [] => True
  | [key] => key = id ∨ key ∉ ids
  | key :: field :: _ => key ∉ ids ∨ field ≠ "worker_output"

instance (ids : List String) (id : String) : Decidable (Straight ids id) := by
  unfold Straight
  split <;> infer_instance

lemma Plain.straight {id : String} (h : Plain id) (ids : List String) : Straight ids id := by
  unfold Straight
  rw [h]
  exact .inl rfl

/-- A text, a number, nothing, or a list of texts. -/
def Flat (v : Value) : Prop :=
  v = .null ∨ (∃ s, v = .string s) ∨ (∃ n, v = .number n) ∨
    ∃ texts : List String, v = .array (texts.map .string)

/-- Nothing flat has a status. -/
lemma pointer_flat {v : Value} (h : Flat v) (more : List String) :
    v.pointer (more ++ ["status"]) = none := by
  rcases h with rfl | ⟨s, rfl⟩ | ⟨n, rfl⟩ | ⟨texts, rfl⟩
  · cases more <;> rfl
  · exact Value.pointer_string s (by simp)
  · cases more <;> rfl
  · cases more with
    | nil =>
        have hindex : Value.parseIndex "status" = none := by decide
        rw [List.nil_append, Value.pointer_cons, Value.child, hindex]
        rfl
    | cons token rest =>
        rw [List.cons_append, Value.pointer_cons, Value.child]
        cases Value.parseIndex token with
        | none => rfl
        | some i =>
            rw [Option.bind_some, List.getElem?_map]
            cases texts[i]? with
            | none => rfl
            | some text => exact Value.pointer_string text (by simp)

namespace StepState

variable (s : StepState) (key : String)

lemma pointer_status : (s.toValue key).pointer ["status"] = some (.string s.status.text) := rfl

lemma pointer_currentRunId : (s.toValue key).pointer ["current_run_id"] =
    some ((s.currentRunId.map .string).getD .null) := rfl

lemma pointer_workerOutputContract : (s.toValue key).pointer ["worker_output_contract"] =
    some ((s.workerOutputContract.map .string).getD .null) := rfl

variable {s key}

lemma flat_optionText (t : Option String) : Flat ((t.map .string).getD .null) := by
  cases t with
  | none => exact .inl rfl
  | some text => exact .inr (.inl ⟨text, rfl⟩)

/-- All that a state holds is flat, but for the output of its worker. -/
lemma flat_of_child {field : String} {v : Value} (h : (s.toValue key).child field = some v)
    (hfield : field ≠ "worker_output") : Flat v := by
  have hmem := OrderedMap.mem_of_get h
  rcases List.mem_append.mp hmem with hmem | hmem
  · simp only [List.mem_cons, Prod.mk.injEq, List.not_mem_nil, or_false] at hmem
    rcases hmem with ⟨-, rfl⟩ | ⟨-, rfl⟩ | ⟨-, rfl⟩ | ⟨-, rfl⟩ | ⟨-, rfl⟩ | ⟨-, rfl⟩ | ⟨-, rfl⟩ |
      ⟨-, rfl⟩ | ⟨-, rfl⟩ | ⟨-, rfl⟩ | ⟨-, rfl⟩ | ⟨-, rfl⟩
    · exact .inr (.inl ⟨_, rfl⟩)
    · exact .inr (.inl ⟨_, rfl⟩)
    · exact .inr (.inl ⟨_, rfl⟩)
    · exact .inr (.inr (.inl ⟨_, rfl⟩))
    · exact .inr (.inr (.inr ⟨_, rfl⟩))
    · exact flat_optionText _
    · exact .inl rfl
    · exact .inl rfl
    · exact .inr (.inr (.inr ⟨_, rfl⟩))
    · exact .inr (.inr (.inr ⟨_, rfl⟩))
    · exact flat_optionText _
    · exact flat_optionText _
  · cases hout : s.workerOutput with
    | none =>
        rw [hout] at hmem
        exact absurd hmem List.not_mem_nil
    | some output =>
        rw [hout] at hmem
        exact absurd (congrArg Prod.fst (List.mem_singleton.mp hmem)) hfield

end StepState

/-- A map whose values are changed reads the changed value. -/
lemma get_mapValues {α β : Type} (f : String → α → β) (m : OrderedMap String α) (key : String) :
    OrderedMap.get (m.map fun entry => (entry.1, f entry.1 entry.2)) key = (m.get key).map (f key) := by
  induction m with
  | nil => rfl
  | cons entry rest ih =>
      rw [List.map_cons, OrderedMap.get_cons, OrderedMap.get_cons, ih]
      by_cases h : entry.1 = key
      · rw [if_pos h, if_pos h, h]
        rfl
      · rw [if_neg h, if_neg h]

lemma keys_mapValues {α β : Type} (f : String → α → β) (m : OrderedMap String α) :
    OrderedMap.keys (m.map fun entry => (entry.1, f entry.1 entry.2)) = m.keys := by
  show (m.map _).map Prod.fst = m.map Prod.fst
  rw [List.map_map]
  rfl

namespace Task

variable {task : Task} {id : String} {ids : List String}

lemma child_statesValue (key : String) :
    task.statesValue.child key = (task.states.get key).map (StepState.toValue key) :=
  get_mapValues StepState.toValue task.states key

lemma stepField_of_plain (h : Plain id) (field : String) :
    task.stepField id field =
      (task.states.get id).bind fun s => (s.toValue id).pointer [field] := by
  rw [stepField, h, List.singleton_append, Value.pointer_cons, child_statesValue]
  cases task.states.get id <;> rfl

/-- The status of a plain id is that of its state. -/
theorem stepStatus_of_plain (h : Plain id) :
    task.stepStatus id = (task.states.get id).map fun s => s.status.text := by
  rw [stepStatus, stepField_of_plain h]
  cases hs : task.states.get id with
  | none => rfl
  | some s => exact congrArg (Option.bind · Value.asStr) (s.pointer_status id)

/-- What is read of a straight id, its own state says. -/
theorem status_of_straight (h : Straight ids id) (hids : ∀ key ∈ task.states.keys, key ∈ ids)
    {text : String} (hread : task.stepStatus id = some text) :
    ∃ s, task.states.get id = some s ∧ s.status.text = text := by
  rw [stepStatus, stepField] at hread
  unfold Straight at h
  have hkey : ∀ {key rest}, pointerTokens id = key :: rest → ∃ s, task.states.get key = some s ∧
      ((s.toValue key).pointer (rest ++ ["status"])).bind Value.asStr = some text := by
    intro key rest htokens
    rw [htokens, List.cons_append, Value.pointer_cons, child_statesValue] at hread
    cases hs : task.states.get key with
    | none =>
        rw [hs] at hread
        cases hread
    | some s =>
        rw [hs] at hread
        exact ⟨s, rfl, hread⟩
  have hthere : ∀ {key s}, task.states.get key = some s → key ∈ ids := fun hs =>
    hids _ (OrderedMap.get_isSome_iff.mp (hs ▸ rfl))
  split at h
  · next htokens => exact absurd htokens (pointerTokens_ne_nil id)
  · next key htokens =>
      obtain ⟨s, hs, htext⟩ := hkey htokens
      rcases h with rfl | hfree
      · exact ⟨s, hs, Option.some.inj htext⟩
      · exact absurd (hthere hs) hfree
  · next key field rest htokens =>
      obtain ⟨s, hs, htext⟩ := hkey htokens
      rcases h with hfree | hfield
      · exact absurd (hthere hs) hfree
      · rw [List.cons_append, Value.pointer_cons] at htext
        cases hchild : (s.toValue key).child field with
        | none =>
            rw [hchild] at htext
            cases htext
        | some v =>
            rw [hchild, Option.bind_some, pointer_flat (s.flat_of_child hchild hfield)] at htext
            cases htext

/-- A straight id of which something is read leads to its own state. -/
lemma plain_of_read (h : Straight ids id) (hids : ∀ key ∈ task.states.keys, key ∈ ids)
    {text : String} (hread : task.stepStatus id = some text) : Plain id := by
  obtain ⟨s, hs, -⟩ := status_of_straight h hids hread
  have hthere : ∀ {key}, key ∉ ids → task.states.get key = none := fun hfree =>
    OrderedMap.get_eq_none_iff.mpr fun hmem => hfree (hids _ hmem)
  unfold Straight at h
  rw [stepStatus, stepField] at hread
  split at h
  · next htokens => exact absurd htokens (pointerTokens_ne_nil id)
  · next key htokens =>
      rcases h with rfl | hfree
      · exact htokens
      · rw [htokens, List.singleton_append, Value.pointer_cons, child_statesValue,
          hthere hfree] at hread
        cases hread
  · next key field rest htokens =>
      rw [htokens, List.cons_append, Value.pointer_cons, child_statesValue] at hread
      cases hstate : task.states.get key with
      | none =>
          rw [hstate] at hread
          cases hread
      | some other =>
          rcases h with hfree | hfield
          · cases hstate.symm.trans (hthere hfree)
          · rw [hstate, Option.map_some, Option.bind_some, List.cons_append,
              Value.pointer_cons] at hread
            cases hchild : (other.toValue key).child field with
            | none =>
                rw [hchild] at hread
                cases hread
            | some v =>
                rw [hchild, Option.bind_some,
                  pointer_flat (StepState.flat_of_child hchild hfield)] at hread
                cases hread

lemma state_of_reads (h : Straight ids id) (hids : ∀ key ∈ task.states.keys, key ∈ ids)
    {status : StepStatus} (hread : task.Reads id status) :
    ∃ s, task.states.get id = some s ∧ s.status = status := by
  obtain ⟨s, hs, htext⟩ := status_of_straight h hids hread
  exact ⟨s, hs, StepStatus.text_injective htext⟩

lemma reads_iff_of_plain (h : Plain id) {status : StepStatus} :
    task.Reads id status ↔ ∃ s, task.states.get id = some s ∧ s.status = status := by
  rw [Reads, stepStatus_of_plain h]
  cases task.states.get id with
  | none => simp
  | some s => simp [StepStatus.text_injective.eq_iff]

/-! ### A state is set -/

variable {set : StepState → StepState}

@[simp] lemma keys_setStep : (task.setStep id set).states.keys = task.states.keys :=
  keys_mapValues (fun key s => if key = id then set s else s) task.states

lemma get_setStep (other : String) : (task.setStep id set).states.get other =
    (task.states.get other).map fun s => if other = id then set s else s :=
  get_mapValues (fun key s => if key = id then set s else s) task.states other

lemma get_setStep_of_ne {other : String} (h : other ≠ id) :
    (task.setStep id set).states.get other = task.states.get other := by
  rw [get_setStep]
  cases task.states.get other with
  | none => rfl
  | some s => rw [Option.map_some, if_neg h]

lemma get_setStep_self :
    (task.setStep id set).states.get id = (task.states.get id).map set := by
  rw [get_setStep]
  cases task.states.get id with
  | none => rfl
  | some s => rw [Option.map_some, Option.map_some, if_pos rfl]

end Task

end DelegatedTask

end McpSurfaces
