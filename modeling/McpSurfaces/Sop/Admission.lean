import McpSurfaces.Sop.Handoffs

/-!
Admission of a run: the template that it is pinned to, the states of its steps at the
beginning, and the replay of an occurrence that was admitted before.
-/

namespace McpSurfaces

namespace Sop

open EventLedger (Digest)

variable [FloatText] [FloatRead] [Digest] [IsoTime] [JsonSchema]

/-! ### Templates -/

/-- The row of a version of a template. -/
def Store.template (s : Store) (sopId : String) (version : ℕ) : Option Template :=
  Table.row (fun t => (t.sopId, t.version)) s.templates (sopId, version)

/-- `latest_runnable_template_version`. -/
def Store.latestRunnableTemplateVersion (s : Store) (sopId : String) : Except Stop ℕ :=
  let versions := (s.templates.filter fun t => t.sopId = sopId ∧ t.status ≠ .deprecated).map
    (·.version)
  let latest := versions.foldl max 0
  if latest < 1 then .error (refusalOf "sop_no_active_version" sopId) else .ok latest

/-- `normalize_persisted_step`. -/
def normalizePersistedStep (s : TemplateStep) : Except Stop TemplateStep := do
  let id ← requiredText s.id "sop_step_requires_id" 128
  let title ← requiredText s.title "sop_step_requires_title" 512
  let instructions ← requiredText s.instructions "sop_step_requires_instructions" (16 * 1024)
  return { s with id, title, instructions }

/-- `hydrate_template`. -/
def hydrateTemplate (t : Template) : Except Stop Template := do
  let steps ← t.steps.mapM normalizePersistedStep
  validateStepGraph (steps.map fun s => (s.id, s.dependsOn))
  return { t with steps }

/-- `template_by_version`. -/
def Store.templateByVersion (s : Store) (sopId : String) (version : ℕ) : Except Stop Template :=
  match s.template sopId version with
  | none => .error (refusalOf "sop_not_found" (sopId ++ "@v" ++ toString version))
  | some t => hydrateTemplate t

/-- The version and the definition that a step of a child procedure is pinned to. -/
def Store.pinChild (s : Store) (step : TemplateStep) : Except Stop (ℕ × String) := do
  let childSopId ← requiredString (step.sopId.map .string) "sop_step_requires_child_sop_id" 256
  let version ← match step.sopVersion with
    | some version => .ok version
    | none => s.latestRunnableTemplateVersion childSopId
  let child ← s.templateByVersion childSopId version
  return (version, fingerprint child.definition)

/-- A step at the beginning of a run. -/
def initialStep (step : TemplateStep) (version : Option ℕ) (pinned : Option String) : StepState where
  stepId := step.id
  executor := step.executor
  title := step.title
  status := .pending
  dependsOn := step.dependsOn
  instructions := step.instructions
  when := step.when
  input := step.input
  inputRef := step.inputRef
  resultSchema := step.resultSchema
  action := step.action
  sopId := step.sopId
  sopVersion := version
  pinnedChildDefinitionFingerprint := pinned
  childRunId := none
  actionId := none
  startedAt := none
  completedAt := none
  result := []
  resultRef := .null
  completionKey := none
  completionFingerprint := none
  errorMessage := none

/-- `initialize_step_states`. -/
def Store.initializeStepStates (s : Store) (t : Template) : Except Stop (List StepState) :=
  t.steps.mapM fun step =>
    if step.executor = .sop then do
      let (version, pinned) ← s.pinChild step
      return initialStep step (some version) (some pinned)
    else return initialStep step step.sopVersion none

/-! ### Ancestors -/

/-- `assert_no_recursive_child`: no ancestor is a run of the child's procedure. The fuel is for
one ancestor after the other, which are different runs. -/
def assertNoRecursiveChild (childSopId : String) : ℕ → List String → Option String → Db Unit
  | _, _, none => return ()
  | 0, _, some _ => throw .crashed
  | fuel + 1, seen, some runId => do
      if runId ∈ seen then throw (refusalOf "sop_parent_chain_cycle" runId)
      let run ← getRun runId
      if run.sopId = childSopId then throw (refusalOf "sop_recursive_child_occurrence" childSopId)
      assertNoRecursiveChild childSopId fuel (runId :: seen) run.parentRunId

/-! ### Runs -/

/-- The identity of a new run: the second of its admission and eight random digits. -/
def newRunId (env : Env) (now sopId occurrenceKey : String) : String :=
  let stamp := (now.toList.filter fun c => c ≠ '-' ∧ c ≠ ':' ∧ c ≠ '.').take 15
  let digits := (env.uuid sopId occurrenceKey).toList.take 8
  "sop_run_" ++ String.ofList stamp ++ "_" ++ String.ofList digits

/-- What a run is admitted with. -/
structure Admission where
  sopId : String
  occurrenceKey : String
  triggeredBy : String
  triggerSourceKind : String
  triggerSourceRef : String
  input : Value
  inputRef : Value
  requested : Option ℕ
  parentRunId : Option String
  parentStepId : Option String

/-- The arguments of an admission. -/
def admissionOf (args : Map) (parentRunId parentStepId : Option String) :
    Except Stop Admission := do
  let sopId ← requiredString (args.get "sop_id") "sop_requires_sop_id" 256
  let occurrenceKey ← requiredString (args.get "occurrence_key") "sop_requires_occurrence_key" 512
  let triggeredBy ← requiredString (args.get "triggered_by") "sop_requires_triggered_by" 512
  let triggerSourceKind ← match given (args.get "trigger_source_kind") with
    | none => .ok "manual"
    | some v => requiredString (some v) "sop_requires_trigger_source_kind" 128
  let triggerSourceRef := (optionalString (args.get "trigger_source_ref")).getD ""
  if 2048 < triggerSourceRef.length then throw (refusal "sop_trigger_source_ref_too_long")
  let input := (args.get "input").getD (.object [])
  assertBound input "sop_input" maxInlineValueBytes
  if input.asObject = none then throw (refusal "sop_input_must_be_object")
  let inputRef ← normalizeValueRef (args.get "input_ref") "sop_input_ref"
  let requested ← match given (args.get "sop_version") with
    | none => .ok none
    | some v => match v.asI64 with
      | some (.ofNat (n + 1)) => .ok (some (n + 1))
      | _ => .error (refusal "sop_invalid_version")
  return { sopId, occurrenceKey, triggeredBy, triggerSourceKind, triggerSourceRef, input, inputRef
           requested, parentRunId, parentStepId }

/-- What the run is asked to do, under a version. -/
def Admission.request (a : Admission) (version : ℕ) : Value :=
  admissionRequest a.sopId version a.occurrenceKey a.input a.inputRef a.triggerSourceKind
    a.triggerSourceRef a.triggeredBy a.parentRunId a.parentStepId

/-- The run of an occurrence. -/
def Store.occurrence (s : Store) (sopId occurrenceKey : String) : Option Run :=
  Table.row (fun r => (r.sopId, r.occurrenceKey)) s.runs (sopId, occurrenceKey)

/-- The version of an admission: the one that is asked for, that of the occurrence, or the
latest. -/
def Store.admissionVersion (s : Store) (a : Admission) : Except Stop ℕ :=
  match a.requested, s.occurrence a.sopId a.occurrenceKey with
  | some version, _ => .ok version
  | none, some existing => .ok existing.sopVersion
  | none, none => s.latestRunnableTemplateVersion a.sopId

/-- A new run. -/
def newRun (env : Env) (a : Admission) (t : Template) (steps : List StepState) (now : String) :
    Run where
  runId := newRunId env now a.sopId a.occurrenceKey
  sopId := a.sopId
  sopVersion := t.version
  sopTitle := t.title
  status := .pending
  occurrenceKey := a.occurrenceKey
  requestFingerprint := fingerprint (a.request t.version)
  definitionFingerprint := fingerprint t.definition
  definition := column t.definition
  input := column a.input
  inputRef := column a.inputRef
  output := .object []
  outputRef := .null
  steps := steps.map StepState.reread
  triggerSourceKind := a.triggerSourceKind
  triggerSourceRef := a.triggerSourceRef
  triggeredBy := a.triggeredBy
  parentRunId := a.parentRunId
  parentStepId := a.parentStepId
  createdAt := now
  updatedAt := now
  completedAt := none

/-- The admission of an occurrence for the first time. -/
def admitNew (env : Env) (a : Admission) (t : Template) : Db Run := do
  if a.parentRunId ≠ none ∧ a.parentStepId ≠ none then
    assertNoRecursiveChild a.sopId ((← Work.store).runs.length + 1) [] a.parentRunId
  Work.ofExcept (assertBound t.definition "sop_definition" maxTemplateDefinitionBytes)
  let steps ← Work.ofExcept ((← Work.store).initializeStepStates t)
  Work.ofExcept (assertBound (stepsJson steps) "sop_run_state" maxRunStateBytes)
  let now ← Work.ofExcept (nowIso env)
  let run := newRun env a t steps now
  insertRun run
  getRun run.runId

/-- `admit_run`: the run of the occurrence, and whether it is new. -/
def admitRun (env : Env) (args : Map) (parentRunId parentStepId : Option String) :
    Db (Run × Bool) := do
  let a ← Work.ofExcept (admissionOf args parentRunId parentStepId)
  let s ← Work.store
  let version ← Work.ofExcept (s.admissionVersion a)
  let t ← Work.ofExcept (s.templateByVersion a.sopId version)
  Work.ofExcept (validateSchema t.inputSchema a.input "sop_input_schema_mismatch")
  match s.occurrence a.sopId a.occurrenceKey with
  | some row => do
      let existing ← Work.ofExcept (hydrateRun row)
      if existing.requestFingerprint ≠ fingerprint (a.request version) then
        throw (refusalOf "sop_occurrence_conflict" (a.sopId ++ ":" ++ a.occurrenceKey))
      return (existing, false)
  | none => return (← admitNew env a t, true)

end Sop

end McpSurfaces
