import McpSurfaces.DelegatedTask.Conditions

/-!
What is accepted as a workflow, and under what constraints its workers run.

* `normalizeWorkflow`: the steps of a workflow: those that are given, or those of a template.
* `normalizedConstraints`, `mergedStepConstraints`, `asynchronousWorkerConstraints`: the constraints
  that a worker is started with.
* `Sound`: steps with different ids, dependencies that are steps, and an order that they come in.
  **`sound_of_accepted`**: a workflow that nothing is said against is sound.
-/

namespace McpSurfaces

namespace DelegatedTask

/-! ### Templates -/

/-- A step of a template. -/
def templateStep (id kind milestone : String) (more : Map) : Value :=
  .object ([("id", .string id), ("kind", .string kind), ("milestone_id", .string milestone)] ++ more)

def after (ids : List String) : String × Value := ("depends_on", .array (ids.map .string))

def onlyIf (condition : String) : String × Value := ("if", .string condition)

def authorityGate (operation required : String) : String × Value :=
  ("authority_gate", .object [("operation", .string operation),
    ("mode", .string "requires_explicit_authority"), ("required_authority", .string required)])

/-- The fields that `assessment_output_schema` requires. -/
def assessmentRequired : List String :=
  ["dimensions", "first_actions", "reference_resolutions", "acceptance_mappings",
    "required_decisions", "findings", "assessment_result", "evaluator_provenance"]

/-- The steps of `workflow_templates` by their id. -/
def workflowTemplates : List (String × List Value) :=
  [("task_executability_assessment_v1",
      [templateStep "assessment" "worker" "assessment"
        [("profile", .string "shoshin-task-executability-v1"), ("write_set", .array []),
          ("constraints", .object [("authority", .string "read"), ("cognition", .string "low"),
            ("runtime", .string "narada-agent-runtime-server"), ("max_run_ms", .ofNat 300000),
            ("max_retries", .ofNat 0), ("max_concurrency", .ofNat 1),
            ("wait_for_completion", .bool false), ("resumable", .bool false),
            ("required_mcp_tools", .array []), ("preflight_paths", .array []),
            ("overrides", .object [("skip_git_repo_check", .bool true)])]),
          ("output_schema", .object [("name", .string "task_executability_assessment_v1"),
            ("required", .array (assessmentRequired.map .string))])]]),
    ("implement", [templateStep "implement" "worker" "implement" []]),
    ("implement_review",
      [templateStep "implement" "worker" "implement" [],
        templateStep "review" "review" "review" [after ["implement"]]]),
    ("research_synthesize",
      [templateStep "research" "research" "research" [],
        templateStep "synthesize" "worker" "synthesize" [after ["research"]],
        templateStep "review" "review" "synthesize" [after ["synthesize"]]]),
    ("implement_review_repair_verify",
      [templateStep "implement" "worker" "implement" [],
        templateStep "review" "review" "review" [after ["implement"]],
        templateStep "repair" "repair" "repair" [after ["review"], onlyIf "review_failed"],
        templateStep "verify" "verify" "verify" [after ["repair"]]]),
    ("commit_push_guarded",
      [templateStep "prepare" "worker" "prepare" [],
        templateStep "review" "review" "review" [after ["prepare"]],
        templateStep "commit-gate" "gate" "publication-gate" [after ["review"],
          onlyIf "all(step:review:completed,no_residual_risks)", authorityGate "commit" "write"],
        templateStep "push-gate" "gate" "publication-gate" [after ["commit-gate"],
          onlyIf "acceptance:passed", authorityGate "push" "command"]])]

/-- The steps of `normalize_workflow`. -/
def normalizeWorkflow (input : Option Value) : List Value :=
  let workflow := input.getD (.object [])
  match (workflow.get "steps").bind Value.asArray with
  | some steps => steps
  | none =>
      let strategy := (((workflow.get "template_id").or (workflow.get "strategy")).or
        (workflow.get "template")).bind Value.asStr
      match strategy.bind fun id => workflowTemplates.lookup id with
      | some steps => steps
      | none => [.object [("id", .string "primary"), ("kind", .string "worker")]]

/-- `initial_step_states`. -/
def initialStepStates (steps : List Value) : OrderedMap String StepState :=
  steps.foldl (fun states step => match Step.id? step with
    | some id => states.insert id (StepState.initial (Step.kind step))
    | none => states) []

/-! ### What is said against a workflow -/

def diagnostic (code : String) (fields : Map) : Value :=
  .object ([("severity", .string "error"), ("code", .string code)] ++ fields)

/-- Every step has an id, and no two have the same. -/
def idDiagnostics : List String → List Value → List Value
  | _, [] => []
  | seen, step :: rest =>
      match Step.id? step with
      | none => diagnostic "step_id_required" [] :: idDiagnostics seen rest
      | some id =>
          if id ∈ seen then
            diagnostic "duplicate_step_id" [("step_id", .string id)] :: idDiagnostics seen rest
          else idDiagnostics (id :: seen) rest

def stepKinds : List String :=
  ["worker", "review", "repair", "verify", "research", "gate", "join", "note"]

/-- What is said against one step. -/
def stepDiagnostics (ids : List String) (step : Value) : List Value :=
  match Step.id? step with
  | none => []
  | some id =>
      (if Step.kind step ∈ stepKinds then []
        else [diagnostic "workflow_policy_violation" [("step_id", .string id),
          ("kind", .string (Step.kind step))]]) ++
      (match Step.condition step with
        | some condition =>
            if validCondition condition.toList.length condition then []
            else [diagnostic "invalid_condition" [("step_id", .string id),
              ("condition", .string condition)]]
        | none => []) ++
      ((Step.dependsOn step).filter (· ∉ ids)).map fun dependency =>
        diagnostic "unknown_dependency" [("step_id", .string id),
          ("dependency", .string dependency)]

/-- A step whose dependencies are resolved is resolved. -/
def resolveStep (resolved : List String) (step : Value) : List String :=
  match Step.id? step with
  | none => resolved
  | some id =>
      if id ∈ resolved then resolved
      else if ∀ dependency ∈ Step.dependsOn step, dependency ∈ resolved then id :: resolved
      else resolved

/-- The steps are gone through until nothing is resolved any more. -/
def resolveSteps (steps : List Value) : ℕ → List String → List String
  | 0, resolved => resolved
  | rounds + 1, resolved =>
      let next := steps.foldl resolveStep resolved
      if next.length = resolved.length then next else resolveSteps steps rounds next

/-- `workflow_diagnostics`. A round that is not the last resolves a step. -/
def workflowDiagnostics (steps : List Value) : List Value :=
  idDiagnostics [] steps ++ steps.flatMap (stepDiagnostics (stepIds steps)) ++
    if (resolveSteps steps (steps.length + 1) []).length < (stepIds steps).dedup.length then
      [diagnostic "workflow_cycle" []]
    else []

/-! ### What is said against constraints -/

def constraintFields : List String :=
  ["authority", "cwd", "site_root", "provider", "profile", "cognition", "model", "sandbox",
    "runtime", "invocation_plan_ref", "skip_git_repo_check", "resumable", "wait_for_completion",
    "wait_timeout_ms", "max_run_ms", "queue_timeout_ms", "exit_interview", "max_concurrency",
    "max_retries", "repair_policy", "authority_gates", "required_mcp_tools", "preflight_paths",
    "overrides"]

def overrideFields : List String :=
  ["runtime", "sandbox", "model", "reasoning_effort", "config", "skip_git_repo_check"]

/-- A field whose value is no text, or a blank one. -/
def BlankText (value : Option Value) : Prop :=
  ((value.bind Value.asStr).map Str.trim).getD "" = ""

instance (value : Option Value) : Decidable (BlankText value) :=
  inferInstanceAs (Decidable (_ = _))

/-- The place of an item of a list. -/
def itemLocus (locus : String) (index : ℕ) : String :=
  locus ++ "[" ++ String.ofList (Nat.toDigits 10 index) ++ "]"

def preflightDiagnostics (locus : String) (item : Value) : List Value :=
  match item.asObject with
  | none => [diagnostic "constraint_preflight_path_must_be_object" [("locus", .string locus)]]
  | some _ =>
      (if BlankText (item.get "path") then
        [diagnostic "constraint_preflight_path_requires_path" [("locus", .string locus)]]
        else []) ++
      (if ((item.get "access").bind Value.asStr).any (· ∈ ["read", "write", "create"]) then []
        else [diagnostic "constraint_preflight_path_access_invalid" [("locus", .string locus)]])

/-- `constraint_diagnostics`. -/
def constraintDiagnostics (value : Option Value) (locus : String) : List Value :=
  match value with
  | none => []
  | some value =>
      match value.asObject with
      | none => [diagnostic "constraints_must_be_object" [("locus", .string locus)]]
      | some fields =>
          ((fields.keys.filter (· ∉ constraintFields)).map fun key =>
            diagnostic "unknown_constraint" [("locus", .string locus), ("field", .string key)]) ++
          (match fields.get "cognition" with
            | some cognition =>
                if cognition.asStr.any (· ∈ ["low", "medium", "high"]) then []
                else [diagnostic "constraint_cognition_invalid"
                  [("locus", .string (locus ++ ".cognition"))]]
            | none => []) ++
          (match fields.get "preflight_paths" with
            | some paths =>
                match paths.asArray with
                | some items => (items.mapIdx fun index item =>
                    preflightDiagnostics (itemLocus (locus ++ ".preflight_paths") index) item).flatten
                | none => [diagnostic "constraints_preflight_paths_must_be_array"
                    [("locus", .string (locus ++ ".preflight_paths"))]]
            | none => []) ++
          (match fields.get "required_mcp_tools" with
            | some tools =>
                match tools.asArray with
                | some items => (items.mapIdx fun index item =>
                    if BlankText (some item) then
                      [diagnostic "constraint_required_mcp_tool_invalid"
                        [("locus", .string (itemLocus (locus ++ ".required_mcp_tools") index))]]
                    else []).flatten
                | none => [diagnostic "constraints_required_mcp_tools_must_be_array"
                    [("locus", .string (locus ++ ".required_mcp_tools"))]]
            | none => []) ++
          (match fields.get "overrides" with
            | some overrides =>
                match overrides.asObject with
                | some fields => (fields.keys.filter (· ∉ overrideFields)).map fun key =>
                    diagnostic "unknown_constraint_override"
                      [("locus", .string (locus ++ ".overrides")), ("field", .string key)]
                | none => [diagnostic "constraints_overrides_must_be_object"
                    [("locus", .string (locus ++ ".overrides"))]]
            | none => [])

/-! ### The constraints of a worker -/

def defaultCognition : String := "low"

/-- `normalized_constraints`: a cognition that is missing or blank is the default. -/
def normalizedConstraints (value : Option Value) : Map :=
  let constraints := (value.bind Value.asObject).getD []
  if BlankText (constraints.get "cognition") then
    constraints.insert "cognition" (.string defaultCognition)
  else constraints

/-- One field of the constraints of a step. -/
def mergeField (target : Map) (field : String × Value) : Map :=
  if field.1 = "preflight_paths" ∧ field.2.asArray = some [] ∧
      ((target.get field.1).bind Value.asArray).any (· ≠ []) then target
  else target.insert field.1 field.2

/-- `merged_step_constraints`. -/
def mergedStepConstraints (constraints : Value) (step : Value) : Map :=
  let merged := normalizedConstraints (some constraints)
  match (step.get "constraints").bind Value.asObject with
  | none => merged
  | some fields => normalizedConstraints (some (.object (fields.foldl mergeField merged)))

/-- `asynchronous_worker_constraints`. -/
def asynchronousWorkerConstraints (constraints : Value) (step : Value) : Value :=
  .object (((mergedStepConstraints constraints step).insert "wait_for_completion"
    (.bool false)).swapRemove "wait_timeout_ms")

lemma get_normalizedConstraints {value : Option Value} {key : String} (hkey : key ≠ "cognition") :
    OrderedMap.get (normalizedConstraints value) key =
      ((value.bind Value.asObject).getD []).get key := by
  unfold normalizedConstraints
  dsimp only
  split
  · rw [OrderedMap.get_insert, if_neg hkey.symm]
  · rfl

lemma get_object_normalized (constraints : Value) {key : String} (hkey : key ≠ "cognition") :
    (Value.object (normalizedConstraints (some constraints))).get key = constraints.get key := by
  show OrderedMap.get (normalizedConstraints (some constraints)) key = _
  rw [get_normalizedConstraints hkey]
  cases constraints <;> rfl

/-! ### Sound workflows -/

/-- Every step has an id of its own, depends on steps, and comes behind them in some order. -/
structure Sound (steps : List Value) : Prop where
  named : ∀ step ∈ steps, (Step.id? step).isSome
  distinct : (stepIds steps).Nodup
  known : ∀ step ∈ steps, ∀ dependency ∈ Step.dependsOn step, dependency ∈ stepIds steps
  ordered : ∃ rank : String → ℕ, ∀ step ∈ steps, ∀ id ∈ Step.id? step,
    ∀ dependency ∈ Step.dependsOn step, rank dependency < rank id

section Accepted

variable {steps : List Value}

lemma mem_stepIds {id : String} : id ∈ stepIds steps ↔ ∃ step ∈ steps, Step.id? step = some id :=
  List.mem_filterMap

/-- Steps with the same id are the same. -/
lemma eq_of_id? (h : (stepIds steps).Nodup) {step other : Value} (hstep : step ∈ steps)
    (hother : other ∈ steps) {id : String} (hid : Step.id? step = some id)
    (hsame : Step.id? other = some id) : step = other := by
  induction steps with
  | nil => cases hstep
  | cons first rest ih =>
      have hfirst : Step.id? first = some id → id ∉ stepIds rest := fun hf => by
        rw [stepIds, List.filterMap_cons_some hf, List.nodup_cons] at h
        exact h.1
      have hrest : (stepIds rest).Nodup := h.sublist ((List.sublist_cons_self _ _).filterMap _)
      rcases List.mem_cons.mp hstep with rfl | hstep' <;>
        rcases List.mem_cons.mp hother with rfl | hother'
      · rfl
      · exact absurd (mem_stepIds.mpr ⟨other, hother', hsame⟩) (hfirst hid)
      · exact absurd (mem_stepIds.mpr ⟨step, hstep', hid⟩) (hfirst hsame)
      · exact ih hrest hstep' hother'

lemma named_of_idDiagnostics {seen : List String} (h : idDiagnostics seen steps = []) :
    (∀ step ∈ steps, (Step.id? step).isSome) ∧ (stepIds steps).Nodup ∧
      ∀ id ∈ stepIds steps, id ∉ seen := by
  induction steps generalizing seen with
  | nil => exact ⟨fun _ hmem => absurd hmem List.not_mem_nil, List.nodup_nil,
      fun _ hmem => absurd hmem List.not_mem_nil⟩
  | cons step rest ih =>
      rw [idDiagnostics] at h
      cases hid : Step.id? step with
      | none =>
          rw [hid] at h
          cases h
      | some id =>
          rw [hid] at h
          dsimp only at h
          split at h
          · cases h
          · next hfree =>
              obtain ⟨hnamed, hnodup, hseen⟩ := ih h
              have hids : stepIds (step :: rest) = id :: stepIds rest :=
                List.filterMap_cons_some hid
              rw [hids]
              refine ⟨?_, List.nodup_cons.mpr ⟨fun hmem => ?_, hnodup⟩, fun other hother => ?_⟩
              · intro other hother
                rcases List.mem_cons.mp hother with rfl | hother
                · rw [hid]
                  rfl
                · exact hnamed other hother
              · exact hseen id hmem List.mem_cons_self
              · rcases List.mem_cons.mp hother with rfl | hother
                · exact hfree
                · exact fun hmem => hseen other hother (List.mem_cons_of_mem _ hmem)

/-- What is resolved comes behind what it depends on. -/
inductive Founded (steps : List Value) : List String → Prop
  | nil : Founded steps []
  | cons {id : String} {resolved : List String} (h : Founded steps resolved)
      (hid : id ∈ stepIds steps) (hnew : id ∉ resolved)
      (hafter : ∀ step ∈ steps, Step.id? step = some id →
        ∀ dependency ∈ Step.dependsOn step, dependency ∈ resolved) :
      Founded steps (id :: resolved)

lemma Founded.resolveStep (hnodup : (stepIds steps).Nodup) {resolved : List String}
    (h : Founded steps resolved) {step : Value} (hstep : step ∈ steps) :
    Founded steps (DelegatedTask.resolveStep resolved step) := by
  unfold DelegatedTask.resolveStep
  split
  · exact h
  · next id hid =>
      split_ifs with hthere hdeps
      · exact h
      · refine h.cons (mem_stepIds.mpr ⟨step, hstep, hid⟩) hthere fun other hother hsame => ?_
        rw [← eq_of_id? hnodup hstep hother hid hsame]
        exact hdeps
      · exact h

lemma Founded.round (hnodup : (stepIds steps).Nodup) {resolved : List String}
    (h : Founded steps resolved) {some : List Value} (hsome : some ⊆ steps) :
    Founded steps (some.foldl DelegatedTask.resolveStep resolved) := by
  induction some generalizing resolved with
  | nil => exact h
  | cons step rest ih =>
      exact ih (h.resolveStep hnodup (hsome List.mem_cons_self))
        fun _ hmem => hsome (List.mem_cons_of_mem _ hmem)

lemma Founded.resolveSteps (hnodup : (stepIds steps).Nodup) (rounds : ℕ) {resolved : List String}
    (h : Founded steps resolved) :
    Founded steps (DelegatedTask.resolveSteps steps rounds resolved) := by
  induction rounds generalizing resolved with
  | zero => exact h
  | succ rounds ih =>
      have hnext := h.round hnodup (List.Subset.refl steps)
      rw [DelegatedTask.resolveSteps]
      split
      · exact hnext
      · exact ih hnext

lemma Founded.nodup {resolved : List String} (h : Founded steps resolved) : resolved.Nodup := by
  induction h with
  | nil => exact List.nodup_nil
  | cons _ _ hnew _ ih => exact List.nodup_cons.mpr ⟨hnew, ih⟩

lemma Founded.subset {resolved : List String} (h : Founded steps resolved) :
    resolved ⊆ stepIds steps := by
  induction h with
  | nil => exact List.nil_subset _
  | cons _ hid _ _ ih => exact List.cons_subset.mpr ⟨hid, ih⟩

lemma Founded.rank {resolved : List String} (h : Founded steps resolved) :
    ∃ rank : String → ℕ, (∀ id ∈ resolved, rank id < resolved.length) ∧
      ∀ step ∈ steps, ∀ id ∈ Step.id? step, id ∈ resolved →
        ∀ dependency ∈ Step.dependsOn step, dependency ∈ resolved ∧ rank dependency < rank id := by
  induction h with
  | nil => exact ⟨fun _ => 0, fun _ hmem => absurd hmem List.not_mem_nil,
      fun _ _ _ _ hmem => absurd hmem List.not_mem_nil⟩
  | @cons new resolved _ _ hnew hafter ih =>
      obtain ⟨rank, hbound, hrank⟩ := ih
      let later := fun id => if id = new then resolved.length else rank id
      have hkept : ∀ id ∈ resolved, later id = rank id := fun id hid =>
        if_neg fun heq : id = new => hnew (heq ▸ hid)
      have hlast : later new = resolved.length := if_pos rfl
      refine ⟨later, fun id hid => ?_, fun step hstep id hid hmem dependency hdep => ?_⟩
      · rw [List.length_cons]
        rcases List.mem_cons.mp hid with rfl | hid
        · rw [hlast]
          omega
        · have hold := hbound id hid
          rw [hkept id hid]
          omega
      · rcases List.mem_cons.mp hmem with rfl | hmem
        · have hold := hafter step hstep hid dependency hdep
          rw [hlast, hkept dependency hold]
          exact ⟨List.mem_cons_of_mem _ hold, hbound dependency hold⟩
        · obtain ⟨hold, hless⟩ := hrank step hstep id hid hmem dependency hdep
          rw [hkept dependency hold, hkept id hmem]
          exact ⟨List.mem_cons_of_mem _ hold, hless⟩

/-- **A workflow that nothing is said against is sound.** -/
theorem sound_of_accepted (h : workflowDiagnostics steps = []) : Sound steps := by
  obtain ⟨hrest, hcycle⟩ := List.append_eq_nil_iff.mp h
  obtain ⟨hids, hsteps⟩ := List.append_eq_nil_iff.mp hrest
  obtain ⟨hnamed, hdistinct, -⟩ := named_of_idDiagnostics hids
  have hfounded := Founded.resolveSteps hdistinct (steps.length + 1) Founded.nil
  have hall : stepIds steps ⊆ resolveSteps steps (steps.length + 1) [] := by
    split at hcycle
    · cases hcycle
    · next hlong =>
        rw [hdistinct.dedup, not_lt] at hlong
        have hsub : (resolveSteps steps (steps.length + 1) []).Subperm (stepIds steps) :=
          hfounded.nodup.subperm hfounded.subset
        exact (hsub.perm_of_length_le hlong).symm.subset
  obtain ⟨rank, -, hrank⟩ := hfounded.rank
  refine ⟨hnamed, hdistinct, fun step hstep dependency hdep => ?_, rank,
    fun step hstep id hid dependency hdep =>
      (hrank step hstep id hid (hall (mem_stepIds.mpr ⟨step, hstep, hid⟩)) dependency hdep).2⟩
  by_contra hunknown
  obtain ⟨id, hid⟩ := Option.isSome_iff_exists.mp (hnamed step hstep)
  have hnone := List.flatMap_eq_nil_iff.mp hsteps step hstep
  rw [stepDiagnostics, hid] at hnone
  obtain ⟨-, hdeps⟩ := List.append_eq_nil_iff.mp hnone
  have hmem : dependency ∈ (Step.dependsOn step).filter (· ∉ stepIds steps) :=
    List.mem_filter.mpr ⟨hdep, decide_eq_true hunknown⟩
  rw [List.map_eq_nil_iff.mp hdeps] at hmem
  cases hmem

/-! ### The states at the beginning -/

lemma keys_initialStepStates (h : (stepIds steps).Nodup) :
    (initialStepStates steps).keys = stepIds steps ∧
      ∀ id s, (initialStepStates steps).get id = some s →
        ∃ step ∈ steps, Step.id? step = some id ∧ s = StepState.initial (Step.kind step) := by
  have hfold : ∀ (rest : List Value) (states : OrderedMap String StepState),
      (states.keys ++ stepIds rest).Nodup →
      (rest.foldl (fun states step => match Step.id? step with
        | some id => states.insert id (StepState.initial (Step.kind step))
        | none => states) states).keys = states.keys ++ stepIds rest ∧
      ∀ id s, (rest.foldl (fun states step => match Step.id? step with
        | some id => states.insert id (StepState.initial (Step.kind step))
        | none => states) states).get id = some s → states.get id = some s ∨
          ∃ step ∈ rest, Step.id? step = some id ∧ s = StepState.initial (Step.kind step) := by
    intro rest
    induction rest with
    | nil => exact fun states _ => ⟨(List.append_nil _).symm, fun _ _ hs => .inl hs⟩
    | cons step rest ih =>
        intro states hnodup
        rw [List.foldl_cons]
        cases hid : Step.id? step with
        | none =>
            have hrest : stepIds (step :: rest) = stepIds rest := List.filterMap_cons_none hid
            rw [hrest] at hnodup ⊢
            obtain ⟨hkeys, hget⟩ := ih states hnodup
            refine ⟨hkeys, fun id s hs => (hget id s hs).imp_right ?_⟩
            rintro ⟨other, hother, found⟩
            exact ⟨other, List.mem_cons_of_mem _ hother, found⟩
        | some id =>
            have hrest : stepIds (step :: rest) = id :: stepIds rest :=
              List.filterMap_cons_some hid
            rw [hrest] at hnodup ⊢
            have hnew : id ∉ states.keys := fun hmem =>
              (List.nodup_append.mp hnodup).2.2 id hmem id List.mem_cons_self rfl
            have hkeys : (states.insert id (StepState.initial (Step.kind step))).keys =
                states.keys ++ [id] := by
              rw [OrderedMap.keys_insert, if_neg hnew]
            obtain ⟨hall, hget⟩ := ih (states.insert id (StepState.initial (Step.kind step))) (by
              rw [hkeys, List.append_assoc]
              exact hnodup)
            refine ⟨by rw [hall, hkeys, List.append_assoc]; rfl, fun other s hs => ?_⟩
            rcases hget other s hs with hold | ⟨found, hfound, hother⟩
            · rw [OrderedMap.get_insert] at hold
              split at hold
              · next heq =>
                  subst heq
                  exact .inr ⟨step, List.mem_cons_self, hid, (Option.some.inj hold).symm⟩
              · exact .inl hold
            · exact .inr ⟨found, List.mem_cons_of_mem _ hfound, hother⟩
  obtain ⟨hkeys, hget⟩ := hfold steps [] h
  refine ⟨hkeys, fun id s hs => (hget id s hs).resolve_left ?_⟩
  exact fun hnone => by cases hnone

end Accepted

end DelegatedTask

end McpSurfaces
