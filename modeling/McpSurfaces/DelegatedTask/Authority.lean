import McpSurfaces.DelegatedTask.Runs

/-!
What authority workers are started with.

* `Modest`: the steps of a task that is accepted carry no authority above those of its dependencies.
* `Unescalated`: no worker is started above a task that its task depends on, directly or through
  others. **`unescalated_of_modest`**: so it is in every run whose acceptances are modest.
* `escalated_by_step`: a step with an authority of its own is started above a dependency.
-/

namespace McpSurfaces

namespace DelegatedTask

open Calls (run Each)

variable {n : ℕ} {fields : Map} {task next : Task}

/-! ### Constraints -/

/-- No authority of constraints is above a rank. -/
def Within (n : ℕ) (fields : Map) : Prop :=
  ∀ value, ("authority", value) ∈ fields → authorityRank value.asStr ≤ n

lemma rankOf_le (h : Within n fields) : rankOf (.object fields) ≤ n := by
  have hget : (Value.object fields).get "authority" = OrderedMap.get fields "authority" := rfl
  rw [rankOf, hget]
  cases hvalue : OrderedMap.get fields "authority" with
  | none => exact Nat.zero_le n
  | some value => exact h value (OrderedMap.mem_of_get hvalue)

/-- Where no key is there twice, the authority that is read is the only one. -/
lemma within_of_rankOf (hkeys : (OrderedMap.keys fields).Nodup) (h : rankOf (.object fields) ≤ n) :
    Within n fields := by
  intro value hmem
  have hget : (Value.object fields).get "authority" = some value :=
    OrderedMap.get_of_mem hkeys hmem
  rwa [rankOf, hget] at h

lemma Within.insert (h : Within n fields) {key : String} {value : Value}
    (hvalue : key = "authority" → authorityRank value.asStr ≤ n) :
    Within n (OrderedMap.insert fields key value) := by
  intro other hmem
  rcases OrderedMap.mem_insert hmem with heq | hold
  · cases heq
    exact hvalue rfl
  · exact h other hold

lemma Within.normalized {value : Option Value}
    (h : Within n ((value.bind Value.asObject).getD [])) : Within n (normalizedConstraints value) := by
  unfold normalizedConstraints
  dsimp only
  split
  · exact h.insert fun hkey => absurd hkey (by decide)
  · exact h

lemma Within.merged {target : Map} (h : Within n target) (hfields : Within n fields) :
    Within n (fields.foldl mergeField target) := by
  induction fields generalizing target with
  | nil => exact h
  | cons field rest ih =>
      have hrest : Within n rest := fun value hmem => hfields value (List.mem_cons_of_mem _ hmem)
      have hfirst : Within n (mergeField target field) := by
        unfold mergeField
        split
        · exact h
        · exact h.insert fun hkey => hfields field.2 (hkey ▸ List.mem_cons_self)
      exact ih hfirst hrest

/-- The constraints of a step. -/
def stepConstraints (step : Value) : Map := ((step.get "constraints").bind Value.asObject).getD []

/-- No authority of a task, or of its steps that workers are started for, is above a rank. -/
structure Under (n : ℕ) (task : Task) : Prop where
  own : Within n (task.constraints.asObject.getD [])
  steps : ∀ step ∈ task.steps, ¬ Step.Local step → Within n (stepConstraints step)

/-- No worker is started for the steps above that rank. -/
lemma rankOf_launch {step : Value} (h : Under n task) (hstep : step ∈ task.steps)
    (hlocal : ¬ Step.Local step) : rankOf (asynchronousWorkerConstraints task.constraints step) ≤ n := by
  have htask : Within n (normalizedConstraints (some task.constraints)) := Within.normalized h.own
  have hmerged : Within n (mergedStepConstraints task.constraints step) := by
    have hfields := h.steps step hstep hlocal
    unfold mergedStepConstraints
    rw [stepConstraints] at hfields
    cases hconstraints : (step.get "constraints").bind Value.asObject with
    | none => exact htask
    | some fields =>
        rw [hconstraints] at hfields
        exact Within.normalized (htask.merged hfields)
  refine rankOf_le fun value hmem => ?_
  exact hmerged.insert (fun hkey => absurd hkey (by decide)) value (OrderedMap.mem_swapRemove hmem)

lemma rankOf_normalize (task : Task) :
    rankOf (normalizePersistedConstraints task).constraints = rankOf task.constraints := by
  have hget := get_object_normalized task.constraints (show "authority" ≠ "cognition" by decide)
  rw [rankOf, normalizePersistedConstraints, hget, rankOf]

lemma Under.rank (h : Under n task) : rankOf task.constraints ≤ n := by
  rw [← rankOf_normalize]
  exact rankOf_le (Within.normalized h.own)

lemma Under.normalize (h : Under n task) : Under n (normalizePersistedConstraints task) where
  own := Within.normalized h.own
  steps step hstep hlocal := by
    obtain ⟨old, hold, rfl⟩ := List.mem_map.mp hstep
    rw [Step.Local, kind_normalizeStep] at hlocal
    have hfields := h.steps old hold hlocal
    unfold normalizeStep
    split
    · next fields constraints hconstraints =>
        have hnew : stepConstraints (.object (OrderedMap.insert fields "constraints"
            (.object (normalizedConstraints (some constraints))))) =
            normalizedConstraints (some constraints) := by
          show (((OrderedMap.insert fields "constraints" _).get "constraints").bind
            Value.asObject).getD [] = _
          rw [OrderedMap.get_insert_self]
          rfl
        rw [hnew]
        rw [stepConstraints, hconstraints] at hfields
        exact Within.normalized hfields
    · exact hfields

lemma Under.congr (h : Under n task) (hconstraints : next.constraints = task.constraints)
    (hsteps : next.steps = task.steps) : Under n next where
  own := hconstraints ▸ h.own
  steps := hsteps ▸ h.steps

/-! ### Passes -/

section Passes

variable [RecordSize] {env : Env} {db : Records} {launches : List Launch}

/-- A part of a pass keeps what is under a rank there, and starts no worker above it. -/
lemma Move.under (hmove : Move env db task launches next) (h : Under n task) :
    Under n next ∧ ∀ launch ∈ launches, rankOf launch.constraints ≤ n := by
  cases hmove with
  | normalizes => exact ⟨h.normalize, fun _ hmem => nomatch hmem⟩
  | obstructed blocked => exact ⟨h.congr rfl rfl, fun _ hmem => nomatch hmem⟩
  | waits => exact ⟨h.congr rfl rfl, fun _ hmem => nomatch hmem⟩
  | unsupplied => exact ⟨h.congr rfl rfl, fun _ hmem => nomatch hmem⟩
  | resolves => exact ⟨h.congr rfl rfl, fun _ hmem => nomatch hmem⟩
  | polled id answer =>
      have hsame := sameTask_settleWorker env task id (currentRun task id) answer
      exact ⟨h.congr hsame.constraints hsame.steps, fun _ hmem => nomatch hmem⟩
  | reviewed => exact ⟨h.congr rfl rfl, fun _ hmem => nomatch hmem⟩
  | settled next step hstep hsettle =>
      have hsame := sameTask_settleStep hsettle
      exact ⟨h.congr hsame.constraints hsame.steps, fun _ hmem => nomatch hmem⟩
  | started before id step run hstep hid hready hsteps hkeys hstate hkind =>
      refine ⟨h.congr rfl rfl, fun launch hmem => ?_⟩
      rw [List.mem_singleton.mp hmem]
      exact rankOf_launch h hstep hkind
  | finished =>
      have hsame := sameTask_finish env task
      exact ⟨h.congr hsame.constraints hsame.steps, fun _ hmem => nomatch hmem⟩

lemma Moves.under (hmoves : Moves env db task launches next) (h : Under n task) :
    Under n next ∧ ∀ launch ∈ launches, rankOf launch.constraints ≤ n := by
  induction hmoves with
  | refl => exact ⟨h, fun _ hmem => nomatch hmem⟩
  | tail _ hmove ih =>
      obtain ⟨hnext, hfew⟩ := hmove.under ih.1
      exact ⟨hnext, fun launch hmem => (List.mem_append.mp hmem).elim (ih.2 launch) (hfew launch)⟩

lemma Move.rank (hmove : Move env db task launches next) :
    rankOf next.constraints = rankOf task.constraints := by
  cases hmove with
  | normalizes => exact rankOf_normalize task
  | polled id answer =>
      rw [(sameTask_settleWorker env task id (currentRun task id) answer).constraints]
  | settled next step hstep hsettle => rw [(sameTask_settleStep hsettle).constraints]
  | finished => rw [(sameTask_finish env task).constraints]
  | obstructed => rfl
  | waits => rfl
  | unsupplied => rfl
  | resolves => rfl
  | reviewed => rfl
  | started => rfl

lemma Moves.rank (hmoves : Moves env db task launches next) :
    rankOf next.constraints = rankOf task.constraints := by
  induction hmoves with
  | refl => rfl
  | tail _ hmove ih => rw [hmove.rank, ih]

/-- Workers are started only where all dependencies are completed. -/
lemma resolved_of_launch (hmoves : Moves env db task launches next) {launch : Launch}
    (hmem : launch ∈ launches) : Resolved db task := by
  induction hmoves with
  | refl => cases hmem
  | tail hbefore hmove ih =>
      rcases List.mem_append.mp hmem with hold | hnew
      · exact ih hold
      · cases hmove with
        | started before id step run hstep hid hready hsteps hkeys hstate hkind hrun hopen hres =>
            rw [Resolved, ← hbefore.shape.dependsOnTaskIds]
            exact hres
        | _ => cases hnew

/-- A task becomes completed only where all its dependencies are. -/
lemma completed_of_advance (h : advance env db task = (.ok next, launches))
    (hcompleted : next.status = .completed) : task.status = .completed ∨ Resolved db task := by
  rcases advance_cases h with ⟨-, rfl, -⟩ | ⟨-, hgate, -⟩ | ⟨-, gated, polled, hgate, -⟩
  · exact .inl hcompleted
  · rcases gate_cases hgate with ⟨hgoes, -⟩ | ⟨-, -, blocked, rfl⟩ | ⟨-, -, rfl⟩ | ⟨-, -, -, -, rfl⟩
    · cases hgoes
    · cases hcompleted
    · exact .inl hcompleted
    · cases hcompleted
  · rcases gate_cases hgate with ⟨-, hres, -⟩ | ⟨hgoes, -⟩ | ⟨hgoes, -⟩ | ⟨hgoes, -⟩
    · exact .inr hres
    · cases hgoes
    · cases hgoes
    · cases hgoes

/-! ### Acceptances -/

/-- The steps of a task that workers are started for carry no authority above those of its
dependencies. -/
def Modest (db : Records) (args : Value) (task : Task) : Prop :=
  args.Distinct ∧ ∀ id ∈ task.dependsOnTaskIds, ∀ other, readTask db id = .ok other →
    ∀ step ∈ task.steps, ¬ Step.Local step → Within (rankOf other.constraints) (stepConstraints step)

lemma dependencies_of_accepted {taskId : String} {rank : ℕ} {unique ids : List String}
    (h : dependencyDiagnostics db taskId rank unique ids = []) :
    ∀ id ∈ ids, ∃ other, Table.row Task.taskId db id = some other ∧
      ∀ same, readTask db id = .ok same → rank ≤ rankOf same.constraints := by
  induction ids generalizing unique with
  | nil => exact fun id hid => nomatch hid
  | cons first rest ih =>
      rw [dependencyDiagnostics] at h
      split at h
      · cases h
      · split at h
        · cases h
        · split at h
          · cases h
          · obtain ⟨hfirst, hrest⟩ := List.append_eq_nil_iff.mp h
            intro id hid
            rcases List.mem_cons.mp hid with rfl | hmem
            · split at hfirst
              · cases hfirst
              · next hthere =>
                  rw [Option.isNone_iff_eq_none] at hthere
                  obtain ⟨other, hother⟩ := Option.ne_none_iff_exists'.mp hthere
                  refine ⟨other, hother, fun same hsame => ?_⟩
                  rw [hsame] at hfirst
                  dsimp only at hfirst
                  by_contra habove
                  rw [if_pos (not_le.mp habove)] at hfirst
                  cases (List.append_eq_nil_iff.mp hfirst).2
            · exact ih hrest id hmem

omit [RecordSize] in
lemma distinct_of_mem {fields : Map} (h : Value.DistinctFields fields) {key : String} {value : Value}
    (hmem : (key, value) ∈ fields) : value.Distinct := by
  induction fields with
  | nil => cases hmem
  | cons field rest ih =>
      rcases List.mem_cons.mp hmem with rfl | hmem
      · exact h.1
      · exact ih h.2 hmem

omit [RecordSize] in
/-- The constraints that a task is given have no key twice. -/
lemma nodup_constraints {args : Value} (h : args.Distinct) :
    (OrderedMap.keys (((args.get "constraints").bind Value.asObject).getD [])).Nodup := by
  cases hget : args.get "constraints" with
  | none => exact List.nodup_nil
  | some value =>
      cases args with
      | object fields =>
          have hvalue := distinct_of_mem h.2 (OrderedMap.mem_of_get hget)
          cases value with
          | object inner => exact hvalue.1
          | _ => exact List.nodup_nil
      | _ => cases hget

/-- The dependencies of a task that is accepted are there, and none that can be read is below it. -/
lemma dependencies_of_created {args : Value} (hcreated : created env db args = .ok task)
    {id : String} (hid : id ∈ task.dependsOnTaskIds) :
    ∃ other, Table.row Task.taskId db id = some other ∧ ∀ same, readTask db id = .ok same →
      rankOf ((args.get "constraints").getD .null) ≤ rankOf same.constraints := by
  obtain ⟨objective, hnew, hnone⟩ := created_ok hcreated
  unfold validateDiagnostics externalDependencyDiagnostics at hnone
  simp only [List.append_eq_nil_iff] at hnone
  obtain ⟨-, ⟨-, hdependencies⟩, -⟩ := hnone
  rw [hnew] at hid
  exact dependencies_of_accepted hdependencies id hid

/-- A task that is accepted is under each of its dependencies that can be read. -/
lemma under_of_created {args : Value} (hcreated : created env db args = .ok task)
    (hmodest : Modest db args task) {id : String} (hid : id ∈ task.dependsOnTaskIds) {same : Task}
    (hsame : readTask db id = .ok same) : Under (rankOf same.constraints) task := by
  obtain ⟨other, -, hrank⟩ := dependencies_of_created hcreated hid
  refine ⟨?_, hmodest.2 id hid same hsame⟩
  have hconstraints : task.constraints.asObject.getD [] =
      normalizedConstraints (args.get "constraints") := by
    obtain ⟨objective, hnew, -⟩ := created_ok hcreated
    rw [hnew]
    rfl
  have hobject : rankOf (.object (((args.get "constraints").bind Value.asObject).getD [])) =
      rankOf ((args.get "constraints").getD .null) := by
    cases args.get "constraints" with
    | none => rfl
    | some value => cases value <;> rfl
  rw [hconstraints]
  refine Within.normalized (within_of_rankOf (nodup_constraints hmodest.1) ?_)
  rw [hobject]
  exact hrank same hsame

/-! ### Runs -/

/-- A task depends on another. -/
def DependsOn (db : Records) (id other : String) : Prop :=
  ∃ task ∈ db, task.taskId = id ∧ other ∈ task.dependsOnTaskIds

/-- No worker is started above a task that its task depends on, directly or through others. -/
def Unescalated (w : World) : Prop :=
  ∀ e ∈ w.started, ∀ other ∈ w.tasks, Relation.TransGen (DependsOn w.tasks) e.1 other.taskId →
    rankOf e.2.constraints ≤ rankOf other.constraints

def Readable (task : Task) : Prop := RecordSize.record task ≤ maxFileBytes

/-- Every task is under its dependencies, but for those that cannot be read; those of a task that is
completed, or that workers were started for, are completed; and no worker is above them. -/
structure Bounded (w : World) : Prop extends Filed w where
  admitted : ∀ task ∈ w.tasks, ∀ id ∈ task.dependsOnTaskIds, ∃ other ∈ w.tasks,
    other.taskId = id ∧ (Readable other → Under (rankOf other.constraints) task)
  met : ∀ task ∈ w.tasks, (task.status = .completed ∨ ∃ e ∈ w.started, e.1 = task.taskId) →
    ∀ id ∈ task.dependsOnTaskIds, ∃ other ∈ w.tasks, other.taskId = id ∧
      other.status = .completed ∧ Under (rankOf other.constraints) task
  launched : ∀ e ∈ w.started, ∀ task ∈ w.tasks, task.taskId = e.1 → ∀ id ∈ task.dependsOnTaskIds,
    ∀ other ∈ w.tasks, other.taskId = id → rankOf e.2.constraints ≤ rankOf other.constraints

lemma bounded_empty : Bounded World.empty where
  toFiled := filed_empty
  admitted _ htask := absurd htask List.not_mem_nil
  met _ htask := absurd htask List.not_mem_nil
  launched _ he := absurd he List.not_mem_nil

variable {w w' : World}

/-- Along a chain of dependencies of a task with a worker all tasks are completed and above it. -/
lemma Bounded.unescalated (h : Bounded w) : Unescalated w := by
  intro e he other hother hchain
  have hall : ∀ id, Relation.TransGen (DependsOn w.tasks) e.1 id → ∃ found ∈ w.tasks,
      found.taskId = id ∧ found.status = .completed ∧
        rankOf e.2.constraints ≤ rankOf found.constraints := by
    intro id hchain
    induction hchain with
    | single hdirect =>
        obtain ⟨task, htask, htaskId, hdep⟩ := hdirect
        obtain ⟨found, hfound, hfoundId, hcompleted, -⟩ :=
          h.met task htask (.inr ⟨e, he, htaskId.symm⟩) _ hdep
        exact ⟨found, hfound, hfoundId, hcompleted,
          h.launched e he task htask htaskId _ hdep found hfound hfoundId⟩
    | tail _ hnext ih =>
        obtain ⟨before, hbefore, hbeforeId, hdone, hrank⟩ := ih
        obtain ⟨task, htask, htaskId, hdep⟩ := hnext
        cases List.inj_on_of_nodup_map h.ids htask hbefore (htaskId.trans hbeforeId.symm)
        obtain ⟨found, hfound, hfoundId, hcompleted, hunder⟩ := h.met _ hbefore (.inl hdone) _ hdep
        exact ⟨found, hfound, hfoundId, hcompleted, hrank.trans hunder.rank⟩
  obtain ⟨found, hfound, hfoundId, -, hrank⟩ := hall other.taskId hchain
  cases List.inj_on_of_nodup_map h.ids hfound hother hfoundId
  exact hrank

/-- What a pass or a cancellation makes of the records, and the workers that it starts. -/
structure Revised (task : Task) (w w' : World) : Prop where
  forth : ∀ other ∈ w.tasks, ∃ now ∈ w'.tasks, now.taskId = other.taskId ∧
    rankOf now.constraints = rankOf other.constraints ∧
    (other.status = .completed → now.status = .completed) ∧
    (other.taskId ≠ task.taskId → now = other)
  back : ∀ now ∈ w'.tasks, ∃ other ∈ w.tasks, other.taskId = now.taskId ∧
    now.dependsOnTaskIds = other.dependsOnTaskIds ∧ (∀ n, Under n other → Under n now) ∧
    (now.status = .completed → other.status = .completed ∨
      other.taskId = task.taskId ∧ Resolved w.tasks task)
  started : ∀ e ∈ w'.started, e ∈ w.started ∨ e.1 = task.taskId ∧ Resolved w.tasks task ∧
    ∀ n, Under n task → rankOf e.2.constraints ≤ n

/-- The records that a task depends on, where all of them are completed. -/
lemma Bounded.resolved (h : Bounded w) (htask : task ∈ w.tasks) (hres : Resolved w.tasks task)
    {id : String} (hid : id ∈ task.dependsOnTaskIds) : ∃ other ∈ w.tasks, other.taskId = id ∧
      other.status = .completed ∧ Under (rankOf other.constraints) task := by
  obtain ⟨other, hread, hcompleted⟩ := hres id hid
  obtain ⟨hother, hotherId⟩ := mem_of_readTask hread
  obtain ⟨same, hsame, hsameId, hunder⟩ := h.admitted task htask id hid
  cases List.inj_on_of_nodup_map h.ids hother hsame (hotherId.trans hsameId.symm)
  exact ⟨_, hother, hotherId, hcompleted, hunder (readable_of_readTask hread)⟩

/-- A task that can be read, or that none depends on, is passed or cancelled. -/
lemma Bounded.revise (h : Bounded w) (hfiled : Filed w') (htask : task ∈ w.tasks)
    (hread : Readable task ∨ ∀ other ∈ w.tasks, task.taskId ∉ other.dependsOnTaskIds)
    (hrevised : Revised task w w') : Bounded w' where
  toFiled := hfiled
  admitted now hnow id hid := by
    obtain ⟨other, hother, -, hdeps, hunder, -⟩ := hrevised.back now hnow
    rw [hdeps] at hid
    obtain ⟨dep, hdep, hdepId, hbound⟩ := h.admitted other hother id hid
    obtain ⟨later, hlater, hlaterId, hrank, -, hsame⟩ := hrevised.forth dep hdep
    refine ⟨later, hlater, hlaterId.trans hdepId, fun hreadable => ?_⟩
    rw [hrank]
    refine hunder _ (hbound ?_)
    by_cases heq : dep.taskId = task.taskId
    · -- What the task depends on is the task that is passed: then it can be read.
      cases List.inj_on_of_nodup_map h.ids hdep htask heq
      exact hread.resolve_right fun hnone => hnone other hother (hdepId ▸ hid)
    · exact hsame heq ▸ hreadable
  met now hnow hdone id hid := by
    obtain ⟨other, hother, hotherId, hdeps, hunder, hcompleted⟩ := hrevised.back now hnow
    rw [hdeps] at hid
    have hmet : ∃ dep ∈ w.tasks, dep.taskId = id ∧ dep.status = .completed ∧
        Under (rankOf dep.constraints) other := by
      have hresolved : other.taskId = task.taskId → Resolved w.tasks task →
          ∃ dep ∈ w.tasks, dep.taskId = id ∧ dep.status = .completed ∧
            Under (rankOf dep.constraints) other := fun heq hres => by
        cases List.inj_on_of_nodup_map h.ids hother htask heq
        exact h.resolved htask hres hid
      rcases hdone with hdone | ⟨e, he, heId⟩
      · rcases hcompleted hdone with hbefore | ⟨heq, hres⟩
        · exact h.met other hother (.inl hbefore) id hid
        · exact hresolved heq hres
      · rcases hrevised.started e he with hold | ⟨heq, hres, -⟩
        · exact h.met other hother (.inr ⟨e, hold, heId.trans hotherId.symm⟩) id hid
        · exact hresolved (hotherId.trans (heId.symm.trans heq)) hres
    obtain ⟨dep, hdep, hdepId, hdepDone, hbound⟩ := hmet
    obtain ⟨later, hlater, hlaterId, hrank, hstays, -⟩ := hrevised.forth dep hdep
    exact ⟨later, hlater, hlaterId.trans hdepId, hstays hdepDone, hunder _ (hrank ▸ hbound)⟩
  launched e he now hnow hnowId id hid later hlater hlaterId := by
    obtain ⟨other, hother, hotherId, hdeps, hunder, -⟩ := hrevised.back now hnow
    rw [hdeps] at hid
    obtain ⟨dep, hdep, hdepId, -⟩ := h.admitted other hother id hid
    obtain ⟨same, hsame, hsameId, hrank, -⟩ := hrevised.forth dep hdep
    cases List.inj_on_of_nodup_map hfiled.ids hsame hlater
      ((hsameId.trans hdepId).trans hlaterId.symm)
    rw [hrank]
    rcases hrevised.started e he with hold | ⟨heq, hres, hfew⟩
    · exact h.launched e hold other hother (hotherId.trans hnowId) id hid dep hdep hdepId
    · cases List.inj_on_of_nodup_map h.ids hother htask (hotherId.trans (hnowId.trans heq))
      obtain ⟨found, hfound, hfoundId, -, hbound⟩ := h.resolved htask hres hid
      cases List.inj_on_of_nodup_map h.ids hfound hdep (hfoundId.trans hdepId.symm)
      exact hfew _ hbound

lemma revised_pass (h : Filed w) (htask : task ∈ w.tasks) : Revised task w (w.pass env task) where
  forth other hother := by
    obtain ⟨last, hmoves, hok⟩ := moves_of_advance env w.tasks (h.distinct task htask)
    by_cases heq : other.taskId = task.taskId
    · cases List.inj_on_of_nodup_map h.ids hother htask heq
      by_cases hends : task.Terminal
      · exact ⟨normalizePersistedConstraints task, mem_pass_of_terminal htask hends, rfl,
          rankOf_normalize task, fun hdone => hdone, fun hne => absurd rfl hne⟩
      · have hnot : task.status ≠ .completed := fun hdone => hends (.inl hdone)
        unfold World.pass
        dsimp only
        cases hresult : (advance env w.tasks task).1 with
        | error e =>
            exact ⟨task, htask, rfl, rfl, fun hdone => hdone, fun _ => rfl⟩
        | ok next =>
            cases hok next hresult
            exact ⟨last, mem_writeTask.mpr (.inr ⟨rfl, task, htask, hmoves.shape.taskId.symm⟩),
              hmoves.shape.taskId, hmoves.rank, fun hdone => absurd hdone hnot,
              fun hne => absurd rfl hne⟩
    · exact ⟨other, mem_pass_of_ne (h.distinct task htask) hother heq, rfl, rfl, fun hdone => hdone,
        fun _ => rfl⟩
  back now hnow := by
    rcases mem_pass (h.distinct task htask) hnow with ⟨hold, -⟩ | ⟨hok, hmoves⟩
    · exact ⟨now, hold, rfl, rfl, fun _ hunder => hunder, fun hdone => .inl hdone⟩
    · exact ⟨task, htask, hmoves.shape.taskId.symm, hmoves.shape.dependsOnTaskIds,
        fun n hunder => (hmoves.under hunder).1,
        fun hdone => (completed_of_advance (Prod.ext hok rfl) hdone).imp_right fun hres => ⟨rfl, hres⟩⟩
  started e he := by
    rcases List.mem_append.mp he with hold | hnew
    · exact .inl hold
    · obtain ⟨launch, hlaunch, rfl⟩ := List.mem_map.mp hnew
      obtain ⟨last, hmoves, -⟩ := moves_of_advance env w.tasks (h.distinct task htask)
      exact .inr ⟨rfl, resolved_of_launch hmoves hlaunch,
        fun n hunder => (hmoves.under hunder).2 launch hlaunch⟩

lemma Bounded.pass (h : Bounded w) (htask : task ∈ w.tasks)
    (hread : Readable task ∨ ∀ other ∈ w.tasks, task.taskId ∉ other.dependsOnTaskIds) :
    Bounded (w.pass env task) :=
  h.revise (h.toFiled.pass htask) htask hread (revised_pass h.toFiled htask)

omit [RecordSize] in
lemma revised_cancel [RecordSize] (h : Filed w) (htask : task ∈ w.tasks) (hopen : ¬ task.Terminal) :
    Revised task w
      { w with tasks := writeTask { task with status := .cancelled } w.tasks } where
  forth other hother := by
    by_cases heq : other.taskId = task.taskId
    · cases List.inj_on_of_nodup_map h.ids hother htask heq
      exact ⟨{ task with status := .cancelled }, mem_writeTask.mpr (.inr ⟨rfl, task, htask, rfl⟩),
        rfl, rfl, fun hdone => absurd (.inl hdone) hopen, fun hne => absurd rfl hne⟩
    · exact ⟨other, mem_writeTask.mpr (.inl ⟨hother, heq⟩), rfl, rfl, fun hdone => hdone,
        fun _ => rfl⟩
  back now hnow := by
    rcases mem_writeTask.mp hnow with ⟨hold, -⟩ | ⟨rfl, -⟩
    · exact ⟨now, hold, rfl, rfl, fun _ hunder => hunder, fun hdone => .inl hdone⟩
    · exact ⟨task, htask, rfl, rfl, fun _ hunder => hunder.congr rfl rfl, fun hdone => nomatch hdone⟩
  started e he := .inl he

lemma Bounded.accept {args : Value} (h : Bounded w)
    (hfree : Table.row Task.taskId w.tasks task.taskId = none)
    (hcreated : created env w.tasks args = .ok task) (hmodest : Modest w.tasks args task) :
    Bounded { w with tasks := w.tasks ++ [task] } := by
  have hnew : task.taskId ∉ w.tasks.map Task.taskId := Table.row_eq_none_iff.mp hfree
  have hstatus : task.status ≠ .completed := by
    obtain ⟨objective, rfl, -⟩ := created_ok hcreated
    exact fun hdone => nomatch hdone
  have hfiled := h.toFiled.accept hfree hcreated
  refine ⟨hfiled, fun now hnow id hid => ?_, fun now hnow hdone id hid => ?_,
    fun e he now hnow hnowId id hid other hother hotherId => ?_⟩
  · rcases List.mem_append.mp hnow with hold | hlast
    · obtain ⟨other, hother, hfound⟩ := h.admitted now hold id hid
      exact ⟨other, List.mem_append_left _ hother, hfound⟩
    · rw [List.mem_singleton.mp hlast] at hid ⊢
      obtain ⟨other, hrow, -⟩ := dependencies_of_created hcreated hid
      refine ⟨other, List.mem_append_left _ (Table.mem_of_row hrow), Table.key_of_row hrow,
        fun hreadable => under_of_created hcreated hmodest hid ?_⟩
      have hsmall : RecordSize.record other ≤ maxFileBytes := hreadable
      rw [readTask, hrow]
      exact if_pos hsmall
  · rcases List.mem_append.mp hnow with hold | hlast
    · obtain ⟨other, hother, hfound⟩ := h.met now hold hdone id hid
      exact ⟨other, List.mem_append_left _ hother, hfound⟩
    · rw [List.mem_singleton.mp hlast] at hdone
      rcases hdone with hdone | ⟨e, he, heId⟩
      · exact absurd hdone hstatus
      · exact absurd (heId ▸ h.known e he) hnew
  · rcases List.mem_append.mp hnow with hold | hlast
    · obtain ⟨dep, hdep, hdepId, -⟩ := h.admitted now hold id hid
      cases List.inj_on_of_nodup_map hfiled.ids hother (List.mem_append_left _ hdep)
        (hotherId.trans hdepId.symm)
      exact h.launched e he now hold hnowId id hid _ hdep hdepId
    · rw [List.mem_singleton.mp hlast] at hnowId
      exact absurd (hnowId ▸ h.known e he) hnew

/-- **No worker is started above a task that its task depends on**, directly or through others, in
a run in which the steps of every task that is accepted carry no authority above those of the
dependencies. -/
theorem unescalated_of_modest (sections : List Section)
    (h : Each World.after (fun w s => Allows (fun _ _ _ => True)
      (fun _ db args task => Modest db args task) (fun _ => True) w s) World.empty sections) :
    Unescalated (run World.after World.empty sections) := by
  have hbounded : Bounded (run World.after World.empty sections) := by
    refine Calls.invariant_run (fun w s hw hs => ?_) bounded_empty h
    refine keeps_section (fun env w task hw hread _ => ?_)
      (fun env args w task hw hfree hcreated hmodest => hw.accept hfree hcreated hmodest)
      (fun env args w task hw hfree hcreated hwritten _ => ?_)
      (fun w task hw hread hopen _ => ?_) s hw hs
    · exact hw.pass (mem_of_readTask hread).1 (.inl (readable_of_readTask hread))
    · -- No task depends on one that was not there.
      refine hwritten.pass (List.mem_append_right _ (List.mem_singleton_self _))
        (.inr fun other hother hdep => ?_)
      rcases List.mem_append.mp hother with hold | hlast
      · obtain ⟨dep, hdepMem, hdepId, -⟩ := hw.admitted other hold _ hdep
        exact Table.row_eq_none_iff.mp hfree (hdepId ▸ List.mem_map_of_mem hdepMem)
      · rw [List.mem_singleton.mp hlast] at hdep
        obtain ⟨dep, hrow, -⟩ := dependencies_of_created hcreated hdep
        cases hfree.symm.trans hrow
    · have htask := (mem_of_readTask hread).1
      exact hw.revise (hw.toFiled.cancel htask) htask (.inl (readable_of_readTask hread))
        (revised_cancel hw.toFiled htask hopen)
  exact hbounded.unescalated

end Passes

/-! ### A step with an authority of its own -/

def withAuthority (authority : String) : String × Value :=
  ("constraints", .object [("authority", .string authority)])

/-- A task that reads, and needs no worker. -/
def reader : Value := argsOf "e" [stepOf "a" "join" []]

/-- A task that depends on it, with one step of some authority. -/
def dependent (authority : String) : Value :=
  .object [("task_id", .string "d"), ("objective", .string "o"),
    ("depends_on_task_ids", .array [.string "e"]),
    ("workflow", .object [("steps", .array [stepOf "b" "worker" [withAuthority authority]])])]

/-- What is started for the second task. -/
def dependentRun (authority : String) : List Section :=
  [.run (endedAs "" "") reader, .run (endedAs "" "") (dependent authority)]

lemma modest_when_reading :
    letI := smallRecords
    Each World.after (fun w s => Allows (fun _ _ _ => True)
      (fun _ db args task => Modest db args task) (fun _ => True) w s) World.empty
      (dependentRun "read") := by
  let _ : RecordSize := smallRecords
  refine ⟨⟨fun task _ hcreated => ⟨⟨?_, fun id hid => ?_⟩, trivial⟩, fun _ _ => trivial⟩,
    ⟨fun task _ hcreated => ⟨⟨?_, fun id _ other _ step hstep _ => ?_⟩, trivial⟩,
      fun _ _ => trivial⟩, trivial⟩
  · simp [reader, argsOf, stepOf, Value.Distinct, Value.DistinctFields, Value.DistinctList]
  · obtain ⟨objective, rfl, -⟩ := created_ok hcreated
    cases hid
  · simp [dependent, stepOf, withAuthority, Value.Distinct, Value.DistinctFields,
      Value.DistinctList]
  · obtain ⟨objective, rfl, -⟩ := created_ok hcreated
    have hsteps : step ∈ [stepOf "b" "worker" [withAuthority "read"]] := hstep
    rw [List.mem_singleton.mp hsteps]
    intro value hmem
    have hvalue : ("authority", value) ∈ [("authority", Value.string "read")] := hmem
    cases List.mem_singleton.mp hvalue
    exact Nat.zero_le _

/-- A worker that reads is started behind a task that reads. -/
theorem unescalated_when_reading :
    letI := smallRecords
    Unescalated (run World.after World.empty (dependentRun "read")) ∧
      (run World.after World.empty (dependentRun "read")).started.length = 1 :=
  ⟨@unescalated_of_modest smallRecords _ modest_when_reading, by decide +kernel⟩

/-- **A step with an authority of its own is started above a task that its task depends on.** -/
theorem escalated_by_step :
    letI := smallRecords
    ¬ Unescalated (run World.after World.empty (dependentRun "command")) := by
  let _ : RecordSize := smallRecords
  intro h
  have hstarted : ∃ e ∈ (run World.after World.empty (dependentRun "command")).started,
      e.1 = "d" ∧ rankOf e.2.constraints = 2 := by
    decide +kernel
  have hrecords : (∃ task ∈ (run World.after World.empty (dependentRun "command")).tasks,
      task.taskId = "d" ∧ "e" ∈ task.dependsOnTaskIds) ∧
        ∃ task ∈ (run World.after World.empty (dependentRun "command")).tasks,
          task.taskId = "e" ∧ rankOf task.constraints = 0 := by
    decide +kernel
  obtain ⟨e, he, hid, hrank⟩ := hstarted
  obtain ⟨hdepends, other, hother, hotherId, hotherRank⟩ := hrecords
  have hchain : Relation.TransGen
      (DependsOn (run World.after World.empty (dependentRun "command")).tasks) e.1 other.taskId := by
    rw [hid, hotherId]
    exact .single hdepends
  have hbound := h e he other hother hchain
  omega

end DelegatedTask

end McpSurfaces
