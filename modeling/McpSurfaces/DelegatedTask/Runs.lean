import McpSurfaces.DelegatedTask.Moves

/-!
What sections keep.

* `keeps_section`, **`keeps_after`**: what passes, acceptances and cancellations keep, a section keeps.
* `Filed`: the ids of tasks and steps are distinct, each step has a state, and workers were started
  for tasks that are there.
-/

namespace McpSurfaces

namespace DelegatedTask

variable [RecordSize] {env : Env} {db : Records} {task next : Task} {launches : List Launch}

/-! ### Sections -/

omit [RecordSize] in
lemma mem_writeTask {other : Task} :
    other ∈ writeTask task db ↔ (other ∈ db ∧ other.taskId ≠ task.taskId) ∨
      (other = task ∧ ∃ old ∈ db, old.taskId = task.taskId) := by
  rw [writeTask, Table.mem_updateWhere]
  constructor
  · rintro ⟨old, hold, hset⟩
    split at hset
    · next hid => exact .inr ⟨hset.symm, old, hold, hid⟩
    · next hid => exact .inl ⟨hset ▸ hold, hset ▸ hid⟩
  · rintro (⟨hmem, hid⟩ | ⟨rfl, old, hold, hid⟩)
    · exact ⟨other, hmem, if_neg hid⟩
    · exact ⟨old, hold, if_pos hid⟩

omit [RecordSize] in
lemma taskIds_writeTask : (writeTask task db).map Task.taskId = db.map Task.taskId :=
  Table.keys_updateWhere fun _ hid => hid.symm

lemma row_of_readTask {id : String} (h : readTask db id = .ok task) :
    Table.row Task.taskId db id = some task := by
  unfold readTask at h
  split at h
  · cases h
  · next found hfound =>
      split at h
      · cases h
        exact hfound
      · cases h

lemma readable_of_readTask {id : String} (h : readTask db id = .ok task) :
    RecordSize.record task ≤ maxFileBytes := by
  unfold readTask at h
  split at h
  · cases h
  · split at h
    · next hsmall =>
        cases h
        exact hsmall
    · cases h

lemma mem_of_readTask {id : String} (h : readTask db id = .ok task) :
    task ∈ db ∧ task.taskId = id :=
  ⟨Table.mem_of_row (row_of_readTask h), Table.key_of_row (row_of_readTask h)⟩

/-- What is known of a task that is accepted. -/
lemma created_ok {args : Value} (h : created env db args = .ok task) :
    ∃ objective, task = newTask (stableTaskId env args) objective args ∧
      validateDiagnostics env db args = [] := by
  unfold created at h
  dsimp only at h
  split at h
  · cases h
  · split at h
    · cases h
    · next objective _ =>
        split at h
        · next hnone =>
            cases h
            exact ⟨objective, rfl, hnone⟩
        · cases h

lemma sound_of_created {args : Value} (h : created env db args = .ok task) : Sound task.steps := by
  obtain ⟨objective, rfl, hnone⟩ := created_ok h
  unfold validateDiagnostics at hnone
  simp only [List.append_eq_nil_iff] at hnone
  exact sound_of_accepted hnone.1.1.1.1.1

/-- The states of a task at the beginning. -/
lemma initial_of_created {args : Value} (h : created env db args = .ok task) :
    ∀ id s, task.states.get id = some s → ∃ step ∈ task.steps, Step.id? step = some id ∧
      s = StepState.initial (Step.kind step) := by
  have hsound := sound_of_created h
  obtain ⟨objective, rfl, -⟩ := created_ok h
  exact (keys_initialStepStates hsound.distinct).2

lemma regular_of_created {args : Value} (h : created env db args = .ok task)
    (hstraight : ∀ id ∈ task.stepIds, Straight task.stepIds id) : Regular task := by
  have hsound := sound_of_created h
  obtain ⟨objective, rfl, -⟩ := created_ok h
  exact ⟨hsound.distinct, (keys_initialStepStates hsound.distinct).1, hstraight⟩

/-- Conditions on the passes of a section, on the task that it accepts, and on the one that it
cancels. -/
def Allows (pass : Env → Records → Task → Prop) (accept : Env → Records → Value → Task → Prop)
    (cancel : Task → Prop) (w : World) : Section → Prop
  | .run env args =>
      (∀ task, Table.row Task.taskId w.tasks (stableTaskId env args) = none →
        created env w.tasks args = .ok task →
          accept env w.tasks args task ∧ pass env (w.tasks ++ [task]) task) ∧
      ∀ task, readTask w.tasks (stableTaskId env args) = .ok task → pass env w.tasks task
  | .advance env id => ∀ task, readTask w.tasks id = .ok task → pass env w.tasks task
  | .cancel id => ∀ task, readTask w.tasks id = .ok task → cancel task

/-- What the passes over records that are read, the starts of tasks that are accepted, the
acceptances and the cancellations keep, a section keeps. -/
theorem keeps_section {pass : Env → Records → Task → Prop}
    {accept : Env → Records → Value → Task → Prop} {cancel : Task → Prop} {inv : World → Prop}
    (hpass : ∀ env w task, inv w → readTask w.tasks task.taskId = .ok task →
      pass env w.tasks task → inv (w.pass env task))
    (haccept : ∀ env args w task, inv w →
      Table.row Task.taskId w.tasks task.taskId = none → created env w.tasks args = .ok task →
      accept env w.tasks args task → inv { w with tasks := w.tasks ++ [task] })
    (hstart : ∀ env args w task, inv w → Table.row Task.taskId w.tasks task.taskId = none →
      created env w.tasks args = .ok task → inv { w with tasks := w.tasks ++ [task] } →
      pass env (w.tasks ++ [task]) task →
      inv (World.pass env task { w with tasks := w.tasks ++ [task] }))
    (hcancel : ∀ w task, inv w → readTask w.tasks task.taskId = .ok task → ¬ task.Terminal →
      cancel task → inv { w with tasks := writeTask { task with status := .cancelled } w.tasks })
    {w : World} (s : Section) (h : inv w) (hs : Allows pass accept cancel w s) :
    inv (w.after s) := by
  have hadvance : ∀ env id, (∀ task, readTask w.tasks id = .ok task → pass env w.tasks task) →
      inv (w.advance env id) := by
    intro env id hid
    unfold World.advance
    split
    · exact h
    · next task htask =>
        exact hpass env w task h ((mem_of_readTask htask).2.symm ▸ htask) (hid task htask)
  cases s with
  | advance env id => exact hadvance env id hs
  | cancel id =>
      show inv (w.cancel id)
      unfold World.cancel
      split
      · exact h
      · next task htask =>
          split
          · exact h
          · next hopen =>
              exact hcancel w task h ((mem_of_readTask htask).2.symm ▸ htask) hopen (hs task htask)
  | run env args =>
      show inv (w.run env args)
      unfold World.run
      split
      · split
        · exact hadvance env _ hs.2
        · exact h
      · next hfree =>
          rw [Option.not_isSome_iff_eq_none] at hfree
          split
          · exact h
          · next task htask =>
              obtain ⟨haccepted, hpasses⟩ := hs.1 task hfree htask
              obtain ⟨objective, hnew, -⟩ := created_ok htask
              have hid : task.taskId = stableTaskId env args := by rw [hnew]; rfl
              have hwritten := haccept env args w task h (hid ▸ hfree) htask haccepted
              unfold World.accept
              dsimp only
              split
              · exact hwritten
              · exact hstart env args w task h (hid ▸ hfree) htask hwritten hpasses

/-- **What passes, acceptances and cancellations keep, a section keeps.** -/
theorem keeps_after {pass : Env → Records → Task → Prop}
    {accept : Env → Records → Value → Task → Prop} {cancel : Task → Prop} {inv : World → Prop}
    (hpass : ∀ env w task, inv w → task ∈ w.tasks → pass env w.tasks task → inv (w.pass env task))
    (haccept : ∀ env args w task, inv w →
      Table.row Task.taskId w.tasks task.taskId = none → created env w.tasks args = .ok task →
      accept env w.tasks args task → inv { w with tasks := w.tasks ++ [task] })
    (hcancel : ∀ w task, inv w → task ∈ w.tasks → ¬ task.Terminal → cancel task →
      inv { w with tasks := writeTask { task with status := .cancelled } w.tasks })
    {w : World} (s : Section) (h : inv w) (hs : Allows pass accept cancel w s) :
    inv (w.after s) :=
  keeps_section (fun env w task hw htask => hpass env w task hw (mem_of_readTask htask).1) haccept
    (fun env _ _ task _ _ _ hwritten => hpass env _ task hwritten
      (List.mem_append_right _ (List.mem_singleton_self _)))
    (fun w task hw htask => hcancel w task hw (mem_of_readTask htask).1) s h hs

/-- What all passes, acceptances and cancellations keep, every run keeps. -/
theorem keeps_run (inv : World → Prop)
    (hpass : ∀ env w task, inv w → task ∈ w.tasks → inv (w.pass env task))
    (haccept : ∀ env args w task, inv w →
      Table.row Task.taskId w.tasks task.taskId = none → created env w.tasks args = .ok task →
      inv { w with tasks := w.tasks ++ [task] })
    (hcancel : ∀ w task, inv w → task ∈ w.tasks → ¬ task.Terminal →
      inv { w with tasks := writeTask { task with status := .cancelled } w.tasks })
    {w : World} (sections : List Section) (h : inv w) :
    inv (Calls.run World.after w sections) := by
  have hallows : ∀ w s, Allows (fun _ _ _ => True) (fun _ _ _ _ => True) (fun _ => True) w s := by
    intro w s
    cases s with
    | run => exact ⟨fun _ _ _ => ⟨trivial, trivial⟩, fun _ _ => trivial⟩
    | advance => exact fun _ _ => trivial
    | cancel => exact fun _ _ => trivial
  induction sections generalizing w with
  | nil => exact h
  | cons s rest ih =>
      refine ih (keeps_after ?_ ?_ ?_ s h (hallows w s))
      · exact fun env w task hw htask _ => hpass env w task hw htask
      · exact fun env args w task hw hfree hcreated _ => haccept env args w task hw hfree hcreated
      · exact fun w task hw htask hopen _ => hcancel w task hw htask hopen

/-! ### Records that are filed -/

/-- The ids of tasks and of steps are distinct, each step has a state, and the workers that were
started were for tasks that are there. -/
structure Filed (w : World) : Prop where
  ids : (w.tasks.map Task.taskId).Nodup
  known : ∀ e ∈ w.started, e.1 ∈ w.tasks.map Task.taskId
  distinct : ∀ task ∈ w.tasks, task.stepIds.Nodup
  keys : ∀ task ∈ w.tasks, task.states.keys = task.stepIds

omit [RecordSize] in
lemma filed_empty : Filed World.empty where
  ids := List.nodup_nil
  known _ he := absurd he List.not_mem_nil
  distinct _ htask := absurd htask List.not_mem_nil
  keys _ htask := absurd htask List.not_mem_nil

/-- What is there behind a pass was there before, or is what the pass has made of its task. -/
lemma mem_pass {w : World} {other : Task} (hnodup : task.stepIds.Nodup)
    (h : other ∈ (w.pass env task).tasks) :
    (other ∈ w.tasks ∧ (other.taskId ≠ task.taskId ∨
        ∃ e, (advance env w.tasks task).1 = .error e)) ∨
      ((advance env w.tasks task).1 = .ok other ∧
        Moves env w.tasks task (advance env w.tasks task).2 other) := by
  obtain ⟨last, hmoves, hok⟩ := moves_of_advance env w.tasks hnodup
  unfold World.pass at h
  dsimp only at h
  cases hresult : (advance env w.tasks task).1 with
  | error e =>
      rw [hresult] at h
      exact .inl ⟨h, .inr ⟨e, rfl⟩⟩
  | ok next =>
      rw [hresult] at h
      cases hok next hresult
      rcases mem_writeTask.mp h with ⟨hold, hid⟩ | ⟨rfl, -⟩
      · exact .inl ⟨hold, .inl (hmoves.shape.taskId ▸ hid)⟩
      · exact .inr ⟨rfl, hmoves⟩

/-- A pass over a task leaves the others. -/
lemma mem_pass_of_ne {w : World} {other : Task} (hnodup : task.stepIds.Nodup) (h : other ∈ w.tasks)
    (hne : other.taskId ≠ task.taskId) : other ∈ (w.pass env task).tasks := by
  unfold World.pass
  dsimp only
  split
  · next next hnext =>
      obtain ⟨last, hmoves, hok⟩ := moves_of_advance env w.tasks hnodup
      cases hok next hnext
      exact mem_writeTask.mpr (.inl ⟨h, hmoves.shape.taskId ▸ hne⟩)
  · exact h

lemma mem_pass_of_terminal {w : World} (h : task ∈ w.tasks) (hends : task.Terminal) :
    normalizePersistedConstraints task ∈ (w.pass env task).tasks := by
  unfold World.pass
  rw [advance_of_terminal hends]
  exact mem_writeTask.mpr (.inr ⟨rfl, task, h, rfl⟩)

lemma taskIds_pass (w : World) (task : Task) :
    (w.pass env task).tasks.map Task.taskId = w.tasks.map Task.taskId := by
  unfold World.pass
  dsimp only
  split
  · exact taskIds_writeTask
  · rfl

namespace Filed

variable {w : World}

lemma pass (h : Filed w) (htask : task ∈ w.tasks) : Filed (w.pass env task) where
  ids := by
    rw [taskIds_pass]
    exact h.ids
  known e he := by
    rw [taskIds_pass]
    rcases List.mem_append.mp he with hold | hnew
    · exact h.known e hold
    · obtain ⟨launch, -, rfl⟩ := List.mem_map.mp hnew
      exact List.mem_map_of_mem htask
  distinct other hother := by
    rcases mem_pass (h.distinct task htask) hother with ⟨hold, -⟩ | ⟨-, hmoves⟩
    · exact h.distinct other hold
    · rw [hmoves.shape.stepIds]
      exact h.distinct task htask
  keys other hother := by
    rcases mem_pass (h.distinct task htask) hother with ⟨hold, -⟩ | ⟨-, hmoves⟩
    · exact h.keys other hold
    · rw [hmoves.shape.keys, hmoves.shape.stepIds]
      exact h.keys task htask

lemma accept {args : Value} (h : Filed w) (hfree : Table.row Task.taskId w.tasks task.taskId = none)
    (hcreated : created env w.tasks args = .ok task) :
    Filed { w with tasks := w.tasks ++ [task] } := by
  have hsound := sound_of_created hcreated
  obtain ⟨objective, hnew, -⟩ := created_ok hcreated
  refine ⟨Table.nodup_append_singleton h.ids hfree, fun e he => ?_, fun other hother => ?_,
    fun other hother => ?_⟩
  · rw [List.map_append]
    exact List.mem_append_left _ (h.known e he)
  · rcases List.mem_append.mp hother with hold | hlast
    · exact h.distinct other hold
    · rw [List.mem_singleton.mp hlast]
      exact hsound.distinct
  · rcases List.mem_append.mp hother with hold | hlast
    · exact h.keys other hold
    · rw [List.mem_singleton.mp hlast, hnew]
      rw [hnew] at hsound
      exact (keys_initialStepStates hsound.distinct).1

omit [RecordSize] in
lemma cancel (h : Filed w) (htask : task ∈ w.tasks) :
    Filed { w with tasks := writeTask { task with status := .cancelled } w.tasks } := by
  have hmem : ∀ other ∈ writeTask { task with status := .cancelled } w.tasks,
      other ∈ w.tasks ∨ other = { task with status := .cancelled } := fun other hother =>
    (mem_writeTask.mp hother).imp And.left And.left
  refine ⟨?_, fun e he => ?_, fun other hother => ?_, fun other hother => ?_⟩
  · rw [taskIds_writeTask]
    exact h.ids
  · rw [taskIds_writeTask]
    exact h.known e he
  · rcases hmem other hother with hold | rfl
    · exact h.distinct other hold
    · exact h.distinct task htask
  · rcases hmem other hother with hold | rfl
    · exact h.keys other hold
    · exact h.keys task htask

end Filed

/-- **Whatever is called**, tasks and steps have ids of their own, each step has a state, and workers
were started for tasks that are there. -/
theorem filed_sections (sections : List Section) :
    Filed (Calls.run World.after World.empty sections) :=
  keeps_run Filed (fun _ _ _ h htask => h.pass htask) (fun _ _ _ _ h hfree hcreated =>
    h.accept hfree hcreated) (fun _ _ h htask _ => h.cancel htask) sections filed_empty

end DelegatedTask

end McpSurfaces
