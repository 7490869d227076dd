import McpSurfaces.Sop.Calls

/-!
What reconciliation can do to the tables. Everything it writes goes through five procedures: the
insertions of runs, handoffs and actions, the saving of a run, and the event of a terminal run.

* `insertRun_effect` to `putTerminalOutbox_effect`: what each of the five does to the store.
* **`Writes.reconcileRunAndAncestors`**: a relation that each of these writes keeps is kept by
  the reconciliation of a run and its ancestors, whatever is caught on the way.
-/

namespace McpSurfaces

namespace Sop

open EventLedger (Digest)
open Work (Guarantees MayDo)

variable [FloatText] [FloatRead] [Digest] [IsoTime]

/-! ### What each procedure writes -/

/-- The store with another run. -/
def Store.withRun (s : Store) (r : Run) : Store := { s with runs := s.runs ++ [r] }

/-- The store with another handoff. -/
def Store.withHandoff (s : Store) (h : Handoff) : Store := { s with handoffs := s.handoffs ++ [h] }

/-- The store with another action. -/
def Store.withAction (s : Store) (a : Action) : Store := { s with actions := s.actions ++ [a] }

/-- The store with another event. -/
def Store.withEvent (s : Store) (e : OutboxEvent) : Store := { s with outbox := s.outbox ++ [e] }

/-- An event as it is put: with the whole payload of its run. -/
def OutboxEvent.Full (e : OutboxEvent) : Prop :=
  ∃ run outcome, procedureOutcome run = .ok outcome ∧ run.status.Terminal ∧
    e = terminalEvent run (terminalPayload run (eventIdOf run.runId) outcome e.createdAt) e.createdAt

omit [FloatText] [FloatRead] [Digest] [IsoTime] in
lemma insertRun_effect (r : Run) : Guarantees (MayDo fun s t =>
    (∀ other ∈ s.runs, other.runId ≠ r.runId) ∧ t = s.withRun r) (insertRun r) := by
  refine .store_bind fun s => ?_
  split_ifs with htaken
  · left
    rfl
  · right
    exact ⟨fun other hother hid => htaken ⟨other, hother, .inl hid⟩, rfl⟩

omit [FloatRead] [Digest] [IsoTime] in
lemma insertHandoff_effect (h : Handoff) : Guarantees (MayDo fun s t =>
    (∀ other ∈ s.handoffs, other.handoffId ≠ h.handoffId) ∧ t = s.withHandoff h)
    (insertHandoff h) := by
  refine .store_bind fun s => ?_
  split_ifs with htaken
  · left
    rfl
  · right
    exact ⟨fun other hother hid => htaken (.inl ⟨other, hother, .inl hid⟩), rfl⟩

omit [FloatText] [FloatRead] [Digest] [IsoTime] in
lemma insertAction_effect (a : Action) : Guarantees (MayDo fun s t =>
    (∀ other ∈ s.actions, other.actionId ≠ a.actionId) ∧ t = s.withAction a) (insertAction a) := by
  refine .store_bind fun s => ?_
  split_ifs with htaken
  · left
    rfl
  · right
    exact ⟨fun other hother hid => htaken ⟨other, hother, .inl hid⟩, rfl⟩

omit [Digest] in
lemma persistRun_effect (env : Env) (run : Run) : Guarantees (MayDo fun s t =>
    ∃ now, nowIso env = .ok now ∧ t = s.updateRun run.runId (·.saved run now))
    (persistRun env run) := by
  refine .ofExcept_bind fun _ _ => .ofExcept_bind fun now hnow s => ?_
  exact .inr ⟨now, hnow, rfl⟩

omit [FloatText] [FloatRead] [Digest] [IsoTime] in
lemma insertEvent_effect (e : OutboxEvent) :
    Guarantees (MayDo fun s t => t = s.withEvent e) (insertEvent e) := by
  refine .store_bind fun s => ?_
  split_ifs with htaken
  · left
    rfl
  · right
    rfl

/-- The event of a run is put under its own identities, where no other has them. -/
lemma putTerminalOutbox_effect (env : Env) (run : Run) : Guarantees (MayDo fun s t =>
    ∃ e, e.Full ∧ e.eventId = eventIdOf run.runId ∧ e.runId = run.runId ∧
      (∀ other ∈ s.outbox, other.eventId ≠ e.eventId ∧ other.runId ≠ e.runId) ∧ t = s.withEvent e)
    (putTerminalOutbox env run) := by
  unfold putTerminalOutbox
  refine .guard fun hterminal => .guard fun _ => .ofExcept_bind fun now hnow =>
    .ofExcept_bind fun outcome houtcome => .ofExcept_bind fun _ _ => .store_bind fun s => ?_
  split
  · exact (Guarantees.ofExcept_bind fun e _ => .ite (.throw _) (.pure _)) s
  next hnone =>
    have hnew : ∀ other ∈ s.outbox, other.eventId ≠ eventIdOf run.runId ∧ other.runId ≠ run.runId :=
      fun other hother => by
        have := List.find?_eq_none.mp hnone other hother
        simpa only [decide_eq_true_eq, not_or] using this
    set e := terminalEvent run
      (terminalPayload run (eventIdOf run.runId) outcome (run.completedAt.getD now))
      (run.completedAt.getD now)
    rcases insertEvent_effect e s with hsame | hput
    · exact .inl hsame
    · exact .inr ⟨e, ⟨run, outcome, houtcome, not_not.mp hterminal, rfl⟩, rfl, rfl, hnew, hput⟩

/-- The writes of reconciliation keep a relation. -/
structure Writes (R : Store → Store → Prop) : Prop where
  run (s : Store) (env : Env) (a : Admission) (t : Template) (steps : List StepState) (now : String)
    (hnew : ∀ other ∈ s.runs, other.runId ≠ (newRun env a t steps now).runId) :
    R s (s.withRun (newRun env a t steps now))
  handoff (s : Store) (run : Run) (step : StepState) (instructions : String)
    (input inputRef : Value) (request now : String) :
    R s (s.withHandoff (newHandoff run step instructions input inputRef request now))
  action (s : Store) (run : Run) (step : StepState) (binding : ActionBinding) (arguments : Map)
    (request now : String) :
    R s (s.withAction (newAction run step binding arguments request now))
  saved (s : Store) (run : Run) (now : String) : R s (s.updateRun run.runId (·.saved run now))
  event (s : Store) (e : OutboxEvent) (hfull : e.Full)
    (hnew : ∀ other ∈ s.outbox, other.eventId ≠ e.eventId ∧ other.runId ≠ e.runId) :
    R s (s.withEvent e)

namespace Writes

variable {R : Store → Store → Prop} [Std.Refl R]

/-! ### Writing -/

section Writing

variable (w : Writes R)

include w

section

omit [IsoTime]

lemma insertRun (env : Env) (a : Admission) (t : Template) (steps : List StepState) (now : String) :
    Guarantees R (Sop.insertRun (newRun env a t steps now)) :=
  (insertRun_effect _).of_mayDo fun s _ ⟨hnew, hu⟩ => hu ▸ w.run s env a t steps now hnew

lemma insertHandoff (run : Run) (step : StepState) (instructions : String) (input inputRef : Value)
    (request now : String) :
    Guarantees R
      (Sop.insertHandoff (newHandoff run step instructions input inputRef request now)) :=
  (insertHandoff_effect _).of_mayDo fun s _ ⟨_, hu⟩ =>
    hu ▸ w.handoff s run step instructions input inputRef request now

lemma insertAction (run : Run) (step : StepState) (binding : ActionBinding) (arguments : Map)
    (request now : String) :
    Guarantees R (Sop.insertAction (newAction run step binding arguments request now)) :=
  (insertAction_effect _).of_mayDo fun s _ ⟨_, hu⟩ =>
    hu ▸ w.action s run step binding arguments request now

end

lemma persistRun (env : Env) (run : Run) : Guarantees R (Sop.persistRun env run) :=
  (persistRun_effect env run).of_mayDo fun s _ ⟨now, _, hu⟩ => hu ▸ w.saved s run now

lemma putTerminalOutbox (env : Env) (run : Run) : Guarantees R (Sop.putTerminalOutbox env run) :=
  (putTerminalOutbox_effect env run).of_mayDo fun s _ ⟨e, hfull, _, _, hnew, hu⟩ =>
    hu ▸ w.event s e hfull hnew

end Writing

variable [IsTrans Store R]

/-! ### Reading -/

section

omit [FloatRead] [IsoTime]

lemma getRun (id : String) : Guarantees R (Sop.getRun id) := by
  unfold Sop.getRun
  refine .bind .store fun s => ?_
  split
  · exact .throw _
  · exact .ofExcept _

lemma getHandoff (id : String) : Guarantees R (Sop.getHandoff id) := by
  unfold Sop.getHandoff
  refine .bind .store fun s => ?_
  split
  · exact .throw _
  · exact .ofExcept _

lemma getAction (id : String) : Guarantees R (Sop.getAction id) := by
  unfold Sop.getAction
  refine .bind .store fun s => ?_
  split
  · exact .throw _
  · exact .ofExcept _

lemma assertNoRecursiveChild (childSopId : String) (fuel : ℕ) (seen : List String)
    (id : Option String) : Guarantees R (Sop.assertNoRecursiveChild childSopId fuel seen id) := by
  induction fuel generalizing seen id with
  | zero =>
      cases id with
      | none => exact .pure _
      | some id => exact .throw _
  | succ fuel ih =>
      cases id with
      | none => exact .pure _
      | some id =>
          rw [Sop.assertNoRecursiveChild]
          refine .guard fun _ => .bind (getRun id) fun run => ?_
          exact .guard fun _ => ih _ _

end

variable (w : Writes R)

include w

/-! ### Admission -/

lemma admitNew (env : Env) (a : Admission) (t : Template) : Guarantees R (Sop.admitNew env a t) := by
  unfold Sop.admitNew
  have hrest : ∀ u : PUnit, Guarantees R (do
      Work.ofExcept (assertBound t.definition "sop_definition" maxTemplateDefinitionBytes)
      let steps ← Work.ofExcept ((← Work.store).initializeStepStates t)
      Work.ofExcept (assertBound (stepsJson steps) "sop_run_state" maxRunStateBytes)
      let now ← Work.ofExcept (nowIso env)
      let run := newRun env a t steps now
      Sop.insertRun run
      Sop.getRun run.runId : Db Run) := fun _ =>
    .bind (.ofExcept _) fun _ => .bind .store fun _ => .bind (.ofExcept _) fun steps =>
      .bind (.ofExcept _) fun _ => .bind (.ofExcept _) fun now =>
        .bind (w.insertRun env a t steps now) fun _ => getRun _
  exact .ite (.bind .store fun _ => .bind (assertNoRecursiveChild _ _ _ _) hrest) (hrest ⟨⟩)

/-! ### Intents -/

lemma ensureHandoffIntent (env : Env) (run : Run) (step : StepState) (rendered : Option String) :
    Guarantees R (Sop.ensureHandoffIntent env run step rendered) := by
  unfold Sop.ensureHandoffIntent
  refine .guard fun _ => .bind (.ofExcept _) fun input => .bind (.ofExcept _) fun _ =>
    .bind (.ofExcept _) fun inputRef => .bind (.ofExcept _) fun instructions =>
      .bind .store fun s => ?_
  split
  · exact .bind (getHandoff _) fun h => .guard fun _ => .pure _
  · exact .bind (.ofExcept _) fun now => .bind (w.insertHandoff _ _ _ _ _ _ _) fun _ => getHandoff _

lemma ensureActionIntent (env : Env) (run : Run) (step : StepState) :
    Guarantees R (Sop.ensureActionIntent env run step) := by
  unfold Sop.ensureActionIntent
  split
  · exact .throw _
  · refine .bind (.ofExcept _) fun arguments => .bind (.ofExcept _) fun _ =>
      .bind .store fun s => ?_
    split
    · exact .bind (getAction _) fun a => .guard fun _ => .pure _
    · exact .bind (.ofExcept _) fun now => .bind (w.insertAction _ _ _ _ _ _) fun _ => getAction _

/-! ### Reconciliation -/

lemma reconcileManual (env : Env) (p : Pass) (index : ℕ) (step : StepState) :
    Guarantees R (Sop.reconcileManual env p index step) := by
  unfold Sop.reconcileManual
  refine .bind (w.ensureHandoffIntent _ _ _ _) fun h => ?_
  exact .ite (.pure _) (.pure _)

variable [JsonSchema]

lemma admitRun (env : Env) (args : Map) (parentRunId parentStepId : Option String) :
    Guarantees R (Sop.admitRun env args parentRunId parentStepId) := by
  unfold Sop.admitRun
  refine .bind (.ofExcept _) fun a => .bind .store fun s => .bind (.ofExcept _) fun version =>
    .bind (.ofExcept _) fun t => .bind (.ofExcept _) fun _ => ?_
  split
  · exact .bind (.ofExcept _) fun existing => .guard fun _ => .pure _
  · exact .bind (w.admitNew env a t) fun _ => .pure _

variable {recur : Recur} (hrecur : ∀ id stack, Guarantees R (recur id stack))

include hrecur

omit [FloatRead] w in
lemma reconcileChild (env : Env) (stack : List String) (p : Pass) (index : ℕ) (step : StepState) :
    Guarantees R (Sop.reconcileChild env recur stack p index step) := by
  unfold Sop.reconcileChild
  split
  · exact .pure _
  · refine .bind (hrecur _ _) fun _ => .bind (getRun _) fun child => .bind (.ofExcept _) fun _ =>
      .bind (.ofExcept _) fun now => ?_
    split
    · refine .bind (.ofExcept _) fun fault => ?_
      split
      · exact .pure _
      · exact .bind (.ofExcept _) fun run => .pure _
    · exact .pure _
    · exact .pure _
    · exact .pure _

omit hrecur in
lemma reconcileAction (env : Env) (p : Pass) (index : ℕ) (step : StepState) :
    Guarantees R (Sop.reconcileAction env p index step) := by
  unfold Sop.reconcileAction
  split
  · exact .pure _
  · refine .bind (w.ensureActionIntent _ _ _) fun a => .guard fun _ => .bind (.ofExcept _) fun _ =>
      .bind (.ofExcept _) fun now => ?_
    split
    · refine .bind (.ofExcept _) fun fault => ?_
      split
      · exact .pure _
      · exact .bind (.ofExcept _) fun run => .pure _
    · exact .pure _
    · exact .pure _
    · exact .pure _

lemma reconcileRunningStep (env : Env) (stack : List String) (p : Pass) (index : ℕ) :
    Guarantees R (Sop.reconcileRunningStep env recur stack p index) := by
  unfold Sop.reconcileRunningStep
  split
  · exact .pure _
  · refine .ite (.pure _) ?_
    split
    · exact w.reconcileManual _ _ _ _
    · exact w.reconcileManual _ _ _ _
    · exact reconcileChild hrecur _ _ _ _ _
    · exact w.reconcileAction _ _ _ _
    · exact .pure _

lemma startChildRun (env : Env) (stack : List String) (parent : Run) (step : StepState) :
    Guarantees R (Sop.startChildRun env recur stack parent step) := by
  unfold Sop.startChildRun
  refine .bind (.ofExcept _) fun childSopId => .bind (.ofExcept _) fun version =>
    .bind (.ofExcept _) fun input => .bind (.ofExcept _) fun _ => .guard fun _ =>
      .bind (.ofExcept _) fun inputRef => .bind (w.admitRun _ _ _ _) fun child => ?_
  exact .bind (.ofExcept _) fun _ => .bind (hrecur _ _) fun _ => getRun _

omit [FloatText] [FloatRead] [Digest] [IsoTime] [JsonSchema] w hrecur in
lemma orFail (step : StepState) (now : String) {work : Db StepState} (h : Guarantees R work) :
    Guarantees R (Sop.orFail step now work) := by
  refine .handle h fun stop => ?_
  cases stop with
  | refused d => exact .pure _
  | crashed => exact .throw _

lemma startStep (env : Env) (stack : List String) (run : Run) (step : StepState) (now : String) :
    Guarantees R (Sop.startStep env recur stack run step now) := by
  unfold Sop.startStep
  refine .bind (.ofExcept _) fun holds => ?_
  refine .ite (.pure _) (.bind (.ofExcept _) fun instructions => orFail _ _ ?_)
  unfold launchStep
  split
  · exact .pure _
  · exact .bind (w.ensureHandoffIntent _ _ _ _) fun h => .pure _
  · exact .bind (w.ensureHandoffIntent _ _ _ _) fun h => .pure _
  · exact .bind (w.ensureActionIntent _ _ _) fun a => .pure _
  · exact .bind (w.startChildRun hrecur _ _ _ _) fun child => .pure _

lemma reconcilePendingStep (env : Env) (stack : List String) (p : Pass) (index : ℕ) :
    Guarantees R (Sop.reconcilePendingStep env recur stack p index) := by
  unfold Sop.reconcilePendingStep
  split
  · exact .pure _
  · refine .ite (.pure _) (.bind (.ofExcept _) fun now => ?_)
    refine .ite (.pure _) (.ite (.pure _) ?_)
    exact .bind (orFail _ _ (w.startStep hrecur _ _ _ _ _)) fun moved => .pure _

lemma reconcilePasses (env : Env) (stack : List String) (fuel : ℕ) (run : Run) (changed : Bool) :
    Guarantees R (Sop.reconcilePasses env recur stack fuel run changed) := by
  induction fuel generalizing run changed with
  | zero => exact .throw _
  | succ fuel ih =>
      rw [Sop.reconcilePasses]
      refine .bind (.foldlM (fun p index => w.reconcileRunningStep hrecur _ _ _ _) _ _) fun p => ?_
      refine .bind (.foldlM (fun p index => w.reconcilePendingStep hrecur _ _ _ _) _ _) fun q => ?_
      exact .ite (ih _ _) (.pure _)

omit [JsonSchema] hrecur in
lemma settle [JsonSchema] (env : Env) (run : Run) (changed : Bool) :
    Guarantees R (Sop.settle env run changed) := by
  unfold Sop.settle
  refine .bind (.ofExcept _) fun now => .ite (.pure _) (.bind (w.persistRun _ _) fun saved => ?_)
  exact .ite (.bind (w.putTerminalOutbox _ _) fun _ => .pure _) (.pure _)

lemma reconcileBody (env : Env) (id : String) (stack : List String) :
    Guarantees R (Sop.reconcileBody env recur id stack) := by
  unfold Sop.reconcileBody
  refine .guard fun _ => .bind (getRun _) fun run => .ite (.pure _) ?_
  exact .bind (w.reconcilePasses hrecur _ _ _ _ _) fun result => w.settle _ _ _

omit hrecur in
lemma reconcileRun (env : Env) (depth : ℕ) (id : String) (stack : List String) :
    Guarantees R (Sop.reconcileRun env depth id stack) := by
  induction depth generalizing id stack with
  | zero => exact .throw _
  | succ depth ih => exact w.reconcileBody ih env id stack

omit hrecur in
/-- **What the procedures that write guarantee, reconciliation guarantees.** -/
theorem reconcileRunAndAncestors (env : Env) (id : String) :
    Guarantees R (Sop.reconcileRunAndAncestors env id) := by
  have hancestors : ∀ fuel seen next, Guarantees R (reconcileAncestors env fuel seen next) := by
    intro fuel
    induction fuel with
    | zero =>
        intro seen next
        cases next with
        | none => exact .pure _
        | some id => exact .throw _
    | succ fuel ih =>
        intro seen next
        cases next with
        | none => exact .pure _
        | some id =>
            rw [reconcileAncestors]
            refine .guard fun _ => .bind (w.reconcileRun _ _ _ _) fun _ => ?_
            exact .bind (getRun _) fun run => ih _ _
  exact .bind .store fun s => hancestors _ _ _

end Writes

end Sop

end McpSurfaces
