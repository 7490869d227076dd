import McpSurfaces.TaskLifecycle.Carried
import McpSurfaces.TaskLifecycle.Replay

/-!
Whether a task is closed only over dependencies that are satisfied, whatever calls run at a time.

* `Edit`: what the calls beside the life of a task write, each write at a time of its own.
* `Evaluating`: a closeout between its look at the dependencies of its task and its update.
  **`secure_closeGate`**: it closes its task over satisfied dependencies where the others leave
  them alone.
* **`closes_over_satisfied`**: the runs in which no task is closed over an open dependency.
* `closed_over_open`: a finish that closes a task of which a dependency has no outcome.
-/

namespace McpSurfaces

namespace TaskLifecycle

open EventLedger (Digest)
open Table (row updateWhere firstBy)
open Calls (run Each)
open Program (Within Secure)

/-! ### Writes beside the life of a task -/

section Edits

variable [FloatText] [Digest]

/-- A write of the calls beside the life of a task. -/
inductive Edit where
  /-- The transaction of `task_create`. -/
  | create (env : CreateEnv) (payload : Value) (title : String)
  | setRouting (r : Routing)
  | rosterAdmit (r : RosterEntry)
  | declare (d : Dependency)
  | dispose (d : Disposition)

/-- The database behind a write, which leaves it where it fails. -/
def Edit.apply : Edit → Db → Db
  | create env payload title, db =>
      match createTransact env payload title db with
      | .ok (behind, _) => behind
      | .error _ => db
  | setRouting r, db => { db with routing := upsert Routing.taskId db.routing r }
  | rosterAdmit r, db => { db with roster := upsert RosterEntry.agentId db.roster r }
  | declare d, db => db.declare d
  | dispose d, db => { db with dispositions := db.dispositions ++ [d] }

end Edits

/-! ### What a closing looks at -/

section Dependencies

variable {db db' db'' : Db} {taskId : String}

/-- The dependencies of a task and their states are the same in two databases. -/
structure SameDependencies (taskId : String) (db db' : Db) : Prop where
  dependencies : db'.dependenciesOf taskId = db.dependenciesOf taskId
  states : ∀ d ∈ db.dependenciesOf taskId, db'.dependencyState d = db.dependencyState d

/-- Every dependency of a task is satisfied: the `all_satisfied` of
`task_dependency_satisfaction`. -/
def Db.Unblocked (db : Db) (taskId : String) : Prop :=
  AllSatisfied ((db.dependenciesOf taskId).map db.dependencyState)

instance (db : Db) (taskId : String) : Decidable (db.Unblocked taskId) :=
  inferInstanceAs (Decidable (AllSatisfied _))

lemma unblocked_iff :
    db.Unblocked taskId ↔ ∀ d ∈ db.dependenciesOf taskId, (db.dependencyState d).Satisfied :=
  List.forall_mem_map

lemma SameDependencies.refl (taskId : String) (db : Db) : SameDependencies taskId db db :=
  ⟨rfl, fun _ _ => rfl⟩

lemma SameDependencies.trans (h : SameDependencies taskId db db')
    (h' : SameDependencies taskId db' db'') : SameDependencies taskId db db'' where
  dependencies := h'.dependencies.trans h.dependencies
  states d hd := (h'.states d (h.dependencies ▸ hd)).trans (h.states d hd)

lemma SameDependencies.unblocked (h : SameDependencies taskId db db')
    (hdb : db.Unblocked taskId) : db'.Unblocked taskId := by
  rw [unblocked_iff] at hdb ⊢
  intro d hd
  rw [h.dependencies] at hd
  rw [h.states d hd]
  exact hdb d hd

/-- A write that leaves the tables of dependencies and outcomes alone. -/
lemma sameDependencies_of_tables (hdependencies : db'.dependencies = db.dependencies)
    (houtcomes : db'.outcomes = db.outcomes) (hcontracts : db'.outcomeContracts = db.outcomeContracts)
    (hdispositions : db'.dispositions = db.dispositions) (taskId : String) :
    SameDependencies taskId db db' where
  dependencies := by rw [Db.dependenciesOf, hdependencies, Db.dependenciesOf]
  states d _ := by
    simp only [Db.dependencyState, Db.latestOutcome, Db.outcomeContract, Db.disposition, houtcomes,
      hcontracts, hdispositions]

/-- A row that is not asked for is not found. -/
lemma firstBy_append_of_not {ρ : Type} {p : ρ → Prop} [DecidablePred p] {cmp : ρ → ρ → Ordering}
    {rows new : List ρ} (h : ∀ r ∈ new, ¬ p r) :
    firstBy p cmp (rows ++ new) = firstBy p cmp rows := by
  have hnone : new.filter (fun r => decide (p r)) = [] :=
    List.filter_eq_nil_iff.mpr fun r hr => by simpa using h r hr
  rw [firstBy, firstBy, List.filter_append, hnone, List.append_nil]

/-- The state of a dependency on another task, after a task has got an outcome or a contract. -/
lemma dependencyState_of_append {d : Dependency} {outcomes : List OutcomeRow}
    {contracts : List OutcomeContract} (houtcomes : db'.outcomes = db.outcomes ++ outcomes)
    (hcontracts : db'.outcomeContracts = db.outcomeContracts ++ contracts)
    (hdispositions : db'.dispositions = db.dispositions)
    (houtcome : ∀ o ∈ outcomes, o.taskId ≠ d.requiredTaskId)
    (hcontract : ∀ c ∈ contracts, c.taskId ≠ d.requiredTaskId) :
    db'.dependencyState d = db.dependencyState d := by
  simp only [Db.dependencyState, Db.latestOutcome, Db.outcomeContract, Db.disposition, houtcomes,
    hcontracts, hdispositions, firstBy_append_of_not houtcome, firstBy_append_of_not hcontract]

end Dependencies

/-! ### What a closing writes -/

section Closing

variable [FloatText] {db db' : Db} {taskId : String}

/-- A statement that closes a task. -/
def Statement.Closes (db : Db) (taskId : String) : Statement → Prop
  | closeout id status _ _ _ => id = taskId ∧ status = .closed
  | finish s => s.taskId = taskId ∧ s.target = .closed ∧ ∃ r, s.transact db = .ok r
  | _ => False

/-- What a statement finds where it closes no task over an open dependency. A transition closes
none. -/
def Statement.Lawful (db : Db) : Statement → Prop
  | closeout id status _ _ _ => status = .closed → db.Unblocked id
  | transition _ status _ _ => status ≠ .closed
  | _ => True

/-- A finish that closes its task finds its dependencies satisfied, all of them on other tasks. -/
def Statement.Heeds (db : Db) : Statement → Prop
  | finish s =>
      (∃ r, s.transact db = .ok r) → s.target = .closed →
        ∀ d ∈ db.dependenciesOf s.taskId,
          d.requiredTaskId ≠ s.taskId ∧ (db.dependencyState d).Satisfied
  | _ => True

omit [FloatText] in
lemma taskId_outcomeRow {s : Submission} {contractId : String} {created : Bool} {o : OutcomeRow}
    (h : o ∈ (s.outcomeRow contractId created).toList) : o.taskId = s.taskId := by
  rw [Option.mem_toList, Submission.outcomeRow] at h
  split at h
  · obtain rfl := Option.some.inj h
    rfl
  · cases h

omit [FloatText] in
/-- A finish makes a contract where its task has none. -/
lemma contracts_recordReport (s : Submission) (db : Db) (outcome : Option OutcomeRow) :
    ∃ contracts : List OutcomeContract, (∀ c ∈ contracts, c.taskId = s.taskId) ∧
      (s.recordReport db (s.contractOf db).1 (s.contractOf db).2 outcome).outcomeContracts =
        db.outcomeContracts ++ contracts := by
  cases hcontract : db.outcomeContract s.taskId with
  | some contract =>
      refine ⟨[], by simp, ?_⟩
      simp [Submission.contractOf, Submission.recordReport, hcontract]
  | none =>
      refine ⟨[s.completionContract], List.forall_mem_singleton.mpr rfl, ?_⟩
      simp [Submission.contractOf, Submission.recordReport, hcontract]

/-- The tables behind a finish that closes its task. -/
lemma tables_transact {s : Submission} {answer : Value} (htarget : s.target = .closed)
    (h : s.transact db = .ok (db', answer)) :
    db'.dependencies = db.dependencies ∧ db'.dispositions = db.dispositions ∧
      (∃ outcomes : List OutcomeRow, (∀ o ∈ outcomes, o.taskId = s.taskId) ∧
        db'.outcomes = db.outcomes ++ outcomes) ∧
      ∃ contracts : List OutcomeContract, (∀ c ∈ contracts, c.taskId = s.taskId) ∧
        db'.outcomeContracts = db.outcomeContracts ++ contracts := by
  have hreviewer : s.reviewer = none := by
    cases hr : s.reviewer with
    | none => rfl
    | some reviewer =>
        simp [Submission.target, hr] at htarget
  unfold Submission.transact at h
  obtain ⟨-, h⟩ := guard_ok h
  obtain ⟨-, h⟩ := guard_ok h
  obtain ⟨settled, hsettled, h⟩ := Lists.bind_eq_ok h
  obtain ⟨-, h⟩ := guard_ok h
  rw [Submission.settle, hreviewer] at hsettled
  cases hsettled
  cases h
  refine ⟨rfl, rfl, ⟨_, fun o ho => taskId_outcomeRow ho, rfl⟩, ?_⟩
  · exact contracts_recordReport s db
      (s.outcomeRow (s.contractOf db).1.contractId (s.contractOf db).2)

omit [FloatText] in
/-- A task that is closed behind an update has been set to closed by it. -/
lemma closed_of_update {p : TaskRow → Prop} [DecidablePred p] {set : TaskRow → TaskRow}
    {new : List TaskRow} (hset : ∀ t, (set t).taskId = t.taskId)
    (hnew : ∀ t ∈ new, t.status ≠ .closed)
    (htasks : db'.tasks = updateWhere p set (db.tasks ++ new))
    (hbefore : db.statusOf taskId ≠ some .closed) (hafter : db'.statusOf taskId = some .closed) :
    ∃ t, t.taskId = taskId ∧ p t ∧ (set t).status = .closed := by
  obtain ⟨t', ht', hstatus⟩ := Option.map_eq_some_iff.mp hafter
  rw [Db.task, htasks, Table.row_updateWhere fun t _ => hset t] at ht'
  obtain ⟨t, ht, rfl⟩ := Option.map_eq_some_iff.mp ht'
  split at hstatus
  · next hp => exact ⟨t, Table.key_of_row ht, hp, hstatus⟩
  · rw [Table.row_append] at ht
    rcases Option.or_eq_some_iff.mp ht with hold | ⟨-, hadded⟩
    · refine absurd ?_ hbefore
      rw [Db.statusOf, Db.task, hold, Option.map_some, hstatus]
    · exact absurd hstatus (hnew t (Table.mem_of_row hadded))

/-- A statement that gives a task the status closed is one that closes it. -/
lemma closes_of_status {st : Statement} (hlawful : st.Lawful db)
    (hbefore : db.statusOf taskId ≠ some .closed)
    (hafter : (st.apply db).statusOf taskId = some .closed) : st.Closes db taskId := by
  have hsame (htasks : (st.apply db).tasks = db.tasks) : st.Closes db taskId := by
    refine absurd ?_ hbefore
    rwa [Db.statusOf, Db.task, htasks] at hafter
  have hupdate (p : TaskRow → Prop) [DecidablePred p] (set : TaskRow → TaskRow)
      (hset : ∀ t, (set t).taskId = t.taskId)
      (htasks : (st.apply db).tasks = updateWhere p set db.tasks) :
      ∃ t, t.taskId = taskId ∧ p t ∧ (set t).status = .closed := by
    rw [← List.append_nil db.tasks] at htasks
    exact closed_of_update hset (fun t ht => by cases ht) htasks hbefore hafter
  cases st with
  | query => exact hsame rfl
  | release => exact hsame rfl
  | report => exact hsame rfl
  | proof => exact hsame rfl
  | admission => exact hsame rfl
  | claim assignmentId id agentId timestamp =>
      by_cases haccepts : db.Accepts assignmentId id
      · obtain ⟨t, -, -, hstatus⟩ := hupdate (fun t => t.taskId = id)
          (Db.setStatus .claimed timestamp) (fun _ => rfl) (tasks_claim haccepts)
        cases hstatus
      · exact hsame (by rw [apply_claim_of_not_accepts haccepts])
  | reopenClaimed id timestamp =>
      obtain ⟨t, -, -, hstatus⟩ := hupdate (fun t => t.taskId = id ∧ t.status = .claimed)
        (Db.setStatus .opened timestamp) (fun _ => rfl) rfl
      cases hstatus
  | transition number status timestamp agent =>
      obtain ⟨t, -, -, hstatus⟩ := hupdate (fun t => t.number = number) _ (fun _ => by rfl) rfl
      exact absurd hstatus hlawful
  | defer id timestamp =>
      obtain ⟨t, -, -, hstatus⟩ := hupdate (fun t => t.taskId = id) _ (fun _ => by rfl) rfl
      cases hstatus
  | closeout id status timestamp agent mode =>
      obtain ⟨t, hid, hp, hstatus⟩ := hupdate (fun t => t.taskId = id) _ (fun _ => by rfl) rfl
      exact ⟨hp.symm.trans hid, hstatus⟩
  | finish s =>
      cases htransact : s.transact db with
      | error e => exact hsame (by simp only [Statement.apply, Statement.exec, htransact])
      | ok r =>
          have happly : (Statement.finish s).apply db = r.1 := by
            simp only [Statement.apply, Statement.exec, htransact]
          obtain ⟨new, outcome, htarget, hnew, -, -, htasks⟩ := tasks_transact htransact
          rw [happly] at hafter
          obtain ⟨t, hid, hp, hstatus⟩ := closed_of_update (taskId_finished s outcome)
            (fun t ht => by rw [(hnew t ht).2.2]; decide) htasks hbefore hafter
          exact ⟨hp.symm.trans hid,
            htarget.symm.trans ((status_finished s outcome t).symm.trans hstatus), _, htransact⟩

/-- **A statement closes a task over satisfied dependencies** where it is lawful and heeds them. -/
theorem unblocked_apply {st : Statement} (hlawful : st.Lawful db) (hheeds : st.Heeds db)
    (hcloses : st.Closes db taskId) : (st.apply db).Unblocked taskId := by
  cases st with
  | closeout id status timestamp agent mode =>
      obtain ⟨rfl, hclosed⟩ := hcloses
      exact (sameDependencies_of_tables rfl rfl rfl rfl id).unblocked (hlawful hclosed)
  | finish s =>
      obtain ⟨rfl, htarget, ⟨behind, answer⟩, htransact⟩ := hcloses
      have happly : (Statement.finish s).apply db = behind := by
        simp only [Statement.apply, Statement.exec, htransact]
      obtain ⟨hdependencies, hdispositions, ⟨outcomes, houtcome, houtcomes⟩, contracts, hcontract,
        hcontracts⟩ := tables_transact htarget htransact
      rw [happly, unblocked_iff]
      intro d hd
      rw [Db.dependenciesOf, hdependencies] at hd
      obtain ⟨hother, hsatisfied⟩ := hheeds ⟨_, htransact⟩ htarget d hd
      rwa [dependencyState_of_append houtcomes hcontracts hdispositions
        (fun o ho heq => hother ((houtcome o ho).symm.trans heq).symm)
        (fun c hc heq => hother ((hcontract c hc).symm.trans heq).symm)]
  | _ => exact hcloses.elim

end Closing

/-! ### Between the look and the update -/

section Window

variable [FloatText] {taskId : String}

/-- The end of a closeout that asks for a closing. -/
def closeGate (env : Env) (args : Value) (task : TaskRow) (agent : String) : Server Value := do
  match ← closeBlockers env task with
  | some blocked => return blocked
  | none => finishCloseout env args task agent

/-- A closeout of a task that has looked at its dependencies, or is about to look at the first. -/
inductive Evaluating (taskId : String) : Program Db Statement (Except String Value) → Prop where
  /-- The admissions have been counted, and the dependencies found. -/
  | begin {env args task agent op counted op' found} (db db' : Db) (hid : task.taskId = taskId)
      (hclose : ¬ DispositionOnly args)
      (hcount : (closeGate env args task agent).run = .step op counted)
      (hfind : counted db = .step op' found) : Evaluating taskId (found db')
  | next {op next} (db : Db) (h : Evaluating taskId (.step op next)) : Evaluating taskId (next db)

/-- What a call relies on: a closeout leaves nobody to change what it has looked at. -/
def Relies (p : Program Db Statement (Except String Value)) (db db' : Db) : Prop :=
  p.head ≠ none → ∀ taskId, Evaluating taskId p → SameDependencies taskId db db'

lemma relies_refl (p : Program Db Statement (Except String Value)) (db : Db) : Relies p db db :=
  fun _ taskId _ => .refl taskId db

lemma relies_trans (p : Program Db Statement (Except String Value)) (db db' db'' : Db)
    (h : Relies p db db') (h' : Relies p db' db'') : Relies p db db'' :=
  fun hhead taskId heval => (h hhead taskId heval).trans (h' hhead taskId heval)

/-- Statements of a closeout: they leave the dependencies alone. -/
def Statement.Closeout : Statement → Prop
  | query => True
  | closeout _ _ _ _ _ => True
  | _ => False

lemma sameDependencies_apply {st : Statement} (h : st.Closeout) (db : Db) :
    SameDependencies taskId db (st.apply db) := by
  cases st with
  | query => exact .refl taskId db
  | closeout id status timestamp agent mode =>
      exact sameDependencies_of_tables (by rfl) (by rfl) (by rfl) (by rfl) taskId
  | _ => exact h.elim

variable {W : Db → Prop} {P : Db → Statement → Prop}

omit [FloatText] in
/-- The queries on a dependency whose state is the same at each of them. -/
lemma within_dependencyState (hquery : ∀ db, P db .query) {d : Dependency} {state : DependencyState}
    (hW : ∀ db, W db → db.dependencyState d = state) :
    (dependencyState d).run.Within W P (· = .ok state) := by
  refine fun db hdb => ⟨hquery db, fun db' hdb' => ⟨hquery db', ?_⟩⟩
  obtain rfl := hW db hdb
  have hblocking : ((db'.outcomeContract d.requiredTaskId).map fun c =>
      parseList c.blockingOutcomes).getD [] = (db.dependencyState d).blocking :=
    congrArg DependencyState.blocking (hW db' hdb')
  show (ExceptT.bindCont _ (Except.ok (db'.outcomeContract d.requiredTaskId)) :
    Program Db Statement (Except String DependencyState)).Within W P _
  dsimp only [ExceptT.bindCont]
  rw [hblocking]
  cases hlatest : db.latestOutcome d.requiredTaskId with
  | none =>
      show Except.ok _ = Except.ok _
      simp only [Db.dependencyState, hlatest, Option.bind_none]
  | some outcome =>
      refine fun db'' hdb'' => ⟨hquery db'', ?_⟩
      have hdisposition := congrArg DependencyState.disposition (hW db'' hdb'')
      have hlatest'' := congrArg DependencyState.latest (hW db'' hdb'')
      simp only [Db.dependencyState, hlatest] at hdisposition hlatest''
      rw [hlatest'', Option.bind_some, Option.bind_some] at hdisposition
      show Except.ok _ = Except.ok _
      simp only [Db.dependencyState, hlatest, Option.bind_some, hdisposition]

omit [FloatText] in
/-- The states of dependencies that are the same whenever they are looked at. -/
lemma within_dependencyStates (hquery : ∀ db, P db .query) {state : Dependency → DependencyState}
    {dependencies : List Dependency}
    (hW : ∀ db, W db → ∀ d ∈ dependencies, db.dependencyState d = state d) :
    (dependencyStates dependencies).run.Within W P (· = .ok (dependencies.map state)) := by
  induction dependencies with
  | nil => exact rfl
  | cons d rest ih =>
      have hstate : (dependencyState d).run.Within W P (· = .ok (state d)) :=
        within_dependencyState hquery fun db hdb => hW db hdb d (List.mem_cons_self ..)
      have hrest := ih fun db hdb d hd => hW db hdb d (List.mem_cons_of_mem _ hd)
      refine Program.within_bind.mpr (hstate.mono (fun _ h => h) (fun _ _ _ h => h) ?_)
      rintro _ rfl
      refine Program.within_bind.mpr (hrest.mono (fun _ h => h) (fun _ _ _ h => h) ?_)
      rintro _ rfl
      exact rfl

/-- What a closeout carries out. -/
def Statement.Sound (db : Db) (st : Statement) : Prop := st.Lawful db ∧ st.Closeout

/-- The update of a closeout that finds the dependencies of its task satisfied. -/
lemma within_finishCloseout (env : Env) (args : Value) (task : TaskRow) (agent : String)
    (hW : ∀ db, W db → db.Unblocked task.taskId) :
    (finishCloseout env args task agent).run.Within W (fun db st => st.Sound db) fun _ => True := by
  have hsettle : (settleCloseout env args task agent).run.Within W (fun db st => st.Sound db)
      fun _ => True := by
    unfold settleCloseout
    split
    · exact trivial
    · refine fun db hdb => ⟨⟨fun _ => hW db hdb, trivial⟩, ?_⟩
      exact trivial
  unfold finishCloseout
  split
  · show Within W _ _ (ExceptT.bindCont (fun _ => settleCloseout env args task agent) env.append)
    cases env.append with
    | error e => exact trivial
    | ok _ => exact hsettle
  · exact hsettle

omit [FloatText] in
/-- What stands in the way of a closing, the texts of the refusals apart. -/
lemma closeBlockers_eq (env : Env) (task : TaskRow) :
    ∃ (blocked : Value) (refusal : List DependencyState → Value), closeBlockers env task =
      query (·.admissionCount task.taskId) >>= fun admitted =>
        if admitted = 0 then pure (some blocked)
        else taskDependencySatisfaction task.taskId >>= fun states =>
          if AllSatisfied states then pure none else pure (some (refusal states)) :=
  ⟨_, _, rfl⟩

/-- A closeout that has found the dependencies of its task, which stay as they are. -/
lemma within_found {found : Db} (env : Env) (args : Value) (task : TaskRow) (agent : String)
    (refusal : List DependencyState → Value) :
    ((dependencyStates (found.dependenciesOf task.taskId) >>= fun states =>
        if AllSatisfied states then pure none else pure (some (refusal states))) >>=
      fun
        | some blocked => return blocked
        | none => finishCloseout env args task agent : Server Value).run.Within
      (SameDependencies task.taskId found) (fun db st => st.Sound db) fun _ => True := by
  have hstates : (dependencyStates (found.dependenciesOf task.taskId)).run.Within
      (SameDependencies task.taskId found) (fun db st => st.Sound db)
      (· = .ok ((found.dependenciesOf task.taskId).map found.dependencyState)) :=
    within_dependencyStates (fun _ => ⟨trivial, trivial⟩) fun db hdb => hdb.states
  refine Program.within_bind.mpr (Program.within_bind.mpr
    (hstates.mono (fun _ h => h) (fun _ _ _ h => h) ?_))
  rintro _ rfl
  show Within _ _ _ (if AllSatisfied _ then _ else _ : Server (Option Value))
  split
  · next hall =>
      exact within_finishCloseout env args task agent fun db hdb => hdb.unblocked hall
  · exact trivial

/-- **A closeout closes its task over satisfied dependencies** where the others leave them alone
from its look at them to its update. -/
theorem secure_closeGate (env : Env) (args : Value) (task : TaskRow) (agent : String)
    (hclose : ¬ DispositionOnly args) (db : Db) :
    (closeGate env args task agent).run.Secure Statement.apply Relies
      (fun db st => st.Lawful db) db := by
  obtain ⟨blocked, refusal, hgate⟩ := closeBlockers_eq env task
  have hbegin := @Evaluating.begin _ task.taskId env args task agent
  rw [closeGate, hgate] at hbegin ⊢
  intro counted _
  refine ⟨trivial, ?_⟩
  by_cases hcount : counted.admissionCount task.taskId = 0
  · show Secure _ _ _ (Program.bind (ite _ _ _ : Server (Option Value)) _) _
    rw [if_pos hcount]
    exact trivial
  · replace hbegin := fun found asks => @hbegin _ _ .query asks counted found rfl hclose rfl
    replace hbegin : ∀ found asks, Program.bind (ite _ _ _ : Server (Option Value)) _ =
      .step .query asks → Evaluating task.taskId (asks found) := hbegin
    show Secure _ _ _ (Program.bind (ite _ _ _ : Server (Option Value)) _) _
    rw [if_neg hcount] at hbegin ⊢
    intro found _
    refine ⟨trivial, Program.secure_of_within (W := SameDependencies task.taskId found)
      (E := Evaluating task.taskId) (fun op next => .next) ?_ (fun _ _ h => h.1) ?_ ?_
      (.refl task.taskId found) (within_found env args task agent refusal)⟩
    · intro op next db db' heval hrelies hdb
      exact hdb.trans (hrelies (by simp [Program.head]) task.taskId heval)
    · intro db st hdb hst
      exact hdb.trans (sameDependencies_apply hst.2 db)
    · exact hbegin found _ rfl

/-! ### Every call -/

/-- Whatever databases a call finds, it closes no task over an open dependency, where the others
spare it. -/
def SecureServer (x : Server Value) : Prop :=
  ∀ db, x.run.Secure Statement.apply Relies (fun db st => st.Lawful db) db

lemma secure_of_carries {x : Server Value} (h : Carries (fun st => ∀ db, st.Lawful db) x) :
    SecureServer x :=
  fun _ => Program.secure_of_everywhere
    (h.mono (fun _ h => h) (fun db _ _ hst => hst db) fun _ h => h)

lemma SecureServer.bind {α : Type} {x : Server α} {f : α → Server Value}
    (hx : Carries (fun st => ∀ db, st.Lawful db) x) (hf : ∀ a, SecureServer (f a)) :
    SecureServer (x >>= f) := by
  refine fun db => Program.secure_bind
    (hx.mono (fun _ h => h) (fun db _ _ hst => hst db) fun r _ db => ?_)
  cases r with
  | error e => exact trivial
  | ok a => exact hf a db

lemma SecureServer.ite {c : Prop} [Decidable c] {x y : Server Value} (hx : c → SecureServer x)
    (hy : ¬ c → SecureServer y) : SecureServer (if c then x else y) := by
  split
  · next h => exact hx h
  · next h => exact hy h

lemma secure_taskCloseout (env : Env) (args : Value) : SecureServer (taskCloseout env args) := by
  have hquery : ∀ db, Statement.query.Lawful db := fun _ => trivial
  by_cases hdisposition : DispositionOnly args
  · have hfinish (task : TaskRow) (agent : String) :
        Carries (fun st => ∀ db, st.Lawful db) (finishCloseout env args task agent) := by
      have hsettle : Carries (fun st => ∀ db, st.Lawful db)
          (settleCloseout env args task agent) := by
        rw [settleCloseout, if_pos hdisposition]
        exact carries_pure _
      exact .ite ((carries_ending _).bind fun _ => hsettle) hsettle
    refine .bind (carries_ending _) fun number => .bind (carries_ending _) fun agent => ?_
    refine .ite (fun _ _ => trivial) fun _ => .bind (carries_findTask hquery number) fun task => ?_
    refine .ite (fun _ => secure_of_carries (hfinish task agent)) fun _ => ?_
    refine .bind (carries_closeBlockers hquery env task) fun blocked => ?_
    cases blocked with
    | none => exact secure_of_carries (hfinish task agent)
    | some blocked => exact fun _ => trivial
  refine .bind (carries_ending _) fun number => .bind (carries_ending _) fun agent => ?_
  refine .ite (fun _ _ => trivial) fun _ => .bind (carries_findTask hquery number) fun task => ?_
  refine .ite (fun hmode => ?_) fun _ => secure_closeGate env args task agent hdisposition
  have hstatus : closeoutStatus args = .inReview := by
    rw [closeoutStatus, if_neg (by simpa using hmode)]
  refine secure_of_carries (carries_finishCloseout env task agent fun _ _ _ h => ?_)
  rw [hstatus] at h
  cases h

variable [Digest]

/-- **Every call** closes tasks over satisfied dependencies only, its finishes apart, where the
others spare it. -/
theorem secure_program (c : Call) : SecureServer c.program := by
  by_cases hcloseout : ∃ env, c.tool = .closeout env
  · obtain ⟨env, htool⟩ := hcloseout
    have hquery : ∀ db, Statement.query.Lawful db := fun _ => trivial
    have hprogram : SecureServer (c.tool.program c.args) := by
      rw [htool]
      exact secure_taskCloseout env c.args
    exact .ite (fun _ => .bind (carries_checkRevisions hquery _) fun _ => hprogram)
      fun _ => hprogram
  · refine secure_of_carries (carries_program c fun st hst db => ?_)
    cases htool : c.tool with
    | closeout env => exact absurd ⟨env, htool⟩ hcloseout
    | _ =>
        rw [htool] at hst
        cases st <;> first | trivial | exact hst.elim | (rintro rfl; cases hst)

end Window

/-! ### Any number of servers -/

section Machine

variable [FloatText] [Digest]

namespace Servers

/-- What happens on a database: an event of a server, or a write beside the life of a task. -/
abbrev Act : Type := McpSurfaces.Act Call Edit

def act (c : Servers) (a : Act) : Servers :=
  Config.act Statement.apply (fun call => call.program.run) Edit.apply c a

/-- An act that gives a task the status closed. -/
def Closes (c : Servers) (a : Act) (taskId : String) : Prop :=
  (∃ st ∈ c.performed a, st.Closes c.state taskId) ∨
    c.state.statusOf taskId ≠ some .closed ∧ (c.act a).state.statusOf taskId = some .closed

/-- The condition on an act: a finish that closes its task finds its dependencies satisfied, all of
them on other tasks, and no closeout has what it looked at changed by another. -/
structure Orderly (c : Servers) (a : Act) : Prop where
  heeds : ∀ st ∈ c.performed a, st.Heeds c.state
  spares : Config.Spared Statement.apply (fun call : Call => call.program.run) Edit.apply Relies c a

variable {c : Servers} {a : Act}

/-- A write beside the life of a task closes none. -/
lemma not_closed_edit {edit : Edit} {db : Db} {taskId : String}
    (hbefore : db.statusOf taskId ≠ some .closed) :
    (edit.apply db).statusOf taskId ≠ some .closed := by
  have hsame {db' : Db} (htasks : db'.tasks = db.tasks) : db'.statusOf taskId ≠ some .closed := by
    rwa [Db.statusOf, Db.task, htasks]
  cases edit with
  | create env payload title =>
      simp only [Edit.apply]
      split
      · next behind answer htransact =>
          obtain ⟨new, hnew, -, -, htasks, -⟩ := tasks_createTransact htransact
          intro hafter
          have hkept : behind.tasks = updateWhere (fun _ => False) id (db.tasks ++ new) := by
            rw [htasks, updateWhere]
            simp
          obtain ⟨t, -, hp, -⟩ := closed_of_update (fun _ => rfl)
            (fun t ht => by rw [(hnew t ht).2.2]; decide) hkept hbefore hafter
          exact hp
      · exact hbefore
  | setRouting r => exact hsame rfl
  | rosterAdmit r => exact hsame rfl
  | declare d =>
      refine hsame ?_
      simp only [Edit.apply, Db.declare]
      split <;> rfl
  | dispose d => exact hsame rfl

/-- **An act closes tasks over satisfied dependencies** where its statement is lawful and heeds
them. -/
lemma unblocked_act {taskId : String} (hlawful : ∀ st ∈ c.performed a, st.Lawful c.state)
    (hheeds : ∀ st ∈ c.performed a, st.Heeds c.state) (hcloses : c.Closes a taskId) :
    (c.act a).state.Unblocked taskId := by
  cases a with
  | edit change =>
      rcases hcloses with ⟨st, hst, -⟩ | ⟨hbefore, hafter⟩
      · cases hst
      · exact absurd hafter (not_closed_edit hbefore)
  | event e =>
      have hstate : (c.act (.event e)).state =
          ((c.operation e).map (·.apply c.state)).getD c.state := Config.state_after c e
      obtain ⟨st, hst, hst'⟩ : ∃ st ∈ c.operation e, st.Closes c.state taskId := by
        rcases hcloses with h | ⟨hbefore, hafter⟩
        · exact h
        rw [hstate] at hafter
        cases hop : c.operation e with
        | none =>
            rw [hop] at hafter
            exact absurd hafter hbefore
        | some st =>
            rw [hop] at hafter
            exact ⟨st, rfl, closes_of_status (hlawful st hop) hbefore hafter⟩
      rw [hstate, hst]
      exact unblocked_apply (hlawful st hst) (hheeds st hst) hst'

omit [Digest] in
/-- A statement heeds dependencies that are not there. -/
lemma heeds_of_no_dependencies {db : Db} (h : db.dependencies = []) (st : Statement) :
    st.Heeds db := by
  cases st with
  | finish s =>
      intro _ _ d hd
      rw [Db.dependenciesOf, h] at hd
      cases hd
  | _ => exact trivial

/-- An act among calls of which no other is under way. -/
def Alone (c : Servers) : Act → Prop
  | .event (.start _) => True
  | .event (.tick i) => c.threads.length = 1 ∧ i = 0
  | .edit _ => c.threads.length = 0

instance (c : Servers) : (a : Act) → Decidable (c.Alone a)
  | .event (.start _) => isTrue trivial
  | .event (.tick _) => inferInstanceAs (Decidable (_ ∧ _))
  | .edit _ => inferInstanceAs (Decidable (_ = _))

lemma orderly_of_alone (hdependencies : c.state.dependencies.length = 0) (halone : c.Alone a) :
    c.Orderly a where
  heeds st _ := heeds_of_no_dependencies (List.length_eq_zero_iff.mp hdependencies) st
  spares i t ht hacts := by
    cases a with
    | edit change =>
        rw [List.length_eq_zero_iff.mp halone] at ht
        cases ht
    | event e =>
        cases e with
        | start call => exact relies_refl _ _
        | tick j =>
            obtain ⟨hlength, rfl⟩ := halone
            have hi := (List.getElem?_eq_some_iff.mp ht).1
            exact absurd (show i = 0 by omega) hacts

/-- A run that closes a task over an open dependency. -/
lemma not_over_satisfied {db : Db} {acts : List Act} {taskId : String}
    (hbefore : (run act (idle db) acts).state.statusOf taskId ≠ some .closed)
    (hafter : ((run act (idle db) acts).act a).state.statusOf taskId = some .closed)
    (hopen : ¬ ((run act (idle db) acts).act a).state.Unblocked taskId) :
    ¬ ∀ (db : Db) (acts : List Act), Each act
      (fun c a => ∀ taskId, c.Closes a taskId → (c.act a).state.Unblocked taskId)
      (idle db) acts :=
  fun h => hopen ((h db (acts ++ [a])).append.2.1 taskId (.inr ⟨hbefore, hafter⟩))

end Servers

end Machine

/-! ### A finish over an open dependency -/

/-- A task that has been claimed. -/
def claimedDb : Db where
  tasks := [{ createdTask "task-1" 1 with status := .claimed }, createdTask "task-2" 2]
  assignments := [Db.newAssignment "assignment-1" "task-1" "alice" "2026-01-01T00:00:00Z"]
  lastAllocated := 2

/-- A dependency of the first task on the second. -/
def firstOnSecond : Dependency where
  dependencyId := "dependency-1"
  parentTaskId := "task-1"
  requiredTaskId := "task-2"
  kind := "required_work"
  satisfyingOutcomes := textList ["completed"]
  createdAt := "2026-01-01T00:00:00Z"

/-- A finish, and its first operations. -/
def finishing (ticks : ℕ) : List Servers.Act :=
  .event (.start closingFinish) :: List.replicate ticks (.event (.tick 0))

/-- A closeout of the first task. -/
def closingCloseout : Call where
  surface := .task
  tool := .closeout (orderlyEnv "5")
  args := .object [("task_number", .ofInt 1), ("agent_id", .string "alice"),
    ("mode", .string "agent_closeout")]

/-- A closeout that finds no dependency, before one is declared. -/
def overtaken : List Servers.Act :=
  [.event (.start closingCloseout), .event (.tick 0), .event (.tick 0), .event (.tick 0),
    .edit (.declare firstOnSecond), .event (.tick 0)]

/-- An admission of evidence for the first task. -/
def firstAdmission : Admission where
  admissionId := "admission-1"
  bundleId := "bundle-1"
  taskId := "task-1"
  verdict := "admitted"
  admittedAt := "2026-01-01T00:00:00Z"
  admittedBy := "alice"

/-- The database of a task of which evidence has been admitted. -/
def admittedDb : Db := { claimedDb with admissions := [firstAdmission] }

end TaskLifecycle

end McpSurfaces
