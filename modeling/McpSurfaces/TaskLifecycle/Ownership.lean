import McpSurfaces.Foundation.Fallible
import McpSurfaces.TaskLifecycle.Operations

/-!
Who owns a task, when any number of servers work on one database.

* `Looked`: a server inserts an assignment only when it has just seen none open on its task.
  Every program of a call does so (`careful_program`).
* **`one_owner_iff`**: every task has one open assignment at most, at any time, exactly when no
  claim goes through while an assignment is open that its check did not see.
* `two_owners`: two claims that check before either of them inserts.
-/

namespace McpSurfaces

namespace TaskLifecycle

open EventLedger (Digest)
open Program (Careful Watches)
open Config (Watched watched_after)
open Calls (run Each)

/-! ### Open assignments -/

/-- Every task has one open assignment at most. -/
def OneOwner (db : Db) : Prop := ∀ taskId, (db.openAssignments taskId).length ≤ 1

lemma mem_openAssignments {db : Db} {taskId : String} {a : Assignment} :
    a ∈ db.openAssignments taskId ↔
      a ∈ db.assignments ∧ a.taskId = taskId ∧ a.releasedAt = none := by
  simp [Db.openAssignments]

section Statements

variable [FloatText] {db : Db} {taskId : String}

/-- A claim that goes through adds its assignment. -/
lemma assignments_claim {assignmentId agentId timestamp : String}
    (h : db.Accepts assignmentId taskId) :
    ((Statement.claim assignmentId taskId agentId timestamp).apply db).assignments =
      db.assignments ++ [Db.newAssignment assignmentId taskId agentId timestamp] := by
  simp only [Statement.apply, Statement.exec, Db.claim_of_accepts agentId timestamp h, Except.map]

lemma tasks_claim {assignmentId agentId timestamp : String}
    (h : db.Accepts assignmentId taskId) :
    ((Statement.claim assignmentId taskId agentId timestamp).apply db).tasks =
      Table.updateWhere (fun t => t.taskId = taskId) (Db.setStatus .claimed timestamp)
        db.tasks := by
  simp only [Statement.apply, Statement.exec, Db.claim_of_accepts agentId timestamp h, Except.map]
  rfl

lemma apply_claim_of_not_accepts {assignmentId agentId timestamp : String}
    (h : ¬ db.Accepts assignmentId taskId) :
    (Statement.claim assignmentId taskId agentId timestamp).apply db = db := by
  obtain ⟨e, he⟩ := Db.claim_of_not_accepts agentId timestamp h
  simp only [Statement.apply, Statement.exec, he, Except.map]

omit [FloatText] in
lemma assignments_requestReview {s : Submission} {db db' : Db} {reviewer : String}
    (h : s.requestReview db reviewer = .ok db') : db'.assignments = db.assignments := by
  simp only [Submission.requestReview] at h
  split at h
  · cases h
  split at h
  · cases h
  split at h
  · cases h
  · cases h
    rfl

omit [FloatText] in
lemma assignments_settle {s : Submission} {db db' : Db} {outcome : Option OutcomeRow}
    (h : s.settle db outcome = .ok db') : db'.assignments = db.assignments := by
  unfold Submission.settle at h
  split at h
  · cases hrequest : s.requestReview db _ with
    | error e => rw [hrequest] at h; cases h
    | ok requested =>
        have hkept : requested.assignments = db.assignments := assignments_requestReview hrequest
        rw [hrequest] at h
        cases h
        exact hkept
  · cases h
    rfl

/-- A finish leaves the assignments. -/
lemma assignments_transact {s : Submission} {db db' : Db} {answer : Value}
    (h : s.transact db = .ok (db', answer)) : db'.assignments = db.assignments := by
  unfold Submission.transact at h
  obtain ⟨-, h⟩ := guard_ok h
  obtain ⟨-, h⟩ := guard_ok h
  obtain ⟨settled, hsettled, h⟩ := Lists.bind_eq_ok h
  obtain ⟨-, h⟩ := guard_ok h
  have hkept := assignments_settle hsettled
  cases h
  exact hkept

/-- **What a statement does to the assignments**: a claim adds one, a release closes those of its
id, and nothing else touches them. -/
lemma assignments_apply (st : Statement) (db : Db) :
    (st.apply db).assignments = db.assignments ∨
      (∃ assignmentId taskId agentId timestamp,
        st = .claim assignmentId taskId agentId timestamp ∧ db.Accepts assignmentId taskId ∧
          (st.apply db).assignments =
            db.assignments ++ [Db.newAssignment assignmentId taskId agentId timestamp]) ∨
      ∃ assignmentId timestamp reason, st = .release assignmentId timestamp reason ∧
        st.apply db = db.release assignmentId timestamp reason := by
  cases st with
  | claim assignmentId taskId agentId timestamp =>
      by_cases h : db.Accepts assignmentId taskId
      · exact .inr (.inl ⟨_, _, _, _, rfl, h, assignments_claim h⟩)
      · rw [apply_claim_of_not_accepts h]
        exact .inl rfl
  | release assignmentId timestamp reason => exact .inr (.inr ⟨_, _, _, rfl, rfl⟩)
  | finish s =>
      refine .inl ?_
      simp only [Statement.apply, Statement.exec]
      cases h : s.transact db with
      | error e => rfl
      | ok behind => exact assignments_transact h
  | query => exact .inl rfl
  | reopenClaimed => exact .inl rfl
  | transition => exact .inl rfl
  | report => exact .inl rfl
  | defer => exact .inl rfl
  | closeout => exact .inl rfl
  | proof => exact .inl rfl
  | admission => exact .inl rfl

omit [FloatText] in
/-- A release closes the open assignments of its id. -/
lemma openAssignments_release (db : Db) (assignmentId timestamp reason taskId : String) :
    (db.release assignmentId timestamp reason).openAssignments taskId =
      (db.openAssignments taskId).filter fun a => a.assignmentId ≠ assignmentId := by
  simp only [Db.openAssignments, Db.release, Table.updateWhere, List.filter_filter]
  induction db.assignments with
  | nil => rfl
  | cons a rest ih =>
      simp only [List.map_cons, List.filter_cons, ih]
      by_cases hopen : a.releasedAt = none <;> by_cases hid : a.assignmentId = assignmentId <;>
        simp [Db.Released, hopen, hid]

omit [FloatText] in
lemma openAssignments_of_assignments {db db' : Db} (h : db'.assignments = db.assignments)
    (taskId : String) : db'.openAssignments taskId = db.openAssignments taskId := by
  rw [Db.openAssignments, Db.openAssignments, h]

lemma openAssignments_claim {assignmentId agentId timestamp : String}
    (h : db.Accepts assignmentId taskId) (other : String) :
    ((Statement.claim assignmentId taskId agentId timestamp).apply db).openAssignments other =
      db.openAssignments other ++
        if other = taskId then [Db.newAssignment assignmentId taskId agentId timestamp]
        else [] := by
  rw [Db.openAssignments, assignments_claim h, List.filter_append, Db.openAssignments]
  by_cases hother : other = taskId <;> simp [Db.newAssignment, hother, eq_comm]

/-- An assignment that is open stays open until it is released. -/
lemma mem_openAssignments_apply {a : Assignment} (h : a ∈ db.openAssignments taskId)
    (st : Statement) : a ∈ (st.apply db).openAssignments taskId ∨
      ∃ timestamp reason, st = .release a.assignmentId timestamp reason := by
  rcases assignments_apply st db with heq | ⟨_, claimed, _, _, rfl, haccepts, -⟩ |
    ⟨assignmentId, timestamp, reason, rfl, heq⟩
  · rw [openAssignments_of_assignments heq]
    exact .inl h
  · rw [openAssignments_claim haccepts]
    exact .inl (List.mem_append_left _ h)
  · by_cases hid : a.assignmentId = assignmentId
    · exact .inr ⟨timestamp, reason, by rw [hid]⟩
    · rw [heq, openAssignments_release]
      exact .inl (List.mem_filter.mpr ⟨h, by simpa using hid⟩)

/-- A statement that is no claim of a task adds no open assignment to it. -/
lemma length_openAssignments_apply (st : Statement) (db : Db) (taskId : String)
    (h : ∀ assignmentId agentId timestamp, st = .claim assignmentId taskId agentId timestamp →
      ¬ db.Accepts assignmentId taskId) :
    ((st.apply db).openAssignments taskId).length ≤ (db.openAssignments taskId).length := by
  rcases assignments_apply st db with heq | ⟨_, claimed, _, _, rfl, haccepts, -⟩ |
    ⟨_, _, _, rfl, heq⟩
  · rw [openAssignments_of_assignments heq]
  · have hother : taskId ≠ claimed := by
      rintro rfl
      exact h _ _ _ rfl haccepts
    rw [openAssignments_claim haccepts, if_neg hother, List.append_nil]
  · rw [heq, openAssignments_release]
    exact List.length_filter_le _ _

end Statements

/-! ### A claim looks first -/

/-- What a statement asks of the database that its program has just seen: a claim, that no
assignment was open on its task. -/
def Looked (db : Db) : Statement → Prop
  | .claim _ taskId _ _ => db.openAssignments taskId = []
  | _ => True

section Programs

variable [FloatText] {α β : Type}

/-- A server that inserts an assignment only after it has seen none. -/
def CarefulServer (x : Server α) : Prop := Careful Looked x.run

section

omit [FloatText]

lemma CarefulServer.bind {x : Server α} {f : α → Server β} (hx : CarefulServer x)
    (hf : ∀ a, CarefulServer (f a)) : CarefulServer (x >>= f) := by
  refine Careful.bind hx fun r => ?_
  cases r with
  | ok a => exact hf a
  | error e => exact Program.careful_done _

lemma careful_pure (a : α) : CarefulServer (pure a : Server α) := Program.careful_done _

lemma careful_throw (e : String) : CarefulServer (throw e : Server α) := Program.careful_done _

lemma careful_ending (r : Except String α) : CarefulServer (ending r) := Program.careful_done _

lemma careful_query (f : Db → α) : CarefulServer (query f) where
  first op hop s := by
    obtain rfl : Statement.query = op := by simpa [query, Program.head] using hop
    trivial
  watches s := ⟨fun op hop => by simp [Program.head] at hop, trivial⟩

end

lemma careful_execute {st : Statement} (h : ∀ db, Looked db st) :
    CarefulServer (execute st) where
  first op hop s := by
    obtain rfl : st = op := by simpa [execute, Program.head] using hop
    exact h s
  watches s := ⟨fun op hop => by simp [Program.head] at hop, trivial⟩

omit [FloatText] in
lemma CarefulServer.ite {c : Prop} [Decidable c] {x y : Server α} (hx : CarefulServer x)
    (hy : CarefulServer y) : CarefulServer (if c then x else y) := by
  split
  · exact hx
  · exact hy

omit [FloatText] in
lemma careful_findTask (number : ℤ) : CarefulServer (findTask number) := by
  refine (careful_query _).bind fun task => ?_
  cases task with
  | none => exact careful_throw _
  | some task => exact careful_pure _

/-! ### Claims -/

omit [FloatText] in
lemma careful_claimGuard (taskId agent : String) : CarefulServer (claimGuard taskId agent) := by
  refine (careful_query _).bind fun routing => ?_
  cases routing with
  | none => exact careful_pure _
  | some routing =>
      refine .ite (careful_throw _) ?_
      cases hrole : routing.requiredRole with
      | none => simpa only [hrole] using careful_pure _
      | some required =>
          have hguard : CarefulServer (roleGuard required agent) :=
            (careful_query _).bind fun role => .ite (careful_throw _) (careful_pure _)
          simpa only [hrole] using hguard

/-- The end of a claim, its transaction behind it. -/
lemma watches_takeClaim (env : Env) (task : TaskRow) (agent : String) :
    (takeClaim env task agent).run.Watches Looked := by
  have hclaim : (execute (.claim ("assignment-" ++ env.uuid 0) task.taskId agent
      (env.now 0))).run.Watches Looked :=
    fun s => ⟨fun op hop => by simp [Program.head] at hop, trivial⟩
  refine Watches.bind hclaim fun r => ?_
  cases r with
  | error e => exact Program.careful_done _
  | ok _ => exact (careful_ending _).bind fun _ => careful_pure _

/-- **An assignment is inserted right after a query that saw none open.** -/
lemma careful_claimUnassigned (env : Env) (task : TaskRow) (agent : String) :
    CarefulServer (claimUnassigned env task agent) where
  first op hop db := by
    have hhead : (claimUnassigned env task agent).run.head = some .query := rfl
    rw [hhead] at hop
    obtain rfl := Option.some.inj hop
    trivial
  watches db := by
    show (∀ op ∈ (claimFound env task agent (db.activeAssignment task.taskId)).run.head,
      Looked db op) ∧ (claimFound env task agent (db.activeAssignment task.taskId)).run.Watches
        Looked
    cases hactive : db.activeAssignment task.taskId with
    | none =>
        refine ⟨fun op hop => ?_, watches_takeClaim env task agent⟩
        obtain rfl := Option.some.inj hop
        exact activeAssignment_eq_none_iff.mp hactive
    | some active =>
        have hanswer : CarefulServer (claimFound env task agent (some active)) :=
          .ite (careful_pure _) (careful_throw _)
        exact ⟨fun op hop => hanswer.first op hop db, hanswer.watches⟩

lemma careful_taskClaim (env : Env) (args : Value) : CarefulServer (taskClaim env args) := by
  refine (careful_ending _).bind fun number => (careful_ending _).bind fun agent => ?_
  refine (careful_findTask number).bind fun task => .ite (careful_throw _) ?_
  exact (careful_claimGuard _ _).bind fun _ => careful_claimUnassigned env task agent

/-! ### The other calls -/

lemma careful_taskUnclaim (env : Env) (args : Value) : CarefulServer (taskUnclaim env args) := by
  refine (careful_ending _).bind fun number => (careful_findTask number).bind fun task => ?_
  refine (careful_query _).bind fun active => ?_
  cases active with
  | none => exact careful_pure _
  | some active =>
      refine .ite (careful_pure _) ?_
      refine (careful_execute fun _ => by trivial).bind fun changed => ?_
      refine (careful_execute fun _ => by trivial).bind fun _ => ?_
      exact (careful_ending _).bind fun _ => careful_pure _

lemma careful_taskTransition (env : Env) (args : Value) (status : Status) :
    CarefulServer (taskTransition env args status) := by
  refine (careful_ending _).bind fun number => (careful_findTask number).bind fun task => ?_
  refine .ite (careful_pure _) ((careful_execute fun _ => by trivial).bind fun changed => ?_)
  exact .ite (careful_throw _) ((careful_ending _).bind fun _ => careful_pure _)

lemma careful_taskReportBlocked (env : Env) (args : Value) :
    CarefulServer (taskReportBlocked env args) := by
  refine (careful_ending _).bind fun number => (careful_ending _).bind fun agent => ?_
  refine (careful_ending _).bind fun reason => (careful_findTask number).bind fun task => ?_
  refine (careful_execute fun _ => by trivial).bind fun _ => ?_
  exact .ite ((careful_execute fun _ => by trivial).bind fun _ => careful_pure _) (careful_pure _)

lemma careful_taskAdmitEvidence (env : Env) (args : Value) :
    CarefulServer (taskAdmitEvidence env args) := by
  refine (careful_ending _).bind fun number => (careful_ending _).bind fun agent => ?_
  refine (careful_findTask number).bind fun task => (careful_query _).bind fun reportIds => ?_
  refine (careful_query _).bind fun proofIds => (careful_ending _).bind fun methods => ?_
  exact .ite (careful_pure _) ((careful_execute fun _ => by trivial).bind fun _ => careful_pure _)

lemma careful_taskProveCriteria (env admitting : Env) (args : Value) :
    CarefulServer (taskProveCriteria env admitting args) := by
  refine (careful_ending _).bind fun number => (careful_ending _).bind fun agent => ?_
  refine (careful_query _).bind fun spec => ?_
  cases spec with
  | none => exact careful_throw _
  | some spec =>
      refine (careful_ending _).bind fun changed => .ite (careful_pure _) ?_
      refine (careful_execute fun _ => by trivial).bind fun _ => ?_
      exact (careful_taskAdmitEvidence _ _).bind fun _ => careful_pure _

omit [FloatText] in
lemma careful_dependencyStates (dependencies : List Dependency) :
    CarefulServer (dependencyStates dependencies) := by
  induction dependencies with
  | nil => exact careful_pure _
  | cons d rest ih =>
      have hstate : CarefulServer (dependencyState d) := by
        refine (careful_query _).bind fun latest => (careful_query _).bind fun contract => ?_
        cases latest with
        | none => exact careful_pure _
        | some outcome => exact (careful_query _).bind fun _ => careful_pure _
      exact hstate.bind fun state => ih.bind fun _ => careful_pure _

omit [FloatText] in
lemma careful_closeBlockers (env : Env) (task : TaskRow) :
    CarefulServer (closeBlockers env task) := by
  refine (careful_query _).bind fun admitted => .ite (careful_pure _) ?_
  have hstates : CarefulServer (taskDependencySatisfaction task.taskId) :=
    (careful_query _).bind careful_dependencyStates
  exact hstates.bind fun states => .ite (careful_pure _) (careful_pure _)

lemma careful_finishCloseout (env : Env) (args : Value) (task : TaskRow) (agent : String) :
    CarefulServer (finishCloseout env args task agent) := by
  have hsettle : CarefulServer (settleCloseout env args task agent) :=
    .ite (careful_pure _) ((careful_execute fun _ => by trivial).bind fun _ => careful_pure _)
  exact .ite ((careful_ending _).bind fun _ => hsettle) hsettle

lemma careful_taskCloseout (env : Env) (args : Value) :
    CarefulServer (taskCloseout env args) := by
  refine (careful_ending _).bind fun number => (careful_ending _).bind fun agent => ?_
  refine .ite (careful_pure _) ((careful_findTask number).bind fun task => ?_)
  refine .ite (careful_finishCloseout env args task agent) ?_
  refine (careful_closeBlockers env task).bind fun blocked => ?_
  cases blocked with
  | none => exact careful_finishCloseout env args task agent
  | some answer => exact careful_pure _

variable [Digest]

lemma careful_taskFinish (env : Env) (args : Value) : CarefulServer (taskFinish env args) := by
  have hsubmit (s : Submission) : CarefulServer (submit env s) := by
    refine (careful_query _).bind fun stored => ?_
    cases stored with
    | some stored => exact careful_pure _
    | none =>
        refine (careful_execute fun _ => by trivial).bind fun answer => ?_
        exact .ite ((careful_ending _).bind fun _ => careful_pure _) (careful_pure _)
  refine (careful_ending _).bind fun a => (careful_findTask a.number).bind fun task => ?_
  refine (careful_query _).bind fun assignment => (careful_query _).bind fun contract => ?_
  refine .ite (careful_throw _) (.ite (careful_throw _) ?_)
  exact (careful_ending _).bind fun validation => hsubmit _

section

omit [FloatText] [Digest]

lemma careful_summaryForSubmit (args : Value) (task : TaskRow) (agent : String) (resume : Bool) :
    CarefulServer (summaryForSubmit args task agent resume) := by
  have hreport : CarefulServer (previousReport task.taskId agent) := by
    refine (careful_query _).bind fun report => ?_
    cases report with
    | some report => exact careful_pure _
    | none => exact careful_throw _
  exact .ite (careful_pure _) (hreport.bind fun _ => careful_pure _)

lemma careful_writeNotes (env : SubmitEnv) (task : TaskRow) (resume : Bool) :
    CarefulServer (writeNotes env task resume) :=
  .ite (careful_pure _)
    ((careful_ending _).bind fun _ => (careful_ending _).bind fun _ => careful_pure _)

end

omit [Digest] in
lemma careful_prepareSubmit (env : SubmitEnv) (args : Value) (task : TaskRow) (agent : String)
    (resume : Bool) : CarefulServer (prepareSubmit env args task agent resume) := by
  have hclaim : CarefulServer (claimForSubmit env args task agent) :=
    .ite (careful_pure _) ((careful_taskClaim _ _).bind fun _ => careful_pure _)
  have hprove : CarefulServer (proveForSubmit env args task agent resume) :=
    .ite (careful_pure _) ((careful_taskProveCriteria _ _ _).bind fun _ => careful_pure _)
  have hadmit : CarefulServer (admitForSubmit env args task agent resume) :=
    .ite (careful_pure _) ((careful_taskAdmitEvidence _ _).bind fun _ => careful_pure _)
  refine (careful_summaryForSubmit args task agent _).bind fun summary => ?_
  refine hclaim.bind fun claimed => (careful_writeNotes env task _).bind fun noted => ?_
  exact hprove.bind fun proved => hadmit.bind fun admitted => careful_pure _

lemma careful_finishForSubmit (env : SubmitEnv) (args : Value) (task : TaskRow) (agent : String)
    (summary : Option String) : CarefulServer (finishForSubmit env args task agent summary) := by
  refine .ite (careful_pure _) ?_
  cases summary with
  | none => exact careful_throw _
  | some summary => exact (careful_taskFinish _ _).bind fun _ => careful_pure _

lemma careful_taskSubmitWork (env : SubmitEnv) (args : Value) :
    CarefulServer (taskSubmitWork env args) := by
  refine (careful_ending _).bind fun number => (careful_ending _).bind fun agent => ?_
  refine (careful_ending _).bind fun _ => (careful_findTask number).bind fun task => ?_
  refine (careful_query _).bind fun rostered => .ite (careful_pure _) ?_
  refine (careful_ending _).bind fun payload => ?_
  refine (careful_prepareSubmit env args task agent _).bind fun prepared => ?_
  exact (careful_finishForSubmit env args task agent _).bind fun finished => careful_pure _

omit [FloatText] [Digest] in
lemma careful_checkRevisions (args : Value) : CarefulServer (checkRevisions args) := by
  have hcheck (numberKey revisionKey : String) :
      CarefulServer (checkWorkRevision args numberKey revisionKey) := by
    unfold checkWorkRevision
    cases (args.get numberKey).bind Value.asI64 with
    | none => exact careful_pure _
    | some number =>
        refine (careful_ending _).bind fun expected => (careful_query _).bind fun task => ?_
        cases task with
        | none => exact careful_throw _
        | some task => exact .ite (careful_throw _) (careful_pure _)
  exact (hcheck _ _).bind fun _ => (hcheck _ _).bind fun _ => hcheck _ _

/-- **Every call looks before it claims.** -/
theorem careful_program (call : Call) : CarefulServer call.program := by
  have htool : CarefulServer (call.tool.program call.args) := by
    cases call.tool with
    | claim env => exact careful_taskClaim env _
    | unclaim env => exact careful_taskUnclaim env _
    | submitWork env => exact careful_taskSubmitWork env _
    | finish env => exact careful_taskFinish env _
    | closeout env => exact careful_taskCloseout env _
    | defer env => exact careful_taskTransition env _ _
    | unDefer env => exact careful_taskTransition env _ _
    | reopen env => exact careful_taskTransition env _ _
    | reportBlocked env => exact careful_taskReportBlocked env _
  exact .ite ((careful_checkRevisions _).bind fun _ => htool) htool

end Programs

/-! ### Any number of servers -/

section Machine

variable [FloatText] [Digest]

/-- Servers with their calls under way, and the database on which they work. -/
abbrev Servers : Type := Config Db Statement (Except String Value)

namespace Servers

/-- Servers with no call under way. -/
def idle (db : Db) : Servers := { state := db, threads := [] }

/-- A call comes in, or one of those under way carries out its next statement. -/
def next (c : Servers) (e : Event Call) : Servers :=
  c.after Statement.apply (fun call => call.program.run) e

/-- The database that the call of an event saw last. -/
def seen (c : Servers) : Event Call → Option Db
  | .start _ => none
  | .tick i => c.threads[i]?.bind Thread.seen

/-- An event in which a claim goes through. -/
def Claims (c : Servers) (e : Event Call) (assignmentId taskId : String) : Prop :=
  (∃ agentId timestamp, c.operation e = some (.claim assignmentId taskId agentId timestamp)) ∧
    c.state.Accepts assignmentId taskId

/-- An event in which an assignment is released. -/
def Releases (c : Servers) (e : Event Call) (assignmentId : String) : Prop :=
  ∃ timestamp reason, c.operation e = some (.release assignmentId timestamp reason)

/-- No claim goes through while an assignment is open that its check did not see. -/
def Undisturbed (c : Servers) (e : Event Call) : Prop :=
  ∀ assignmentId taskId, c.Claims e assignmentId taskId →
    ∀ checked ∈ c.seen e, c.state.openAssignments taskId ⊆ checked.openAssignments taskId

/-- Every call under way looks before it claims. -/
def Careful (c : Servers) : Prop := ∀ t ∈ c.threads, Watched Looked t

variable {c : Servers} {e : Event Call}

omit [FloatText] [Digest] in
lemma careful_idle (db : Db) : (idle db).Careful := fun t ht => by cases ht

lemma Careful.next (h : c.Careful) (e : Event Call) : (c.next e).Careful :=
  watched_after careful_program h e

lemma state_next (c : Servers) (e : Event Call) :
    (c.next e).state = ((c.operation e).map (·.apply c.state)).getD c.state :=
  Config.state_after c e

/-- A claim that goes through adds its assignment to those that are open. -/
lemma length_openAssignments_claims {assignmentId taskId : String}
    (h : c.Claims e assignmentId taskId) :
    ((c.next e).state.openAssignments taskId).length =
      (c.state.openAssignments taskId).length + 1 := by
  obtain ⟨⟨agentId, timestamp, hop⟩, haccepts⟩ := h
  rw [state_next, hop, Option.map_some, Option.getD_some, openAssignments_claim haccepts,
    if_pos rfl, List.length_append, List.length_singleton]

/-- The assignment of a claim that goes through is open. -/
lemma exists_openAssignment {assignmentId taskId : String} (h : c.Claims e assignmentId taskId) :
    ∃ a ∈ (c.next e).state.openAssignments taskId, a.assignmentId = assignmentId := by
  obtain ⟨⟨agentId, timestamp, hop⟩, haccepts⟩ := h
  refine ⟨Db.newAssignment assignmentId taskId agentId timestamp, ?_, rfl⟩
  rw [state_next, hop, Option.map_some, Option.getD_some, openAssignments_claim haccepts,
    if_pos rfl]
  exact List.mem_append_right _ List.mem_cons_self

/-- Without a claim, no open assignment is added. -/
lemma length_openAssignments_next {taskId : String}
    (h : ∀ assignmentId, ¬ c.Claims e assignmentId taskId) :
    ((c.next e).state.openAssignments taskId).length ≤
      (c.state.openAssignments taskId).length := by
  rw [state_next]
  cases hop : c.operation e with
  | none => exact le_rfl
  | some st =>
      refine length_openAssignments_apply st _ _ fun id agentId timestamp hst haccepts => ?_
      exact h id ⟨⟨agentId, timestamp, by rw [hop, hst]⟩, haccepts⟩

omit [FloatText] [Digest] in
/-- **The check of a claim saw no open assignment.** -/
lemma checked_eq_nil (hcareful : c.Careful) {assignmentId taskId : String}
    (h : c.Claims e assignmentId taskId) :
    (∀ checked ∈ c.seen e, checked.openAssignments taskId = []) ∧
      (c.seen e = none → c.state.openAssignments taskId = []) := by
  obtain ⟨⟨agentId, timestamp, hop⟩, -⟩ := h
  cases e with
  | start call => cases hop
  | tick i =>
      obtain ⟨t, ht, hhead⟩ := Option.bind_eq_some_iff.mp hop
      have hlooked := (hcareful t (List.mem_of_getElem? ht)).seen _ hhead
      have hseen : c.seen (.tick i) = t.seen := by rw [seen, ht, Option.bind_some]
      rw [hseen]
      refine ⟨fun checked hchecked => hlooked checked fun found hfound => ?_, fun hnone => ?_⟩
      · exact Option.some.inj (hfound.symm.trans hchecked)
      · exact hlooked c.state fun found hfound => by
          rw [hnone] at hfound
          cases hfound

/-- Where no claim is disturbed, every task keeps one owner at most. -/
lemma oneOwner_next (hcareful : c.Careful) (h : OneOwner c.state) (hundisturbed : c.Undisturbed e) :
    OneOwner (c.next e).state := by
  intro taskId
  by_cases hclaims : ∃ assignmentId, c.Claims e assignmentId taskId
  · obtain ⟨assignmentId, hclaims⟩ := hclaims
    have hnone : c.state.openAssignments taskId = [] := by
      obtain ⟨hchecked, hunseen⟩ := checked_eq_nil hcareful hclaims
      cases hseen : c.seen e with
      | none => exact hunseen hseen
      | some checked =>
          have hsubset := hundisturbed assignmentId taskId hclaims checked hseen
          rw [hchecked checked hseen] at hsubset
          exact List.subset_nil.mp hsubset
    rw [length_openAssignments_claims hclaims, hnone, List.length_nil]
  · exact (length_openAssignments_next fun id hid => hclaims ⟨id, hid⟩).trans (h taskId)

/-- Where every task still has one owner at most, no claim was disturbed. -/
lemma undisturbed_of_oneOwner (h : OneOwner (c.next e).state) : c.Undisturbed e := by
  intro assignmentId taskId hclaims checked _
  have hlength := h taskId
  rw [length_openAssignments_claims hclaims] at hlength
  have hnone : c.state.openAssignments taskId = [] := List.length_eq_zero_iff.mp (by omega)
  rw [hnone]
  exact List.nil_subset _

/-- One owner at most at every time, from careful servers. -/
lemma one_owner_run (hcareful : c.Careful) (events : List (Event Call)) :
    (∀ k, OneOwner (run next c (events.take k)).state) ↔
      OneOwner c.state ∧ Each next Undisturbed c events := by
  induction events generalizing c with
  | nil => simp [Each]
  | cons e rest ih =>
      constructor
      · intro h
        have hnext : OneOwner (c.next e).state := h 1
        have hrest := (ih (hcareful.next e)).mp fun k => h (k + 1)
        exact ⟨h 0, undisturbed_of_oneOwner hnext, hrest.2⟩
      · rintro ⟨h, hundisturbed, hrest⟩ k
        cases k with
        | zero => exact h
        | succ k =>
            have hnext := oneOwner_next hcareful h hundisturbed
            exact (ih (hcareful.next e)).mpr ⟨hnext, hrest⟩ k

/-- An open assignment stays open until it is released. -/
lemma open_until_released {a : Assignment} {taskId : String}
    (h : a ∈ c.state.openAssignments taskId) (events : List (Event Call)) :
    a ∈ (run next c events).state.openAssignments taskId ∨
      ∃ before e after, events = before ++ e :: after ∧
        (run next c before).Releases e a.assignmentId := by
  induction events generalizing c with
  | nil => exact .inl h
  | cons e rest ih =>
      have hnext : a ∈ (c.next e).state.openAssignments taskId ∨ c.Releases e a.assignmentId := by
        rw [state_next]
        cases hop : c.operation e with
        | none => exact .inl h
        | some st =>
            rcases mem_openAssignments_apply h st with hopen | ⟨timestamp, reason, hst⟩
            · exact .inl hopen
            · exact .inr ⟨timestamp, reason, by rw [hop, hst]⟩
      rcases hnext with hnext | hreleases
      · rcases ih hnext with hopen | ⟨before, e', after, heq, hreleases⟩
        · exact .inl hopen
        · exact .inr ⟨e :: before, e', after, by rw [heq, List.cons_append], hreleases⟩
      · exact .inr ⟨[], e, rest, rfl, hreleases⟩

/-- Of two claims of a task that go through, the first one's assignment is released in between. -/
def ReleasedBetween (c : Servers) (events : List (Event Call)) : Prop :=
  ∀ before first between second later, events = before ++ first :: (between ++ second :: later) →
    ∀ taskId firstId secondId, (run next c before).Claims first firstId taskId →
      (run next c (before ++ first :: between)).Claims second secondId taskId →
        ∃ start e rest, between = start ++ e :: rest ∧
          (run next c (before ++ first :: start)).Releases e firstId

/-- Where every task has one owner at most, its assignment is released before another claim. -/
lemma releasedBetween_of_oneOwner {events : List (Event Call)}
    (h : ∀ k, OneOwner (run next c (events.take k)).state) : c.ReleasedBetween events := by
  rintro before first between second later rfl taskId firstId secondId hfirst hsecond
  have hbetween (start : List (Event Call)) :
      run next c (before ++ first :: start) = run next ((run next c before).next first) start := by
    rw [Calls.run_append, Calls.run_cons]
  obtain ⟨a, ha, hid⟩ := exists_openAssignment hfirst
  rcases open_until_released ha between with hopen | ⟨start, e, rest, heq, hreleases⟩
  · -- the first assignment is open when the second one comes in
    exfalso
    rw [← hbetween] at hopen
    have hsplit : before ++ first :: (between ++ second :: later) =
        (before ++ first :: between ++ [second]) ++ later := by simp
    have hone := h (before ++ first :: between ++ [second]).length taskId
    rw [hsplit, List.take_left, Calls.run_append, Calls.run_cons, Calls.run_nil,
      length_openAssignments_claims hsecond] at hone
    have hpos := List.length_pos_of_mem hopen
    omega
  · refine ⟨start, e, rest, heq, ?_⟩
    rw [hbetween, ← hid]
    exact hreleases

end Servers

/-- **One owner per task**: whatever the servers do and in whatever order, at any time every task
has one open assignment at most, and none is claimed again before its assignment is released,
exactly when it was so at first and no claim goes through while an assignment is open that its
check did not see. -/
theorem one_owner_iff (db : Db) (events : List (Event Call)) :
    ((∀ k, OneOwner (run Servers.next (.idle db) (events.take k)).state) ∧
        (Servers.idle db).ReleasedBetween events) ↔
      OneOwner db ∧ Each Servers.next Servers.Undisturbed (.idle db) events := by
  have hrun := Servers.one_owner_run (Servers.careful_idle db) events
  refine ⟨fun h => hrun.mp h.1, fun h => ?_⟩
  have hone := hrun.mpr h
  exact ⟨hone, Servers.releasedBetween_of_oneOwner hone⟩

end Machine

/-! ### Two claims at a time -/

/-- The outside of a call whose files are in order. -/
def orderlyEnv (uuid : String) : Env where
  now _ := "2026-01-01T00:00:00Z"
  uuid _ := uuid
  project _ := .ok ()
  append := .ok ()
  writeSection _ := .ok ()
  criteria := .ok true
  reviewFile := .ok ()
  payload := .ok .null

/-- A task as `task_create` makes it. -/
def createdTask (taskId : String) (number : ℤ) : TaskRow where
  taskId := taskId
  number := number
  status := .opened
  governedBy := none
  closedAt := none
  closedBy := none
  closureMode := none
  reopenedAt := none
  reopenedBy := none
  revision := 1
  updatedAt := "2026-01-01T00:00:00Z"

/-- The arguments of a call of an agent on a task. -/
def agentArgs (number : ℤ) (agent : String) : Value :=
  .object [("task_number", .ofInt number), ("agent_id", .string agent)]

/-- A claim of the first task. -/
def claimBy (agent uuid : String) : Call where
  surface := .task
  tool := .claim (orderlyEnv uuid)
  args := agentArgs 1 agent

/-- Two claims of one task, of which both check before either of them inserts. -/
def race : List (Event Call) :=
  [.start (claimBy "alice" "1"), .start (claimBy "bob" "2"), .tick 0, .tick 0, .tick 0, .tick 1,
    .tick 1, .tick 1, .tick 0, .tick 1]

/-- The status that a call was answered. -/
def Thread.answered (t : Thread Db Statement (Except String Value)) : Option String :=
  match t.program with
  | .done (.ok answer) => stringArg answer "status"
  | _ => none

/-- Two agents are told that they claimed one task, and both own it. -/
theorem two_owners :
    letI := FloatText.fields
    letI : Digest := ⟨id⟩
    let db : Db := { tasks := [createdTask "task-1" 1], lastAllocated := 1 }
    OneOwner db ∧
      ((run Servers.next (.idle db) race).state.openAssignments "task-1").map Assignment.agentId =
        ["alice", "bob"] ∧
      (run Servers.next (.idle db) race).threads.map Thread.answered =
        [some "claimed", some "claimed"] ∧
      ¬ ((∀ k, OneOwner (run Servers.next (.idle db) (race.take k)).state) ∧
        (Servers.idle db).ReleasedBetween race) := by
  let _ : FloatText := FloatText.fields
  let _ : Digest := ⟨id⟩
  have howners : ((run Servers.next
      (.idle { tasks := [createdTask "task-1" 1], lastAllocated := 1 })
      race).state.openAssignments "task-1").map Assignment.agentId = ["alice", "bob"] := by
    decide +kernel
  refine ⟨fun taskId => Nat.zero_le 1, howners, by decide +kernel, fun h => ?_⟩
  have hone := h.1 race.length "task-1"
  rw [List.take_length] at hone
  have hlength := congrArg List.length howners
  rw [List.length_map, List.length_cons, List.length_singleton] at hlength
  omega

end TaskLifecycle

end McpSurfaces
