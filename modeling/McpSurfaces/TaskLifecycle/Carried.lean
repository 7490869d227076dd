import McpSurfaces.Foundation.Interference
import McpSurfaces.TaskLifecycle.Alone

/-!
The statements that a call may carry out, whatever the calls beside it do.

* `Carries`: every statement of a server meets a condition, with a rule for each way in which the
  programs of calls are put together.
* `Tool.May`: the statements of each call. **`carries_program`**: it carries out no others.
-/

namespace McpSurfaces

namespace TaskLifecycle

open EventLedger (Digest)

/-! ### What a server carries out -/

section Carries

variable {α β : Type} {P : Statement → Prop}

/-- Each statement that a server can carry out meets `P`, whatever databases it finds. -/
def Carries (P : Statement → Prop) (x : Server α) : Prop :=
  x.run.Within (fun _ => True) (fun _ st => P st) fun _ => True

lemma Carries.bind {x : Server α} {f : α → Server β} (hx : Carries P x)
    (hf : ∀ a, Carries P (f a)) : Carries P (x >>= f) := by
  refine Program.within_bind.mpr (hx.mono (fun _ h => h) (fun _ _ _ h => h) fun r _ => ?_)
  cases r with
  | error e => exact trivial
  | ok a => exact hf a

lemma carries_pure (a : α) : Carries P (pure a : Server α) := trivial

lemma carries_throw (e : String) : Carries P (throw e : Server α) := trivial

lemma carries_ending (r : Except String α) : Carries P (ending r) := trivial

lemma Carries.ite {c : Prop} [Decidable c] {x y : Server α} (hx : Carries P x)
    (hy : Carries P y) : Carries P (if c then x else y) := by
  split
  · exact hx
  · exact hy

lemma carries_execute [FloatText] {st : Statement} (h : P st) : Carries P (execute st) :=
  fun _ _ => ⟨h, trivial⟩

variable (hquery : P .query)
include hquery

lemma carries_query (f : Db → α) : Carries P (query f) := fun _ _ => ⟨hquery, trivial⟩

lemma carries_findTask (number : ℤ) : Carries P (findTask number) := by
  refine (carries_query hquery _).bind fun task => ?_
  cases task with
  | none => exact carries_throw _
  | some task => exact carries_pure _

lemma carries_claimGuard (taskId agent : String) : Carries P (claimGuard taskId agent) := by
  refine (carries_query hquery _).bind fun routing => ?_
  cases routing with
  | none => exact carries_pure _
  | some routing =>
      refine .ite (carries_throw _) ?_
      cases hrole : routing.requiredRole with
      | none => simpa only [hrole] using carries_pure _
      | some required =>
          have hguard : Carries P (roleGuard required agent) :=
            (carries_query hquery _).bind fun role => .ite (carries_throw _) (carries_pure _)
          simpa only [hrole] using hguard

lemma carries_dependencyStates (dependencies : List Dependency) :
    Carries P (dependencyStates dependencies) := by
  induction dependencies with
  | nil => exact carries_pure _
  | cons d rest ih =>
      have hstate : Carries P (dependencyState d) := by
        refine (carries_query hquery _).bind fun latest => ?_
        refine (carries_query hquery _).bind fun contract => ?_
        cases latest with
        | none => exact carries_pure _
        | some outcome => exact (carries_query hquery _).bind fun _ => carries_pure _
      exact hstate.bind fun state => ih.bind fun _ => carries_pure _

lemma carries_checkRevisions (args : Value) : Carries P (checkRevisions args) := by
  have hcheck (numberKey revisionKey : String) :
      Carries P (checkWorkRevision args numberKey revisionKey) := by
    unfold checkWorkRevision
    split
    · exact carries_pure _
    · refine (carries_ending _).bind fun expected => (carries_query hquery _).bind fun task => ?_
      cases task with
      | none => exact carries_throw _
      | some task => exact .ite (carries_throw _) (carries_pure _)
  exact (hcheck _ _).bind fun _ => (hcheck _ _).bind fun _ => hcheck _ _

/-! ### The functions of calls -/

variable [FloatText]

lemma carries_taskClaim
    (hclaim : ∀ assignmentId taskId agent timestamp, P (.claim assignmentId taskId agent timestamp))
    (env : Env) (args : Value) : Carries P (taskClaim env args) := by
  refine (carries_ending _).bind fun number => (carries_ending _).bind fun agent => ?_
  refine (carries_findTask hquery number).bind fun task => .ite (carries_throw _) ?_
  refine (carries_claimGuard hquery _ _).bind fun _ => (carries_query hquery _).bind fun active => ?_
  cases active with
  | some active => exact .ite (carries_pure _) (carries_throw _)
  | none =>
      refine (carries_execute (hclaim _ _ _ _)).bind fun _ => ?_
      exact (carries_ending _).bind fun _ => carries_pure _

lemma carries_taskUnclaim (hrelease : ∀ assignmentId timestamp reason,
      P (.release assignmentId timestamp reason))
    (hreopen : ∀ taskId timestamp, P (.reopenClaimed taskId timestamp)) (env : Env) (args : Value) :
    Carries P (taskUnclaim env args) := by
  refine (carries_ending _).bind fun number => (carries_findTask hquery number).bind fun task => ?_
  refine (carries_query hquery _).bind fun active => ?_
  cases active with
  | none => exact carries_pure _
  | some active =>
      refine .ite (carries_pure _) ((carries_execute (hrelease _ _ _)).bind fun changed => ?_)
      refine (carries_execute (hreopen _ _)).bind fun _ => ?_
      exact (carries_ending _).bind fun _ => carries_pure _

lemma carries_taskTransition {status : Status}
    (htransition : ∀ number timestamp agent, P (.transition number status timestamp agent))
    (env : Env) (args : Value) : Carries P (taskTransition env args status) := by
  refine (carries_ending _).bind fun number => (carries_findTask hquery number).bind fun task => ?_
  refine .ite (carries_pure _) ((carries_execute (htransition _ _ _)).bind fun changed => ?_)
  exact .ite (carries_throw _) ((carries_ending _).bind fun _ => carries_pure _)

lemma carries_taskReportBlocked (hreport : ∀ r, P (.report r))
    (hdefer : ∀ taskId timestamp, P (.defer taskId timestamp)) (env : Env) (args : Value) :
    Carries P (taskReportBlocked env args) := by
  refine (carries_ending _).bind fun number => (carries_ending _).bind fun agent => ?_
  refine (carries_ending _).bind fun reason => (carries_findTask hquery number).bind fun task => ?_
  refine (carries_execute (hreport _)).bind fun _ => .ite ?_ (carries_pure _)
  exact (carries_execute (hdefer _ _)).bind fun _ => carries_pure _

lemma carries_taskAdmitEvidence (hadmission : ∀ a, P (.admission a)) (env : Env) (args : Value) :
    Carries P (taskAdmitEvidence env args) := by
  refine (carries_ending _).bind fun number => (carries_ending _).bind fun agent => ?_
  refine (carries_findTask hquery number).bind fun task => ?_
  refine (carries_query hquery _).bind fun reportIds => ?_
  refine (carries_query hquery _).bind fun proofIds => (carries_ending _).bind fun methods => ?_
  exact .ite (carries_pure _) ((carries_execute (hadmission _)).bind fun _ => carries_pure _)

lemma carries_taskProveCriteria (hadmission : ∀ a, P (.admission a)) (hproof : ∀ p, P (.proof p))
    (env admitting : Env) (args : Value) : Carries P (taskProveCriteria env admitting args) := by
  refine (carries_ending _).bind fun number => (carries_ending _).bind fun agent => ?_
  refine (carries_query hquery _).bind fun spec => ?_
  cases spec with
  | none => exact carries_throw _
  | some spec =>
      refine (carries_ending _).bind fun changed => .ite (carries_pure _) ?_
      refine (carries_execute (hproof _)).bind fun _ => ?_
      exact (carries_taskAdmitEvidence hquery hadmission _ _).bind fun _ => carries_pure _

omit [FloatText] in
lemma carries_closeBlockers (env : Env) (task : TaskRow) : Carries P (closeBlockers env task) := by
  refine (carries_query hquery _).bind fun admitted => .ite (carries_pure _) ?_
  have hstates : Carries P (taskDependencySatisfaction task.taskId) :=
    (carries_query hquery _).bind (carries_dependencyStates hquery)
  exact hstates.bind fun states => .ite (carries_pure _) (carries_pure _)

omit hquery in
lemma carries_finishCloseout (env : Env) {args : Value} (task : TaskRow) (agent : String)
    (hcloseout : ∀ timestamp mode,
      P (.closeout task.taskId (closeoutStatus args) timestamp agent mode)) :
    Carries P (finishCloseout env args task agent) := by
  have hsettle : Carries P (settleCloseout env args task agent) :=
    .ite (carries_pure _) ((carries_execute (hcloseout _ _)).bind fun _ => carries_pure _)
  exact .ite ((carries_ending _).bind fun _ => hsettle) hsettle

lemma carries_taskCloseout {env : Env} {args : Value}
    (hcloseout : ∀ taskId timestamp agent mode,
      P (.closeout taskId (closeoutStatus args) timestamp agent mode)) :
    Carries P (taskCloseout env args) := by
  refine (carries_ending _).bind fun number => (carries_ending _).bind fun agent => ?_
  refine .ite (carries_pure _) ((carries_findTask hquery number).bind fun task => ?_)
  have hfinish := carries_finishCloseout env task agent fun _ _ => hcloseout _ _ _ _
  refine .ite hfinish ((carries_closeBlockers hquery env task).bind fun blocked => ?_)
  cases blocked with
  | none => exact hfinish
  | some answer => exact carries_pure _

variable [Digest]

lemma carries_taskFinish {env : Env} {args : Value}
    (hfinish : ∀ s : Submission, s.outcome = stringArg args "outcome" → P (.finish s)) :
    Carries P (taskFinish env args) := by
  have hsubmit (s : Submission) (hs : s.outcome = stringArg args "outcome") :
      Carries P (submit env s) := by
    refine (carries_query hquery _).bind fun stored => ?_
    cases stored with
    | some stored => exact carries_pure _
    | none =>
        refine (carries_execute (hfinish s hs)).bind fun answer => ?_
        exact .ite ((carries_ending _).bind fun _ => carries_pure _) (carries_pure _)
  refine (carries_ending _).bind fun a => (carries_findTask hquery a.number).bind fun task => ?_
  refine (carries_query hquery _).bind fun assignment => ?_
  refine (carries_query hquery _).bind fun contract => ?_
  refine .ite (carries_throw _) (.ite (carries_throw _) ?_)
  exact (carries_ending _).bind fun validation => hsubmit _ rfl

omit [Digest] in
lemma carries_prepareSubmit
    (hclaim : ∀ assignmentId taskId agent timestamp, P (.claim assignmentId taskId agent timestamp))
    (hadmission : ∀ a, P (.admission a)) (hproof : ∀ p, P (.proof p)) (env : SubmitEnv)
    (args : Value) (task : TaskRow) (agent : String) (resume : Bool) :
    Carries P (prepareSubmit env args task agent resume) := by
  have hreport : Carries P (previousReport task.taskId agent) := by
    refine (carries_query hquery _).bind fun report => ?_
    cases report with
    | none => exact carries_throw _
    | some report => exact carries_pure _
  have hsummary : Carries P (summaryForSubmit args task agent resume) :=
    .ite (carries_pure _) (hreport.bind fun _ => carries_pure _)
  have hclaimed : Carries P (claimForSubmit env args task agent) :=
    .ite (carries_pure _) ((carries_taskClaim hquery hclaim _ _).bind fun _ => carries_pure _)
  have hnotes : Carries P (writeNotes env task resume) :=
    .ite (carries_pure _) ((carries_ending _).bind fun _ =>
      (carries_ending _).bind fun _ => carries_pure _)
  have hprove : Carries P (proveForSubmit env args task agent resume) :=
    .ite (carries_pure _)
      ((carries_taskProveCriteria hquery hadmission hproof _ _ _).bind fun _ => carries_pure _)
  have hadmit : Carries P (admitForSubmit env args task agent resume) :=
    .ite (carries_pure _)
      ((carries_taskAdmitEvidence hquery hadmission _ _).bind fun _ => carries_pure _)
  refine hsummary.bind fun summary => hclaimed.bind fun claimed => hnotes.bind fun noted => ?_
  exact hprove.bind fun proved => hadmit.bind fun admitted => carries_pure _

lemma carries_taskSubmitWork
    (hclaim : ∀ assignmentId taskId agent timestamp, P (.claim assignmentId taskId agent timestamp))
    (hadmission : ∀ a, P (.admission a)) (hproof : ∀ p, P (.proof p))
    (hfinish : ∀ s : Submission, s.outcome = none → P (.finish s)) (env : SubmitEnv)
    (args : Value) : Carries P (taskSubmitWork env args) := by
  have hfinished (task : TaskRow) (agent : String) (summary : Option String) :
      Carries P (finishForSubmit env args task agent summary) := by
    refine .ite (carries_pure _) ?_
    cases summary with
    | none => exact carries_throw _
    | some summary =>
        refine (carries_taskFinish hquery fun s hs => ?_).bind fun _ => carries_pure _
        exact hfinish s (hs.trans (outcome_finishArgsOf args _ _ _))
  refine (carries_ending _).bind fun number => (carries_ending _).bind fun agent => ?_
  refine (carries_ending _).bind fun _ => (carries_findTask hquery number).bind fun task => ?_
  refine (carries_query hquery _).bind fun rostered => .ite (carries_pure _) ?_
  refine (carries_ending _).bind fun payload => ?_
  refine (carries_prepareSubmit hquery hclaim hadmission hproof env args task agent _).bind
    fun made => ?_
  exact (hfinished task agent made.1).bind fun final => carries_pure _

end Carries

/-! ### Calls -/

section Tools

/-- The statements that a call may carry out. -/
def Tool.May (args : Value) : Tool → Statement → Prop
  | _, .query => True
  | claim _, .claim _ _ _ _ => True
  | unclaim _, .release _ _ _ => True
  | unclaim _, .reopenClaimed _ _ => True
  | submitWork _, .claim _ _ _ _ => True
  | submitWork _, .proof _ => True
  | submitWork _, .admission _ => True
  | submitWork _, .finish s => s.outcome = none
  | finish _, .finish s => s.outcome = stringArg args "outcome"
  | closeout _, .closeout _ status _ _ _ => status = closeoutStatus args
  | defer _, .transition _ status _ _ => status = .deferred
  | unDefer _, .transition _ status _ _ => status = .opened
  | reopen _, .transition _ status _ _ => status = .opened
  | reportBlocked _, .report _ => True
  | reportBlocked _, .defer _ _ => True
  | _, _ => False

variable [FloatText] [Digest] {P : Statement → Prop}

/-- **A call carries out no other statements.** -/
theorem carries_program (c : Call) (h : ∀ st, c.tool.May c.args st → P st) :
    Carries P c.program := by
  have htool : Carries P (c.tool.program c.args) := by
    cases htool : c.tool with
    | claim env =>
        rw [htool] at h
        exact carries_taskClaim (h _ trivial) (fun _ _ _ _ => h _ trivial) env _
    | unclaim env =>
        rw [htool] at h
        exact carries_taskUnclaim (h _ trivial) (fun _ _ _ => h _ trivial)
          (fun _ _ => h _ trivial) env _
    | submitWork env =>
        rw [htool] at h
        exact carries_taskSubmitWork (h _ trivial) (fun _ _ _ _ => h _ trivial)
          (fun _ => h _ trivial) (fun _ => h _ trivial) (fun s hs => h (.finish s) hs) env _
    | finish env =>
        rw [htool] at h
        exact carries_taskFinish (h _ trivial) fun s hs => h (.finish s) hs
    | closeout env =>
        rw [htool] at h
        exact carries_taskCloseout (h _ trivial) fun id timestamp agent mode =>
          h (.closeout id _ timestamp agent mode) rfl
    | defer env =>
        rw [htool] at h
        exact carries_taskTransition (h _ trivial) (fun n timestamp agent =>
          h (.transition n .deferred timestamp agent) rfl) env _
    | unDefer env =>
        rw [htool] at h
        exact carries_taskTransition (h _ trivial) (fun n timestamp agent =>
          h (.transition n .opened timestamp agent) rfl) env _
    | reopen env =>
        rw [htool] at h
        exact carries_taskTransition (h _ trivial) (fun n timestamp agent =>
          h (.transition n .opened timestamp agent) rfl) env _
    | reportBlocked env =>
        rw [htool] at h
        exact carries_taskReportBlocked (h _ trivial) (fun _ => h _ trivial)
          (fun _ _ => h _ trivial) env _
  have hquery : P .query := h .query (by cases c.tool <;> trivial)
  exact .ite ((carries_checkRevisions hquery _).bind fun _ => htool) htool

end Tools

end TaskLifecycle

end McpSurfaces
