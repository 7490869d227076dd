import McpSurfaces.Executability.Overrides

/-!
Requests for an assessment, and what becomes of them.

* `executabilityRequest`, `requestsNext`, `executabilityComplete`: a request is made, leased, and
  completed with an assessment. The statements of a call are not in one transaction, and those of a
  call that fails stay.
* `Db.standing`: the request of a task that counts, with its assessment.
-/

namespace McpSurfaces

namespace Executability

open EventLedger (Digest)
open TaskLifecycle (stringArg requiredString requiredI64 optionText sqliteError)
open Table (updateWhere)

def RequestState.text : RequestState → String
  | pending => "pending"
  | leased => "leased"
  | dispatched => "dispatched"
  | failedRetryable => "failed_retryable"
  | failedTerminal => "failed_terminal"
  | completed => "completed"

/-- What a call answers, and the database behind it. -/
abbrev Outcome : Type := Except String Value × Db

section Calls

variable [FloatText] [Digest]

/-! ### A request is made -/

/-- The request for the digests of a task, as it is inserted. -/
def newRequest (c : Context) (number : ℤ) (profile now : String) : Request where
  requestId := requestIdOf c.taskId c.specDigest c.environmentDigest profile profileVersion
  taskId := c.taskId
  taskNumber := number
  state := .pending
  specDigest := c.specDigest
  environmentDigest := c.environmentDigest
  profile := profile
  profileVersion := profileVersion
  assessmentId := none
  leaseOwner := none
  leaseExpiresAt := none
  attemptCount := 0
  supersededBy := none
  createdAt := now
  updatedAt := now

section

omit [FloatText] [Digest]

/-- A request that gives way to a new one. -/
def Request.GivesWay (r new : Request) : Prop :=
  r.taskId = new.taskId ∧ r.requestId ≠ new.requestId ∧ r.supersededBy = none ∧
    r.state ≠ .completed ∧ r.state ≠ .failedTerminal

instance (r new : Request) : Decidable (r.GivesWay new) :=
  inferInstanceAs (Decidable (_ ∧ _))

def Request.giveWay (new r : Request) : Request :=
  { r with supersededBy := some new.requestId, updatedAt := new.updatedAt }

/-- The requests with a new one, where it is not there. -/
def Db.enqueue (new : Request) (db : Db) : Db :=
  { db with
    requests :=
      if (db.request new.requestId).isSome then db.requests else db.requests ++ [new] }

/-- The request is inserted where it is not there, and the others of its task give way. -/
def Db.file (new : Request) (db : Db) : Db :=
  let enqueued := db.enqueue new
  { enqueued with
    requests := updateWhere (fun r => r.GivesWay new) (Request.giveWay new) enqueued.requests }

end

/-- What `executability_request` asks for. -/
def requested (env : CallEnv) (args : Value) (db : Db) : Except String Request := do
  let number ← requiredI64 args "task_number"
  let _ ← requiredString args "agent_id"
  let c ← db.context env number
  let (profile, _) ← env.policy
  return newRequest c number profile (env.now 0)

/-- `task_executability_request`. -/
def executabilityRequest (env : CallEnv) (args : Value) (db : Db) : Outcome :=
  match requested env args db with
  | .error e => (.error e, db)
  | .ok new =>
      let filed := db.file new
      match filed.request new.requestId with
      | none => (.error ("task_executability_request_not_found:" ++ new.requestId), filed)
      | some r => (.ok (.object [("schema", .string "narada.task_executability.request.v0"),
          ("status", .string
            (if (db.request new.requestId).isSome then "existing" else "enqueued")),
          ("request_id", .string r.requestId), ("task_number", .ofInt r.taskNumber),
          ("task_id", .string r.taskId), ("state", .string r.state.text),
          ("task_spec_digest", .string r.specDigest),
          ("environment_digest", .string r.environmentDigest),
          ("evaluator_profile", .string r.profile),
          ("evaluator_profile_version", .string r.profileVersion)]), filed)

/-! ### Requests are leased -/

section

omit [FloatText] [Digest]

/-- The lease of a request has run out, or it has none. -/
def Request.Free (r : Request) (now : String) : Prop :=
  r.state = .pending ∨ (r.state = .leased ∨ r.state = .failedRetryable ∨ r.state = .dispatched) ∧
    ∃ e ∈ r.leaseExpiresAt, e < now

/-- A request that a consumer is offered. -/
def Request.Offered (r : Request) (now consumer : String) : Prop :=
  r.supersededBy = none ∧ (r.Free now ∨
    r.state = .dispatched ∧ r.leaseOwner = some consumer ∧ ∃ e ∈ r.leaseExpiresAt, now ≤ e)

end

instance (r : Request) (now : String) : Decidable (r.Free now) :=
  inferInstanceAs (Decidable (_ ∨ _))

instance (r : Request) (now consumer : String) : Decidable (r.Offered now consumer) :=
  inferInstanceAs (Decidable (_ ∧ _))

omit [FloatText] [Digest] in
/-- A request that is leased. -/
def Request.lease (r : Request) (consumer expiry now : String) : Request :=
  { r with
    state := .leased
    leaseOwner := some consumer
    leaseExpiresAt := some expiry
    attemptCount := r.attemptCount + 1
    updatedAt := now }

def attempt (requestId consumer now expiry : String) : Attempt where
  attemptId := digestId "texm_" (.object [("kind", .string "attempt"),
    ("request_id", .string requestId), ("actor", .string consumer), ("leased_at", .string now)])
  requestId := requestId
  actor := consumer
  leasedAt := now
  leaseExpiresAt := expiry

omit [FloatText] [Digest] in
/-- The answer for a request that is leased. -/
def leaseJson (r : Request) (title : Option String) : Value :=
  .object [("request_id", .string r.requestId), ("task_number", .ofInt r.taskNumber),
    ("task_id", .string r.taskId), ("task_spec_digest", .string r.specDigest),
    ("environment_digest", .string r.environmentDigest), ("evaluator_profile", .string r.profile),
    ("evaluator_profile_version", .string r.profileVersion),
    ("lease_expires_at", optionText r.leaseExpiresAt), ("title", optionText title)]

/-- The loop of `task_executability_requests_next` over its candidates. -/
def leaseAll (env : CallEnv) (consumer : String) (minutes : ℤ) :
    ℕ → List String → List Value → Db → Except String (List Value) × Db
  | _, [], leased, db => (.ok leased, db)
  | k, requestId :: rest, leased, db =>
      if requestId = "" then leaseAll env consumer minutes k rest leased db
      else
        let now := env.now 0
        let expiry := env.expiry k minutes
        let takes (r : Request) : Prop := r.requestId = requestId ∧ r.Free now
        let _ : DecidablePred takes := fun _ => inferInstanceAs (Decidable (_ ∧ _))
        if ∃ r ∈ db.requests, takes r then
          let taken := { db with
            requests := updateWhere takes (fun r => r.lease consumer expiry now) db.requests }
          let new := attempt requestId consumer now expiry
          if ∃ a ∈ taken.attempts, a.attemptId = new.attemptId then
            (.error (sqliteError
              "UNIQUE constraint failed: task_executability_attempts.attempt_id"), taken)
          else
            let noted := { taken with attempts := taken.attempts ++ [new] }
            match noted.request requestId with
            | none => leaseAll env consumer minutes (k + 1) rest leased noted
            | some r =>
                let title := (noted.specs.find? fun s => s.taskId = r.taskId).map TaskSpec.title
                leaseAll env consumer minutes (k + 1) rest (leased ++ [leaseJson r title]) noted
        else leaseAll env consumer minutes (k + 1) rest leased db

section

omit [FloatText] [Digest]

/-- A number of the arguments between two bounds. -/
def clampedArg (args : Value) (key : String) (default low high : ℤ) : ℤ :=
  max low (min (((args.get key).bind Value.asI64).getD default) high)

/-- The requests that a consumer is offered, the oldest first. -/
def Db.candidates (db : Db) (now consumer : String) (limit : ℕ) : List Request :=
  (Lists.sortBy (fun a b => compare a.createdAt b.createdAt)
    (db.requests.filter fun r => r.Offered now consumer)).take limit

end

/-- `task_executability_requests_next`. -/
def requestsNext (env : CallEnv) (args : Value) (db : Db) : Outcome :=
  match requiredString args "consumer_id" with
  | .error e => (.error e, db)
  | .ok consumer =>
      let minutes := clampedArg args "lease_duration_minutes" 10 1 120
      let limit := (clampedArg args "limit" 1 1 20).toNat
      let candidates := (db.candidates (env.now 0) consumer limit).map Request.requestId
      match leaseAll env consumer minutes 0 candidates [] db with
      | (.error e, behind) => (.error e, behind)
      | (.ok leased, behind) =>
          (.ok (.object [("schema", .string "narada.task_executability.requests_next.v0"),
            ("status", .string (if leased.isEmpty then "empty" else "leased")),
            ("consumer_id", .string consumer), ("lease_duration_minutes", .ofInt minutes),
            ("leased_count", .ofNat leased.length), ("leased", .array leased)]), behind)

/-! ### A request is completed -/

/-- The verdict that findings lead to: `native_verdict`. -/
def nativeVerdict (findings : Value) : Verdict :=
  let blocking := (findings.asArray.getD []).filter fun f => stringArg f "severity" = some "blocking"
  if blocking.any fun f => stringArg f "kind" = some "unavailable_authority" ∨
      stringArg f "kind" = some "unavailable_tool" then .notExecutable
  else if blocking.isEmpty then .executable else .needsRevision

/-- What a completion says, with the kinds of its fields checked. -/
structure Report where
  assessmentId : Option String
  taskId : String
  taskNumber : ℤ
  specDigest : String
  environmentDigest : String
  verdict : String
  findings : Value
  evaluator : Value
  createdAt : String

/-- A field of an assessment, and the error that names it. -/
def reportField {α : Type} (field : String) : Option α → Except String α
  | some a => .ok a
  | none => .error ("task_executability_assessment_invalid:" ++ field ++ "_required")

/-- The first checks of `task_executability_complete`: the fields of the assessment. -/
def reportOf (json : Value) : Except String Report := do
  let taskId ← reportField "task_id" (stringArg json "task_id")
  let taskNumber ← reportField "task_number" ((json.get "task_number").bind Value.asI64)
  let specDigest ← reportField "task_spec_digest" (stringArg json "task_spec_digest")
  let environmentDigest ← reportField "environment_digest" (stringArg json "environment_digest")
  let verdict ← reportField "verdict" (stringArg json "verdict")
  let findings ← reportField "findings"
    ((json.get "findings").filter fun v => v.asArray.isSome)
  let evaluator ← reportField "evaluator"
    ((json.get "evaluator").filter fun v => v.asObject.isSome)
  let createdAt ← reportField "created_at" (stringArg json "created_at")
  return { assessmentId := stringArg json "assessment_id", taskId, taskNumber, specDigest
           environmentDigest, verdict, findings, evaluator, createdAt }

/-- The checks of a report against the request that it completes. -/
def checkReport (r : Request) (report : Report) : Except String Verdict := do
  let profile := stringArg report.evaluator "profile"
  let version := stringArg report.evaluator "profile_version"
  if profile = none ∨ version = none ∨ stringArg report.evaluator "cognition" ≠ some "low" then
    throw "task_executability_assessment_invalid:evaluator_provenance_invalid"
  if r.taskId ≠ report.taskId ∨ r.taskNumber ≠ report.taskNumber then
    throw "task_executability_assessment_task_identity_mismatch"
  if r.specDigest ≠ report.specDigest ∨ r.environmentDigest ≠ report.environmentDigest then
    throw "task_executability_assessment_digest_mismatch"
  if some r.profile ≠ profile ∨ some r.profileVersion ≠ version then
    throw "task_executability_assessment_profile_mismatch"
  let derived := nativeVerdict report.findings
  if derived.text ≠ report.verdict then
    throw ("task_executability_assessment_verdict_mismatch:derived=" ++ derived.text ++
      ":claimed=" ++ report.verdict)
  return derived

/-- The assessment that a report is stored as. -/
def Report.assessment (report : Report) (r : Request) (verdict : Verdict) : Assessment where
  assessmentId := report.assessmentId.getD (assessmentIdOf r.requestId report.createdAt)
  requestId := r.requestId
  taskId := report.taskId
  taskNumber := report.taskNumber
  specDigest := report.specDigest
  environmentDigest := report.environmentDigest
  verdict := verdict
  findings := report.findings
  evaluator := report.evaluator
  createdAt := report.createdAt

/-- An upsert of an assessment. -/
def Db.assess (a : Assessment) (db : Db) : Db :=
  let assessments :=
    if ∃ q ∈ db.assessments, q.assessmentId = a.assessmentId then
      updateWhere (fun q => q.assessmentId = a.assessmentId) (fun _ => a) db.assessments
    else db.assessments ++ [a]
  { db with assessments }

/-- A request that is completed with an assessment. -/
def Db.complete (a : Assessment) (now : String) (db : Db) : Db :=
  let assessed := db.assess a
  { assessed with
    requests := updateWhere (fun r => r.requestId = a.requestId)
      (fun r => { r with
        state := .completed, assessmentId := some a.assessmentId, updatedAt := now })
      assessed.requests }

def completeFailed (requestId reason : String) : Value :=
  .object [("schema", .string "narada.task_executability.complete.v0"), ("status", .string "failed"),
    ("reason", .string reason), ("request_id", .string requestId)]

/-- The assessment that a completion of a request stores, or why it stores none. -/
def completion (r : Request) (json : Value) : Except String Assessment := do
  let report ← reportOf json
  let verdict ← checkReport r report
  return report.assessment r verdict

/-- `task_executability_complete`. -/
def executabilityComplete (env : CallEnv) (args : Value) (db : Db) : Outcome :=
  match requiredString args "request_id" with
  | .error e => (.error e, db)
  | .ok requestId =>
      match (args.get "assessment").filter fun v => v.asObject.isSome with
      | none => (.error "assessment_required", db)
      | some json =>
          match db.request requestId with
          | none => (.ok (completeFailed requestId
              ("task_executability_request_not_found:" ++ requestId)), db)
          | some r =>
              match completion r json with
              | .error reason => (.ok (completeFailed requestId reason), db)
              | .ok a => (.ok (.object [
                  ("schema", .string "narada.task_executability.complete.v0"),
                  ("status", .string "completed"), ("assessment_id", .string a.assessmentId),
                  ("request_id", .string requestId), ("task_number", .ofInt a.taskNumber),
                  ("task_id", .string a.taskId), ("verdict", .string a.verdict.text)]),
                  db.complete a (env.now 0))

/-! ### What is said of a task -/

omit [FloatText] [Digest] in
/-- The request of a task that counts, with its assessment. -/
structure Standing where
  request : Request
  assessment : Option Assessment

/-- The queries of `task_executability_status`. -/
def Db.standing (db : Db) (taskId : String) : Option Standing :=
  (db.latest taskId).map fun r =>
    ⟨r, (r.assessmentId.filter fun assessmentId => assessmentId ≠ "").bind db.assessment⟩

namespace Standing

def superseded (s : Standing) : Bool := s.request.supersededBy.isSome

/-- The assessment is of the task as it stands. -/
def Current (s : Standing) (c : Context) : Prop :=
  s.superseded = false ∧
    ∃ a ∈ s.assessment, a.specDigest = c.specDigest ∧ a.environmentDigest = c.environmentDigest

end Standing

end Calls

end Executability

end McpSurfaces
