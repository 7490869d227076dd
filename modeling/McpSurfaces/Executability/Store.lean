import McpSurfaces.Foundation.Interleaving
import McpSurfaces.Foundation.Table
import McpSurfaces.TaskLifecycle.Operations

/-!
The executability of tasks: what its tables hold, and the ids that are digests.

* `Db`: the definitions of tasks, the requests for an assessment with their attempts, the
  assessments, and the overrides. A table is the list of its rows in the order of their row ids.
* `CallEnv`: what a call reads beside the database. What `native_policy` reads of its three files is
  the field `policy`.
-/

namespace McpSurfaces

namespace Executability

open EventLedger (Digest)
open TaskLifecycle (optionText)

/-! ### Tables -/

/-- A row of `task_lifecycle` with its row of `task_specs`. -/
structure TaskSpec where
  taskId : String
  number : ℤ
  title : String
  goal : Option String
  context : Option String
  requiredWork : Option String
  nonGoals : Option String
  criteria : Value
  dependencies : Value

inductive RequestState where
  | pending
  | leased
  | dispatched
  | failedRetryable
  | failedTerminal
  | completed
deriving DecidableEq, Repr

/-- A row of `task_executability_requests`. -/
structure Request where
  requestId : String
  taskId : String
  taskNumber : ℤ
  state : RequestState
  specDigest : String
  environmentDigest : String
  profile : String
  profileVersion : String
  assessmentId : Option String
  leaseOwner : Option String
  leaseExpiresAt : Option String
  attemptCount : ℕ
  supersededBy : Option String
  createdAt : String
  updatedAt : String
deriving DecidableEq, Repr

/-- A row of `task_executability_attempts`. -/
structure Attempt where
  attemptId : String
  requestId : String
  actor : String
  leasedAt : String
  leaseExpiresAt : String
deriving DecidableEq, Repr

inductive Verdict where
  | executable
  | needsRevision
  | notExecutable
deriving DecidableEq, Repr

def Verdict.text : Verdict → String
  | executable => "executable"
  | needsRevision => "needs_revision"
  | notExecutable => "not_executable"

/-- A row of `task_executability_assessments`. -/
structure Assessment where
  assessmentId : String
  requestId : String
  taskId : String
  taskNumber : ℤ
  specDigest : String
  environmentDigest : String
  verdict : Verdict
  findings : Value
  evaluator : Value
  createdAt : String

/-- What an override is for: a task, its definition and a dispatch. -/
structure Purpose where
  taskId : String
  specDigest : String
  fingerprint : String
deriving DecidableEq, Repr

/-- A row of `task_executability_overrides`. -/
structure Override where
  overrideId : String
  purpose : Purpose
  actor : String
  reason : String
  authorityBasis : Value
  createdAt : String
  consumedAt : Option String

structure Db where
  specs : List TaskSpec := []
  requests : List Request := []
  attempts : List Attempt := []
  assessments : List Assessment := []
  overrides : List Override := []

/-! ### What a call reads -/

/-- The declared environment of a site. -/
structure Environment where
  siteId : String
  substrate : String
  variant : Option String

/-- What a call reads beside the database: the clock, its environment, and the profile of the
evaluator with the policy that it comes from. -/
structure CallEnv where
  now : ℕ → String
  /-- The text of the time so many minutes after a reading of the clock. -/
  expiry : ℕ → ℤ → String
  environment : Environment
  policy : Except String (String × Value)

/-- `profile_version`. -/
def profileVersion : String := "1.0.0"

section Digests

variable [FloatText] [Digest]

/-- `native_canonical_digest`. -/
def canonicalDigest (v : Value) : String := Digest.sha256 v.canonicalText

/-- An id that begins with a text and goes on with the first digits of a digest. -/
def digestId (start : String) (v : Value) : String :=
  start ++ String.ofList ((canonicalDigest v).toList.take 32)

/-- The digest of the definition of a task. -/
def TaskSpec.digest (s : TaskSpec) : String :=
  canonicalDigest (.object [("kind", .string "task_spec"), ("title", .string s.title),
    ("goal", optionText s.goal), ("context", optionText s.context),
    ("required_work", optionText s.requiredWork), ("non_goals", optionText s.nonGoals),
    ("acceptance_criteria", s.criteria), ("dependencies", s.dependencies)])

/-- `native_environment_digest`. -/
def Environment.digest (e : Environment) : String :=
  canonicalDigest (.object [("kind", .string "declared_environment"), ("site_id", .string e.siteId),
    ("substrate", .string e.substrate), ("variant", optionText e.variant),
    ("declared_tools", .array []), ("declared_authority", .array [])])

/-- `native_request_id`. -/
def requestIdOf (taskId specDigest environmentDigest profile version : String) : String :=
  digestId "texr_" (.object [("kind", .string "request"), ("task_id", .string taskId),
    ("task_spec_digest", .string specDigest), ("environment_digest", .string environmentDigest),
    ("evaluator_profile", .string profile), ("evaluator_profile_version", .string version)])

/-- `native_assessment_id`. -/
def assessmentIdOf (requestId createdAt : String) : String :=
  digestId "texa_" (.object [("kind", .string "assessment"), ("request_id", .string requestId),
    ("created_at", .string createdAt)])

/-- `native_dispatch_fingerprint`. -/
def dispatchFingerprint (taskId specDigest environmentDigest siteId : String) : String :=
  digestId "texd_" (.object [("kind", .string "dispatch"), ("task_id", .string taskId),
    ("task_spec_digest", .string specDigest), ("environment_digest", .string environmentDigest),
    ("workflow", .string "implement"), ("site_id", .string siteId)])

/-- `native_override_id`. -/
def overrideIdOf (taskId fingerprint actor createdAt : String) : String :=
  digestId "texo_" (.object [("kind", .string "override"), ("task_id", .string taskId),
    ("dispatch_fingerprint", .string fingerprint), ("actor", .string actor),
    ("created_at", .string createdAt)])

/-- `native_task_executability_context`: the task of a number, and the two digests. -/
structure Context where
  taskId : String
  specDigest : String
  environmentDigest : String
deriving DecidableEq, Repr

def Db.context (env : CallEnv) (number : ℤ) (db : Db) : Except String Context :=
  match db.specs.find? fun s => s.number = number with
  | none => .error ("task_not_found:" ++ toString number)
  | some s => .ok ⟨s.taskId, s.digest, env.environment.digest⟩

end Digests

namespace Db

def request (db : Db) (requestId : String) : Option Request :=
  Table.row Request.requestId db.requests requestId

def assessment (db : Db) (assessmentId : String) : Option Assessment :=
  Table.row Assessment.assessmentId db.assessments assessmentId

/-- The last of requests: `order by created_at desc,rowid desc limit 1`. -/
def lastOf : List Request → Option Request :=
  List.foldl (fun last r =>
    match last with
    | some q => if q.createdAt ≤ r.createdAt then some r else some q
    | none => some r) none

/-- The latest request of a task. -/
def latest (db : Db) (taskId : String) : Option Request :=
  lastOf (db.requests.filter fun r => r.taskId = taskId)

/-- The override that a dispatch would consume: `order by created_at asc,rowid asc limit 1`. -/
def firstOf : List Override → Option Override :=
  List.foldl (fun first o =>
    match first with
    | some q => if q.createdAt ≤ o.createdAt then some q else some o
    | none => some o) none

/-- An override for a purpose that has not been consumed. -/
def Open (purpose : Purpose) (o : Override) : Prop := o.purpose = purpose ∧ o.consumedAt = none

instance (purpose : Purpose) : DecidablePred (Open purpose) :=
  fun _ => inferInstanceAs (Decidable (_ ∧ _))

def unconsumed (db : Db) (purpose : Purpose) : Option Override :=
  firstOf (db.overrides.filter fun o => Open purpose o)

end Db

end Executability

end McpSurfaces
