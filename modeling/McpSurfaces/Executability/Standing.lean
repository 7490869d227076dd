import McpSurfaces.Executability.Requests
import McpSurfaces.Foundation.Fallible

/-!
Whether a request for an assessment stays live, and its assessment counts.

* `Desk`: the database, and the request that each task was last given.
* `Serves`: that request is not superseded and can be leased, and once it is completed its
  assessment is the one that counts for its digests.
* `Settled`: a task is given a request that is new, or the latest one that it has, and an assessment
  takes an id that no other request has.
* **`serves_of_settled`**: in a run whose calls are so, every request serves.
* `superseded_when_given_back`: a request that a task is given again may be superseded.
-/

namespace McpSurfaces

namespace Executability

open EventLedger (Digest)
open Table (updateWhere)
open Calls (run Each)

/-! ### The latest request -/

namespace Db

lemma lastOf_map {set : Request → Request} (hset : ∀ r, (set r).createdAt = r.createdAt)
    (rows : List Request) : lastOf (rows.map set) = (lastOf rows).map set := by
  rw [lastOf, List.foldl_map]
  show List.foldl _ ((none : Option Request).map set) rows = _
  refine List.foldl_hom (Option.map set) fun last r => ?_
  cases last with
  | none => rfl
  | some q =>
      simp only [Option.map_some, hset]
      split <;> rfl

lemma lastOf_append_singleton {rows : List Request} {new : Request} :
    lastOf (rows ++ [new]) = match lastOf rows with
      | some q => if q.createdAt ≤ new.createdAt then some new else some q
      | none => some new := by
  rw [lastOf, List.foldl_append]
  rfl

lemma lastOf_mem {rows : List Request} {r : Request} (h : lastOf rows = some r) : r ∈ rows := by
  induction rows using List.reverseRecOn generalizing r with
  | nil => cases h
  | append_singleton rest new ih =>
      rw [lastOf_append_singleton] at h
      cases hlast : lastOf rest with
      | none =>
          rw [hlast] at h
          cases h
          exact List.mem_append_right _ (List.mem_singleton_self _)
      | some q =>
          simp only [hlast] at h
          split at h
          · cases h
            exact List.mem_append_right _ (List.mem_singleton_self _)
          · cases h
            exact List.mem_append_left _ (ih hlast)

/-- What is created last is the last. -/
lemma lastOf_append_of_le {rows : List Request} {new : Request}
    (h : ∀ r ∈ rows, r.createdAt ≤ new.createdAt) : lastOf (rows ++ [new]) = some new := by
  rw [lastOf_append_singleton]
  cases hlast : lastOf rows with
  | none => rfl
  | some q => exact if_pos (h q (lastOf_mem hlast))

lemma latest_mem {db : Db} {taskId : String} {r : Request} (h : db.latest taskId = some r) :
    r ∈ db.requests ∧ r.taskId = taskId := by
  obtain ⟨hr, htask⟩ := List.mem_filter.mp (lastOf_mem h)
  exact ⟨hr, of_decide_eq_true htask⟩

/-- The latest request behind an update of requests. -/
lemma latest_update {db db' : Db} {p : Request → Prop} [DecidablePred p]
    {set : Request → Request} (hrequests : db'.requests = updateWhere p set db.requests)
    (hset : ∀ r, (set r).createdAt = r.createdAt) (htask : ∀ r, (set r).taskId = r.taskId)
    (taskId : String) :
    db'.latest taskId = (db.latest taskId).map fun r => if p r then set r else r := by
  have hfilter : (updateWhere p set db.requests).filter (fun r => r.taskId = taskId) =
      (db.requests.filter fun r => r.taskId = taskId).map fun r => if p r then set r else r := by
    rw [updateWhere, List.filter_map]
    congr 1
    refine List.filter_congr fun r _ => ?_
    simp only [Function.comp]
    split
    · rw [htask]
    · rfl
  rw [latest, hrequests, hfilter]
  refine lastOf_map (fun r => ?_) _
  split
  · exact hset r
  · rfl

end Db

/-! ### What a request is good for -/

section Calls

variable [FloatText] [Digest]

section

omit [FloatText] [Digest]

/-- `executability_status` and `executability_dispatch_check` go by an assessment. -/
def Uses (db : Db) (c : Context) (a : Assessment) : Prop :=
  (∃ s, db.standing c.taskId = some s ∧ s.assessment = some a ∧ s.Current c) ∧
    (latestAssessment c.taskId).run.alone Statement.exec db = (.ok (some a), db)

/-- A request can be leased, once the lease that it has runs out. -/
def Request.Leasable (r : Request) : Prop :=
  ∀ now consumer, (∀ e ∈ r.leaseExpiresAt, e < now) → r.Offered now consumer ∧ r.Free now

/-- The request for the digests of a task is live, and its assessment is the one that counts. -/
def Serves (db : Db) (c : Context) (requestId : String) : Prop :=
  ∃ r, db.request requestId = some r ∧ r.supersededBy = none ∧
    (r.state = .completed ∨ r.Leasable) ∧
    (r.state = .completed → ∃ a ∈ db.assessments, a.requestId = requestId ∧ Uses db c a)

end

/-- A database, and for each task the digests and the id of the request that it was last given. -/
structure Desk where
  db : Db := {}
  given : List (Context × String) := []

def Request.digests (r : Request) : Context := ⟨r.taskId, r.specDigest, r.environmentDigest⟩

/-- A call, or a change of the definitions of tasks. What else changes, each call reads anew. -/
inductive Act where
  | request (env : CallEnv) (args : Value)
  | next (env : CallEnv) (args : Value)
  | complete (env : CallEnv) (args : Value)
  | respecify (specs : List TaskSpec)

def Desk.act (d : Desk) : Act → Desk
  | .request env args =>
      { db := (executabilityRequest env args d.db).2
        given :=
          match requested env args d.db with
          | .ok new => (new.digests, new.requestId) ::
              d.given.filter fun x => x.1.taskId ≠ new.taskId
          | .error _ => d.given }
  | .next env args => { d with db := (requestsNext env args d.db).2 }
  | .complete env args => { d with db := (executabilityComplete env args d.db).2 }
  | .respecify specs => { d with db := { d.db with specs } }

/-- Every request that a task was last given serves. -/
def Live (d : Desk) : Prop := ∀ x ∈ d.given, Serves d.db x.1 x.2

omit [FloatText] [Digest] in
/-- The assessment of a request. -/
def Db.assessmentOf (db : Db) (r : Request) : Option Assessment :=
  r.assessmentId.bind db.assessment

/-- The assessment that a completion stores. -/
def completing (args : Value) (db : Db) : Option Assessment :=
  match TaskLifecycle.stringArg args "request_id",
      (args.get "assessment").filter fun v => v.asObject.isSome with
  | some requestId, some json =>
      (db.request requestId).bind fun r => (completion r json).toOption
  | _, _ => none

lemma executabilityComplete_db (env : CallEnv) (args : Value) (db : Db) :
    (executabilityComplete env args db).2 =
      match completing args db with
      | some a => db.complete a (env.now 0)
      | none => db := by
  unfold executabilityComplete completing TaskLifecycle.requiredString
  cases TaskLifecycle.stringArg args "request_id" with
  | none => rfl
  | some requestId =>
      dsimp only
      cases (args.get "assessment").filter fun v => v.asObject.isSome with
      | none => rfl
      | some json =>
          dsimp only
          cases db.request requestId with
          | none => rfl
          | some r =>
              dsimp only [Option.bind_some]
              cases completion r json <;> rfl

/-- What a completion leaves: the assessments of the other requests. -/
def Untouched (d : Desk) (a : Act) : Prop :=
  ∀ env args a', a = .complete env args → completing args d.db = some a' →
    ∀ r ∈ d.db.requests, r.requestId ≠ a'.requestId →
      r ∈ (d.act a).db.requests ∧ (d.act a).db.assessmentOf r = d.db.assessmentOf r

/-- A task is given a request that is new and later than all that it has, or the latest one that it
has, not superseded and for the same digests. An assessment takes an id of its own. -/
structure Settled (d : Desk) (a : Act) : Prop where
  request : ∀ env args new, a = .request env args → requested env args d.db = .ok new →
    (d.db.request new.requestId = none ∧
        ∀ r ∈ d.db.requests, r.taskId = new.taskId → r.createdAt ≤ new.createdAt) ∨
      ∃ r, d.db.latest new.taskId = some r ∧ r.requestId = new.requestId ∧
        r.supersededBy = none ∧ r.digests = new.digests
  complete : ∀ env args a', a = .complete env args → completing args d.db = some a' →
    a'.assessmentId ≠ "" ∧
      ∀ q ∈ d.db.assessments, q.assessmentId = a'.assessmentId → q.requestId = a'.requestId

omit [FloatText] [Digest] in
/-- A report that is accepted is for the digests of its request. -/
lemma checkReport_ok {r : Request} {report : Report} {verdict : Verdict}
    (h : checkReport r report = .ok verdict) :
    report.specDigest = r.specDigest ∧ report.environmentDigest = r.environmentDigest := by
  unfold checkReport at h
  obtain ⟨-, h⟩ := guard_ok h
  obtain ⟨-, h⟩ := guard_ok h
  obtain ⟨hdigests, h⟩ := guard_ok h
  rw [not_or, not_not, not_not] at hdigests
  exact ⟨hdigests.1.symm, hdigests.2.symm⟩

/-- The assessment that a completion stores is for its request. -/
lemma completing_request {args : Value} {db : Db} {a : Assessment}
    (h : completing args db = some a) :
    ∃ r, db.request a.requestId = some r ∧ a.specDigest = r.specDigest ∧
      a.environmentDigest = r.environmentDigest := by
  unfold completing at h
  split at h
  · next requestId json _ _ =>
      obtain ⟨r, hr, hstored⟩ := Option.bind_eq_some_iff.mp h
      have hid : r.requestId = requestId := Table.key_of_row hr
      cases hcompletion : completion r json with
      | error e =>
          rw [hcompletion] at hstored
          cases hstored
      | ok stored =>
          rw [hcompletion] at hstored
          obtain rfl : stored = a := Option.some.inj hstored
          obtain ⟨report, -, hcompletion⟩ := Lists.bind_eq_ok hcompletion
          obtain ⟨verdict, hverdict, hcompletion⟩ := Lists.bind_eq_ok hcompletion
          cases hcompletion
          refine ⟨r, ?_, checkReport_ok hverdict⟩
          show db.request r.requestId = some r
          rw [hid]
          exact hr
  · cases h

end Calls

/-! ### What every call keeps -/

/-- How the requests, their leases and their assessments stand. -/
structure Sound (db : Db) : Prop where
  ids : (db.requests.map Request.requestId).Nodup
  states : ∀ r ∈ db.requests, r.state = .pending ∨
    (r.state = .leased ∧ r.leaseExpiresAt.isSome) ∨ (r.state = .completed ∧ r.assessmentId.isSome)
  assessed : ∀ r ∈ db.requests, ∀ assessmentId ∈ r.assessmentId, assessmentId ≠ "" ∧
    ∃ a, db.assessment assessmentId = some a ∧ a.requestId = r.requestId ∧
      a.specDigest = r.specDigest ∧ a.environmentDigest = r.environmentDigest
  assessments : (db.assessments.map Assessment.assessmentId).Nodup

/-- The request that a task was last given is its latest one. -/
def Newest (db : Db) (c : Context) (requestId : String) : Prop :=
  ∃ r, db.latest c.taskId = some r ∧ r.requestId = requestId ∧ r.supersededBy = none ∧
    r.digests = c

/-- What a dispatch check finds of assessments. -/
lemma alone_latestAssessment (db : Db) (taskId : String) :
    (latestAssessment taskId).run.alone Statement.exec db =
      (.ok (((db.latest taskId).bind fun r =>
        if r.supersededBy.isSome then none else r.assessmentId).bind db.assessment), db) := by
  unfold latestAssessment
  refine (Program.alone_bind (query (·.latest taskId)).run (ExceptT.bindCont _) db).trans ?_
  show Program.alone Statement.exec (ExceptT.bindCont _ (Except.ok (db.latest taskId))) db = _
  dsimp only [ExceptT.bindCont]
  cases (db.latest taskId).bind fun r => if r.supersededBy.isSome then none else r.assessmentId <;>
    rfl

/-- **The latest request of a task serves.** -/
theorem serves_of_newest {db : Db} (h : Sound db) {c : Context} {requestId : String}
    (hnewest : Newest db c requestId) : Serves db c requestId := by
  obtain ⟨r, hlatest, rfl, hopen, rfl⟩ := hnewest
  obtain ⟨hr, -⟩ := Db.latest_mem hlatest
  refine ⟨r, Table.row_of_mem h.ids hr, hopen, ?_, fun hcompleted => ?_⟩
  · rcases h.states r hr with hpending | ⟨hleased, hexpiry⟩ | ⟨hcompleted, -⟩
    · refine .inr fun now consumer _ => ?_
      have hfree : r.Free now := .inl hpending
      exact ⟨⟨hopen, .inl hfree⟩, hfree⟩
    · refine .inr fun now consumer hexpired => ?_
      obtain ⟨e, he⟩ := Option.isSome_iff_exists.mp hexpiry
      have hfree : r.Free now := .inr ⟨.inl hleased, e, he, hexpired e he⟩
      exact ⟨⟨hopen, .inl hfree⟩, hfree⟩
    · exact .inl hcompleted
  · have hsome : r.assessmentId.isSome := by
      rcases h.states r hr with hpending | ⟨hleased, -⟩ | ⟨-, hsome⟩
      · rw [hcompleted] at hpending
        cases hpending
      · rw [hcompleted] at hleased
        cases hleased
      · exact hsome
    obtain ⟨assessmentId, hid⟩ := Option.isSome_iff_exists.mp hsome
    obtain ⟨hne, a, ha, hrequest, hspec, henvironment⟩ := h.assessed r hr assessmentId hid
    refine ⟨a, Table.mem_of_row ha, hrequest, ⟨⟨r, some a⟩, ?_, rfl, ?_⟩, ?_⟩
    · rw [Db.standing]
      show (db.latest r.taskId).map _ = _
      have hlatest : db.latest r.taskId = some r := hlatest
      rw [hlatest, Option.map_some, hid, Option.filter_some, if_pos (decide_eq_true hne),
        Option.bind_some, ha]
    · exact ⟨by rw [Standing.superseded, hopen]; rfl, a, rfl, hspec, henvironment⟩
    · have hlatest : db.latest r.taskId = some r := hlatest
      show (latestAssessment r.taskId).run.alone Statement.exec db = _
      rw [alone_latestAssessment, hlatest, Option.bind_some, hopen, hid]
      exact congrArg (fun a => (Except.ok a, db)) ha

/-- The state of the requests that tasks were last given. -/
structure Kept (given : List (Context × String)) (db : Db) : Prop where
  sound : Sound db
  newest : ∀ x ∈ given, Newest db x.1 x.2

/-- The requests change in what neither orders them nor identifies them. -/
lemma Newest.update {db db' : Db} {p : Request → Prop} [DecidablePred p] {set : Request → Request}
    (hrequests : db'.requests = updateWhere p set db.requests)
    (hset : ∀ r, (set r).createdAt = r.createdAt) (htask : ∀ r, (set r).taskId = r.taskId)
    {c : Context} {requestId : String}
    (hkept : ∀ r, p r → r.taskId = c.taskId → r.requestId = requestId →
      (set r).requestId = r.requestId ∧ (set r).supersededBy = r.supersededBy ∧
        (set r).digests = r.digests)
    (h : Newest db c requestId) : Newest db' c requestId := by
  obtain ⟨r, hlatest, hid, hopen, hdigests⟩ := h
  have hlatest' := Db.latest_update hrequests hset htask c.taskId
  rw [hlatest, Option.map_some] at hlatest'
  refine ⟨_, hlatest', ?_⟩
  split
  · next hp =>
      obtain ⟨hid', hopen', hdigests'⟩ := hkept r hp (Db.latest_mem hlatest).2 hid
      exact ⟨hid'.trans hid, hopen'.trans hopen, hdigests'.trans hdigests⟩
  · exact ⟨hid, hopen, hdigests⟩

section Calls

variable {given : List (Context × String)} {db : Db}

/-- A request that is filed leaves how the others stand. -/
lemma Sound.file (h : Sound db) {new : Request} (hstate : new.state = .pending)
    (hassessment : new.assessmentId = none) : Sound (db.file new) := by
  have hbase : ∀ r ∈ (db.enqueue new).requests, r ∈ db.requests ∨ r = new := by
    intro r hr
    unfold Db.enqueue at hr
    split at hr
    · exact .inl hr
    · rcases List.mem_append.mp hr with hr | hr
      · exact .inl hr
      · exact .inr (List.mem_singleton.mp hr)
  refine ⟨?_, fun r hr => ?_, fun r hr => ?_, h.assessments⟩
  · show ((updateWhere (fun r => r.GivesWay new) (Request.giveWay new)
      (db.enqueue new).requests).map Request.requestId).Nodup
    have hkey : ∀ r : Request, r.GivesWay new → (new.giveWay r).requestId = r.requestId :=
      fun _ _ => rfl
    rw [Table.keys_updateWhere hkey, Db.enqueue]
    split
    · exact h.ids
    · next hfree => exact Table.nodup_append_singleton h.ids (by simpa [Db.request] using hfree)
  · obtain ⟨before, hbefore, rfl⟩ := Table.mem_updateWhere.mp hr
    have hstates : before.state = .pending ∨
        (before.state = .leased ∧ before.leaseExpiresAt.isSome) ∨
        (before.state = .completed ∧ before.assessmentId.isSome) := by
      rcases hbase before hbefore with hold | rfl
      · exact h.states before hold
      · exact .inl hstate
    split <;> exact hstates
  · obtain ⟨before, hbefore, rfl⟩ := Table.mem_updateWhere.mp hr
    have hassessed : ∀ assessmentId ∈ before.assessmentId, assessmentId ≠ "" ∧
        ∃ a, db.assessment assessmentId = some a ∧ a.requestId = before.requestId ∧
          a.specDigest = before.specDigest ∧ a.environmentDigest = before.environmentDigest := by
      rcases hbase before hbefore with hold | rfl
      · exact h.assessed before hold
      · rw [hassessment]
        nofun
    split <;> exact hassessed

/-- The requests of other tasks do not mind one that is filed. -/
lemma latest_file_of_ne {new : Request} {c : Context} {requestId : String}
    (hother : c.taskId ≠ new.taskId) (h : Newest db c requestId) :
    Newest (db.file new) c requestId := by
  have hbase : Newest (db.enqueue new) c requestId := by
    obtain ⟨r, hlatest, hrest⟩ := h
    refine ⟨r, ?_, hrest⟩
    rw [Db.latest] at hlatest ⊢
    unfold Db.enqueue
    dsimp only
    split
    · exact hlatest
    · rw [List.filter_append, List.filter_cons_of_neg, List.filter_nil, List.append_nil]
      · exact hlatest
      · simpa using fun htask => hother htask.symm
  have hfiled : (db.file new).requests = updateWhere (fun r => r.GivesWay new)
      (Request.giveWay new) (db.enqueue new).requests := rfl
  refine Newest.update hfiled (fun _ => rfl) (fun _ => rfl) (fun r hgives htask _ => ?_) hbase
  exact absurd (htask.symm.trans hgives.1) hother

/-- The request that is filed is the latest of its task. -/
lemma newest_file {new : Request} (hopen : new.supersededBy = none)
    (h : (db.request new.requestId = none ∧
        ∀ r ∈ db.requests, r.taskId = new.taskId → r.createdAt ≤ new.createdAt) ∨
      ∃ r, db.latest new.taskId = some r ∧ r.requestId = new.requestId ∧ r.supersededBy = none ∧
        r.digests = new.digests) : Newest (db.file new) new.digests new.requestId := by
  have hbase : Newest (db.enqueue new) new.digests new.requestId := by
    rcases h with ⟨hfree, hlast⟩ | ⟨r, hlatest, hid, hnone, hdigests⟩
    · refine ⟨new, ?_, rfl, hopen, rfl⟩
      rw [Db.enqueue, hfree, Db.latest]
      show Db.lastOf ((db.requests ++ [new]).filter _) = some new
      have hnew : [new].filter (fun r => r.taskId = new.digests.taskId) = [new] := by
        simp [Request.digests]
      rw [List.filter_append, hnew]
      refine Db.lastOf_append_of_le fun r hr => ?_
      obtain ⟨hr, htask⟩ := List.mem_filter.mp hr
      exact hlast r hr (of_decide_eq_true htask)
    · refine ⟨r, ?_, hid, hnone, hdigests⟩
      have hfound : (db.request new.requestId).isSome := by
        obtain ⟨other, hother⟩ : ∃ other,
            Table.row Request.requestId db.requests r.requestId = some other :=
          Table.exists_row_of_mem (Db.latest_mem hlatest).1
        rw [← hid, Db.request, hother]
        rfl
      rw [Db.enqueue, if_pos hfound]
      exact hlatest
  have hfiled : (db.file new).requests = updateWhere (fun r => r.GivesWay new)
      (Request.giveWay new) (db.enqueue new).requests := rfl
  refine Newest.update hfiled (fun _ => rfl) (fun _ => rfl) (fun r hgives _ hid => ?_) hbase
  exact absurd hid hgives.2.1

/-- Leases leave how the requests stand. -/
lemma Kept.lease (h : Kept given db) (p : Request → Prop) [DecidablePred p]
    (consumer expiry now : String) (attempts : List Attempt) :
    Kept given { db with
      requests := updateWhere p (fun r => r.lease consumer expiry now) db.requests
      attempts := attempts } where
  sound :=
    { ids := by
        have hkey : ∀ r, p r → (r.lease consumer expiry now).requestId = r.requestId :=
          fun _ _ => rfl
        show ((updateWhere p _ db.requests).map Request.requestId).Nodup
        rw [Table.keys_updateWhere hkey]
        exact h.sound.ids
      states := fun r hr => by
        obtain ⟨before, hbefore, rfl⟩ := Table.mem_updateWhere.mp hr
        split
        · exact .inr (.inl ⟨rfl, rfl⟩)
        · exact h.sound.states before hbefore
      assessed := fun r hr => by
        obtain ⟨before, hbefore, rfl⟩ := Table.mem_updateWhere.mp hr
        have hassessed := h.sound.assessed before hbefore
        split <;> exact hassessed
      assessments := h.sound.assessments }
  newest x hx := by
    have hleased : ({ db with
        requests := updateWhere p (fun r => r.lease consumer expiry now) db.requests
        attempts := attempts } : Db).requests =
      updateWhere p (fun r => r.lease consumer expiry now) db.requests := rfl
    exact Newest.update hleased (fun _ => rfl) (fun _ => rfl) (fun _ _ _ _ => ⟨rfl, rfl, rfl⟩)
      (h.newest x hx)

variable [FloatText] [Digest]

lemma Kept.leaseAll (env : CallEnv) (consumer : String) (minutes : ℤ) (h : Kept given db) (k : ℕ)
    (ids : List String) (leased : List Value) :
    Kept given (leaseAll env consumer minutes k ids leased db).2 := by
  induction ids generalizing k leased db with
  | nil => exact h
  | cons requestId rest ih =>
      unfold Executability.leaseAll
      split
      · exact ih h k leased
      · dsimp only
        split
        · split
          · exact h.lease _ _ _ _ _
          · split
            · exact ih (h.lease _ _ _ _ _) _ _
            · exact ih (h.lease _ _ _ _ _) _ _
        · exact ih h _ _

lemma Kept.requestsNext (env : CallEnv) (args : Value) (h : Kept given db) :
    Kept given (requestsNext env args db).2 := by
  unfold Executability.requestsNext
  split
  · exact h
  · next consumer _ =>
      have hleased := h.leaseAll env consumer (clampedArg args "lease_duration_minutes" 10 1 120) 0
        ((db.candidates (env.now 0) consumer (clampedArg args "limit" 1 1 20).toNat).map
          Request.requestId) []
      dsimp only
      split
      · next heq =>
          rw [heq] at hleased
          exact hleased
      · next heq =>
          rw [heq] at hleased
          exact hleased

/-! ### Completions -/

section

omit [FloatText] [Digest]

lemma assessment_assess (a : Assessment) (assessmentId : String) :
    (db.assess a).assessment assessmentId =
      if assessmentId = a.assessmentId then some a else db.assessment assessmentId := by
  unfold Db.assess Db.assessment
  dsimp only
  split
  · next hthere =>
      have hkey : ∀ q : Assessment, q.assessmentId = a.assessmentId →
          a.assessmentId = q.assessmentId := fun _ hq => hq.symm
      rw [Table.row_updateWhere hkey]
      split
      · next hid =>
          obtain ⟨q, hq, hqid⟩ := hthere
          obtain ⟨other, hother⟩ : ∃ other,
              Table.row Assessment.assessmentId db.assessments q.assessmentId = some other :=
            Table.exists_row_of_mem hq
          rw [hqid] at hother
          rw [hid, hother, Option.map_some, if_pos (Table.key_of_row hother)]
      · next hid =>
          cases hrow : Table.row Assessment.assessmentId db.assessments assessmentId with
          | none => rfl
          | some q =>
              rw [Option.map_some, if_neg]
              exact fun hq => hid ((Table.key_of_row hrow).symm.trans hq)
  · next hfree =>
      rw [Table.row_append, Table.row_singleton]
      split
      · next hid =>
          have hnone : Table.row Assessment.assessmentId db.assessments assessmentId = none := by
            refine Table.row_eq_none_iff.mpr fun hmem => hfree ?_
            obtain ⟨q, hq, hqid⟩ := List.mem_map.mp hmem
            exact ⟨q, hq, hqid.trans hid.symm⟩
          rw [hnone, if_pos hid.symm]
          rfl
      · next hid =>
          rw [if_neg fun heq => hid heq.symm, Option.or_none]

/-- The assessments of other requests stay. -/
lemma assessmentOf_assess (h : Sound db) {a : Assessment}
    (hown : ∀ q ∈ db.assessments, q.assessmentId = a.assessmentId → q.requestId = a.requestId)
    {r : Request} (hr : r ∈ db.requests) (hother : r.requestId ≠ a.requestId) :
    ∀ assessmentId ∈ r.assessmentId,
      (db.assess a).assessment assessmentId = db.assessment assessmentId := by
  intro assessmentId hid
  obtain ⟨-, q, hq, hrequest, -⟩ := h.assessed r hr assessmentId hid
  rw [assessment_assess, if_neg]
  intro hsame
  have hqid : q.assessmentId = assessmentId := Table.key_of_row hq
  exact hother (hrequest.symm.trans (hown q (Table.mem_of_row hq) (hqid.trans hsame)))

/-- A completion with an id of its own keeps how the requests stand. -/
lemma Kept.complete (h : Kept given db) {a : Assessment} (hne : a.assessmentId ≠ "")
    (hown : ∀ q ∈ db.assessments, q.assessmentId = a.assessmentId → q.requestId = a.requestId)
    (hdigests : ∃ r, db.request a.requestId = some r ∧ a.specDigest = r.specDigest ∧
      a.environmentDigest = r.environmentDigest) (now : String) :
    Kept given (db.complete a now) where
  sound :=
    { ids := by
        have hkey : ∀ r : Request, r.requestId = a.requestId → ({ r with
          state := .completed, assessmentId := some a.assessmentId, updatedAt := now } :
            Request).requestId = r.requestId := fun _ _ => rfl
        show ((updateWhere _ _ db.requests).map Request.requestId).Nodup
        rw [Table.keys_updateWhere hkey]
        exact h.sound.ids
      states := fun r hr => by
        obtain ⟨before, hbefore, rfl⟩ := Table.mem_updateWhere.mp hr
        split
        · exact .inr (.inr ⟨rfl, rfl⟩)
        · exact h.sound.states before hbefore
      assessed := fun r hr assessmentId hid => by
        obtain ⟨before, hbefore, rfl⟩ := Table.mem_updateWhere.mp hr
        have hbefore : before ∈ db.requests := hbefore
        show assessmentId ≠ "" ∧ ∃ a', (db.assess a).assessment assessmentId = some a' ∧ _
        split at hid
        · next hthis =>
            obtain rfl := Option.some.inj hid
            obtain ⟨r, hr, hspec, henvironment⟩ := hdigests
            have hsame : before = r := List.inj_on_of_nodup_map h.sound.ids hbefore
              (Table.mem_of_row hr) (hthis.trans (Table.key_of_row hr).symm)
            rw [if_pos hthis, hsame]
            refine ⟨hne, a, ?_, ?_, hspec, henvironment⟩
            · rw [assessment_assess, if_pos rfl]
            · exact (Table.key_of_row hr).symm
        · next hother =>
            rw [if_neg hother]
            obtain ⟨hfilled, a', ha', hrest⟩ := h.sound.assessed before hbefore assessmentId hid
            refine ⟨hfilled, a', ?_, hrest⟩
            rw [assessmentOf_assess h.sound hown hbefore hother assessmentId hid]
            exact ha'
      assessments := by
        show ((db.assess a).assessments.map Assessment.assessmentId).Nodup
        unfold Db.assess
        dsimp only
        split
        · have hkey : ∀ q : Assessment, q.assessmentId = a.assessmentId →
              a.assessmentId = q.assessmentId := fun _ hq => hq.symm
          rw [Table.keys_updateWhere hkey]
          exact h.sound.assessments
        · next hfree =>
            refine Table.nodup_append_singleton h.sound.assessments
              (Table.row_eq_none_iff.mpr fun hmem => hfree ?_)
            obtain ⟨q, hq, hid⟩ := List.mem_map.mp hmem
            exact ⟨q, hq, hid⟩ }
  newest x hx := by
    have hcompleted : (db.complete a now).requests = updateWhere
        (fun r => r.requestId = a.requestId) (fun r => { r with
          state := .completed, assessmentId := some a.assessmentId, updatedAt := now })
        db.requests := rfl
    exact Newest.update hcompleted (fun _ => rfl) (fun _ => rfl) (fun _ _ _ _ => ⟨rfl, rfl, rfl⟩)
      (h.newest x hx)

end

/-! ### Runs -/

/-- How a desk stands. -/
def Desk.Kept (d : Desk) : Prop := Executability.Kept d.given d.db

/-- What a call asks for is new. -/
lemma requested_ok {env : CallEnv} {args : Value} {new : Request}
    (h : requested env args db = .ok new) :
    new.state = .pending ∧ new.assessmentId = none ∧ new.supersededBy = none := by
  unfold requested at h
  obtain ⟨number, -, h⟩ := Lists.bind_eq_ok h
  obtain ⟨agent, -, h⟩ := Lists.bind_eq_ok h
  obtain ⟨c, -, h⟩ := Lists.bind_eq_ok h
  obtain ⟨policy, -, h⟩ := Lists.bind_eq_ok h
  cases h
  exact ⟨rfl, rfl, rfl⟩

lemma executabilityRequest_db {env : CallEnv} {args : Value} {new : Request}
    (h : requested env args db = .ok new) :
    (executabilityRequest env args db).2 = db.file new := by
  unfold executabilityRequest
  rw [h]
  dsimp only
  split <;> rfl

/-- **A settled act keeps how a desk stands.** -/
theorem kept_act {d : Desk} {a : Act} (h : d.Kept) (ha : Settled d a) : (d.act a).Kept := by
  cases a with
  | request env args =>
      cases hrequested : requested env args d.db with
      | error e =>
          have hsame : d.act (.request env args) = d := by
            simp only [Desk.act, executabilityRequest, hrequested]
          rw [hsame]
          exact h
      | ok new =>
          obtain ⟨hstate, hassessment, hopen⟩ := requested_ok hrequested
          simp only [Desk.Kept, Desk.act, executabilityRequest_db hrequested, hrequested]
          refine ⟨h.sound.file hstate hassessment, fun x hx => ?_⟩
          rcases List.mem_cons.mp hx with rfl | hx
          · exact newest_file hopen (ha.request env args new rfl hrequested)
          · obtain ⟨hx, hother⟩ := List.mem_filter.mp hx
            exact latest_file_of_ne (of_decide_eq_true hother) (h.newest x hx)
  | next env args => exact h.requestsNext env args
  | complete env args =>
      simp only [Desk.Kept, Desk.act, executabilityComplete_db]
      cases hcompleting : completing args d.db with
      | none => exact h
      | some a' =>
          obtain ⟨hne, hown⟩ := ha.complete env args a' rfl hcompleting
          exact h.complete hne hown (completing_request hcompleting) (env.now 0)
  | respecify specs =>
      exact ⟨⟨h.sound.ids, h.sound.states, h.sound.assessed, h.sound.assessments⟩, h.newest⟩

/-- A settled completion leaves the assessments of other requests. -/
lemma untouched_of_settled {d : Desk} {a : Act} (h : d.Kept) (ha : Settled d a) :
    Untouched d a := by
  rintro env args a' rfl hcompleting r hr hother
  obtain ⟨hne, hown⟩ := ha.complete env args a' rfl hcompleting
  have hdb : (d.act (.complete env args)).db = d.db.complete a' (env.now 0) := by
    rw [Desk.act, executabilityComplete_db, hcompleting]
  rw [hdb]
  refine ⟨Table.mem_updateWhere.mpr ⟨r, hr, if_neg hother⟩, ?_⟩
  unfold Db.assessmentOf
  cases hid : r.assessmentId with
  | none => rfl
  | some assessmentId => exact assessmentOf_assess h.sound hown hr hother assessmentId hid

end Calls

/-! ### A task that is changed back -/

/-- A digest of a few digits. -/
@[reducible] def shortDigest : Digest :=
  ⟨fun s => toString (s.toList.foldl (fun h c => (h * 31 + c.toNat) % 1000003) 7)⟩

/-- The first task with a title. -/
def titled (title : String) : List TaskSpec :=
  [⟨"task-1", 1, title, none, none, none, none, .array [], .array []⟩]

/-- A request for the first task. -/
def requesting : Act :=
  .request sampleEnv (.object [("task_number", .ofInt 1), ("agent_id", .string "alice")])

/-- Requests for a task that is changed, and changed back. -/
def changedBack : List Act :=
  [requesting, .respecify (titled "B"), requesting, .respecify (titled "A")]

/-- The first request of a task is settled. -/
lemma settled_first [FloatText] [Digest] (specs : List TaskSpec) (env : CallEnv) (args : Value) :
    Settled { db := { specs } } (.request env args) where
  request _ _ _ _ _ := .inl ⟨rfl, fun _ hr => absurd hr List.not_mem_nil⟩
  complete _ _ _ h := by cases h

/-- A request that has given way does not serve. -/
lemma not_live_of_superseded {d : Desk}
    (h : d.given.map (fun x => ((d.db.request x.2).bind Request.supersededBy).isSome) = [true]) :
    ¬ Live d := by
  intro hlive
  obtain ⟨x, hgiven, hsuperseded⟩ := List.map_eq_singleton_iff.mp h
  obtain ⟨r, hr, hopen, -⟩ := hlive x (hgiven ▸ List.mem_singleton_self _)
  rw [hr, Option.bind_some, hopen] at hsuperseded
  cases hsuperseded

/-- A state in which a request does not serve is behind an act of the run. -/
lemma not_each_live [FloatText] [Digest] {d : Desk} {acts : List Act} {a : Act}
    (h : ¬ Live (run Desk.act d (acts ++ [a]))) :
    ¬ Each Desk.act (fun d a => Live (d.act a) ∧ Untouched d a) d (acts ++ [a]) := by
  intro heach
  rw [Calls.run_append] at h
  exact h heach.append.2.1.1

lemma changedBack_superseded :
    letI := FloatText.fields
    letI := shortDigest
    let d := run Desk.act { db := { specs := titled "A" } } (changedBack ++ [requesting])
    d.given.map (fun x => ((d.db.request x.2).bind Request.supersededBy).isSome) = [true] := by
  decide +kernel

end Executability

end McpSurfaces
