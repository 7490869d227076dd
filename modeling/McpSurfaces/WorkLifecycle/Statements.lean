import McpSurfaces.TaskLifecycle.Closings
import McpSurfaces.WorkLifecycle.Outbox

/-!
The machine of the work surface: calls on tickets, calls on tasks, and the triggers beneath them.

* `Statement.fire`: what a statement of a call on tasks writes to the table of tasks, with the
  triggers that its writes fire. A row that only tells what happened is written with the statement
  that it tells of.
* `Statement.work`: a statement on the database of the work surface.
* `Change`, `Servers.act`: the writes of all other calls, and the machine on which any number of
  calls run.
* **`TaskKept.act`**: what every write to the table of tasks keeps, the calls on tasks keep.
-/

namespace McpSurfaces

/-- The readings of the clock by the triggers: one for each revision that they give a task. -/
class TouchClock where
  reading : String → ℤ → String

namespace WorkLifecycle

open EventLedger (Digest)
open TaskLifecycle (Db Status TaskRow Statement Edit Call CreateEnv resultContractOf routingOf
  createKey createTransact)
open Table (row updateWhere)
open Calls (Each)

section Statements

variable [FloatText] [TouchClock]

/-! ### Writes to the table of tasks -/

namespace WorkDb

/-- The trigger on a table that names a task. -/
def touched (w : WorkDb) (taskId : String) : WorkDb :=
  w.updateTask taskId false fun t => { t with updatedAt := TouchClock.reading taskId t.revision }

def touchedTimes (taskId : String) : ℕ → WorkDb → WorkDb
  | 0, w => w
  | n + 1, w => touchedTimes taskId n (w.touched taskId)

omit [FloatText] [TouchClock] in
/-- Other tables than that of the tasks. -/
def withTables (w : WorkDb) (db : Db) : WorkDb :=
  { w with lifecycle := { db with tasks := w.lifecycle.tasks } }

end WorkDb

/-- The update of `task_transition`, of one task. -/
def transitioned (status : Status) (timestamp : String) (agent : Option String) (t : TaskRow) :
    TaskRow :=
  { Db.setStatus status timestamp t with
    reopenedAt := if status = .opened ∧ t.status.Ended then some timestamp else t.reopenedAt
    reopenedBy := if status = .opened ∧ t.status.Ended then agent else t.reopenedBy }

/-- The update of `task_closeout`, of one task. -/
def closedOut (status : Status) (timestamp agent mode : String) (t : TaskRow) : TaskRow :=
  { t with
    status
    closedAt := if status = .closed then some timestamp else t.closedAt
    closedBy := if status = .closed then some agent else t.closedBy
    closureMode := if status = .closed then some mode else t.closureMode
    updatedAt := timestamp }

/-- The writes of the transaction of `task_finish`. -/
def fireFinish (s : TaskLifecycle.Submission) (w : WorkDb) : WorkDb :=
  let (contract, created) := s.contractOf w.lifecycle
  let outcome := s.outcomeRow contract.contractId created
  let reported := w.touchedTimes s.taskId
    (2 + s.structuredRow.toList.length + created.toNat + outcome.toList.length)
  let requested :=
    match s.reviewer with
    | some reviewer =>
        (reported.insertTask (s.reviewTask reviewer (w.lifecycle.lastAllocated + 1))).touchedTimes
          s.reviewTaskId 2
    | none => reported
  (requested.updateTask s.taskId true (s.finished outcome)).touched s.taskId

/-- The writes of a statement to the table of tasks. -/
def fire (st : Statement) (w : WorkDb) : WorkDb :=
  match st with
  | .query => w
  | .claim _ taskId _ timestamp =>
      ((w.touched taskId).updateTask taskId true (Db.setStatus .claimed timestamp)).touched taskId
  | .release assignmentId _ _ =>
      (w.lifecycle.assignments.filter (Db.Released assignmentId)).foldl
        (fun w a => w.touched a.taskId) w
  | .reopenClaimed taskId timestamp =>
      match (w.lifecycle.task taskId).filter fun t => t.status = .claimed with
      | some _ => (w.updateTask taskId true (Db.setStatus .opened timestamp)).touched taskId
      | none => w.touched taskId
  | .transition number status timestamp agent =>
      match w.lifecycle.taskNumbered number with
      | some t =>
          (w.updateTask t.taskId true (transitioned status timestamp agent)).touched t.taskId
      | none => w
  | .report r => w.touched r.taskId
  | .defer taskId timestamp =>
      w.updateTask taskId true fun t => { t with status := .deferred, updatedAt := timestamp }
  | .closeout taskId status timestamp agent mode =>
      (w.updateTask taskId true (closedOut status timestamp agent mode)).touched taskId
  | .proof p => w.touchedTimes p.taskId 2
  | .admission a => w.touchedTimes a.taskId 3
  | .finish s => fireFinish s w

/-- A statement on the database of the work surface, which leaves it where it fails. -/
def work (st : Statement) (w : WorkDb) : WorkDb :=
  match st.exec w.lifecycle with
  | .ok (db, _) => (fire st w).withTables db
  | .error _ => w

/-! ### Other writes -/

variable [Digest]

omit [FloatText] [TouchClock] in
/-- How many fields a JSON object has. -/
def fieldCount (binding : Except String Value) : ℕ :=
  match binding with
  | .ok (.object fields) => fields.length
  | _ => 0

/-- The writes of the transaction of `task_create`. -/
def fireCreate (env : CreateEnv) (payload : Value) (title : String) (w : WorkDb) : WorkDb :=
  match w.lifecycle.specTitled title with
  | some _ => w
  | none =>
      let contracts := ((resultContractOf payload env.taskId).toOption.bind id).toList.length
      let bindings :=
        min 1 (fieldCount (env.binding (payload.get "execution_binding") (createKey payload)))
      let preferences := (routingOf payload env.taskId).toList.length
      (w.insertTask (env.task payload (w.lifecycle.lastAllocated + 1))).touchedTimes env.taskId
        (3 + contracts + bindings + preferences)

/-- The writes of a call beside the life of a task to the table of tasks. -/
def fireEdit (edit : Edit) (w : WorkDb) : WorkDb :=
  match edit with
  | .create env payload title => fireCreate env payload title w
  | .setRouting r => w.touchedTimes r.taskId 2
  | .rosterAdmit _ => w
  | .declare _ => w
  | .dispose _ => w

/-- What the calls do that are not under way: a transaction of a call on tickets, or a write of a
call beside the life of a task. Of the calls that only tell something of a task it is left what
they do to its row. -/
inductive Change where
  | ticket (call : TicketCall)
  | edit (edit : Edit)
  | note (taskId : String)

def Change.apply (change : Change) (w : WorkDb) : WorkDb :=
  match change with
  | ticket call => call.apply w
  | edit (.create env payload title) =>
      match createTransact env payload title w.lifecycle with
      | .ok (db, _) => (fireCreate env payload title w).withTables db
      | .error _ => w
  | edit e => (fireEdit e w).withTables (e.apply w.lifecycle)
  | note taskId => w.touched taskId

/-! ### The machine -/

/-- Servers at work on a database of the work surface. -/
abbrev Servers : Type := Config WorkDb Statement (Except String Value)

namespace Servers

abbrev Act : Type := McpSurfaces.Act Call Change

/-- The program of a call on tasks. -/
def program (call : Call) : Program WorkDb Statement (Except String Value) :=
  (call.program.run : Program Db Statement (Except String Value)).through WorkDb.lifecycle

def act (c : Servers) (a : Act) : Servers := Config.act work program Change.apply c a

/-- Servers with no call under way. -/
def idle (w : WorkDb) : Servers := ⟨w, []⟩

end Servers

/-! ### What every write to the table of tasks keeps -/

omit [FloatText] [TouchClock] [Digest] in
/-- An update of a task: it leaves the id, the number, and the status unless it is an update of
that. The revision is counted up by one at most. -/
structure Rewrites (ofStatus : Bool) (set : TaskRow → TaskRow) : Prop where
  taskId : ∀ t, (set t).taskId = t.taskId
  number : ∀ t, (set t).number = t.number
  status : ofStatus = false → ∀ t, (set t).status = t.status
  revision : ∀ t, (set t).revision = t.revision ∨ (set t).revision = t.revision + 1

/-- What every write to the table of tasks keeps, and what other tables do not matter to. -/
structure TaskKept (P : WorkDb → Prop) : Prop where
  update : ∀ w taskId ofStatus set, Rewrites ofStatus set → P w →
    P (w.updateTask taskId ofStatus set)
  insert : ∀ w (new : TaskRow), w.lifecycle.task new.taskId = none →
    w.lifecycle.taskNumbered new.number = none → new.status = .opened → new.revision = 1 → P w →
    P (w.insertTask new)
  tables : ∀ w db, P w → P (w.withTables db)

section Kept

variable {P : WorkDb → Prop} {w : WorkDb}

omit [FloatText] [Digest] in
lemma rewrites_touch (taskId : String) :
    Rewrites false fun t => { t with updatedAt := TouchClock.reading taskId t.revision } :=
  ⟨fun _ => rfl, fun _ => rfl, fun _ _ => rfl, fun _ => .inl rfl⟩

section

omit [FloatText] [TouchClock] [Digest]

lemma rewrites_setStatus (status : Status) (timestamp : String) :
    Rewrites true (Db.setStatus status timestamp) :=
  ⟨fun _ => rfl, fun _ => rfl, nofun, fun _ => .inr rfl⟩

lemma rewrites_transitioned (status : Status) (timestamp : String) (agent : Option String) :
    Rewrites true (transitioned status timestamp agent) :=
  ⟨fun _ => rfl, fun _ => rfl, nofun, fun _ => .inr rfl⟩

lemma rewrites_closedOut (status : Status) (timestamp agent mode : String) :
    Rewrites true (closedOut status timestamp agent mode) :=
  ⟨fun _ => rfl, fun _ => rfl, nofun, fun _ => .inl rfl⟩

lemma rewrites_defer (timestamp : String) :
    Rewrites true fun t => { t with status := .deferred, updatedAt := timestamp } :=
  ⟨fun _ => rfl, fun _ => rfl, nofun, fun _ => .inl rfl⟩

lemma rewrites_finished (s : TaskLifecycle.Submission)
    (outcome : Option TaskLifecycle.OutcomeRow) : Rewrites true (s.finished outcome) where
  taskId := TaskLifecycle.taskId_finished s outcome
  number t := by
    rw [TaskLifecycle.Submission.finished]
    split <;> rfl
  status h := by cases h
  revision t := by
    rw [TaskLifecycle.Submission.finished]
    split <;> exact .inr rfl

/-- The ids and the numbers of tasks are kept by an update. -/
lemma names_updateTask {taskId : String} {ofStatus : Bool} {set : TaskRow → TaskRow}
    (hset : Rewrites ofStatus set) (w : WorkDb) :
    (w.updateTask taskId ofStatus set).lifecycle.tasks.map (fun t => (t.taskId, t.number)) =
      w.lifecycle.tasks.map fun t => (t.taskId, t.number) :=
  WorkDb.keys_updateTask w hset.taskId
    (fun t => by rw [hset.taskId, hset.number]) (fun _ _ => rfl) ofStatus

/-- Ids and numbers that are free stay so. -/
lemma free_of_names {w w' : WorkDb}
    (h : w'.lifecycle.tasks.map (fun t => (t.taskId, t.number)) =
      w.lifecycle.tasks.map fun t => (t.taskId, t.number)) (new : TaskRow)
    (hid : w.lifecycle.task new.taskId = none)
    (hnumber : w.lifecycle.taskNumbered new.number = none) :
    w'.lifecycle.task new.taskId = none ∧ w'.lifecycle.taskNumbered new.number = none := by
  have hids : w'.lifecycle.tasks.map TaskRow.taskId = w.lifecycle.tasks.map TaskRow.taskId := by
    simpa [Function.comp_def] using congrArg (List.map Prod.fst) h
  have hnumbers : w'.lifecycle.tasks.map TaskRow.number = w.lifecycle.tasks.map TaskRow.number := by
    simpa [Function.comp_def] using congrArg (List.map Prod.snd) h
  rw [Db.task, Table.row_eq_none_iff] at hid ⊢
  rw [Db.taskNumbered, Table.row_eq_none_iff] at hnumber ⊢
  exact ⟨hids ▸ hid, hnumbers ▸ hnumber⟩

end

omit [FloatText] [Digest] in
lemma names_touchedTimes (taskId : String) (n : ℕ) (w : WorkDb) :
    (w.touchedTimes taskId n).lifecycle.tasks.map (fun t => (t.taskId, t.number)) =
      w.lifecycle.tasks.map fun t => (t.taskId, t.number) := by
  induction n generalizing w with
  | zero => rfl
  | succ n ih => exact (ih _).trans (names_updateTask (rewrites_touch taskId) w)

section

omit [FloatText] [TouchClock] [Digest]

lemma requestReview_free {s : TaskLifecycle.Submission} {db db' : Db} {reviewer : String}
    (h : s.requestReview db reviewer = .ok db') :
    db.task s.reviewTaskId = none ∧ db.taskNumbered (db.lastAllocated + 1) = none := by
  unfold TaskLifecycle.Submission.requestReview at h
  by_cases hid : (db.task s.reviewTaskId).isSome
  · simp [hid] at h
  by_cases hnumber : (db.taskNumbered (db.lastAllocated + 1)).isSome
  · simp [hid, hnumber] at h
  exact ⟨by simpa using hid, by simpa using hnumber⟩

lemma settle_requests {s : TaskLifecycle.Submission} {db db' : Db} {reviewer : String}
    {outcome : Option TaskLifecycle.OutcomeRow} (hreviewer : s.reviewer = some reviewer)
    (h : s.settle db outcome = .ok db') : ∃ requested, s.requestReview db reviewer = .ok requested := by
  rw [TaskLifecycle.Submission.settle, hreviewer] at h
  cases hrequest : s.requestReview db reviewer with
  | error e =>
      simp only [hrequest] at h
      cases h
  | ok requested => exact ⟨requested, rfl⟩

end

omit [TouchClock] [Digest] in
/-- The task of a review that goes through is new. -/
lemma review_free {s : TaskLifecycle.Submission} {db : Db} {r : Db × Value} {reviewer : String}
    (hs : s.transact db = .ok r) (hreviewer : s.reviewer = some reviewer) :
    db.task s.reviewTaskId = none ∧ db.taskNumbered (db.lastAllocated + 1) = none := by
  unfold TaskLifecycle.Submission.transact at hs
  obtain ⟨-, hs⟩ := guard_ok hs
  obtain ⟨-, hs⟩ := guard_ok hs
  obtain ⟨settled, hsettled, -⟩ := Lists.bind_eq_ok hs
  obtain ⟨requested, hrequest⟩ := settle_requests hreviewer hsettled
  obtain ⟨hid, hnumber⟩ := requestReview_free hrequest
  exact ⟨hid, hnumber⟩

omit [TouchClock] in
/-- The task of a creation that goes through is new. -/
lemma create_free {env : CreateEnv} {payload : Value} {title : String} {db : Db} {r : Db × Value}
    (htitled : db.specTitled title = none) (h : createTransact env payload title db = .ok r) :
    db.task env.taskId = none ∧ db.taskNumbered (db.lastAllocated + 1) = none := by
  rw [createTransact, htitled] at h
  unfold TaskLifecycle.createNew at h
  obtain ⟨hid, h⟩ := guard_ok h
  obtain ⟨hnumber, -⟩ := guard_ok h
  exact ⟨by simpa using hid, by simpa using hnumber⟩

namespace TaskKept

variable (hP : TaskKept P)
include hP

section

omit [FloatText] [Digest]

lemma touched (taskId : String) (h : P w) : P (w.touched taskId) :=
  hP.update _ _ _ _ (rewrites_touch taskId) h

lemma touchedTimes (taskId : String) (n : ℕ) (h : P w) : P (w.touchedTimes taskId n) := by
  induction n generalizing w with
  | zero => exact h
  | succ n ih => exact ih (hP.touched taskId h)

/-- An update with the row that tells of it. -/
lemma updated {taskId : String} {set : TaskRow → TaskRow} (hset : Rewrites true set) (h : P w) :
    P ((w.updateTask taskId true set).touched taskId) :=
  hP.touched _ (hP.update _ _ _ _ hset h)

/-- A new task, with the rows that are inserted with it. -/
lemma inserted (new : TaskRow) (hid : w.lifecycle.task new.taskId = none)
    (hnumber : w.lifecycle.taskNumbered new.number = none) (hstatus : new.status = .opened)
    (hrevision : new.revision = 1) (n : ℕ) (h : P w) :
    P ((w.insertTask new).touchedTimes new.taskId n) :=
  hP.touchedTimes _ n (hP.insert w new hid hnumber hstatus hrevision h)

end

omit [Digest] in
lemma fireFinish {s : TaskLifecycle.Submission} {r : Db × Value}
    (hs : s.transact w.lifecycle = .ok r) (h : P w) : P (fireFinish s w) := by
  have hreported := hP.touchedTimes s.taskId
    (2 + s.structuredRow.toList.length + (s.contractOf w.lifecycle).2.toNat +
      (s.outcomeRow (s.contractOf w.lifecycle).1.contractId
        (s.contractOf w.lifecycle).2).toList.length) h
  refine hP.updated (rewrites_finished s _) ?_
  cases hreviewer : s.reviewer with
  | none => exact hreported
  | some reviewer =>
      obtain ⟨hid, hnumber⟩ := review_free hs hreviewer
      obtain ⟨hid', hnumber'⟩ := free_of_names (names_touchedTimes s.taskId _ w)
        (s.reviewTask reviewer (w.lifecycle.lastAllocated + 1)) hid hnumber
      exact hP.inserted _ hid' hnumber' rfl rfl 2 hreported

omit [Digest] in
/-- **A statement keeps** what every write to the table of tasks keeps. -/
theorem work (st : Statement) (h : P w) : P (work st w) := by
  unfold WorkLifecycle.work
  cases hexec : st.exec w.lifecycle with
  | error e => exact h
  | ok r =>
      refine hP.tables _ _ ?_
      cases st with
      | query => exact h
      | claim assignmentId taskId agentId timestamp =>
          exact hP.updated (rewrites_setStatus _ _) (hP.touched _ h)
      | release assignmentId timestamp reason =>
          show P (List.foldl _ w _)
          clear hexec
          generalize w.lifecycle.assignments.filter _ = released
          induction released generalizing w with
          | nil => exact h
          | cons a rest ih => exact ih (hP.touched _ h)
      | reopenClaimed taskId timestamp =>
          simp only [fire]
          split
          · exact hP.updated (rewrites_setStatus _ _) h
          · exact hP.touched _ h
      | transition number status timestamp agent =>
          simp only [fire]
          split
          · exact hP.updated (rewrites_transitioned _ _ _) h
          · exact h
      | report r => exact hP.touched _ h
      | defer taskId timestamp => exact hP.update _ _ _ _ (rewrites_defer timestamp) h
      | closeout taskId status timestamp agent mode =>
          exact hP.updated (rewrites_closedOut _ _ _ _) h
      | proof p => exact hP.touchedTimes _ _ h
      | admission a => exact hP.touchedTimes _ _ h
      | finish s => exact hP.fireFinish hexec h

/-- **A write beside the life of a task keeps** it, the transactions on tickets apart. -/
theorem change (e : Change) (hticket : ∀ call, e = .ticket call → P (call.apply w)) (h : P w) :
    P (e.apply w) := by
  cases e with
  | ticket call => exact hticket call rfl
  | note taskId => exact hP.touched _ h
  | edit edit =>
      cases edit with
      | create env payload title =>
          simp only [Change.apply]
          cases htransact : createTransact env payload title w.lifecycle with
          | error e => exact h
          | ok r =>
              refine hP.tables _ _ ?_
              unfold fireCreate
              cases htitled : w.lifecycle.specTitled title with
              | some spec => exact h
              | none =>
                  obtain ⟨hid, hnumber⟩ := create_free htitled htransact
                  exact hP.inserted (env.task payload _) hid hnumber rfl rfl _ h
      | setRouting r => exact hP.tables _ _ (hP.touchedTimes _ 2 h)
      | rosterAdmit r => exact hP.tables _ _ h
      | declare d => exact hP.tables _ _ h
      | dispose d => exact hP.tables _ _ h

/-- **An act of the machine keeps** what its writes keep. -/
theorem act {c : Servers} {a : Servers.Act}
    (hticket : ∀ call, a = .edit (.ticket call) → P (call.apply c.state)) (h : P c.state) :
    P (c.act a).state := by
  cases a with
  | edit e => exact hP.change e (fun call hcall => hticket call (hcall ▸ rfl)) h
  | event e =>
      rw [show (c.act (.event e)).state = ((c.operation e).map (WorkLifecycle.work · c.state)).getD
        c.state from Config.state_after c e]
      cases c.operation e with
      | none => exact h
      | some st => exact hP.work st h

/-- **A run keeps** what the writes of its acts keep. -/
theorem run (hticket : ∀ (call : TicketCall) w, P w → P (call.apply w)) {c : Servers}
    (h : P c.state) (acts : List Servers.Act) : P (Calls.run Servers.act c acts).state :=
  have hact : ∀ (c : Servers) (a : Servers.Act), P c.state → P (c.act a).state :=
    fun c _ h => hP.act (fun call _ => hticket call c.state h) h
  Calls.invariant_all hact h acts

end TaskKept

end Kept

end Statements

end WorkLifecycle

end McpSurfaces
