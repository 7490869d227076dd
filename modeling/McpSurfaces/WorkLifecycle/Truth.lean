import McpSurfaces.WorkLifecycle.Dispositions
import McpSurfaces.WorkLifecycle.EventLog

/-!
Whether the status of a ticket tells the truth about its tasks, claims and drafts.

* `Engaged`: an active link leads to a task that has not ended, and a link has the result of its
  call. **`engaged_act`**: so it is behind every act.
* `Ticket.Truthful`: what the status and the codes of a ticket say.
* `Honest`: no draft is reconciled as sent while its ticket has work open, and no receipt names a
  draft that is disposed of.
* **`truthful_iff_honest`**: the tickets of every state of a run tell the truth exactly when its acts
  are honest.
-/

namespace McpSurfaces

namespace WorkLifecycle

open EventLedger (Digest)
open TaskLifecycle (Db TaskRow requiredString)
open Table (row updateWhere)
open Calls (run Each)

variable {w w' : WorkDb}

/-! ### Tasks at hand -/

/-- A task that has not ended. -/
def AtHand (db : Db) (taskId : String) : Prop :=
  ∃ task, db.task taskId = some task ∧ ¬ task.status.Ended

/-- Active links lead to tasks that have not ended, and links have the results of their calls. -/
structure Engaged (w : WorkDb) : Prop where
  active : ∀ l ∈ w.links, l.status = .active → AtHand w.lifecycle l.taskId
  stored : ∀ l ∈ w.links, w.operation l.operationKey ≠ none

/-- The tasks behind an update of one. -/
lemma task_updateTask (db : Db) (taskId : String) {set : TaskRow → TaskRow}
    (hset : ∀ t, (set t).taskId = t.taskId) (id : String) :
    (db.updateTask taskId set).task id =
      (db.task id).map fun t => if t.taskId = taskId then set t else t :=
  Table.row_updateWhere (fun t _ => hset t) id

lemma taskId_counted {set : TaskRow → TaskRow} (hset : ∀ t, (set t).taskId = t.taskId)
    (old t : TaskRow) : (WorkDb.counted old set t).taskId = t.taskId := by
  rw [WorkDb.counted]
  split <;> exact hset t

lemma status_counted (set : TaskRow → TaskRow) (old t : TaskRow) :
    (WorkDb.counted old set t).status = (set t).status := by
  rw [WorkDb.counted]
  split <;> rfl

/-- A task stays at hand under an update that does not end it. -/
lemma AtHand.updateTask {db : Db} {taskId id : String} {set : TaskRow → TaskRow} {old : TaskRow}
    {ofStatus : Bool} (h : AtHand db id) (hset : Rewrites ofStatus set)
    (hold : db.task taskId = some old) (hstays : id = taskId → ¬ WorkDb.Ends ofStatus old (set old)) :
    AtHand (db.updateTask taskId (WorkDb.counted old set)) id := by
  obtain ⟨task, htask, hunfinished⟩ := h
  have hrow := task_updateTask db taskId (taskId_counted hset.taskId old) id
  rw [htask, Option.map_some] at hrow
  refine ⟨_, hrow, ?_⟩
  split
  · next hid =>
      have hsame : id = taskId := (Table.key_of_row htask).symm.trans hid
      subst hsame
      obtain rfl : old = task := Option.some.inj (hold.symm.trans htask)
      rw [status_counted]
      intro hended
      cases hstatus : ofStatus with
      | false =>
          rw [hset.status hstatus] at hended
          exact hunfinished hended
      | true => exact hstays rfl ⟨hstatus, hended, hunfinished⟩
  · exact hunfinished

/-- **Writes to the table of tasks keep the links engaged.** -/
theorem taskKept_engaged : TaskKept Engaged where
  update w taskId ofStatus set hset h := by
    cases hold : w.lifecycle.task taskId with
    | none => rwa [w.updateTask_of_none hold]
    | some old =>
        obtain ⟨events, rows, hupdate⟩ := w.updateTask_eq hset.taskId hold ofStatus
        rw [hupdate]
        by_cases hends : WorkDb.Ends ofStatus old (set old)
        · simp only [if_pos hends]
          refine ⟨fun l' hl' hactive => ?_, fun l' hl' => ?_⟩
          · obtain ⟨l, hl, rfl⟩ := Table.mem_updateWhere.mp hl'
            split at hactive
            · cases hactive
            · next hother =>
                rw [if_neg hother]
                exact (h.active l hl hactive).updateTask hset hold
                  fun hid => absurd ⟨hid, hactive⟩ hother
          · obtain ⟨l, hl, rfl⟩ := Table.mem_updateWhere.mp hl'
            have hstored := h.stored l hl
            split <;> exact hstored
        · simp only [if_neg hends]
          exact ⟨fun l hl hactive => (h.active l hl hactive).updateTask hset hold fun _ => hends,
            h.stored⟩
  insert w new _ _ _ _ h := by
    obtain ⟨events, rows, hinsert⟩ := WorkDb.insertTask_eq w new
    rw [hinsert]
    refine ⟨fun l hl hactive => ?_, h.stored⟩
    obtain ⟨task, htask, hunfinished⟩ := h.active l hl hactive
    exact ⟨task, Table.row_append_of_some [new] htask, hunfinished⟩
  tables _ _ h := ⟨h.active, h.stored⟩

/-! ### A task that follows up -/

/-- A write to the tasks that moves no ticket: the statuses of tasks stay. -/
structure Aside (w w' : WorkDb) : Prop where
  rest : ∃ db events rows, w' = { w with lifecycle := db, events := events, outbox := rows }
  status : ∀ id task, w.lifecycle.task id = some task →
    ∃ task', w'.lifecycle.task id = some task' ∧ task'.status = task.status

lemma Aside.trans {w'' : WorkDb} (h : Aside w w') (h' : Aside w' w'') : Aside w w'' where
  rest := by
    obtain ⟨db, events, rows, rfl⟩ := h.rest
    obtain ⟨db', events', rows', rfl⟩ := h'.rest
    exact ⟨db', events', rows', rfl⟩
  status id task htask := by
    obtain ⟨task', htask', hstatus⟩ := h.status id task htask
    obtain ⟨task'', htask'', hstatus'⟩ := h'.status id task' htask'
    exact ⟨task'', htask'', hstatus'.trans hstatus⟩

lemma Aside.of_tasks {db : Db} (htasks : db.tasks = w.lifecycle.tasks) :
    Aside w { w with lifecycle := db } := by
  refine ⟨⟨db, w.events, w.outbox, rfl⟩, fun id task htask => ⟨task, ?_, rfl⟩⟩
  show Table.row TaskRow.taskId db.tasks id = some task
  rw [htasks]
  exact htask

lemma aside_touch (w : WorkDb) (taskId now : String) : Aside w (w.touch taskId now) := by
  have hset : Rewrites false fun t : TaskRow => { t with updatedAt := now } :=
    ⟨fun _ => rfl, fun _ => rfl, fun _ _ => rfl, fun _ => .inl rfl⟩
  rw [WorkDb.touch]
  cases hold : w.lifecycle.task taskId with
  | none =>
      rw [w.updateTask_of_none hold]
      exact .of_tasks rfl
  | some old =>
      obtain ⟨events, rows, hupdate⟩ := w.updateTask_eq hset.taskId hold false
      have hends : ¬ WorkDb.Ends false old { old with updatedAt := now } := fun h => nomatch h.1
      rw [if_neg hends, if_neg hends] at hupdate
      rw [hupdate]
      refine ⟨⟨_, _, _, rfl⟩, fun id task htask => ?_⟩
      have hrow := task_updateTask w.lifecycle taskId (taskId_counted hset.taskId old) id
      rw [htask, Option.map_some] at hrow
      refine ⟨_, hrow, ?_⟩
      split
      · rw [status_counted]
      · rfl

lemma aside_insertTask (w : WorkDb) (new : TaskRow) (hfree : w.lifecycle.task new.taskId = none) :
    Aside w (w.insertTask new) ∧ (w.insertTask new).lifecycle.task new.taskId = some new := by
  obtain ⟨events, rows, hinsert⟩ := WorkDb.insertTask_eq w new
  rw [hinsert]
  refine ⟨⟨⟨_, _, _, rfl⟩, fun id task htask => ?_⟩, ?_⟩
  · exact ⟨task, Table.row_append_of_some [new] htask, rfl⟩
  · have hnone : Table.row TaskRow.taskId w.lifecycle.tasks new.taskId = none := hfree
    show Table.row TaskRow.taskId (w.lifecycle.tasks ++ [new]) new.taskId = some new
    rw [Table.row_append, hnone, Option.none_or, Table.row_singleton, if_pos rfl]

section Calls

variable [FloatText] [Digest]

/-- The task that follows up is there, and the others have kept their statuses. -/
lemma aside_writeFollowup (env : WorkEnv) {r : ProposalRequest} (task : ProposedTask)
    (hid : w.lifecycle.task (followupTaskId r.operationKey) = none) :
    Aside w (writeFollowup env r task w) ∧
      AtHand (writeFollowup env r task w).lifecycle (followupTaskId r.operationKey) := by
  have hallocated : Aside w { w with
      lifecycle := { w.lifecycle with lastAllocated := w.lifecycle.lastAllocated + 1 } } :=
    .of_tasks rfl
  have hspec (spec : TaskLifecycle.Spec) (w : WorkDb) : Aside w (w.addSpec spec) := .of_tasks rfl
  have hcontract (contract : TaskLifecycle.OutcomeContract) (w : WorkDb) :
      Aside w (w.addContract contract) := .of_tasks rfl
  have htold (taskId : String) (spec : TaskLifecycle.Spec)
      (contract : TaskLifecycle.OutcomeContract) (w : WorkDb) :
      Aside w ((((w.addSpec spec).touch taskId (env.now 1)).addContract contract).touch taskId
        (env.now 2)) :=
    (hspec spec w).trans ((aside_touch _ taskId (env.now 1)).trans
      ((hcontract contract _).trans (aside_touch _ taskId (env.now 2))))
  obtain ⟨hinserted, htask⟩ := aside_insertTask { w with
    lifecycle := { w.lifecycle with lastAllocated := w.lifecycle.lastAllocated + 1 } }
    (followupRow r.operationKey (w.lifecycle.lastAllocated + 1) (env.now 0)) hid
  have hlater := htold (followupTaskId r.operationKey)
    (task.spec (followupTaskId r.operationKey) (w.lifecycle.lastAllocated + 1))
    (followupContract r.operationKey r.actorId (env.now 2)) (WorkDb.insertTask { w with
      lifecycle := { w.lifecycle with lastAllocated := w.lifecycle.lastAllocated + 1 } }
      (followupRow r.operationKey (w.lifecycle.lastAllocated + 1) (env.now 0)))
  obtain ⟨row, hrow, hstatus⟩ := hlater.status _ _ htask
  refine ⟨hallocated.trans (hinserted.trans hlater), row, hrow, ?_⟩
  have hopened : ¬ TaskLifecycle.Status.opened.Ended := by decide
  rw [hstatus]
  exact hopened

/-! ### Calls on tickets -/

/-- The end of a call: its result is there for its link. -/
lemma engaged_concluded {t : Ticket} {n : EventNote}
    (hactive : ∀ l ∈ w.links, l.status = .active → AtHand w.lifecycle l.taskId)
    (hstored : ∀ l ∈ w.links, w.operation l.operationKey ≠ none ∨
      l.operationKey = n.operationKey) (hconcluded : Concluded w t n w') : Engaged w' := by
  obtain ⟨o, hkey, rfl⟩ := hconcluded.behind
  refine ⟨hactive, fun l hl => ?_⟩
  show Table.row WorkOperation.operationKey (w.operations ++ [o]) l.operationKey ≠ none
  rw [Table.row_append]
  rcases hstored l hl with hold | hnew
  · obtain ⟨old, hold⟩ := Option.ne_none_iff_exists'.mp hold
    have hrow : Table.row WorkOperation.operationKey w.operations l.operationKey = some old := hold
    rw [hrow]
    nofun
  · rw [Table.row_singleton, if_pos (hkey.trans hnew.symm)]
    cases Table.row WorkOperation.operationKey w.operations l.operationKey <;> nofun

/-- A call that leaves links and tasks. -/
lemma Engaged.concluded (h : Engaged w) {body : WorkDb} {t : Ticket} {n : EventNote}
    (hconcluded : Concluded body t n w') (hlinks : body.links = w.links)
    (hlifecycle : body.lifecycle = w.lifecycle) (hoperations : body.operations = w.operations) :
    Engaged w' := by
  refine engaged_concluded (fun l hl hactive => ?_) (fun l hl => .inl ?_) hconcluded
  · rw [hlifecycle]
    exact h.active l (hlinks ▸ hl) hactive
  · rw [WorkDb.operation, hoperations]
    exact h.stored l (hlinks ▸ hl)

omit [FloatText] [Digest] in
lemma Engaged.quiet (h : Engaged w) (hquiet : Quiet w w') : Engaged w' := by
  obtain ⟨more, hoperations⟩ := hquiet.operations
  refine ⟨fun l hl hactive => ?_, fun l hl => ?_⟩
  · rw [hquiet.lifecycle]
    exact h.active l (hquiet.links ▸ hl) hactive
  · obtain ⟨old, hold⟩ := Option.ne_none_iff_exists'.mp (h.stored l (hquiet.links ▸ hl))
    rw [WorkDb.operation, hoperations, Table.row_append_of_some more hold]
    nofun

/-- A route leaves the links engaged, its own with the result that the call stores. -/
lemma Engaged.leads (h : Engaged w) {env : WorkEnv} {r : ProposalRequest} {body : WorkDb}
    {m : WorkDb.Transition} (hleads : Leads env r w body m) :
    (∀ l ∈ body.links, l.status = .active → AtHand body.lifecycle l.taskId) ∧
      ∀ l ∈ body.links, body.operation l.operationKey ≠ none ∨
        l.operationKey = r.operationKey := by
  have hsame : (∀ l ∈ w.links, l.status = .active → AtHand w.lifecycle l.taskId) ∧
      ∀ l ∈ w.links, w.operation l.operationKey ≠ none ∨ l.operationKey = r.operationKey :=
    ⟨h.active, fun l hl => .inl (h.stored l hl)⟩
  cases hleads with
  | @followup task hid hnumber hlink =>
      obtain ⟨haside, hathand⟩ := aside_writeFollowup env task hid
      obtain ⟨db, events, rows, hrest⟩ := haside.rest
      have hlinks : (writeFollowup env r task w).links = w.links := by rw [hrest]
      have hoperations : (writeFollowup env r task w).operations = w.operations := by rw [hrest]
      refine ⟨fun l hl hactive => ?_, fun l hl => ?_⟩
      · rcases List.mem_append.mp hl with hl | hl
        · obtain ⟨task', htask', hunfinished⟩ := h.active l (hlinks ▸ hl) hactive
          obtain ⟨task'', htask'', hstatus⟩ := haside.status _ _ htask'
          exact ⟨task'', htask'', hstatus ▸ hunfinished⟩
        · rw [List.mem_singleton.mp hl]
          exact hathand
      · rcases List.mem_append.mp hl with hl | hl
        · left
          show Table.row _ (writeFollowup env r task w).operations _ ≠ none
          rw [hoperations]
          exact h.stored l (hlinks ▸ hl)
        · rw [List.mem_singleton.mp hl]
          exact .inr rfl
  | draft => exact hsame
  | again => exact hsame
  | resolved => exact hsame
  | blocked => exact hsame

lemma Engaged.apply (h : Engaged w) (call : TicketCall) : Engaged (call.apply w) := by
  unfold TicketCall.apply
  cases htransact : call.transact w with
  | error e => exact h
  | ok behind =>
      obtain ⟨w', v⟩ := behind
      cases call with
      | admitSource env args =>
          obtain ⟨r, -, hquiet | ⟨-, -, hassociate⟩⟩ := admitSource_cases htransact
          · exact h.quiet hquiet
          · obtain ⟨w₁, found, rows, ticket, hfound, -, -, -, -, -, hconcluded, -⟩ :=
              associate_ok hassociate
            rcases ticketFor_ok hfound with ⟨-, -, -, rfl⟩ | ⟨t, -, -, -, rfl⟩ <;>
              exact h.concluded hconcluded rfl rfl rfl
      | admitProposal env args =>
          obtain ⟨r, -, rfl | ⟨before, body, m, t, n, -, -, hleads, -, hkey, hconcluded⟩⟩ :=
            admitProposal_cases htransact
          · exact h
          · obtain ⟨hactive, hstored⟩ := h.leads hleads
            exact engaged_concluded (w := body.updateTicket r.ticketId m.apply) hactive
              (hkey ▸ hstored) hconcluded
      | recordDraftReceipt env args =>
          obtain ⟨r, -, ⟨-, rfl⟩ | ⟨claim, t, n, -, -, ⟨-, -, hconcluded⟩ |
            ⟨-, -, hconcluded⟩⟩⟩ := recordDraftReceipt_cases htransact
          · exact h
          · exact h.concluded hconcluded rfl rfl rfl
          · rw [received_eq] at hconcluded
            exact h.concluded hconcluded rfl rfl rfl
      | reconcileDraft env args =>
          obtain ⟨r, -, ⟨-, rfl⟩ | ⟨-, t, n, -, -, hconcluded⟩⟩ := reconcileDraft_cases htransact
          · exact h
          · rw [dispose_eq] at hconcluded
            exact h.concluded hconcluded rfl rfl rfl
      | processingContext env args => exact h.quiet (quiet_of_idle htransact trivial)
      | outboxRegister args => exact h.quiet (quiet_of_idle htransact trivial)
      | outboxAck env args => exact h.quiet (quiet_of_idle htransact trivial)
      | outboxCompact env isTime args => exact h.quiet (quiet_of_idle htransact trivial)

end Calls

/-! ### The truth of a status -/

/-- What the status and the codes of a ticket say. -/
structure Ticket.Truthful (w : WorkDb) (t : Ticket) : Prop where
  resolved : t.status = .resolved → (¬ ∃ l ∈ w.links, w.UnfinishedLink t.ticketId l) ∧
    w.openClaims t.ticketId = [] ∧ w.openDrafts t.ticketId = []
  waitingOnTask : t.status = .waitingOnTask → ∃ l ∈ w.links, w.UnfinishedLink t.ticketId l
  waitingOnDraft : t.status = .waitingOnDraft → w.openDrafts t.ticketId ≠ []
  effectClaimed : t.status = .effectClaimed →
    ∃ c ∈ w.openClaims t.ticketId, c.ticketRevision = t.revision
  resolutionCode : t.resolutionCode.isSome = true ↔ t.status = .resolved
  terminalAt : t.terminalAt.isSome = true ↔ t.status = .resolved
  blockerCode : t.blockerCode.isSome = true ↔ t.status = .blocked

/-- All tickets tell the truth. -/
def Truthful (w : WorkDb) : Prop := ∀ t ∈ w.tickets, t.Truthful w

/-- A ticket has an active link. -/
def WorkDb.AtWork (w : WorkDb) (ticketId : String) : Prop :=
  ∃ l ∈ w.links, l.ticketId = ticketId ∧ l.status = .active

lemma Engaged.unfinished_iff (h : Engaged w) (ticketId : String) :
    (∃ l ∈ w.links, w.UnfinishedLink ticketId l) ↔ w.AtWork ticketId := by
  constructor
  · rintro ⟨l, hl, hticket, hactive, -⟩
    exact ⟨l, hl, hticket, hactive⟩
  · rintro ⟨l, hl, hticket, hactive⟩
    obtain ⟨task, htask, hunfinished⟩ := h.active l hl hactive
    exact ⟨l, hl, hticket, hactive, task, htask, hunfinished⟩

/-- A ticket tells the truth as before where all that belongs to it is as before. -/
lemma Ticket.Truthful.of_same {t : Ticket} (h : t.Truthful w) (hw : Engaged w) (hw' : Engaged w')
    (hwork : w'.AtWork t.ticketId ↔ w.AtWork t.ticketId)
    (hclaims : w'.openClaims t.ticketId = w.openClaims t.ticketId)
    (hdrafts : w'.openDrafts t.ticketId = w.openDrafts t.ticketId) : t.Truthful w' := by
  have hlinks : (∃ l ∈ w'.links, w'.UnfinishedLink t.ticketId l) ↔
      ∃ l ∈ w.links, w.UnfinishedLink t.ticketId l := by
    rw [hw.unfinished_iff, hw'.unfinished_iff, hwork]
  constructor
  · rw [hlinks, hclaims, hdrafts]
    exact h.resolved
  · rw [hlinks]
    exact h.waitingOnTask
  · rw [hdrafts]
    exact h.waitingOnDraft
  · rw [hclaims]
    exact h.effectClaimed
  · exact h.resolutionCode
  · exact h.terminalAt
  · exact h.blockerCode

/-- A ticket that is taken up says nothing. -/
lemma truthful_of_actionable {t : Ticket} (hstatus : t.status = .actionable)
    (hresolution : t.resolutionCode = none) (hterminal : t.terminalAt = none)
    (hblocker : t.blockerCode = none) : t.Truthful w := by
  constructor <;> simp [hstatus, hresolution, hterminal, hblocker]

/-- A call that moves a ticket, and leaves what belongs to others. -/
lemma Truthful.moved (h : Truthful w) (hids : (w.tickets.map Ticket.ticketId).Nodup)
    (hw : Engaged w) (hw' : Engaged w') (m : WorkDb.Transition) (ticketId : String)
    (htickets : w'.tickets = updateWhere (fun t => t.ticketId = ticketId) m.apply w.tickets)
    (hthis : ∀ t, w.ticket ticketId = some t → (m.apply t).Truthful w')
    (hothers : ∀ id, id ≠ ticketId → (w'.AtWork id ↔ w.AtWork id) ∧
      w'.openClaims id = w.openClaims id ∧ w'.openDrafts id = w.openDrafts id) :
    Truthful w' := by
  intro t' ht'
  rw [htickets] at ht'
  obtain ⟨t, ht, rfl⟩ := Table.mem_updateWhere.mp ht'
  split
  · next hid => exact hthis t (hid ▸ Table.row_of_mem hids ht)
  · next hid =>
      obtain ⟨hwork, hclaims, hdrafts⟩ := hothers t.ticketId hid
      exact (h t ht).of_same hw hw' hwork hclaims hdrafts

/-- **Writes to the table of tasks keep the truth.** -/
theorem taskKept_truthful : TaskKept fun w => Truthful w ∧ Engaged w where
  update w taskId ofStatus set hset h := by
    have hengaged := taskKept_engaged.update w taskId ofStatus set hset h.2
    refine ⟨?_, hengaged⟩
    cases hold : w.lifecycle.task taskId with
    | none =>
        rw [w.updateTask_of_none hold]
        exact h.1
    | some old =>
        obtain ⟨events, rows, hupdate⟩ := w.updateTask_eq hset.taskId hold ofStatus
        rw [hupdate] at hengaged ⊢
        by_cases hends : WorkDb.Ends ofStatus old (set old)
        · simp only [if_pos hends] at hengaged ⊢
          intro t' ht'
          obtain ⟨t, ht, rfl⟩ := Table.mem_updateWhere.mp ht'
          split
          · next hwaits =>
              refine truthful_of_actionable rfl ?_ rfl rfl
              show t.resolutionCode = none
              -- a ticket that waits was not resolved, and so has no code
              by_contra hcode
              have hresolved := (h.1 t ht).resolutionCode.mp (Option.isSome_iff_ne_none.mpr hcode)
              obtain ⟨l, hl, hid⟩ := List.mem_map.mp hwaits
              obtain ⟨hmem, hwaiting⟩ := List.mem_filter.mp hl
              obtain ⟨-, hactive⟩ := of_decide_eq_true hwaiting
              exact ((h.1 t ht).resolved hresolved).1
                ((h.2.unfinished_iff t.ticketId).mpr ⟨l, hmem, hid, hactive⟩)
          · next hwaits =>
              refine (h.1 t ht).of_same h.2 hengaged ⟨?_, ?_⟩ rfl rfl
              · rintro ⟨l', hl', hid, hactive⟩
                obtain ⟨l, hl, rfl⟩ := Table.mem_updateWhere.mp hl'
                split at hactive
                · cases hactive
                · next hother =>
                    rw [if_neg hother] at hid
                    exact ⟨l, hl, hid, hactive⟩
              · rintro ⟨l, hl, hid, hactive⟩
                refine ⟨_, Table.mem_updateWhere.mpr ⟨l, hl, rfl⟩, ?_⟩
                rw [if_neg]
                · exact ⟨hid, hactive⟩
                · intro hboth
                  exact hwaits (List.mem_map.mpr ⟨l, List.mem_filter.mpr
                    ⟨hl, decide_eq_true hboth⟩, hid⟩)
        · simp only [if_neg hends] at hengaged ⊢
          exact fun t ht => (h.1 t ht).of_same h.2 hengaged Iff.rfl rfl rfl
  insert w new hid hnumber hstatus hrevision h := by
    have hengaged := taskKept_engaged.insert w new hid hnumber hstatus hrevision h.2
    refine ⟨?_, hengaged⟩
    obtain ⟨events, rows, hinsert⟩ := WorkDb.insertTask_eq w new
    rw [hinsert] at hengaged ⊢
    exact fun t ht => (h.1 t ht).of_same h.2 hengaged Iff.rfl rfl rfl
  tables w db h := by
    have hengaged := taskKept_engaged.tables w db h.2
    exact ⟨fun t ht => (h.1 t ht).of_same h.2 hengaged Iff.rfl rfl rfl, hengaged⟩

section Calls

variable [FloatText] [Digest]

omit [FloatText] [Digest] in
lemma Truthful.quiet (h : Truthful w) (hw : Engaged w) (hw' : Engaged w') (hquiet : Quiet w w') :
    Truthful w' := by
  intro t ht
  refine (h t (hquiet.tickets ▸ ht)).of_same hw hw' ?_ ?_ ?_
  · rw [WorkDb.AtWork, hquiet.links]
    rfl
  · rw [WorkDb.openClaims, hquiet.claims]
    rfl
  · rw [WorkDb.openDrafts, hquiet.drafts]
    rfl

lemma truthful_admitSource (h : Truthful w) (hlogged : Logged w) (hw : Engaged w)
    (hw' : Engaged w') {env : WorkEnv} {args v : Value}
    (hok : admitSource env args w = .ok (w', v)) : Truthful w' := by
  obtain ⟨r, -, hquiet | ⟨-, -, hassociate⟩⟩ := admitSource_cases hok
  · exact h.quiet hw hw' hquiet
  · obtain ⟨w₁, found, rows, ticket, hfound, -, -, -, -, -, hconcluded, -⟩ :=
      associate_ok hassociate
    obtain ⟨o, -, rfl⟩ := hconcluded.behind
    rcases ticketFor_ok hfound with ⟨-, rfl, -, rfl⟩ | ⟨t, -, -, -, rfl⟩
    · intro t ht
      rcases List.mem_append.mp ht with ht | ht
      · exact (h t ht).of_same hw hw' Iff.rfl rfl rfl
      · rw [List.mem_singleton.mp ht]
        exact truthful_of_actionable rfl rfl rfl rfl
    · exact h.moved hlogged.ids hw hw' _ _ rfl (fun _ _ => truthful_of_actionable rfl rfl rfl rfl)
        fun _ _ => ⟨Iff.rfl, rfl, rfl⟩

/-- The claim of a draft is open at the revision that its ticket gets. -/
lemma truthful_effectClaimed {r : ProposalRequest} {draft : ProposedDraft} {now now' : String}
    {t : Ticket} (hticket : t.ticketId = r.ticketId) (hrevision : t.revision = r.expectedRevision)
    (hclaims : w'.claims = w.claims ++ [draft.claim r now]) :
    ((routeTransition .effectClaimed r.summary now' none none none).apply t).Truthful w' where
  resolved := nofun
  waitingOnTask := nofun
  waitingOnDraft := nofun
  effectClaimed _ := by
    refine ⟨draft.claim r now, ?_, ?_⟩
    · rw [WorkDb.openClaims, hclaims]
      refine List.mem_filter.mpr ⟨List.mem_append_right _ (List.mem_singleton_self _), ?_⟩
      exact decide_eq_true ⟨hticket.symm, rfl⟩
    · show r.expectedRevision + 1 = t.revision + 1
      rw [hrevision]
  resolutionCode := ⟨nofun, nofun⟩
  terminalAt := ⟨nofun, nofun⟩
  blockerCode := ⟨nofun, nofun⟩

lemma truthful_admitProposal (h : Truthful w) (hlogged : Logged w) (hw : Engaged w)
    (hw' : Engaged w') {env : WorkEnv} {args v : Value}
    (hok : admitProposal env args w = .ok (w', v)) : Truthful w' := by
  obtain ⟨r, -, rfl | ⟨before, body, m, t, n, hbefore, hexpected, hleads, ht, hkey, hconcluded⟩⟩ :=
    admitProposal_cases hok
  · exact h
  have hunrecorded := hconcluded.unrecorded
  obtain ⟨o, -, rfl⟩ := hconcluded.behind
  cases hleads with
  | @again link hlink hlinkKey =>
      rw [hkey, ← hlinkKey] at hunrecorded
      exact absurd hunrecorded (hw.stored link hlink)
  | @followup task hid hnumber hlink =>
      obtain ⟨haside, hathand⟩ := aside_writeFollowup env task hid
      obtain ⟨db, events, rows, hrest⟩ := haside.rest
      refine h.moved hlogged.ids hw hw'
        (routeTransition .waitingOnTask r.summary (env.now 4) none none none) r.ticketId ?_
        (fun t₀ ht₀ => ?_) fun id hid => ⟨⟨?_, ?_⟩, ?_, ?_⟩
      · show updateWhere _ _ (writeFollowup env r task w).tickets = _
        rw [hrest]
      · have hwork : ∃ l ∈ (writeFollowup env r task w).links ++
            [followupLink r.ticketId r.operationKey (env.now 3)],
            l.ticketId = t₀.ticketId ∧ l.status = .active :=
          ⟨_, List.mem_append_right _ (List.mem_singleton_self _),
            (Table.key_of_row ht₀).symm, rfl⟩
        have hwaits := (hw'.unfinished_iff t₀.ticketId).mpr hwork
        exact ⟨nofun, fun _ => hwaits, nofun, nofun, ⟨nofun, nofun⟩, ⟨nofun, nofun⟩,
          ⟨nofun, nofun⟩⟩
      · rintro ⟨l, hl, hticket, hactive⟩
        rcases List.mem_append.mp hl with hl | hl
        · rw [hrest] at hl
          exact ⟨l, hl, hticket, hactive⟩
        · rw [List.mem_singleton.mp hl] at hticket
          exact absurd hticket.symm hid
      · rintro ⟨l, hl, hticket, hactive⟩
        refine ⟨l, List.mem_append_left _ ?_, hticket, hactive⟩
        rw [hrest]
        exact hl
      · show (writeFollowup env r task w).claims.filter _ = _
        rw [hrest]
        rfl
      · show (writeFollowup env r task w).drafts.filter _ = _
        rw [hrest]
        rfl
  | @draft draft hclaim =>
      refine h.moved hlogged.ids hw hw' _ _ rfl (fun t₀ ht₀ => ?_) fun id hid => ⟨Iff.rfl, ?_, rfl⟩
      · obtain rfl := Option.some.inj (hbefore.symm.trans ht₀)
        exact truthful_effectClaimed (Table.key_of_row ht₀) hexpected rfl
      · show (w.claims ++ [_]).filter _ = w.claims.filter _
        rw [List.filter_append, List.filter_cons_of_neg, List.filter_nil, List.append_nil]
        simpa using fun hticket => absurd hticket.symm hid
  | resolved hlinks hclaims hdrafts =>
      refine h.moved hlogged.ids hw hw' _ _ rfl (fun t₀ ht₀ => ?_) fun _ _ => ⟨Iff.rfl, rfl, rfl⟩
      have hticket : t₀.ticketId = r.ticketId := Table.key_of_row ht₀
      refine ⟨fun _ => ?_, nofun, nofun, nofun, ⟨fun _ => rfl, fun _ => rfl⟩,
        ⟨fun _ => rfl, fun _ => rfl⟩, ⟨nofun, nofun⟩⟩
      show (¬ ∃ l ∈ w.links, w.UnfinishedLink t₀.ticketId l) ∧ w.openClaims t₀.ticketId = [] ∧
        w.openDrafts t₀.ticketId = []
      rw [hticket]
      exact ⟨hlinks, hclaims, hdrafts⟩
  | blocked =>
      refine h.moved hlogged.ids hw hw' _ _ rfl (fun t₀ ht₀ => ?_) fun _ _ => ⟨Iff.rfl, rfl, rfl⟩
      exact ⟨nofun, nofun, nofun, nofun, ⟨nofun, nofun⟩, ⟨nofun, nofun⟩,
        ⟨fun _ => rfl, fun _ => rfl⟩⟩

end Calls

/-! ### Receipts and reconciliations -/

/-- A claim that gives way takes away open claims at other revisions only. -/
lemma mem_openClaims_supersede {claimId ticketId : String} {c : EffectClaim} :
    c ∈ (w.supersedeClaim claimId).openClaims ticketId ↔
      c ∈ w.openClaims ticketId ∧ c.claimId ≠ claimId := by
  constructor
  · intro hc
    obtain ⟨hmem, hopen⟩ := List.mem_filter.mp hc
    obtain ⟨before, hbefore, rfl⟩ := Table.mem_updateWhere.mp hmem
    obtain ⟨hticket, hclaimed⟩ := of_decide_eq_true hopen
    split at hclaimed
    · cases hclaimed
    · next hother =>
        rw [if_neg hother] at hticket ⊢
        exact ⟨List.mem_filter.mpr ⟨hbefore, decide_eq_true ⟨hticket, hclaimed⟩⟩, hother⟩
  · rintro ⟨hc, hother⟩
    obtain ⟨hmem, hopen⟩ := List.mem_filter.mp hc
    exact List.mem_filter.mpr ⟨Table.mem_updateWhere.mpr ⟨c, hmem, if_neg hother⟩, hopen⟩

/-- The claim of a name is the one that is found. -/
lemma Filed.claim_eq (h : Filed w) {claimId ticketId : String} {claim c : EffectClaim}
    (hfound : w.claim claimId ticketId = some claim) (hc : c ∈ w.claims)
    (hid : c.claimId = claimId) : c = claim ∧ c.ticketId = ticketId := by
  obtain ⟨hclaim, hticket⟩ : claim.claimId = claimId ∧ claim.ticketId = ticketId := by
    simpa using List.find?_some hfound
  have hsame : c = claim :=
    List.inj_on_of_nodup_map h.claims hc (List.mem_of_find?_eq_some hfound) (hid.trans hclaim.symm)
  exact ⟨hsame, hsame ▸ hticket⟩

/-- The draft of a name is the one that is found. -/
lemma Filed.draft_eq (h : Filed w) {ticketId draftId : String} {draft d : DraftRef}
    (hfound : w.draft ticketId draftId = some draft) (hd : d ∈ w.drafts)
    (hname : d.ticketId = ticketId ∧ d.draftId = draftId) : d = draft := by
  obtain ⟨hticket, hdraft⟩ : draft.ticketId = ticketId ∧ draft.draftId = draftId := by
    simpa using List.find?_some hfound
  refine List.inj_on_of_nodup_map h.drafts hd (List.mem_of_find?_eq_some hfound) ?_
  rw [DraftRef.name, DraftRef.name, hname.1, hname.2, hticket, hdraft]

/-- A late receipt takes no open claim away at the revision of its ticket. -/
lemma truthful_late (h : Truthful w) (hids : (w.tickets.map Ticket.ticketId).Nodup)
    (hfiled : Filed w) (hw : Engaged w) (hw' : Engaged w') {claimId ticketId : String}
    {claim : EffectClaim} {t : Ticket} (hfound : w.claim claimId ticketId = some claim)
    (ht : w.ticket ticketId = some t) (hlate : t.revision ≠ claim.ticketRevision)
    (htickets : w'.tickets = w.tickets) (hlinks : w'.links = w.links)
    (hclaims : w'.claims = (w.supersedeClaim claimId).claims) (hdrafts : w'.drafts = w.drafts) :
    Truthful w' := by
  intro t' ht'
  rw [htickets] at ht'
  have htruth := h t' ht'
  have hunfinished : (∃ l ∈ w'.links, w'.UnfinishedLink t'.ticketId l) ↔
      ∃ l ∈ w.links, w.UnfinishedLink t'.ticketId l := by
    rw [hw.unfinished_iff, hw'.unfinished_iff, WorkDb.AtWork, WorkDb.AtWork, hlinks]
  have hopen : w'.openClaims t'.ticketId = (w.supersedeClaim claimId).openClaims t'.ticketId := by
    rw [WorkDb.openClaims, WorkDb.openClaims, hclaims]
  have hopenDrafts : w'.openDrafts t'.ticketId = w.openDrafts t'.ticketId := by
    rw [WorkDb.openDrafts, WorkDb.openDrafts, hdrafts]
  refine ⟨fun hresolved => ?_, fun hwaits => ?_, fun hwaits => ?_, fun hclaimed => ?_,
    htruth.resolutionCode, htruth.terminalAt, htruth.blockerCode⟩
  · obtain ⟨hwork, hnone, hdone⟩ := htruth.resolved hresolved
    refine ⟨hunfinished.not.mpr hwork, List.eq_nil_iff_forall_not_mem.mpr fun c hc => ?_,
      hopenDrafts.trans hdone⟩
    rw [hopen, mem_openClaims_supersede, hnone] at hc
    cases hc.1
  · exact hunfinished.mpr (htruth.waitingOnTask hwaits)
  · exact hopenDrafts ▸ htruth.waitingOnDraft hwaits
  · obtain ⟨c, hc, hrevision⟩ := htruth.effectClaimed hclaimed
    refine ⟨c, hopen ▸ mem_openClaims_supersede.mpr ⟨hc, fun hid => hlate ?_⟩, hrevision⟩
    -- the claim that gives way is the one that was found, and `t'` its ticket
    obtain ⟨hmem, hticket⟩ := List.mem_filter.mp hc
    obtain ⟨hticket, -⟩ := of_decide_eq_true hticket
    obtain ⟨rfl, hthis⟩ := hfiled.claim_eq hfound hmem hid
    have hsame : t = t' := List.inj_on_of_nodup_map hids (Table.mem_of_row ht) ht'
      ((Table.key_of_row ht).trans (hthis.symm.trans hticket))
    rw [hsame, hrevision]

/-- What belongs to other tickets than that of a receipt. -/
lemma others_received (hfiled : Filed w) {r : ReceiptRequest} {claim : EffectClaim}
    (hfound : w.claim r.claimId r.ticketId = some claim) [Digest] [FloatText] (now : String)
    {id : String} (hid : id ≠ r.ticketId) :
    (r.received now w).openClaims id = w.openClaims id ∧
      (r.received now w).openDrafts id = w.openDrafts id := by
  constructor
  · rw [received_eq]
    refine Table.filter_updateWhere fun c hc hcompletes => ?_
    obtain ⟨-, hticket⟩ := hfiled.claim_eq hfound hc hcompletes.1
    have hother : c.ticketId ≠ id := fun heq => hid (heq.symm.trans hticket)
    exact ⟨decide_eq_false fun hboth => hother hboth.1, decide_eq_false fun hboth => hother hboth.1⟩
  · have hgiving : (r.received now w).openDrafts id =
        ((w.completeClaim r now).upsertDraft (r.draft now)).openDrafts id := by
      refine Table.filter_updateWhere fun d _ hgives => ?_
      have hother : d.ticketId ≠ id := fun heq => hid (heq.symm.trans hgives.1)
      exact ⟨decide_eq_false fun hboth => hother hboth.1,
        decide_eq_false fun hboth => hother hboth.1⟩
    rw [hgiving]
    unfold WorkDb.upsertDraft
    split
    · refine Table.filter_updateWhere fun d _ hname => ?_
      have hother : d.ticketId ≠ id := fun heq => hid (heq.symm.trans hname.1)
      exact ⟨decide_eq_false fun hboth => hother hboth.1,
        decide_eq_false fun hboth => hother hboth.1⟩
    · show (w.drafts ++ [r.draft now]).filter _ = w.drafts.filter _
      rw [List.filter_append, List.filter_cons_of_neg, List.filter_nil, List.append_nil]
      simpa using fun hticket => absurd hticket.symm hid

/-- A draft is open behind a receipt exactly when it was not disposed of before. -/
lemma openDrafts_received (hfiled : Filed w) (r : ReceiptRequest) [Digest] [FloatText]
    (now : String) :
    (r.received now w).openDrafts r.ticketId ≠ [] ↔
      ∀ d, w.draft r.ticketId r.draftId = some d → d.disposition = none := by
  have hbehind {d : DraftRef}
      (hd : d ∈ ((w.completeClaim r now).upsertDraft (r.draft now)).drafts)
      (hname : d.ticketId = r.ticketId ∧ d.draftId = r.draftId) (hopen : d.disposition = none) :
      d ∈ (r.received now w).openDrafts r.ticketId := by
    refine List.mem_filter.mpr ⟨Table.mem_updateWhere.mpr ⟨d, hd, if_neg fun hgives => ?_⟩,
      decide_eq_true ⟨hname.1, hopen⟩⟩
    exact hgives.2.1 hname.2
  constructor
  · intro hsome d hfound
    obtain ⟨d', hd'⟩ := List.exists_mem_of_ne_nil _ hsome
    obtain ⟨hmem, hopen⟩ := List.mem_filter.mp hd'
    obtain ⟨hticket, hnone⟩ := of_decide_eq_true hopen
    obtain ⟨before, hbefore, rfl⟩ := Table.mem_updateWhere.mp hmem
    split at hnone
    · cases hnone
    · next hstays =>
        rw [if_neg hstays] at hticket
        -- what is still open has the name of the receipt, and comes from the draft found
        have hdraft : before.draftId = r.draftId := by
          by_contra hne
          exact hstays ⟨hticket, hne, hnone⟩
        have hsome : ((w.completeClaim r now).draft (r.draft now).ticketId
            (r.draft now).draftId).isSome = true := by
          show (w.draft r.ticketId r.draftId).isSome = true
          rw [hfound]
          rfl
        rw [WorkDb.upsertDraft, if_pos hsome] at hbefore
        obtain ⟨first, hfirst, rfl⟩ := Table.mem_updateWhere.mp hbefore
        have hsame : first = d := by
          refine hfiled.draft_eq hfound hfirst ?_
          split at hticket <;> split at hdraft <;> exact ⟨hticket, hdraft⟩
        rw [← hsame]
        split at hnone <;> exact hnone
  · intro hopen hnone
    cases hfound : w.draft r.ticketId r.draftId with
    | none =>
        have hfree : ¬ ((w.completeClaim r now).draft (r.draft now).ticketId
            (r.draft now).draftId).isSome = true := by
          show ¬ (w.draft r.ticketId r.draftId).isSome = true
          rw [hfound]
          exact Bool.false_ne_true
        have hmem : r.draft now ∈
            ((w.completeClaim r now).upsertDraft (r.draft now)).drafts := by
          rw [WorkDb.upsertDraft, if_neg hfree]
          exact List.mem_append_right _ (List.mem_singleton_self _)
        have hempty := hbehind hmem ⟨rfl, rfl⟩ rfl
        rw [hnone] at hempty
        cases hempty
    | some d =>
        obtain ⟨hticket, hdraft⟩ : d.ticketId = r.ticketId ∧ d.draftId = r.draftId := by
          simpa using List.find?_some hfound
        have hold : d ∈ (w.completeClaim r now).drafts := List.mem_of_find?_eq_some hfound
        obtain ⟨d', hd', hname, hdisposition, -⟩ := exists_upsertDraft hold (r.draft now)
        obtain ⟨hticket', hdraft'⟩ := Prod.mk.inj hname
        have hempty := hbehind hd' ⟨hticket'.trans hticket, hdraft'.trans hdraft⟩
          (hdisposition.trans (hopen d hfound))
        rw [hnone] at hempty
        cases hempty

/-- What belongs to other tickets than that of a reconciliation. -/
lemma others_dispose (r : ReconcileRequest) [FloatText] (now : String) {id : String}
    (hid : id ≠ r.ticketId) : (r.dispose now w).openDrafts id = w.openDrafts id := by
  obtain ⟨others, hwhich, hdispose⟩ := r.exists_others now w
  have hothers : others.openDrafts id = w.openDrafts id := by
    rcases hwhich with rfl | rfl
    · refine Table.filter_updateWhere fun d _ hgives => ?_
      have hother : d.ticketId ≠ id := fun heq => hid (heq.symm.trans hgives.1)
      exact ⟨decide_eq_false fun hboth => hother hboth.1,
        decide_eq_false fun hboth => hother hboth.1⟩
    · rfl
  rw [hdispose]
  refine Eq.trans (Table.filter_updateWhere fun d _ hname => ?_) hothers
  have hother : d.ticketId ≠ id := fun heq => hid (heq.symm.trans hname.1)
  exact ⟨decide_eq_false fun hboth => hother hboth.1, decide_eq_false fun hboth => hother hboth.1⟩

/-- A draft that has been sent leaves none of its ticket open. -/
lemma openDrafts_sent {r : ReconcileRequest} [FloatText] (now : String)
    (hsent : r.evidence.observed = .sent) : (r.dispose now w).openDrafts r.ticketId = [] := by
  refine List.eq_nil_iff_forall_not_mem.mpr fun d hd => ?_
  obtain ⟨hmem, hopen⟩ := List.mem_filter.mp hd
  obtain ⟨hticket, hnone⟩ := of_decide_eq_true hopen
  simp only [ReconcileRequest.dispose, hsent] at hmem
  obtain ⟨before, hbefore, rfl⟩ := Table.mem_updateWhere.mp hmem
  split at hnone
  · cases hnone
  · next hother =>
      rw [if_neg hother] at hticket
      obtain ⟨first, -, rfl⟩ := Table.mem_updateWhere.mp hbefore
      split at hnone
      · cases hnone
      · next hstays =>
          rw [if_neg hstays] at hticket hother
          exact hstays ⟨hticket, fun hdraft => hother ⟨hticket, hdraft⟩, hnone⟩

/-! ### Runs -/

section Runs

variable [FloatText] [TouchClock] [Digest]

/-- No draft that is reconciled as sent leaves work of its ticket open, and no receipt that goes
through in time names a draft that is disposed of. -/
structure Honest (c : Servers) (a : Servers.Act) : Prop where
  sent : ∀ env args r, a = reconciling env args → reconcileRequest args = .ok r →
    r.Passes env c.state → r.evidence.observed = .sent →
      (¬ ∃ l ∈ c.state.links, c.state.UnfinishedLink r.ticketId l) ∧
        c.state.openClaims r.ticketId = []
  received : ∀ env args r, a = receiving env args → receiptRequest args = .ok r →
    r.InTime env c.state → ∀ d, c.state.draft r.ticketId r.draftId = some d → d.disposition = none

omit [TouchClock] in
lemma truthful_recordDraftReceipt (h : Truthful w) (hlogged : Logged w) (hfiled : Filed w)
    (hw : Engaged w) (hw' : Engaged w') {env : WorkEnv} {args v : Value}
    (hhonest : ∀ r, receiptRequest args = .ok r → r.InTime env w →
      ∀ d, w.draft r.ticketId r.draftId = some d → d.disposition = none)
    (hok : recordDraftReceipt env args w = .ok (w', v)) : Truthful w' := by
  obtain ⟨r, hr, ⟨-, rfl⟩ | ⟨claim, t, n, hmeets, -, ⟨hlate, -, hconcluded⟩ |
    ⟨-, hintime, hconcluded⟩⟩⟩ := recordDraftReceipt_cases hok
  · exact h
  · obtain ⟨o, -, rfl⟩ := hconcluded.behind
    exact truthful_late h hlogged.ids hfiled hw hw' hmeets.found hmeets.ticket hlate rfl rfl rfl rfl
  · obtain ⟨o, -, rfl⟩ := hconcluded.behind
    refine h.moved hlogged.ids hw hw' (ReceiptRequest.transition env) r.ticketId ?_
      (fun t₀ ht₀ => ?_) fun id hid => ?_
    · show updateWhere _ _ (r.received (env.now 0) w).tickets = _
      rw [received_eq]
    · have hopen : (r.received (env.now 0) w).openDrafts t₀.ticketId ≠ [] := by
        rw [Table.key_of_row ht₀]
        exact (openDrafts_received hfiled r (env.now 0)).mpr (hhonest r hr hintime)
      exact ⟨nofun, nofun, fun _ => hopen, nofun, ⟨nofun, nofun⟩, ⟨nofun, nofun⟩,
        ⟨nofun, nofun⟩⟩
    · obtain ⟨hclaims, hdrafts⟩ := others_received hfiled hmeets.found (env.now 0) hid
      refine ⟨?_, hclaims, hdrafts⟩
      show (∃ l ∈ (r.received (env.now 0) w).links, _) ↔ _
      rw [received_eq]
      rfl

omit [TouchClock] in
lemma truthful_reconcileDraft (h : Truthful w) (hlogged : Logged w) (hw : Engaged w)
    (hw' : Engaged w') {env : WorkEnv} {args v : Value}
    (hhonest : ∀ r, reconcileRequest args = .ok r → r.Passes env w → r.evidence.observed = .sent →
      (¬ ∃ l ∈ w.links, w.UnfinishedLink r.ticketId l) ∧ w.openClaims r.ticketId = [])
    (hok : reconcileDraft env args w = .ok (w', v)) : Truthful w' := by
  obtain ⟨r, hr, ⟨-, rfl⟩ | ⟨hpasses, t, n, -, -, hconcluded⟩⟩ := reconcileDraft_cases hok
  · exact h
  obtain ⟨o, -, rfl⟩ := hconcluded.behind
  have hwork (id : String) : (∃ l ∈ (r.dispose (env.now 0) w).links,
      l.ticketId = id ∧ l.status = .active) ↔ w.AtWork id := by
    rw [dispose_eq]
    rfl
  refine h.moved hlogged.ids hw hw' (r.transition (env.now 0) (env.now 1)) r.ticketId ?_
    (fun t₀ ht₀ => ?_) fun id hid => ⟨hwork id, ?_, others_dispose r (env.now 0) hid⟩
  · show updateWhere _ _ (r.dispose (env.now 0) w).tickets = _
    rw [dispose_eq]
  · have hticket : t₀.ticketId = r.ticketId := Table.key_of_row ht₀
    cases hobserved : r.evidence.observed with
    | discarded =>
        rw [ReconcileRequest.transition, hobserved]
        exact truthful_of_actionable rfl rfl rfl rfl
    | sent =>
        obtain ⟨hlinks, hclaims⟩ := hhonest r hr hpasses hobserved
        have hdone := (hw'.unfinished_iff t₀.ticketId).not.mpr
          ((hwork t₀.ticketId).not.mpr ((hw.unfinished_iff t₀.ticketId).not.mp (hticket ▸ hlinks)))
        have hopenClaims : (r.dispose (env.now 0) w).openClaims t₀.ticketId = [] := by
          rw [dispose_eq, hticket]
          exact hclaims
        have hopenDrafts : (r.dispose (env.now 0) w).openDrafts t₀.ticketId = [] := by
          rw [hticket]
          exact openDrafts_sent (env.now 0) hobserved
        rw [ReconcileRequest.transition, hobserved]
        exact ⟨fun _ => ⟨hdone, hopenClaims, hopenDrafts⟩, nofun, nofun, nofun,
          ⟨fun _ => rfl, fun _ => rfl⟩, ⟨fun _ => rfl, fun _ => rfl⟩, ⟨nofun, nofun⟩⟩
  · show (r.dispose (env.now 0) w).openClaims id = _
    rw [dispose_eq]
    rfl

/-- **An act leaves the links engaged.** -/
theorem engaged_act {c : Servers} (a : Servers.Act) (h : Engaged c.state) :
    Engaged (c.act a).state :=
  taskKept_engaged.act (fun call _ => h.apply call) h

/-- What the truth of the tickets rests on. -/
structure Sound (w : WorkDb) : Prop where
  logged : Logged w
  filed : Filed w
  engaged : Engaged w

lemma sound_act {c : Servers} (a : Servers.Act) (h : Sound c.state) : Sound (c.act a).state where
  logged := taskKept_logged.act (fun call _ => h.logged.apply call) h.logged
  filed := filed_act a h.filed
  engaged := engaged_act a h.engaged

/-- An honest act leaves the tickets telling the truth. -/
lemma truthful_of_honest {c : Servers} {a : Servers.Act} (hsound : Sound c.state)
    (h : Truthful c.state) (ha : Honest c a) : Truthful (c.act a).state := by
  have hengaged := engaged_act a hsound.engaged
  by_cases hcall : ∃ call, a = .edit (.ticket call)
  · obtain ⟨call, rfl⟩ := hcall
    change Engaged (call.apply c.state) at hengaged
    show Truthful (call.apply c.state)
    unfold TicketCall.apply at hengaged ⊢
    cases htransact : call.transact c.state with
    | error e => exact h
    | ok behind =>
        obtain ⟨w', v⟩ := behind
        rw [htransact] at hengaged
        have hquiet (hq : Quiet c.state w') : Truthful w' := h.quiet hsound.engaged hengaged hq
        cases call with
        | admitSource env args =>
            exact truthful_admitSource h hsound.logged hsound.engaged hengaged htransact
        | admitProposal env args =>
            exact truthful_admitProposal h hsound.logged hsound.engaged hengaged htransact
        | recordDraftReceipt env args =>
            exact truthful_recordDraftReceipt h hsound.logged hsound.filed hsound.engaged hengaged
              (fun r => ha.received env args r rfl) htransact
        | reconcileDraft env args =>
            exact truthful_reconcileDraft h hsound.logged hsound.engaged hengaged
              (fun r => ha.sent env args r rfl) htransact
        | processingContext env args => exact hquiet (quiet_of_idle htransact trivial)
        | outboxRegister args => exact hquiet (quiet_of_idle htransact trivial)
        | outboxAck env args => exact hquiet (quiet_of_idle htransact trivial)
        | outboxCompact env isTime args => exact hquiet (quiet_of_idle htransact trivial)
  · exact (taskKept_truthful.act (fun call ha => absurd ⟨call, ha⟩ hcall) ⟨h, hsound.engaged⟩).1

omit [TouchClock] in
/-- The ticket of a reconciliation as sent is resolved behind it. -/
lemma resolved_reconciled {env : WorkEnv} {args v : Value} {r : ReconcileRequest}
    (hr : reconcileRequest args = .ok r) (hpasses : r.Passes env w)
    (hsent : r.evidence.observed = .sent) (h : reconcileDraft env args w = .ok (w', v)) :
    w'.claims = w.claims ∧ w'.links = w.links ∧
      ∃ t' ∈ w'.tickets, t'.ticketId = r.ticketId ∧ t'.status = .resolved := by
  obtain ⟨r', hr', ⟨hstored, -⟩ | ⟨-, t, n, ht, -, hconcluded⟩⟩ := reconcileDraft_cases h
  all_goals
    rw [hr] at hr'
    cases hr'
  · exact absurd hpasses.1 hstored
  · obtain ⟨o, -, rfl⟩ := hconcluded.behind
    rw [dispose_eq]
    have hticket : t.ticketId = r.ticketId := Table.key_of_row ht
    refine ⟨rfl, rfl, _, Table.mem_updateWhere.mpr ⟨t, Table.mem_of_row ht, rfl⟩, ?_⟩
    rw [if_pos hticket, ReconcileRequest.transition, hsent]
    exact ⟨hticket, rfl⟩

omit [TouchClock] in
/-- The ticket of a receipt that goes through in time waits for a draft behind it. -/
lemma waiting_received {env : WorkEnv} {args v : Value} {r : ReceiptRequest}
    (hr : receiptRequest args = .ok r) (hintime : r.InTime env w)
    (h : recordDraftReceipt env args w = .ok (w', v)) :
    w'.drafts = (r.received (env.now 0) w).drafts ∧
      ∃ t' ∈ w'.tickets, t'.ticketId = r.ticketId ∧ t'.status = .waitingOnDraft := by
  obtain ⟨claim₀, t₀, hmeets₀, hrevision₀, -⟩ := hintime
  obtain ⟨r', hr', ⟨hstored, -⟩ | ⟨claim, t, n, hmeets, -, ⟨hrevision, -⟩ |
    ⟨-, -, hconcluded⟩⟩⟩ := recordDraftReceipt_cases h
  all_goals
    rw [hr] at hr'
    cases hr'
  · exact absurd hmeets₀.unrecorded hstored
  · have hclaim := Option.some.inj (hmeets.found.symm.trans hmeets₀.found)
    have hticket := Option.some.inj (hmeets.ticket.symm.trans hmeets₀.ticket)
    rw [hclaim, hticket] at hrevision
    exact absurd hrevision₀ hrevision
  · obtain ⟨o, -, rfl⟩ := hconcluded.behind
    have hticket : t.ticketId = r.ticketId := Table.key_of_row hmeets.ticket
    refine ⟨rfl, _, Table.mem_updateWhere.mpr ⟨t, ?_, rfl⟩, ?_⟩
    · rw [received_eq]
      exact Table.mem_of_row hmeets.ticket
    · rw [if_pos hticket]
      exact ⟨hticket, rfl⟩

/-- A reconciliation as sent that leaves the tickets telling the truth finds no open claim. -/
lemma openClaims_of_truthful {c : Servers} {env : WorkEnv} {args : Value} {r : ReconcileRequest}
    (hr : reconcileRequest args = .ok r) (hpasses : r.Passes env c.state)
    (hsent : r.evidence.observed = .sent) (h : Truthful (c.act (reconciling env args)).state) :
    c.state.openClaims r.ticketId = [] ∧
      (c.act (reconciling env args)).state.links = c.state.links ∧
        ¬ ∃ l ∈ (c.act (reconciling env args)).state.links,
          (c.act (reconciling env args)).state.UnfinishedLink r.ticketId l := by
  obtain ⟨⟨w', v⟩, htransact⟩ := reconcileDraft_ok hr hpasses
  have hbehind : (c.act (reconciling env args)).state = w' := by
    show TicketCall.apply _ c.state = w'
    rw [TicketCall.apply, TicketCall.transact, htransact]
  rw [hbehind] at h ⊢
  obtain ⟨hclaims, hlinks, t', ht', hid, hresolved⟩ :=
    resolved_reconciled hr hpasses hsent htransact
  obtain ⟨hwork, hopen, -⟩ := (h t' ht').resolved hresolved
  rw [hid] at hwork hopen
  rw [WorkDb.openClaims, hclaims] at hopen
  exact ⟨hopen, hlinks, hwork⟩

/-- An act that leaves the tickets telling the truth is honest. -/
lemma honest_of_truthful {c : Servers} {a : Servers.Act} (hsound : Sound c.state)
    (h : Truthful (c.act a).state) : Honest c a where
  sent := by
    rintro env args r rfl hr hpasses hsent
    have hengaged := engaged_act (reconciling env args) hsound.engaged
    obtain ⟨hopen, hlinks, hwork⟩ := openClaims_of_truthful hr hpasses hsent h
    rw [hengaged.unfinished_iff, WorkDb.AtWork, hlinks] at hwork
    exact ⟨(hsound.engaged.unfinished_iff r.ticketId).not.mpr hwork, hopen⟩
  received := by
    rintro env args r rfl hr hintime
    obtain ⟨⟨w', v⟩, htransact⟩ := recordDraftReceipt_ok hr (.inr hintime)
    have hbehind : (c.act (receiving env args)).state = w' := by
      show TicketCall.apply _ c.state = w'
      rw [TicketCall.apply, TicketCall.transact, htransact]
    rw [hbehind] at h
    obtain ⟨hdrafts, t', ht', hid, hwaiting⟩ := waiting_received hr hintime htransact
    have hopen := (h t' ht').waitingOnDraft hwaiting
    rw [hid, WorkDb.openDrafts, hdrafts] at hopen
    exact (openDrafts_received hsound.filed r (env.now 0)).mp hopen

/-- **The tickets of every state of a run tell the truth exactly when its acts are honest.** -/
theorem truthful_iff_honest (db : Db) (acts : List Servers.Act) :
    Each Servers.act (fun c a => Truthful (c.act a).state) (.idle { lifecycle := db }) acts ↔
      Each Servers.act Honest (.idle { lifecycle := db }) acts := by
  have hfiled : Filed { lifecycle := db } :=
    ⟨List.nodup_nil, fun _ h => absurd h List.not_mem_nil, List.nodup_nil⟩
  have hengaged : Engaged { lifecycle := db } :=
    ⟨fun _ h => absurd h List.not_mem_nil, fun _ h => absurd h List.not_mem_nil⟩
  have hstart : Sound (Servers.idle { lifecycle := db }).state :=
    ⟨logged_empty db, hfiled, hengaged⟩
  have htruthful : Truthful (Servers.idle { lifecycle := db }).state :=
    fun _ h => absurd h List.not_mem_nil
  have hstep : ∀ (c : Servers) (a : Servers.Act), Sound c.state → Sound (c.act a).state :=
    fun c a h => sound_act a h
  exact Calls.each_after_iff (fun c : Servers => Truthful c.state) hstep
    (fun c a hsound h => ⟨honest_of_truthful hsound, truthful_of_honest hsound h⟩) hstart htruthful

/-- **Whatever the servers do and in whatever order**, an active link leads to a task that has not
ended, and the result of the call that made a link is stored. -/
theorem engaged_run (db : Db) (acts : List Servers.Act) :
    Engaged (run Servers.act (.idle { lifecycle := db }) acts).state := by
  have hstart : Engaged (Servers.idle { lifecycle := db }).state :=
    ⟨fun _ h => absurd h List.not_mem_nil, fun _ h => absurd h List.not_mem_nil⟩
  exact @Calls.invariant_all _ _ Servers.act (fun c : Servers => Engaged c.state) _
    (fun c a h => engaged_act a h) hstart acts

end Runs

/-! ### A draft sent while another is being written -/

/-- The proposal of a second draft. -/
def secondArgs : Value :=
  .object [("ticket_id", .string "ticket-1"), ("expected_revision", .ofInt 3),
    ("route", .string "response_draft"), ("idempotency_key", .string "answer-2"),
    ("causation_id", .string "work-2"), ("actor_id", .string "alice"),
    ("summary", .string "Answer again"),
    ("draft", .object [("source_id", .string "source_9a136884bd83fdf0ce3c6dad652f0cda"),
      ("reply_mode", .string "reply"), ("body_text", .string "More")])]

/-- The evidence that the first draft has been sent. -/
def sentEvidence : Value :=
  .object [
    ("schema", .string "narada.graph_mail.ticket_draft_disposition_receipt.v1"),
    ("disposition", .string "sent"), ("evidence_kind", .string "synchronized_graph_observation"),
    ("is_draft", .bool false), ("observation_id", .string "seen-1"),
    ("evidence_id", .string "seen-1"), ("ticket_id", .string "ticket-1"),
    ("effect_claim_id", .string "effect_claim_75eccb9e1efa0042ca56cc3b"),
    ("draft_operation_key", .string "draft_operation_c6ad37bd1d3832da1723632652e4eeaf"),
    ("mailbox_id", .string "mailbox-1"), ("draft_id", .string "draft-1"),
    ("observed_message_id", .string "message-2"),
    ("observed_at", .string "2026-01-01T00:00:00Z"),
    ("receipt_sha256",
      .string "331948f618395aff25e82f0592ece83a0305775447be42b1cd6d0cb0b0d82a2f")]

def sentArgs : Value :=
  .object [("ticket_id", .string "ticket-1"), ("draft_id", .string "draft-1"),
    ("evidence", sentEvidence), ("idempotency_key", .string "sent-1"),
    ("causation_id", .string "graph-2")]

/-- What the reconciliation of the first draft asks for. -/
def sentRequest : ReconcileRequest :=
  ⟨"ticket-1", "draft-1", ⟨.sent, "synchronized_graph_observation", sentEvidence⟩, "sent-1",
    "graph-2"⟩

/-- The second draft is proposed after the first. -/
def proposedTwice : List Servers.Act :=
  drafted ++ [.edit (.ticket (.admitProposal stillEnv secondArgs))]

lemma checkEvidence_sent :
    letI := FloatText.fields
    letI := hexDigest
    checkEvidence sentEvidence "ticket-1" "draft-1" = .ok sentRequest.evidence := by
  let _ : FloatText := FloatText.fields
  let _ : Digest := hexDigest
  have hchecked :
      letI := FloatText.fields
      letI := hexDigest
      (checkEvidence sentEvidence "ticket-1" "draft-1").toOption.map
        (fun e => (e.observed, e.kind, e.json)) =
          some (.sent, "synchronized_graph_observation", sentEvidence) := by
    decide +kernel
  cases hevidence : checkEvidence sentEvidence "ticket-1" "draft-1" with
  | error code =>
      rw [hevidence] at hchecked
      cases hchecked
  | ok e =>
      rw [hevidence] at hchecked
      cases e
      cases hchecked
      rfl

lemma reconcileRequest_sent :
    letI := FloatText.fields
    letI := hexDigest
    reconcileRequest sentArgs = .ok sentRequest := by
  let _ : FloatText := FloatText.fields
  let _ : Digest := hexDigest
  have hticket : requiredString sentArgs "ticket_id" = .ok "ticket-1" := by decide +kernel
  have hdraft : requiredString sentArgs "draft_id" = .ok "draft-1" := by decide +kernel
  have hevidence :
      (sentArgs.get "evidence").filter (fun v => v.asObject.isSome) = some sentEvidence := by
    decide +kernel
  have hkey : requiredString sentArgs "idempotency_key" = .ok "sent-1" := by decide +kernel
  have hcausation : requiredString sentArgs "causation_id" = .ok "graph-2" := by decide +kernel
  rw [reconcileRequest, bind_of_ok hticket, bind_of_ok hdraft, hevidence]
  dsimp only
  rw [bind_of_ok checkEvidence_sent, bind_of_ok hkey, bind_of_ok hcausation]
  rfl

/-- The first draft can be reconciled while the claim of the second is open. -/
lemma proposedTwice_state :
    letI := FloatText.fields
    letI := stillClock
    letI := hexDigest
    let w := (run Servers.act (.idle { lifecycle := {} }) proposedTwice).state
    w.openClaims "ticket-1" ≠ [] ∧ (w.operation "sent-1").isNone ∧
      (w.draft "ticket-1" "draft-1").any (sentRequest.Linked ·) ∧
      sentRequest.givingWay w = [] ∧
      (w.ticket "ticket-1").any fun t =>
        let t' := sentRequest.moved stillEnv t
        let n := sentRequest.note [] "2026-01-01T00:00:00Z"
        (n.payload t').bytes ≤ 16384 ∧ ¬ w.EventTaken (n.event t') ∧ ¬ w.OutboxTaken (n.outbox t') ∧
          (draftAnswer "reconciled" t' (n.eventId t')).bytes ≤ 32768 := by
  decide +kernel

lemma sentRequest_passes :
    letI := FloatText.fields
    letI := stillClock
    letI := hexDigest
    sentRequest.Passes stillEnv (run Servers.act (.idle { lifecycle := {} }) proposedTwice).state := by
  let _ : FloatText := FloatText.fields
  let _ : TouchClock := stillClock
  let _ : Digest := hexDigest
  obtain ⟨-, hunrecorded, hlinked, hgiving, hticket⟩ := proposedTwice_state
  obtain ⟨draft, hdraft, hlinked⟩ := Option.any_eq_true _ _ |>.mp hlinked
  obtain ⟨t, ht, hwritable⟩ := Option.any_eq_true _ _ |>.mp hticket
  obtain ⟨hpayload, hevent, houtbox, hanswer⟩ := of_decide_eq_true hwritable
  refine ⟨Option.isNone_iff_eq_none.mp hunrecorded, ⟨draft, hdraft, of_decide_eq_true hlinked⟩,
    fun h => h.1 hgiving, t, ht, ?_⟩
  rw [hgiving]
  exact ⟨Nat.not_lt.mpr hpayload, hevent, houtbox, Nat.not_lt.mpr hanswer⟩

/-- A draft that is sent resolves its ticket while the claim of another draft is open. -/
theorem resolved_with_open_claim :
    letI := FloatText.fields
    letI := stillClock
    letI := hexDigest
    ¬ ∀ (db : Db) (acts : List Servers.Act),
      Each Servers.act (fun c a => Truthful (c.act a).state) (.idle { lifecycle := db }) acts := by
  let _ : FloatText := FloatText.fields
  let _ : TouchClock := stillClock
  let _ : Digest := hexDigest
  intro h
  have htruthful := (h {} (proposedTwice ++ [reconciling stillEnv sentArgs])).append.2.1
  have hopen := (openClaims_of_truthful reconcileRequest_sent sentRequest_passes rfl htruthful).1
  exact proposedTwice_state.1 hopen

end WorkLifecycle

end McpSurfaces
