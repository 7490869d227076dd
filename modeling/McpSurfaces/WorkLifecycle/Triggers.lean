import McpSurfaces.WorkLifecycle.Store

/-!
The triggers of the work surface on the table of tasks.

* `insertTask`, `updateTask`, `touch`: an insertion of a task, an update of one, and what a write
  to another table that names a task does to it, each with the triggers that it fires. Triggers
  are not recursive.
* `reactivateTickets`: the tickets that wait for a task are taken up again when it ends.

What these events say is made of ids and counters. It stays far below the limit of the columns of
payloads, which is left out here.
-/

namespace McpSurfaces

namespace WorkLifecycle

open TaskLifecycle (Db Status TaskRow)
open Table (updateWhere)

namespace WorkDb

/-! ### Events -/

/-- `insert or ignore into work_lifecycle_events`. -/
def insertEventOrIgnore (w : WorkDb) (e : WorkEvent) : WorkDb :=
  if w.EventTaken e then w else { w with events := w.events ++ [e] }

/-- The row of the outbox for an event. -/
def outboxRow (topic partitionKey : String) (e : WorkEvent) : OutboxRow where
  eventId := e.eventId
  topic := topic
  partitionKey := partitionKey
  aggregateKind := e.aggregateKind
  aggregateId := e.aggregateId
  aggregateRevision := e.aggregateRevision
  causationId := e.causationId
  idempotencyKey := e.idempotencyKey
  payload := e.payload
  createdAt := e.createdAt
  availableAt := e.createdAt
  compactedAt := none

/-- `insert or ignore into work_outbox`, from the event with an id. -/
def insertOutboxOrIgnore (w : WorkDb) (topic partitionKey eventId : String) : WorkDb :=
  match w.events.find? fun e => e.eventId = eventId with
  | none => w
  | some e =>
      let o := outboxRow topic partitionKey e
      if w.OutboxTaken o then w else { w with outbox := w.outbox ++ [o] }

/-- An event with its row of the outbox. -/
def publish (w : WorkDb) (topic partitionKey : String) (e : WorkEvent) : WorkDb :=
  (w.insertEventOrIgnore e).insertOutboxOrIgnore topic partitionKey e.eventId

end WorkDb

/-- What the events of a task are named by. -/
def taskRevisionName (taskId : String) (revision : ℤ) : String :=
  "task:" ++ taskId ++ ":revision:" ++ toString revision

/-- The event of `work_task_insert_event`. -/
def taskCreated (new : TaskRow) : WorkEvent where
  eventId := "evt:" ++ taskRevisionName new.taskId new.revision
  aggregateKind := .task
  aggregateId := new.taskId
  aggregateRevision := new.revision
  eventType := "task.created"
  causationId := "task-create:" ++ new.taskId
  idempotencyKey := taskRevisionName new.taskId new.revision
  payload := .object [("task_id", .string new.taskId), ("task_number", .ofInt new.number),
    ("status", .string new.status.text), ("revision", .ofInt new.revision)]
  createdAt := new.updatedAt

/-- The event of `work_task_revision_event`. -/
def taskChanged (old new : TaskRow) : WorkEvent where
  eventId := "evt:" ++ taskRevisionName new.taskId (old.revision + 1)
  aggregateKind := .task
  aggregateId := new.taskId
  aggregateRevision := old.revision + 1
  eventType := "task.lifecycle.changed"
  causationId := "task-transition:" ++ new.taskId ++ ":" ++ toString (old.revision + 1)
  idempotencyKey := taskRevisionName new.taskId (old.revision + 1)
  payload := .object [("task_id", .string new.taskId), ("task_number", .ofInt new.number),
    ("status", .string new.status.text), ("previous_status", .string old.status.text),
    ("revision", .ofInt (old.revision + 1))]
  createdAt := new.updatedAt

def taskTopic : String := "work.task-lifecycle.v1"

/-! ### Tickets that wait for a task -/

/-- What the end of a task is named by for a ticket. -/
def terminalName (ticketId taskId : String) (revision : ℤ) : String :=
  "ticket:" ++ ticketId ++ ":task:" ++ taskId ++ ":terminal:" ++ toString revision

/-- The event of `work_task_terminal_reactivate_tickets` for a ticket. -/
def taskTerminal (old new : TaskRow) (t : Ticket) : WorkEvent where
  eventId := "evt:" ++ terminalName t.ticketId new.taskId (old.revision + 1)
  aggregateKind := .ticket
  aggregateId := t.ticketId
  aggregateRevision := t.revision
  eventType := "ticket.task.terminal"
  causationId := taskRevisionName new.taskId (old.revision + 1)
  idempotencyKey := terminalName t.ticketId new.taskId (old.revision + 1)
  payload := .object [("ticket_id", .string t.ticketId), ("ticket_revision", .ofInt t.revision),
    ("task_id", .string new.taskId), ("task_number", .ofInt new.number),
    ("task_status", .string new.status.text), ("task_revision", .ofInt (old.revision + 1))]
  createdAt := new.updatedAt

/-- A ticket of which a task has ended. Its code of resolution stays. -/
def Ticket.takenUp (now : String) (t : Ticket) : Ticket :=
  { t with
    status := .actionable
    revision := t.revision + 1
    blockerCode := none
    terminalAt := none
    updatedAt := now }

namespace WorkDb

/-- The active links of a task. -/
def waiting (w : WorkDb) (taskId : String) : List TaskLink :=
  w.links.filter fun l => l.taskId = taskId ∧ l.status = .active

/-- The events of a trigger for the tickets that wait for a task. -/
def terminalEvents (w : WorkDb) (old new : TaskRow) : List WorkEvent :=
  (w.waiting new.taskId).filterMap fun l => (w.ticket l.ticketId).map (taskTerminal old new)

/-- `work_task_terminal_reactivate_tickets`. -/
def reactivateTickets (w : WorkDb) (old new : TaskRow) : WorkDb :=
  let links := w.waiting new.taskId
  let moved := { w with
    tickets := updateWhere (fun t => t.ticketId ∈ links.map TaskLink.ticketId)
      (Ticket.takenUp new.updatedAt) w.tickets }
  let noted := (moved.terminalEvents old new).foldl insertEventOrIgnore moved
  let published := (links.map fun l =>
    (l.ticketId, "evt:" ++ terminalName l.ticketId new.taskId (old.revision + 1))).foldl
      (fun w e => w.insertOutboxOrIgnore "work.ticket-work-due.v1" e.1 e.2) noted
  { published with
    links := updateWhere (fun l => l.taskId = new.taskId ∧ l.status = .active)
      (fun l => { l with status := .terminal, terminalAt := some new.updatedAt })
      published.links }

/-! ### Writes -/

def setTask (w : WorkDb) (taskId : String) (set : TaskRow → TaskRow) : WorkDb :=
  { w with lifecycle := w.lifecycle.updateTask taskId set }

/-- `work_task_revision_event`. -/
def revisionEvent (w : WorkDb) (old new : TaskRow) : WorkDb :=
  (w.setTask new.taskId fun t => { t with revision := old.revision + 1 }).publish taskTopic
    new.taskId (taskChanged old new)

/-- An update of the status ends a task. -/
def Ends (ofStatus : Bool) (old new : TaskRow) : Prop :=
  ofStatus = true ∧ new.status.Ended ∧ ¬ old.status.Ended

instance (ofStatus : Bool) (old new : TaskRow) : Decidable (Ends ofStatus old new) :=
  inferInstanceAs (Decidable (_ ∧ _))

/-- An update of a task, with the triggers that it fires. Whether it is an update of the status is
a matter of its text. -/
def updateTask (w : WorkDb) (taskId : String) (ofStatus : Bool) (set : TaskRow → TaskRow) :
    WorkDb :=
  match w.lifecycle.task taskId with
  | none => w
  | some old =>
      let new := set old
      let updated := w.setTask taskId set
      let revised := if new.revision = old.revision then updated.revisionEvent old new else updated
      if Ends ofStatus old new then revised.reactivateTickets old new else revised

/-- What a write to another table that names a task does to it. -/
def touch (w : WorkDb) (taskId now : String) : WorkDb :=
  w.updateTask taskId false fun t => { t with updatedAt := now }

/-- An insertion of a task, with the trigger that it fires. -/
def insertTask (w : WorkDb) (new : TaskRow) : WorkDb :=
  ({ w with lifecycle := { w.lifecycle with tasks := w.lifecycle.tasks ++ [new] } }).publish
    taskTopic new.taskId (taskCreated new)

end WorkDb

/-! ### What a write leaves -/

/-- What the writes to the table of tasks leave: all tables but those of tasks, tickets, links,
events and the outbox. -/
structure Framed (w w' : WorkDb) : Prop where
  sources : w'.sources = w.sources
  keys : w'.keys = w.keys
  claims : w'.claims = w.claims
  drafts : w'.drafts = w.drafts
  operations : w'.operations = w.operations
  nextTicket : w'.nextTicket = w.nextTicket

lemma Framed.refl (w : WorkDb) : Framed w w := ⟨rfl, rfl, rfl, rfl, rfl, rfl⟩

namespace WorkDb

variable (w : WorkDb)

/-- The events and the outbox are all that differs. -/
lemma insertEventOrIgnore_eq (e : WorkEvent) :
    w.insertEventOrIgnore e =
      { w with events := w.events ++ (if w.EventTaken e then [] else [e]) } := by
  rw [insertEventOrIgnore]
  split <;> simp

lemma insertOutboxOrIgnore_eq (topic partitionKey eventId : String) :
    ∃ rows, w.insertOutboxOrIgnore topic partitionKey eventId =
      { w with outbox := w.outbox ++ rows } := by
  rw [insertOutboxOrIgnore]
  split
  · exact ⟨[], by simp⟩
  · next e _ =>
      by_cases htaken : w.OutboxTaken (outboxRow topic partitionKey e)
      · exact ⟨[], by simp [htaken]⟩
      · exact ⟨[outboxRow topic partitionKey e], by simp [htaken]⟩

/-- What is published of an event. -/
lemma publish_eq (topic partitionKey : String) (e : WorkEvent) :
    ∃ events rows, w.publish topic partitionKey e =
      { w with events := w.events ++ events, outbox := w.outbox ++ rows } := by
  rw [publish, insertEventOrIgnore_eq]
  obtain ⟨rows, hrows⟩ := insertOutboxOrIgnore_eq
    { w with events := w.events ++ (if w.EventTaken e then [] else [e]) } topic partitionKey
    e.eventId
  exact ⟨_, rows, hrows⟩

lemma foldl_insertEventOrIgnore_eq (events : List WorkEvent) :
    ∃ new, events.foldl insertEventOrIgnore w = { w with events := w.events ++ new } := by
  induction events generalizing w with
  | nil => exact ⟨[], by simp⟩
  | cons e rest ih =>
      rw [List.foldl_cons, insertEventOrIgnore_eq]
      obtain ⟨new, hnew⟩ := ih { w with
        events := w.events ++ (if w.EventTaken e then [] else [e]) }
      exact ⟨_, by rw [hnew, List.append_assoc]⟩

lemma foldl_insertOutboxOrIgnore_eq (topic : String) (rows : List (String × String)) :
    ∃ new, rows.foldl (fun w e => insertOutboxOrIgnore w topic e.1 e.2) w =
      { w with outbox := w.outbox ++ new } := by
  induction rows generalizing w with
  | nil => exact ⟨[], by simp⟩
  | cons e rest ih =>
      obtain ⟨first, hfirst⟩ := insertOutboxOrIgnore_eq w topic e.1 e.2
      rw [List.foldl_cons, hfirst]
      obtain ⟨new, hnew⟩ := ih { w with outbox := w.outbox ++ first }
      exact ⟨_, by rw [hnew, List.append_assoc]⟩

/-- The end of a task takes up the tickets that wait for it, and ends its links. -/
lemma reactivateTickets_eq (old new : TaskRow) :
    ∃ events rows, w.reactivateTickets old new = { w with
      tickets := updateWhere
        (fun t => t.ticketId ∈ (w.waiting new.taskId).map TaskLink.ticketId)
        (Ticket.takenUp new.updatedAt) w.tickets
      links := updateWhere (fun l => l.taskId = new.taskId ∧ l.status = .active)
        (fun l => { l with status := .terminal, terminalAt := some new.updatedAt }) w.links
      events := w.events ++ events
      outbox := w.outbox ++ rows } := by
  rw [reactivateTickets]
  obtain ⟨events, hevents⟩ := foldl_insertEventOrIgnore_eq { w with
    tickets := updateWhere (fun t => t.ticketId ∈ (w.waiting new.taskId).map TaskLink.ticketId)
      (Ticket.takenUp new.updatedAt) w.tickets }
    (terminalEvents { w with
      tickets := updateWhere (fun t => t.ticketId ∈ (w.waiting new.taskId).map TaskLink.ticketId)
        (Ticket.takenUp new.updatedAt) w.tickets } old new)
  rw [hevents]
  obtain ⟨rows, hrows⟩ := foldl_insertOutboxOrIgnore_eq { w with
    tickets := updateWhere (fun t => t.ticketId ∈ (w.waiting new.taskId).map TaskLink.ticketId)
      (Ticket.takenUp new.updatedAt) w.tickets
    events := w.events ++ events } "work.ticket-work-due.v1"
    ((w.waiting new.taskId).map fun l =>
      (l.ticketId, "evt:" ++ terminalName l.ticketId new.taskId (old.revision + 1)))
  rw [hrows]
  exact ⟨events, rows, rfl⟩

/-- A task behind an update and the trigger that counts up its revision. -/
def counted (old : TaskRow) (set : TaskRow → TaskRow) (t : TaskRow) : TaskRow :=
  if (set old).revision = old.revision then { set t with revision := old.revision + 1 } else set t

/-- **An update of a task**: the task in its new state, the tickets that waited for its end, and
rows of the events and the outbox. -/
lemma updateTask_eq {taskId : String} {set : TaskRow → TaskRow} {old : TaskRow}
    (hset : ∀ t, (set t).taskId = t.taskId) (hold : w.lifecycle.task taskId = some old)
    (ofStatus : Bool) :
    ∃ events rows, w.updateTask taskId ofStatus set = { w with
      lifecycle := w.lifecycle.updateTask taskId (counted old set)
      tickets :=
        if Ends ofStatus old (set old) then
          updateWhere (fun t => t.ticketId ∈ (w.waiting taskId).map TaskLink.ticketId)
            (Ticket.takenUp (set old).updatedAt) w.tickets
        else w.tickets
      links :=
        if Ends ofStatus old (set old) then
          updateWhere (fun l => l.taskId = taskId ∧ l.status = .active)
            (fun l => { l with status := .terminal, terminalAt := some (set old).updatedAt })
            w.links
        else w.links
      events := w.events ++ events
      outbox := w.outbox ++ rows } := by
  have hid : (set old).taskId = taskId := (hset old).trans (Table.key_of_row hold)
  obtain ⟨events, rows, hrevised⟩ : ∃ events rows,
      (if (set old).revision = old.revision then
        (w.setTask taskId set).revisionEvent old (set old) else w.setTask taskId set) =
      { w with
        lifecycle := w.lifecycle.updateTask taskId (counted old set)
        events := w.events ++ events
        outbox := w.outbox ++ rows } := by
    by_cases hrevision : (set old).revision = old.revision
    · rw [if_pos hrevision, revisionEvent, hid]
      obtain ⟨events, rows, hpublish⟩ := publish_eq ((w.setTask taskId set).setTask taskId
        fun t => { t with revision := old.revision + 1 }) taskTopic taskId (taskChanged old (set old))
      refine ⟨events, rows, hpublish.trans ?_⟩
      have hcounted : counted old set = fun t => { set t with revision := old.revision + 1 } := by
        funext t
        rw [counted, if_pos hrevision]
      rw [hcounted, setTask, setTask, Db.updateTask, Db.updateTask, Db.updateTask,
        Table.updateWhere_updateWhere fun t ht => (hset t).trans ht]
      rfl
    · have hcounted : counted old set = set := by
        funext t
        rw [counted, if_neg hrevision]
      exact ⟨[], [], by rw [if_neg hrevision, hcounted, setTask]; simp⟩
  simp only [updateTask, hold]
  by_cases hends : Ends ofStatus old (set old)
  · rw [if_pos hends, if_pos hends, if_pos hends, hrevised]
    obtain ⟨more, moreRows, hreactivate⟩ := reactivateTickets_eq { w with
      lifecycle := w.lifecycle.updateTask taskId (counted old set)
      events := w.events ++ events
      outbox := w.outbox ++ rows } old (set old)
    refine ⟨events ++ more, rows ++ moreRows, hreactivate.trans ?_⟩
    rw [hid, ← List.append_assoc, ← List.append_assoc]
    rfl
  · rw [if_neg hends, if_neg hends, if_neg hends]
    exact ⟨events, rows, hrevised⟩

lemma updateTask_of_none {taskId : String} (h : w.lifecycle.task taskId = none) (ofStatus : Bool)
    (set : TaskRow → TaskRow) : w.updateTask taskId ofStatus set = w := by
  simp only [updateTask, h]

lemma framed_updateTask {taskId : String} {set : TaskRow → TaskRow}
    (hset : ∀ t, (set t).taskId = t.taskId) (ofStatus : Bool) :
    Framed w (w.updateTask taskId ofStatus set) := by
  cases hold : w.lifecycle.task taskId with
  | none =>
      rw [updateTask_of_none w hold]
      exact .refl w
  | some old =>
      obtain ⟨events, rows, h⟩ := updateTask_eq w hset hold ofStatus
      rw [h]
      exact ⟨rfl, rfl, rfl, rfl, rfl, rfl⟩

/-- The tasks stay what they are called. -/
lemma keys_updateTask {κ : Type} {key : TaskRow → κ} {taskId : String} {set : TaskRow → TaskRow}
    (hset : ∀ t, (set t).taskId = t.taskId) (hkey : ∀ t, key (set t) = key t)
    (hrevision : ∀ (t : TaskRow) revision, key { t with revision } = key t) (ofStatus : Bool) :
    (w.updateTask taskId ofStatus set).lifecycle.tasks.map key = w.lifecycle.tasks.map key := by
  cases hold : w.lifecycle.task taskId with
  | none => rw [updateTask_of_none w hold]
  | some old =>
      obtain ⟨events, rows, h⟩ := updateTask_eq w hset hold ofStatus
      rw [h]
      refine Table.keys_updateWhere fun t _ => ?_
      rw [counted]
      split
      · rw [hrevision, hkey]
      · exact hkey t

/-- The tickets stay what they are called. -/
lemma keys_tickets_updateTask {κ : Type} {key : Ticket → κ} {taskId : String}
    {set : TaskRow → TaskRow} (hset : ∀ t, (set t).taskId = t.taskId)
    (hkey : ∀ now t, key (Ticket.takenUp now t) = key t) (ofStatus : Bool) :
    (w.updateTask taskId ofStatus set).tickets.map key = w.tickets.map key := by
  cases hold : w.lifecycle.task taskId with
  | none => rw [updateTask_of_none w hold]
  | some old =>
      obtain ⟨events, rows, h⟩ := updateTask_eq w hset hold ofStatus
      rw [h]
      by_cases hends : Ends ofStatus old (set old)
      · rw [if_pos hends]
        exact Table.keys_updateWhere fun t _ => hkey _ t
      · rw [if_neg hends]

/-- An insertion of a task: the task, and rows of the events and the outbox. -/
lemma insertTask_eq (new : TaskRow) :
    ∃ events rows, w.insertTask new = { w with
      lifecycle := { w.lifecycle with tasks := w.lifecycle.tasks ++ [new] }
      events := w.events ++ events
      outbox := w.outbox ++ rows } := publish_eq _ _ _ _

end WorkDb

end WorkLifecycle

end McpSurfaces
