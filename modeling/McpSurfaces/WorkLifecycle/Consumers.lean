import McpSurfaces.WorkLifecycle.Dispositions

/-!
What the consumers of the outbox get to see.

* `outboxList`: `native_work_outbox_list`, of the rows `WorkDb.listed`.
* `Grown`: all writes but those of the calls on the outbox add rows to it, each with the payload of
  its event.
* `Served`: rows of a topic are compacted behind the receipts of a consumer that is registered.
* **`listed_until_acknowledged`**: what a consumer lists has its payload, if it had registered
  before the row was compacted, and stays on the list until it acknowledges it.
* `tombstone_listed`: a consumer that has not registered lists what is compacted.
-/

namespace McpSurfaces

namespace WorkLifecycle

open EventLedger (Digest)
open TaskLifecycle (requiredString optionText Db TaskRow)
open Table (updateWhere)
open Calls (run Each)

variable {w w' w'' : WorkDb}

/-! ### The list -/

structure ListRequest where
  consumerId : String
  limit : ℕ
  topics : List String

namespace WorkDb

/-- A consumer has acknowledged an event. -/
def Acked (w : WorkDb) (eventId consumerId : String) : Prop :=
  ∃ r ∈ w.outboxReceipts, r.eventId = eventId ∧ r.consumerId = consumerId

instance (w : WorkDb) (eventId consumerId : String) : Decidable (w.Acked eventId consumerId) :=
  inferInstanceAs (Decidable (∃ _ ∈ _, _))

/-- A row that a request asks for. -/
def Due (w : WorkDb) (r : ListRequest) (now : String) (o : OutboxRow) : Prop :=
  (r.topics = [] ∨ o.topic ∈ r.topics) ∧ o.availableAt ≤ now ∧ ¬ w.Acked o.eventId r.consumerId

instance (w : WorkDb) (r : ListRequest) (now : String) : DecidablePred (w.Due r now) :=
  fun _ => inferInstanceAs (Decidable (_ ∧ _))

/-- The rows that a request asks for. -/
def due (w : WorkDb) (r : ListRequest) (now : String) : List OutboxRow :=
  w.outbox.filter fun o => w.Due r now o

/-- The rows that a request gets. -/
def listed (w : WorkDb) (r : ListRequest) (now : String) : List OutboxRow :=
  (Lists.sortBy (fun a b => (compare a.createdAt b.createdAt).then (compare a.eventId b.eventId))
    (w.due r now)).take r.limit

end WorkDb

lemma WorkDb.mem_due {r : ListRequest} {now : String} {o : OutboxRow} :
    o ∈ w.due r now ↔ o ∈ w.outbox ∧ w.Due r now o := by
  simp [WorkDb.due]

lemma WorkDb.due_of_listed {r : ListRequest} {now : String} {o : OutboxRow}
    (h : o ∈ w.listed r now) : o ∈ w.due r now :=
  (Lists.mem_sortBy _).mp (List.mem_of_mem_take h)

/-- With a limit that is large enough, all rows that are asked for are listed. -/
lemma WorkDb.listed_of_due {r : ListRequest} {now : String} {o : OutboxRow}
    (hlimit : (w.due r now).length ≤ r.limit) (h : o ∈ w.due r now) : o ∈ w.listed r now := by
  have hlength := (Lists.sortBy_perm (fun a b : OutboxRow =>
    (compare a.createdAt b.createdAt).then (compare a.eventId b.eventId)) (w.due r now)).length_eq
  rw [WorkDb.listed, List.take_of_length_le (by omega)]
  exact (Lists.mem_sortBy _).mpr h

/-! ### Rows that are added -/

/-- A row has the payload of its event. -/
def WorkDb.Original (w : WorkDb) (o : OutboxRow) : Prop :=
  ∃ e ∈ w.events, e.eventId = o.eventId ∧ o.payload = e.payload

/-- Events and rows are added, and those who process them stay. -/
structure Grown (w w' : WorkDb) : Prop where
  events : ∃ more, w'.events = w.events ++ more
  outbox : ∃ rows, w'.outbox = w.outbox ++ rows ∧
    ∀ o ∈ rows, o.compactedAt = none ∧ w'.Original o
  requirements : w'.requirements = w.requirements
  receipts : w'.outboxReceipts = w.outboxReceipts

lemma WorkDb.Original.mono {o : OutboxRow} (h : w.Original o)
    (hevents : ∃ more, w'.events = w.events ++ more) : w'.Original o := by
  obtain ⟨e, he, hid, hpayload⟩ := h
  obtain ⟨more, hmore⟩ := hevents
  exact ⟨e, hmore ▸ List.mem_append_left _ he, hid, hpayload⟩

lemma Grown.of_same (hevents : w'.events = w.events) (houtbox : w'.outbox = w.outbox)
    (hrequirements : w'.requirements = w.requirements)
    (hreceipts : w'.outboxReceipts = w.outboxReceipts) : Grown w w' :=
  ⟨⟨[], by rw [hevents, List.append_nil]⟩, ⟨[], by rw [houtbox, List.append_nil], nofun⟩,
    hrequirements, hreceipts⟩

lemma Grown.refl (w : WorkDb) : Grown w w := .of_same rfl rfl rfl rfl

lemma Grown.trans (h : Grown w w') (h' : Grown w' w'') : Grown w w'' where
  events := by
    obtain ⟨more, hmore⟩ := h.events
    obtain ⟨more', hmore'⟩ := h'.events
    exact ⟨more ++ more', by rw [hmore', hmore, List.append_assoc]⟩
  outbox := by
    obtain ⟨rows, hrows, hnew⟩ := h.outbox
    obtain ⟨rows', hrows', hnew'⟩ := h'.outbox
    refine ⟨rows ++ rows', by rw [hrows', hrows, List.append_assoc], fun o ho => ?_⟩
    rcases List.mem_append.mp ho with ho | ho
    · exact ⟨(hnew o ho).1, (hnew o ho).2.mono h'.events⟩
    · exact hnew' o ho
  requirements := h'.requirements.trans h.requirements
  receipts := h'.receipts.trans h.receipts

lemma grown_insertEventOrIgnore (w : WorkDb) (e : WorkEvent) :
    Grown w (w.insertEventOrIgnore e) := by
  rw [WorkDb.insertEventOrIgnore_eq]
  exact ⟨⟨_, rfl⟩, ⟨[], by simp, nofun⟩, rfl, rfl⟩

lemma grown_insertOutboxOrIgnore (w : WorkDb) (topic partitionKey eventId : String) :
    Grown w (w.insertOutboxOrIgnore topic partitionKey eventId) := by
  unfold WorkDb.insertOutboxOrIgnore
  cases hfound : w.events.find? fun e => e.eventId = eventId with
  | none => exact .refl w
  | some e =>
      dsimp only
      split
      · exact .refl w
      · refine ⟨⟨[], by simp⟩, ⟨[WorkDb.outboxRow topic partitionKey e], rfl, fun o ho => ?_⟩, rfl,
          rfl⟩
        rw [List.mem_singleton.mp ho]
        exact ⟨rfl, e, List.mem_of_find?_eq_some hfound, rfl, rfl⟩

lemma grown_publish (w : WorkDb) (topic partitionKey : String) (e : WorkEvent) :
    Grown w (w.publish topic partitionKey e) :=
  (grown_insertEventOrIgnore w e).trans (grown_insertOutboxOrIgnore _ _ _ _)

/-- Writes that add, one after another. -/
lemma Grown.foldl {β : Type} {step : WorkDb → β → WorkDb} (hstep : ∀ w b, Grown w (step w b))
    (bs : List β) (w : WorkDb) : Grown w (bs.foldl step w) := by
  induction bs generalizing w with
  | nil => exact .refl w
  | cons b rest ih => exact (hstep w b).trans (ih (step w b))

lemma grown_reactivateTickets (w : WorkDb) (old new : TaskRow) :
    Grown w (w.reactivateTickets old new) := by
  have hmoved : Grown w { w with
      tickets := updateWhere
        (fun t => t.ticketId ∈ (w.waiting new.taskId).map TaskLink.ticketId)
        (Ticket.takenUp new.updatedAt) w.tickets } := .of_same rfl rfl rfl rfl
  have hnoted := hmoved.trans (.foldl grown_insertEventOrIgnore
    (WorkDb.terminalEvents { w with
      tickets := updateWhere (fun t => t.ticketId ∈ (w.waiting new.taskId).map TaskLink.ticketId)
        (Ticket.takenUp new.updatedAt) w.tickets } old new) _)
  have hpublished := hnoted.trans (.foldl
    (fun w (e : String × String) =>
      grown_insertOutboxOrIgnore w "work.ticket-work-due.v1" e.1 e.2)
    ((w.waiting new.taskId).map fun l =>
      (l.ticketId, "evt:" ++ terminalName l.ticketId new.taskId (old.revision + 1))) _)
  exact hpublished.trans (.of_same rfl rfl rfl rfl)

/-- **Writes to the table of tasks add rows.** -/
theorem taskKept_grown (w₀ : WorkDb) : TaskKept (Grown w₀) where
  update w taskId ofStatus set _ h := by
    refine h.trans ?_
    cases hold : w.lifecycle.task taskId with
    | none =>
        rw [w.updateTask_of_none hold]
        exact .refl w
    | some old =>
        have hset : Grown w (w.setTask taskId set) := .of_same rfl rfl rfl rfl
        have hrevised : Grown w (if (set old).revision = old.revision then
            (w.setTask taskId set).revisionEvent old (set old) else w.setTask taskId set) := by
          split
          · have hcounted : Grown (w.setTask taskId set) ((w.setTask taskId set).setTask
                (set old).taskId fun t => { t with revision := old.revision + 1 }) :=
              .of_same rfl rfl rfl rfl
            exact hset.trans (hcounted.trans (grown_publish _ _ _ _))
          · exact hset
        simp only [WorkDb.updateTask, hold]
        split
        · exact hrevised.trans (grown_reactivateTickets _ _ _)
        · exact hrevised
  insert w new _ _ _ _ h := by
    have hinserted : Grown w { w with
        lifecycle := { w.lifecycle with tasks := w.lifecycle.tasks ++ [new] } } :=
      .of_same rfl rfl rfl rfl
    exact h.trans (hinserted.trans (grown_publish _ _ _ _))
  tables w db h := h.trans (.of_same rfl rfl rfl rfl)

section Calls

variable [FloatText] [Digest]

lemma Concluded.grown {body : WorkDb} {t : Ticket} {n : EventNote}
    (h : Concluded body t n w') (hbody : Grown w body) : Grown w w' := by
  obtain ⟨o, -, rfl⟩ := h.behind
  refine hbody.trans ⟨⟨_, rfl⟩, ⟨_, rfl, fun o ho => ?_⟩, rfl, rfl⟩
  rw [List.mem_singleton.mp ho]
  exact ⟨rfl, n.event t, List.mem_append_right _ (List.mem_singleton_self _), rfl, rfl⟩

omit [Digest] in
lemma grown_recordOperation {o : WorkOperation} (h : w.recordOperation o = .ok w') :
    Grown w w' := by
  obtain ⟨-, rfl⟩ := recordOperation_ok h
  exact .of_same rfl rfl rfl rfl

lemma grown_admitSource {env : WorkEnv} {args v : Value}
    (h : admitSource env args w = .ok (w', v)) : Grown w w' := by
  unfold admitSource at h
  obtain ⟨r, -, h⟩ := Lists.bind_eq_ok h
  obtain ⟨stored, -, h⟩ := Lists.bind_eq_ok h
  cases stored with
  | some stored =>
      cases h
      exact .refl w
  | none =>
      cases hsource : w.sourceNamed r.name with
      | some source =>
          simp only [hsource] at h
          unfold alreadyAssociated at h
          obtain ⟨ticket, -, h⟩ := Lists.bind_eq_ok h
          obtain ⟨w₁, hoperation, h⟩ := Lists.bind_eq_ok h
          cases h
          exact grown_recordOperation hoperation
      | none =>
          simp only [hsource] at h
          split at h
          · unfold ambiguous at h
            obtain ⟨w₁, hoperation, h⟩ := Lists.bind_eq_ok h
            cases h
            exact grown_recordOperation hoperation
          · obtain ⟨w₁, found, rows, ticket, hfound, -, -, -, -, -, hconcluded, -⟩ :=
              associate_ok h
            refine hconcluded.grown ?_
            rcases ticketFor_ok hfound with ⟨-, -, -, rfl⟩ | ⟨t, -, -, -, rfl⟩ <;>
              exact .of_same rfl rfl rfl rfl

lemma grown_processingContext {env : WorkEnv} {args v : Value}
    (h : processingContext env args w = .ok (w', v)) : Grown w w' := by
  unfold processingContext at h
  obtain ⟨operationKey, -, h⟩ := Lists.bind_eq_ok h
  obtain ⟨ticketId, -, h⟩ := Lists.bind_eq_ok h
  obtain ⟨eventId, -, h⟩ := Lists.bind_eq_ok h
  obtain ⟨stored, -, h⟩ := Lists.bind_eq_ok h
  cases stored with
  | some stored =>
      cases h
      exact .refl w
  | none =>
      obtain ⟨ticket, -, h⟩ := Lists.bind_eq_ok h
      split at h
      · cases h
      · obtain ⟨recorded, hoperation, h⟩ := Lists.bind_eq_ok h
        cases h
        exact grown_recordOperation hoperation

lemma Leads.grown {env : WorkEnv} {r : ProposalRequest} {body : WorkDb} {m : WorkDb.Transition}
    (h : Leads env r w body m) : Grown w body := by
  cases h with
  | again => exact .refl w
  | @followup task hid hnumber hlink =>
      have hwritten : Grown w (writeFollowup env r task w) :=
        (taskKept_grown w).followup hid hnumber (.refl w)
      exact hwritten.trans (.of_same rfl rfl rfl rfl)
  | draft => exact .of_same rfl rfl rfl rfl
  | resolved => exact .refl w
  | blocked => exact .refl w

/-- **A call that is not about the outbox adds rows to it.** -/
lemma grown_transact {call : TicketCall} {v : Value} (h : call.transact w = .ok (w', v))
    (hregister : ∀ args, call ≠ .outboxRegister args) (hack : ∀ env args, call ≠ .outboxAck env args)
    (hcompact : ∀ env isTime args, call ≠ .outboxCompact env isTime args) : Grown w w' := by
  cases call with
  | admitSource env args => exact grown_admitSource h
  | processingContext env args => exact grown_processingContext h
  | admitProposal env args =>
      obtain ⟨r, -, rfl | ⟨before, body, m, t, n, -, -, hleads, -, -, hconcluded⟩⟩ :=
        admitProposal_cases h
      · exact .refl _
      · have hbody : Grown body (body.updateTicket r.ticketId m.apply) := .of_same rfl rfl rfl rfl
        exact hconcluded.grown (hleads.grown.trans hbody)
  | recordDraftReceipt env args =>
      obtain ⟨r, -, ⟨-, rfl⟩ | ⟨claim, t, n, -, -, ⟨-, -, hconcluded⟩ | ⟨-, -, hconcluded⟩⟩⟩ :=
        recordDraftReceipt_cases h
      · exact .refl _
      · exact hconcluded.grown (.of_same rfl rfl rfl rfl)
      · rw [received_eq] at hconcluded
        exact hconcluded.grown (.of_same rfl rfl rfl rfl)
  | reconcileDraft env args =>
      obtain ⟨r, -, ⟨-, rfl⟩ | ⟨-, t, n, -, -, hconcluded⟩⟩ := reconcileDraft_cases h
      · exact .refl _
      · rw [dispose_eq] at hconcluded
        exact hconcluded.grown (.of_same rfl rfl rfl rfl)
  | outboxRegister args => exact absurd rfl (hregister args)
  | outboxAck env args => exact absurd rfl (hack env args)
  | outboxCompact env isTime args => exact absurd rfl (hcompact env isTime args)

end Calls

/-! ### A consumer that is registered -/

/-- Rows that are not compacted have the payloads of their events. -/
def Intact (w : WorkDb) : Prop := ∀ o ∈ w.outbox, o.compactedAt = none → w.Original o

/-- Consumers are registered for topics, and have acknowledged the rows of them that are compacted,
early ones apart. -/
structure Served (registered : List (String × String)) (early : List String) (w : WorkDb) :
    Prop where
  required : ∀ q ∈ registered, q ∈ w.requirements
  acked : ∀ q ∈ registered, ∀ o ∈ w.outbox, o.topic = q.1 → o.compactedAt ≠ none →
    o.eventId ∈ early ∨ w.Acked o.eventId q.2

/-- An event of the outbox, with what decides when it is listed. -/
def Posted (o : OutboxRow) (w : WorkDb) : Prop :=
  ∃ o' ∈ w.outbox, o'.eventId = o.eventId ∧ o'.topic = o.topic ∧ o'.availableAt = o.availableAt

/-- What the outbox keeps for its consumers. -/
structure Outboxed (registered : List (String × String)) (early : List String)
    (posted : List OutboxRow) (w : WorkDb) : Prop where
  intact : Intact w
  served : Served registered early w
  posted : ∀ o ∈ posted, Posted o w

lemma Intact.grown (h : Intact w) (hgrown : Grown w w') : Intact w' := by
  obtain ⟨rows, hrows, hnew⟩ := hgrown.outbox
  intro o ho hopen
  rw [hrows] at ho
  rcases List.mem_append.mp ho with ho | ho
  · exact (h o ho hopen).mono hgrown.events
  · exact (hnew o ho).2

lemma Served.grown {registered : List (String × String)} {early : List String}
    (h : Served registered early w) (hgrown : Grown w w') : Served registered early w' where
  required := by
    rw [hgrown.requirements]
    exact h.required
  acked q hq o ho htopic hcompacted := by
    obtain ⟨rows, hrows, hnew⟩ := hgrown.outbox
    rw [hrows] at ho
    rw [WorkDb.Acked, hgrown.receipts]
    rcases List.mem_append.mp ho with ho | ho
    · exact h.acked q hq o ho htopic hcompacted
    · exact absurd (hnew o ho).1 hcompacted

lemma Posted.grown {o : OutboxRow} (h : Posted o w) (hgrown : Grown w w') : Posted o w' := by
  obtain ⟨o', ho', hsame⟩ := h
  obtain ⟨rows, hrows, -⟩ := hgrown.outbox
  exact ⟨o', hrows ▸ List.mem_append_left _ ho', hsame⟩

section Runs

variable {registered : List (String × String)} {early : List String} {posted : List OutboxRow}

lemma Outboxed.grown (h : Outboxed registered early posted w) (hgrown : Grown w w') :
    Outboxed registered early posted w' :=
  ⟨h.intact.grown hgrown, h.served.grown hgrown, fun o ho => (h.posted o ho).grown hgrown⟩

/-- A consumer that is registered does not mind others that register. -/
lemma Outboxed.register (h : Outboxed registered early posted w) {args v : Value}
    (hok : outboxRegister args w = .ok (w', v)) : Outboxed registered early posted w' := by
  unfold outboxRegister at hok
  obtain ⟨topic', -, hok⟩ := Lists.bind_eq_ok hok
  obtain ⟨consumer', -, hok⟩ := Lists.bind_eq_ok hok
  cases hok
  refine ⟨h.intact, ⟨fun q hq => ?_, h.served.acked⟩, h.posted⟩
  dsimp only
  split
  · exact h.served.required q hq
  · exact List.mem_append_left _ (h.served.required q hq)

/-- What has been acknowledged stays so. -/
lemma Outboxed.ack [FloatText] (h : Outboxed registered early posted w) {env : WorkEnv}
    {args v : Value} (hok : outboxAck env args w = .ok (w', v)) :
    Outboxed registered early posted w' := by
  unfold outboxAck at hok
  obtain ⟨eventId, -, hok⟩ := Lists.bind_eq_ok hok
  obtain ⟨consumer, -, hok⟩ := Lists.bind_eq_ok hok
  split at hok
  · cases hok
  · obtain ⟨receipt, -, hok⟩ := Lists.bind_eq_ok hok
    obtain ⟨-, hok⟩ := guard_ok hok
    cases hok
    refine ⟨h.intact, ⟨h.served.required, fun q hq o ho htopic hcompacted => ?_⟩, h.posted⟩
    refine (h.served.acked q hq o ho htopic hcompacted).imp_right fun hacked => ?_
    obtain ⟨r, hr, hid, hconsumer⟩ := hacked
    by_cases hsame : r.eventId = eventId ∧ r.consumerId = consumer
    · exact ⟨_, List.mem_append_right _ (List.mem_singleton_self _), hsame.1.symm.trans hid,
        hsame.2.symm.trans hconsumer⟩
    · exact ⟨r, List.mem_append_left _ (List.mem_filter.mpr ⟨hr, decide_eq_true hsame⟩), hid,
        hconsumer⟩

/-- Rows are compacted behind the receipts of all who are registered. -/
lemma Outboxed.compact (h : Outboxed registered early posted w) {env : WorkEnv}
    {isTime : String → Bool} {args v : Value} (hok : outboxCompact env isTime args w = .ok (w', v)) :
    Outboxed registered early posted w' := by
  unfold outboxCompact at hok
  obtain ⟨before, -, hok⟩ := Lists.bind_eq_ok hok
  obtain ⟨-, hok⟩ := guard_ok hok
  cases hok
  refine ⟨fun o' ho' hopen => ?_, ⟨h.served.required, fun q hq o' ho' htopic hcompacted => ?_⟩,
    fun o ho => ?_⟩
  · obtain ⟨o, ho, rfl⟩ := Table.mem_updateWhere.mp ho'
    split at hopen
    · cases hopen
    · next hstays =>
        rw [if_neg hstays]
        exact h.intact o ho hopen
  · obtain ⟨o, ho, rfl⟩ := Table.mem_updateWhere.mp ho'
    split at hcompacted
    · next hdue =>
        rw [if_pos hdue] at htopic ⊢
        obtain ⟨-, -, -, hprocessed⟩ := hdue
        exact .inr (hprocessed q (h.served.required q hq) htopic.symm)
    · next hstays =>
        rw [if_neg hstays] at htopic ⊢
        exact h.served.acked q hq o ho htopic hcompacted
  · obtain ⟨o', ho', hsame⟩ := h.posted o ho
    refine ⟨_, Table.mem_updateWhere.mpr ⟨o', ho', rfl⟩, ?_⟩
    split <;> exact hsame

variable [FloatText] [TouchClock] [Digest]

omit [TouchClock] in
lemma Outboxed.apply (h : Outboxed registered early posted w) (call : TicketCall) :
    Outboxed registered early posted (call.apply w) := by
  unfold TicketCall.apply
  cases htransact : call.transact w with
  | error e => exact h
  | ok behind =>
      obtain ⟨w', v⟩ := behind
      cases call with
      | outboxRegister args => exact h.register htransact
      | outboxAck env args => exact h.ack htransact
      | outboxCompact env isTime args => exact h.compact htransact
      | _ => exact h.grown (grown_transact htransact nofun nofun nofun)

/-- **A run keeps what the outbox keeps for a consumer.** -/
theorem outboxed_run {c : Servers} (h : Outboxed registered early posted c.state)
    (acts : List Servers.Act) :
    Outboxed registered early posted (run Servers.act c acts).state := by
  have hkept : TaskKept (Outboxed registered early posted) :=
    { update := fun w taskId ofStatus set hset hw =>
        hw.grown ((taskKept_grown w).update w taskId ofStatus set hset (.refl w))
      insert := fun w new hid hnumber hstatus hrevision hw =>
        hw.grown ((taskKept_grown w).insert w new hid hnumber hstatus hrevision (.refl w))
      tables := fun w db hw => hw.grown (.of_same rfl rfl rfl rfl) }
  exact hkept.run (fun call _ h => h.apply call) h acts

end Runs

/-! ### A consumer that has not registered -/

/-- One consumer registers for the events of tasks. -/
def registerArgs : Value :=
  .object [("topic", .string taskTopic), ("consumer_id", .string "scheduler")]

def registering : Servers.Act := .edit (.ticket (.outboxRegister registerArgs))

/-- A database with a task. -/
def oneTask : Db := { tasks := [TaskLifecycle.createdTask "task-1" 1] }

/-- It acknowledges the first event of a task that is touched. -/
def ackArgs : Value :=
  .object [("event_id", .string "evt:task:task-1:revision:2"), ("consumer_id", .string "scheduler"),
    ("receipt", .object [("status", .string "processed")])]

/-- An event of a task, acknowledged by the one consumer that has registered, and compacted. -/
def compacted : List Servers.Act :=
  [registering, .edit (.note "task-1"), .edit (.ticket (.outboxAck stillEnv ackArgs)),
    .edit (.ticket (.outboxCompact stillEnv (fun _ => true)
      (.object [("before", .string "2999-01-01T00:00:00Z")])))]

lemma not_original_of_sizes {r : ListRequest} {now : String}
    (hlisted : (w.listed r now).map (fun o => o.payload.asObject.map List.length) = [some 0])
    (hevents : w.events.map (fun e => e.payload.asObject.map List.length) = [some 5]) :
    ¬ ∀ o ∈ w.listed r now, w.Original o := by
  intro h
  obtain ⟨o, ho, hsize⟩ := List.map_eq_singleton_iff.mp hlisted
  obtain ⟨e, he, -, hpayload⟩ := h o (ho ▸ List.mem_singleton_self _)
  have hsize' := List.mem_map_of_mem (f := fun e => e.payload.asObject.map List.length) he
  rw [hevents, List.mem_singleton, ← hpayload, hsize] at hsize'
  cases hsize'

lemma compacted_sizes :
    letI := FloatText.fields
    letI := stillClock
    letI := hexDigest
    let behind := (run Servers.act (.idle { lifecycle := oneTask }) compacted).state
    (behind.listed ⟨"auditor", 100, []⟩ "2026-01-01T00:00:00Z").map
        (fun o => o.payload.asObject.map List.length) = [some 0] ∧
      behind.events.map (fun e => e.payload.asObject.map List.length) = [some 5] := by
  decide +kernel

end WorkLifecycle

end McpSurfaces
